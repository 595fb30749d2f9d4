import Aerobag.Client.Proofs.CompletionProofs
import Aerobag.Client.Sample
import Aerobag.Proofs.ContractProofs

/-!
# Pending keys

A device that has verified a root holds the root's page, except at its pending keys. The staged page
carries the invariant through a publication: an edit in between makes its key pending.
-/

open Option Except

namespace Aerobag.Client

open Command Sync

variable {J F : Type} {env : CloudEnv J F} {i : Input} {hash : String} {account : AccountRef}
  {node : CloudNode} {s t : Sync J} {purpose : ReadPurpose} {page : RecordMap J}

/-- What opens under a hash is determined by the hash, because no two envelopes collide. -/
theorem Opens.unique (hsh : env.primitives.CollisionFree) {k : AcsEncryptedValueKind}
    {vi r : String} {j j' : J} (h : Opens env account k vi r hash j)
    (h' : Opens env account k vi r hash j') : j = j' := by
  obtain ⟨v, secret, hha, hsc, hop⟩ := h
  obtain ⟨v', s', hha', hsc', hop'⟩ := h'
  obtain rfl : secret = s' := Except.ok.inj (hsc.symm.trans hsc')
  obtain ⟨ct, aad, hcp, had, -, rfl⟩ := AcsEncryptedValue.authenticatedHash_eq_ok hha
  obtain ⟨ct', aad', hcp', had', -, hsm⟩ := AcsEncryptedValue.authenticatedHash_eq_ok hha'
  obtain ⟨rfl, rfl⟩ := hsh.split (hsh.injective (hexBytes_injective hsm))
  simp only [openAcsValue, bind_eq_ok, hcp, had, Except.ok.injEq] at hop
  simp only [openAcsValue, bind_eq_ok, hcp', had', Except.ok.injEq] at hop'
  obtain ⟨_, _, _, rfl, _, rfl, hop⟩ := hop
  obtain ⟨_, _, _, rfl, _, rfl, hop'⟩ := hop'
  exact Except.ok.inj (hop.symm.trans hop')

theorem RootNode.unique (hsh : env.primitives.CollisionFree) {n' : CloudNode}
    (h : RootNode env account hash node) (h' : RootNode env account hash n') : node = n' := by
  obtain ⟨j, hos, hnd⟩ := h
  obtain ⟨j', hos', hnd'⟩ := h'
  obtain rfl := hos.unique hsh hos'
  exact Except.ok.inj (hnd.symm.trans hnd')

theorem RootPage.unique (hsh : env.primitives.CollisionFree) {p p' : CloudPage J}
    (h : RootPage env account hash p) (h' : RootPage env account hash p') : p = p' := by
  obtain ⟨n, hnd, -, j, hos, hpg⟩ := h
  obtain ⟨n', hnd', -, j', hos', hpg'⟩ := h'
  obtain rfl := hnd.unique hsh hnd'
  obtain rfl := hos.unique hsh hos'
  exact Except.ok.inj (hpg.symm.trans hpg')

/-- Under every key that is not pending, the page has what is cached. -/
def Agrees (page cached : RecordMap J) (pending : KeySet) : Prop :=
  ∀ key, key ∉ pending → cached[key]? = page[key]?

/-- The workflow is about to commit this publication. -/
def Sync.Staged (s : Sync J) (staged : StagedPublication) : Prop :=
  ∃ revision hash, s.workflow = some (.acsCreatePage staged revision hash) ∨
    s.workflow = some (.acsCommitRoot staged revision hash)

/-- The page of a staged publication has the records of the device, except what was edited since. -/
structure StagedPage (env : CloudEnv J F) (account : AccountRef) (s : Sync J)
    (staged : StagedPublication) (page : CloudPage J) : Prop where
  rootPage : RootPage env account staged.nodeHash page
  agrees : Agrees page.records s.cached s.pending
  revision : staged.localRevision ≤ s.localRevision
  unedited : staged.localRevision = s.localRevision → s.cached = page.records

structure PendingInv (env : CloudEnv J F) (s : Sync J) : Prop where
  current : Current env s
  unlinked : s.account = none → s.pending = ∅
  recorded : ∀ {key}, key ∈ s.pending → s.cached[key]?.isSome
  verified : ∀ {account root}, s.account = some account → Verified env s root →
    ∃ page, RootPage env account root.hash page ∧ Agrees page.records s.cached s.pending
  staged : ∀ {account staged}, s.account = some account → s.Staged staged →
    staged.purpose ≠ .upgrade → ∃ page, StagedPage env account s staged page
  reading : ∀ {account root node purpose}, s.account = some account →
    s.workflow = some (.acsReadPage root node purpose) →
      RootNode env account root.rootHash node ∧
        s.observed = some ⟨node.version, root.revision, root.rootHash, false⟩

theorem not_staged_of_idle (hid : CloudWorkflow.Idle s.workflow) {sg : StagedPublication} :
    ¬ s.Staged sg := by
  rintro ⟨rev, hs, h | h⟩ <;> simp [h, CloudWorkflow.Idle] at hid

theorem not_reading_of_idle (hid : CloudWorkflow.Idle s.workflow) {r : AcsRootSnapshot} :
    s.workflow ≠ some (.acsReadPage r node purpose) := by
  intro h
  simp [h, CloudWorkflow.Idle] at hid

theorem resumedWorkflow_ne_acsReadPage (wf : CloudWorkflow) {r : AcsRootSnapshot} :
    resumedWorkflow wf ≠ .acsReadPage r node purpose := by
  cases wf <;> simp only [resumedWorkflow] <;> (try split) <;> simp

theorem staged_of_resumed {d : CloudPersistentState J} {staged : StagedPublication}
    (h : d.stored.Staged staged) : d.sync.Staged staged := by
  obtain ⟨rev, hs, h⟩ := h
  refine ⟨rev, hs, ?_⟩
  simp only [CloudPersistentState.stored, CloudPersistentState.sync] at h ⊢
  cases hw : d.workflow with
  | none => simp [hw] at h
  | some wf =>
    rw [hw] at h
    cases wf <;> simp only [resumedWorkflow, map_some] at h <;> (try split at h) <;> simp_all

theorem not_verified_of_unread {ver r : Nat}
    (h : s.observed = some ⟨ver, r, hash, false⟩) (rt : ObservedRoot) : ¬ Verified env s rt := by
  rintro ⟨hrt, -, hrd⟩
  obtain rfl := some.inj (h.symm.trans hrt)
  exact absurd hrd (by simp)

theorem Sync.Publishes.records_eq {pg : CloudPage J} {hs : Option String}
    {p : PublicationPurpose} (h : Publishes env s pg hs p)
    (hpr : p ≠ .upgrade) : pg.records = s.cached := by
  cases h with
  | publish _ _ hrc => exact hrc
  | createAccount _ hrc => exact hrc
  | upgrade _ => exact absurd rfl hpr

/-- After a page was reconciled the cache agrees with it. -/
theorem Sync.Reconciled.agrees (h : Reconciled env purpose page s t) :
    Agrees page t.cached t.pending := by
  intro key hk
  cases hpg : page[key]? with
  | none =>
    obtain ⟨hcc, hpn⟩ := h.unknown hpg
    rw [hpn, not_or] at hk
    rw [hcc]
    simpa using hk.2
  | some r =>
    by_cases hwn : Wins env purpose (key ∈ s.pending) s.cached[key]? r
    · exact (h.adopted hpg hwn).1
    · exact absurd (h.kept hpg hwn).2 hk

variable {key : String}

theorem Sync.Reconciled.recorded (h : Reconciled env purpose page s t)
    (hs : ∀ {key}, key ∈ s.pending → s.cached[key]?.isSome) (hk : key ∈ t.pending) :
    t.cached[key]?.isSome := by
  cases hpg : page[key]? with
  | none =>
    obtain ⟨hcc, hpn⟩ := h.unknown hpg
    rw [hcc]
    exact (hpn.1 hk).elim hs id
  | some rm =>
    by_cases hwn : Wins env purpose (key ∈ s.pending) s.cached[key]? rm
    · exact absurd hk (h.adopted hpg hwn).2
    · rw [(h.kept hpg hwn).1]
      by_contra hn
      rw [not_isSome_iff_eq_none] at hn
      exact hwn (.inr fun r hrc => absurd (hn.symm.trans hrc) (by simp))

/-- A pending record gives way only to a record of the page that wins over it. -/
theorem Sync.Reconciled.wins (h : Reconciled env purpose page s t)
    (hs : key ∈ s.pending) (ht : key ∉ t.pending) :
    ∃ rm, page[key]? = some rm ∧ ∀ r, s.cached[key]? = some r →
      compareCloudRecords env.primitives env.codec.toRecordCodec rm r ≠ .lt := by
  cases hpg : page[key]? with
  | none => exact absurd ((h.unknown hpg).2.2 (.inl hs)) ht
  | some rm =>
    by_cases hwn : Wins env purpose (key ∈ s.pending) s.cached[key]? rm
    · rcases hwn with ⟨-, hnt⟩ | hwn
      · exact absurd hs hnt
      · exact ⟨rm, rfl, hwn⟩
    · exact absurd (h.kept hpg hwn).2 ht

namespace PendingInv

variable {s t : Sync J} {i : Input}

/-- An edited key is pending. -/
theorem edit (h : PendingInv env s) {r : CloudRecord J} :
    PendingInv env (s.edit key r) := by
  have hag : ∀ {a p}, s.account = some a → Agrees p s.cached s.pending →
      Agrees p (s.edit key r).cached (s.edit key r).pending := by
    intro a p ha hag key' hk'
    simp only [Sync.edit, ha, isSome_some, if_true, Std.ExtTreeSet.mem_insert, not_or] at hk' ⊢
    rw [Std.ExtTreeMap.getElem?_insert, if_neg hk'.1]
    exact hag key' hk'.2
  refine ⟨⟨h.current.format, h.current.version⟩, ?_, ?_, ?_, ?_, fun ha => h.reading ha⟩
  · intro ha
    have ha : s.account = none := ha
    simpa [Sync.edit, ha] using h.unlinked ha
  · intro key' hk'
    simp only [Sync.edit, Std.ExtTreeMap.getElem?_insert] at hk' ⊢
    split at hk' <;> split <;> simp_all [h.recorded]
  · intro a rt ha hvr
    obtain ⟨p, hpg, hag'⟩ := h.verified ha hvr
    exact ⟨p, hpg, hag ha hag'⟩
  · intro a st ha hst hpr
    obtain ⟨p, hpg⟩ := h.staged ha hst hpr
    refine ⟨p, hpg.rootPage, hag ha hpg.agrees, Nat.le_succ_of_le hpg.revision, ?_⟩
    intro hsm
    have hsm : st.localRevision = s.localRevision + 1 := hsm
    have := hpg.revision
    omega

/-- A step that ends with nothing staged or awaited and with no root verified keeps the
invariant, provided that an unlinked device has nothing pending. -/
theorem of_idle (hcr : Current env t) (hpn : t.account = none → t.pending = ∅)
    (hr : ∀ {key}, key ∈ t.pending → t.cached[key]?.isSome) (hid : CloudWorkflow.Idle t.workflow)
    (hvr : ∀ r, ¬ Verified env t r) :
    PendingInv env t :=
  ⟨hcr, hpn, hr, fun _ h => absurd h (hvr _),
    fun _ h => absurd h (not_staged_of_idle hid), fun _ h => absurd h (not_reading_of_idle hid)⟩

/-- The invariant is kept by a step, one case for each kind. -/
theorem step (h : PendingInv env s) (hst : Step env i s t) : PendingInv env t := by
  have hcr : ∀ {u : Sync J}, u.recordsFormat = s.recordsFormat → u.version = s.version →
      Current env u := fun hfr hv =>
    ⟨hfr.trans h.current.format, hv.trans h.current.version⟩
  cases hst with
  | quiet => exact h
  | idle hid _ =>
    exact ⟨hcr rfl rfl, h.unlinked, h.recorded, fun ha hvr => h.verified ha hvr,
      fun _ hsg => absurd hsg (not_staged_of_idle hid),
      fun _ hrd => absurd hrd (not_reading_of_idle hid)⟩
  | forget hid _ => exact of_idle (hcr rfl rfl) h.unlinked h.recorded hid (by simp [Verified])
  | consent _ =>
    exact ⟨hcr rfl rfl, h.unlinked, h.recorded, fun ha hvr => h.verified ha hvr, fun ha hsg hpr =>
        (h.staged ha hsg hpr).imp fun _ hpg =>
          ⟨hpg.rootPage, hpg.agrees, hpg.revision, hpg.unedited⟩,
      fun ha hrd => h.reading ha hrd⟩
  | link _ hpn hid =>
    refine of_idle (hcr rfl rfl) (by simp) ?_ hid (by simp [Verified])
    rcases hpn with rfl | rfl
    · simp
    · exact h.recorded
  | create _ =>
    refine of_idle (hcr rfl rfl) (by simp) ?_ trivial (by simp [Verified])
    intro key hk
    rw [Std.ExtTreeSet.mem_ofList, List.contains_iff_mem, Std.ExtTreeMap.mem_keys] at hk
    exact Std.ExtTreeMap.mem_iff_isSome_getElem?.1 hk
  | unlink _ _ => exact ⟨hcr rfl rfl, fun _ => rfl, by simp, by simp, by simp, by simp⟩
  | @stage a p st rev hs ha hpg hrv hpb =>
    refine ⟨hcr rfl rfl, h.unlinked, h.recorded, fun ha hvr => h.verified ha hvr, ?_, by simp⟩
    rintro a' st' ha' ⟨rev', has', hsg⟩ hpr
    obtain rfl : a = a' := some.inj (ha.symm.trans ha')
    obtain rfl : st = st' := by rcases hsg with hsg | hsg <;> cases hsg; rfl
    have hre := hpb.records_eq hpr
    exact ⟨p, hpg, fun _ _ => by rw [hre], hrv.le, fun _ => hre.symm⟩
  | @store st rev hs hw =>
    refine ⟨hcr rfl rfl, h.unlinked, h.recorded, fun ha hvr => h.verified ha hvr, ?_, by simp⟩
    rintro a st' ha ⟨rev', has', hsg⟩ hpr
    obtain rfl : st = st' := by rcases hsg with hsg | hsg <;> cases hsg; rfl
    obtain ⟨p, hpg⟩ := h.staged ha ⟨_, _, .inl hw⟩ hpr
    exact ⟨p, hpg.rootPage, hpg.agrees, hpg.revision, hpg.unedited⟩
  | @commit st rev hs nr hw hpr =>
    refine ⟨hcr rfl rfl, fun ha => by simp [h.unlinked ha], ?_, ?_,
      fun _ hsg => absurd hsg (not_staged_of_idle (by trivial)), by simp⟩
    · intro key hk
      split at hk
      · simp at hk
      · exact h.recorded hk
    · rintro a r ha ⟨hrt, -, -⟩
      obtain ⟨p, hpg⟩ := h.staged ha ⟨_, _, .inr hw⟩ hpr
      obtain rfl : _ = r := some.inj hrt
      refine ⟨p, hpg.rootPage, ?_⟩
      intro key hk
      by_cases hsm : s.localRevision = st.localRevision
      · rw [← hpg.unedited hsm.symm]
      · rw [if_neg hsm] at hk
        exact hpg.agrees key hk
  | observe _ _ =>
    exact of_idle (hcr rfl rfl) h.unlinked h.recorded trivial (not_verified_of_unread rfl)
  | @read a r n pu src ha _ hnd _ =>
    refine ⟨hcr rfl rfl, h.unlinked, h.recorded, fun _ hvr => absurd hvr (not_verified_of_unread rfl _),
      fun _ hsg => ?_, ?_⟩
    · obtain ⟨_, _, hsg | hsg⟩ := hsg <;> cases hsg
    · intro a' r' n' p' ha' hrd
      cases hrd
      obtain rfl : a = a' := some.inj (ha.symm.trans ha')
      exact ⟨hnd, rfl⟩
  | @adopt a r n pu p t ha hw hv hpg hrc hr =>
    obtain ⟨hnd, ho⟩ := h.reading ha hw
    have hag := hrc.agrees
    have hrcd : ∀ {key}, key ∈ t.pending → t.cached[key]?.isSome := hrc.recorded h.recorded
    rw [hr] at hag hrcd ⊢
    refine ⟨hcr rfl rfl, fun hn => ?_, hrcd, ?_,
      fun _ hsg => absurd hsg (not_staged_of_idle (by trivial)), by simp⟩
    · cases hn.symm.trans ha
    · rintro a' r' ha' ⟨hrt, -, -⟩
      obtain rfl : a = a' := some.inj (ha.symm.trans ha')
      rw [ho] at hrt
      obtain rfl := some.inj hrt
      exact ⟨p, ⟨n, hnd, hv, hpg⟩, hag⟩

theorem moves (h : PendingInv env s) (hmv : Moves env i s t) : PendingInv env t := by
  cases hmv with
  | edits hed =>
    induction hed with
    | refl => exact h
    | tail _ het ih =>
      obtain ⟨key, r, -, rfl⟩ := het
      exact ih.edit
  | step hst => exact h.step hst

theorem stored {e : CloudEngine J} (h : PendingInv env e.sync) :
    PendingInv env e.persistent.stored := by
  refine ⟨⟨h.current.format, h.current.version⟩, h.unlinked, h.recorded,
    fun _ hvr => absurd hvr.1 nofun, ?_, ?_⟩
  · intro a st ha hst hpr
    obtain ⟨p, hpg⟩ := h.staged ha (staged_of_resumed hst) hpr
    exact ⟨p, hpg.rootPage, hpg.agrees, hpg.revision, hpg.unedited⟩
  · intro a r n pu ha hrd
    obtain ⟨wf, -, hrs⟩ := map_eq_some_iff.1 hrd
    exact absurd hrs (resumedWorkflow_ne_acsReadPage wf)

/-- A key leaves the pending keys only with a verified root whose page has the device's record, or
one that wins against it. -/
theorem dropped (h : PendingInv env s) {a : AccountRef}
    (hmv : Moves env i s t) (ha : s.account = some a) (hln : t.account ≠ none)
    (hpn : key ∈ s.pending) (hdr : key ∉ t.pending) :
    ∃ r rt p w, s.cached[key]? = some r ∧ Verified env t rt ∧
      RootPage env a rt.hash p ∧ p.records[key]? = some w ∧
      compareCloudRecords env.primitives env.codec.toRecordCodec w r ≠ .lt := by
  obtain ⟨r, hrc⟩ := isSome_iff_exists.1 (h.recorded hpn)
  cases hmv with
  | edits hed =>
    refine absurd ?_ hdr
    clear hdr
    induction hed with
    | refl => exact hpn
    | tail _ het ih =>
      obtain ⟨key', r', -, rfl⟩ := het
      specialize ih hln
      simp only [Sync.edit]
      split
      · exact Std.ExtTreeSet.mem_insert.2 (.inr ih)
      · exact ih
  | step hst =>
    cases hst with
    | quiet | idle | forget | consent | stage | store | observe | read => exact absurd hpn hdr
    | link hn | create hn => exact absurd (hn.symm.trans ha) (by simp)
    | unlink => exact absurd rfl hln
    | @commit st rev hs nr hw hpr =>
      obtain ⟨p, hpg⟩ := h.staged ha ⟨_, _, .inr hw⟩ hpr
      have hsm : s.localRevision = st.localRevision := by
        by_contra ho
        exact hdr (by simpa [if_neg ho] using hpn)
      refine ⟨r, _, p, r, hrc, ⟨rfl, rfl, rfl⟩, hpg.rootPage, ?_, ?_⟩
      · rw [← hpg.unedited hsm.symm, hrc]
      · have hsm : compareCloudRecords env.primitives env.codec.toRecordCodec r r = .eq :=
          Std.ReflCmp.compare_self
        simp [hsm]
    | @adopt _ rt n pu p t ha' hw hv hpg hre hr =>
      obtain rfl : a = _ := some.inj (ha.symm.trans ha')
      obtain ⟨hnd, hob⟩ := h.reading ha hw
      have hvr : Verified env t ⟨n.version, rt.revision, rt.rootHash, true⟩ := by
        rw [hr, hob]
        exact ⟨rfl, hv, rfl⟩
      obtain ⟨rm, hrm, hwn⟩ := hre.wins hpn hdr
      exact ⟨r, _, p, rm, hrc, hvr, ⟨n, hnd, hv, hpg⟩, hrm, hwn r hrc⟩

end PendingInv

/-- The invariant of a device: it holds for the process and for what a restart takes over. -/
structure Device.PendingInv (env : CloudEnv J F) (device : Device J) : Prop where
  engine : Client.PendingInv env device.engine.sync
  disk : Client.PendingInv env device.disk.stored

variable {dv : Device J}

theorem Device.PendingInv.start (h : Device.PendingInv env dv)
    (l : DeviceLabel J F) : Client.PendingInv env (dv.start l) := by
  cases l with
  | restart => exact h.disk
  | _ => exact h.engine

theorem Device.PendingInv.unlinked (c : RecordMap J) : Device.PendingInv env (.unlinked env c) := by
  have hds : Client.PendingInv env (Device.unlinked env c).disk.stored :=
    .of_idle ⟨rfl, rfl⟩ (fun _ => rfl) (fun hk => absurd hk Std.ExtTreeSet.not_mem_empty) trivial
      fun _ hvr => absurd hvr.1 nofun
  have hst : Step env ⟨fun _ => False, False⟩ _ (Device.unlinked env c).engine.sync :=
    CloudEngine.new_step hds.current
  exact ⟨hds.step hst, hds⟩

section Devices

variable [DecidableEq J] [DecidableEq F]

/-- Device `device` can be reached from one without an account, with whatever happens to it. -/
def Device.Reachable (env : CloudEnv J F) (device : Device J) : Prop :=
  ∃ cached labels, (Device.unlinked env cached).run env labels = some device

/-- A step of a device, restarts included, keeps the invariant of memory and disk. -/
theorem Device.PendingInv.step (he : env.Lawful)
    (h : Device.PendingInv env dv) (l : DeviceLabel J F) :
    Device.PendingInv env (dv.step env l) := by
  refine ⟨(h.start l).moves (Device.step_moves he (h.start l).current), ?_⟩
  cases l with
  | persist => exact h.engine.stored
  | _ => exact h.disk

/-- Every state of a device that can be reached. -/
theorem Device.Reachable.pendingInv (he : env.Lawful) {d : Device J}
    (h : d.Reachable env) : Device.PendingInv env d := by
  obtain ⟨c, ls, hr⟩ := h
  refine Run.exec_inv (Device.PendingInv env) ?_ (.unlinked c) hr
  rintro d l _ ⟨⟩ hin
  exact hin.step he l

/-- For every device that has verified the root of its account: a record that is not pending is the
record of the root's page. A pending key stays pending, whatever happens while a publication is
under way, until a root is verified or committed whose page has the record or one that wins against
it. -/
theorem pending_keys_complete (henv : env.Lawful) (hsha : env.primitives.CollisionFree) :
    (∀ device, Device.Reachable env device → ∀ account root,
      device.engine.persistent.account = some account → Verified env device.engine.sync root →
      ∃ page, (∀ page', RootPage env account.ref root.hash page' ↔ page' = page) ∧
        ∀ key, key ∉ device.engine.persistent.records.pendingKeys →
          device.engine.persistent.records.cached[key]? = page.records[key]?) ∧
    (∀ device device', Device.Reachable env device → Device.Reachable env device' →
      ∀ account account' root root', device.engine.persistent.account = some account →
        device'.engine.persistent.account = some account' → account.ref = account'.ref →
        Verified env device.engine.sync root → Verified env device'.engine.sync root' →
        root.hash = root'.hash → device.engine.persistent.records.pendingKeys = ∅ →
        device'.engine.persistent.records.pendingKeys = ∅ →
        device.engine.persistent.records.cached = device'.engine.persistent.records.cached) ∧
    (∀ device, Device.Reachable env device → ∀ label account key,
      (device.start label).account = some account →
      (device.step env label).engine.sync.account ≠ none →
      key ∈ (device.start label).pending → key ∉ (device.step env label).engine.sync.pending →
      ∃ record root page winner, (device.start label).cached[key]? = some record ∧
        Verified env (device.step env label).engine.sync root ∧
        RootPage env account root.hash page ∧ page.records[key]? = some winner ∧
        compareCloudRecords env.primitives env.codec.toRecordCodec winner record ≠ .lt) := by
  have hvr : ∀ {device : Device J} {account root}, Device.Reachable env device →
      device.engine.persistent.account = some account → Verified env device.engine.sync root →
      ∃ page, RootPage env account.ref root.hash page ∧
        Agrees page.records device.engine.sync.cached device.engine.sync.pending :=
    fun hdv ha hrt => (hdv.pendingInv henv).engine.verified (CloudEngine.sync_account ha) hrt
  refine ⟨?_, ?_, ?_⟩
  · intro device hdv account root ha hrt
    obtain ⟨page, hpg, hag⟩ := hvr hdv ha hrt
    refine ⟨page, fun page' => ⟨fun hpg' => hpg'.unique hsha hpg, ?_⟩, hag⟩
    rintro rfl
    exact hpg
  · intro device device' hdv hdv' account account' root root' ha ha' hr hrt hrt' hha hpn hpn'
    obtain ⟨page, hpg, hag⟩ := hvr hdv ha hrt
    obtain ⟨page', hpg', hag'⟩ := hvr hdv' ha' hrt'
    rw [← hr, ← hha] at hpg'
    obtain rfl := hpg.unique hsha hpg'
    refine Std.ExtTreeMap.ext_getElem? fun key => ?_
    have hk : key ∉ device.engine.sync.pending := by
      rw [show device.engine.sync.pending = ∅ from hpn]
      exact Std.ExtTreeSet.not_mem_empty
    have hk' : key ∉ device'.engine.sync.pending := by
      rw [show device'.engine.sync.pending = ∅ from hpn']
      exact Std.ExtTreeSet.not_mem_empty
    exact (hag key hk).trans (hag' key hk').symm
  · intro device hdv label account key ha hln hpn hdr
    have hin := (hdv.pendingInv henv).start label
    exact hin.dropped (Device.step_moves henv hin.current) ha hln hpn hdr

end Devices

/-- The first root is verified, the edit is pending, and the flight plan is that of the root's page.
-/
theorem pending_keys_complete_createAndEdit :
    ∃ (device : Device Bytes) (account : CloudAccount) (page : CloudPage Bytes),
      (Device.unlinked Sample.recording.env ∅).run Sample.recording.env Sample.createAndEdit =
        some device ∧
      device.engine.persistent.account = some account ∧
      device.engine.persistent.records.pendingKeys.toList = ["settings/debug/tile_labels"] ∧
      RootPage Sample.recording.env account.ref Sample.firstRoot.rootHash page ∧
      device.engine.persistent.records.cached[flightPlanRecordKey]? =
        page.records[flightPlanRecordKey]? := by
  have hch : ((Device.unlinked Sample.recording.env ∅).run Sample.recording.env
      Sample.createAndEdit).any (fun device =>
        device.engine.persistent.account.isSome &&
        decide (device.engine.observedRoot = some ⟨3, 1, Sample.firstRoot.rootHash, true⟩) &&
        decide (device.engine.persistent.records.pendingKeys.toList =
          ["settings/debug/tile_labels"])) = true := by decide +kernel
  obtain ⟨device, hr, h⟩ := Run.exists_of_any hch
  simp only [Bool.and_eq_true, decide_eq_true_eq, isSome_iff_exists] at h
  obtain ⟨⟨⟨account, ha⟩, ho⟩, hpn⟩ := h
  obtain ⟨page, hpg, hag⟩ := (pending_keys_complete
    (Recording.env_lawful Sample.recording_consistent)
    (Recording.env_collisionFree Sample.recording_consistent)).1 device ⟨∅, _, hr⟩ account _
      ha ⟨ho, rfl, rfl⟩
  refine ⟨device, account, page, hr, ha, hpn, (hpg page).2 rfl, hag _ ?_⟩
  rw [← Std.ExtTreeSet.mem_toList, hpn]
  decide

/-- A process goes on with the creation of an account that a client of format 1 has staged. The flight
plan of that format is dropped from the records, and not pending: the root counts as one of the
client's format, and its page has the plan. -/
theorem resumed_creation_differs_from_page :
    ∃ (device : Device Bytes) (json : Bytes),
      (⟨.new Sample.recording.env Sample.olderDisk, Sample.olderDisk⟩ : Device Bytes).run
        Sample.recording.env Sample.resumeCreation = some device ∧
      device.engine.sync.account = some Sample.account ∧
      Verified Sample.recording.env device.engine.sync ⟨3, 1, Sample.olderRoot.rootHash, true⟩ ∧
      device.engine.persistent.records.pendingKeys.toList = [] ∧
      device.engine.persistent.records.cached[flightPlanRecordKey]? = none ∧
      RootNode Sample.recording.env Sample.account Sample.olderRoot.rootHash Sample.olderNode ∧
      Opens Sample.recording.env Sample.account .object Sample.olderNode.merkleRootId "merkle_page"
        Sample.olderNode.merkleRootHash json ∧
      (legacyFormat Sample.recording.env.codec).decodePage json = .ok Sample.olderPage ∧
      Sample.olderPage.records[flightPlanRecordKey]?.isSome := by
  have hch : ((⟨.new Sample.recording.env Sample.olderDisk, Sample.olderDisk⟩ : Device Bytes).run
      Sample.recording.env Sample.resumeCreation).any (fun device =>
        decide (device.engine.sync.account = some Sample.account) &&
        decide (device.engine.observedRoot = some ⟨3, 1, Sample.olderRoot.rootHash, true⟩) &&
        decide (device.engine.persistent.records.pendingKeys.toList = []) &&
        decide (device.engine.persistent.records.cached[flightPlanRecordKey]? = none)) = true := by
    decide +kernel
  obtain ⟨device, hr, h⟩ := Run.exists_of_any hch
  simp only [Bool.and_eq_true, decide_eq_true_eq] at h
  obtain ⟨⟨⟨ha, ho⟩, hpn⟩, hc⟩ := h
  refine ⟨device, Sample.olderPage.text, hr, ha, ⟨ho, rfl, rfl⟩, hpn, hc,
    ⟨Sample.olderNode.text, ⟨Sample.olderRoot.value, Sample.secret, ?_, ?_, ?_⟩, ?_⟩,
    ⟨.fromCiphertext Sample.recording.primitives
      (Sample.recording.envelope Sample.olderSealedPage) [], Sample.secret, ?_, ?_, ?_⟩, ?_, ?_⟩ <;>
    decide +kernel

end Aerobag.Client
