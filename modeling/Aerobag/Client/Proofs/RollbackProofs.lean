import Aerobag.Client.Proofs.CompletionProofs
import Aerobag.Client.Sample

/-!
# An account is not rolled back

The generation of a root is checked when the root is read, and the tip is written later.
`Trust.Guarded` says what a workflow under way means for the tip; every step keeps it, also a
restart.
-/

open Option Except

namespace Aerobag.Client

open Command

variable {J F : Type} {env : CloudEnv J F} {tip tip' : VerifiedTip}

namespace VerifiedTip

/-- What may be adopted by reading when the tip is `tip`: something newer, or the same root again. -/
def ReadAfter (tip' tip : VerifiedTip) : Prop :=
  tip.generation < tip'.generation ∨
    (tip'.generation = tip.generation ∧ tip'.nodeHash = tip.nodeHash)

/-- The generation does not decrease, and stays only when the root does. Generations saturate at
`u64::MAX`, where a publication cannot be told from its predecessor any more. -/
structure Precedes (tip tip' : VerifiedTip) : Prop where
  generation : tip.generation ≤ tip'.generation
  nodeHash : tip.generation < 2 ^ 64 - 1 → tip'.generation = tip.generation →
    tip'.nodeHash = tip.nodeHash

theorem Precedes.refl (tip : VerifiedTip) : tip.Precedes tip := ⟨le_rfl, fun _ _ => rfl⟩

theorem Precedes.trans {a b c : VerifiedTip} (hab : a.Precedes b) (hbc : b.Precedes c) :
    a.Precedes c := by
  have hle := hab.generation
  have hle' := hbc.generation
  refine ⟨hle.trans hle', fun hm heq => ?_⟩
  have hb : b.generation = a.generation := by omega
  have hc : c.generation = b.generation := by omega
  rw [hbc.nodeHash (by omega) hc, hab.nodeHash hm hb]

theorem ReadAfter.precedes (h : tip'.ReadAfter tip) : tip.Precedes tip' := by
  rcases h with hlt | ⟨heq, hha⟩
  · exact ⟨hlt.le, fun _ heq => by omega⟩
  · exact ⟨heq.ge, fun _ _ => hha⟩

end VerifiedTip

theorem succU64_mono {m n : Nat} (h : m ≤ n) : succU64 m ≤ succU64 n := by
  unfold succU64
  omega

/-- A publication that is counted on from the tip, or from something newer, follows it. -/
theorem VerifiedTip.precedes_of_succU64
    (hm : tip.generation ≤ 2 ^ 64 - 1) (h : succU64 tip.generation ≤ tip'.generation) :
    tip.Precedes tip' := by
  unfold succU64 at h
  exact ⟨by omega, fun _ _ => by omega⟩

variable {root : AcsRootSnapshot} {node : CloudNode} {pu : ReadPurpose}

/-- A node that passes the check is newer than the tip, or the tip itself. -/
theorem readAfter_of_validateAcsNode (hpr : pu ≠ .link)
    (hck : validateAcsNode root node (some tip) pu = .ok ()) :
    (tipOfNode root node).ReadAfter tip := by
  obtain ⟨_, _, had⟩ := bind_eq_ok.1 hck
  have hch : ¬ (¬ (tip.nodeHash = root.rootHash ∧ tip.generation = node.generation) ∧
      node.generation ≤ tip.generation) := by
    cases pu with
    | link => exact absurd rfl hpr
    | poll => exact rejectIf_eq_ok.1 had
    | publishRace => exact rejectIf_eq_ok.1 had
  by_cases hsm : tip.nodeHash = root.rootHash ∧ tip.generation = node.generation
  · exact .inr ⟨hsm.2.symm, hsm.1.symm⟩
  · left
    by_contra hle
    exact hch ⟨hsm, not_lt.1 hle⟩

namespace Trust

/-- The root of the page that is being read has passed the check against the tip. -/
structure Guarded (env : CloudEnv J F) (s : Trust) : Prop where
  /-- An account is created or linked only as long as it has no tip. -/
  fresh : CloudWorkflow.Fresh s.workflow → s.tip = none
  checked : ∀ {root node purpose}, s.workflow = some (.acsReadPage root node purpose) →
    validateAcsNode root node s.tip purpose = .ok () ∧
      ∃ account, s.account = some account ∧ RootNode env account root.rootHash node
  counted : ∀ {staged revision hash tip}, s.workflow = some (.acsCreatePage staged revision hash) ∨
      s.workflow = some (.acsCommitRoot staged revision hash) →
    s.tip = some tip → succU64 tip.generation ≤ staged.generation

variable {cs : Cause} {s t : Trust}

theorem Guarded.of_idle (hid : CloudWorkflow.Idle s.workflow)
    (hfr : CloudWorkflow.Fresh s.workflow → s.tip = none) : s.Guarded env where
  fresh := hfr
  checked hw := by simp [hw, CloudWorkflow.Idle] at hid
  counted hw := by rcases hw with h | h <;> simp [h, CloudWorkflow.Idle] at hid

theorem Guarded.of_none (hw : s.workflow = none) : s.Guarded env :=
  .of_idle (by simp [hw, CloudWorkflow.Idle]) (by simp [hw, CloudWorkflow.Fresh])

theorem Guarded.congr (h : s.Guarded env) (ha : t.account = s.account)
    (ht : t.tip = s.tip) (hw : t.workflow = s.workflow) : t.Guarded env where
  fresh := by
    rw [hw, ht]
    exact h.fresh
  checked := by
    rw [hw, ht, ha]
    exact h.checked
  counted := by
    rw [hw, ht]
    exact h.counted

theorem Guarded.of_staged {sg : StagedPublication} {rev : Nat} {hs : Option String}
    (hw : s.workflow = some (.acsCreatePage sg rev hs) ∨
      s.workflow = some (.acsCommitRoot sg rev hs))
    (hfr : sg.purpose = .createAccount → s.tip = none)
    (hcn : ∀ tip, s.tip = some tip → succU64 tip.generation ≤ sg.generation) : s.Guarded env where
  fresh := by rcases hw with h | h <;> simpa [h, CloudWorkflow.Fresh] using hfr
  checked hrd := by rcases hw with h | h <;> simp [h] at hrd
  counted hst htip := by
    have heq : ∀ s' rev' has', s.workflow = some (.acsCreatePage s' rev' has') ∨
        s.workflow = some (.acsCommitRoot s' rev' has') → s' = sg := by
      intro s' rev' has' h'
      rcases hw with h | h <;> rcases h' with h' | h' <;> simp_all
    rw [heq _ _ _ hst]
    exact hcn _ htip

theorem Guarded.readAfter (h : s.Guarded env)
    (hw : s.workflow = some (.acsReadPage root node pu)) (ht : s.tip = some tip) :
    (tipOfNode root node).ReadAfter tip := by
  by_cases hln : pu = .link
  · have hn : s.tip = none := h.fresh (by simp [hw, hln, CloudWorkflow.Fresh])
    simp [hn] at ht
  · have hch := (h.checked hw).1
    rw [ht] at hch
    exact readAfter_of_validateAcsNode hln hch

/-- Each step keeps the guard. -/
theorem Guarded.step (h : s.Guarded env) (hst : Step env cs s t) : t.Guarded env := by
  cases hst with
  | quiet => exact h
  | idle hid hfr _ =>
    refine .of_idle hid fun hne => ?_
    rcases hfr hne with hold | hn
    · exact h.fresh hold
    · exact hn
  | conflict => exact .of_idle trivial (by simp [CloudWorkflow.Fresh])
  | consent => exact h.congr rfl rfl rfl
  | link _ hid => exact .of_idle hid fun _ => rfl
  | unlink => exact .of_none rfl
  | publish hw ht hpr hg =>
    refine .of_staged (.inl rfl) (by simp [hpr]) fun tip hcr => ?_
    rw [ht] at hcr
    obtain rfl := some.inj hcr
    exact hg.ge
  | create hw _ =>
    have hn : s.tip = none := h.fresh (by simp [hw, CloudWorkflow.Fresh])
    exact .of_staged (.inl rfl) (fun _ => hn) (by simp [hn])
  | upgrade hw hpr hg =>
    refine .of_staged (.inl rfl) (by simp [hpr]) fun tip ht => ?_
    -- The upgrade counts on from the node that is read, which is at least the tip.
    rw [hg]
    exact succU64_mono (h.readAfter hw ht).precedes.generation
  | store hw =>
    refine .of_staged (.inr rfl) (fun hpr => ?_) fun tip ht => ?_
    · exact h.fresh (by simpa [hw, CloudWorkflow.Fresh] using hpr)
    · exact h.counted (.inl hw) ht
  | commit => exact .of_none rfl
  | upgraded => exact .of_none rfl
  | observe => exact .of_none rfl
  | read ha hw _ hnd hch _ =>
    refine ⟨fun hfr => ?_, fun hrd => ?_, by simp⟩
    · obtain rfl := hfr
      exact h.fresh (by simp [hw, CloudWorkflow.Fresh])
    · obtain ⟨rfl, rfl, rfl⟩ := by simpa using hrd
      exact ⟨hch, _, ha, hnd⟩
  | adopt => exact .of_none rfl
  | halfAdopted => exact .of_none rfl

theorem Step.tip_cases (hst : Step env cs s t) (hln : s.account.isSome)
    (hln' : t.account.isSome) : t.tip = s.tip ∨ (∃ r n pu, s.workflow = some (.acsReadPage r n pu) ∧
        t.tip = some (tipOfNode r n)) ∨
      ∃ st rev h, s.workflow = some (.acsCommitRoot st rev h) ∧ t.tip = some st.tip := by
  cases hst with
  | link hn _ => simp [hn] at hln
  | unlink => simp at hln'
  | commit hw _ _ => exact .inr (.inr ⟨_, _, _, hw, rfl⟩)
  | upgraded hw _ => exact .inr (.inr ⟨_, _, _, hw, rfl⟩)
  | adopt hw _ => exact .inr (.inl ⟨_, _, _, hw, rfl⟩)
  | halfAdopted hw => exact .inr (.inl ⟨_, _, _, hw, rfl⟩)
  | _ => exact .inl rfl

/-- The tip only moves forward while the account stays linked. -/
theorem Guarded.tip_precedes (h : s.Guarded env) (hst : Step env cs s t)
    (hln : s.account.isSome) (hln' : t.account.isSome)
    (ht : s.tip = some tip) (hm : tip.generation ≤ 2 ^ 64 - 1) :
    ∃ tip', t.tip = some tip' ∧ tip.Precedes tip' := by
  rcases hst.tip_cases hln hln' with hsm | ⟨r, n, p, hrd, hn⟩ | ⟨st, revision, hash, hsg, hn⟩
  · exact ⟨tip, hsm.trans ht, .refl tip⟩
  · exact ⟨_, hn, (h.readAfter hrd ht).precedes⟩
  · exact ⟨_, hn, VerifiedTip.precedes_of_succU64 hm (h.counted (.inr hsg) ht)⟩

end Trust

/-- A restart keeps the first publication of a new account, and no other workflow with a page or a
publication. -/
theorem CloudPersistentState.resumed_workflow_cases (d : CloudPersistentState J) :
    (CloudWorkflow.Idle d.resumed.workflow ∧
      (CloudWorkflow.Fresh d.resumed.workflow → CloudWorkflow.Fresh d.workflow)) ∨
    (d.resumed.workflow = d.workflow ∧ ∃ staged rev h,
      (d.workflow = some (.acsCreatePage staged rev h) ∨
        d.workflow = some (.acsCommitRoot staged rev h)) ∧ staged.purpose = .createAccount) := by
  unfold CloudPersistentState.resumed
  dsimp only
  split
  · exact .inl ⟨trivial, by simp [CloudWorkflow.Fresh]⟩
  · cases hw : d.workflow with
    | none => exact .inl ⟨trivial, id⟩
    | some wf =>
      cases wf with
      | acsCreatePage staged rev h =>
        cases hpr : staged.purpose <;>
          simp [resumedWorkflow, hpr, CloudWorkflow.Idle, CloudWorkflow.Fresh]
      | acsCommitRoot staged rev h =>
        cases hpr : staged.purpose <;>
          simp [resumedWorkflow, hpr, CloudWorkflow.Idle, CloudWorkflow.Fresh]
      | acsReadPage r n pu =>
        cases pu <;> simp [resumedWorkflow, CloudWorkflow.Idle, CloudWorkflow.Fresh]
      | _ => exact .inl ⟨trivial, id⟩

theorem CloudEngine.guarded_new {e : CloudEngine J} (h : e.trust.Guarded env) :
    (CloudEngine.new env e.persistent).trust.Guarded env ∧
      (CloudEngine.new env e.persistent).trust.account = e.trust.account ∧
      (CloudEngine.new env e.persistent).trust.tip = e.trust.tip := by
  obtain ⟨wf, hw, htr⟩ := CloudEngine.trust_new env e.persistent
  rw [htr]
  refine ⟨?_, rfl, rfl⟩
  rcases hw with rfl | rfl
  · exact .of_none rfl
  · rcases e.persistent.resumed_workflow_cases with ⟨hid, hfr⟩ | ⟨hsm, -⟩
    · exact .of_idle hid fun hn => h.fresh (hfr hn)
    · exact h.congr rfl rfl hsm

section Runs

variable [DecidableEq J] [DecidableEq F] {e e' : CloudEngine J} {lb : DeviceLabel J F}

/-- A step of an engine, restarts included, keeps the guard and moves the tip forward. -/
theorem CloudEngine.guarded_step (h : e.trust.Guarded env) (hst : e.savedStep env lb = some e') :
    e'.trust.Guarded env ∧
      (e.trust.account.isSome → e'.trust.account.isSome → ∀ {tip}, e.trust.tip = some tip →
        tip.generation ≤ 2 ^ 64 - 1 → ∃ tip', e'.trust.tip = some tip' ∧ tip.Precedes tip') := by
  obtain rfl := some.inj hst
  by_cases hlb : lb = .restart
  · subst hlb
    obtain ⟨hgr, -, ht⟩ := CloudEngine.guarded_new h
    exact ⟨hgr, fun _ _ tip hl _ => ⟨tip, ht.trans hl, .refl tip⟩⟩
  · have hst' : Trust.Step env _ e.trust (e.step env e.persistent lb).trust :=
      CloudEngine.trust_step hlb
    exact ⟨h.step hst', fun hln hln' _ ht hm => h.tip_precedes hst' hln hln' ht hm⟩

theorem CloudEngine.step_readAfter (h : e.trust.Guarded env)
    (hw : e.persistent.workflow = some (.acsReadPage root node pu))
    (hst : e.savedStep env lb = some e') (hln : e.trust.account.isSome)
    (hln' : e'.trust.account.isSome) (ht : e.trust.tip = some tip) :
    ∃ tip', e'.trust.tip = some tip' ∧ tip'.ReadAfter tip := by
  have hun : e'.trust.tip = e.trust.tip →
      ∃ tip', e'.trust.tip = some tip' ∧ tip'.ReadAfter tip := fun hsm =>
    ⟨tip, hsm.trans ht, .inr ⟨rfl, rfl⟩⟩
  obtain rfl := some.inj hst
  by_cases hlb : lb = .restart
  · subst hlb
    exact hun (CloudEngine.guarded_new h).2.2
  · have hst' : Trust.Step env _ e.trust (e.step env e.persistent lb).trust :=
      CloudEngine.trust_step hlb
    rcases hst'.tip_cases hln hln' with hsm | ⟨r', n', pu', hrd, hne⟩ | ⟨st, revision, hash, hsg, -⟩
    · exact hun hsm
    · exact ⟨_, hne, h.readAfter hrd ht⟩
    · have hn : some (CloudWorkflow.acsReadPage root node pu) = some _ := hw.symm.trans hsg
      simp at hn

variable {ls : List (DeviceLabel J F)} {d : CloudPersistentState J}

/-- Every process that starts without a workflow is guarded. -/
theorem CloudEngine.guarded_run
    (hw : d.workflow = none) (hr : Run.exec (CloudEngine.savedStep env) (.new env d) ls = some e) :
    e.trust.Guarded env := by
  refine Run.exec_inv (fun e => e.trust.Guarded env) (fun hst h => (guarded_step h hst).1) ?_ hr
  obtain ⟨wf, hn, htr⟩ := CloudEngine.trust_new env d
  rw [htr]
  have hrs : d.resumed.workflow = none := by simp [CloudPersistentState.resumed, hw]
  rcases hn with rfl | rfl
  · exact .of_none rfl
  · exact .of_none hrs

/-- The tip only moves forward over a run in which the account stays linked. -/
theorem CloudEngine.tip_precedes_run {a : AccountRef}
    (h : e.trust.Guarded env) (hrn : Run.exec (CloudEngine.savedStep env) e ls = some e')
    (hss : Run.Steps (CloudEngine.savedStep env) (fun e _ => e.trust.account = some a ∧
      ∀ tip ∈ e.trust.tip, tip.generation ≤ 2 ^ 64 - 1) e ls)
    (hln : e'.trust.account = some a) (ht : e.trust.tip = some tip) :
    ∃ tip', e'.trust.tip = some tip' ∧ tip.Precedes tip' := by
  induction ls generalizing e tip with
  | nil =>
    obtain rfl := some.inj hrn
    exact ⟨tip, ht, .refl tip⟩
  | cons l ls ih =>
    obtain ⟨mid, hst, hr⟩ := Run.exec_cons_eq_some.1 hrn
    obtain ⟨⟨ha, hm⟩, hss'⟩ := (Run.steps_cons hst).1 hss
    obtain ⟨hgr, hfr⟩ := CloudEngine.guarded_step h hst
    have hmd : mid.trust.account = some a := by
      cases ls with
      | nil =>
        obtain rfl := some.inj hr
        exact hln
      | cons l' ls' => exact hss'.1.1
    obtain ⟨t₁, h₁, hpr⟩ := hfr (by simp [ha]) (by simp [hmd]) ht (hm tip ht)
    obtain ⟨t₂, h₂, hpr'⟩ := ih hgr hr hss' h₁
    exact ⟨t₂, h₂, hpr.trans hpr'⟩

/-- The page belongs to the root that is being read, whose node has passed the check against the
tip. -/
def CloudEngine.ChecksPage (env : CloudEnv J F) (self : CloudEngine J) (page : CloudPage J) : Prop :=
  ∃ root node purpose account, self.persistent.workflow = some (.acsReadPage root node purpose) ∧
    self.trust.account = some account ∧ RootNode env account root.rootHash node ∧
    validateAcsNode root node self.trust.tip purpose = .ok () ∧ NodePage env account node page

/-- What a response leaves under a key: the device's own record, as it is or in the client's format,
or the record of a page that has been checked. -/
theorem CloudEngine.cached_complete (h : e.trust.Guarded env)
    {ri : Nat} {rs : CloudProviderResponse} {now : Int} {en : StageEntropy}
    {key : String} (hst : e.step env d (.complete ri rs now en) = e') :
    e'.persistent.records.cached[key]? = e.persistent.records.cached[key]? ∨
    e'.persistent.records.cached[key]? =
      (Command.final (prepareLocalRecords env) e.answering).persistent.records.cached[key]? ∨
    ∃ pg, e.ChecksPage env pg ∧ e'.persistent.records.cached[key]? = pg.records[key]? := by
  have han := ends_iff.1 (completeProviderRequest_handled : Ends (completeProviderRequest env
    ri rs now en) e _)
  rw [show Command.final _ e = e' from hst] at han
  rcases han with rfl | ⟨-, han⟩
  · exact .inl rfl
  rcases han.records with hsm | hmg | ⟨r, hd⟩
  · exact .inl (congrArg (·[key]?) hsm)
  · exact .inr (.inl (congrArg (·[key]?) hmg))
  · obtain ⟨n, purpose, a, pg, p, hw, -, ha, hpg, hpr, hre⟩ := hd
    have hw' : e.trust.workflow = some (.acsReadPage r n purpose) := hw
    obtain ⟨hch, a', ha', hnd⟩ := h.checked hw'
    have hsm : a' = a.ref := by
      have hln : e.persistent.account = some a := ha
      simpa [CloudEngine.trust, hln] using ha'.symm
    subst hsm
    have hlc : (Command.final (prepareLocalRecords env) e.answering) = p := by
      rw [Command.final, hpr]
    have hrc : e'.persistent.records.cached[key]? = p.persistent.records.cached[key]? ∨
        e'.persistent.records.cached[key]? = pg.records[key]? := by
      cases hrm : pg.records[key]? with
      | none => exact .inl (hre.unknown hrm).1
      | some rm =>
        by_cases hwn : Sync.Wins env purpose (key ∈ p.sync.pending) p.sync.cached[key]? rm
        · exact .inr (hre.adopted hrm hwn).1
        · exact .inl (hre.kept hrm hwn).1
    rcases hrc with hkp | had
    · exact .inr (.inl (by rw [hlc, hkp]))
    · exact .inr (.inr ⟨pg, ⟨r, n, purpose, _, hw, ha', hnd, hch, hpg⟩, had⟩)

/-- The server cannot roll an account back, whatever it answers and whenever the engine is
restarted. As long as an account stays linked, the generation of its tip does not decrease; what is
adopted by reading is newer than the tip or has its hash; and every response leaves the device's own
records or those on the page of a root whose node has passed the check. -/
theorem account_not_rolled_back {disk : CloudPersistentState J} {account : AccountRef}
    {before stretch : List (DeviceLabel J F)} (hdisk : disk.workflow = none)
    (hbefore : Run.exec (CloudEngine.savedStep env) (.new env disk) before = some e)
    (hstretch : Run.exec (CloudEngine.savedStep env) e stretch = some e')
    (hsteps : Run.Steps (CloudEngine.savedStep env) (fun e _ => e.trust.account = some account ∧
      ∀ tip ∈ e.trust.tip, tip.generation ≤ 2 ^ 64 - 1) e stretch)
    (hlinked : e'.trust.account = some account) :
    (∀ tip, e.trust.tip = some tip → ∃ tip', e'.trust.tip = some tip' ∧ tip.Precedes tip') ∧
    (∀ root node purpose label tip,
      e'.persistent.workflow = some (.acsReadPage root node purpose) →
      (e'.step env e'.persistent label).trust.account = some account → e'.trust.tip = some tip →
        ∃ tip', (e'.step env e'.persistent label).trust.tip = some tip' ∧ tip'.ReadAfter tip) ∧
    ∀ requestId response nowEpochMs entropy (key : String),
      let e'' := e'.step env e'.persistent (.complete requestId response nowEpochMs entropy)
      e''.persistent.records.cached[key]? = e'.persistent.records.cached[key]? ∨
      e''.persistent.records.cached[key]? =
        (Command.final (prepareLocalRecords env) e'.answering).persistent.records.cached[key]? ∨
      ∃ page, e'.ChecksPage env page ∧
        e''.persistent.records.cached[key]? = page.records[key]? := by
  have hgr := CloudEngine.guarded_run hdisk hbefore
  have hgr' : e'.trust.Guarded env := Run.exec_inv (fun e => e.trust.Guarded env)
      (fun hst h => (CloudEngine.guarded_step h hst).1) hgr hstretch
  refine ⟨?_, ?_, ?_⟩
  · intro tip htip
    exact CloudEngine.tip_precedes_run hgr hstretch hsteps hlinked htip
  · intro root node purpose label tip hw ha htip
    exact CloudEngine.step_readAfter hgr' hw rfl (by simp [hlinked]) (by simp [ha]) htip
  · intro requestId response nowEpochMs entropy key
    exact CloudEngine.cached_complete hgr' rfl

end Runs

/-- The edit is published and the process restarted: the tip goes from the first root to the second.
-/
theorem account_not_rolled_back_publishEdit :
    ∃ (e e' : CloudEngine Bytes) (tip tip' : VerifiedTip),
      Run.exec (CloudEngine.savedStep Sample.recording.env) (.new Sample.recording.env .default)
        Sample.createAndEdit = some e ∧
      Run.exec (CloudEngine.savedStep Sample.recording.env) e (Sample.publishEdit ++ [.restart]) =
        some e' ∧
      e.trust.tip = some tip ∧ tip.generation = 0 ∧ e'.trust.tip = some tip' ∧
      tip'.generation = 1 ∧ tip.Precedes tip' := by
  have hch : (Run.exec (CloudEngine.savedStep Sample.recording.env)
      (.new Sample.recording.env .default) Sample.createAndEdit).any (fun e =>
        e.trust.tip.any (fun tip => decide (tip.generation = 0)) &&
        decide (Run.Steps (CloudEngine.savedStep Sample.recording.env)
          (fun e _ => e.trust.account = some Sample.account ∧
            ∀ tip ∈ e.trust.tip, tip.generation ≤ 2 ^ 64 - 1) e
          (Sample.publishEdit ++ [.restart])) &&
        (Run.exec (CloudEngine.savedStep Sample.recording.env) e
          (Sample.publishEdit ++ [.restart])).any fun e' =>
            decide (e'.trust.account = some Sample.account) &&
            e'.trust.tip.any fun tip => decide (tip.generation = 1)) = true := by decide +kernel
  obtain ⟨e, hbefore, h⟩ := Run.exists_of_any hch
  simp only [Bool.and_eq_true, decide_eq_true_eq, Option.any_eq_true] at h
  obtain ⟨⟨⟨tip, htip, hzr⟩, hss⟩, e', hst, hln, tip₁, htip₁, ho⟩ := h
  obtain ⟨tip', htip', hpr⟩ := (account_not_rolled_back rfl hbefore hst hss hln).1 tip htip
  obtain rfl : tip₁ = tip' := some.inj (htip₁.symm.trans htip')
  exact ⟨e, e', tip, tip₁, hbefore, hst, htip, hzr, htip', ho, hpr⟩

end Aerobag.Client
