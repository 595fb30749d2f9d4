import Aerobag.Client.Proofs.RollbackProofs

/-!
# Who has authorized a publication

A publication is checked against the observed root and the user's consent. `Trust.Sound` says that
these come from reads, commits and confirmations of this process.
-/

open Option Except

namespace Aerobag.Client

open Command

variable {J F : Type} {env : CloudEnv J F}

theorem AccountFormat.lt_of_canUpgrade {f : AccountFormat J} {ver : Nat}
    (h : f.canUpgrade ver = true) : ver < f.version := by
  simp only [AccountFormat.canUpgrade, Bool.and_eq_true, decide_eq_true_eq] at h
  exact h.1

variable {observed : ObservedRoot} {rev : Nat} {hash : Option String}

theorem ObservedRoot.matchesRoot_eq_true : observed.matchesRoot rev hash = true ↔
      observed.revision = rev ∧ some observed.hash = hash := by
  simp [ObservedRoot.matchesRoot, Bool.and_eq_true, decide_eq_true_eq]

namespace Past

/-- What has happened before is still so after. -/
structure Le (past past' : Past) : Prop where
  read : ∀ {version root}, past.read version root → past'.read version root
  verified : ∀ {root}, past.verified root → past'.verified root
  committed : ∀ {staged root}, past.committed staged root → past'.committed staged root
  consented : ∀ {version}, past.consented version → past'.consented version
  staged : ∀ {staged revision hash}, past.staged staged revision hash →
    past'.staged staged revision hash
  resumed : ∀ {staged}, past.resumed staged → past'.resumed staged

theorem InFormat.mono {p p' : Past} {st : StagedPublication} (hle : p.Le p')
    (h : p.InFormat st) : p'.InFormat st :=
  h.imp hle.resumed fun ⟨r, hs, hst⟩ => ⟨r, hs, hle.staged hst⟩

/-- The past after a step that this cause explains. -/
structure Extends (past : Past) (cause : Trust.Cause) (s t : Trust) (past' : Past) : Prop
    extends past.Le past' where
  reads : ∀ {version root}, cause.reads version root → past'.read version root
  verifies : ∀ {root}, cause.verifies root → past'.verified root
  commits : ∀ {staged root}, cause.commits staged root → past'.committed staged root
  consents : ∀ {version root}, cause.consents version → past.read version root →
    past'.consented version
  stages : ∀ {staged revision hash}, CloudWorkflow.publication? s.workflow = none →
    CloudWorkflow.publication? t.workflow = some (staged, revision, hash) →
      past'.staged staged revision hash

/-- Where an observed root comes from: it was read, or committed by the process itself. -/
inductive Observes (env : CloudEnv J F) (past : Past) : ObservedRoot → Prop where
  | read {version : Nat} {root : AcsRootSnapshot} {verified : Bool}
      (hread : past.read version root) (hverified : verified = true → past.verified root) :
      Observes env past ⟨version, root.revision, root.rootHash, verified⟩
  | committed {staged : StagedPublication} {root : AcsRootSnapshot} {verified : Bool}
      (hcommitted : past.committed staged root) (hformat : past.InFormat staged) :
      Observes env past ⟨env.format.version, root.revision, root.rootHash, verified⟩

theorem Observes.mono {p p' : Past} (hle : p.Le p')
    (h : p.Observes env observed) : p'.Observes env observed := by
  cases h with
  | read hrd hvr => exact .read (hle.read hrd) (hle.verified ∘ hvr)
  | committed hcm hfm => exact .committed (hle.committed hcm) (hfm.mono hle)

theorem Observes.read_of_canUpgrade {p : Past}
    (h : p.Observes env observed) (hu : env.format.canUpgrade observed.version = true) :
    ∃ r, p.read observed.version r ∧ observed.revision = r.revision ∧
      observed.hash = r.rootHash := by
  cases h with
  | read hrd _ => exact ⟨_, hrd, rfl, rfl⟩
  | committed => exact absurd (AccountFormat.lt_of_canUpgrade hu) (lt_irrefl _)

end Past

namespace Trust

/-- The trust comes from what has happened in this process. -/
structure Sound (env : CloudEnv J F) (past : Past) (s : Trust) : Prop where
  observed : ∀ {root}, s.observed = some root → past.Observes env root
  consented : ∀ {version}, s.upgradeFrom = some version → past.consented version
  reading : ∀ {root node purpose}, s.workflow = some (.acsReadPage root node purpose) →
    ∃ version, past.read version root ∧
      s.observed = some ⟨version, root.revision, root.rootHash, false⟩
  /-- Only the first publication of a new account may be left from an earlier process. -/
  staged : ∀ {staged revision hash},
    CloudWorkflow.publication? s.workflow = some (staged, revision, hash) →
      staged.purpose = .createAccount ∧ past.resumed staged ∨ past.staged staged revision hash

variable {ps ps' : Past} {cs : Cause} {s t : Trust}

theorem Sound.mono (h : s.Sound env ps) (hle : ps.Le ps') : s.Sound env ps' where
  observed hrt := (h.observed hrt).mono hle
  consented hv := hle.consented (h.consented hv)
  reading hw := by
    obtain ⟨ver, hrd, ho⟩ := h.reading hw
    exact ⟨ver, hle.read hrd, ho⟩
  staged hp := (h.staged hp).imp (.imp_right hle.resumed) hle.staged

theorem Sound.of_idle (hid : CloudWorkflow.Idle s.workflow)
    (ho : ∀ {root}, s.observed = some root → ps.Observes env root)
    (hcn : ∀ {version}, s.upgradeFrom = some version → ps.consented version) : s.Sound env ps where
  observed := ho
  consented := hcn
  reading hw := by simp [hw, CloudWorkflow.Idle] at hid
  staged hp := by
    unfold CloudWorkflow.publication? at hp
    split at hp <;> simp_all [CloudWorkflow.Idle]

theorem Sound.consented_of_source (h : s.Sound env ps) {src : Option Nat}
    (hsr : src = none ∨ src = s.upgradeFrom) {v : Nat} (hv : src = some v) : ps.consented v := by
  rcases hsr with rfl | rfl
  · simp at hv
  · exact h.consented hv

theorem Sound.of_staged (h : s.Sound env ps') {staged : StagedPublication}
    (hst : ps'.staged staged rev hash) :
    ({ s with workflow := some (.acsCreatePage staged rev hash) } : Trust).Sound env ps' where
  observed := h.observed
  consented := h.consented
  reading hw := by simp at hw
  staged hp := by
    obtain ⟨rfl, rfl, rfl⟩ := by simpa [CloudWorkflow.publication?] using hp
    exact .inr hst

/-- One step keeps what the past is to say about the workflow and the observed root. -/
theorem Sound.step (h : s.Sound env ps) (hst : Step env cs s t)
    (hps : ps.Extends cs s t ps') : t.Sound env ps' := by
  have h' := h.mono hps.toLe
  cases hst with
  | quiet => exact h'
  | idle hid _ hsr => exact .of_idle hid h'.observed (h'.consented_of_source hsr)
  | conflict => exact .of_idle trivial (by simp) h'.consented
  | consent hcn hrt hv hu =>
    refine ⟨h'.observed, fun hsr => ?_, h'.reading, h'.staged⟩
    obtain rfl := some.inj hsr
    subst hv
    -- The version that is confirmed is that of the observed root, which is not the client's own.
    obtain ⟨r, hrd, -⟩ := (h.observed hrt).read_of_canUpgrade hu
    exact hps.consents hcn hrd
  | link _ hid => exact .of_idle hid (by simp) (by simp)
  | unlink ho hsr =>
    refine .of_idle trivial (fun hrt => ?_) (h'.consented_of_source hsr)
    rcases ho with rfl | rfl
    · simp at hrt
    · exact h'.observed hrt
  | publish hw => exact h'.of_staged (hps.stages (by simp [hw, CloudWorkflow.publication?]) rfl)
  | create hw => exact h'.of_staged (hps.stages (by simp [hw, CloudWorkflow.publication?]) rfl)
  | upgrade hw => exact h'.of_staged (hps.stages (by simp [hw, CloudWorkflow.publication?]) rfl)
  | store hw =>
    refine ⟨h'.observed, h'.consented, by simp, fun hp => h'.staged ?_⟩
    rw [hw]
    exact hp
  | commit hw hcm _ =>
    refine .of_idle trivial (fun hrt => ?_) h'.consented
    obtain rfl := some.inj hrt
    exact .committed (hps.commits hcm)
      ((h'.staged (by rw [hw]; rfl)).imp And.right fun hst => ⟨_, _, hst⟩)
  | upgraded => exact .of_idle trivial (by simp) (by simp)
  | observe hrs hsr =>
    refine .of_idle trivial (fun hrt => ?_) (h'.consented_of_source hsr)
    obtain rfl := some.inj hrt
    exact .read (hps.reads hrs) (by simp)
  | read _ _ hrs _ _ hsr =>
    have hrd := hps.reads hrs
    refine ⟨fun hrt => ?_, h'.consented_of_source hsr, fun hw => ?_,
      by simp [CloudWorkflow.publication?]⟩
    · obtain rfl := some.inj hrt
      exact .read hrd (by simp)
    · obtain ⟨rfl, -, -⟩ := by simpa using hw
      exact ⟨_, hrd, rfl⟩
  | adopt hw hvr =>
    obtain ⟨ver, hrd, ho⟩ := h'.reading hw
    refine .of_idle trivial (fun hrt => ?_) h'.consented
    rw [ho] at hrt
    obtain rfl := some.inj hrt
    exact .read hrd fun _ => hps.verifies hvr
  | halfAdopted => exact .of_idle trivial h'.observed (by simp)

end Trust

/-- A new process has observed nothing and consented to nothing. -/
theorem CloudEngine.sound_new {d : CloudPersistentState J} {p : Past}
    (hd : ∀ staged, d.Resumes staged → p.resumed staged) :
    (CloudEngine.new env d).trust.Sound env p := by
  obtain ⟨wf, hw, htr⟩ := CloudEngine.trust_new env d
  rw [htr]
  rcases hw with rfl | rfl
  · exact .of_idle trivial (by simp) (by simp)
  · rcases d.resumed_workflow_cases with ⟨hid, -⟩ | ⟨hsm, staged, r, hs, hw, hpr⟩
    · exact .of_idle hid (by simp) (by simp)
    · rw [hsm]
      refine ⟨by simp, by simp, fun hrd => ?_, fun hp => .inl ?_⟩
      · rcases hw with h | h <;> simp [h] at hrd
      · have heq : CloudWorkflow.publication? d.workflow = some (staged, r, hs) := by
          rcases hw with h | h <;> rw [h] <;> rfl
        obtain ⟨rfl, -⟩ := by simpa [heq] using hp
        exact ⟨hpr, hd _ ⟨hpr, r, hs, heq⟩⟩

/-- A request of a publication is taken for the publication that the workflow is about, and after the
check. -/
theorem Issued.publication {e : CloudEngine J} {req : CloudProviderRequest} (h : Issued env e req)
    (hpb : req.operation.Publishes) : ∃ st r hs,
      CloudWorkflow.publication? e.persistent.workflow = some (st, r, hs) ∧
      (∀ cas, req.operation = .acsCompareAndSwapRoot cas →
        cas.expectedRevision = r ∧ cas.expectedRootHash = hs) ∧
      e.authorized env st r hs = true := by
  obtain ⟨wf, hw, hop, hch⟩ := h.operation
  rw [hw]
  cases wf with
  | acsCreatePage st r hs =>
    obtain ⟨v, -, hv⟩ := bind_eq_ok.1 hop
    refine ⟨st, r, hs, rfl, fun cas hcs => ?_, ?_⟩
    · rw [← Except.ok.inj hv] at hcs
      simp at hcs
    · simpa [CloudEngine.checkAuthorized] using hch
  | acsCommitRoot st r hs =>
    obtain ⟨v, -, hv⟩ := bind_eq_ok.1 hop
    refine ⟨st, r, hs, rfl, fun cas hcs => ?_, ?_⟩
    · rw [← Except.ok.inj hv] at hcs
      obtain rfl := CloudProviderOperation.acsCompareAndSwapRoot.inj hcs
      exact ⟨rfl, rfl⟩
    · simpa [CloudEngine.checkAuthorized] using hch
  | acsCreateAccount c =>
    simp only [operationForWorkflow, bind_eq_ok] at hop
    obtain ⟨_, -, _, -, _, -, hv⟩ := hop
    simp [← Except.ok.inj hv, CloudProviderOperation.Publishes] at hpb
  | acsCreateSseTicket =>
    obtain ⟨_, -, hv⟩ := bind_eq_ok.1 hop
    simp [← Except.ok.inj hv, CloudProviderOperation.Publishes] at hpb
  | _ => simp [← Except.ok.inj hop, CloudProviderOperation.Publishes] at hpb

/-- What the check accepts is authorized by what has happened in the process. -/
theorem Trust.Sound.authorizes {e : CloudEngine J} {p : Past} (h : e.trust.Sound env p)
    {st : StagedPublication} {r : Nat}
    (hp : CloudWorkflow.publication? e.persistent.workflow = some (st, r, hash))
    (hat : e.authorized env st r hash = true) : p.Authorizes env st r hash := by
  have hst := h.staged hp
  cases hpr : st.purpose with
  | createAccount =>
    simp only [CloudEngine.authorized, hpr, Bool.and_eq_true, beq_iff_eq, isNone_iff_eq_none] at hat
    obtain ⟨rfl, rfl⟩ := hat
    exact .create hpr
  | publish =>
    simp only [hpr, reduceCtorEq, false_and, false_or] at hst
    simp only [CloudEngine.authorized, hpr, CloudEngine.verifiedAt, Option.any_eq_true,
      Bool.and_eq_true, beq_iff_eq] at hat
    obtain ⟨o, ho, ⟨hv, hvr⟩, hm⟩ := hat
    obtain ⟨rfl, rfl⟩ := ObservedRoot.matchesRoot_eq_true.1 hm
    cases h.observed ho with
    | read hrd hpg =>
      subst hv
      exact .verified hpr hst hrd (hpg hvr)
    | committed hcm hfm => exact .committed hpr hst hcm hfm
  | upgrade =>
    simp only [hpr, reduceCtorEq, false_and, false_or] at hst
    simp only [CloudEngine.authorized, hpr, Option.any_eq_true, Bool.and_eq_true, beq_iff_eq] at hat
    obtain ⟨o, ho, ⟨hm, hcn⟩, hu⟩ := hat
    obtain ⟨rfl, rfl⟩ := ObservedRoot.matchesRoot_eq_true.1 hm
    obtain ⟨rt, hrd, hr, hha⟩ := (h.observed ho).read_of_canUpgrade hu
    rw [hr, hha] at hst ⊢
    exact .upgrade hpr hst hrd (AccountFormat.lt_of_canUpgrade hu) (h.consented hcn)

section Processes

variable [DecidableEq J] [DecidableEq F] {disk : CloudPersistentState J} {e e' : CloudEngine J}
  {labels : List (DeviceLabel J F)} {lb : DeviceLabel J F}

/-- The past of a run, after one more step. -/
theorem CloudEngine.past_extends
    (hr : Run.exec (CloudEngine.savedStep env) (.new env disk) labels = some e)
    (hst : e.savedStep env lb = some e') :
    (CloudEngine.past env disk labels).Extends (e.cause env lb e') e.trust e'.trust
      (CloudEngine.past env disk (labels ++ [lb])) where
  read h := h.append [lb]
  verified h := h.append [lb]
  committed h := h.append [lb]
  consented h := h.append [lb]
  staged h := h.append [lb]
  resumed h := h
  reads h := .last hr hst h
  verifies h := .last hr hst h
  commits h := .last hr hst h
  consents h hrd := .last hr hst ⟨h, _, hrd⟩
  stages h h' := .last hr hst ⟨h, h'⟩

/-- What a process holds follows from its own past, whatever disk it has started from. -/
theorem CloudEngine.sound_run {ls : List (DeviceLabel J F)} (hlb : .restart ∉ ls)
    (hd : ∀ staged, disk.Resumes staged → (CloudEngine.past env disk []).resumed staged)
    (hr : Run.exec (CloudEngine.savedStep env) (.new env disk) ls = some e) :
    e.trust.Sound env (CloudEngine.past env disk ls) := by
  refine Run.exec_inv_history
    (fun ls e => .restart ∉ ls → e.trust.Sound env (CloudEngine.past env disk ls))
    (fun _ => CloudEngine.sound_new hd) ?_ hr hlb
  intro ls e l e' hbf hst ih hlb
  simp only [List.mem_append, List.mem_singleton, not_or] at hlb
  have hes := CloudEngine.past_extends hbf hst
  obtain rfl := some.inj hst
  exact (ih hlb.1).step (CloudEngine.trust_step (.symm hlb.2)) hes

/-- Every request of a publication that a process issues is authorized, whatever the disk holds that
the process has started from, if the publication that it goes on with is in its format. -/
theorem publication_authorized {nowEpochMs : Int} {entropy : StageEntropy}
    {request : CloudProviderRequest} (hlabels : .restart ∉ labels)
    (hresumed : ∀ staged, disk.Resumes staged → ∃ account node, disk.account = some account ∧
      RootNode env account.ref staged.nodeHash node ∧ node.version = env.format.version)
    (hrun : Run.exec (CloudEngine.savedStep env) (.new env disk) labels = some e)
    (htake : (takeProviderRequest env nowEpochMs entropy).run e = .ok (some request) e')
    (hpublishes : request.operation.Publishes) :
    ∃ staged revision hash,
      CloudWorkflow.publication? e'.persistent.workflow = some (staged, revision, hash) ∧
      (∀ cas, request.operation = .acsCompareAndSwapRoot cas →
        cas.expectedRevision = revision ∧ cas.expectedRootHash = hash) ∧
      (CloudEngine.past env disk (labels ++ [.take nowEpochMs entropy])).Authorizes env staged
        revision hash := by
  obtain ⟨-, his⟩ : Moved env (.take nowEpochMs entropy : DeviceLabel J F).input
      (e.cause env (.take nowEpochMs entropy) e') e e' ∧ _ :=
    takeProviderRequest_moved.of_ok htake
  have hst : e.savedStep env (.take nowEpochMs entropy) = some e' := by
    simp [CloudEngine.savedStep, CloudEngine.step, Command.final, htake]
  have hrun' : Run.exec (CloudEngine.savedStep env) (.new env disk)
      (labels ++ [.take nowEpochMs entropy]) = some e' := by
    rw [Run.exec_append, hrun, bind_some, Run.exec_cons_eq_some]
    exact ⟨e', hst, rfl⟩
  have hsn := CloudEngine.sound_run (by simpa using hlabels)
    (fun staged h => ⟨h, hresumed staged h⟩) hrun'
  obtain ⟨staged, revision, hash, hp, hcs, hat⟩ := (his request rfl).publication hpublishes
  exact ⟨staged, revision, hash, hp, hcs, hsn.authorizes hp hat⟩

end Processes

def Sample.storesPage :
    EStateM.Result String (CloudEngine Bytes) (Option CloudProviderRequest) → Bool
  | .ok (some request) e =>
    (match request.operation with | .acsCreateObject .. => true | _ => false) &&
      match e.persistent.workflow with
      | some (.acsCreatePage _ revision hash) =>
        decide (revision = 1 ∧ hash = some Sample.firstRoot.rootHash)
      | _ => false
  | _ => false

theorem Sample.publishes_of_storesPage
    {res : EStateM.Result String (CloudEngine Bytes) (Option CloudProviderRequest)}
    (h : Sample.storesPage res = true) :
    ∃ req e staged, res = .ok (some req) e ∧ req.operation.Publishes ∧
      e.persistent.workflow = some (.acsCreatePage staged 1 (some Sample.firstRoot.rootHash)) := by
  unfold Sample.storesPage at h
  split at h
  · next req e =>
    rw [Bool.and_eq_true] at h
    obtain ⟨hop, hw⟩ := h
    split at hw
    · next staged rev hs hw' =>
      obtain ⟨rfl, rfl⟩ := of_decide_eq_true hw
      refine ⟨req, e, staged, rfl, ?_, hw'⟩
      split at hop
      · next heq =>
        rw [heq]
        trivial
      · simp at hop
    · simp at hw
  · simp at h

theorem Sample.publishEdit_request :
    ∃ (e e' : CloudEngine Bytes) (r : CloudProviderRequest) (staged : StagedPublication),
      Run.exec (CloudEngine.savedStep Sample.recording.env) (.new Sample.recording.env .default)
        Sample.createAndEdit = some e ∧
      (takeProviderRequest Sample.recording.env 3000 (Sample.entropy 2 3 4)).run e =
        .ok (some r) e' ∧ r.operation.Publishes ∧ e'.persistent.workflow =
        some (.acsCreatePage staged 1 (some Sample.firstRoot.rootHash)) := by
  have hch : (Run.exec (CloudEngine.savedStep Sample.recording.env)
      (.new Sample.recording.env .default) Sample.createAndEdit).any (fun e =>
        Sample.storesPage ((takeProviderRequest Sample.recording.env 3000
          (Sample.entropy 2 3 4)).run e)) = true := by decide +kernel
  obtain ⟨e, hr, h⟩ := Run.exists_of_any hch
  obtain ⟨r, e', staged, htk, hpb, hw⟩ := Sample.publishes_of_storesPage h
  exact ⟨e, e', r, staged, hr, htk, hpb, hw⟩

/-- The request that stores the page of the edit is authorized by the commit of the account's first
root. -/
theorem publication_authorized_createAndEdit :
    ∃ (e e' : CloudEngine Bytes) (request : CloudProviderRequest) (staged : StagedPublication),
      Run.exec (CloudEngine.savedStep Sample.recording.env) (.new Sample.recording.env .default)
        Sample.createAndEdit = some e ∧
      (takeProviderRequest Sample.recording.env 3000 (Sample.entropy 2 3 4)).run e =
        .ok (some request) e' ∧
      request.operation.Publishes ∧
      (CloudEngine.past Sample.recording.env .default
        (Sample.createAndEdit ++ [.take 3000 (Sample.entropy 2 3 4)])).Authorizes
          Sample.recording.env staged 1 (some Sample.firstRoot.rootHash) := by
  obtain ⟨e, e', request, staged, hr, htk, hpublishes, hw⟩ := Sample.publishEdit_request
  obtain ⟨staged', revision, hash, hp, -, hat⟩ :=
    publication_authorized (by simp [Sample.createAndEdit]) (fun _ ⟨_, _, _, h⟩ => by cases h) hr
      htk hpublishes
  rw [hw] at hp
  obtain ⟨rfl, rfl, rfl⟩ := by simpa [CloudWorkflow.publication?] using hp
  exact ⟨e, e', request, staged, hr, htk, hpublishes, hat⟩

/-- A process that has been sent no root by the server publishes on the root that its own first
publication was committed as. -/
theorem publication_without_read :
    (∀ label ∈ Sample.createAndEdit, ∀ requestId root nowEpochMs entropy,
      label ≠ .complete requestId (.acsRoot root) nowEpochMs entropy) ∧
    ∃ (e e' : CloudEngine Bytes) (request : CloudProviderRequest) (staged : StagedPublication),
      Run.exec (CloudEngine.savedStep Sample.recording.env) (.new Sample.recording.env .default)
        Sample.createAndEdit = some e ∧
      (takeProviderRequest Sample.recording.env 3000 (Sample.entropy 2 3 4)).run e =
        .ok (some request) e' ∧
      request.operation.Publishes ∧
      e'.persistent.workflow =
        some (.acsCreatePage staged 1 (some Sample.firstRoot.rootHash)) := by
  refine ⟨?_, Sample.publishEdit_request⟩
  simp [Sample.createAndEdit]

end Aerobag.Client
