import Aerobag.Client.Proofs.WorkflowProofs

/-!
# Responses follow the protocol

One lemma for each state of the workflow: what a response does to the abstract state and to the
trust. A response that cannot be used ends the workflow; the lemmas speak about the engine after
that (`settled`).
-/

namespace Aerobag.Client

open Command Sync

variable {J F : Type} {env : CloudEnv J F} {e : CloudEngine J} {inp : Input}
  {rp : CloudProviderResponse} {nowEpochMs : Int} {root : AcsRootSnapshot} {ent : StageEntropy}
  {pu : ReadPurpose} {nd : CloudNode} {pg : CloudPage J} {sg : StagedPublication} {rv : Nat}
  {hash : Option String}

/-- The engine after the result of a workflow step: an error ends the workflow. -/
def settled (result : AppResult (CloudCompletion J)) (self : CloudEngine J) : CloudEngine J :=
  match result with
  | .ok _ => self
  | .error error => commitProviderCompletionFailure error self

/-- What a response does: a step of the trust; and the local records stay as they are, or are brought
into the client's format, or are reconciled with the page of a root. -/
structure Answered (env : CloudEnv J F) (response : CloudProviderResponse) (e e' : CloudEngine J) :
    Prop where
  trust : Trust.Step env (CloudEngine.answerCause env response e e') e.trust e'.trust
  records : e'.persistent.records.cached = e.persistent.records.cached ∨
    e'.persistent.records.cached =
      (Command.final (prepareLocalRecords env) e).persistent.records.cached ∨
    ∃ root, CloudEngine.Adopts env root e e'

/-- What a response does is also a step of the protocol, when the records of the engine are in order. -/
structure Handled (env : CloudEnv J F) (response : CloudProviderResponse) (e e' : CloudEngine J) : Prop
    extends Answered env response e e' where
  sync : env.Lawful → Current env e.sync → ∀ input : Input,
    (∀ root, response = .acsRoot (some root) → input.served root) → Step env input e.sync e'.sync

/-- The step `x` of a workflow, in answer to a response, moves the engine as it may. -/
abbrev Handles (env : CloudEnv J F) (response : CloudProviderResponse) (e : CloudEngine J)
    (x : EngineM J (CloudCompletion J)) : Prop :=
  Ends x e fun result e' => Handled env response e (settled result e')

variable {er : String}

theorem sync_settled_error :
    (settled (.error er) e).sync = { e.sync with workflow := none, upgradeFrom := none } := rfl

theorem Handled.failed {e' : CloudEngine J} (htr : e'.trust = e.trust)
    (hsy : Current env e.sync → e'.sync = e.sync)
    (hrc : e'.persistent.records.cached = e.persistent.records.cached ∨
      e'.persistent.records.cached =
        (Command.final (prepareLocalRecords env) e).persistent.records.cached) :
    Handled env rp e (settled (.error er) e') := by
  refine ⟨⟨?_, hrc.elim .inl (.inr ∘ .inl)⟩, fun _ hcr _ _ => ?_⟩
  · have hid : CloudWorkflow.Idle none := trivial
    exact .cast (.idle hid False.elim (.inl rfl))
      (congrArg (fun t : Trust => { t with workflow := none, upgradeFrom := none }) htr)
  · rw [sync_settled_error, hsy hcr]
    exact .idle trivial (.inl rfl)

theorem Handled.gaveUp : Handled env rp e (settled (.error er) e) :=
  .failed rfl (fun _ => rfl) (.inl rfl)

theorem Handles.attempt {α : Type} {r : AppResult α} {f : α → EngineM J (CloudCompletion J)}
    (hf : ∀ a, r = .ok a → Handles env rp e (f a)) : Handles env rp e (Command.attempt r >>= f) :=
  ends_attempt_bind.2 ⟨hf, fun _ _ => .gaveUp⟩

theorem advanceCreateChallenge_handles (hw : e.persistent.workflow = some .acsCreateChallenge) :
    Handles env rp e (advanceCreateChallenge env rp nowEpochMs) := by
  unfold advanceCreateChallenge
  split
  · refine .attempt fun _ _ => ?_
    have hfr : CloudWorkflow.Fresh e.trust.workflow := by
      rw [CloudEngine.trust, hw]
      trivial
    exact ⟨⟨.idle trivial (fun _ => .inl hfr) (.inr rfl), .inl rfl⟩,
      fun _ _ _ _ => .idle trivial (.inr rfl)⟩
  · exact .gaveUp

theorem advanceCreateSseTicket_handles :
    Handles env rp e (advanceCreateSseTicket env rp nowEpochMs) := by
  unfold advanceCreateSseTicket
  split
  · refine .attempt fun _ _ => ?_
    refine .attempt fun acs _ => ?_
    simp only [ends_get_bind, ends_modify_bind]
    refine ends_attempt_bind.2 ⟨fun url _ => ?_, fun _ _ => .failed rfl (fun _ => rfl) (.inl rfl)⟩
    exact ⟨⟨.idle trivial False.elim (.inr rfl), .inl rfl⟩, fun _ _ _ _ => .idle trivial (.inr rfl)⟩
  · exact .gaveUp

theorem advanceCreateAccount_handles {c : String}
    (hw : e.persistent.workflow = some (.acsCreateAccount c)) :
    Handles env rp e (advanceCreateAccount env rp nowEpochMs ent) := by
  unfold advanceCreateAccount
  split
  · refine .attempt fun acs _ => ?_
    refine .attempt fun _ _ => ?_
    refine .attempt fun s hst => ?_
    obtain ⟨-, hpr, -⟩ := CloudEngine.fields_of_stageAcsPage hst
    exact ⟨⟨.create hw hpr, .inl rfl⟩, fun he _ _ _ =>
      CloudEngine.step_of_stageAcsPage he hst (.createAccount rfl rfl)⟩
  · exact .gaveUp

theorem advanceCreatePage_handles (hw : e.persistent.workflow = some (.acsCreatePage sg rv hash)) :
    Handles env rp e (advanceCreatePage env sg rv hash rp) := by
  unfold advanceCreatePage
  split
  · exact ⟨⟨.store hw, .inl rfl⟩, fun _ _ _ _ => .store hw⟩
  · exact ⟨⟨.store hw, .inl rfl⟩, fun _ _ _ _ => .store hw⟩
  · exact .gaveUp

theorem advanceCommitRoot_handles (hw : e.persistent.workflow = some (.acsCommitRoot sg rv hash)) :
    Handles env rp e (advanceCommitRoot env sg rp) := by
  unfold advanceCommitRoot
  split
  · next r =>
    refine .attempt fun _ _ => ?_
    refine .attempt fun _ hha => ?_
    rw [Except.rejectIf_eq_ok, not_not] at hha
    refine ends_bind.2 (ends_updateAcs (fun a acs ha hac => ?_) fun _ => .gaveUp)
    simp only [ends_modify_bind]
    refine ends_bind.2 (ends_bind.2 (ends_setTip (fun a' ha' => ?_)
      fun _ hn => absurd hn (by simp)))
    obtain rfl := Option.some.inj ha'
    have hr : a.acs.map (·.baseUrl) = some acs.baseUrl := by simp [hac]
    by_cases hpr : sg.purpose = .upgrade
    · refine ⟨⟨.cast (.upgraded hw hpr) ?_, .inl rfl⟩, fun _ _ i _ => ?_⟩
      · simp [settled, CloudEngine.trust, CloudAccount.ref, StagedPublication.tip, ha, hr, hpr]
      · have hfr : Step env i e.sync
            { e.sync with workflow := none, observed := none, upgradeFrom := none } :=
          .forget trivial (.inl rfl)
        simpa [settled, CloudEngine.sync, CloudPersistentState.sync, CloudAccount.ref, ha, hr,
          hpr] using hfr
    · refine ⟨⟨.cast (.commit hw ⟨rfl, rv, hash, hw, hha.symm⟩
        hpr) ?_, .inl rfl⟩, fun _ _ i _ => ?_⟩
      · simp [settled, CloudEngine.trust, CloudAccount.ref, StagedPublication.tip, ha, hr, hpr, hha]
      · have hcm : Step env i e.sync { e.sync with
              workflow := none
              observed := some ⟨env.format.version, r.revision, sg.nodeHash, true⟩
              pending := if e.sync.localRevision = sg.localRevision then ∅ else e.sync.pending } :=
          .commit hw hpr
        simpa [settled, CloudEngine.sync, CloudPersistentState.sync, CloudAccount.ref, ha, hr,
          hpr] using hcm
  · exact ⟨⟨.conflict, .inl rfl⟩, fun _ _ _ _ => .forget trivial (.inr rfl)⟩
  · exact .gaveUp

theorem validateAcsRootSnapshot_hash (h : validateAcsRootSnapshot env root = .ok ()) :
    root.value.authenticatedHash env.primitives .root acsFixedRootId = .ok root.rootHash := by
  simp only [validateAcsRootSnapshot, Except.bind_eq_ok, Except.rejectIf_eq_ok, not_not] at h
  obtain ⟨_, _, hs, hha, rfl⟩ := h
  exact hha

/-- A root that is new to the engine is observed, and its page is read next if it may be. -/
theorem readNewRoot_handles (hw : e.persistent.workflow = some (.acsReadRoot pu))
    (hre : rp = .acsRoot (some root))
    (hha : root.value.authenticatedHash env.primitives .root acsFixedRootId = .ok root.rootHash) :
    Handles env rp e (readNewRoot env root pu nowEpochMs) := by
  refine .attempt fun j hj => ?_
  obtain ⟨a, ha, hos⟩ := e.opens_of_decryptAcsValue hj hha
  refine .attempt fun v hhd => ?_
  have hrs : e.Reads env v root := ⟨⟨pu, hw⟩, a, j, ha, hos, hhd⟩
  simp only [ends_modify_bind, ends_get_bind]
  split
  · -- The page may be read; from here on an error still leaves the root observed.
    simp only [ends_modify_bind]
    generalize he' : (if v = env.format.version then dropUpgrade (observeRoot v root nowEpochMs e)
      else observeRoot v root nowEpochMs e) = e'
    obtain ⟨src, hsc, hsy, htr, ha', hcc⟩ : ∃ src, (src = none ∨ src = e.upgradeFrom) ∧
        e'.sync = { e.sync with
          observed := some ⟨v, root.revision, root.rootHash, false⟩, upgradeFrom := src } ∧
        e'.trust = { e.trust with
          observed := some ⟨v, root.revision, root.rootHash, false⟩, upgradeFrom := src } ∧
        e'.persistent.account = e.persistent.account ∧
        e'.persistent.records.cached = e.persistent.records.cached := by
      subst he'
      split
      · exact ⟨none, .inl rfl, rfl, rfl, rfl, rfl⟩
      · exact ⟨e.upgradeFrom, .inr rfl, rfl, rfl, rfl, rfl⟩
    have hfl : ∀ er, Handled env rp e (settled (.error er) e') := by
      intro er
      refine ⟨⟨.cast (.observe ⟨hre, hrs⟩ (.inl rfl)) ?_, .inl hcc⟩, fun _ _ i hsr => ?_⟩
      · exact congrArg (fun t : Trust => { t with workflow := none, upgradeFrom := none }) htr
      · rw [sync_settled_error, hsy]
        exact .observe (hsr root hre) (.inl rfl)
    cases hfn : env.format.find v with
    | none => exact hfl _
    | some d =>
      refine ends_attempt_bind.2 ⟨fun n hnd => ?_, fun _ _ => hfl _⟩
      simp only [ends_get_bind]
      refine ends_attempt_bind.2 ⟨fun a₁ ha₁ => ?_, fun _ _ => hfl _⟩
      refine ends_attempt_bind.2 ⟨fun _ hch => ?_, fun _ _ => hfl _⟩
      rw [CloudEnv.decodeNode_of_find hfn] at hnd
      refine ⟨⟨?_, .inl hcc⟩, fun hen _ i hsr => ?_⟩
      · have h : a₁.tip = e.trust.tip := by
          rw [CloudEngine.trust, ← ha', CloudEngine.account_eq_ok.1 ha₁]
          rfl
        rw [h] at hch
        have hln : e.trust.account = some a.ref := by simp [CloudEngine.trust, ha]
        exact .cast (.read hln hw ⟨hre, hrs⟩ ⟨j, hos, hnd⟩ hch hsc)
          (congrArg (fun t : Trust => { t with workflow := some (.acsReadPage root n pu) }) htr)
      · simp only [readVersion, hen.header hnd, Except.bind_eq_ok, Except.ok.injEq,
          Except.pure_eq_ok] at hhd
        obtain ⟨_, rfl, _, _, rfl⟩ := hhd
        have hrd : (setWorkflow (some (.acsReadPage root n pu)) e').sync =
            { e'.sync with workflow := some (.acsReadPage root n pu) } := rfl
        rw [settled, hrd, hsy]
        exact .read (e.sync_account ha) (hsr root hre) ⟨j, hos, hnd⟩ hsc
  · exact ⟨⟨.observe ⟨hre, hrs⟩ (.inl rfl), .inl rfl⟩,
      fun _ _ _ hsr => .observe (hsr root hre) (.inl rfl)⟩

theorem advanceReadRoot_handles (hw : e.persistent.workflow = some (.acsReadRoot pu)) :
    Handles env rp e (advanceReadRoot env pu rp nowEpochMs) := by
  unfold advanceReadRoot
  split
  · exact .gaveUp
  · next r =>
    refine .attempt fun _ hv => ?_
    refine .attempt fun acs _ => ?_
    split
    · exact ⟨⟨.idle trivial False.elim (.inr rfl), .inl rfl⟩, fun _ _ _ _ => .idle trivial (.inr rfl)⟩
    · exact readNewRoot_handles hw rfl (validateAcsRootSnapshot_hash hv)
  · exact .gaveUp

variable {obj : AcsObjectSnapshot}

theorem CloudEngine.nodePage_of_pageOfObject
    (hv : nd.version = env.format.version) (h : e.pageOfObject env nd obj = .ok pg) :
    ∃ a, e.persistent.account = some a ∧ NodePage env a.ref nd pg := by
  simp only [CloudEngine.pageOfObject, Except.bind_eq_ok, Except.rejectIf_eq_ok, not_not] at h
  obtain ⟨_, hid, ah, hha, _, rfl, j, hj, hpg⟩ := h
  rw [hid] at hha hj
  rw [hv] at hpg
  obtain ⟨a, ha, hos⟩ := e.opens_of_decryptAcsValue hj hha
  exact ⟨a, ha, j, hos, hpg⟩

theorem upgradePage_handles (hw : e.persistent.workflow = some (.acsReadPage root nd pu)) :
    Handles env rp e (upgradePage env root nd pg nowEpochMs ent) := by
  refine .attempt fun _ hcn => ?_
  refine .attempt fun rs _ => ?_
  refine .attempt fun s hst => ?_
  obtain ⟨-, hpr, hg, -⟩ := CloudEngine.fields_of_stageAcsPage hst
  refine ⟨⟨.upgrade hw hpr hg, .inl rfl⟩, fun he _ _ _ => ?_⟩
  simp only [Except.rejectIf_eq_ok, not_not] at hcn
  have hsm : e.sync.upgradeFrom.isSome := by simp [CloudEngine.sync, hcn.1]
  exact CloudEngine.step_of_stageAcsPage he hst (.upgrade hsm)

/-- A failed request changes the workflow only to ask for a new challenge. -/
theorem providerFailed_handled {k : CloudProviderErrorKind} {d : String}
    {ram : Option Nat} {g : Option AcsRateLimitGate} : Handled env rp e.answering
      (providerFailed k d ram g nowEpochMs { e with providerRequestInFlight := none }) := by
  generalize he' : providerFailed k d ram g nowEpochMs
    { e with providerRequestInFlight := none } = e'
  obtain ⟨hsy, htr, hcc⟩ :
      e'.sync = { e.sync with workflow := workflowAfterFailure g e.persistent.workflow } ∧
      e'.trust = { e.trust with workflow := workflowAfterFailure g e.persistent.workflow } ∧
      e'.persistent.records.cached = e.persistent.records.cached := by
    subst he'
    cases k <;> exact ⟨rfl, rfl, rfl⟩
  by_cases hsm : workflowAfterFailure g e.persistent.workflow = e.persistent.workflow
  · rw [hsm] at hsy htr
    exact ⟨⟨.of_eq htr, .inl hcc⟩, fun _ _ _ _ => hsy ▸ .quiet⟩
  · obtain ⟨hnx, hfr⟩ : workflowAfterFailure g e.persistent.workflow =
        some .acsCreateChallenge ∧ CloudWorkflow.Fresh e.persistent.workflow := by
      cases hw : e.persistent.workflow with
      | none => simp [workflowAfterFailure, hw] at hsm
      | some w =>
        cases w with
        | acsCreateAccount c =>
          simp only [workflowAfterFailure, hw] at hsm ⊢
          split at hsm
          · next hga => exact ⟨if_pos hga, trivial⟩
          · exact absurd rfl hsm
        | _ => simp [workflowAfterFailure, hw] at hsm
    rw [hnx] at hsy htr
    have hid : CloudWorkflow.Idle (some .acsCreateChallenge) := trivial
    exact ⟨⟨.cast (.idle hid (fun _ => .inl hfr) (.inr rfl)) htr, .inl hcc⟩,
      fun _ _ _ _ => hsy ▸ .idle hid (.inr rfl)⟩

section Responses

variable [DecidableEq J]

theorem reconcileRecords_trust {es : List (String × CloudRecord J)} {e : CloudEngine J}
    {c : RecordMap J} : Ends (reconcileRecords env pu es c) e fun _ e' => e'.trust = e.trust := by
  induction es generalizing e c with
  | nil => rfl
  | cons en es ih =>
    obtain ⟨key, r⟩ := en
    have hf : Ends (reconcileRecord env pu c key r) e fun _ e' => e'.trust = e.trust := by
      refine ends_attempt_bind.2 ⟨fun _ _ => ?_, fun _ _ => rfl⟩
      simp only [ends_get_bind]
      split
      · split <;> rfl
      · rfl
    apply hf.bind
    · intro c' e' h
      exact ih.imp fun _ _ h' => h'.trans h
    · exact fun _ _ h => h

theorem reconcilePage_trust : Ends (reconcilePage env pg pu) e fun _ e' => e'.trust = e.trust := by
  unfold reconcilePage
  simp only [ends_get_bind]
  exact reconcileRecords_trust.bind (fun _ _ h => h) fun _ _ h => h

/-- The page of a root is reconciled, and the root then counts as verified. -/
theorem adoptPage_handles {r : AcsRootSnapshot} {a : CloudAccount}
    (hrs : rp = .acsObject (some obj)) (ha : e.persistent.account = some a)
    (hw : e.persistent.workflow = some (.acsReadPage r nd pu))
    (hvr : nd.version = env.format.version) (hpg : NodePage env a.ref nd pg)
    (hv : validateCloudRecords env.primitives env.codec.toRecordCodec pg.records = .ok ()) :
    Handles env rp e (adoptPage env r nd pg pu nowEpochMs) := by
  refine ends_bind.2 (ends_of_run (fun _ p hrn => ?_) fun er p hrn => ?_)
  · have hpr : Prepared env e p := prepareLocalRecords_prepared.of_ok hrn
    have hfn : Command.final (prepareLocalRecords env) e = p := by rw [Command.final, hrn]
    have hln : p.persistent.account = some a := hpr.account.trans ha
    refine ends_bind.2 (ends_setTip (fun a₁ ha₁ => ?_)
      fun _ hn => absurd (hln.symm.trans hn) (by simp))
    have ht := CloudEngine.trust_setTip (tipOfNode r nd) ha₁
    have hsy := CloudEngine.sync_setTip (tipOfNode r nd) ha₁
    rw [hpr.trust] at ht
    refine ends_bind.2 (ends_updateAcs (fun a₂ acs ha₂ hac => ?_) fun er => ?_)
    · simp only [ends_modify_bind]
      apply ((reconcilePage_reconciled hv).and reconcilePage_trust).bind
      · rintro c e' ⟨⟨-, hrc, hr⟩, hr'⟩
        have had : ∀ e'', e''.sync.cached = e'.sync.cached → e''.sync.pending = e'.sync.pending →
            CloudEngine.Adopts env r e e'' := by
          intro e'' hcc hpn
          refine ⟨nd, pu, a, pg, p, hw, hvr, ha, hpg, hrn, ?_⟩
          constructor
          · rw [hcc, hpn]
            exact hrc.adopted
          · rw [hcc, hpn]
            exact hrc.kept
          · rw [hcc, hpn]
            exact hrc.unknown
        refine ⟨⟨.cast (.adopt hw ⟨obj, hrs, had _ rfl rfl⟩) ?_,
          .inr (.inr ⟨r, had _ rfl rfl⟩)⟩, fun _ hcr _ _ => ?_⟩
        · exact congrArg (fun t : Trust => { t with
            observed := t.observed.map fun r : ObservedRoot => { r with recordsVerified := true } })
            (hr'.trans (congrArg (fun t : Trust => { t with workflow := none })
              ((CloudEngine.unseen_updateAcs ha₂ hac rfl).trust.trans ht)))
        · obtain rfl := hpr.current hcr
          refine .adopt (p.sync_account ha) hw hvr hpg ⟨hrc.adopted, hrc.kept, hrc.unknown⟩ ?_
          exact congrArg (fun t : Sync J => { t with
            observed := t.observed.map fun r : ObservedRoot => { r with recordsVerified := true } })
            (hr.trans (congrArg (fun t : Sync J => { t with
              cached := e'.sync.cached, pending := e'.sync.pending, workflow := none })
              ((CloudEngine.unseen_updateAcs ha₂ hac rfl).sync.trans hsy)))
      · rintro _ _ ⟨⟨⟨_, h⟩, -⟩, -⟩
        cases h
    · refine ⟨⟨.cast (.halfAdopted hw) ?_, .inr (.inl ?_)⟩, fun _ hcr _ _ => ?_⟩
      · exact congrArg (fun t : Trust => { t with workflow := none, upgradeFrom := none }) ht
      · rw [hfn]
        rfl
      · obtain rfl := hpr.current hcr
        rw [sync_settled_error, hsy]
        exact .idle trivial (.inl rfl)
  · have hpr : Prepared env e p := prepareLocalRecords_prepared.of_error hrn
    refine .failed hpr.trust (fun hcr => by rw [hpr.current hcr]) (.inr ?_)
    rw [Command.final, hrn]

theorem advanceReadPage_handles (hw : e.persistent.workflow = some (.acsReadPage root nd pu)) :
    Handles env rp e (advanceReadPage env root nd pu rp nowEpochMs ent) := by
  unfold advanceReadPage
  split
  · exact .gaveUp
  · next obj =>
    refine .attempt fun p ho => ?_
    split
    · exact upgradePage_handles hw
    · next hv =>
      have hv := not_not.1 hv
      obtain ⟨a, ha, hpg⟩ := e.nodePage_of_pageOfObject hv ho
      refine adoptPage_handles rfl ha hw hv hpg ?_
      obtain ⟨j, -, hdc⟩ := hpg
      exact CloudEnv.validate_of_decodePage hdc
  · exact .gaveUp

/-- Every workflow, one case for each of its states. -/
theorem advanceWorkflow_handles {wf : CloudWorkflow} (hw : e.persistent.workflow = some wf) :
    Handles env rp e (advanceWorkflow env wf rp nowEpochMs ent) := by
  cases wf with
  | acsCreateChallenge => exact advanceCreateChallenge_handles hw
  | acsCreateAccount c => exact advanceCreateAccount_handles hw
  | acsCreatePage s r h => exact advanceCreatePage_handles hw
  | acsCommitRoot s r h => exact advanceCommitRoot_handles hw
  | acsReadRoot p => exact advanceReadRoot_handles hw
  | acsReadPage rt n p => exact advanceReadPage_handles hw
  | acsCreateSseTicket => exact advanceCreateSseTicket_handles

theorem providerAnswered_handled : Ends (providerAnswered env rp nowEpochMs ent) e
      fun _ e' => Handled env rp e e' := by
  simp only [providerAnswered, ends_get_bind]
  split
  · exact .gaveUp
  · next wf hw =>
    refine ends_tryCatch.2 ((advanceWorkflow_handles hw).imp ?_)
    intro res e' hhn
    cases res <;> exact hhn

/-- A response is ignored unless its request is awaited. -/
theorem completeProviderRequest_handled {ri : Nat} :
    Ends (completeProviderRequest env ri rp nowEpochMs ent) e fun _ e' =>
      e' = e ∨ (e.Awaits ri ∧ Handled env rp e.answering e') := by
  simp only [completeProviderRequest, ends_get_bind]
  cases hr : e.providerRequestInFlight with
  | none => exact .inl rfl
  | some req =>
    refine ends_attempt_bind.2 ⟨fun _ hid => ?_, fun _ _ => .inl rfl⟩
    rw [Except.rejectIf_eq_ok, not_not] at hid
    have haw : e.Awaits ri := ⟨req, hr, hid⟩
    simp only [ends_modify_bind]
    split
    · exact .inr ⟨haw, providerFailed_handled⟩
    · refine ends_modify_bind.2 (providerAnswered_handled.imp fun _ e' hhn => ?_)
      exact .inr ⟨haw, hhn⟩

end Responses

theorem CloudPersistentState.resumed_workflow (d : CloudPersistentState J) :
    d.resumed.workflow = d.workflow.map resumedWorkflow ∨
      CloudWorkflow.Idle d.resumed.workflow := by
  simp only [CloudPersistentState.resumed]
  split
  · exact .inr trivial
  · exact .inl rfl

variable {d : CloudPersistentState J}

/-- What a process starts with. -/
theorem CloudEngine.sync_resume
    (hv : d.version = cloudPersistenceVersion) :
    (CloudEngine.resume d).sync = { d.stored with workflow := d.resumed.workflow } := by
  have hrc : d.resumed.records = d.records := by
    simp [CloudPersistentState.resumed, hv, cloudPersistenceVersion]
  simp only [CloudEngine.sync, CloudEngine.resume, CloudPersistentState.stored,
    CloudPersistentState.sync, hrc]
  simp [CloudPersistentState.resumed, hv]

/-- A new process goes on with what it finds on the disk, if that was written by this version. -/
theorem CloudEngine.new_step (hcr : Current env d.stored) :
    Step env inp d.stored (CloudEngine.new env d).sync := by
  have hsy := CloudEngine.sync_resume hcr.version
  have hrs : Current env (CloudEngine.resume d).sync := by
    rw [hsy]
    exact ⟨hcr.format, hcr.version⟩
  unfold CloudEngine.new
  split
  · next s hr =>
    have hpr : Prepared env _ s := prepareLocalRecords_prepared.of_ok hr
    rw [hpr.current hrs, hsy]
    rcases d.resumed_workflow with h | h
    · rw [h]
      exact .quiet
    · exact .idle h (.inr rfl)
  · next er s hr =>
    have hpr : Prepared env _ s := prepareLocalRecords_prepared.of_error hr
    have hfl : ∀ e : CloudEngine J, (commitProviderCompletionFailure er e).sync =
        { e.sync with workflow := none, upgradeFrom := none } := fun _ => rfl
    rw [hpr.current hrs, hfl, hsy]
    exact .idle trivial (.inl rfl)

/-- A new process knows the account and its tip; it has read nothing and has nobody's consent. -/
theorem CloudEngine.trust_new (env : CloudEnv J F) (d : CloudPersistentState J) :
    ∃ w, (w = none ∨ w = d.resumed.workflow) ∧ (CloudEngine.new env d).trust =
        ⟨d.account.map (·.ref), d.account.bind (·.tip), w, none, none⟩ := by
  unfold CloudEngine.new
  split
  · next s hr => exact ⟨d.resumed.workflow, .inr rfl, (prepareLocalRecords_prepared.of_ok hr).trust⟩
  · next error s hr =>
    refine ⟨none, .inl rfl, ?_⟩
    exact congrArg (fun t : Trust => { t with workflow := none, upgradeFrom := none })
      (prepareLocalRecords_prepared.of_error hr).trust

theorem Trust.Step.mono {c c' : Trust.Cause} {s t : Trust} (h : Trust.Step env c s t)
    (hcn : ∀ ver, c.consents ver → c'.consents ver) (hrs : ∀ ver r, c.reads ver r → c'.reads ver r)
    (hc : ∀ st r, c.commits st r → c'.commits st r) (hvr : ∀ r, c.verifies r → c'.verifies r) :
    Trust.Step env c' s t := by
  cases h with
  | quiet => exact .quiet
  | idle hid hfr hsr => exact .idle hid hfr hsr
  | conflict => exact .conflict
  | consent hco hrt hv hu => exact .consent (hcn _ hco) hrt hv hu
  | link hn hid => exact .link hn hid
  | unlink ho hsr => exact .unlink ho hsr
  | publish hw ht hpr hg => exact .publish hw ht hpr hg
  | create hw hpr => exact .create hw hpr
  | upgrade hw hpr hg => exact .upgrade hw hpr hg
  | store hw => exact .store hw
  | commit hw hcm hpr => exact .commit hw (hc _ _ hcm) hpr
  | upgraded hw hpr => exact .upgraded hw hpr
  | observe hrd hsr => exact .observe (hrs _ _ hrd) hsr
  | read ha hw hrd hnd hch hsr => exact .read ha hw (hrs _ _ hrd) hnd hch hsr
  | adopt hw hvrf => exact .adopt hw (hvr _ hvrf)
  | halfAdopted hw => exact .halfAdopted hw

section Steps

variable [DecidableEq J] [DecidableEq F] {dk : CloudPersistentState J} {l : DeviceLabel J F}

/-- Every step but a restart edits records, or moves the workflow. -/
theorem CloudEngine.step_moved (hlb : l ≠ .restart) : Writes env e (e.step env dk l) ∨
      Moved env l.input (e.cause env l (e.step env dk l)) e (e.step env dk l) := by
  cases l with
  | configure bu => exact .inr (ends_iff.1 setAcsDefaultBaseUrl_unseen).moved
  | edit ed now => exact .inl (ends_iff.1 recordLocalEdit_writes)
  | act a cp s now =>
    refine .inr (ends_iff.1 (performAction_moved ?_ ?_))
    · rintro rfl
      trivial
    · rintro rfl ver hd
      exact ⟨cp, s, now, rfl, hd⟩
  | report ev now => exact .inr (ends_iff.1 reportEventStreamEvent_unseen).moved
  | deferFlightPlan p => exact .inr (ends_iff.1 setPendingRemoteFlightPlan_unseen).moved
  | adoptFlightPlan | persist => exact .inr ⟨fun _ _ => .quiet, .quiet⟩
  | take now en => exact .inr (ends_iff.1 takeProviderRequest_moved).1
  | complete ri r now en =>
    obtain hsm | ⟨haw, hhn⟩ := ends_iff.1
      (completeProviderRequest_handled : Ends (completeProviderRequest env ri r now en) e _)
    · exact .inr (Unseen.moved ⟨congrArg CloudEngine.sync hsm, congrArg CloudEngine.trust hsm⟩)
    · refine .inr ⟨fun he hcr => hhn.sync he hcr _ ?_, hhn.trust.mono (fun _ => False.elim)
        (fun _ _ h => ⟨ri, r, now, en, rfl, haw, h⟩) (fun _ _ h => ⟨ri, r, now, en, rfl, haw, h⟩)
        (fun _ h => ⟨ri, r, now, en, rfl, haw, h⟩)⟩
      rintro rt rfl
      rfl
  | restart => exact absurd rfl hlb

/-- A step of a device, as a move of the part of its state that is synchronized. -/
theorem Device.step_moves (he : env.Lawful) {dv : Device J} (hcr : Current env (dv.start l)) :
    Moves env l.input (dv.start l) (dv.step env l).engine.sync := by
  by_cases hrs : l = .restart
  · subst hrs
    exact .step (CloudEngine.new_step hcr)
  · have hs : dv.start l = dv.engine.sync := by cases l <;> first | rfl | exact absurd rfl hrs
    rw [hs] at hcr ⊢
    rcases CloudEngine.step_moved hrs with hwr | hmv
    · exact .edits hwr.edits
    · exact .step (hmv.sync he hcr)

/-- A step of an engine, as a step of what it trusts. -/
theorem CloudEngine.trust_step (hlb : l ≠ .restart) :
    Trust.Step env (e.cause env l (e.step env dk l)) e.trust (e.step env dk l).trust := by
  rcases CloudEngine.step_moved hlb with hwr | hmv
  · exact .of_eq hwr.trust
  · exact hmv.trust

end Steps

end Aerobag.Client
