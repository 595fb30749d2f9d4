import Aerobag.Client.Proofs.ReconcileProofs

/-!
# The workflow follows the protocol

What a publication is made of, and what `take_provider_request` does to the abstract state and to the
trust.
-/

open Option Except

namespace Aerobag.Client

open Command Sync

variable {J F : Type} {env : CloudEnv J F} {e : CloudEngine J} {v : AcsEncryptedValue}
  {k : AcsEncryptedValueKind} {vi hash : String} {account : CloudAccount} {j : J} {pg : CloudPage J}
  {pu : PublicationPurpose} {g : Nat} {pr : Option VerifiedTip} {now : Int} {en : StageEntropy}
  {sg : StagedPublication}

theorem AcsEncryptedValue.validate_of_authenticatedHash {P : Primitives}
    (h : v.authenticatedHash P k vi = .ok hash) : v.validate P = .ok () := by
  simp only [AcsEncryptedValue.authenticatedHash, bind_eq_ok] at h
  obtain ⟨_, h, -⟩ := h
  exact h

/-- What is encrypted opens under its hash. -/
theorem CloudEngine.opens_of_encryptAcsValue (he : env.Lawful)
    (ha : e.persistent.account = some account) {r : String} {cs : List String}
    {n : Bytes} (hkd : (cs.insertionSort (· ≤ ·)).dedup = cs)
    (h : e.encryptAcsValue env j r k vi cs n = .ok v)
    (hha : v.authenticatedHash env.primitives k vi = .ok hash) :
    Opens env account.ref k vi r hash j := by
  simp only [CloudEngine.encryptAcsValue, CloudEngine.account, ha,
    bind_eq_ok, Except.ok.injEq, pure_eq_ok, exists_eq_left'] at h
  obtain ⟨s, hsc, aad, had, rfl⟩ := h
  refine ⟨_, s, hha, hsc, ?_⟩
  simp only [openAcsValue, bind_eq_ok]
  refine ⟨(), AcsEncryptedValue.validate_of_authenticatedHash hha, _, ?_, aad, ?_,
    he.envelope s n r aad j⟩
  · simp [AcsEncryptedValue.ciphertext, AcsEncryptedValue.fromCiphertext, he.base64]
  · rw [← had]
    exact congrArg _ hkd

/-- What is decrypted opens under its hash. -/
theorem CloudEngine.opens_of_decryptAcsValue {r : String}
    (h : e.decryptAcsValue env v r k vi = .ok j)
    (hha : v.authenticatedHash env.primitives k vi = .ok hash) :
    ∃ a, e.persistent.account = some a ∧ Opens env a.ref k vi r hash j := by
  simp only [CloudEngine.decryptAcsValue, bind_eq_ok, CloudEngine.account_eq_ok] at h
  obtain ⟨a, ha, s, hsc, hop⟩ := h
  exact ⟨a, ha, v, s, hha, hsc, hop⟩

theorem CloudEnv.decodePage_of_encodePage (he : env.Lawful)
    (h : env.format.current.encodePage pg = .ok j) : env.format.current.decodePage j = .ok pg := by
  simp only [CloudEnv.format, currentFormat, bind_eq_ok, pure_eq_ok] at h ⊢
  obtain ⟨_, hv, rfl⟩ := h
  exact ⟨pg, he.page pg, (), hv, rfl⟩

theorem CloudEnv.validate_of_decodePage (h : env.format.current.decodePage j = .ok pg) :
    validateCloudRecords env.primitives env.codec.toRecordCodec pg.records = .ok () := by
  simp only [CloudEnv.format, currentFormat, validateCloudPage, bind_eq_ok, pure_eq_ok] at h
  obtain ⟨_, _, _, ⟨_, _, hv⟩, rfl⟩ := h
  exact hv

theorem FormatDescriptor.mem_of_find {ps : List (FormatDescriptor J)}
    {s d : FormatDescriptor J} {ver : Nat} (h : s.find ps ver = some d) : d = s ∨ d ∈ ps := by
  induction ps generalizing s with
  | nil =>
    simp only [FormatDescriptor.find, ite_none_right_eq_some, some.injEq] at h
    exact .inl h.2.symm
  | cons p r ih =>
    unfold FormatDescriptor.find at h
    split_ifs at h with hv hpr
    · exact .inl (some.inj h).symm
    · exact .inr (List.mem_cons.2 (ih h))

theorem CloudEnv.decodeNode_of_find {ver : Nat} {d : FormatDescriptor J}
    (h : env.format.find ver = some d) : d.decodeNode = env.codec.nodeFromJson := by
  have hm := FormatDescriptor.mem_of_find h
  simp only [CloudEnv.format, currentFormat, List.mem_cons, List.not_mem_nil, or_false] at hm
  rcases hm with rfl | rfl | rfl <;> rfl

/-- The page that is staged is the one that the hash of its root names. -/
theorem CloudEngine.rootPage_of_stageAcsPage (he : env.Lawful)
    (ha : e.persistent.account = some account) (h : e.stageAcsPage env pu g pr now pg en = .ok sg) :
    RootPage env account.ref sg.nodeHash pg := by
  simp only [CloudEngine.stageAcsPage, bind_eq_ok, pure_eq_ok] at h
  obtain ⟨pj, hen, pv, hpa, _, _, ph, hph, nv, hno, _, _, nh, hnh, rfl⟩ := h
  have hnd := e.opens_of_encryptAcsValue he ha rfl hno hnh
  have hpg := e.opens_of_encryptAcsValue he ha rfl hpa hph
  exact ⟨_, ⟨_, hnd, he.node _⟩, rfl, pj, hpg, CloudEnv.decodePage_of_encodePage he hen⟩

theorem CloudEngine.fields_of_stageAcsPage (h : e.stageAcsPage env pu g pr now pg en = .ok sg) :
    (∃ a, e.persistent.account = some a) ∧ sg.purpose = pu ∧
      sg.generation = g ∧ sg.localRevision = e.persistent.localRevision := by
  simp only [CloudEngine.stageAcsPage, bind_eq_ok, pure_eq_ok] at h
  obtain ⟨_, _, _, hv, _, _, _, _, _, _, _, _, _, _, rfl⟩ := h
  simp only [CloudEngine.encryptAcsValue, bind_eq_ok, CloudEngine.account_eq_ok] at hv
  obtain ⟨a, ha, -⟩ := hv
  exact ⟨⟨a, ha⟩, rfl, rfl, rfl⟩

theorem CloudEngine.sync_account (ha : e.persistent.account = some account) :
    e.sync.account = some account.ref := by
  simp [CloudEngine.sync, CloudPersistentState.sync, ha]

theorem CloudEngine.step_of_stageAcsPage (he : env.Lawful) {i : Input} {rev : Nat}
    {hs : Option String} (h : e.stageAcsPage env pu g pr now pg en = .ok sg)
    (hpb : Publishes env e.sync pg hs pu) :
    Step env i e.sync (setWorkflow (some (.acsCreatePage sg rev hs)) e).sync := by
  obtain ⟨⟨a, ha⟩, rfl, -, hr⟩ := fields_of_stageAcsPage h
  exact .stage (e.sync_account ha) (e.rootPage_of_stageAcsPage he ha h) hr hpb

/-- The local records were checked and brought into the client's format, where they were not. -/
structure Prepared (env : CloudEnv J F) (e e' : CloudEngine J) : Prop where
  trust : e'.trust = e.trust
  account : e'.persistent.account = e.persistent.account
  current : Current env e.sync → e' = e

theorem prepareLocalRecords_prepared : Command.Moves (Prepared env) (prepareLocalRecords env) e := by
  have hsm : Prepared env e e := ⟨rfl, rfl, fun _ => rfl⟩
  simp only [Command.Moves, prepareLocalRecords, ends_get_bind]
  split
  · next h =>
    refine ends_attempt_bind.2 ⟨fun c _ => ?_, fun _ _ => hsm⟩
    refine ends_attempt_bind.2 ⟨fun d _ => ?_, fun _ _ => hsm⟩
    refine ends_attempt_bind.2 ⟨fun _ _ => ?_, fun _ _ => hsm⟩
    refine ends_attempt_bind.2 ⟨fun _ _ => ?_, fun _ _ => hsm⟩
    simp only [ends_modify_bind, ends_get_bind]
    exact ends_attempt.2 ⟨rfl, rfl, fun hcr => absurd hcr.format h⟩
  · refine ends_get_bind.2 (ends_attempt.2 ?_)
    exact hsm

theorem CloudEngine.verifiedAt_iff {rev : Nat} {h : Option String} : e.verifiedAt env rev h = true ↔
      ∃ r, Verified env e.sync r ∧ r.revision = rev ∧ h = some r.hash := by
  simp only [CloudEngine.verifiedAt, Option.any_eq_true, Bool.and_eq_true, beq_iff_eq,
    ObservedRoot.matchesRoot, decide_eq_true_eq, Verified]
  refine exists_congr fun r => ?_
  tauto

variable {inp : Input} {cau : Trust.Cause}

theorem Prepared.moved {e' : CloudEngine J} (h : Prepared env e e') : Moved env inp cau e e' :=
  ⟨fun _ hcr => h.current hcr ▸ .quiet, .of_eq h.trust⟩

/-- A publication starts from the records as they are cached. -/
theorem startPublication_moved (hw : e.persistent.workflow = none) :
    Command.Moves (Moved env inp cau) (startPublication env now en) e := by
  refine moves_attempt_bind fun acs hac => moves_attempt_bind fun _ hvr => ?_
  refine Ends.bind prepareLocalRecords_prepared (fun _ p hpr => ?_) fun _ _ => Prepared.moved
  simp only [ends_get_bind]
  refine ends_attempt_bind.2 ⟨fun acc h => ?_, fun _ _ => hpr.moved⟩
  refine ends_attempt_bind.2 ⟨fun acs' hac' => ?_, fun _ _ => hpr.moved⟩
  cases htip : acc.tip with
  | none => exact hpr.moved
  | some tip =>
    refine ends_attempt_bind.2 ⟨fun s hst => ?_, fun _ _ => hpr.moved⟩
    refine ⟨fun he hcr => ?_, ?_⟩
    · obtain rfl := hpr.current hcr
      have hsm : acs' = acs := by
        obtain ⟨a, ha, hac⟩ := CloudEngine.acs_eq_ok.1 hac
        obtain ⟨a', ha', hac'⟩ := CloudEngine.acs_eq_ok.1 hac'
        obtain rfl := some.inj (ha.symm.trans ha')
        exact some.inj (hac'.symm.trans hac)
      subst hsm
      simp only [rejectIf_eq_ok, not_not] at hvr
      obtain ⟨r, hrt, -, hha⟩ := CloudEngine.verifiedAt_iff.1 hvr
      exact CloudEngine.step_of_stageAcsPage he hst (.publish hrt hha rfl)
    · obtain ⟨-, hpu, hg, -⟩ := CloudEngine.fields_of_stageAcsPage hst
      have htp' : e.trust.tip = some tip := by
        rw [← hpr.trust, CloudEngine.trust, CloudEngine.account_eq_ok.1 h]
        exact htip
      exact .cast (.publish hw htp' hpu hg) (congrArg (fun t : Trust => { t with
        workflow := some (.acsCreatePage s acs'.rootRevision acs'.rootHash) }) hpr.trust)

theorem CloudAccount.moved_readRoot (ha : e.persistent.account = some account) {e' : CloudEngine J}
    (hsy : e'.sync = { e.sync with workflow := some (.acsReadRoot account.readPurpose) })
    (htr : e'.trust = { e.trust with workflow := some (.acsReadRoot account.readPurpose) }) :
    Moved env inp cau e e' := by
  have hid : CloudWorkflow.Idle (some (.acsReadRoot account.readPurpose)) := trivial
  refine ⟨fun _ _ => hsy ▸ .idle hid (.inr rfl), .cast (.idle hid (fun hfr => .inr ?_)
    (.inr rfl)) htr⟩
  simp only [CloudEngine.trust, ha, bind_some]
  unfold CloudAccount.readPurpose at hfr
  cases htip : account.tip with
  | none => rfl
  | some tip => simp [htip, CloudWorkflow.Fresh] at hfr

theorem startPoll_moved (ha : e.persistent.account = some account) :
    Moved env inp cau e (startPoll env account now e) := by
  unfold startPoll
  extract_lets interval pollDue
  split
  · exact account.moved_readRoot ha rfl rfl
  · split
    · exact ⟨fun _ _ => .idle trivial (.inr rfl), .idle trivial False.elim (.inr rfl)⟩
    · exact Std.Refl.refl e

/-- What the engine does next when it is idle. -/
theorem ensureWorkflow_moved : Command.Moves (Moved env inp cau) (ensureWorkflow env now en) e := by
  simp only [ensureWorkflow, moves_get_bind]
  split
  · exact moves_pure
  · next hw =>
    rw [not_isSome_iff_eq_none] at hw
    split
    · exact moves_pure
    · next a ha =>
      split
      · exact moves_modify.2 (a.moved_readRoot ha rfl rfl)
      · split
        · exact startPublication_moved hw
        · exact moves_modify.2 (startPoll_moved ha)

/-- The request is that of the engine's workflow, and a publication was checked before. -/
structure Issued (env : CloudEnv J F) (e : CloudEngine J) (request : CloudProviderRequest) :
    Prop where
  operation : ∃ workflow, e.persistent.workflow = some workflow ∧
    operationForWorkflow env workflow e.persistent.account = .ok request.operation ∧
    e.checkAuthorized env workflow = .ok ()

/-- A request is taken for the workflow that is under way. -/
theorem takeProviderRequest_moved : Ends (takeProviderRequest env now en) e fun res e' =>
      Moved env inp cau e e' ∧ ∀ r, res = .ok (some r) → Issued env e' r := by
  simp only [takeProviderRequest, ends_get_bind]
  split
  · refine .bind ensureWorkflow_moved (fun _ e' hmv => ?_) fun _ _ hmv => ⟨hmv, by simp⟩
    simp only [ends_get_bind]
    cases hw : e'.persistent.workflow with
    | none => exact ⟨hmv, by simp⟩
    | some wf =>
      -- what follows is not seen
      have hmv' : ∀ e'', e''.sync = e'.sync → e''.trust = e'.trust → Moved env inp cau e e'' :=
        fun e'' hsy htr => ⟨fun he hcr => hsy ▸ hmv.sync he hcr, htr ▸ hmv.trust⟩
      refine ends_attempt_bind.2 ⟨fun _ hch => ?_, fun _ _ => ⟨hmv, by simp⟩⟩
      refine ends_attempt_bind.2 ⟨fun op hop => ?_, fun _ _ => ⟨hmv, by simp⟩⟩
      simp only [ends_modify_bind]
      refine ends_attempt_bind.2 ⟨fun a _ => ?_, fun _ _ => ⟨hmv' _ rfl rfl, by simp⟩⟩
      refine ends_attempt_bind.2 ⟨fun acs _ => ?_, fun _ _ => ⟨hmv' _ rfl rfl, by simp⟩⟩
      refine ends_attempt_bind.2 ⟨fun sec _ => ?_, fun _ _ => ⟨hmv' _ rfl rfl, by simp⟩⟩
      refine ends_attempt_bind.2 ⟨fun _ _ => ⟨hmv' _ rfl rfl, ?_⟩,
        fun _ _ => ⟨hmv' _ rfl rfl, by simp⟩⟩
      intro r hr
      obtain rfl := some.inj (Except.ok.inj hr)
      exact ⟨wf, hw, hop, hch⟩
  · exact ⟨⟨fun _ _ => .quiet, .quiet⟩, by simp⟩

end Aerobag.Client
