import Aerobag.Client.Proofs.MigrationProofs
import Aerobag.Client.Trust
import Mathlib.Order.MinMax

/-!
# The engine follows the protocol

Every step of a device is a step of the protocol on the abstract state (`Device.step_moves`), and
every step of an engine is one of its trust (`CloudEngine.trust_step`).
-/

open List Option

namespace Aerobag.Client

open Command Sync

variable {J F : Type} {env : CloudEnv J F}

/-- What is documented of the libraries: decoding gives back what was encoded, and a root's header and
its body are read from the same JSON object. -/
structure CloudEnv.Lawful (env : CloudEnv J F) : Prop where
  base64 : ∀ bytes, env.primitives.base64UrlDecode (env.primitives.base64UrlEncode bytes) =
    some bytes
  envelope : ∀ secret nonce role aad json,
    env.decryptEnvelope secret role aad (env.encryptEnvelope secret nonce role aad json) = .ok json
  node : ∀ node, env.codec.nodeFromJson (env.codec.nodeToJson node) = .ok node
  header : ∀ {json node}, env.codec.nodeFromJson json = .ok node →
    env.codec.headerVersion json = .ok node.version
  page : ∀ page, env.codec.pageFromJson (env.codec.pageToJson page) = .ok page

variable {e e' : CloudEngine J} {acc : CloudAccount} {c : Trust.Cause}

theorem Trust.Step.cast {s t t' : Trust} (h : Trust.Step env c s t)
    (heq : t' = t) : Trust.Step env c s t' :=
  heq ▸ h

theorem Trust.Step.of_eq {s t : Trust} (h : t = s) : Trust.Step env c s t := .cast .quiet h

/-- The account is there just when the device is linked. -/
theorem CloudEngine.account_eq_ok : e.account = .ok acc ↔ e.persistent.account = some acc := by
  unfold CloudEngine.account
  cases e.persistent.account <;> simp

variable {ms : String} {acs : AcsAccountState}

theorem CloudEngine.acs_eq_ok : e.acs ms = .ok acs ↔
      ∃ a, e.persistent.account = some a ∧ a.acs = some acs := by
  unfold CloudEngine.acs
  simp only [Except.bind_eq_ok, CloudEngine.account_eq_ok]
  refine exists_congr fun a => and_congr_right fun _ => ?_
  cases a.acs <;> simp

variable {Q : Except String Unit → CloudEngine J → Prop}

/-- How `updateAcs` ends: the account's service state is changed, or nothing is. -/
theorem ends_updateAcs {u : AcsAccountState → AcsAccountState}
    (hok : ∀ a acs, e.persistent.account = some a → a.acs = some acs →
      Q (.ok ()) { e with persistent.account := some { a with acs := some (u acs) } })
    (he : ∀ er, Q (.error er) e) : Ends (updateAcs ms u) e Q := by
  refine ends_attempt_bind.2 ⟨fun a ha => ?_, fun _ _ => he _⟩
  refine ends_attempt_bind.2 ⟨fun acs hac => ?_, fun _ _ => he _⟩
  obtain ⟨a', ha', hac⟩ := CloudEngine.acs_eq_ok.1 hac
  have ha := CloudEngine.account_eq_ok.1 ha
  obtain rfl : a = a' := some.inj (ha.symm.trans ha')
  exact hok a acs ha hac

/-- How `setTip` ends. -/
theorem ends_setTip {tip : VerifiedTip} (hok : ∀ a, e.persistent.account = some a →
      Q (.ok ()) { e with persistent.account := some { a with tip := some tip } })
    (he : ∀ er, e.persistent.account = none → Q (.error er) e) : Ends (setTip tip) e Q := by
  refine ends_attempt_bind.2 ⟨fun a ha => ?_, fun er h => he er ?_⟩
  · exact hok a (CloudEngine.account_eq_ok.1 ha)
  · cases ha : e.persistent.account with
    | none => rfl
    | some a => simp [CloudEngine.account, ha] at h

/-- Nothing that is synchronized or trusted has changed. -/
structure Unseen (e e' : CloudEngine J) : Prop where
  sync : e'.sync = e.sync
  trust : e'.trust = e.trust

instance Unseen.isRefl : Std.Refl (Unseen (J := J)) := ⟨fun _ => ⟨rfl, rfl⟩⟩

theorem CloudEngine.unseen_updateAcs {acs' : AcsAccountState}
    (ha : e.persistent.account = some acc) (hac : acc.acs = some acs)
    (hu : acs'.baseUrl = acs.baseUrl) :
    Unseen e { e with persistent.account := some { acc with acs := some acs' } } := by
  constructor
  · simp [CloudEngine.sync, CloudPersistentState.sync, ha, CloudAccount.ref, hac, hu]
  · simp [CloudEngine.trust, ha, CloudAccount.ref, hac, hu]

theorem CloudEngine.sync_setTip (tip : VerifiedTip) (ha : e.persistent.account = some acc) :
    CloudEngine.sync { e with persistent.account := some { acc with tip := some tip } } =
      e.sync := by
  simp [CloudEngine.sync, CloudPersistentState.sync, ha, CloudAccount.ref]

theorem CloudEngine.trust_setTip (tip : VerifiedTip) (ha : e.persistent.account = some acc) :
    CloudEngine.trust { e with persistent.account := some { acc with tip := some tip } } =
      { e.trust with tip := some tip } := by
  simp [CloudEngine.trust, ha, CloudAccount.ref]

theorem receiveMessage_unseen {msg : AcsSseEvent} :
    Command.Moves Unseen (receiveMessage msg) e := by
  refine moves_attempt_bind fun acs hac => ?_
  split
  · exact moves_pure
  · refine ends_bind.2 (ends_updateAcs (fun a acs ha hac => ?_) fun _ => ⟨rfl, rfl⟩)
    exact ⟨(e.unseen_updateAcs ha hac rfl).sync, (e.unseen_updateAcs ha hac rfl).trust⟩

/-- Events change nothing that is synchronized or trusted. -/
theorem reportEventStreamEvent_unseen {ev : CloudEventStreamEvent} {now : Int} :
    Command.Moves Unseen (reportEventStreamEvent ev now) e := by
  simp only [reportEventStreamEvent, moves_get_bind]
  split
  · exact moves_pure
  · split <;> first | exact receiveMessage_unseen | exact .mk rfl rfl

theorem setAcsDefaultBaseUrl_unseen {bu : Option String} :
    Command.Moves Unseen (setAcsDefaultBaseUrl env bu) e := by
  unfold setAcsDefaultBaseUrl
  split
  · exact moves_modify.2 ⟨rfl, rfl⟩
  · exact moves_attempt_bind fun _ _ => moves_modify.2 ⟨rfl, rfl⟩

theorem setPendingRemoteFlightPlan_unseen [DecidableEq F] {p : F} :
    Command.Moves Unseen (setPendingRemoteFlightPlan env p) e := by
  simp only [setPendingRemoteFlightPlan, moves_get_bind]
  split <;> exact .mk rfl rfl

theorem beginSetup_unseen {i : CloudOnboardingIntent} : Command.Moves Unseen (beginSetup i) e :=
  moves_get_bind.2 (moves_attempt_bind fun _ _ => moves_modify.2 ⟨rfl, rfl⟩)

theorem openLinkedAccountDetail_unseen {d : LinkedAccountDetail} :
    Command.Moves Unseen (openLinkedAccountDetail d) e :=
  moves_get_bind.2 (moves_attempt_bind fun _ _ => moves_modify.2 ⟨rfl, rfl⟩)

section Edits

variable {key : String} {rec : CloudRecord J} {f : RecordFamily}
  {v : J} {nowEpochMs : I64}

theorem I64.succ_le_succ {a b : I64} (h : a ≤ b) : a.succ ≤ b.succ := by
  have hv : a.val ≤ b.val := h
  change satAddI64 a 1 ≤ satAddI64 b 1
  unfold satAddI64
  omega

/-- A local record, as an edit of what is synchronized. -/
theorem recordLocalCloudRecord_sync :
    (recordLocalCloudRecord key rec e).sync = e.sync.edit key rec := by
  simp [recordLocalCloudRecord, CloudEngine.sync, CloudPersistentState.sync, Sync.edit]

/-- An edit is later than the record that it replaces. -/
theorem CloudEngine.succ_le_nextRecordMutationEpochMs {old : CloudRecord J} (now : I64)
    (h : e.persistent.records.cached[key]? = some old) :
    old.time.succ ≤ e.nextRecordMutationEpochMs key now := by
  refine le_max_of_le_right (I64.succ_le_succ ?_)
  simp only [h, toList_some, singleton_append, filterMap_cons]
  cases hmd : old.modifiedAtEpochMs with
  | none =>
    have hm : old.time = legacyUnknownMutationEpochMs := by simp [CloudRecord.time, hmd]
    rw [hm]
    exact Subtype.property (p := fun n => i64Min ≤ n ∧ n ≤ i64Max) _ |>.1
  | some t =>
    have htm : old.time = t := by simp [CloudRecord.time, hmd]
    rw [htm]
    simp only [max?_cons]
    generalize (List.filterMap (fun x : CloudRecord J => x.modifiedAtEpochMs) _).max? = others
    cases others with
    | none => exact le_rfl
    | some o => exact le_max_left t o

/-- A number of edits. -/
abbrev Edits (env : CloudEnv J F) : Sync J → Sync J → Prop :=
  Relation.ReflTransGen fun s t => ∃ key record, Edited env s key record ∧ t = s.edit key record

theorem CloudRecord.time_of_encode {C : RecordCodec J} {m : I64}
    (h : CloudRecord.encode C f v (some m) = .ok rec) : rec.time = m := by
  simp only [CloudRecord.encode, Except.bind_eq_ok, Except.pure_eq_ok] at h
  obtain ⟨_, _, _, _, rfl⟩ := h
  rfl

theorem edits_of_encode (hk : stripStart key aircraftDefinitionKeyStart = none)
    (h : CloudRecord.encode env.codec.toRecordCodec f v
      (some (e.nextRecordMutationEpochMs key nowEpochMs)) = .ok rec) :
    Edits env e.sync (recordLocalCloudRecord key rec e).sync := by
  refine .single ⟨key, rec, .timed hk fun old hl => ?_, recordLocalCloudRecord_sync⟩
  rw [CloudRecord.time_of_encode h]
  exact CloudEngine.succ_le_nextRecordMutationEpochMs nowEpochMs hl

/-- Records are edited, and nothing else is touched. -/
structure Writes (env : CloudEnv J F) (e e' : CloudEngine J) : Prop where
  edits : Edits env e.sync e'.sync
  trust : e'.trust = e.trust

instance Writes.isRefl : Std.Refl (Writes env) := ⟨fun _ => ⟨.refl, rfl⟩⟩

instance Writes.isTrans : IsTrans (CloudEngine J) (Writes env) :=
  ⟨fun _ _ _ h h' => ⟨h.edits.trans h'.edits, h'.trust.trans h.trust⟩⟩

theorem recordLocalFlightPlanMutation_writes [DecidableEq F] {b a : F} :
    Command.Moves (Writes env) (recordLocalFlightPlanMutation env b a nowEpochMs) e := by
  simp only [recordLocalFlightPlanMutation]
  split
  · exact moves_pure
  · refine moves_get_bind.2 (moves_attempt_bind fun r hen => ?_)
    exact moves_modify_bind ⟨edits_of_encode (by decide) hen, rfl⟩ moves_pure

theorem recordServiceRead_writes {id : String} :
    Command.Moves (Writes env) (recordServiceRead env id) e := by
  refine moves_attempt_bind fun r _ => moves_attempt_bind fun _ _ => ?_
  simp only [moves_get_bind]
  split
  · exact moves_pure
  · next h =>
    have hn : e.persistent.records.cached[serviceReceiptStart ++ id]? = none := by simpa using h
    exact moves_modify_bind
      ⟨.single ⟨_, r, .receipt hn, recordLocalCloudRecord_sync⟩, rfl⟩ moves_pure

variable [DecidableEq J]

theorem recordLocalMutable_writes (hk : stripStart key aircraftDefinitionKeyStart = none) :
    Command.Moves (Writes env) (recordLocalMutable env f key v nowEpochMs) e := by
  have he : Command.Moves (Writes env) (existingRecord env f key) e := by
    simp only [existingRecord, moves_get_bind]
    split
    · exact moves_pure
    · exact moves_attempt_bind fun _ _ => moves_pure
  refine he.bind fun ex e' => ?_
  split
  · exact moves_pure
  · refine moves_get_bind.2 (moves_attempt_bind fun r hen => ?_)
    exact moves_modify_bind ⟨edits_of_encode hk hen, rfl⟩ moves_pure

theorem recordPackageSelections_writes {es : List (String × J)}
    (hks : ∀ en ∈ es, stripStart en.1 aircraftDefinitionKeyStart = none) {c : Bool} :
    Command.Moves (Writes env) (recordPackageSelections env nowEpochMs es c) e := by
  induction es generalizing e c with
  | nil => exact moves_pure
  | cons en es ih =>
    refine (recordLocalMutable_writes (hks _ mem_cons_self)).bind fun rc e' => ?_
    exact ih fun en he => hks en (mem_cons_of_mem _ he)

theorem recordLocalAircraftDefinition_writes {d : J} :
    Command.Moves (Writes env) (recordLocalAircraftDefinition env d) e := by
  refine moves_attempt_bind fun _ _ => moves_attempt_bind fun _ _ => ?_
  refine moves_attempt_bind fun r hen => ?_
  simp only [moves_get_bind]
  split
  · exact moves_pure
  · exact moves_modify_bind
      ⟨.single ⟨_, r, .definition hen, recordLocalCloudRecord_sync⟩, rfl⟩ moves_pure

/-- Every kind of local edit. -/
theorem recordLocalEdit_writes [DecidableEq F] {ed : LocalEdit J F} :
    Command.Moves (Writes env) (recordLocalEdit env ed nowEpochMs) e := by
  cases ed with
  | flightPlan b a => exact recordLocalFlightPlanMutation_writes
  | offlinePackagePreferences rs prs =>
    refine recordPackageSelections_writes fun en he => ?_
    obtain ⟨en, -, rfl⟩ | ⟨en, -, rfl⟩ := (mem_append.1 he).imp List.mem_map.1 List.mem_map.1
    · exact stripStart_append rfl
    · exact stripStart_append rfl
  | inactivitySleepTimeout t => exact recordLocalMutable_writes (by decide)
  | nexradAcquisition ps => exact recordLocalMutable_writes (by decide)
  | debugFlag fi ena => exact recordLocalMutable_writes (stripStart_append rfl)
  | aircraftDefinition df => exact recordLocalAircraftDefinition_writes
  | aircraftLibraryMembership dh m =>
    refine moves_attempt_bind fun _ _ => recordLocalMutable_writes ?_
    exact stripStart_append rfl
  | serviceRead id => exact recordServiceRead_writes

end Edits

section Actions

variable {input : Input} {cause : Trust.Cause}

/-- The engine takes a step of the protocol, when its records are in order, and one of the trust. -/
structure Moved (env : CloudEnv J F) (input : Input) (cause : Trust.Cause) (e e' : CloudEngine J) :
    Prop where
  sync : env.Lawful → Current env e.sync → Step env input e.sync e'.sync
  trust : Trust.Step env cause e.trust e'.trust

instance Moved.isRefl : Std.Refl (Moved env input cause) := ⟨fun _ => ⟨fun _ _ => .quiet, .quiet⟩⟩

theorem Unseen.moved (h : Unseen e e') : Moved env input cause e e' :=
  ⟨fun _ _ => h.sync ▸ .quiet, .of_eq h.trust⟩

theorem backSetup_moved : Command.Moves (Moved env input cause) backSetup e := by
  refine moves_get_bind.2 (moves_attempt_bind fun _ _ => moves_attempt_bind fun _ _ => ?_)
  exact moves_modify.2 ⟨fun _ _ => .unlink (.inr rfl) (.inr rfl), .unlink (.inr rfl) (.inr rfl)⟩

theorem confirmUnlinkDevice_moved : Command.Moves (Moved env input cause) confirmUnlinkDevice e := by
  refine moves_get_bind.2 (moves_attempt_bind fun _ _ => moves_attempt_bind fun _ _ => ?_)
  exact moves_modify.2 ⟨fun _ _ => .unlink (.inl rfl) (.inl rfl), .unlink (.inl rfl) (.inl rfl)⟩

theorem CloudEngine.of_requireUnlinkedAndIdle (h : e.requireUnlinkedAndIdle = .ok ()) :
    e.persistent.account = none ∧ e.persistent.workflow = none := by
  simpa [CloudEngine.requireUnlinkedAndIdle] using h

theorem CloudEngine.unlinked_iff : (e.sync.account = none ↔ e.persistent.account = none) ∧
      (e.trust.account = none ↔ e.persistent.account = none) :=
  ⟨map_eq_none_iff, map_eq_none_iff⟩

variable {sec : Bytes} {now : I64} {cp : F}

/-- An account is created only on a device that has none and is idle. -/
theorem createAccount_moved [DecidableEq F] :
    Command.Moves (Moved env input cause) (createAccount env cp sec now) e := by
  refine moves_attempt_bind fun _ hid => ?_
  obtain ⟨ha, hw⟩ := CloudEngine.of_requireUnlinkedAndIdle hid
  have hsy := CloudEngine.unlinked_iff.1.2 ha
  have htr := CloudEngine.unlinked_iff.2.2 ha
  refine moves_attempt_bind fun _ _ => ?_
  cases e.acsDefaultBaseUrl with
  | none => exact Std.Refl.refl e
  | some bu =>
    refine moves_attempt_bind fun i _ => ?_
    simp only [Command.Moves, ends_modify_bind, ends_get_bind]
    refine ends_attempt_bind.2 ⟨fun r _ => ?_, fun _ _ => ?_⟩
    · exact ⟨fun _ _ => .create hsy, .link htr trivial⟩
    · -- The account has been set when the plan's record could not be made.
      have hw' : CloudWorkflow.Idle e.persistent.workflow := by
        rw [hw]
        trivial
      exact ⟨fun _ _ => .link hsy (.inr rfl) hw', .link htr hw'⟩

theorem acceptDeviceSetupCode_moved {sc : String} :
    Command.Moves (Moved env input cause) (acceptDeviceSetupCode env sc) e := by
  refine moves_attempt_bind fun _ _ => moves_attempt_bind fun _ ha => ?_
  have hn : e.persistent.account = none := by simpa using ha
  refine moves_attempt_bind fun pl _ => moves_attempt_bind fun bu _ => ?_
  refine moves_attempt_bind fun i _ => moves_attempt_bind fun _ _ => moves_modify.2 ?_
  exact ⟨fun _ _ => .link (CloudEngine.unlinked_iff.1.2 hn) (.inl rfl) trivial,
    .link (CloudEngine.unlinked_iff.2.2 hn) trivial⟩

/-- The upgrade that the user confirms is the one that was shown. -/
theorem confirmAccountUpgrade_moved (hin : input.consents)
    (hcn : ∀ ver, e.linkedAccountDetail = some (.confirmUpgrade ver) → cause.consents ver) :
    Command.Moves (Moved env input cause) (confirmAccountUpgrade env) e := by
  refine moves_attempt_bind fun src hsr => moves_attempt_bind fun _ hd => moves_modify.2 ?_
  refine ⟨fun _ _ => .consent hin, ?_⟩
  rw [Except.rejectIf_eq_ok, not_not] at hd
  unfold CloudEngine.upgradeableAccountFormat at hsr
  split at hsr
  · simp at hsr
  · next ver hv =>
    simp only [Except.bind_eq_ok, Except.pure_eq_ok] at hsr
    obtain ⟨_, _, rfl⟩ := hsr
    obtain ⟨ho, hu⟩ := filter_eq_some_iff.1 hv
    obtain ⟨r, hrt, hrt'⟩ := map_eq_some_iff.1 ho
    exact .consent (hcn _ hd) hrt hrt' hu

/-- Every action of the user. -/
theorem performAction_moved [DecidableEq F] {a : CloudAction}
    (hin : a = .confirmAccountUpgrade → input.consents) (hcn : a = .confirmAccountUpgrade → ∀ ver,
      e.linkedAccountDetail = some (.confirmUpgrade ver) → cause.consents ver) :
    Command.Moves (Moved env input cause) (performAction env a cp sec now) e := by
  cases a with
  | beginSetupFromDevice | beginCreateAccount => exact beginSetup_unseen.imp fun _ _ => Unseen.moved
  | backSetup => exact backSetup_moved
  | createAccount => exact createAccount_moved
  | acceptDeviceSetupCode sc => exact acceptDeviceSetupCode_moved
  | backUpDeviceSetupCode | addAnotherDevice | beginUnlinkDevice =>
    exact openLinkedAccountDetail_unseen.imp fun _ _ => Unseen.moved
  | closeLinkedAccountDetail | syncNow => exact moves_modify.2 ⟨fun _ _ => .quiet, .quiet⟩
  | confirmUnlinkDevice => exact confirmUnlinkDevice_moved
  | beginAccountUpgrade =>
    refine moves_get_bind.2 (moves_attempt_bind fun _ _ => moves_modify.2 ?_)
    exact ⟨fun _ _ => .quiet, .quiet⟩
  | confirmAccountUpgrade => exact confirmAccountUpgrade_moved (hin rfl) (hcn rfl)

end Actions

end Aerobag.Client
