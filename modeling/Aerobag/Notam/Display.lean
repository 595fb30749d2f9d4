import Aerobag.Lib.Inverted
import Aerobag.Notam.Procedure
import Aerobag.Notam.State

/-!
# Displayed NOTAMs (`app-core/src/map_overlay.rs`, `app-core/src/session.rs`)

A worker sends to the session what can be displayed of the canonical state: the projection of a
state, then for each delta that of the changes. The session keeps the records with three lookup
indexes.
-/

namespace Aerobag.Notam

instance : Std.LawfulEqOrd NotamSubjectKey where
  eq_of_compare {a b} h := by
    change compareLex (compareOn NotamSubjectKey.index) (compareOn NotamSubjectKey.ident) a b = .eq
      at h
    simp only [compareLex_eq_eq, compareOn, Std.LawfulEqCmp.compare_eq_iff_eq] at h
    cases a <;> cases b <;> simp_all [NotamSubjectKey.index, NotamSubjectKey.ident]

/-- The members of a record that the canonical state only encodes. -/
structure NotamDetails where
  procedureRendezvousKeys : Std.ExtTreeSet ProcedureRendezvousKey
  notamKeyword : Option String
  effectiveStartUtc : Option String
  effectiveEndUtc : Option String
  text : Option String
  localText : Option String
  icaoText : Option String

/-- It has the members of the published key, in order. -/
abbrev NotamDisplayProcedureKey := ProcedureRendezvousKey

structure NotamDisplayRecord where
  id : String
  subjects : Std.ExtTreeSet NotamSubjectKey
  airportId : Option String
  airportAliases : Std.ExtTreeSet String
  procedureRendezvousKeys : Std.ExtTreeSet NotamDisplayProcedureKey
  label : String
  text : String
  priority : Nat

structure NotamDisplayCheckpoint where
  schemaVersion : Nat
  stateId : String
  records : List NotamDisplayRecord

inductive NotamDisplayMutation where
  | upsert (record : NotamDisplayRecord)
  | remove (notamId : String)

def NotamDisplayMutation.notamId : NotamDisplayMutation → String
  | upsert record => record.id
  | remove notamId => notamId

structure NotamDisplayDelta where
  schemaVersion : Nat
  fromStateId : String
  toStateId : String
  mutations : List NotamDisplayMutation

def notamDisplayProjectionSchemaVersion : Nat := 5

namespace NotamRecord

def hasDisplayAnchor (self : NotamRecord NotamDetails) : Bool :=
  self.airportId.any (fun value => !(Text.trim value).isEmpty) ||
    !self.rest.procedureRendezvousKeys.isEmpty || !self.subjects.isEmpty

def displayText (self : NotamRecord NotamDetails) : Option String :=
  ((self.rest.text.or (self.rest.localText.or self.rest.icaoText)).map Text.trim).filter
    fun value => !value.isEmpty

def isDisplayable (self : NotamRecord NotamDetails) : Bool :=
  self.hasDisplayAnchor && self.displayText.isSome

def displayAirportId (self : NotamRecord NotamDetails) : Option String :=
  ((self.airportId.map Text.trim).filter fun value => !value.isEmpty).map Text.toAsciiUppercase

end NotamRecord

def AirportNotamEffect.priority : AirportNotamEffect → Nat
  | airportClosed => 0
  | runwayClosed => 1
  | airTrafficServiceUnavailable => 2
  | procedureUnavailable => 3
  | runwayRestricted => 4
  | runwayEquipmentUnavailable => 5
  | navigationAidUnavailable => 6
  | communicationUnavailable => 7
  | airportServiceUnavailable => 8
  | taxiwayClosed => 9
  | apronClosed => 10
  | procedureRestricted => 11
  | movementAreaEquipmentUnavailable => 12
  | surfaceCondition => 13
  | workInProgress => 14
  | routineAdvisory => 15
  | obstruction => 16
  | other => 17

def airportNotamPriority (effects : Finset AirportNotamEffect) : Nat :=
  ((List.range 18).find? fun n => decide (∃ effect ∈ effects, effect.priority = n)).getD 17

def projectNotamDisplayRecord (record : NotamRecord NotamDetails) : Option NotamDisplayRecord :=
  if record.isDisplayable then
    some {
      id := record.id
      subjects := record.subjects
      airportId := record.displayAirportId
      airportAliases := record.airportAliases
      procedureRendezvousKeys := record.rest.procedureRendezvousKeys
      label := Text.toAsciiUppercase (Text.trim (record.rest.notamKeyword.getD "NOTAM"))
      -- `expect` on the text, which a displayable record has
      text := record.displayText.getD ""
      priority := airportNotamPriority record.airportEffects }
  else none

def notamDisplayCheckpoint (state : NotamState NotamDetails) : NotamDisplayCheckpoint :=
  ⟨notamDisplayProjectionSchemaVersion, state.stateId,
    state.records.toList.filterMap fun member => projectNotamDisplayRecord member.2⟩

def removeDisplayed (state : NotamState NotamDetails) (notamId : String) :
    Option NotamDisplayMutation :=
  (state.records[notamId]?.bind projectNotamDisplayRecord).map fun _ => .remove notamId

def projectNotamMutation (state : NotamState NotamDetails) :
    NotamMutation NotamDetails → Option NotamDisplayMutation
  | .upsert record =>
    ((projectNotamDisplayRecord record).map .upsert).or (removeDisplayed state record.id)
  | .remove notamId => removeDisplayed state notamId

variable (env : NotamEnv NotamDetails)

def notamDisplayDelta (state : NotamState NotamDetails) (delta : NotamDelta NotamDetails) :
    Except NotamStateError NotamDisplayDelta := do
  validateContract delta.schemaVersion delta.product delta.contractVersion
  .rejectIf (state.stateId ≠ delta.fromStateId)
    (.baseStateMismatch delta.fromStateId state.stateId)
  validateMutationOrder env delta.mutations
  return ⟨notamDisplayProjectionSchemaVersion, delta.fromStateId, delta.toStateId,
    delta.mutations.filterMap (projectNotamMutation state)⟩

def validateNotamDisplayProjectionSchema (schemaVersion : Nat) : Except NotamStateError Unit :=
  .rejectIf (schemaVersion ≠ notamDisplayProjectionSchemaVersion) (.contract
    ("unsupported NOTAM display projection schema " ++ toString schemaVersion ++ "; expected " ++
      toString notamDisplayProjectionSchemaVersion))

def validateProjectionRecord (record : NotamDisplayRecord) : Except NotamStateError Unit := do
  validateAirportAliases env record.airportId record.airportAliases
  .rejectIf (record.id.isEmpty ∨ Text.trim record.id ≠ record.id)
    (.invalidRecord ("invalid projected NOTAM ID " ++ env.debug record.id))
  record.airportId.toList.forM fun airportId =>
    .rejectIf (airportId.isEmpty ∨ Text.trim airportId ≠ airportId ∨
        airportId ≠ Text.toAsciiUppercase airportId)
      (.invalidRecord ("invalid projected NOTAM airport " ++ env.debug airportId))
  .rejectIf (record.airportId = none ∧ record.procedureRendezvousKeys.isEmpty ∧
      record.subjects.isEmpty)
    (.invalidRecord ("projected NOTAM " ++ record.id ++ " has no lookup identity"))
  record.procedureRendezvousKeys.toList.forM fun key =>
    (key.validate env.debug).mapError .invalidRecord
  record.subjects.toList.forM fun subject => (subject.validate env).mapError .invalidRecord
  .rejectIf (Text.trim record.text).isEmpty
    (.invalidRecord ("projected NOTAM " ++ record.id ++ " has no display text"))

/-- The loop of the two checks of an order, after an identifier `previous`. -/
def validateProjectionOrder {α : Type} (check : α → Except NotamStateError Unit) (id : α → String)
    (message : String) : Option String → List α → Except NotamStateError Unit
  | _, [] => .ok ()
  | previous, x :: rest => do
    check x
    .rejectIf (previous.any fun before => decide (¬ before < id x))
      (.invalidOrdering (message ++ id x))
    validateProjectionOrder check id message (some (id x)) rest

def validateProjectionRecordOrder : List NotamDisplayRecord → Except NotamStateError Unit :=
  validateProjectionOrder (validateProjectionRecord env) (·.id)
    "projected NOTAM records are not strictly ordered near " none

/-- The record of an upsert is checked before the identifier. -/
def NotamDisplayMutation.validate (self : NotamDisplayMutation) : Except NotamStateError Unit := do
  match self with
  | upsert record => validateProjectionRecord env record
  | remove _ => .ok ()
  .rejectIf (self.notamId.isEmpty ∨ Text.trim self.notamId ≠ self.notamId)
    (.invalidRecord ("invalid projected NOTAM mutation ID " ++ env.debug self.notamId))

def validateProjectionMutationOrder : List NotamDisplayMutation → Except NotamStateError Unit :=
  validateProjectionOrder (NotamDisplayMutation.validate env) (·.notamId)
    "projected NOTAM mutations are not strictly ordered near " none

abbrev DisplayLookup (K : Type) [Ord K] := Std.ExtTreeMap K (List String)

section Lookup

variable {K : Type} [Ord K] [Std.TransOrd K]

def insertProjectedNotamId (notamId : String) (key : K) :
    EStateM NotamStateError (DisplayLookup K) Unit := do
  -- `entry(..).or_default()` creates the vector before it is searched.
  modify fun index => index.insert key (index.getD key [])
  let ids := (← get).getD key []
  match binarySearch ids notamId with
  | .ok _ => throw (.invariant ("NOTAM " ++ notamId ++ " is already indexed"))
  | .error position => modify fun index => index.insert key (ids.insertIdx position notamId)

def removeProjectedNotamId (debug : K → String) (notamId : String) (key : K) :
    EStateM NotamStateError (DisplayLookup K) Unit := do
  match (← get)[key]? with
  | none =>
    throw (.invariant ("NOTAM " ++ notamId ++ " is missing display index " ++ debug key))
  | some ids =>
    match binarySearch ids notamId with
    | .error _ =>
      throw (.invariant ("NOTAM " ++ notamId ++ " is missing from display index " ++ debug key))
    | .ok position =>
      let ids := ids.eraseIdx position
      modify fun index => if ids.isEmpty then index.erase key else index.insert key ids

end Lookup

structure NotamDisplayIndex where
  versionLabel : String
  records : Std.ExtTreeMap String NotamDisplayRecord
  byAirport : DisplayLookup String
  bySubject : DisplayLookup NotamSubjectKey
  byProcedure : DisplayLookup NotamDisplayProcedureKey

structure KeyDebug where
  subject : NotamSubjectKey → String
  procedure : NotamDisplayProcedureKey → String

variable (debug : KeyDebug)

abbrev DisplayM := EStateM NotamStateError NotamDisplayIndex

namespace NotamDisplayRecord

def airportKeys (self : NotamDisplayRecord) : List String :=
  self.airportId.toList ++ self.airportAliases.toList

end NotamDisplayRecord

namespace NotamDisplayIndex

def onAirports : EStateM NotamStateError (DisplayLookup String) Unit → DisplayM Unit :=
  Command.zoom (·.byAirport) fun index self => { self with byAirport := index }

def onSubjects : EStateM NotamStateError (DisplayLookup NotamSubjectKey) Unit → DisplayM Unit :=
  Command.zoom (·.bySubject) fun index self => { self with bySubject := index }

def onProcedures :
    EStateM NotamStateError (DisplayLookup NotamDisplayProcedureKey) Unit → DisplayM Unit :=
  Command.zoom (·.byProcedure) fun index self => { self with byProcedure := index }

def remove (notamId : String) : DisplayM Unit := do
  let old := (← get).records[notamId]?
  modify fun self => { self with records := self.records.erase notamId }
  match old with
  | none => return
  | some record =>
    onAirports (record.airportKeys.forM (removeProjectedNotamId env.debug notamId))
    onProcedures (record.procedureRendezvousKeys.toList.forM
      (removeProjectedNotamId debug.procedure notamId))
    onSubjects (record.subjects.toList.forM (removeProjectedNotamId debug.subject notamId))

def upsert (record : NotamDisplayRecord) : DisplayM Unit := do
  Command.attempt (validateProjectionRecord env record)
  remove env debug record.id
  onAirports (record.airportKeys.forM (insertProjectedNotamId record.id))
  onProcedures (record.procedureRendezvousKeys.toList.forM (insertProjectedNotamId record.id))
  onSubjects (record.subjects.toList.forM (insertProjectedNotamId record.id))
  modify fun self => { self with records := self.records.insert record.id record }

def empty (versionLabel : String) : NotamDisplayIndex := ⟨versionLabel, ∅, ∅, ∅, ∅⟩

def fromProjectionCheckpoint (checkpoint : NotamDisplayCheckpoint) :
    Except NotamStateError NotamDisplayIndex := do
  validateNotamDisplayProjectionSchema checkpoint.schemaVersion
  validateProjectionRecordOrder env checkpoint.records
  match (checkpoint.records.forM (upsert env debug)).run (.empty checkpoint.stateId) with
  | .ok _ index => .ok index
  | .error error _ => .error error

def applyProjectionMutation : NotamDisplayMutation → DisplayM Unit
  | .upsert record => upsert env debug record
  | .remove notamId => remove env debug notamId

def applyProjectionDelta (delta : NotamDisplayDelta) : DisplayM Unit := do
  Command.attempt (validateNotamDisplayProjectionSchema delta.schemaVersion)
  let self ← get
  Command.attempt (.rejectIf (self.versionLabel ≠ delta.fromStateId)
    (.baseStateMismatch delta.fromStateId self.versionLabel))
  Command.attempt (validateProjectionMutationOrder env delta.mutations)
  delta.mutations.forM (applyProjectionMutation env debug)
  modify fun self => { self with versionLabel := delta.toStateId }

end NotamDisplayIndex

inductive PreparedNotamPayload where
  | installDisplayCheckpoint (checkpoint : NotamDisplayCheckpoint)
  | applyDisplayDelta (delta : NotamDisplayDelta)

inductive PreparedSessionNotamPayload where
  | ready (payload : PreparedNotamPayload)
  | notamCheckpoint (index : NotamDisplayIndex)

inductive NotamCommitError where
  | invalidManifest (message : String)
  | internal (message : String)
  deriving DecidableEq, Repr

variable (counters : NotamCounters → String)

def NotamStateError.text : NotamStateError → String
  | contract message | encoding message | invalidRecord message | invalidOrdering message
  | invariant message => message
  | baseStateMismatch expected actual =>
    "NOTAM delta starts at " ++ expected ++ ", but local state is " ++ actual
  | targetStateMismatch expected actual =>
    "NOTAM target state mismatch: expected " ++ expected ++ ", computed " ++ actual
  | counterMismatch expected actual =>
    "NOTAM counter mismatch: expected " ++ counters expected ++ ", computed " ++ counters actual

/-- The errors after which the index of the session is kept. -/
def NotamStateError.preserves : NotamStateError → Bool
  | contract _ | invalidOrdering _ | baseStateMismatch _ _ => true
  | _ => false

def commitPreparedLiveFeed :
    PreparedSessionNotamPayload → EStateM NotamCommitError (Option NotamDisplayIndex) Unit
  | .notamCheckpoint index => set (some index)
  | .ready (.installDisplayCheckpoint _) =>
    throw (.internal "prepared NOTAM checkpoint reached the session commit boundary")
  | .ready (.applyDisplayDelta delta) => fun held =>
    match held with
    | none => .error (.invalidManifest "cannot apply NOTAM delta without installed state") none
    | some index =>
      match (NotamDisplayIndex.applyProjectionDelta env debug delta).run index with
      | .ok _ index' => .ok () (some index')
      | .error error index' => .error
          (.invalidManifest ("failed to apply NOTAM delta: " ++ error.text counters))
          (if error.preserves then some index' else none)

end Aerobag.Notam
