import Aerobag.Lib.Command
import Aerobag.Lib.Except
import Aerobag.Lib.Text
import Mathlib.Data.Finset.Card

/-!
# NOTAM records (`notam-state/src/lib.rs`)

A record, the checks it has to pass before it becomes part of a state, its canonical bytes, and what
it contributes to the counters of a state.
-/

namespace Aerobag.Notam

/-- `NotamSubjectKey` of `product-contracts/src/notam_subject.rs`. -/
inductive NotamSubjectKey where
  | navaid (id : String)
  | airway (id : String)
  deriving DecidableEq, Repr

namespace NotamSubjectKey

def ident : NotamSubjectKey → String
  | navaid id | airway id => id

def kind : NotamSubjectKey → String
  | navaid _ => "navaid"
  | airway _ => "airway"

/-- The place of the variant, by which keys are ordered first. -/
def index : NotamSubjectKey → Nat
  | navaid _ => 0
  | airway _ => 1

instance : Ord NotamSubjectKey := ⟨compareLex (compareOn index) (compareOn ident)⟩

instance : Std.TransOrd NotamSubjectKey :=
  inferInstanceAs (Std.TransCmp (compareLex (compareOn index) (compareOn ident)))

end NotamSubjectKey

inductive AirportNotamEffect where
  | airportClosed
  | runwayClosed
  | airTrafficServiceUnavailable
  | procedureUnavailable
  | runwayRestricted
  | runwayEquipmentUnavailable
  | navigationAidUnavailable
  | communicationUnavailable
  | airportServiceUnavailable
  | taxiwayClosed
  | apronClosed
  | procedureRestricted
  | movementAreaEquipmentUnavailable
  | surfaceCondition
  | workInProgress
  | routineAdvisory
  | obstruction
  | other
  deriving DecidableEq, Repr

/-- A NOTAM. `rest` is what only the JSON encoder reads. -/
structure NotamRecord (R : Type) where
  id : String
  subjects : Std.ExtTreeSet NotamSubjectKey
  airportId : Option String
  airportAliases : Std.ExtTreeSet String
  airportEffects : Finset AirportNotamEffect
  rest : R

structure NotamCounters where
  notamCount : Nat
  airportNotamCount : Nat
  airportNotamsWithMultipleEffects : Nat
  airportNotamsWithOtherEffect : Nat
  deriving DecidableEq, Repr

inductive NotamStateError where
  | contract (message : String)
  | encoding (message : String)
  | invalidRecord (message : String)
  | invalidOrdering (message : String)
  | baseStateMismatch (expected actual : String)
  | targetStateMismatch (expected actual : String)
  | counterMismatch (expected actual : NotamCounters)
  | invariant (message : String)
  deriving DecidableEq, Repr

/-- SHA-256, `serde_json::to_vec` of a record, and `Debug` of a string. -/
structure NotamEnv (R : Type) where
  sha256 : Bytes → Bytes
  encode : NotamRecord R → Except String Bytes
  debug : String → String

variable {R : Type} (env : NotamEnv R)

/-- `u8::is_ascii_uppercase` or `u8::is_ascii_digit`. -/
def isUpperOrDigit (b : UInt8) : Bool := (65 ≤ b && b ≤ 90) || (48 ≤ b && b ≤ 57)

namespace NotamSubjectKey

def valid (self : NotamSubjectKey) : Bool :=
  let id := strBytes self.ident
  match self with
  | navaid _ => 1 ≤ id.length && id.length ≤ 5 && id.all isUpperOrDigit
  | airway _ =>
    2 ≤ id.length && id.length ≤ 5 && (strBytes "VJTQABGR").contains (id.getD 0 0) &&
      id.tail.all (fun b => 48 ≤ b && b ≤ 57) && id.getD 1 0 != 48

def validate (self : NotamSubjectKey) : Except String Unit :=
  .rejectIf (¬ self.valid) ("invalid NOTAM " ++ self.kind ++ " subject " ++ env.debug self.ident)

end NotamSubjectKey

def validateNotamId (id : String) : Except NotamStateError Unit :=
  .rejectIf (id.isEmpty ∨ Text.trim id ≠ id) (.invalidRecord ("invalid NOTAM ID " ++ env.debug id))

def debugOption : Option String → String
  | none => "None"
  | some text => "Some(" ++ env.debug text ++ ")"

/-- Whether an alias is refused beside the airport identifier. -/
def badAlias (airportId : Option String) (aliasId : String) : Bool :=
  airportId.isNone || some aliasId == airportId || aliasId.isEmpty ||
    !(strBytes aliasId).all isUpperOrDigit

def validateAirportAliases (airportId : Option String) (aliases : Std.ExtTreeSet String) :
    Except NotamStateError Unit :=
  aliases.toList.forM fun aliasId =>
    .rejectIf (badAlias airportId aliasId) (.invalidRecord ("invalid NOTAM airport alias " ++
      env.debug aliasId ++ " for " ++ debugOption env airportId))

def canonicalRecordBytes (record : NotamRecord R) : Except NotamStateError Bytes := do
  validateNotamId env record.id
  validateAirportAliases env record.airportId record.airportAliases
  record.subjects.toList.forM fun subject =>
    (subject.validate env).mapError .invalidRecord
  (env.encode record).mapError fun error =>
    .encoding ("failed to encode canonical NOTAM " ++ record.id ++ ": " ++ error)

def normalizeAirportId (value : String) : String := Text.toAsciiUppercase (Text.trim value)

namespace NotamRecord

def airportIds (self : NotamRecord R) : List String :=
  self.airportId.toList ++ self.airportAliases.toList

def airportKeys (self : NotamRecord R) : List String :=
  (self.airportIds.map normalizeAirportId).filter fun key => !key.isEmpty

end NotamRecord

namespace NotamCounters

instance : Zero NotamCounters := ⟨⟨0, 0, 0, 0⟩⟩

instance : Add NotamCounters :=
  ⟨fun a b => ⟨a.notamCount + b.notamCount, a.airportNotamCount + b.airportNotamCount,
    a.airportNotamsWithMultipleEffects + b.airportNotamsWithMultipleEffects,
    a.airportNotamsWithOtherEffect + b.airportNotamsWithOtherEffect⟩⟩

end NotamCounters

def recordCounterContribution (record : NotamRecord R) : NotamCounters :=
  let airport := (record.airportId.map normalizeAirportId).any fun value => !value.isEmpty
  { notamCount := 1
    airportNotamCount := airport.toNat
    airportNotamsWithMultipleEffects := (airport && 1 < record.airportEffects.card).toNat
    airportNotamsWithOtherEffect := (airport && decide (.other ∈ record.airportEffects)).toNat }

/-- Counters of records in memory do not overflow. -/
def addRecordCounters (counters : NotamCounters) (record : NotamRecord R) : NotamCounters :=
  counters + recordCounterContribution record

/-- `checked_sub` on one counter, given by its getter and setter. -/
def checkedSub (get : NotamCounters → Nat) (set : Nat → NotamCounters → NotamCounters)
    (amount : Nat) (message : String) : EStateM NotamStateError NotamCounters Unit := do
  let value := get (← MonadState.get)
  Command.attempt (.rejectIf (value < amount) (.invariant message))
  modify (set (value - amount))

/-- The counters before the one that underflows stay changed. -/
def subtractRecordCounters (record : NotamRecord R) :
    EStateM NotamStateError NotamCounters Unit := do
  let contribution := recordCounterContribution record
  checkedSub (·.notamCount) (fun n c => { c with notamCount := n }) contribution.notamCount
    "NOTAM count underflow"
  checkedSub (·.airportNotamCount) (fun n c => { c with airportNotamCount := n })
    contribution.airportNotamCount "airport NOTAM count underflow"
  checkedSub (·.airportNotamsWithMultipleEffects)
    (fun n c => { c with airportNotamsWithMultipleEffects := n })
    contribution.airportNotamsWithMultipleEffects "multiple-effect NOTAM count underflow"
  checkedSub (·.airportNotamsWithOtherEffect)
    (fun n c => { c with airportNotamsWithOtherEffect := n })
    contribution.airportNotamsWithOtherEffect "other-effect NOTAM count underflow"

end Aerobag.Notam
