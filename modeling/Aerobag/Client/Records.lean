import Aerobag.Contract

/-!
# Synchronized records (`app-core/src/cloud/records.rs`)

Records under string keys. A registry of the known families decides how a record is encoded and
validated; other records are carried along. What `serde_json` does with values is `RecordCodec`.
-/

namespace Aerobag.Client

/-- Results of the client's functions; an error is its message. -/
abbrev AppResult := Except String

def i64Min : Int := -2 ^ 63

def i64Max : Int := 2 ^ 63 - 1

def satAddI64 (a b : Int) : Int := max i64Min (min (a + b) i64Max)

theorem satAddI64_bounds (a b : Int) : i64Min ≤ satAddI64 a b ∧ satAddI64 a b ≤ i64Max := by
  have hm : i64Min = -2 ^ 63 := rfl
  have hmx : i64Max = 2 ^ 63 - 1 := rfl
  unfold satAddI64
  omega

/-- The type `i64`, where the bounds matter. -/
abbrev I64 := { n : Int // i64Min ≤ n ∧ n ≤ i64Max }

def I64.succ (n : I64) : I64 := ⟨satAddI64 n 1, satAddI64_bounds n 1⟩

def legacyUnknownMutationEpochMs : I64 := ⟨i64Min, by decide⟩

structure CloudRecord (J : Type) where
  schemaVersion : Nat
  modifiedAtEpochMs : Option I64
  value : J
  deriving DecidableEq

/-- The time of a record, the earliest one if it has none. -/
def CloudRecord.time {J : Type} (record : CloudRecord J) : I64 :=
  record.modifiedAtEpochMs.getD legacyUnknownMutationEpochMs

abbrev RecordMap (J : Type) := Std.ExtTreeMap String (CloudRecord J)

instance RecordMap.decidableEq {J : Type} [DecidableEq J] : DecidableEq (RecordMap J) :=
  inferInstanceAs (DecidableEq (Std.ExtTreeMap String (CloudRecord J)))

abbrev KeySet := Std.ExtTreeSet String

inductive KeyPattern where
  | is (key : String)
  | under (start : String)
  | underAny (starts : List String)
  deriving DecidableEq, Repr

def startsWith (key start : String) : Bool := start.toList.isPrefixOf key.toList

def stripStart (key start : String) : Option String :=
  if startsWith key start then some (String.ofList (key.toList.drop start.length)) else none

namespace KeyPattern

def matchesKey : KeyPattern → String → Bool
  | is exactKey, key => exactKey = key
  | under start, key => startsWith key start
  | underAny starts, key => starts.any (startsWith key)

/-- The `Debug` text of a pattern, which error messages contain. -/
def debugText : KeyPattern → String
  | is key => "Exact(\"" ++ key ++ "\")"
  | under start => "Prefix(\"" ++ start ++ "\")"
  | underAny starts =>
    "Prefixes([" ++ ", ".intercalate (starts.map fun start => "\"" ++ start ++ "\"") ++ "])"

end KeyPattern

def flightPlanRecordKey : String := "flight_plan/current"
def offlinePackageRegionRecordStart : String := "offline_packages/region/"
def offlinePackageProductRecordStart : String := "offline_packages/product/"
def inactivitySleepTimeoutRecordKey : String := "settings/inactivity_sleep_timeout"
def nexradAcquisitionRecordKey : String := "settings/nexrad_acquisition"
def debugFlagRecordStart : String := "settings/debug/"
def aircraftDefinitionKeyStart : String := "aircraft/definition/"
def aircraftLibraryRecordStart : String := "aircraft/library/"
def serviceReceiptStart : String := "service/read/"

/-- The record families of `record_specs!`, in their order. -/
inductive RecordFamily where
  | flightPlan
  | packageSelection
  | sleep
  | nexrad
  | debug
  | aircraft
  | aircraftMembership
  | serviceReceipt
  deriving DecidableEq, Repr

namespace RecordFamily

def all : List RecordFamily :=
  [flightPlan, packageSelection, sleep, nexrad, debug, aircraft, aircraftMembership, serviceReceipt]

def key : RecordFamily → KeyPattern
  | flightPlan => .is flightPlanRecordKey
  | packageSelection =>
    .underAny [offlinePackageRegionRecordStart, offlinePackageProductRecordStart]
  | sleep => .is inactivitySleepTimeoutRecordKey
  | nexrad => .is nexradAcquisitionRecordKey
  | debug => .under debugFlagRecordStart
  | aircraft => .under aircraftDefinitionKeyStart
  | aircraftMembership => .under aircraftLibraryRecordStart
  | serviceReceipt => .under serviceReceiptStart

def version : RecordFamily → Nat
  | flightPlan => 4
  | aircraft => 3
  | aircraftMembership => 2
  | packageSelection | sleep | nexrad | debug | serviceReceipt => 1

/-- `MUTABLE`: whether records of the family carry the time of the user's change. -/
def isMutable : RecordFamily → Bool
  | aircraft | serviceReceipt => false
  | flightPlan | packageSelection | sleep | nexrad | debug | aircraftMembership => true

end RecordFamily

/-- What `serde_json` and the families' wire types do with JSON values. -/
structure RecordCodec (J : Type) where
  /-- Reading a value as the family's wire type, validating it, and writing it back. -/
  normalize : RecordFamily → J → AppResult J
  /-- `serde_json::to_vec` of the aircraft definition with the given JSON value. -/
  definitionBytes : J → Bytes
  /-- `serde_json::to_vec` of a schema version and a value. -/
  recordBytes : Nat → J → Bytes
  jsonTrue : J

namespace CloudRecord

variable {J : Type} (C : RecordCodec J)

def checkTimestamp (family : RecordFamily) (modified : Option I64) : AppResult Unit :=
  .rejectIf (modified.isSome ≠ family.isMutable)
    ("invalid mutation timestamp for " ++ family.key.debugText)

def encode (family : RecordFamily) (value : J) (modified : Option I64) :
    AppResult (CloudRecord J) := do
  checkTimestamp family modified
  let value ← C.normalize family value
  return ⟨family.version, modified, value⟩

def decode (family : RecordFamily) (self : CloudRecord J) : AppResult J := do
  .rejectIf (self.schemaVersion ≠ family.version)
    ("unsupported cloud record schema " ++ toString self.schemaVersion ++ " for " ++
      family.key.debugText ++ "; requires " ++ toString family.version)
  checkTimestamp family self.modifiedAtEpochMs
  C.normalize family self.value

end CloudRecord

section Validate

variable {J : Type} (P : Primitives) (C : RecordCodec J)

/-- `AircraftDefinition::content_hash` of a definition given by its JSON value. -/
def contentHash (definition : J) : String := P.sha256Hex (C.definitionBytes definition)

def validateAircraftDefinitionHash (hash : String) : AppResult Unit :=
  .rejectIf (hash.utf8ByteSize ≠ 64 ∨
      ¬ hash.toList.all fun c => c.isDigit || decide ('a' ≤ c ∧ c ≤ 'f'))
    ("invalid aircraft definition SHA-256: " ++ hash)

def validateKeyBinding (key : String) (record : CloudRecord J) : AppResult Unit :=
  match stripStart key aircraftDefinitionKeyStart with
  | some hash => do
    let definition ← record.decode C .aircraft
    .rejectIf (contentHash P C definition ≠ hash) "aircraft definition record hash mismatch"
  | none =>
    match stripStart key aircraftLibraryRecordStart with
    | some hash => validateAircraftDefinitionHash hash
    | none =>
      match stripStart key serviceReceiptStart with
      | some id =>
        .rejectIf (id.utf8ByteSize ≠ 64 ∨ ¬ id.toList.all fun c =>
            c.isDigit || decide ('a' ≤ c ∧ c ≤ 'f') || decide ('A' ≤ c ∧ c ≤ 'F'))
          "invalid immutable service read receipt"
      | none => .ok ()

/-- The first family whose pattern matches the key decides. -/
def validateKnownRecord (key : String) (record : CloudRecord J) : AppResult Unit :=
  match RecordFamily.all.find? fun family => family.key.matchesKey key with
  | some family => do
    let _ ← record.decode C family
    validateKeyBinding P C key record
  | none => .ok ()

def validateCloudRecords (records : RecordMap J) : AppResult Unit :=
  records.toList.forM fun entry => validateKnownRecord P C entry.1 entry.2

/-- By the time of the change, then by the digest of the content. -/
def compareCloudRecords (left right : CloudRecord J) : Ordering :=
  (compare left.time.val right.time.val).then
  (compare (P.sha256 (C.recordBytes left.schemaVersion left.value))
    (P.sha256 (C.recordBytes right.schemaVersion right.value)))

instance : Std.TransCmp (compareCloudRecords P C) :=
  inferInstanceAs <| Std.TransCmp <| compareLex (compareOn fun record : CloudRecord J => record.time.val)
    (compareOn fun record => P.sha256 (C.recordBytes record.schemaVersion record.value))

end Validate

end Aerobag.Client
