import Aerobag.Client.Records
import Aerobag.Lib.Command

/-!
# The encrypted account (`app-core/src/cloud/account_format.rs` and parts of `cloud.rs`)

The root of an account is an encrypted node that names one page with all records. An account format
owns what nodes and pages look like and migrates the records of the formats before it.
-/

namespace Aerobag.Client

structure CloudPage (J : Type) where
  version : Nat
  records : RecordMap J
  deriving DecidableEq

structure CloudNode where
  version : Nat
  generation : Nat
  publishedAtEpochMs : Option Int
  parentNodeId : Option String
  parentNodeHash : Option String
  merkleRootId : String
  merkleRootHash : String
  nextSlotId : String
  deriving DecidableEq, Repr

def cloudPageVersion : Nat := 3

def cloudNodeVersion : Nat := 3

/-- `serde_json` for nodes and pages, and the converters of the record migrations. -/
structure AccountCodec (J : Type) extends RecordCodec J where
  nodeToJson : CloudNode → J
  nodeFromJson : J → AppResult CloudNode
  pageToJson : CloudPage J → J
  pageFromJson : J → AppResult (CloudPage J)
  headerVersion : J → AppResult Nat
  /-- `LegacyMembership` read from JSON and written as the current wire type. -/
  legacyMembership : J → AppResult J

structure RecordMigration (J : Type) where
  key : KeyPattern
  sourceVersions : List Nat
  targetVersion : Option Nat
  convert : CloudRecord J → AppResult (Option (CloudRecord J))

/-- One `AccountFormat`, without the link to its predecessor. -/
structure FormatDescriptor (J : Type) where
  version : Nat
  decodeNode : J → AppResult CloudNode
  decodePage : J → AppResult (CloudPage J)
  encodePage : CloudPage J → AppResult J
  migrations : List (RecordMigration J)

/-- A format with the chain of its predecessors, the nearest first. -/
structure AccountFormat (J : Type) where
  current : FormatDescriptor J
  predecessors : List (FormatDescriptor J)

variable {J : Type}

namespace FormatDescriptor

def find (self : FormatDescriptor J) :
    List (FormatDescriptor J) → Nat → Option (FormatDescriptor J)
  | [], version => if version = self.version then some self else none
  | prior :: rest, version =>
    if version = self.version then some self
    else if prior.version < self.version then prior.find rest version
    else none

/-- The migration of one record of the preceding format, put into `migrated`. -/
def migrateRecord (self : FormatDescriptor J) (migrated : RecordMap J) (key : String)
    (original : CloudRecord J) : AppResult (RecordMap J) :=
  match self.migrations.filter fun rule => rule.key.matchesKey key with
  | [] => .ok migrated
  | [rule] => do
    .rejectIf (¬ rule.sourceVersions.contains original.schemaVersion)
      ("No migration for " ++ key ++ " schema " ++ toString original.schemaVersion)
    match ← rule.convert original with
    | some record =>
      .rejectIf (rule.targetVersion ≠ some record.schemaVersion ∨
          record.modifiedAtEpochMs ≠ original.modifiedAtEpochMs)
        "Account migration changed its declared schema or mutation timestamp"
      return migrated.insert key record
    | none =>
      .rejectIf rule.targetVersion.isSome "Account migration unexpectedly discarded a record"
      return migrated.erase key
  | _ :: _ :: _ => .error "Overlapping account migration rules"

def noMigration (self : FormatDescriptor J) (source : Nat) : String :=
  "No account migration from format " ++ toString source ++ " to " ++ toString self.version

def migrateRecords (self : FormatDescriptor J) (records : RecordMap J) : AppResult (RecordMap J) :=
  records.toList.foldlM (fun acc entry => self.migrateRecord acc entry.1 entry.2) records

/-- The records after the migration. -/
def migrate (self : FormatDescriptor J) :
    List (FormatDescriptor J) → Nat → RecordMap J → AppResult (RecordMap J)
  | [], source, records =>
    if source = self.version then .ok records else .error (self.noMigration source)
  | prior :: rest, source, records =>
    if source = self.version then .ok records
    else if prior.version < self.version then do
      let migrated ← prior.migrate rest source records
      self.migrateRecords migrated
    else .error (self.noMigration source)

/-- `AccountFormat::migrate` on the map that it is given by reference. The predecessor changes a copy
of the map, and so do the rules. -/
def migrateInPlace (self : FormatDescriptor J) :
    List (FormatDescriptor J) → Nat → EStateM String (RecordMap J) Unit
  | [], source => if source = self.version then pure () else throw (self.noMigration source)
  | prior :: rest, source =>
    if source = self.version then pure ()
    else if prior.version < self.version then do
      let copy ← get
      let migrated ← match (prior.migrateInPlace rest source).run copy with
        | .ok () migrated => pure migrated
        | .error message _ => throw message
      let migrated ← Command.attempt (self.migrateRecords migrated)
      set migrated
    else throw (self.noMigration source)

end FormatDescriptor

namespace AccountFormat

def version (self : AccountFormat J) : Nat := self.current.version

def find (self : AccountFormat J) (version : Nat) : Option (FormatDescriptor J) :=
  self.current.find self.predecessors version

def canUpgrade (self : AccountFormat J) (source : Nat) : Bool :=
  decide (source < self.version) && (self.find source).isSome

def migrate (self : AccountFormat J) (source : Nat) (records : RecordMap J) :
    AppResult (RecordMap J) :=
  self.current.migrate self.predecessors source records

/-- The result, and the map that was given. -/
def migrateInPlace (self : AccountFormat J) (source : Nat) (records : RecordMap J) :
    AppResult Unit × RecordMap J :=
  let migrating := self.current.migrateInPlace self.predecessors source
  (Command.result migrating records, Command.final migrating records)

end AccountFormat

section Formats

variable (P : Primitives) (C : AccountCodec J)

def validateCloudPage (page : CloudPage J) : AppResult Unit := do
  .rejectIf (page.version ≠ cloudPageVersion)
    ("unsupported cloud page version " ++ toString page.version)
  validateCloudRecords P C.toRecordCodec page.records

/-- A format that is only read, `LEGACY` and `FORMAT_2`. -/
def historicalFormat (version : Nat) (migrations : List (RecordMigration J)) :
    FormatDescriptor J where
  version := version
  decodeNode := C.nodeFromJson
  decodePage value := do
    let page ← C.pageFromJson value
    .rejectIf (page.version ≠ version)
      ("Expected account format " ++ toString version ++ " page")
    return page
  encodePage _ := .error ("Historical account format " ++ toString version ++ " is read-only")
  migrations := migrations

def legacyFormat : FormatDescriptor J := historicalFormat C 1 []

def migrateLegacyMembership (record : CloudRecord J) : AppResult (Option (CloudRecord J)) := do
  let value ← C.legacyMembership record.value
  let migrated ← CloudRecord.encode C.toRecordCodec .aircraftMembership value
    record.modifiedAtEpochMs
  return some migrated

def format2 : FormatDescriptor J :=
  historicalFormat C 2
    [{ key := .is flightPlanRecordKey, sourceVersions := [1, 2, 3], targetVersion := none
       convert := fun _ => .ok none },
     { key := .under aircraftLibraryRecordStart, sourceVersions := [1], targetVersion := some 2
       convert := migrateLegacyMembership C }]

def migrateAircraftDefinition (record : CloudRecord J) : AppResult (Option (CloudRecord J)) := do
  let migrated := { record with schemaVersion := RecordFamily.aircraft.version }
  let _ ← migrated.decode C.toRecordCodec .aircraft
  return some migrated

def currentFormat : AccountFormat J where
  current :=
    { version := cloudNodeVersion
      decodeNode := C.nodeFromJson
      decodePage := fun value => do
        let page ← C.pageFromJson value
        validateCloudPage P C page
        return page
      encodePage := fun page => do
        validateCloudPage P C page
        return C.pageToJson page
      migrations :=
        [{ key := .under aircraftDefinitionKeyStart, sourceVersions := [2, 3]
           targetVersion := some 3, convert := migrateAircraftDefinition C }] }
  predecessors := [format2 C, legacyFormat C]

def readVersion (value : J) : AppResult Nat := do
  let version ← C.headerVersion value
  .rejectIf (version = 0) "Invalid cloud account format 0"
  return version

end Formats

def pageForRecords (records : RecordMap J) : CloudPage J := ⟨cloudPageVersion, records⟩

structure ObservedRoot where
  version : Nat
  revision : Nat
  hash : String
  recordsVerified : Bool
  deriving DecidableEq, Repr

def ObservedRoot.matchesRoot (self : ObservedRoot) (revision : Nat) (hash : Option String) : Bool :=
  self.revision = revision && some self.hash = hash

end Aerobag.Client
