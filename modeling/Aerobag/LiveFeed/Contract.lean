import Aerobag.Lib.Json
import Mathlib.Data.String.Basic

/-!
# Live feeds: published documents and product policies (`product-contracts`)

The documents of schema 3: the catalog of the current versions, the version manifests with their
payload and delta references, and the record deltas; and what `live_feed_policy.rs` says about each
product.
-/

namespace Aerobag.LiveFeed

def liveFeedsSchemaVersion : Nat := 3

structure PayloadRef where
  kind : Option String
  url : String
  bytes : Nat
  blobSha256 : String
  stateSha256 : String
deriving DecidableEq, Repr

structure DeltaRef where
  kind : Option String
  fromVersion : String
  fromStateSha256 : String
  toVersion : String
  toStateSha256 : String
  url : String
  bytes : Nat
  blobSha256 : String
  mutationCount : Option Nat
deriving DecidableEq, Repr

structure TemporalCoverage where
  referenceTimeEpochMs : Int
  validFromEpochMs : Int
  validThroughEpochMs : Int
deriving DecidableEq, Repr

structure VersionManifest where
  schemaVersion : Nat
  product : String
  version : String
  previous : Option String
  temporalCoverage : Option TemporalCoverage
  state : PayloadRef
  installState : Option PayloadRef
  installProfiles : Std.ExtTreeMap String PayloadRef
  deltaFromPrevious : Option DeltaRef
  recentDeltas : List DeltaRef

structure CurrentHistoryEntry where
  version : String
  versionManifestUrl : String
  stateUrl : Option String
  stateSha256 : Option String
deriving DecidableEq, Repr

structure CurrentProduct where
  current : String
  versionManifestUrl : String
  stateUrl : String
  stateSha256 : String
  publishedAtUtc : Option String
  collectedAtUtc : Option String
  history : List CurrentHistoryEntry
deriving DecidableEq, Repr

structure CurrentManifest where
  schemaVersion : Nat
  generatedAtUtc : String
  products : Std.ExtTreeMap String CurrentProduct

/-- What the event stream sends first has the shape of the durable ledger. -/
abbrev Catalog := CurrentManifest

structure CurrentEvent where
  schemaVersion : Nat
  product : String
  version : String
  versionManifestUrl : String
  stateUrl : String
  stateSha256 : String
  publishedAtUtc : Option String
  collectedAtUtc : Option String
  history : List CurrentHistoryEntry

structure RecordDelta where
  schemaVersion : Nat
  product : String
  fromVersion : String
  toVersion : String
  topLevelChanged : List (String × Json.Value)
  topLevelRemoved : List String
  changed : List (String × Json.Value)
  removed : List String

inductive LiveFeedCachePolicy where
  | recordJson (recordsKey : String) (countKey : Option String)
  | recordJsonArray (recordsKey recordIdKey : String) (countKey : Option String)
  | fullJson
  | navKv
  | nexradPackage
  | notam
deriving DecidableEq, Repr

inductive LiveFeedPreparationPolicy where
  | none
  | metars
  | tafs
  | pireps
  | tfrs
  | notams
deriving DecidableEq, Repr

def LiveFeedPreparationPolicy.isPrepared (policy : LiveFeedPreparationPolicy) : Bool :=
  policy ≠ .none

inductive LiveFeedDeltaPolicy where
  | none
  | recordJson
  | navKv
  | notam
deriving DecidableEq, Repr

structure LiveFeedProductPolicy where
  productId : String
  retentionSeconds : Nat
  clientHistoryEntries : Nat
  cache : LiveFeedCachePolicy
  preparation : LiveFeedPreparationPolicy
  delta : LiveFeedDeltaPolicy
deriving DecidableEq, Repr

def threeHours : Nat := 3 * 60 * 60
def sevenDays : Nat := 7 * 24 * 60 * 60
def nexradClientHistoryEntries : Nat := 6

def liveFeedProductPolicies : List LiveFeedProductPolicy :=
  [{ productId := "tfrs", retentionSeconds := threeHours, clientHistoryEntries := 0,
     cache := .recordJsonArray "areas" "area_id" (some "area_group_count"),
     preparation := .tfrs, delta := .recordJson },
   { productId := "notams", retentionSeconds := threeHours, clientHistoryEntries := 0,
     cache := .notam, preparation := .notams, delta := .notam },
   { productId := "metars", retentionSeconds := threeHours, clientHistoryEntries := 0,
     cache := .recordJson "metars_by_station" (some "metar_count"),
     preparation := .metars, delta := .recordJson },
   { productId := "pireps", retentionSeconds := threeHours, clientHistoryEntries := 0,
     cache := .recordJson "pireps_by_id" (some "pirep_count"),
     preparation := .pireps, delta := .recordJson },
   { productId := "tafs", retentionSeconds := threeHours, clientHistoryEntries := 0,
     cache := .recordJson "tafs_by_station" (some "taf_count"),
     preparation := .tafs, delta := .recordJson },
   { productId := "nexrad", retentionSeconds := 34 * 60,
     clientHistoryEntries := nexradClientHistoryEntries,
     cache := .nexradPackage, preparation := .none, delta := .none },
   { productId := "obstacles", retentionSeconds := sevenDays, clientHistoryEntries := 0,
     cache := .navKv, preparation := .none, delta := .navKv },
   { productId := "winds-aloft", retentionSeconds := sevenDays, clientHistoryEntries := 0,
     cache := .navKv, preparation := .none, delta := .none }]

def liveFeedProductPolicy (productId : String) : Option LiveFeedProductPolicy :=
  liveFeedProductPolicies.find? (·.productId = productId)

variable (product : String)

def deltaPolicy : Option LiveFeedDeltaPolicy :=
  (liveFeedProductPolicy product).map (·.delta)

def cachePolicy : Option LiveFeedCachePolicy :=
  (liveFeedProductPolicy product).map (·.cache)

def supportsRecordDelta : Bool := deltaPolicy product = some .recordJson

def supportsLiveFeedDelta : Bool :=
  deltaPolicy product = some .recordJson ∨ deltaPolicy product = some .notam

def supportsDurableDelta : Bool :=
  deltaPolicy product = some .recordJson ∨ deltaPolicy product = some .navKv

def supportsPreparedLiveFeed : Bool :=
  (liveFeedProductPolicy product).any (·.preparation.isPrepared)

def productSupportsPreparedRecordDeltaWithoutRawState : Bool :=
  supportsPreparedLiveFeed product && supportsRecordDelta product

/-- `record_json_delta_schema`: the keys of the records, of the id in a record, and of the count. -/
def recordDeltaSchema : Option (String × Option String × Option String) :=
  match cachePolicy product with
  | some (.recordJson recordsKey countKey) => some (recordsKey, none, countKey)
  | some (.recordJsonArray recordsKey recordIdKey countKey) =>
    some (recordsKey, some recordIdKey, countKey)
  | _ => none

end Aerobag.LiveFeed
