import Aerobag.Lib.Sha256
import Aerobag.LiveFeed.State

/-!
# Sample documents

A METAR state, a catalog that advertises it, events, and libraries that read these documents; and
sessions that know a NOTAM manifest.
-/

namespace Aerobag.LiveFeed.Sample

def metars (publishedAt : String) : Json.Value :=
  .object [("metar_count", .number "0"), ("metars_by_station", .object []),
    ("published_at_utc", .string publishedAt), ("version_label", .string "v1")]

def metarsSha256 (publishedAt : String) : String :=
  hexBytes (Sha256.digest (metars publishedAt).write)

/-- A catalog with version `v1` of the METARs. -/
def catalog (publishedAt : String) : Catalog where
  schemaVersion := 3
  generatedAtUtc := publishedAt
  products := (∅ : Std.ExtTreeMap String CurrentProduct).insert "metars"
    { current := "v1"
      versionManifestUrl := "versions/metars/v1.json"
      stateUrl := "states/metars/v1.json"
      stateSha256 := metarsSha256 publishedAt
      publishedAtUtc := none
      collectedAtUtc := none
      history := [] }

def catalogJson (publishedAt : String) : Json.Value :=
  .object [("generated_at_utc", .string publishedAt),
    ("products", .object [("metars", .object [("current", .string "v1"),
      ("state_sha256", .string (metarsSha256 publishedAt)),
      ("state_url", .string "states/metars/v1.json"),
      ("version_manifest_url", .string "versions/metars/v1.json")])]),
    ("schema_version", .number "3")]

def morning : String := "2026-08-04T06:00:00Z"
def noon : String := "2026-08-04T12:00:00Z"

def stateSha256 : String := String.ofList (List.replicate 64 'b')

/-- The event that a version of the METARs is current. -/
def metarsEvent (version : String) : CurrentEvent where
  schemaVersion := 3
  product := "metars"
  version := version
  versionManifestUrl := "versions/metars/" ++ version ++ ".json"
  stateUrl := "states/metars/" ++ version ++ ".json"
  stateSha256 := stateSha256
  publishedAtUtc := none
  collectedAtUtc := none
  history := []

def metarsEventJson (version : String) : Json.Value :=
  .object [("product", .string "metars"), ("schema_version", .number "3"),
    ("state_sha256", .string stateSha256),
    ("state_url", .string ("states/metars/" ++ version ++ ".json")), ("version", .string version),
    ("version_manifest_url", .string ("versions/metars/" ++ version ++ ".json"))]

def eventVersions : List String := ["v2", "v3"]

def documents : List Json.Value :=
  [metars morning, metars noon, catalogJson morning, catalogJson noon] ++
    eventVersions.map metarsEventJson

def env : FeedEnv where
  sha256 := Sha256.digest
  toVec := Json.Value.write
  fromSlice bytes :=
    match documents.find? (·.write = bytes) with
    | some document => .ok document
    | none => .error "expected value at line 1 column 1"
  schemaNumber
    | .number "3" => .ok 3
    | _ => .error "invalid type: null, expected u32"
  readVersionManifest _ := .error "missing field"
  readRecordDelta _ := .error "missing field"
  readCatalog value :=
    if value.write = (catalogJson morning).write then .ok (catalog morning)
    else if value.write = (catalogJson noon).write then .ok (catalog noon)
    else .error "missing field"
  readCurrentEvent value :=
    match eventVersions.find? (fun version => (metarsEventJson version).write = value.write) with
    | some version => .ok (metarsEvent version)
    | none => .error "missing field"
  decodeXzIfNeeded := .ok
  debug
    | none => "None"
    | some version => "Some(\"" ++ version ++ "\")"

def notamDelta (link : String × String) : DeltaRef where
  kind := some "notam_ordered_delta_xz"
  fromVersion := link.1
  fromStateSha256 := link.1
  toVersion := link.2
  toStateSha256 := link.2
  url := "deltas/notams/" ++ link.1 ++ "/" ++ link.2 ++ ".json.xz"
  bytes := 120
  blobSha256 := "delta-" ++ link.1 ++ "-" ++ link.2
  mutationCount := some 1

def notamManifest (checkpoint head : String) (links : List (String × String)) : VersionManifest where
  schemaVersion := 3
  product := "notams"
  version := head
  previous := links.getLast?.map (·.1)
  temporalCoverage := none
  state :=
    { kind := some "notam_checkpoint_xz"
      url := "states/notams/" ++ checkpoint ++ ".json.xz"
      bytes := 900
      blobSha256 := "checkpoint-" ++ checkpoint
      stateSha256 := checkpoint }
  installState := none
  installProfiles := ∅
  deltaFromPrevious := links.getLast?.map notamDelta
  recentDeltas := links.map notamDelta

def notamEntry (manifest : VersionManifest) (loaded : Option String) : LiveFeedProductState :=
  { LiveFeedProductState.empty with
    currentVersion := some manifest.version
    loadedVersion := loaded
    versionManifestUrl := some "versions/notams/current.json"
    stateUrl := some manifest.state.url
    expectedStateSha256 := some manifest.version
    stateKind := manifest.state.kind
    stateRef := some manifest.state
    deltaFromPrevious := manifest.deltaFromPrevious
    recentDeltas := manifest.recentDeltas
    versionManifest := some manifest }

def notamSession (manifest : VersionManifest) (loaded : Option String) : LiveFeedsState :=
  { LiveFeedsState.empty with
    sourceRootUrl := some "https://feeds/"
    catalogLoaded := true
    products := (∅ : Std.ExtTreeMap String LiveFeedProductState).insert "notams"
      (notamEntry manifest loaded) }

/-- Two deltas lead straight to the head. -/
def straightManifest : VersionManifest := notamManifest "a" "c" [("a", "b"), ("b", "c")]

/-- The state returns to the checkpoint before the head. -/
def returningManifest : VersionManifest :=
  notamManifest "a" "c" [("a", "b"), ("b", "a"), ("a", "c")]

end Aerobag.LiveFeed.Sample
