import Aerobag.LiveFeed.Contract
import Aerobag.Notam.Display

/-!
# Live feeds of a client (`app-core/src/live_feeds.rs`)

For each product what the catalog says about its current version, what its manifest adds, and which
version is loaded. Methods that can fail are commands. Of the errors, all `InvalidManifest`, the
texts are kept.
-/

namespace Aerobag.LiveFeed

open Command (attempt)

/-- SHA-256, `serde_json` for the published documents, and xz. -/
structure FeedEnv where
  sha256 : Bytes → Bytes
  toVec : Json.Value → Bytes
  fromSlice : Bytes → Except String Json.Value
  schemaNumber : Json.Value → Except String Nat
  readVersionManifest : Json.Value → Except String VersionManifest
  readRecordDelta : Json.Value → Except String RecordDelta
  readCatalog : Json.Value → Except String Catalog
  readCurrentEvent : Json.Value → Except String CurrentEvent
  decodeXzIfNeeded : Bytes → Except String Bytes
  debug : Option String → String

structure LiveFeedProductHistoryState where
  version : String
  versionManifestUrl : Option String
  stateUrl : Option String
  expectedStateSha256 : Option String
  publishedAtUtc : Option String
  collectedAtUtc : Option String
  stateKind : Option String
  stateRef : Option PayloadRef
  installStateRef : Option PayloadRef
  installProfileRefs : Std.ExtTreeMap String PayloadRef
  versionManifest : Option VersionManifest
  stateManifest : Option Json.Value

def LiveFeedProductHistoryState.empty : LiveFeedProductHistoryState where
  version := ""
  versionManifestUrl := none
  stateUrl := none
  expectedStateSha256 := none
  publishedAtUtc := none
  collectedAtUtc := none
  stateKind := none
  stateRef := none
  installStateRef := none
  installProfileRefs := ∅
  versionManifest := none
  stateManifest := none

structure LiveFeedProductState where
  currentVersion : Option String
  loadedVersion : Option String
  versionManifestUrl : Option String
  stateUrl : Option String
  expectedStateSha256 : Option String
  publishedAtUtc : Option String
  collectedAtUtc : Option String
  stateKind : Option String
  stateRef : Option PayloadRef
  installStateRef : Option PayloadRef
  installProfileRefs : Std.ExtTreeMap String PayloadRef
  deltaFromPrevious : Option DeltaRef
  recentDeltas : List DeltaRef
  versionManifest : Option VersionManifest
  stateManifest : Option Json.Value
  catalogStateManifest : Option Json.Value
  history : List LiveFeedProductHistoryState

def LiveFeedProductState.empty : LiveFeedProductState where
  currentVersion := none
  loadedVersion := none
  versionManifestUrl := none
  stateUrl := none
  expectedStateSha256 := none
  publishedAtUtc := none
  collectedAtUtc := none
  stateKind := none
  stateRef := none
  installStateRef := none
  installProfileRefs := ∅
  deltaFromPrevious := none
  recentDeltas := []
  versionManifest := none
  stateManifest := none
  catalogStateManifest := none
  history := []

structure LiveFeedsState where
  sourceRootUrl : Option String
  products : Std.ExtTreeMap String LiveFeedProductState
  catalogLoaded : Bool
  resourceFailureRetryAfterEpochMs : Std.ExtTreeMap String Int

def LiveFeedsState.empty : LiveFeedsState where
  sourceRootUrl := none
  products := ∅
  catalogLoaded := false
  resourceFailureRetryAfterEpochMs := ∅

abbrev FeedM := EStateM String LiveFeedsState

/-- `self.products.entry(product).or_default()`, kept even if only read. -/
def entryOrDefault (product : String) : FeedM LiveFeedProductState := do
  let entry := (← get).products[product]?.getD .empty
  modify fun s => { s with products := s.products.insert product entry }
  pure entry

def setEntry (product : String) (entry : LiveFeedProductState) : FeedM Unit :=
  modify fun s => { s with products := s.products.insert product entry }

def clearResourceFailure (resourceId : String) : FeedM Unit :=
  modify fun s => { s with resourceFailureRetryAfterEpochMs :=
    s.resourceFailureRetryAfterEpochMs.erase resourceId }

/-! ## Checks of documents -/

section Checks

variable (env : FeedEnv)

def decodeExact {α : Type} (read : Json.Value → Except String α) (label : String) (payload : Bytes)
    (requiredSchemaVersion : Nat) : Except String α := do
  let value ← (env.fromSlice payload).mapError fun e => s!"invalid {label} JSON: {e}"
  let members ← match value.asObject? with
    | some members => .ok members
    | none => .error s!"{label} must be a JSON object"
  let offered ← (env.schemaNumber ((Json.Value.member? "schema_version" members).getD .null)).mapError
    fun e => s!"{label} has no valid schema_version: {e}"
  .rejectIf (offered ≠ requiredSchemaVersion) <|
    s!"{label} offers schema version {offered}; client requires schema version " ++
      s!"{requiredSchemaVersion}"
  (read value).mapError fun e => s!"invalid {label}: {e}"

def sha256Hex (bytes : Bytes) : String := hexBytes (env.sha256 bytes)

def canonicalJsonSha256 (value : Json.Value) : String := sha256Hex env (env.toVec value)

def decodeLiveFeedPayload (payloadKind : Option String) (bytes : Bytes) : Except String Bytes :=
  if payloadKind ∈ [some "json_xz", some "record_json_delta_xz", some "nav_kv_delta_xz",
      some "notam_checkpoint_xz", some "notam_ordered_delta_xz"] then env.decodeXzIfNeeded bytes
  else .ok bytes

end Checks

def validateRelativeUrl (url : String) : Except String Unit :=
  .rejectIf ("/".toList <+: url.toList ∨ "://".toList <:+: url.toList ∨ ".." ∈ Text.split '/' url)
    ("live feed URL must be package-relative: " ++ url)

def splitProductVersion (resourceId rest : String) : Except String (String × String) :=
  match Text.splitOnce? '/' rest with
  | some (product, version) => .ok (product, version)
  | none => .error ("invalid live feed resource id: " ++ resourceId)

def splitProductFromTo (resourceId rest : String) : Except String (String × String × String) :=
  match Text.split '/' rest with
  | [product, fromVersion, toVersion] =>
    if product.isEmpty ∨ fromVersion.isEmpty ∨ toVersion.isEmpty then
      .error ("invalid live feed resource id: " ++ resourceId)
    else .ok (product, fromVersion, toVersion)
  | _ => .error ("invalid live feed resource id: " ++ resourceId)

/-- The loop over the deltas, with the state reached and whether the checkpoint was met. -/
def validateNotamChain (checkpoint : String) :
    List DeltaRef → String → Bool → Except String (String × Bool)
  | [], stateId, checkpointReachable => .ok (stateId, checkpointReachable)
  | delta :: deltas, stateId, checkpointReachable => do
    .rejectIf (delta.kind ≠ some "notam_ordered_delta_xz" ∨ delta.fromVersion ≠ stateId ∨
        delta.fromStateSha256 ≠ stateId ∨ delta.toVersion ≠ delta.toStateSha256 ∨
        delta.mutationCount = none)
      ("NOTAM retained delta chain is invalid at " ++ delta.url)
    validateNotamChain checkpoint deltas delta.toStateSha256
      (checkpointReachable || delta.toStateSha256 = checkpoint)

def validateNotamVersionManifest (manifest : VersionManifest) (expectedHead : String) :
    Except String Unit := do
  .rejectIf (manifest.version ≠ expectedHead)
    ("NOTAM manifest head " ++ manifest.version ++ " does not match current " ++ expectedHead)
  .rejectIf (manifest.state.kind ≠ some "notam_checkpoint_xz")
    "NOTAM manifest state is not a checkpoint"
  match manifest.recentDeltas with
  | [] =>
    .rejectIf (manifest.state.stateSha256 ≠ expectedHead)
      ("NOTAM checkpoint is " ++ manifest.state.stateSha256 ++ ", but head is " ++ expectedHead ++
        " with no deltas")
    .rejectIf manifest.deltaFromPrevious.isSome
      "NOTAM checkpoint-only manifest unexpectedly has a latest delta"
  | first :: _ =>
    let (stateId, checkpointReachable) ← validateNotamChain manifest.state.stateSha256
      manifest.recentDeltas first.fromStateSha256
      (first.fromStateSha256 = manifest.state.stateSha256)
    .rejectIf (stateId ≠ expectedHead)
      ("NOTAM retained delta chain ends at " ++ stateId ++ ", expected " ++ expectedHead)
    .rejectIf (checkpointReachable = false)
      ("NOTAM checkpoint " ++ manifest.state.stateSha256 ++ " is outside the retained delta chain")
    match manifest.deltaFromPrevious with
    | none => .error "NOTAM delta-chain manifest has no latest delta"
    | some delta =>
      .rejectIf (delta.kind ≠ some "notam_ordered_delta_xz" ∨ delta.toVersion ≠ expectedHead ∨
          delta.toStateSha256 ≠ expectedHead ∨ delta.mutationCount = none)
        "NOTAM latest delta metadata is invalid"
      .rejectIf (manifest.recentDeltas.getLast? ≠ some delta)
        "NOTAM latest delta is not the retained chain tail"

/-- A payload needs a kind and a relative URL; a delta is checked the other way round. -/
def checkPayloadRef (what : String) (payload : PayloadRef) : Except String Unit := do
  .rejectIf (payload.kind = none) (what ++ " missing kind")
  validateRelativeUrl payload.url

def checkDeltaRef (what : String) (delta : DeltaRef) : Except String Unit := do
  validateRelativeUrl delta.url
  .rejectIf (delta.kind = none) (what ++ " missing kind")

/-- The checks of a version resource that do not depend on the state. -/
def checkVersionManifest (resourceId product version : String) (manifest : VersionManifest) :
    Except String Unit := do
  .rejectIf (manifest.product ≠ product ∨ manifest.version ≠ version)
    s!"version resource {resourceId} contained {manifest.product}:{manifest.version}"
  .rejectIf (manifest.temporalCoverage.any fun coverage =>
      coverage.validThroughEpochMs < coverage.validFromEpochMs)
    s!"version resource {resourceId} temporal coverage ends before it begins"
  checkPayloadRef s!"version resource {resourceId} state" manifest.state
  match manifest.installState with
  | none => pure ()
  | some installState => checkPayloadRef s!"version resource {resourceId} install state" installState
  manifest.installProfiles.toList.forM fun (profile, installState) =>
    checkPayloadRef s!"version resource {resourceId} install profile {profile}" installState
  match manifest.deltaFromPrevious with
  | none => pure ()
  | some delta => checkDeltaRef s!"version resource {resourceId} delta" delta
  manifest.recentDeltas.forM (checkDeltaRef s!"version resource {resourceId} retained delta")

/-! ## Registrations -/

def liveFeedHistoryMaxEntries : Nat := 12

structure CurrentProductHistoryEntry where
  version : String
  versionManifestUrl : String
  stateUrl : Option String
  stateSha256 : Option String
  publishedAtUtc : Option String
  collectedAtUtc : Option String

structure ProductRegistration where
  product : String
  version : String
  versionManifestUrl : String
  stateUrl : String
  stateSha256 : String
  publishedAtUtc : Option String
  collectedAtUtc : Option String
  history : List CurrentProductHistoryEntry

def projectCurrentHistory (history : List CurrentHistoryEntry) : List CurrentProductHistoryEntry :=
  history.map fun entry =>
    { version := entry.version
      versionManifestUrl := entry.versionManifestUrl
      stateUrl := entry.stateUrl
      stateSha256 := entry.stateSha256
      publishedAtUtc := none
      collectedAtUtc := none }

/-- The loop over the entries of a history, with the versions it has met. -/
def normalizeHistoryEntries (product : String) :
    List String → List CurrentProductHistoryEntry → Except String Unit
  | _, [] => .ok ()
  | versions, entry :: entries => do
    .rejectIf entry.version.isEmpty s!"{product} live-feed history contains an empty version"
    .rejectIf (entry.version ∈ versions)
      s!"{product} live-feed history repeats version {entry.version}"
    validateRelativeUrl entry.versionManifestUrl
    match entry.stateUrl with
    | none => pure ()
    | some url => validateRelativeUrl url
    normalizeHistoryEntries product (versions ++ [entry.version]) entries

def normalizeProductHistory (product : String) (history : List CurrentProductHistoryEntry) :
    Except String (List CurrentProductHistoryEntry) := do
  .rejectIf (liveFeedHistoryMaxEntries < history.length)
    (s!"{product} live-feed history has {history.length} entries; max is " ++
      s!"{liveFeedHistoryMaxEntries}")
  normalizeHistoryEntries product [] history
  pure history

def validateProductRegistration (registration : ProductRegistration) :
    Except String ProductRegistration := do
  validateRelativeUrl registration.versionManifestUrl
  validateRelativeUrl registration.stateUrl
  let history ← normalizeProductHistory registration.product registration.history
  pure { registration with history }

def productRegistrationFromEvent (payload : CurrentEvent) : ProductRegistration where
  product := payload.product
  version := payload.version
  versionManifestUrl := payload.versionManifestUrl
  stateUrl := payload.stateUrl
  stateSha256 := payload.stateSha256
  publishedAtUtc := payload.publishedAtUtc
  collectedAtUtc := payload.collectedAtUtc
  history := projectCurrentHistory payload.history

def productRegistrationFromCatalog (product : String) (entry : CurrentProduct) :
    ProductRegistration where
  product := product
  version := entry.current
  versionManifestUrl := entry.versionManifestUrl
  stateUrl := entry.stateUrl
  stateSha256 := entry.stateSha256
  publishedAtUtc := entry.publishedAtUtc
  collectedAtUtc := entry.collectedAtUtc
  history := projectCurrentHistory entry.history

def validatedCatalogRegistrations (catalog : Catalog) : Except String (List ProductRegistration) :=
  catalog.products.toList.mapM fun (product, entry) =>
    validateProductRegistration (productRegistrationFromCatalog product entry)

/-- A history entry that the catalog names. -/
def syncHistoryEntry (known : LiveFeedProductHistoryState) (entry : CurrentProductHistoryEntry) :
    LiveFeedProductHistoryState :=
  let stateSha256Changed := entry.stateSha256.isSome && known.expectedStateSha256 ≠ entry.stateSha256
  let versionManifestUrlChanged :=
    known.versionManifestUrl.any fun existing => existing ≠ entry.versionManifestUrl
  let state :=
    if stateSha256Changed || versionManifestUrlChanged then
      { known with
        stateKind := none
        stateRef := none
        installStateRef := none
        installProfileRefs := ∅
        versionManifest := none
        stateManifest := none }
    else known
  { state with
    version := entry.version
    versionManifestUrl := some entry.versionManifestUrl
    stateUrl := entry.stateUrl.orElse fun _ => state.stateUrl
    expectedStateSha256 := entry.stateSha256.orElse fun _ => state.expectedStateSha256
    publishedAtUtc := entry.publishedAtUtc
    collectedAtUtc := entry.collectedAtUtc }

/-- The loop of `sync_history`, with the known entries left. -/
def syncHistoryEntries : Std.ExtTreeMap String LiveFeedProductHistoryState →
    List CurrentProductHistoryEntry → List LiveFeedProductHistoryState
  | _, [] => []
  | existing, entry :: entries =>
    syncHistoryEntry (existing[entry.version]?.getD .empty) entry ::
      syncHistoryEntries (existing.erase entry.version) entries

def syncHistory (history : List LiveFeedProductHistoryState)
    (entries : List CurrentProductHistoryEntry) : List LiveFeedProductHistoryState :=
  syncHistoryEntries (.insertAll (·.version) ∅ history) entries

/-- What registering its current version makes of the entry of a product. -/
def LiveFeedProductState.register (entry : LiveFeedProductState)
    (registration : ProductRegistration) : LiveFeedProductState :=
  let registered :=
    { entry with
      currentVersion := some registration.version
      versionManifestUrl := some registration.versionManifestUrl
      stateUrl := some registration.stateUrl
      expectedStateSha256 := some registration.stateSha256
      publishedAtUtc := registration.publishedAtUtc
      collectedAtUtc := registration.collectedAtUtc
      history := syncHistory entry.history registration.history }
  -- the same version again keeps its manifest and its state
  if entry.currentVersion = some registration.version then registered
  else
    { registered with
      stateKind := none
      stateRef := none
      installStateRef := none
      installProfileRefs := ∅
      deltaFromPrevious := none
      recentDeltas := []
      versionManifest := none
      catalogStateManifest := none }

def registerValidatedProduct (registration : ProductRegistration) : FeedM Unit := do
  let entry ← entryOrDefault registration.product
  setEntry registration.product (entry.register registration)

def sortDedup (products : List String) : List String :=
  (Std.ExtTreeMap.insertAll id ∅ products).valueList

def installValidatedCatalog (registrations : List ProductRegistration) : FeedM (List String) := do
  let known := (← get).products.toList.map Prod.fst
  let listed := registrations.map (·.product)
  modify fun s =>
    { s with
      catalogLoaded := true
      products := s.products.filter fun product _ => product ∈ listed }
  registrations.forM registerValidatedProduct
  pure (sortDedup (known ++ listed))

/-! ## Events -/

structure LiveFeedSseEvent where
  event : Option String
  data : Bytes

inductive ParsedLiveFeedSseEvent where
  | catalog (catalog : Catalog)
  | product (payload : CurrentEvent)

section Events

variable (env : FeedEnv)

def parseLiveFeedSseEvent (event : LiveFeedSseEvent) :
    Except String (Option ParsedLiveFeedSseEvent) :=
  let eventName := event.event.getD "message"
  if eventName = "live-feed-catalog" then
    (decodeExact env env.readCatalog "live-feed SSE catalog" event.data liveFeedsSchemaVersion).map
      (some <| .catalog ·)
  else if eventName = "live-feed-current" ∨ eventName = "message" then
    (decodeExact env env.readCurrentEvent "live-feed SSE event" event.data
      liveFeedsSchemaVersion).map (some <| .product ·)
  else .ok none

/-- The last catalog, and the last event of each product after it. -/
def collectSseEvents : List LiveFeedSseEvent → Option Catalog → Std.ExtTreeMap String CurrentEvent →
    Except String (Option Catalog × Std.ExtTreeMap String CurrentEvent)
  | [], catalog, latestProducts => .ok (catalog, latestProducts)
  | event :: events, catalog, latestProducts => do
    match ← parseLiveFeedSseEvent env event with
    | some (.catalog newer) => collectSseEvents events (some newer) ∅
    | some (.product payload) =>
      collectSseEvents events catalog (latestProducts.insert payload.product payload)
    | none => collectSseEvents events catalog latestProducts

def installReceivedCatalog : Option (List ProductRegistration) → FeedM (List String)
  | none => pure []
  | some registrations => installValidatedCatalog registrations

def ingestSseEvents (events : List LiveFeedSseEvent) : FeedM (List String) := do
  let (catalog, latestProducts) ← attempt (collectSseEvents env events none ∅)
  let catalogRegistrations ← attempt (catalog.mapM validatedCatalogRegistrations)
  let productRegistrations ← attempt (latestProducts.toList.mapM fun (_, payload) =>
    validateProductRegistration (productRegistrationFromEvent payload))
  let affected ← installReceivedCatalog catalogRegistrations
  productRegistrations.forM registerValidatedProduct
  pure (sortDedup (affected ++ productRegistrations.map (·.product)))

def ingestCatalogBytes (bytes : Bytes) : FeedM (List String) := do
  let catalog ← attempt (decodeExact env env.readCatalog "live-feed catalog" bytes
    liveFeedsSchemaVersion)
  let registrations ← attempt (validatedCatalogRegistrations catalog)
  installValidatedCatalog registrations

end Events

/-! ## Record deltas -/

/-- The records of an array by the id that each of them carries. -/
def recordsById (recordsKey recordIdKey : String) :
    List Json.Value → Std.ExtTreeMap String Json.Value →
      Except String (Std.ExtTreeMap String Json.Value)
  | [], byId => .ok byId
  | record :: records, byId => do
    let recordId ← match (record.get? recordIdKey).bind Json.Value.asStr? with
      | some recordId => .ok recordId
      | none => .error s!"{recordsKey} record missing string {recordIdKey}"
    .rejectIf byId[recordId]?.isSome s!"duplicate {recordsKey} record id {recordId}"
    recordsById recordsKey recordIdKey records (byId.insert recordId record)

def applyChangedRecords (recordsKey recordIdKey : String) :
    List (String × Json.Value) → Std.ExtTreeMap String Json.Value →
      Except String (Std.ExtTreeMap String Json.Value)
  | [], byId => .ok byId
  | (recordId, record) :: changed, byId => do
    let embeddedId ← match (record.get? recordIdKey).bind Json.Value.asStr? with
      | some embeddedId => .ok embeddedId
      | none => .error s!"changed {recordsKey} record missing string {recordIdKey}"
    .rejectIf (embeddedId ≠ recordId)
      (s!"changed {recordsKey} record key {recordId} disagrees with embedded id " ++ embeddedId)
    applyChangedRecords recordsKey recordIdKey changed (byId.insert recordId record)

/-- The records after a delta and how many they are. -/
def applyRecordChanges (recordsKey : String) (recordIdKey : Option String) (delta : RecordDelta)
    (members : List (String × Json.Value)) : Except String (Json.Value × Nat) :=
  match recordIdKey with
  | some recordIdKey => do
    let records ← match (Json.Value.member? recordsKey members).bind Json.Value.asArray? with
      | some records => .ok records
      | none => .error s!"state missing {recordsKey} array"
    let byId ← recordsById recordsKey recordIdKey records ∅
    let kept := delta.removed.foldl (fun byId recordId => byId.erase recordId) byId
    let byId ← applyChangedRecords recordsKey recordIdKey delta.changed kept
    pure (.array byId.valueList, byId.size)
  | none => do
    let records ← match (Json.Value.member? recordsKey members).bind Json.Value.asObject? with
      | some records => .ok records
      | none => .error s!"state missing {recordsKey} object"
    let kept := delta.removed.foldl (fun records key => Json.Value.removeMember key records) records
    let records := delta.changed.foldl
      (fun records change => Json.Value.insertMember change.1 change.2 records) kept
    pure (.object records, records.length)

def applyRecordJsonDelta (recordsKey : String) (recordIdKey countKey : Option String)
    (fromState : Json.Value) (delta : RecordDelta) : Except String Json.Value := do
  let fromVersion ← match (fromState.get? "version_label").bind Json.Value.asStr? with
    | some fromVersion => .ok fromVersion
    | none => .error "live feed state missing version_label"
  .rejectIf (fromVersion ≠ delta.fromVersion)
    s!"delta starts at {delta.fromVersion}, but local state is {fromVersion}"
  let members ← match fromState.asObject? with
    | some members => .ok members
    | none => .error "live feed state must be a JSON object"
  let members := delta.topLevelRemoved.foldl
    (fun members key => Json.Value.removeMember key members) members
  let members := delta.topLevelChanged.foldl
    (fun members change => Json.Value.insertMember change.1 change.2 members) members
  let (records, recordCount) ← applyRecordChanges recordsKey recordIdKey delta members
  let members := Json.Value.insertMember recordsKey records members
  .rejectIf (Json.Value.member? "version_label" members).isNone
    "live feed state missing version_label"
  let members := Json.Value.insertMember "version_label" (.string delta.toVersion) members
  match countKey with
  | some countKey =>
    if (Json.Value.member? countKey members).isSome then
      pure (.object (Json.Value.insertMember countKey (.number (toString recordCount)) members))
    else pure (.object members)
  | none => pure (.object members)

def applyLiveFeedRecordDelta (fromState : Json.Value) (delta : RecordDelta) :
    Except String Json.Value :=
  match recordDeltaSchema delta.product with
  | none => .error ("unsupported live feed delta product: " ++ delta.product)
  | some (recordsKey, recordIdKey, countKey) =>
    applyRecordJsonDelta recordsKey recordIdKey countKey fromState delta

/-! ## Resources -/

section Resources

variable (env : FeedEnv)

/-- A version manifest put into the history entry of its version. -/
def LiveFeedProductHistoryState.withManifest (entry : LiveFeedProductHistoryState)
    (manifest : VersionManifest) : LiveFeedProductHistoryState :=
  { entry with
    stateUrl := some manifest.state.url
    expectedStateSha256 := some manifest.state.stateSha256
    stateKind := manifest.state.kind
    stateRef := some manifest.state
    installStateRef := manifest.installState
    installProfileRefs := manifest.installProfiles
    versionManifest := some manifest }

/-- The entry with a manifest. A NOTAM manifest holds the checkpoint, so the hash is the catalog's.
-/
def LiveFeedProductState.withManifest (entry : LiveFeedProductState) (product : String)
    (manifest : VersionManifest) : LiveFeedProductState :=
  { entry with
    stateUrl := some manifest.state.url
    expectedStateSha256 :=
      if product ≠ "notams" then some manifest.state.stateSha256 else entry.expectedStateSha256
    stateKind := manifest.state.kind
    stateRef := some manifest.state
    installStateRef := manifest.installState
    installProfileRefs := manifest.installProfiles
    deltaFromPrevious := manifest.deltaFromPrevious
    recentDeltas := manifest.recentDeltas
    versionManifest := some manifest }

/-- The history with one entry changed, `none` without it. -/
def updateHistory (version : String) (update : LiveFeedProductHistoryState →
    LiveFeedProductHistoryState) : List LiveFeedProductHistoryState →
    List LiveFeedProductHistoryState
  | [] => []
  | entry :: entries =>
    if entry.version = version then update entry :: entries
    else entry :: updateHistory version update entries

def LiveFeedProductState.updateHistory (entry : LiveFeedProductState) (version : String)
    (update : LiveFeedProductHistoryState → LiveFeedProductHistoryState) : LiveFeedProductState :=
  { entry with history := LiveFeed.updateHistory version update entry.history }

/-- A NOTAM manifest has to end at the version that the catalog calls current. -/
def checkNotamHead (s : LiveFeedsState) (product : String) (manifest : VersionManifest) :
    Except String Unit :=
  if product = "notams" then
    match s.products[product]?.bind (·.currentVersion) with
    | none => .error "NOTAM version manifest arrived before current manifest"
    | some expectedHead => validateNotamVersionManifest manifest expectedHead
  else .ok ()

def ingestVersionResource (resourceId rest : String) (bytes : Bytes) : FeedM Unit := do
  let (product, version) ← attempt (splitProductVersion resourceId rest)
  let manifest ← attempt (decodeExact env env.readVersionManifest "live-feed version manifest" bytes
    liveFeedsSchemaVersion)
  attempt (checkVersionManifest resourceId product version manifest)
  attempt (checkNotamHead (← get) product manifest)
  let entry ← entryOrDefault product
  setEntry product <|
    if entry.currentVersion = some version then entry.withManifest product manifest
    else entry.updateHistory version fun history => history.withManifest manifest
  clearResourceFailure resourceId

def stateHash (resourceId : String) (stateKind : Option String) (parsed : Json.Value) :
    Except String String :=
  if stateKind = some "nav_kv" then
    match (parsed.get? "state_sha256").bind Json.Value.asStr? with
    | some hash => .ok hash
    | none => .error s!"nav_kv state {resourceId} missing state_sha256"
  else .ok (canonicalJsonSha256 env parsed)

def checkStateHash (resourceId : String) (expected : Option String)
    (hash : Except String String) : Except String Unit :=
  match expected with
  | none => .ok ()
  | some expected => do
    let actual ← hash
    .rejectIf (actual ≠ expected)
      s!"state hash mismatch for {resourceId}: expected {expected}, got {actual}"

def readStateResource (resourceId : String) (stateKind expected : Option String)
    (hash : Json.Value → Except String String) (bytes : Bytes) : Except String Json.Value := do
  let decodedBytes ← decodeLiveFeedPayload env stateKind bytes
  let parsed ← env.fromSlice decodedBytes
  checkStateHash resourceId expected (hash parsed)
  pure parsed

/-- The entry with a state of its current or a historical version. -/
def LiveFeedProductState.withState (entry : LiveFeedProductState) (resourceId version : String)
    (bytes : Bytes) : Except String LiveFeedProductState :=
  if entry.currentVersion = some version then do
    let parsed ← readStateResource env resourceId entry.stateKind entry.expectedStateSha256
      (stateHash env resourceId entry.stateKind) bytes
    pure { entry with
      catalogStateManifest := some parsed
      stateManifest := some parsed
      loadedVersion := some version }
  else
    match entry.history.find? (·.version = version) with
    | none => .ok entry
    | some history => do
      let parsed ← readStateResource env resourceId history.stateKind history.expectedStateSha256
        (fun parsed => .ok (canonicalJsonSha256 env parsed)) bytes
      pure (entry.updateHistory version fun history => { history with stateManifest := some parsed })

def ingestStateResource (resourceId rest : String) (bytes : Bytes) : FeedM Unit := do
  let (product, version) ← attempt (splitProductVersion resourceId rest)
  let entry ← entryOrDefault product
  let loaded ← attempt (entry.withState env resourceId version bytes)
  setEntry product loaded
  clearResourceFailure resourceId

def applyDeltaResource (resourceId product fromVersion toVersion : String)
    (entry : LiveFeedProductState) (bytes : Bytes) : Except String Json.Value := do
  let deltaRef ← match entry.deltaFromPrevious with
    | some deltaRef => .ok deltaRef
    | none => .error s!"delta resource {resourceId} was not expected"
  .rejectIf (deltaRef.fromVersion ≠ fromVersion ∨ deltaRef.toVersion ≠ toVersion)
    s!"delta resource {resourceId} does not match version manifest"
  .rejectIf (sha256Hex env bytes ≠ deltaRef.blobSha256)
    (s!"delta blob hash mismatch for {resourceId}: expected {deltaRef.blobSha256}, got " ++
      sha256Hex env bytes)
  let currentState ← match entry.stateManifest with
    | some currentState => .ok currentState
    | none => .error s!"cannot apply {resourceId}: local {product} state is missing"
  .rejectIf (entry.loadedVersion ≠ some fromVersion)
    (s!"cannot apply {resourceId}: local version is " ++ env.debug entry.loadedVersion)
  .rejectIf (canonicalJsonSha256 env currentState ≠ deltaRef.fromStateSha256)
    (s!"local state hash mismatch for {fromVersion}: expected {deltaRef.fromStateSha256}, got " ++
      canonicalJsonSha256 env currentState)
  let decodedBytes ← decodeLiveFeedPayload env deltaRef.kind bytes
  let delta ← decodeExact env env.readRecordDelta "live-feed record delta" decodedBytes
    liveFeedsSchemaVersion
  let nextState ← applyLiveFeedRecordDelta currentState delta
  .rejectIf (canonicalJsonSha256 env nextState ≠ deltaRef.toStateSha256)
    (s!"delta target hash mismatch for {toVersion}: expected {deltaRef.toStateSha256}, got " ++
      canonicalJsonSha256 env nextState)
  pure nextState

def LiveFeedProductState.withDelta (entry : LiveFeedProductState)
    (resourceId product fromVersion toVersion : String) (bytes : Bytes) :
    Except String LiveFeedProductState :=
  if entry.currentVersion = some toVersion then do
    let nextState ← applyDeltaResource env resourceId product fromVersion toVersion entry bytes
    pure { entry with stateManifest := some nextState, loadedVersion := some toVersion }
  else .ok entry

def ingestDeltaResource (resourceId rest : String) (bytes : Bytes) : FeedM Unit := do
  let (product, fromVersion, toVersion) ← attempt (splitProductFromTo resourceId rest)
  attempt (.rejectIf (supportsRecordDelta product = false)
    s!"unsupported live feed delta product: {product}")
  let entry ← entryOrDefault product
  let loaded ← attempt (entry.withDelta env resourceId product fromVersion toVersion bytes)
  setEntry product loaded
  clearResourceFailure resourceId

def ingestResource (resourceId : String) (bytes : Bytes) : FeedM Unit :=
  match Text.after? "live_feeds/version/" resourceId with
  | some rest => ingestVersionResource env resourceId rest bytes
  | none =>
    match Text.after? "live_feeds/state/" resourceId with
    | some rest => ingestStateResource env resourceId rest bytes
    | none =>
      match Text.after? "live_feeds/delta/" resourceId with
      | some rest => ingestDeltaResource env resourceId rest bytes
      | none => throw ("unsupported live feed resource id: " ++ resourceId)

end Resources

/-! ## Prepared resources -/

/-- Of the payloads that are not NOTAMs only the version label is read here. -/
inductive PreparedLiveFeedPayload where
  | metars (versionLabel : String)
  | tafs (versionLabel : String)
  | tfrs (versionLabel : String)
  | notams (payload : Notam.PreparedNotamPayload)
  | pireps (versionLabel : String)

def PreparedLiveFeedPayload.product : PreparedLiveFeedPayload → String
  | metars _ => "metars"
  | tafs _ => "tafs"
  | tfrs _ => "tfrs"
  | notams _ => "notams"
  | pireps _ => "pireps"

def PreparedLiveFeedPayload.versionLabel : PreparedLiveFeedPayload → String
  | metars versionLabel => versionLabel
  | tafs versionLabel => versionLabel
  | tfrs versionLabel => versionLabel
  | notams (.installDisplayCheckpoint checkpoint) => checkpoint.stateId
  | notams (.applyDisplayDelta delta) => delta.toStateId
  | pireps versionLabel => versionLabel

structure PreparedLiveFeedEnvelope where
  schemaVersion : Nat
  resourceId : String
  product : String
  version : String
  stateSha256 : String
  fromVersion : Option String
  fromStateSha256 : Option String
  deltaBlobSha256 : Option String
  payload : PreparedLiveFeedPayload

def LiveFeedProductState.notamDelta (entry : LiveFeedProductState)
    (fromVersion toVersion : String) : Option DeltaRef :=
  let joins (delta : DeltaRef) := delta.fromVersion = fromVersion ∧ delta.toVersion = toVersion
  (entry.recentDeltas.find? fun delta => joins delta).orElse fun _ =>
    entry.deltaFromPrevious.filter fun delta => joins delta

def LiveFeedProductState.notamDeltaFrom (entry : LiveFeedProductState) (fromVersion : String) :
    Option DeltaRef :=
  (entry.recentDeltas.find? (·.fromVersion = fromVersion)).orElse fun _ =>
    entry.deltaFromPrevious.filter (·.fromVersion = fromVersion)

def LiveFeedProductState.applicableNotamDelta (entry : LiveFeedProductState) : Option DeltaRef :=
  entry.loadedVersion.bind entry.notamDeltaFrom

section Prepared

variable (env : FeedEnv) (resourceId : String) (envelope : PreparedLiveFeedEnvelope)

def checkPreparedNotamCheckpoint (version : String) (entry : LiveFeedProductState) :
    Except String Unit := do
  let stateRef ← match entry.stateRef with
    | some stateRef => .ok stateRef
    | none => .error "NOTAM version manifest has no checkpoint"
  .rejectIf (stateRef.stateSha256 ≠ version)
    s!"prepared NOTAM checkpoint {version} does not match manifest {stateRef.stateSha256}"
  .rejectIf (envelope.version ≠ version ∨ envelope.payload.versionLabel ≠ version ∨
      envelope.stateSha256 ≠ version)
    (s!"prepared NOTAM checkpoint {resourceId} contained {envelope.version} / " ++
      envelope.payload.versionLabel ++ " / " ++ envelope.stateSha256)
  .rejectIf (envelope.deltaBlobSha256 ≠ some stateRef.blobSha256)
    (s!"prepared NOTAM checkpoint {resourceId} blob hash mismatch: expected " ++
      s!"{stateRef.blobSha256}, got " ++ env.debug envelope.deltaBlobSha256)

def checkPreparedState (product version : String) (entry : LiveFeedProductState) :
    Except String Unit := do
  .rejectIf (envelope.version ≠ version ∨ envelope.payload.versionLabel ≠ version)
    (s!"prepared {product} full resource {resourceId} contained {envelope.version} / " ++
      envelope.payload.versionLabel)
  match entry.expectedStateSha256 with
  | none => pure ()
  | some expected =>
    .rejectIf (envelope.stateSha256 ≠ expected)
      (s!"prepared {product} state hash mismatch for {resourceId}: expected {expected}, got " ++
        envelope.stateSha256)

def ingestPreparedState (rest : String) : FeedM Unit := do
  let (product, version) ← attempt (splitProductVersion resourceId rest)
  attempt (.rejectIf (product ≠ envelope.product)
    s!"prepared {envelope.product} full resource used for {product}")
  let entry ← entryOrDefault product
  let loaded := { entry with stateManifest := none, loadedVersion := some version }
  if product = "notams" then
    attempt (checkPreparedNotamCheckpoint env resourceId envelope version entry)
    setEntry product loaded
  else if entry.currentVersion = some version then
    attempt (checkPreparedState resourceId envelope product version entry)
    setEntry product loaded

def checkPreparedDelta (product fromVersion toVersion : String) (entry : LiveFeedProductState) :
    Except String Unit := do
  .rejectIf (entry.loadedVersion ≠ some fromVersion)
    (s!"cannot install prepared {resourceId}: local version is " ++ env.debug entry.loadedVersion)
  let deltaRef ←
    match if product = "notams" then entry.notamDelta fromVersion toVersion
      else entry.deltaFromPrevious with
    | some deltaRef => .ok deltaRef
    | none => .error s!"prepared delta {resourceId} was not expected"
  .rejectIf (deltaRef.fromVersion ≠ fromVersion ∨ deltaRef.toVersion ≠ toVersion)
    s!"prepared delta {resourceId} does not match version manifest"
  .rejectIf (envelope.fromVersion ≠ some fromVersion ∨ envelope.version ≠ toVersion ∨
      envelope.payload.versionLabel ≠ toVersion)
    (s!"prepared {product} delta {resourceId} contained " ++ env.debug envelope.fromVersion ++
      s!" -> {envelope.version} / " ++ envelope.payload.versionLabel)
  .rejectIf (envelope.fromStateSha256 ≠ some deltaRef.fromStateSha256)
    (s!"prepared delta {resourceId} source hash mismatch: expected {deltaRef.fromStateSha256}, " ++
      "got " ++ env.debug envelope.fromStateSha256)
  .rejectIf (envelope.stateSha256 ≠ deltaRef.toStateSha256)
    (s!"prepared delta {resourceId} target hash mismatch: expected {deltaRef.toStateSha256}, " ++
      "got " ++ envelope.stateSha256)
  .rejectIf (envelope.deltaBlobSha256 ≠ some deltaRef.blobSha256)
    (s!"prepared delta {resourceId} blob hash mismatch: expected {deltaRef.blobSha256}, got " ++
      env.debug envelope.deltaBlobSha256)

def ingestPreparedDelta (rest : String) : FeedM Unit := do
  let (product, fromVersion, toVersion) ← attempt (splitProductFromTo resourceId rest)
  attempt (.rejectIf (product ≠ envelope.product ∨ supportsLiveFeedDelta product = false)
    s!"prepared {envelope.product} delta resource used for {product}")
  let entry ← entryOrDefault product
  if product = "notams" ∨ entry.currentVersion = some toVersion then
    attempt (checkPreparedDelta env resourceId envelope product fromVersion toVersion entry)
    setEntry product { entry with stateManifest := none, loadedVersion := some toVersion }

def ingestPreparedLiveFeed : FeedM Unit := do
  attempt (.rejectIf (envelope.schemaVersion ≠ 1)
    s!"unsupported prepared live-feed schema {envelope.schemaVersion}")
  attempt (.rejectIf (envelope.resourceId ≠ resourceId)
    s!"prepared live-feed envelope for {envelope.resourceId} cannot satisfy {resourceId}")
  attempt (.rejectIf (envelope.payload.product ≠ envelope.product)
    (s!"prepared {envelope.product} envelope contained " ++ envelope.payload.product ++
      " payload"))
  match Text.after? "live_feeds/state/" resourceId with
  | some rest => ingestPreparedState env resourceId envelope rest
  | none =>
    match Text.after? "live_feeds/delta/" resourceId with
    | some rest => ingestPreparedDelta env resourceId envelope rest
    | none => throw ("unsupported prepared live-feed resource id: " ++ resourceId)

end Prepared

/-! ## Durable states and other catalogs -/

def LiveFeedProductState.loadDurable (entry : LiveFeedProductState) (catalogLoaded : Bool)
    (version stateSha256 : String) (collectedAtUtc : Option String)
    (stateManifest : Option Json.Value) : LiveFeedProductState :=
  let entry := { entry with currentVersion := some (entry.currentVersion.getD version) }
  if catalogLoaded && (entry.currentVersion ≠ some version ||
      entry.expectedStateSha256.any fun expected => expected ≠ stateSha256) then entry
  else
    { entry with
      loadedVersion := some version
      expectedStateSha256 := some (entry.expectedStateSha256.getD stateSha256)
      collectedAtUtc := collectedAtUtc.orElse fun _ => entry.collectedAtUtc
      -- a state without a tree keeps the tree that is there
      catalogStateManifest := stateManifest.orElse fun _ => entry.catalogStateManifest
      stateManifest := stateManifest.orElse fun _ => entry.stateManifest }

def markDurableProductLoaded (product version stateSha256 : String)
    (collectedAtUtc : Option String) (stateManifest : Option Json.Value) : FeedM Unit := do
  let entry ← entryOrDefault product
  let catalogLoaded := (← get).catalogLoaded
  setEntry product (entry.loadDurable catalogLoaded version stateSha256 collectedAtUtc stateManifest)

def markProductNoState (product : String) : FeedM Unit := do
  match (← get).products[product]? with
  | none => pure ()
  | some entry => setEntry product { entry with loadedVersion := none, stateManifest := none }

/-- The catalog's part of another entry, merged in. -/
def LiveFeedProductState.mergeFrom (entry : LiveFeedProductState) (product : String)
    (source : LiveFeedProductState) : LiveFeedProductState :=
  let takesState : Bool := product = "nexrad" && source.stateManifest.isSome
  { source with
    loadedVersion := if takesState then source.loadedVersion else entry.loadedVersion
    stateManifest := if takesState then source.stateManifest else entry.stateManifest }

def mergeEntries (products : Std.ExtTreeMap String LiveFeedProductState)
    (source : List (String × LiveFeedProductState)) : Std.ExtTreeMap String LiveFeedProductState :=
  source.foldl (fun products (product, sourceEntry) =>
    products.insert product ((products[product]?.getD .empty).mergeFrom product sourceEntry)) products

def mergeCatalogFrom (source : LiveFeedsState) : FeedM Unit :=
  modify fun s =>
    let retained :=
      if source.catalogLoaded then s.products.filter fun product _ => product ∈ source.products
      else s.products
    { s with
      catalogLoaded := s.catalogLoaded || source.catalogLoaded
      products := mergeEntries retained source.products.toList }

/-! ## Histories -/

inductive Operation where
  | catalog (bytes : Bytes)
  | events (events : List LiveFeedSseEvent)
  | resource (resourceId : String) (bytes : Bytes)
  | prepared (resourceId : String) (envelope : PreparedLiveFeedEnvelope)
  | durable (product version stateSha256 : String) (collectedAtUtc : Option String)
      (stateManifest : Option Json.Value)
  | noState (product : String)

def Operation.run (env : FeedEnv) : Operation → FeedM PUnit
  | .catalog bytes => do
    let _ ← ingestCatalogBytes env bytes
  | .events received => do
    let _ ← ingestSseEvents env received
  | .resource resourceId bytes => ingestResource env resourceId bytes
  | .prepared resourceId envelope => ingestPreparedLiveFeed env resourceId envelope
  | .durable product version stateSha256 collectedAtUtc stateManifest =>
    markDurableProductLoaded product version stateSha256 collectedAtUtc stateManifest
  | .noState product => markProductNoState product

/-- States reached by operations meeting `ok`, failing or not, and by merges. -/
inductive Reached (env : FeedEnv) (ok : LiveFeedsState → Operation → Prop) : LiveFeedsState → Prop
  | empty : Reached env ok .empty
  | operation {s : LiveFeedsState} (op : Operation) (hs : Reached env ok s) (hop : ok s op) :
    Reached env ok (Command.final (op.run env) s)
  | merge {s source : LiveFeedsState} (hs : Reached env ok s) (hsource : Reached env ok source) :
    Reached env ok (Command.final (mergeCatalogFrom source) s)

/-! ## What is served -/

def productStateManifest (s : LiveFeedsState) (product : String) : Option Json.Value :=
  s.products[product]?.bind fun entry =>
    if entry.currentVersion.isSome ∧ entry.loadedVersion = entry.currentVersion then
      entry.stateManifest
    else none

end Aerobag.LiveFeed
