import Aerobag.LiveFeed.State

/-!
# What a client asks for (`app-core/src/live_feeds.rs`)

`missing_resources` names what a session lacks, `durable_missing_requests` what the cache of
installed states lacks. Without a source root the durable requests end in a panic, here `none`.
-/

namespace Aerobag.LiveFeed

inductive CoreResourceSource where
  | publicUrl (url : String)
  | unavailable (message : String)
deriving DecidableEq, Repr

structure CoreResourceRequest where
  id : String
  source : CoreResourceSource
  optional : Bool
deriving DecidableEq, Repr

structure LiveFeedDurableInstalledProduct where
  product : String
  version : String
  stateSha256 : String
deriving DecidableEq, Repr

inductive LiveFeedCacheRequestKind where
  | version (product version : String)
  | full (product version : String) (payloadKind installProfile : Option String)
  | state (product version : String)
  | delta (product fromVersion toVersion : String) (payloadKind : Option String)
deriving DecidableEq, Repr

def LiveFeedCacheRequestKind.product : LiveFeedCacheRequestKind → String
  | .version product _ => product
  | .full product _ _ _ => product
  | .state product _ => product
  | .delta product _ _ _ => product

structure LiveFeedCacheRequest where
  id : String
  url : String
  kind : LiveFeedCacheRequestKind
deriving DecidableEq, Repr

def liveFeedResourceUrl (sourceRootUrl liveFeedRelativeUrl : String) : String :=
  let path :=
    if "/".toList <+: liveFeedRelativeUrl.toList then liveFeedRelativeUrl
    else "/live-feeds/v3/" ++ Text.trimStartMatches '/' liveFeedRelativeUrl
  Text.trimEndMatches '/' sourceRootUrl ++ path

def liveFeedUrl (s : LiveFeedsState) (liveFeedRelativeUrl : String) : Option String :=
  s.sourceRootUrl.map fun sourceRootUrl => liveFeedResourceUrl sourceRootUrl liveFeedRelativeUrl

def publicLiveFeedResource (s : LiveFeedsState) (id liveFeedRelativeUrl : String)
    (optional : Bool) : CoreResourceRequest where
  id := id
  source :=
    match liveFeedUrl s liveFeedRelativeUrl with
    | some url => .publicUrl url
    | none => .unavailable "live-feed source root is not configured"
  optional := optional

def deltaIsPreferred (delta : DeltaRef) (fullRef : Option PayloadRef) : Bool :=
  fullRef.all fun fullRef => delta.bytes ≤ fullRef.bytes

def LiveFeedProductState.applicableDelta (entry : LiveFeedProductState) (product : String) :
    Option DeltaRef :=
  if supportsRecordDelta product then
    entry.deltaFromPrevious.filter fun delta =>
      entry.loadedVersion = some delta.fromVersion ∧ entry.currentVersion = some delta.toVersion ∧
        (entry.stateManifest.isSome ∨ productSupportsPreparedRecordDeltaWithoutRawState product)
  else none

def versionResourceId (product version : String) : String :=
  "live_feeds/version/" ++ product ++ "/" ++ version

def stateResourceId (product version : String) : String :=
  "live_feeds/state/" ++ product ++ "/" ++ version

def deltaResourceId (product fromVersion toVersion : String) : String :=
  "live_feeds/delta/" ++ product ++ "/" ++ fromVersion ++ "/" ++ toVersion

def fullResourceId (product version : String) : String :=
  "live_feeds/full/" ++ product ++ "/" ++ version

/-- Over the retained deltas, or else over the checkpoint. -/
def missingNotamResources (s : LiveFeedsState) (product : String) (entry : LiveFeedProductState) :
    List CoreResourceRequest :=
  match entry.applicableNotamDelta with
  | some delta =>
    [publicLiveFeedResource s (deltaResourceId product delta.fromVersion delta.toVersion) delta.url
      false]
  | none =>
    match entry.stateRef with
    | some state =>
      [publicLiveFeedResource s (stateResourceId product state.stateSha256) state.url false]
    | none => []

def missingStateResources (s : LiveFeedsState) (product version : String)
    (entry : LiveFeedProductState) : List CoreResourceRequest :=
  match (entry.applicableDelta product).filter fun delta => deltaIsPreferred delta entry.stateRef with
  | some delta =>
    [publicLiveFeedResource s (deltaResourceId product delta.fromVersion delta.toVersion) delta.url
      false]
  | none =>
    match entry.stateUrl with
    | some url => [publicLiveFeedResource s (stateResourceId product version) url false]
    | none => []

def missingProductResources (s : LiveFeedsState) (product : String) : List CoreResourceRequest :=
  match s.products[product]? with
  | none => []
  | some entry =>
    match entry.currentVersion with
    | none => []
    | some version =>
      match if entry.versionManifest.isNone then entry.versionManifestUrl else none with
      | some url => [publicLiveFeedResource s (versionResourceId product version) url false]
      | none =>
        if entry.loadedVersion = some version then []
        else if product = "notams" then missingNotamResources s product entry
        else missingStateResources s product version entry

def missingResourcesForProducts (s : LiveFeedsState) (products : List String) :
    List CoreResourceRequest :=
  (sortDedup products).flatMap (missingProductResources s)

def LiveFeedProductState.installedProductIsCurrent (entry : LiveFeedProductState)
    (installed : LiveFeedDurableInstalledProduct) : Bool :=
  entry.currentVersion = some installed.version &&
    entry.expectedStateSha256.all fun expected => installed.stateSha256 = expected

def LiveFeedProductState.durableApplicableDelta (entry : LiveFeedProductState) (product : String)
    (installed : Option LiveFeedDurableInstalledProduct) : Option DeltaRef :=
  if supportsDurableDelta product then
    installed.bind fun installed =>
      entry.deltaFromPrevious.filter fun delta =>
        installed.version = delta.fromVersion ∧ installed.stateSha256 = delta.fromStateSha256 ∧
          entry.currentVersion = some delta.toVersion
  else none

def LiveFeedProductState.durableFullPayloadRef (entry : LiveFeedProductState) (product : String) :
    Option PayloadRef :=
  if product = "obstacles" then entry.installStateRef
  else entry.stateRef.bind fun state =>
    if state.kind = some "nav_kv" then entry.installStateRef
    else entry.installStateRef.orElse fun _ => some state

/-- For other products the code panics. -/
def durableDeltaPayloadKind (product : String) : Option String :=
  match deltaPolicy product with
  | some .navKv => some "nav_kv_delta_xz"
  | some .recordJson => some "record_json_delta_xz"
  | _ => none

def installedByProduct (installed : List LiveFeedDurableInstalledProduct) (product : String) :
    Option LiveFeedDurableInstalledProduct :=
  installed.reverse.find? (·.product = product)

def installedByProductVersion (installed : List LiveFeedDurableInstalledProduct)
    (product version : String) : Option LiveFeedDurableInstalledProduct :=
  installed.reverse.find? fun state => state.product = product ∧ state.version = version

def nexradFrameWindowSize : Nat := nexradClientHistoryEntries + 1

section Durable

variable (s : LiveFeedsState) (installed : List LiveFeedDurableInstalledProduct)

def cacheRequest (id liveFeedRelativeUrl : String) (kind : LiveFeedCacheRequestKind) :
    Option LiveFeedCacheRequest :=
  (liveFeedUrl s liveFeedRelativeUrl).map fun url => { id, url, kind }

def cacheRequests (id liveFeedRelativeUrl : String) (kind : LiveFeedCacheRequestKind) :
    Option (List LiveFeedCacheRequest) :=
  (cacheRequest s id liveFeedRelativeUrl kind).map fun request => [request]

def versionRequests (product version : String) (url : Option String) :
    Option (List LiveFeedCacheRequest) :=
  match url with
  | none => some []
  | some url => cacheRequests s (versionResourceId product version) url (.version product version)

/-- What `append_durable_nexrad_request` appends for one frame. -/
def durableNexradRequests (product version : String) (versionManifest : Option VersionManifest)
    (versionManifestUrl : Option String) (fullRef : Option PayloadRef)
    (installProfile expectedStateSha256 : Option String) : Option (List LiveFeedCacheRequest) :=
  if (installedByProductVersion installed product version).any fun state =>
      expectedStateSha256.all fun expected => state.stateSha256 = expected then some []
  else if versionManifest.isNone then versionRequests s product version versionManifestUrl
  else
    match fullRef with
    | none => some []
    | some fullRef => cacheRequests s (fullResourceId product version) fullRef.url
        (.full product version fullRef.kind installProfile)

def profileOf (installProfileRefs : Std.ExtTreeMap String PayloadRef) (nexradProfile : String) :
    Option String :=
  installProfileRefs[nexradProfile]?.map fun _ => nexradProfile

def durableNexradProductRequests (nexradProfile product version : String)
    (entry : LiveFeedProductState) : Option (List LiveFeedCacheRequest) := do
  let current ← durableNexradRequests s installed product version entry.versionManifest
    entry.versionManifestUrl
    ((entry.installProfileRefs[nexradProfile]?.orElse fun _ => entry.installStateRef).orElse
      fun _ => entry.stateRef)
    (profileOf entry.installProfileRefs nexradProfile) entry.expectedStateSha256
  let retained := entry.history.drop (entry.history.length - (nexradFrameWindowSize - 1))
  let frames ← retained.mapM fun history =>
    durableNexradRequests s installed product history.version history.versionManifest
      history.versionManifestUrl
      ((history.installProfileRefs[nexradProfile]?.orElse fun _ => history.installStateRef).orElse
        fun _ => history.stateRef)
      (profileOf history.installProfileRefs nexradProfile) history.expectedStateSha256
  pure (current ++ frames.flatten)

def durableNotamRequests (product : String) (entry : LiveFeedProductState) :
    Option (List LiveFeedCacheRequest) :=
  match (installedByProduct installed product).bind fun state =>
      entry.notamDeltaFrom state.version with
  | some delta => cacheRequests s
      (deltaResourceId product delta.fromVersion delta.toVersion) delta.url
      (.delta product delta.fromVersion delta.toVersion delta.kind)
  | none =>
    match entry.stateRef with
    | none => some []
    | some state => cacheRequests s (fullResourceId product state.stateSha256) state.url
        (.full product state.stateSha256 state.kind none)

def durableStateRequests (product version : String) (entry : LiveFeedProductState) :
    Option (List LiveFeedCacheRequest) :=
  let fullRef := entry.durableFullPayloadRef product
  let delta :=
    if product = "winds-aloft" then none
    else (entry.durableApplicableDelta product (installedByProduct installed product)).filter
      fun delta => deltaIsPreferred delta fullRef
  match delta with
  | some delta => cacheRequests s
      (deltaResourceId product delta.fromVersion delta.toVersion) delta.url
      (.delta product delta.fromVersion delta.toVersion
        (delta.kind.orElse fun _ => durableDeltaPayloadKind product))
  | none =>
    match fullRef with
    | none => some []
    | some fullRef => cacheRequests s (fullResourceId product version) fullRef.url
        (.full product version fullRef.kind none)

/-- One round of the loop of `durable_missing_requests_with_nexrad_profile`. -/
def durableProductRequests (nexradProfile product : String) : Option (List LiveFeedCacheRequest) :=
  match s.products[product]? with
  | none => some []
  | some entry =>
    match entry.currentVersion with
    | none => some []
    | some version =>
      if product = "nexrad" then
        durableNexradProductRequests s installed nexradProfile product version entry
      else if (installedByProduct installed product).any entry.installedProductIsCurrent then some []
      else if entry.versionManifest.isNone then
        versionRequests s product version entry.versionManifestUrl
      else if product = "notams" then durableNotamRequests s installed product entry
      else durableStateRequests s installed product version entry

def durableMissingRequestsWithNexradProfile (nexradProfile : String) :
    Option (List LiveFeedCacheRequest) :=
  if s.catalogLoaded then
    ((sortDedup (s.products.toList.map Prod.fst)).mapM
      (durableProductRequests s installed nexradProfile)).map List.flatten
  else some []

def durableMissingRequests : Option (List LiveFeedCacheRequest) :=
  durableMissingRequestsWithNexradProfile s installed "offline_0"

end Durable

/-- Only manifests are taken in; the cache installs states. -/
def ingestDurableRequestResource (env : FeedEnv) (request : LiveFeedCacheRequest) (bytes : Bytes) :
    FeedM Unit :=
  match request.kind with
  | .version product version => ingestResource env (versionResourceId product version) bytes
  | .state product version => ingestResource env (stateResourceId product version) bytes
  | .full .. => pure ()
  | .delta .. => pure ()

end Aerobag.LiveFeed
