import Aerobag.Client.State
import Aerobag.Lib.Text
import Aerobag.Lib.Command

/-!
# The cloud engine (`app-core/src/cloud.rs`)

The methods of `CloudEngine` as commands on its state: a method that fails keeps the changes it has
made before. What a method draws at random is an argument.
-/

namespace Aerobag.Client

open Command (attempt)

def cloudPollIntervalMs : Int := 60000
def cloudTransientRetryMs : Int := 5000
def acsCorrectnessPollIntervalMs : Int := 30 * 60000
def sseConnectTimeoutMs : Int := 5000
def sseIdleTimeoutMs : Int := 65000
def sseReconnectInitialDelayMs : Int := 5000
def sseReconnectMaxDelayMs : Int := 65000

def reconnectDelayMs (consecutiveErrors : Nat) : Int :=
  (fun delay => min (min (delay * 2) i64Max) sseReconnectMaxDelayMs)^[consecutiveErrors - 1]
    sseReconnectInitialDelayMs

def succU64 (n : Nat) : Nat := min (n + 1) (2 ^ 64 - 1)

variable {J F : Type} [DecidableEq J] [DecidableEq F] (env : CloudEnv J F)

abbrev EngineM (J : Type) := EStateM String (CloudEngine J)

namespace CloudEngine

variable (self : CloudEngine J)

def account : AppResult CloudAccount :=
  match self.persistent.account with
  | some account => .ok account
  | none => .error "no cloud account is linked"

/-- `account.acs.as_ref().ok_or_else(..)`. -/
def acs (missing : String) : AppResult AcsAccountState := do
  let account ← self.account
  match account.acs with
  | some acs => .ok acs
  | none => .error missing

def currentProvider : AppResult Unit :=
  .rejectIf (self.persistent.account.isNone ∧ self.acsDefaultBaseUrl.isNone)
    "this build has no Aerobag Cloud server configured"

def requireUnlinkedAndIdle : AppResult Unit :=
  .rejectIf (self.persistent.account.isSome ∨ self.persistent.workflow.isSome)
    "unlink this device before changing Sync Account setup"

def hasLinkedAccount : Bool :=
  self.persistent.account.any fun account =>
    (account.tip.isSome || self.observedRoot.isSome) && account.acs.isSome

def requireLinkedAccount : AppResult Unit :=
  .rejectIf (¬ self.hasLinkedAccount) "no verified Sync Account is linked"

def providerReady : Bool :=
  (self.persistent.account.bind (·.acs)).isSome || self.acsDefaultBaseUrl.isSome

end CloudEngine

def decodeRootSecret (text : String) : AppResult Bytes :=
  match env.primitives.base64UrlDecode text with
  | none => .error "cloud root secret is not valid base64"
  | some secret =>
    if secret.length = 32 then .ok secret else .error "cloud root secret has the wrong size"

def accountSecret (account : CloudAccount) : AppResult Bytes :=
  decodeRootSecret env account.rootSecretBase64

/-- `account_mut()?.acs.as_mut().ok_or_else(..)?`, updated. -/
def updateAcs (missing : String) (update : AcsAccountState → AcsAccountState) : EngineM J Unit := do
  let self ← get
  let account ← attempt self.account
  let acs ← attempt (self.acs missing)
  modify fun self =>
    { self with persistent.account := some { account with acs := some (update acs) } }

def setTip (tip : VerifiedTip) : EngineM J Unit := do
  let account ← attempt (← get).account
  modify fun self => { self with persistent.account := some { account with tip := some tip } }

inductive CloudEventStreamEventKind where
  | connecting
  | connected
  /-- The data of the message, and what reading it as JSON gives. -/
  | message (data : Option (Except String AcsSseEvent))
  | error
  | closed
  | idleTimeout
  deriving DecidableEq

structure CloudEventStreamEvent where
  streamId : Nat
  kind : CloudEventStreamEventKind
  detail : Option String
  deriving DecidableEq

/-- Whether the root is read again whatever root the message names. -/
def forceRead : AcsSseEvent → Bool
  | .reset .. => true
  | .ready .. | .heartbeat .. | .rootChanged .. => false

/-- What `report_event_stream_event` does with a message that could be read. -/
def receiveMessage (message : AcsSseEvent) : EngineM J Unit := do
  let self ← get
  let acs ← attempt (self.acs "Aerobag Cloud configuration is missing")
  if acs.lastEventSequence.any fun sequence => decide (message.sequence ≤ sequence) then
    return
  updateAcs "Aerobag Cloud configuration is missing"
    fun acs => { acs with lastEventSequence := some message.sequence }
  modify fun self => { self with
    persistent.forcePoll := self.persistent.forcePoll || forceRead message ||
      message.rootRevision != acs.rootRevision || message.rootHash != acs.rootHash
    acsEventStreamConnected := true
    acsEventStreamConsecutiveFailures := 0
    acsEventStreamNextRetryEpochMs := none }

/-- The end of the stream: the plan is dropped and made again after `delay`. -/
def streamLost (detail : Option String) (idle : Bool) (nowEpochMs : Int) (self : CloudEngine J) :
    CloudEngine J :=
  let failures := min (self.acsEventStreamConsecutiveFailures + 1) (2 ^ 32 - 1)
  let delay := if idle then 0 else reconnectDelayMs failures
  { self with
    acsEventStreamPlan := none
    acsEventStreamConnected := false
    acsEventStreamConsecutiveFailures := failures
    acsEventStreamNextRetryEpochMs := some (satAddI64 nowEpochMs delay)
    persistent.lastProviderFailure := some
      ⟨.transient, detail.getD
        "Aerobag Cloud notification stream disconnected; synchronization will retry."⟩ }

def reportEventStreamEvent (event : CloudEventStreamEvent) (nowEpochMs : Int) :
    EngineM J Unit := do
  let self ← get
  if self.acsEventStreamPlan.all fun plan => plan.streamId != event.streamId then
    return
  match event.kind with
  | .connecting => return
  | .connected =>
    modify fun self => { self with
      acsEventStreamConnected := true
      acsEventStreamConsecutiveFailures := 0
      acsEventStreamNextRetryEpochMs := none
      persistent.forcePoll := true
      persistent.lastProviderFailure :=
        self.persistent.lastProviderFailure.filter fun failure => failure.kind != .transient }
  | .message none => throw "Aerobag Cloud event has no data"
  | .message (some (.error error)) => throw ("Aerobag Cloud event is invalid: " ++ error)
  | .message (some (.ok message)) => receiveMessage message
  | .error | .closed => modify (streamLost event.detail false nowEpochMs)
  | .idleTimeout => modify (streamLost event.detail true nowEpochMs)

def CloudEngine.nextRecordMutationEpochMs (self : CloudEngine J) (key : String)
    (nowEpochMs : I64) : I64 :=
  let records := self.persistent.records
  let times := (records.cached[key]?.toList ++ records.deferredAdoption[key]?.toList).filterMap
    (·.modifiedAtEpochMs)
  let latest := times.max?.getD legacyUnknownMutationEpochMs
  max nowEpochMs latest.succ

def recordLocalCloudRecord (key : String) (record : CloudRecord J) (self : CloudEngine J) :
    CloudEngine J :=
  let records := self.persistent.records
  { self with
    persistent.localRevision := self.persistent.localRevision + 1
    persistent.records :=
      { cached := records.cached.insert key record
        deferredAdoption := records.deferredAdoption.erase key
        pendingKeys :=
          if self.persistent.account.isSome then records.pendingKeys.insert key
          else records.pendingKeys } }

def existingRecord (family : RecordFamily) (key : String) : EngineM J (Option J) := do
  match (← get).persistent.records.cached[key]? with
  | none => return none
  | some record => some <$> attempt (record.decode env.codec.toRecordCodec family)

/-- An edit of a record with a time: an equal value changes nothing. -/
def recordLocalMutable (family : RecordFamily) (key : String) (value : J) (nowEpochMs : I64) :
    EngineM J Bool := do
  let existing ← existingRecord env family key
  if existing = some value then
    return false
  let modified := (← get).nextRecordMutationEpochMs key nowEpochMs
  let record ← attempt
    (CloudRecord.encode env.codec.toRecordCodec family value (some modified))
  modify (recordLocalCloudRecord key record)
  return true

def recordLocalInactivitySleepTimeout (timeout : J) (nowEpochMs : I64) : EngineM J Bool :=
  recordLocalMutable env .sleep inactivitySleepTimeoutRecordKey timeout nowEpochMs

def recordLocalNexradAcquisition (preferences : J) (nowEpochMs : I64) : EngineM J Bool :=
  recordLocalMutable env .nexrad nexradAcquisitionRecordKey preferences nowEpochMs

def recordLocalDebugFlag (flagId : String) (enabled : J) (nowEpochMs : I64) : EngineM J Bool :=
  recordLocalMutable env .debug (debugFlagRecordStart ++ flagId) enabled nowEpochMs

def recordLocalAircraftLibraryMembership (definitionHash : String) (membership : J)
    (nowEpochMs : I64) : EngineM J Bool := do
  attempt (validateAircraftDefinitionHash definitionHash)
  recordLocalMutable env .aircraftMembership (aircraftLibraryRecordStart ++ definitionHash)
    membership nowEpochMs

/-- The keys and selections of the two maps, regions before products. -/
def offlinePackageEntries (regions products : List (String × J)) : List (String × J) :=
  regions.map (fun entry => (offlinePackageRegionRecordStart ++ entry.1, entry.2)) ++
    products.map fun entry => (offlinePackageProductRecordStart ++ entry.1, entry.2)

/-- The loop of `record_local_offline_package_preferences`. -/
def recordPackageSelections (nowEpochMs : I64) : List (String × J) → Bool → EngineM J Bool
  | [], changed => return changed
  | (key, selection) :: entries, changed => do
    let recorded ← recordLocalMutable env .packageSelection key selection nowEpochMs
    recordPackageSelections nowEpochMs entries (changed || recorded)

def recordLocalOfflinePackagePreferences (regions products : List (String × J))
    (nowEpochMs : I64) : EngineM J Bool :=
  recordPackageSelections env nowEpochMs (offlinePackageEntries regions products) false

def cloudRecordForFlightPlan (plan : F) (modifiedAtEpochMs : I64) : AppResult (CloudRecord J) :=
  CloudRecord.encode env.codec.toRecordCodec .flightPlan (env.flightPlanToWire plan)
    (some modifiedAtEpochMs)

/-- The plan is compared with what it was, not with the record. -/
def recordLocalFlightPlanMutation (before after : F) (nowEpochMs : I64) : EngineM J Bool := do
  let before := env.flightPlanDefinition before
  let after := env.flightPlanDefinition after
  if before = after then
    return false
  let modified := (← get).nextRecordMutationEpochMs flightPlanRecordKey nowEpochMs
  let record ← attempt (cloudRecordForFlightPlan env after modified)
  modify (recordLocalCloudRecord flightPlanRecordKey record)
  return true

/-- A definition is stored under its hash, without a time. -/
def recordLocalAircraftDefinition (definition : J) : EngineM J Bool := do
  -- `content_hash` validates the definition before hashing it.
  let _ ← attempt (env.codec.normalize .aircraft definition)
  let hash := contentHash env.primitives env.codec.toRecordCodec definition
  attempt (validateAircraftDefinitionHash hash)
  let key := aircraftDefinitionKeyStart ++ hash
  let record ← attempt (CloudRecord.encode env.codec.toRecordCodec .aircraft definition none)
  if (← get).persistent.records.cached[key]? = some record then
    return false
  modify (recordLocalCloudRecord key record)
  return true

def recordServiceRead (id : String) : EngineM J Bool := do
  let record ← attempt
    (CloudRecord.encode env.codec.toRecordCodec .serviceReceipt env.codec.jsonTrue none)
  let key := serviceReceiptStart ++ id
  attempt (validateKnownRecord env.primitives env.codec.toRecordCodec key record)
  if (← get).persistent.records.cached.contains key then
    return false
  modify (recordLocalCloudRecord key record)
  return true

/-- The edits that the session makes. -/
inductive LocalEdit (J F : Type) where
  | flightPlan (before after : F)
  | offlinePackagePreferences (regions products : List (String × J))
  | inactivitySleepTimeout (timeout : J)
  | nexradAcquisition (preferences : J)
  | debugFlag (flagId : String) (enabled : J)
  | aircraftDefinition (definition : J)
  | aircraftLibraryMembership (definitionHash : String) (membership : J)
  | serviceRead (id : String)

def recordLocalEdit (edit : LocalEdit J F) (nowEpochMs : I64) : EngineM J Bool :=
  match edit with
  | .flightPlan before after => recordLocalFlightPlanMutation env before after nowEpochMs
  | .offlinePackagePreferences regions products =>
    recordLocalOfflinePackagePreferences env regions products nowEpochMs
  | .inactivitySleepTimeout timeout => recordLocalInactivitySleepTimeout env timeout nowEpochMs
  | .nexradAcquisition preferences => recordLocalNexradAcquisition env preferences nowEpochMs
  | .debugFlag flagId enabled => recordLocalDebugFlag env flagId enabled nowEpochMs
  | .aircraftDefinition definition => recordLocalAircraftDefinition env definition
  | .aircraftLibraryMembership definitionHash membership =>
    recordLocalAircraftLibraryMembership env definitionHash membership nowEpochMs
  | .serviceRead id => recordServiceRead env id

def flightPlanFromRecord (record : CloudRecord J) : AppResult F := do
  let wire ← record.decode env.codec.toRecordCodec .flightPlan
  env.flightPlanFromWire wire

def setPendingRemoteFlightPlan (plan : F) : EngineM J Unit := do
  let record := (← get).persistent.records.cached[flightPlanRecordKey]?.filter fun record =>
    (flightPlanFromRecord env record).toOption = some plan
  match record with
  | none => throw "remote flight-plan completion did not match the reconciled record"
  | some record => modify fun self => { self with
      persistent.records.deferredAdoption :=
        self.persistent.records.deferredAdoption.insert flightPlanRecordKey record }

/-- `take_pending_remote_flight_plan`, without the plan that is returned. -/
def takePendingRemoteFlightPlan (self : CloudEngine J) : CloudEngine J :=
  { self with persistent.records.deferredAdoption :=
      self.persistent.records.deferredAdoption.erase flightPlanRecordKey }

inductive CloudAction where
  | beginSetupFromDevice
  | beginCreateAccount
  | backSetup
  | createAccount
  | acceptDeviceSetupCode (setupCode : String)
  | backUpDeviceSetupCode
  | addAnotherDevice
  | closeLinkedAccountDetail
  | beginUnlinkDevice
  | confirmUnlinkDevice
  | beginAccountUpgrade
  | confirmAccountUpgrade
  | syncNow
  deriving DecidableEq, Repr

def resetSyncActivity (self : CloudEngine J) : CloudEngine J :=
  { self with
    observedRoot := none
    upgradeFrom := none
    persistent.lastPollEpochMs := none
    persistent.forcePoll := false
    acsEventStreamPlan := none
    acsEventStreamConnected := false
    acsEventStreamNextRetryEpochMs := none
    acsEventStreamConsecutiveFailures := 0 }

def CloudEngine.upgradeableAccountFormat (self : CloudEngine J) : AppResult Nat :=
  match (self.observedRoot.map (·.version)).filter env.format.canUpgrade with
  | none => .error "This client has no migration for the account's format"
  | some version => do
    .rejectIf self.upgradeFrom.isSome "Account upgrade is already in progress"
    return version

def beginSetup (intent : CloudOnboardingIntent) : EngineM J Unit := do
  attempt (← get).requireUnlinkedAndIdle
  modify fun self => { self with
    persistent.onboardingIntent := some intent
    persistent.lastProviderFailure := none }

/-- `CloudAction::BackSetup`: drops the account that is being set up, or the intent. -/
def backSetup : EngineM J Unit := do
  let self ← get
  attempt (.rejectIf (self.persistent.account.any (·.tip.isSome))
    "unlink this device before starting over")
  attempt (.rejectIf self.persistent.onboardingIntent.isNone "cloud setup has no earlier step")
  modify fun self => { self with
    persistent.account := none
    persistent.onboardingIntent :=
      if self.persistent.account.isSome then self.persistent.onboardingIntent else none
    persistent.workflow := none
    persistent.records.pendingKeys := ∅
    persistent.records.deferredAdoption := ∅
    persistent.lastProviderFailure := none
    providerRequestInFlight := none
    linkedAccountDetail := none }

def newAccount (rootSecret : Bytes) (baseUrl accountLocator : String) : CloudAccount where
  rootSecretBase64 := env.primitives.base64UrlEncode rootSecret
  tip := none
  acs := some
    { baseUrl := baseUrl
      accountLocator := accountLocator
      rootRevision := 0
      rootHash := none
      lastEventSequence := none }

/-- The time of a new account's flight plan: the record's if it has the plan. -/
def CloudEngine.firstFlightPlanEpochMs (self : CloudEngine J) (plan : F) (nowEpochMs : I64) :
    I64 :=
  (self.persistent.records.cached[flightPlanRecordKey]?.bind fun record =>
    if (flightPlanFromRecord env record).toOption = some plan then
      record.modifiedAtEpochMs.filter (· ≠ legacyUnknownMutationEpochMs)
    else none).getD nowEpochMs

def createAccount (currentPlan : F) (secret : Bytes) (nowEpochMs : I64) : EngineM J Unit := do
  let self ← get
  attempt self.requireUnlinkedAndIdle
  attempt (.rejectIf (self.persistent.onboardingIntent ≠ some .createAccount)
    "choose to create a Sync Account before creating it")
  match self.acsDefaultBaseUrl with
  | none => throw "this build has no Aerobag Cloud server configured"
  | some baseUrl =>
    let identity ← attempt (env.deriveIdentity secret)
    modify resetSyncActivity
    modify fun self =>
      { self with persistent.account := some (newAccount env secret baseUrl identity.accountLocator) }
    let plan := env.flightPlanDefinition currentPlan
    let modified := (← get).firstFlightPlanEpochMs env plan nowEpochMs
    let record ← attempt (cloudRecordForFlightPlan env plan modified)
    modify fun self =>
      let cached := self.persistent.records.cached.insert flightPlanRecordKey record
      { self with
        persistent.records.cached := cached
        persistent.records.pendingKeys := .ofList cached.keys
        persistent.workflow := some .acsCreateChallenge
        persistent.lastProviderFailure := none }

def acceptDeviceSetupCode (setupCode : String) : EngineM J Unit := do
  let self ← get
  attempt (.rejectIf self.persistent.workflow.isSome "cloud synchronization is already busy")
  attempt (.rejectIf self.persistent.account.isSome
    "unlink this device before accepting another device setup code")
  let payload ← attempt (env.decodeDeviceSetupCode setupCode)
  let baseUrl ← attempt (env.validateBaseUrl payload.baseUrl)
  let identity ← attempt (env.deriveIdentity payload.rootSecret)
  let encodedLocator := env.primitives.base64UrlEncode payload.accountLocator
  attempt (.rejectIf (identity.accountLocator ≠ encodedLocator)
    "Device Setup Code account locator does not match its root secret")
  modify resetSyncActivity
  modify fun self => { self with
    persistent.onboardingIntent := some .setupFromDevice
    persistent.account := some (newAccount env payload.rootSecret baseUrl encodedLocator)
    persistent.records.pendingKeys := ∅
    persistent.records.deferredAdoption := ∅
    persistent.workflow := some (.acsReadRoot .link)
    persistent.lastProviderFailure := none }

def confirmUnlinkDevice : EngineM J Unit := do
  let self ← get
  attempt self.requireLinkedAccount
  attempt (.rejectIf (self.linkedAccountDetail ≠ some .confirmUnlink)
    "confirm unlink before deleting this device's copy")
  modify fun self => { self with
    persistent.account := none
    persistent.onboardingIntent := none
    persistent.workflow := none
    persistent.records.pendingKeys := ∅
    persistent.records.deferredAdoption := ∅
    persistent.lastProviderFailure := none }
  modify resetSyncActivity
  modify fun self => { self with
    providerRequestInFlight := none
    linkedAccountDetail := none }

def openLinkedAccountDetail (detail : LinkedAccountDetail) : EngineM J Unit := do
  attempt (← get).requireLinkedAccount
  modify fun self => { self with linkedAccountDetail := some detail }

def confirmAccountUpgrade : EngineM J Unit := do
  let self ← get
  let source ← attempt (self.upgradeableAccountFormat env)
  attempt (.rejectIf (self.linkedAccountDetail ≠ some (.confirmUpgrade source))
    "Review the account upgrade before confirming it")
  modify fun self => { self with
    upgradeFrom := some source
    linkedAccountDetail := none
    persistent.forcePoll := true
    persistent.lastProviderFailure := none }

/-- `perform_action_at`; `secret` is drawn for a new account. -/
def performAction (action : CloudAction) (currentPlan : F) (secret : Bytes) (nowEpochMs : I64) :
    EngineM J Unit :=
  match action with
  | .beginSetupFromDevice => beginSetup .setupFromDevice
  | .beginCreateAccount => beginSetup .createAccount
  | .backSetup => backSetup
  | .createAccount => createAccount env currentPlan secret nowEpochMs
  | .acceptDeviceSetupCode setupCode => acceptDeviceSetupCode env setupCode
  | .backUpDeviceSetupCode => openLinkedAccountDetail .backupCode
  | .addAnotherDevice => openLinkedAccountDetail .addDevice
  | .closeLinkedAccountDetail => modify fun self => { self with linkedAccountDetail := none }
  | .beginUnlinkDevice => openLinkedAccountDetail .confirmUnlink
  | .confirmUnlinkDevice => confirmUnlinkDevice
  | .syncNow => modify fun self => { self with
      persistent.forcePoll := true
      persistent.nextRetryEpochMs := none
      persistent.lastProviderFailure := none }
  | .beginAccountUpgrade => do
    let source ← attempt ((← get).upgradeableAccountFormat env)
    modify fun self => { self with linkedAccountDetail := some (.confirmUpgrade source) }
  | .confirmAccountUpgrade => confirmAccountUpgrade env

/-- Local records of an older format are migrated, then all are checked. -/
def prepareLocalRecords : EngineM J Unit := do
  let self ← get
  let records := self.persistent.records
  let source := self.persistent.recordsFormat
  if source ≠ env.format.version then
    let cached ← attempt (env.format.migrate source records.cached)
    let deferred ← attempt (env.format.migrate source records.deferredAdoption)
    attempt (validateCloudRecords env.primitives env.codec.toRecordCodec cached)
    attempt (validateCloudRecords env.primitives env.codec.toRecordCodec deferred)
    modify fun self => { self with
      persistent.records :=
        { cached := cached
          deferredAdoption := deferred
          pendingKeys := records.pendingKeys.filter cached.contains }
      persistent.recordsFormat := env.format.version
      persistent.lastProviderFailure := none
      persistent.nextRetryEpochMs := none
      persistent.forcePoll := self.persistent.account.isSome }
  attempt (validateCloudRecords env.primitives env.codec.toRecordCodec
    (← get).persistent.records.cached)

def commitProviderCompletionFailure (error : String) (self : CloudEngine J) : CloudEngine J :=
  { self with
    upgradeFrom := none
    persistent.workflow := none
    persistent.nextRetryEpochMs := none
    persistent.lastProviderFailure := some ⟨.permanent, error⟩
    acsEventStreamPlan := none
    acsEventStreamConnected := false
    acsEventStreamNextRetryEpochMs := none }

/-- What a restart makes of a workflow: only the first publication of an account goes on as it is.
-/
def resumedWorkflow : CloudWorkflow → CloudWorkflow
  | .acsCreatePage staged revision hash =>
    match staged.purpose with
    | .publish | .upgrade => .acsReadRoot .poll
    | .createAccount => .acsCreatePage staged revision hash
  | .acsCommitRoot staged revision hash =>
    match staged.purpose with
    | .publish | .upgrade => .acsReadRoot .poll
    | .createAccount => .acsCommitRoot staged revision hash
  | .acsReadPage _ _ purpose => .acsReadRoot purpose
  | workflow => workflow

variable (persistent : CloudPersistentState J)

/-- The persisted state of a new process, before the records are checked. -/
def CloudPersistentState.resumed :
    CloudPersistentState J :=
  let old := persistent.version < 3
  let tipKnown := persistent.account.any (·.tip.isSome)
  let workflow := persistent.workflow.map resumedWorkflow
  { persistent with
    version := cloudPersistenceVersion
    records := if old then { persistent.records with pendingKeys := ∅, deferredAdoption := ∅ }
      else persistent.records
    forcePoll := if tipKnown then true else if old then persistent.account.isSome
      else persistent.forcePoll
    workflow := if tipKnown ∧ workflow = some .acsCreateSseTicket then some (.acsReadRoot .poll)
      else workflow }

def CloudEngine.resume : CloudEngine J where
  persistent := persistent.resumed
  observedRoot := none
  upgradeFrom := none
  providerRequestInFlight := none
  linkedAccountDetail := none
  acsDefaultBaseUrl := none
  acsEventStreamPlan := none
  acsEventStreamConnected := false
  acsEventStreamNextRetryEpochMs := none
  acsEventStreamConsecutiveFailures := 0

def CloudEngine.new : CloudEngine J :=
  match (prepareLocalRecords env).run (.resume persistent) with
  | .ok _ self => self
  | .error error self => commitProviderCompletionFailure error self

def setAcsDefaultBaseUrl (baseUrl : Option String) : EngineM J Unit := do
  match baseUrl with
  | none => modify fun self => { self with acsDefaultBaseUrl := none }
  | some baseUrl =>
    let valid ← attempt (env.validateBaseUrl baseUrl)
    modify fun self => { self with acsDefaultBaseUrl := some valid }

end Aerobag.Client
