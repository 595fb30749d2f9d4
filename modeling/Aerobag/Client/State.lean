import Aerobag.Client.Account

/-!
# The state of the cloud engine (`app-core/src/cloud.rs`)

`CloudPersistentState` survives a restart, `CloudEngine` is a running client. Fields that only the
user interface reads are left out. The engine's `format` is the current one (`CloudEnv.format`).
-/

namespace Aerobag.Client

inductive CloudProviderErrorKind where
  | unauthorized
  | transient
  | permanent
  deriving DecidableEq, Repr

structure AcsCreateAccountRequest where
  contractId : String
  accountLocator : String
  signingKeyId : String
  signingPublicKeyBase64url : String
  creationChallenge : String
  deriving DecidableEq, Repr

inductive CloudProviderOperation where
  | acsIssueAccountChallenge
  | acsCreateAccount (request : AcsCreateAccountRequest)
  | acsCreateObject (objectId : String) (value : AcsEncryptedValue)
  | acsReadObject (id : String)
  | acsReadRoot
  | acsCompareAndSwapRoot (request : AcsCompareAndSwapRootRequest)
  | acsCreateSseTicket (lastEventSequence : Option Nat)
  deriving DecidableEq, Repr

structure CloudProviderRequest where
  requestId : Nat
  operation : CloudProviderOperation
  deriving DecidableEq, Repr

inductive CloudProviderResponse where
  | created
  | alreadyExists
  | acsCreationChallenge (contractId challenge : String) (expiresAtEpochMs : Int)
  | acsAccountCreated (contractId accountLocator : String)
  | acsObject (object : Option AcsObjectSnapshot)
  | acsRoot (root : Option AcsRootSnapshot)
  | acsRootCas (response : AcsCompareAndSwapRootResponse)
  | acsSseTicket (contractId ticket : String) (expiresAtEpochMs : Int) (eventsUrl : String)
  | error (kind : CloudProviderErrorKind) (detail : String) (retryAfterMs : Option Nat)
      (rateLimitGate : Option AcsRateLimitGate)
  deriving DecidableEq, Repr

structure VerifiedTip where
  nodeId : String
  nodeHash : String
  generation : Nat
  deriving DecidableEq, Repr

structure AcsAccountState where
  baseUrl : String
  accountLocator : String
  rootRevision : Nat
  rootHash : Option String
  lastEventSequence : Option Nat
  deriving DecidableEq, Repr

structure CloudAccount where
  rootSecretBase64 : String
  tip : Option VerifiedTip
  acs : Option AcsAccountState
  deriving DecidableEq, Repr

inductive PublicationPurpose where
  | createAccount
  | publish
  | upgrade
  deriving DecidableEq, Repr

structure StagedPublication where
  purpose : PublicationPurpose
  nodeId : String
  pageId : String
  nextSlotId : String
  pageBytesBase64 : String
  nodeBytesBase64 : String
  nodeHash : String
  merkleRootHash : String
  generation : Nat
  publishedAtEpochMs : Int
  localRevision : Nat
  deriving DecidableEq, Repr

inductive ReadPurpose where
  | link
  | poll
  | publishRace
  deriving DecidableEq, Repr

inductive CloudWorkflow where
  | acsCreateChallenge
  | acsCreateAccount (challenge : String)
  | acsCreatePage (staged : StagedPublication) (expectedRevision : Nat)
      (expectedRootHash : Option String)
  | acsCommitRoot (staged : StagedPublication) (expectedRevision : Nat)
      (expectedRootHash : Option String)
  | acsReadRoot (purpose : ReadPurpose)
  | acsReadPage (root : AcsRootSnapshot) (node : CloudNode) (purpose : ReadPurpose)
  | acsCreateSseTicket
  deriving DecidableEq, Repr

inductive CloudOnboardingIntent where
  | setupFromDevice
  | createAccount
  deriving DecidableEq, Repr

structure CloudProviderFailure where
  kind : CloudProviderErrorKind
  detail : String
  deriving DecidableEq, Repr

structure SynchronizedRecordStore (J : Type) where
  cached : RecordMap J
  pendingKeys : KeySet
  deferredAdoption : RecordMap J
  deriving DecidableEq

def cloudPersistenceVersion : Nat := 6

structure CloudPersistentState (J : Type) where
  version : Nat
  recordsFormat : Nat
  onboardingIntent : Option CloudOnboardingIntent
  account : Option CloudAccount
  workflow : Option CloudWorkflow
  records : SynchronizedRecordStore J
  /-- A `u64` that every local edit increments, and never reaches its end. -/
  localRevision : Nat
  nextRequestId : Nat
  lastPollEpochMs : Option Int
  nextRetryEpochMs : Option Int
  forcePoll : Bool
  lastProviderFailure : Option CloudProviderFailure
  deriving DecidableEq

def CloudPersistentState.default {J : Type} : CloudPersistentState J where
  version := cloudPersistenceVersion
  recordsFormat := cloudNodeVersion
  onboardingIntent := none
  account := none
  workflow := none
  records := ⟨∅, ∅, ∅⟩
  localRevision := 0
  nextRequestId := 1
  lastPollEpochMs := none
  nextRetryEpochMs := none
  forcePoll := false
  lastProviderFailure := none

inductive LinkedAccountDetail where
  | backupCode
  | addDevice
  | confirmUnlink
  | confirmUpgrade (source : Nat)
  deriving DecidableEq, Repr

structure CloudEventStreamPlan where
  streamId : Nat
  url : String
  connectTimeoutMs : Int
  idleTimeoutMs : Int
  deriving DecidableEq, Repr

structure CloudEngine (J : Type) where
  persistent : CloudPersistentState J
  observedRoot : Option ObservedRoot
  upgradeFrom : Option Nat
  providerRequestInFlight : Option CloudProviderRequest
  linkedAccountDetail : Option LinkedAccountDetail
  acsDefaultBaseUrl : Option String
  acsEventStreamPlan : Option CloudEventStreamPlan
  acsEventStreamConnected : Bool
  acsEventStreamNextRetryEpochMs : Option Int
  acsEventStreamConsecutiveFailures : Nat
  deriving DecidableEq

structure AcsIdentity where
  accountLocator : String
  signingPublicKeyBase64url : String
  signingKeyId : String
  deriving DecidableEq, Repr

structure DeviceSetupCode where
  rootSecret : Bytes
  baseUrl : String
  accountLocator : Bytes
  deriving DecidableEq, Repr

/-- Cryptography, JSON, flight plans of type `F`, and helpers for URLs, setup codes and requests. -/
structure CloudEnv (J F : Type) where
  primitives : Primitives
  codec : AccountCodec J
  /-- A `CloudEnvelope`: secret, nonce, role, associated data, value. -/
  encryptEnvelope : Bytes → Bytes → String → Bytes → J → Bytes
  /-- The value in a `CloudEnvelope`: secret, role, associated data, bytes. -/
  decryptEnvelope : Bytes → String → Bytes → Bytes → AppResult J
  flightPlanDefinition : F → F
  /-- The JSON value of a flight plan, and the plan of such a value. -/
  flightPlanToWire : F → J
  flightPlanFromWire : J → AppResult F
  deriveIdentity : Bytes → AppResult AcsIdentity
  decodeDeviceSetupCode : String → AppResult DeviceSetupCode
  validateBaseUrl : String → AppResult String
  resolveEventUrl : String → String → AppResult String
  /-- Whether `plan_request` gives a signed HTTP request at the given time. -/
  planRequest : CloudProviderRequest → AcsAccountState → Bytes → Int → AppResult Unit
  debugResponse : CloudProviderResponse → String

def CloudEnv.format {J F : Type} (env : CloudEnv J F) : AccountFormat J :=
  currentFormat env.primitives env.codec

/-- The identifier of a page and two encryption nonces. -/
structure StageEntropy where
  pageId : Bytes
  pageNonce : Bytes
  nodeNonce : Bytes
  deriving DecidableEq, Repr

structure CloudCompletion (J : Type) where
  changedRecords : RecordMap J
  deriving DecidableEq

end Aerobag.Client
