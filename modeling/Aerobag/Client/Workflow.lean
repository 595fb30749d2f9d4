import Aerobag.Client.Engine

/-!
# The synchronization workflow (`app-core/src/cloud.rs`)

What the engine asks the server for and does with the answers: it reads the root and its page,
reconciles the page with the local records, and publishes them on the root it has verified.
-/

namespace Aerobag.Client

open Command (attempt)

variable {J F : Type} [DecidableEq J] [DecidableEq F] (env : CloudEnv J F) (self : CloudEngine J)
  (root : AcsRootSnapshot) (staged : StagedPublication) (response : CloudProviderResponse)
  (nowEpochMs : Int) (entropy : StageEntropy) (node : CloudNode) (purpose : ReadPurpose)

def CloudEngine.encryptAcsValue (value : J) (role : String)
    (kind : AcsEncryptedValueKind) (valueId : String) (childObjectIds : List String)
    (nonce : Bytes) : AppResult AcsEncryptedValue := do
  let account ← self.account
  let secret ← accountSecret env account
  let aad ← acsEncryptedValueAssociatedData kind valueId childObjectIds
  return .fromCiphertext env.primitives (env.encryptEnvelope secret nonce role aad value)
    childObjectIds

def openAcsValue (secret : Bytes) (value : AcsEncryptedValue) (role : String)
    (kind : AcsEncryptedValueKind) (valueId : String) : AppResult J := do
  value.validate env.primitives
  let envelope ← value.ciphertext env.primitives
  let aad ← acsEncryptedValueAssociatedData kind valueId value.childObjectIds
  env.decryptEnvelope secret role aad envelope

def CloudEngine.decryptAcsValue (value : AcsEncryptedValue) (role : String)
    (kind : AcsEncryptedValueKind) (valueId : String) : AppResult J := do
  let account ← self.account
  let secret ← accountSecret env account
  openAcsValue env secret value role kind valueId

def CloudEngine.stageAcsPage (purpose : PublicationPurpose)
    (generation : Nat) (parent : Option VerifiedTip) (nowEpochMs : Int) (page : CloudPage J)
    (entropy : StageEntropy) : AppResult StagedPublication := do
  let P := env.primitives
  let pageId := P.base64UrlEncode entropy.pageId
  let pageJson ← env.format.current.encodePage page
  let pageValue ← self.encryptAcsValue env pageJson "merkle_page" .object pageId [] entropy.pageNonce
  let pageBytes ← pageValue.ciphertext P
  let pageHash ← pageValue.authenticatedHash P .object pageId
  let node : CloudNode :=
    { version := env.format.version
      generation := generation
      publishedAtEpochMs := some nowEpochMs
      parentNodeId := parent.map (·.nodeId)
      parentNodeHash := parent.map (·.nodeHash)
      merkleRootId := pageId
      merkleRootHash := pageHash
      nextSlotId := "" }
  let nodeValue ← self.encryptAcsValue env (env.codec.nodeToJson node) "state_node" .root
    acsFixedRootId [pageId] entropy.nodeNonce
  let nodeBytes ← nodeValue.ciphertext P
  let nodeHash ← nodeValue.authenticatedHash P .root acsFixedRootId
  return {
    purpose := purpose
    nodeId := acsFixedRootId
    pageId := pageId
    nextSlotId := ""
    pageBytesBase64 := P.base64UrlEncode pageBytes
    nodeBytesBase64 := P.base64UrlEncode nodeBytes
    nodeHash := nodeHash
    merkleRootHash := pageHash
    generation := generation
    publishedAtEpochMs := nowEpochMs
    localRevision := self.persistent.localRevision }

def CloudEngine.stageAcsPublication (purpose : PublicationPurpose)
    (generation : Nat) (parent : Option VerifiedTip) (nowEpochMs : Int) (entropy : StageEntropy) :
    AppResult StagedPublication :=
  self.stageAcsPage env purpose generation parent nowEpochMs
    (pageForRecords self.persistent.records.cached) entropy

/-- The known root, if one may publish on it. -/
def CloudEngine.verifiedAt (revision : Nat) (hash : Option String) : Bool :=
  self.observedRoot.any fun observed =>
    observed.version == env.format.version && observed.recordsVerified &&
      observed.matchesRoot revision hash

def CloudEngine.compatible : Bool :=
  self.observedRoot.all fun root => root.version == env.format.version

def CloudAccount.readPurpose (account : CloudAccount) : ReadPurpose :=
  if account.tip.isNone then .link else .poll

def setWorkflow (workflow : Option CloudWorkflow) (self : CloudEngine J) : CloudEngine J :=
  { self with persistent.workflow := workflow }

/-- The publishing part of `ensure_workflow`. -/
def startPublication : EngineM J Unit := do
  let self ← get
  let acs ← attempt (self.acs "Aerobag Cloud account configuration is missing")
  attempt (.rejectIf (¬ self.verifiedAt env acs.rootRevision acs.rootHash)
    "Cannot publish without a verified account format for this root")
  prepareLocalRecords env
  let self ← get
  let account ← attempt self.account
  let acs ← attempt (self.acs "ACS checked above")
  match account.tip with
  -- The source has `expect` here and for the configuration above.
  | none => throw "tip checked above"
  | some tip =>
    let staged ← attempt (self.stageAcsPublication env .publish (succU64 tip.generation) (some tip)
      nowEpochMs entropy)
    modify (setWorkflow (some (.acsCreatePage staged acs.rootRevision acs.rootHash)))

/-- The polling part of `ensure_workflow`. -/
def startPoll (account : CloudAccount) (nowEpochMs : Int) (self : CloudEngine J) : CloudEngine J :=
  let pollIntervalMs :=
    if self.compatible env && self.acsEventStreamConnected then acsCorrectnessPollIntervalMs
    else cloudPollIntervalMs
  let pollDue := self.persistent.forcePoll || self.persistent.lastPollEpochMs.all fun last =>
    decide (pollIntervalMs ≤ satAddI64 nowEpochMs (-last))
  if pollDue then
    setWorkflow (some (.acsReadRoot account.readPurpose))
      { self with persistent.forcePoll := false }
  else if self.acsEventStreamPlan.isNone &&
      self.acsEventStreamNextRetryEpochMs.all fun retry => decide (retry ≤ nowEpochMs) then
    setWorkflow (some .acsCreateSseTicket) self
  else self

def ensureWorkflow : EngineM J Unit := do
  let self ← get
  if self.persistent.workflow.isSome then
    return
  match self.persistent.account with
  | none => return
  | some account =>
    if self.observedRoot.all fun root =>
        root.version == env.format.version && !root.recordsVerified then
      modify (setWorkflow (some (.acsReadRoot account.readPurpose)))
    else if self.compatible env && !self.persistent.records.pendingKeys.isEmpty then
      startPublication env nowEpochMs entropy
    else
      modify (startPoll env account nowEpochMs)

def acsStagedPageValue : AppResult AcsEncryptedValue := do
  let P := env.primitives
  match P.base64UrlDecode staged.pageBytesBase64 with
  | none => .error "staged Aerobag Cloud page is not valid base64url"
  | some bytes =>
    let value := AcsEncryptedValue.fromCiphertext P bytes []
    let hash ← value.authenticatedHash P .object staged.pageId
    .rejectIf (hash ≠ staged.merkleRootHash) "staged Aerobag Cloud page hash changed"
    return value

def acsStagedRootValue : AppResult AcsEncryptedValue := do
  let P := env.primitives
  match P.base64UrlDecode staged.nodeBytesBase64 with
  | none => .error "staged Aerobag Cloud root is not valid base64url"
  | some bytes =>
    let value := AcsEncryptedValue.fromCiphertext P bytes [staged.pageId]
    let hash ← value.authenticatedHash P .root acsFixedRootId
    .rejectIf (hash ≠ staged.nodeHash) "staged Aerobag Cloud root hash changed"
    return value

def acsOfAccount (account : Option CloudAccount) : AppResult (CloudAccount × AcsAccountState) :=
  match account with
  | none => .error "Aerobag Cloud account is missing"
  | some account =>
    match account.acs with
    | none => .error "Aerobag Cloud configuration is missing"
    | some acs => .ok (account, acs)

def operationForWorkflow (workflow : CloudWorkflow) (account : Option CloudAccount) :
    AppResult CloudProviderOperation :=
  match workflow with
  | .acsCreateChallenge => .ok .acsIssueAccountChallenge
  | .acsCreateAccount challenge => do
    let (account, acs) ← acsOfAccount account
    let secret ← accountSecret env account
    let identity ← env.deriveIdentity secret
    return .acsCreateAccount
      { contractId := acsContractId
        accountLocator := acs.accountLocator
        signingKeyId := identity.signingKeyId
        signingPublicKeyBase64url := identity.signingPublicKeyBase64url
        creationChallenge := challenge }
  | .acsCreatePage staged _ _ => do
    let value ← acsStagedPageValue env staged
    return .acsCreateObject staged.pageId value
  | .acsCommitRoot staged expectedRevision expectedRootHash => do
    let value ← acsStagedRootValue env staged
    return .acsCompareAndSwapRoot ⟨expectedRevision, expectedRootHash, value⟩
  | .acsReadRoot _ => .ok .acsReadRoot
  | .acsReadPage _ node _ => .ok (.acsReadObject node.merkleRootId)
  | .acsCreateSseTicket => do
    let (_, acs) ← acsOfAccount account
    return .acsCreateSseTicket acs.lastEventSequence

/-- Whether a publication may be sent for the root it expects. -/
def CloudEngine.authorized
    (expectedRevision : Nat) (expectedRootHash : Option String) : Bool :=
  match staged.purpose with
  | .createAccount => expectedRevision == 0 && expectedRootHash.isNone
  | .publish => self.verifiedAt env expectedRevision expectedRootHash
  | .upgrade => self.observedRoot.any fun observed =>
      observed.matchesRoot expectedRevision expectedRootHash &&
        self.upgradeFrom == some observed.version && env.format.canUpgrade observed.version

def CloudEngine.checkAuthorized : CloudWorkflow → AppResult Unit
  | .acsCreatePage staged revision hash | .acsCommitRoot staged revision hash =>
    .rejectIf (¬ self.authorized env staged revision hash)
      "Cloud publication has no verified format or upgrade consent for its expected root"
  | _ => .ok ()

def CloudEngine.requestBlocked : Bool :=
  self.providerRequestInFlight.isSome || !self.providerReady ||
    self.persistent.lastProviderFailure.any (·.kind != .transient) ||
    self.persistent.nextRetryEpochMs.any fun retry => decide (nowEpochMs < retry)

/-- The request is returned before it is made an HTTP request. -/
def takeProviderRequest :
    EngineM J (Option CloudProviderRequest) := do
  let self ← get
  if self.currentProvider = .ok () ∧ ¬ self.requestBlocked nowEpochMs then
    ensureWorkflow env nowEpochMs entropy
    let self ← get
    match self.persistent.workflow with
    | none => return none
    | some workflow =>
      attempt (self.checkAuthorized env workflow)
      let operation ← attempt (operationForWorkflow env workflow self.persistent.account)
      let requestId := max self.persistent.nextRequestId 1
      modify fun self => { self with persistent.nextRequestId := requestId + 1 }
      let request : CloudProviderRequest := ⟨requestId, operation⟩
      let account ← attempt self.account
      let acs ← attempt (self.acs "Aerobag Cloud account configuration is missing")
      let secret ← attempt (accountSecret env account)
      attempt (env.planRequest request acs secret nowEpochMs)
      modify fun self => { self with providerRequestInFlight := some request }
      return some request
  else return none

def CloudEngine.remoteWins (key : String)
    (remote : CloudRecord J) : Bool :=
  let records := self.persistent.records
  (decide (purpose = .link) && !records.pendingKeys.contains key) ||
    records.cached[key]?.all fun mine =>
      compareCloudRecords env.primitives env.codec.toRecordCodec remote mine != .lt

/-- One record; `changed` collects those that are new here. -/
def reconcileRecord (changed : RecordMap J) (key : String)
    (remote : CloudRecord J) : EngineM J (RecordMap J) := do
  attempt (validateKnownRecord env.primitives env.codec.toRecordCodec key remote)
  let self ← get
  if self.remoteWins env purpose key remote then
    modify fun self => { self with
      persistent.records.cached := self.persistent.records.cached.insert key remote
      persistent.records.pendingKeys := self.persistent.records.pendingKeys.erase key }
    if purpose = .link ∨ self.persistent.records.cached[key]? ≠ some remote then
      return changed.insert key remote
    else return changed
  else
    modify fun self => { self with
      persistent.records.pendingKeys := self.persistent.records.pendingKeys.insert key }
    return changed

def reconcileRecords (purpose : ReadPurpose) :
    List (String × CloudRecord J) → RecordMap J → EngineM J (RecordMap J)
  | [], changed => return changed
  | (key, remote) :: rest, changed => do
    let changed ← reconcileRecord env purpose changed key remote
    reconcileRecords purpose rest changed

/-- Local keys that the page does not have are published next. -/
def keepLocalKeys (localKeys : List String) (page : RecordMap J) (self : CloudEngine J) :
    CloudEngine J :=
  { self with
    persistent.records.pendingKeys :=
      self.persistent.records.pendingKeys.insertMany
        (localKeys.filter fun key => !page.contains key) }

def reconcilePage (page : CloudPage J) (purpose : ReadPurpose) : EngineM J (CloudCompletion J) := do
  let localKeys := (← get).persistent.records.cached.keys
  let changed ← reconcileRecords env purpose page.records.toList ∅
  modify (keepLocalKeys localKeys page.records)
  return ⟨changed⟩

def validateAcsRootSnapshot : AppResult Unit := do
  .rejectIf (root.revision = 0) "Aerobag Cloud returned root revision zero"
  let hash ← root.value.authenticatedHash env.primitives .root acsFixedRootId
  .rejectIf (hash ≠ root.rootHash)
    ("Aerobag Cloud root hash mismatch: expected " ++ root.rootHash ++ ", got " ++ hash)

def validateAcsNode (currentTip : Option VerifiedTip)
    (purpose : ReadPurpose) : AppResult Unit := do
  .rejectIf (root.value.childObjectIds ≠ [node.merkleRootId])
    "Aerobag Cloud root does not describe one valid state page"
  match purpose, currentTip with
  | .link, _ | _, none => return
  | _, some tip =>
    .rejectIf (¬ (tip.nodeHash = root.rootHash ∧ tip.generation = node.generation) ∧
        node.generation ≤ tip.generation)
      "Aerobag Cloud root generation did not advance"

def unexpectedResponse {α : Type} (context : String) (response : CloudProviderResponse) :
    EngineM J α :=
  throw ("unexpected provider response for " ++ context ++ ": " ++ env.debugResponse response)

def noChange : CloudCompletion J := ⟨∅⟩

def finishPublication : EngineM J Unit := do
  setTip ⟨staged.nodeId, staged.nodeHash, staged.generation⟩
  modify fun self => { self with
    persistent.records.pendingKeys :=
      if staged.purpose ≠ .upgrade ∧ self.persistent.localRevision = staged.localRevision then ∅
      else self.persistent.records.pendingKeys
    persistent.workflow := none
    persistent.forcePoll := true
    upgradeFrom := if staged.purpose = .upgrade then none else self.upgradeFrom
    observedRoot := if staged.purpose = .upgrade then none else self.observedRoot }

def advanceCreateChallenge :
    EngineM J (CloudCompletion J) :=
  match response with
  | .acsCreationChallenge contractId challenge expiresAtEpochMs => do
    attempt (.rejectIf
      (contractId ≠ acsContractId ∨ Text.isBlank challenge ∨ expiresAtEpochMs ≤ nowEpochMs)
      "Aerobag Cloud returned an invalid account-creation challenge")
    modify (setWorkflow (some (.acsCreateAccount challenge)))
    return noChange
  | response => unexpectedResponse env "request ACS account challenge" response

def advanceCreateAccount : EngineM J (CloudCompletion J) :=
  match response with
  | .acsAccountCreated contractId accountLocator => do
    let self ← get
    let acs ← attempt (self.acs "Aerobag Cloud configuration is missing")
    attempt (.rejectIf (contractId ≠ acsContractId ∨ accountLocator ≠ acs.accountLocator)
      "Aerobag Cloud created a different account than requested")
    let staged ← attempt (self.stageAcsPublication env .createAccount 0 none nowEpochMs entropy)
    modify (setWorkflow (some (.acsCreatePage staged 0 none)))
    return noChange
  | response => unexpectedResponse env "create ACS account" response

def advanceCreatePage (expectedRevision : Nat)
    (expectedRootHash : Option String) (response : CloudProviderResponse) :
    EngineM J (CloudCompletion J) :=
  match response with
  | .created | .alreadyExists => do
    modify (setWorkflow (some (.acsCommitRoot staged expectedRevision expectedRootHash)))
    return noChange
  | response => unexpectedResponse env "create ACS state page" response

def advanceCommitRoot :
    EngineM J (CloudCompletion J) :=
  match response with
  | .acsRootCas (.committed root) => do
    attempt (validateAcsRootSnapshot env root)
    attempt (.rejectIf (root.rootHash ≠ staged.nodeHash)
      "Aerobag Cloud committed a different root than requested")
    updateAcs "Aerobag Cloud configuration is missing"
      fun acs => { acs with rootRevision := root.revision, rootHash := some root.rootHash }
    modify fun self => { self with
      observedRoot := some ⟨env.format.version, root.revision, staged.nodeHash, true⟩ }
    finishPublication staged
    return noChange
  | .acsRootCas (.conflict ..) => do
    modify fun self => { self with
      observedRoot := none
      persistent.workflow := some (.acsReadRoot .publishRace) }
    return noChange
  | response => unexpectedResponse env "commit ACS root" response

/-- A page of another format is only read with the user's consent to upgrade. -/
def CloudEngine.mayReadPage (version : Nat) : Bool :=
  version == env.format.version ||
    (self.upgradeFrom == some version && env.format.canUpgrade version)

def observeRoot (version : Nat) (root : AcsRootSnapshot) (nowEpochMs : Int)
    (self : CloudEngine J) : CloudEngine J :=
  { self with
    observedRoot := some ⟨version, root.revision, root.rootHash, false⟩
    persistent.lastPollEpochMs := some nowEpochMs }

/-- A root of the client's own format ends a pending upgrade. -/
def dropUpgrade : CloudEngine J :=
  { self with
    upgradeFrom := none
    linkedAccountDetail := match self.linkedAccountDetail with
      | some (.confirmUpgrade _) => none
      | detail => detail }

/-- `advance_workflow` for a new root in `AcsReadRoot`. -/
def readNewRoot (nowEpochMs : Int) :
    EngineM J (CloudCompletion J) := do
  let value ← attempt
    ((← get).decryptAcsValue env root.value "state_node" .root acsFixedRootId)
  let version ← attempt (readVersion env.codec value)
  modify (observeRoot version root nowEpochMs)
  if (← get).mayReadPage env version then
    modify fun self => if version = env.format.version then dropUpgrade self else self
    match env.format.find version with
    -- The source has `expect` here.
    | none => throw "format checked before body decoding"
    | some decoder =>
      let node ← attempt (decoder.decodeNode value)
      let account ← attempt (← get).account
      attempt (validateAcsNode root node account.tip purpose)
      modify (setWorkflow (some (.acsReadPage root node purpose)))
      return noChange
  else
    modify fun self => { self with upgradeFrom := none, persistent.workflow := none }
    return noChange

/-- Whether the root is the one that this device has verified. -/
def CloudEngine.rootUnchanged (acs : AcsAccountState)
    (root : AcsRootSnapshot) (purpose : ReadPurpose) : Bool :=
  self.upgradeFrom.isNone && self.verifiedAt env root.revision (some root.rootHash) &&
    acs.rootRevision == root.revision && acs.rootHash == some root.rootHash &&
    decide (purpose ≠ .link)

def advanceReadRoot (response : CloudProviderResponse)
    (nowEpochMs : Int) : EngineM J (CloudCompletion J) :=
  match response with
  | .acsRoot none => throw "The Sync Account has no published root"
  | .acsRoot (some root) => do
    attempt (validateAcsRootSnapshot env root)
    let self ← get
    let acs ← attempt (self.acs "Aerobag Cloud configuration is missing")
    if self.rootUnchanged env acs root purpose then
      modify fun self => { self with
        persistent.lastPollEpochMs := some nowEpochMs
        persistent.workflow := none }
      return noChange
    else readNewRoot env root purpose nowEpochMs
  | response => unexpectedResponse env "read ACS root" response

def tipOfNode : VerifiedTip :=
  ⟨acsFixedRootId, root.rootHash, node.generation⟩

/-- The migrated page is staged as the successor of its root. -/
def upgradePage (page : CloudPage J)
    (nowEpochMs : Int) (entropy : StageEntropy) : EngineM J (CloudCompletion J) := do
  let self ← get
  attempt (.rejectIf
    (¬ (self.upgradeFrom = some node.version ∧ env.format.canUpgrade node.version))
    "Account upgrade is not authorized")
  let records ← attempt (env.format.migrate node.version page.records)
  let staged ← attempt (self.stageAcsPage env .upgrade (succU64 node.generation)
    (some (tipOfNode root node)) nowEpochMs (pageForRecords records) entropy)
  modify (setWorkflow (some (.acsCreatePage staged root.revision (some root.rootHash))))
  return noChange

/-- The page is reconciled, and with that the observed root is verified. -/
def verifyPage (page : CloudPage J) (purpose : ReadPurpose) : EngineM J (CloudCompletion J) := do
  let completion ← reconcilePage env page purpose
  -- The source has `expect("root read before page")` for the observed root.
  modify fun self => { self with
    observedRoot := self.observedRoot.map fun observed => { observed with recordsVerified := true }
    persistent.forcePoll := self.persistent.forcePoll || !completion.changedRecords.isEmpty ||
      decide (purpose = .publishRace) }
  return completion

/-- A page of the client's own format becomes the state of this device. -/
def adoptPage (page : CloudPage J)
    (purpose : ReadPurpose) (nowEpochMs : Int) : EngineM J (CloudCompletion J) := do
  prepareLocalRecords env
  setTip (tipOfNode root node)
  updateAcs "Aerobag Cloud configuration is missing"
    fun acs => { acs with rootRevision := root.revision, rootHash := some root.rootHash }
  modify fun self => { self with
    persistent.lastPollEpochMs := some nowEpochMs
    persistent.workflow := none }
  verifyPage env page purpose

def CloudEngine.pageOfObject
    (object : AcsObjectSnapshot) : AppResult (CloudPage J) := do
  .rejectIf (object.objectId ≠ node.merkleRootId) "Aerobag Cloud returned the wrong state page"
  let actualHash ← object.value.authenticatedHash env.primitives .object object.objectId
  .rejectIf (actualHash ≠ node.merkleRootHash)
    ("Aerobag Cloud page hash mismatch: expected " ++ node.merkleRootHash ++ ", got " ++ actualHash)
  let value ← self.decryptAcsValue env object.value "merkle_page" .object object.objectId
  match env.format.find node.version with
  | none => .error "Account format changed during page read"
  | some decoder => decoder.decodePage value

def advanceReadPage
    (response : CloudProviderResponse) (nowEpochMs : Int) (entropy : StageEntropy) :
    EngineM J (CloudCompletion J) :=
  match response with
  | .acsObject none => throw ("Aerobag Cloud state page " ++ node.merkleRootId ++ " is missing")
  | .acsObject (some object) => do
    let page ← attempt ((← get).pageOfObject env node object)
    if node.version ≠ env.format.version then
      upgradePage env root node page nowEpochMs entropy
    else
      adoptPage env root node page purpose nowEpochMs
  | response => unexpectedResponse env "read ACS state page" response

def advanceCreateSseTicket :
    EngineM J (CloudCompletion J) :=
  match response with
  | .acsSseTicket contractId ticket expiresAtEpochMs eventsUrl => do
    attempt (.rejectIf
      (contractId ≠ acsContractId ∨ Text.isBlank ticket ∨ expiresAtEpochMs ≤ nowEpochMs)
      "Aerobag Cloud returned an invalid event-stream ticket")
    let acs ← attempt ((← get).acs "Aerobag Cloud configuration is missing")
    let streamId := max (← get).persistent.nextRequestId 1
    modify fun self => { self with persistent.nextRequestId := streamId + 1 }
    let url ← attempt (env.resolveEventUrl acs.baseUrl eventsUrl)
    modify fun self => { self with
      acsEventStreamPlan := some ⟨streamId, url, sseConnectTimeoutMs, sseIdleTimeoutMs⟩
      acsEventStreamConnected := false
      acsEventStreamNextRetryEpochMs := none
      persistent.workflow := none }
    return noChange
  | response => unexpectedResponse env "create ACS event ticket" response

def advanceWorkflow (workflow : CloudWorkflow) (response : CloudProviderResponse)
    (nowEpochMs : Int) (entropy : StageEntropy) : EngineM J (CloudCompletion J) :=
  match workflow with
  | .acsCreateChallenge => advanceCreateChallenge env response nowEpochMs
  | .acsCreateAccount _ => advanceCreateAccount env response nowEpochMs entropy
  | .acsCreatePage staged revision hash => advanceCreatePage env staged revision hash response
  | .acsCommitRoot staged _ _ => advanceCommitRoot env staged response
  | .acsReadRoot purpose => advanceReadRoot env purpose response nowEpochMs
  | .acsReadPage root node purpose =>
    advanceReadPage env root node purpose response nowEpochMs entropy
  | .acsCreateSseTicket => advanceCreateSseTicket env response nowEpochMs

def compactRetryDuration (retryAfterMs : Nat) : String :=
  let totalMinutes := max ((retryAfterMs + 59999) / 60000) 1
  let days := totalMinutes / (24 * 60)
  let hours := totalMinutes % (24 * 60) / 60
  let minutes := totalMinutes % 60
  if 0 < days then
    if 0 < hours then toString days ++ "d " ++ toString hours ++ "h" else toString days ++ "d"
  else if 0 < hours then
    if 0 < minutes then toString hours ++ "h " ++ toString minutes ++ "m"
    else toString hours ++ "h"
  else toString minutes ++ "m"

def cloudProviderFailureDetail (fallback : String) (gate : Option AcsRateLimitGate)
    (retryAfterMs : Option Nat) : String :=
  let retry := (retryAfterMs.map fun delay => " in " ++ compactRetryDuration delay).getD ""
  match gate with
  | some .accountCreationNetwork =>
    "This network has created several Sync Accounts recently. Try again" ++ retry ++ "."
  | some .accountCreationGlobal =>
    "Aerobag Cloud is temporarily limiting new Sync Accounts. Try again" ++ retry ++
      ". Existing accounts are unaffected."
  | _ => fallback

/-- `u64` delays that do not fit into `i64` are ignored. -/
def retryDelayMs (retryAfterMs : Option Nat) : Int :=
  match retryAfterMs with
  | some delay => if (delay : Int) ≤ i64Max then delay else cloudTransientRetryMs
  | none => cloudTransientRetryMs

/-- A challenge expires before a creation bucket refills. -/
def workflowAfterFailure (gate : Option AcsRateLimitGate) : Option CloudWorkflow →
    Option CloudWorkflow
  | some (.acsCreateAccount challenge) =>
    if gate = some .accountCreationNetwork ∨ gate = some .accountCreationGlobal then
      some .acsCreateChallenge
    else some (.acsCreateAccount challenge)
  | workflow => workflow

def providerFailed (kind : CloudProviderErrorKind) (detail : String) (retryAfterMs : Option Nat)
    (gate : Option AcsRateLimitGate) (nowEpochMs : Int) (self : CloudEngine J) : CloudEngine J :=
  let self := { self with
    persistent.lastProviderFailure :=
      some ⟨kind, cloudProviderFailureDetail detail gate retryAfterMs⟩
    persistent.workflow := workflowAfterFailure gate self.persistent.workflow }
  match kind with
  | .unauthorized | .permanent =>
    { self with
      persistent.nextRetryEpochMs := none
      acsEventStreamPlan := none
      acsEventStreamConnected := false
      acsEventStreamNextRetryEpochMs := none }
  | .transient =>
    { self with
      persistent.nextRetryEpochMs := some (satAddI64 nowEpochMs (retryDelayMs retryAfterMs)) }

/-- A response that is no error, for the workflow that asked for it. -/
def providerAnswered : EngineM J (CloudCompletion J) := do
  match (← get).persistent.workflow with
  | none =>
    modify (commitProviderCompletionFailure "cloud provider completed with no active workflow")
    return noChange
  | some workflow =>
    tryCatch (advanceWorkflow env workflow response nowEpochMs entropy) fun error => do
      modify (commitProviderCompletionFailure error)
      return noChange

def completeProviderRequest (requestId : Nat) (response : CloudProviderResponse)
    (nowEpochMs : Int) (entropy : StageEntropy) : EngineM J (CloudCompletion J) := do
  match (← get).providerRequestInFlight with
  | none => throw ("cloud provider response " ++ toString requestId ++
      " arrived with no request in flight")
  | some request =>
    attempt (.rejectIf (request.requestId ≠ requestId)
      ("cloud provider response " ++ toString requestId ++
        " does not match in-flight request " ++ toString request.requestId))
    modify fun self => { self with providerRequestInFlight := none }
    match response with
    | .error kind detail retryAfterMs gate =>
      modify (providerFailed kind detail retryAfterMs gate nowEpochMs)
      return noChange
    | response =>
      modify fun self => { self with
        persistent.lastProviderFailure := none
        persistent.nextRetryEpochMs := none }
      providerAnswered env response nowEpochMs entropy

end Aerobag.Client
