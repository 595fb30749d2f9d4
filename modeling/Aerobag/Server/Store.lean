import Aerobag.Server.Limits
import Mathlib.Data.String.Basic

/-!
# Store operations (`aerobag-cloud-server/src/store.rs`)

Each definition is the body of one transaction, or of one piece of work on the blob files;
`Aerobag.Server.System` interleaves them. A transaction returns its result with the database that is
committed, also where the code commits before an error. `egress` is `admit_egress`. Statement
failures and metrics are left out.
-/

namespace Aerobag.Server

/-- The fields of the store's configuration that the modelled functions read. -/
structure StoreConfig where
  inlineThresholdBytes : Nat
  globalStorageLimitBytes : Nat
  eventRetention : Nat
  anonymousQuotaBytes : Nat
  anonymousObjectLimit : Nat
  filesystemFreeBytesCritical : Nat
  accountOperationBucket : TokenBucketConfig
  accountIngressBucket : TokenBucketConfig

/-- A configuration with small limits, for evaluating runs. -/
def StoreConfig.small : StoreConfig where
  inlineThresholdBytes := 4
  globalStorageLimitBytes := 100000
  eventRetention := 4
  anonymousQuotaBytes := 10000
  anonymousObjectLimit := 10
  filesystemFreeBytesCritical := 1
  accountOperationBucket := ⟨10, 10, 1⟩
  accountIngressBucket := ⟨1000, 1000, 1⟩

def enforceMode (mode : AccountMode) (write : Bool) (subject : String) : StoreResult Unit :=
  match mode, write with
  | .normal, _ => .ok ()
  | .readOnly, false => .ok ()
  | .readOnly, true => .error (.new .readOnly (subject ++ " is read-only"))
  | .suspended, _ => .error (.new .accountSuspended (subject ++ " is suspended"))

variable (db : Database) (accountLocator : String) (P : Primitives) (cfg : StoreConfig)

/-- `ensure_account_readable` and `ensure_account_writeable`. -/
def ensureAccountMode (write : Bool) :
    StoreResult Unit := do
  enforceMode db.serviceMode write "service"
  match db.accounts.get? accountLocator with
  | none => throw (.new .notFound "cloud account does not exist")
  | some account => enforceMode account.mode write "account"

def ensureAccountReadable : StoreResult Unit :=
  ensureAccountMode db accountLocator false

def ensureAccountWriteable : StoreResult Unit :=
  ensureAccountMode db accountLocator true

def setServiceMode (mode : AccountMode) : Database := { db with serviceMode := mode }

/-- With the file system's free space as a parameter. -/
def ensureNewStorageWrite (db : Database) (filesystemFreeBytes : Nat) :
    StoreResult Unit × Database :=
  match enforceMode db.serviceMode true "service" with
  | .error e => (.error e, db)
  | .ok () =>
    if filesystemFreeBytes ≥ cfg.filesystemFreeBytesCritical then (.ok (), db)
    else (.error (.new .readOnly "cloud service stopped writes before filesystem exhaustion"),
      setServiceMode db .readOnly)

/-- `UPDATE accounts SET stored_bytes = …, object_count = …`. -/
def Database.adjustUsage (stored count : Int → Int) :
    Database :=
  { db with
    accounts := db.accounts.updateWhere (fun account => account.accountLocator = accountLocator)
      (fun account => { account with
        storedBytes := stored account.storedBytes
        objectCount := count account.objectCount })
      fun _ => rfl }

/-- `SELECT COALESCE(SUM(stored_bytes), 0)` as `u64`; `SUM` fails outside the integer range. -/
def sumStoredBytes : StoreResult Nat :=
  let sum := db.accounts.total AccountRow.storedBytes
  if sum > i64Max then .error (.sqlite "integer overflow") else readU64 sum

def quotaExceeded : StoreError :=
  .new .quotaExceeded "cloud account storage quota is exceeded"

def storageCeilingReached : StoreError :=
  .new .readOnly "cloud service storage ceiling is reached"

def reserveAccountUsage (ciphertextBytes : Nat)
    (globalLimit : Nat) : StoreResult Database :=
  match db.accounts.get? accountLocator with
  | none => .error (.sqlite "Query returned no rows")
  | some account => do
    let storedBytes ← readU64 account.storedBytes
    let objectCount ← readU64 account.objectCount
    .rejectIf (satAdd storedBytes ciphertextBytes > account.quotaBytes ∨
        satAdd objectCount 1 > account.objectLimit)
      quotaExceeded
    let globalBytes ← sumStoredBytes db
    .rejectIf (satAdd globalBytes ciphertextBytes > globalLimit) storageCeilingReached
    return db.adjustUsage accountLocator (· + ciphertextBytes) (· + 1)

def replaceAccountRootUsage
    (previousBytes replacementBytes : Nat) (globalLimit : Nat) : StoreResult Database :=
  match db.accounts.get? accountLocator with
  | none => .error (.sqlite "Query returned no rows")
  | some account => do
    let storedBytes ← readU64 account.storedBytes
    let replacementTotal := satAdd (storedBytes - previousBytes) replacementBytes
    .rejectIf (replacementTotal > account.quotaBytes) quotaExceeded
    let globalBytes ← sumStoredBytes db
    .rejectIf (satAdd (globalBytes - previousBytes) replacementBytes > globalLimit)
      storageCeilingReached
    return db.adjustUsage accountLocator (fun _ => replacementTotal) id

def releaseAccountUsage
    (ciphertextBytes objectCount : Nat) : Database :=
  db.adjustUsage accountLocator (fun stored => max (stored - ciphertextBytes) 0)
    fun count => max (count - objectCount) 0

/-- The storage ceiling makes the service read-only. -/
def afterUsageError (e : StoreError) : Database :=
  if e.code = .readOnly then setServiceMode db .readOnly else db

/-- Every child is the id of a `ready` object of the account. -/
def ensureChildrenExist (children : List String) :
    StoreResult Unit := do
  children.forM fun child => validateOpaqueId child "child object ID"
  let existing := (db.objects.rows.filter fun row =>
    row.accountLocator = accountLocator && row.state = .ready).map ObjectRow.objectId
  children.forM fun child =>
    if existing.contains child then .ok ()
    else .error (.new .missingChildObject
      ("referenced child object \"" ++ child ++ "\" does not exist"))

/-- What `create_object` computes before its transaction. -/
structure PreparedObject where
  objectId : String
  ciphertext : Bytes
  ciphertextSha256 : String
  childObjectIds : List String
  storageBytes : Nat
  authenticatedHash : String

def invalidRequest {α : Type} (result : Except String α) : StoreResult α :=
  result.mapError (.new .invalidRequest)

def prepareObject (objectId : String) (value : AcsEncryptedValue) :
    StoreResult PreparedObject := do
  invalidRequest (value.validate P)
  validateOpaqueId objectId "object ID"
  let ciphertext ← invalidRequest (value.ciphertext P)
  let storageBytes :=
    objectStorageBytes objectId ciphertext.length (childrenJson value.childObjectIds)
  let authenticatedHash ← invalidRequest (value.authenticatedHash P .object objectId)
  return { objectId, ciphertext, ciphertextSha256 := value.ciphertextSha256,
           childObjectIds := value.childObjectIds, storageBytes, authenticatedHash }

def PreparedObject.row (object : PreparedObject) (accountLocator : String) (state : ObjectState)
    (placement : Placement) (nowEpochMs : Int) : ObjectRow where
  accountLocator := accountLocator
  objectId := object.objectId
  authenticatedHash := object.authenticatedHash
  ciphertextSha256 := object.ciphertextSha256
  ciphertextBytes := object.ciphertext.length
  childObjectIds := object.childObjectIds
  state := state
  placement := placement
  createdAtEpochMs := nowEpochMs

/-- The end of the call, or a pending row whose blob is to be written. -/
inductive CreateObjectProgress where
  | done (outcome : AcsCreateObjectOutcome)
  | pending (blobStorageKey : String)
  deriving DecidableEq, Repr

def createObjectTransaction (db : Database)
    (accountLocator : String) (object : PreparedObject) (nowEpochMs : Int) :
    StoreResult CreateObjectProgress × Database :=
  match ensureAccountWriteable db accountLocator with
  | .error e => (.error e, db)
  | .ok () =>
    match db.objects.get? (accountLocator, object.objectId) with
    | some existing =>
      if existing.authenticatedHash = object.authenticatedHash then
        (.ok (.done .alreadyExists), db)
      else (.error (.new .objectIdCollision
        "object ID already contains different authenticated data"), db)
    | none =>
      match ensureChildrenExist db accountLocator object.childObjectIds with
      | .error e => (.error e, db)
      | .ok () =>
        match reserveAccountUsage db accountLocator object.storageBytes
            cfg.globalStorageLimitBytes with
        | .error e => (.error e, afterUsageError db e)
        | .ok db =>
          if object.ciphertext.length ≤ cfg.inlineThresholdBytes then
            let row := object.row accountLocator .ready (.inlineCiphertext object.ciphertext)
              nowEpochMs
            (.ok (.done .created), { db with objects := db.objects.insert row })
          else
            let key := blobStorageKey P accountLocator object.objectId object.ciphertextSha256
            let row := object.row accountLocator .pending (.blobStorageKey key) nowEpochMs
            (.ok (.pending key), { db with objects := db.objects.insert row })

def markReady (accountLocator objectId : String) : Database :=
  { db with
    objects := db.objects.updateWhere
      (fun row => row.key = (accountLocator, objectId) && row.state = .pending)
      ObjectRow.madeReady ObjectRow.key_madeReady }

def deletePending (accountLocator objectId : String) : Database :=
  { db with
    objects := db.objects.deleteWhere
      fun row => row.key = (accountLocator, objectId) && row.state = .pending }

/-- `remove_pending_object`, after a blob that could not be written. -/
def removePendingObject (accountLocator objectId : String)
    (storageBytes : Nat) : Database :=
  releaseAccountUsage (deletePending db accountLocator objectId) accountLocator storageBytes 1

/-- A blob file. Nothing reads temporary files. -/
structure BlobFile where
  key : String
  bytes : Bytes
  modifiedEpochMs : Int
  deriving DecidableEq, Repr

abbrev BlobFiles := Table BlobFile.key

/-- With the time of a new file. A file that is there is kept. -/
def writeBlob (files : BlobFiles) (key : String) (bytes : Bytes) (modifiedEpochMs : Int) :
    StoreResult BlobFiles :=
  match files.get? key with
  | some existing =>
    if existing.bytes = bytes then .ok files else .error (.internal "blob storage key collision")
  | none => .ok (files.insert ⟨key, bytes, modifiedEpochMs⟩)

def readPlacedCiphertext (files : BlobFiles) : Placement → StoreResult Bytes
  | .inlineCiphertext bytes => .ok bytes
  | .blobStorageKey key =>
    match files.get? key with
    | some file => .ok file.bytes
    | none => .error (.io "read cloud blob" "No such file or directory")

/-- `read_object`, up to the response's admission. -/
def readObject (db : Database) (files : BlobFiles)
    (accountLocator objectId : String) (egress : StoreResult Unit) :
    StoreResult AcsObjectSnapshot := do
  validateOpaqueId objectId "object ID"
  ensureAccountReadable db accountLocator
  match (db.objects.get? (accountLocator, objectId)).filter fun row => row.state = .ready with
  | none => throw (.new .notFound "cloud object does not exist")
  | some row =>
    let ciphertext ← readPlacedCiphertext files row.placement
    .rejectIf (ciphertext.length ≠ row.ciphertextBytes ∨ P.sha256Hex ciphertext ≠ row.ciphertextSha256)
      (.internal "stored object ciphertext is corrupt")
    egress
    return { objectId
             value := ⟨P.base64UrlEncode ciphertext, row.ciphertextSha256, row.childObjectIds⟩
             createdAtEpochMs := row.createdAtEpochMs }

def readRootRow (db : Database) (accountLocator : String) :
    Option AcsRootSnapshot :=
  (db.roots.get? accountLocator).map fun row =>
    { revision := row.revision
      rootHash := row.rootHash
      value := ⟨P.base64UrlEncode row.ciphertext, row.ciphertextSha256, row.childObjectIds⟩
      updatedAtEpochMs := row.updatedAtEpochMs }

/-- What `compare_and_swap_root` computes before its transaction. -/
structure PreparedRoot where
  rootHash : String
  ciphertext : Bytes
  ciphertextSha256 : String
  childObjectIds : List String
  storageBytes : Nat

def prepareRoot (replacement : AcsEncryptedValue) : StoreResult PreparedRoot := do
  invalidRequest (replacement.validate P)
  let rootHash ← invalidRequest (replacement.authenticatedHash P .root acsFixedRootId)
  let ciphertext ← invalidRequest (replacement.ciphertext P)
  return { rootHash, ciphertext, ciphertextSha256 := replacement.ciphertextSha256,
           childObjectIds := replacement.childObjectIds,
           storageBytes :=
            rootStorageBytes ciphertext.length (childrenJson replacement.childObjectIds) }

def PreparedRoot.row (root : PreparedRoot) (accountLocator : String) (revision : Nat)
    (nowEpochMs : Int) : RootRow where
  accountLocator := accountLocator
  revision := revision
  rootHash := root.rootHash
  ciphertextSha256 := root.ciphertextSha256
  ciphertext := root.ciphertext
  childObjectIds := root.childObjectIds
  updatedAtEpochMs := nowEpochMs

def eventSequence (db : Database) (accountLocator : String) : Nat :=
  ((db.accounts.get? accountLocator).map AccountRow.eventSequence).getD 0

/-- The writes of `compare_and_swap_root`: the root and its event. -/
def writeRoot (db : Database) (accountLocator : String) (row : RootRow) :
    Database :=
  let accounts := db.accounts.updateWhere (fun account => account.accountLocator = accountLocator)
    (fun account => { account with eventSequence := account.eventSequence + 1 }) fun _ => rfl
  let sequence := eventSequence db accountLocator + 1
  { db with
    roots := db.roots.upsert row
    accounts := accounts
    rootEvents :=
      (db.rootEvents.insert ⟨accountLocator, sequence, row.revision, row.rootHash⟩).deleteWhere
        fun event => event.accountLocator = accountLocator &&
          decide (event.sequence ≤ sequence - cfg.eventRetention) }

def compareAndSwapRootTransaction (db : Database)
    (accountLocator : String) (expectedRevision : Nat) (expectedRootHash : Option String)
    (root : PreparedRoot) (nowEpochMs : Int) (egress : StoreResult Unit) :
    StoreResult AcsCompareAndSwapRootResponse × Database :=
  match ensureAccountWriteable db accountLocator with
  | .error e => (.error e, db)
  | .ok () =>
    let current := db.roots.get? accountLocator
    let currentRevision := (current.map RootRow.revision).getD 0
    let currentHash := current.map RootRow.rootHash
    if expectedRevision ≠ currentRevision ∨ expectedRootHash ≠ currentHash then
      (egress.map fun _ => .conflict currentRevision currentHash, db)
    else
      match ensureChildrenExist db accountLocator root.childObjectIds with
      | .error e => (.error e, db)
      | .ok () =>
        let previousRootBytes := (current.map RootRow.storageBytes).getD 0
        match replaceAccountRootUsage db accountLocator previousRootBytes root.storageBytes
            cfg.globalStorageLimitBytes with
        | .error e => (.error e, afterUsageError db e)
        | .ok db' =>
          let db' := writeRoot cfg db' accountLocator
            (root.row accountLocator (currentRevision + 1) nowEpochMs)
          match readRootRow P db' accountLocator with
          | none => (.error (.internal "committed root disappeared"), db)
          | some committed =>
            match egress with
            | .error e => (.error e, db)
            | .ok () => (.ok (.committed committed), db')

def compareAndSwapRoot (db : Database)
    (accountLocator : String) (request : AcsCompareAndSwapRootRequest) (nowEpochMs : Int)
    (filesystemFreeBytes : Nat) (egress : StoreResult Unit) :
    StoreResult AcsCompareAndSwapRootResponse × Database :=
  match ensureNewStorageWrite cfg db filesystemFreeBytes with
  | (.error e, db) => (.error e, db)
  | (.ok (), db) =>
    match prepareRoot P request.replacement with
    | .error e => (.error e, db)
    | .ok root =>
      compareAndSwapRootTransaction P cfg db accountLocator request.expectedRevision
        request.expectedRootHash root nowEpochMs egress

/-- `INSERT INTO accounts`, after the challenge and the rate limits. An account that exists stays.
-/
def createAccount (db : Database) (accountLocator signingKeyId : String)
    (signingPublicKey : Bytes) : StoreResult Unit × Database :=
  match enforceMode db.serviceMode true "service" with
  | .error e => (.error e, db)
  | .ok () =>
    match db.accounts.get? accountLocator with
    | some account =>
      if account.signingKeyId ≠ signingKeyId ∨ account.signingPublicKey ≠ signingPublicKey then
        (.error (.new .conflict "account locator is already registered to another key"), db)
      else (.ok (), db)
    | none =>
      match bindU64 cfg.anonymousQuotaBytes, bindU64 cfg.anonymousObjectLimit with
      | .ok quotaBytes, .ok objectLimit =>
        (.ok (), { db with
          accounts := db.accounts.insert
            { accountLocator, signingKeyId, signingPublicKey, mode := .normal, quotaBytes,
              objectLimit, storedBytes := 0, objectCount := 0, eventSequence := 0 } })
      | .error e, _ => (.error e, db)
      | _, .error e => (.error e, db)

def setAccountMode (mode : AccountMode) : Database :=
  { db with
    accounts := db.accounts.updateWhere (fun account => account.accountLocator = accountLocator)
      (fun account => { account with mode := mode }) fun _ => rfl }

/-- A quota below what the account uses changes nothing. -/
def setAccountQuota (quotaBytes : Nat) :
    StoreResult Unit × Database :=
  match bindU64 quotaBytes with
  | .error e => (.error e, db)
  | .ok quotaBytes =>
    if db.accounts.rows.any fun account =>
        account.accountLocator = accountLocator && decide (account.storedBytes ≤ quotaBytes) then
      (.ok (), { db with
        accounts := db.accounts.updateWhere
          (fun account => account.accountLocator = accountLocator &&
            decide (account.storedBytes ≤ quotaBytes))
          (fun account => { account with quotaBytes := quotaBytes }) fun _ => rfl })
    else (.error (.new .conflict
      "account is missing or currently uses more than the requested quota"), db)

/-- `DELETE FROM accounts`, with the deletions its foreign keys cascade. -/
def deleteAccount : Database :=
  { db with
    accounts := db.accounts.deleteWhere fun account => account.accountLocator = accountLocator
    objects := db.objects.deleteWhere fun row => row.accountLocator = accountLocator
    roots := db.roots.deleteWhere fun row => row.accountLocator = accountLocator
    rootEvents := db.rootEvents.deleteWhere fun row => row.accountLocator = accountLocator }

def defaultListLimit : Nat := 100

def maxListLimit : Nat := 500

structure AcsObjectSummary where
  objectId : String
  authenticatedHash : String
  ciphertextBytes : Nat
  createdAtEpochMs : Int
  deriving DecidableEq, Repr

structure AcsListObjectsResponse where
  contractId : String
  objects : List AcsObjectSummary
  nextCursor : Option String
  totalObjectCount : Nat
  deriving DecidableEq, Repr

def ObjectRow.summary (row : ObjectRow) : AcsObjectSummary :=
  ⟨row.objectId, row.authenticatedHash, row.ciphertextBytes, row.createdAtEpochMs⟩

def readyObjects : List ObjectRow :=
  db.objects.rows.filter fun row => row.accountLocator = accountLocator && row.state = .ready

/-- Of one object more than the page has, the page and the cursor. -/
def truncatePage (limit : Nat) (objects : List AcsObjectSummary) :
    List AcsObjectSummary × Option String :=
  if limit < objects.length then
    (objects.take limit, (objects.take limit).getLast?.map (·.objectId))
  else (objects, none)

/-- With what its statements see. Ids are ordered by their bytes. -/
def listObjects (account count listed : Database) (accountLocator : String) (cursor : Option String)
    (limit : Nat) (egress : StoreResult Unit) : StoreResult AcsListObjectsResponse := do
  .rejectIf (maxListLimit < limit)
    (.new .invalidRequest ("object list limit exceeds " ++ toString maxListLimit))
  let limit := if limit = 0 then defaultListLimit else limit
  cursor.elim (.ok ()) (validateOpaqueId · "object list cursor")
  let cursor := cursor.getD ""
  ensureAccountReadable account accountLocator
  let totalObjectCount := (readyObjects count accountLocator).length
  let rows := ((readyObjects listed accountLocator).filter (cursor < ·.objectId)).insertionSort
    fun a b => a.objectId ≤ b.objectId
  let (objects, nextCursor) := truncatePage limit ((rows.take (limit + 1)).map ObjectRow.summary)
  egress
  return ⟨acsContractId, objects, nextCursor, totalObjectCount⟩

end Aerobag.Server
