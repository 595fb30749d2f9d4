import Aerobag.Lib.Run
import Aerobag.Server.Auth
import Aerobag.Server.Gc

/-!
# The server as a transition system

`CloudStore` serialises its database writes with one mutex, so a state of the server is the
database, the blob files, and how far each call in progress has come. A label is one critical
section of one call together with what the environment decides in it: arguments, clock readings,
free space, I/O failures.

`create_object` on a large ciphertext inserts a pending row, writes the blob file outside of the
database lock, and then marks the row ready or, when the file could not be written, removes it.
`open` repairs `stored_bytes` in one transaction and then settles each pending row with one
statement, or with two that are committed separately.
-/

namespace Aerobag.Server

inductive CreatePhase where
  | inserted
  | written
  | failed
  deriving DecidableEq, Repr

structure CreateCall where
  callId : Nat
  accountLocator : String
  objectId : String
  ciphertext : Bytes
  storageBytes : Nat
  blobStorageKey : String
  phase : CreatePhase
  deriving DecidableEq, Repr

def CreateCall.rowKey (call : CreateCall) : String × String := (call.accountLocator, call.objectId)

/-- The usage of one account, as `repair_storage_accounting` sums it up. -/
def accountUsage (db : Database) (accountLocator : String) : Nat :=
  let objects := ((accountObjects db accountLocator).map ObjectRow.storageBytes).foldl satAdd 0
  (((db.roots.rows.filter fun root => root.accountLocator = accountLocator).map
    RootRow.storageBytes).foldl satAdd objects)

def repairStorageAccounting (cfg : StoreConfig) (db : Database) : StoreResult Database :=
  let accounts := db.accounts.rows.map AccountRow.accountLocator
  if db.objects.rows.any fun row => !accounts.contains row.accountLocator then
    .error (.internal "object belongs to a missing account")
  else if db.roots.rows.any fun row => !accounts.contains row.accountLocator then
    .error (.internal "root belongs to a missing account")
  else if accounts.any fun account => decide (accountUsage db account > i64Max) then
    .error (.sqlite "integer out of range")
  else
    let repaired := { db with
      accounts := db.accounts.updateWhere (fun _ => true)
        (fun account => { account with storedBytes := accountUsage db account.accountLocator })
        fun _ => rfl }
    let total := (accounts.map (accountUsage db)).foldl satAdd 0
    .ok (if total > cfg.globalStorageLimitBytes then setServiceMode repaired .readOnly
      else repaired)

/-- The rows that `reconcile_pending_blobs` goes through. -/
def pendingRows (db : Database) : List ObjectRow :=
  db.objects.rows.filter fun row => row.state = .pending

/-- Whether a pending row's blob file holds its ciphertext. -/
def pendingBlobValid (P : Primitives) (files : BlobFiles) (row : ObjectRow) : Bool :=
  (row.placement.blobKey?.bind files.get?).any fun file =>
    decide (file.bytes.length = row.ciphertextBytes ∧ P.sha256Hex file.bytes = row.ciphertextSha256)

inductive Process where
  | running
  /-- In `open`: rows to settle, and a deleted row still to be released. -/
  | opening (remaining : List ObjectRow) (owed : Option ObjectRow)
  | stopped
  deriving DecidableEq, Repr

structure Store where
  db : Database
  files : BlobFiles
  calls : Table CreateCall.callId
  verifications : Table VerifyCall.callId
  gc : Option GcRun
  limits : RuntimeLimits
  /-- The clock of the machine, which does not go back. -/
  clock : Int
  process : Process

def Store.created : Store :=
  ⟨.initialized, .empty, .empty, .empty, none, .default, 0, .running⟩

/-- How the work of `write_blob` on the file system ends. -/
inductive BlobIo where
  /-- Without an I/O error; a new file gets this modification time. -/
  | completed (modifiedEpochMs : Int)
  /-- With an error before the file is installed. -/
  | failedBefore
  /-- With an error of syncing, after the file is installed. -/
  | failedAfter (modifiedEpochMs : Int)
  deriving DecidableEq, Repr

inductive Label where
  | tick (nowEpochMs : Int)
  /-- The clock is read for a request whose verification then begins. -/
  | startRequest (callId : Nat) (request : SignedRequest) (pathAccountLocator : String)
      (write : Bool)
  | verifyRequest (callId : Nat)
  /-- Only the nonce is looked up in the store; the clock was read before. -/
  | verifyCreation (signedRequest : SignedRequest) (request : AcsCreateAccountRequest)
      (nowEpochMs : Int)
  | createAccount (accountLocator signingKeyId : String) (signingPublicKey : Bytes)
  | createObject (callId : Nat) (accountLocator objectId : String) (value : AcsEncryptedValue)
      (nowEpochMs : Int) (filesystemFreeBytes : Nat)
  | writeBlob (callId : Nat) (io : BlobIo)
  | markReady (callId : Nat)
  | removePending (callId : Nat)
  /-- The call ends with a database error, without another statement. -/
  | abandonCall (callId : Nat)
  | compareAndSwapRoot (accountLocator : String) (request : AcsCompareAndSwapRootRequest)
      (nowEpochMs : Int) (filesystemFreeBytes : Nat) (egress : StoreResult Unit)
  | startGc (nowEpochMs graceMs : Int)
  | gcStep (listed : List String)
  | gcAbort
  | setServiceMode (mode : AccountMode)
  | setAccountMode (accountLocator : String) (mode : AccountMode)
  | setAccountQuota (accountLocator : String) (quotaBytes : Nat)
  | deleteAccount (accountLocator : String)
  | crash
  | openStore
  /-- `reconcile_pending_blobs` settles a row; its file may not be `readable`. -/
  | reconcile (readable : Bool)
  | reconcileRelease
  | opened

namespace Store

variable (P : Primitives) (cfg : StoreConfig)

/-- The first critical sections; a call that is done is not in `calls`. -/
def createObject (s : Store) (callId : Nat) (accountLocator objectId : String)
    (value : AcsEncryptedValue) (nowEpochMs : Int) (filesystemFreeBytes : Nat) :
    StoreResult CreateObjectProgress × Store :=
  match ensureNewStorageWrite cfg s.db filesystemFreeBytes with
  | (.error e, db) => (.error e, { s with db })
  | (.ok (), db) =>
    match prepareObject P objectId value with
    | .error e => (.error e, { s with db })
    | .ok object =>
      match createObjectTransaction P cfg db accountLocator object nowEpochMs with
      | (.ok (.pending key), db) =>
        (.ok (.pending key), { s with
          db
          calls := s.calls.insert ⟨callId, accountLocator, objectId, object.ciphertext,
            object.storageBytes, key, .inserted⟩ })
      | (result, db) => (result, { s with db })

/-- The call's phase after the step, `none` for a call that has returned. -/
def setPhase (s : Store) (callId : Nat) : Option CreatePhase → Store
  | none => { s with calls := s.calls.deleteWhere fun call => call.callId = callId }
  | some phase => { s with
      calls := s.calls.updateWhere (fun call => call.callId = callId)
        (fun call => { call with phase }) fun _ => rfl }

def writeBlob (s : Store) (call : CreateCall) : BlobIo → Store
  | .completed modified =>
    match Server.writeBlob s.files call.blobStorageKey call.ciphertext modified with
    | .ok files => { s with files }.setPhase call.callId (some .written)
    | .error _ => s.setPhase call.callId (some .failed)
  | .failedBefore => s.setPhase call.callId (some .failed)
  | .failedAfter modified =>
    match Server.writeBlob s.files call.blobStorageKey call.ciphertext modified with
    | .ok files => { s with files }.setPhase call.callId (some .failed)
    | .error _ => s.setPhase call.callId (some .failed)

def callIn (s : Store) (callId : Nat) (phase : CreatePhase) : Option CreateCall :=
  (s.calls.get? callId).filter fun call => call.phase = phase

def startRequest (s : Store) (callId : Nat) (request : SignedRequest) (pathAccountLocator : String)
    (write : Bool) : Store :=
  match requestAuthentication request pathAccountLocator with
  | .error _ => s
  | .ok authentication => { s with
      verifications := s.verifications.insert ⟨callId, request, pathAccountLocator, write, s.clock,
        authentication, .accountAuthentication⟩ }

/-- The verifications after a section of the call, which goes on or has returned. -/
def nextPhase (s : Store) (call : VerifyCall) (result : StoreResult Unit) :
    Table VerifyCall.callId :=
  match result, call.phase.next with
  | .ok (), some phase => s.verifications.updateWhere (fun other => other.callId = call.callId)
      (fun other => { other with phase }) fun _ => rfl
  | _, _ => s.verifications.deleteWhere fun other => other.callId = call.callId

def runningStep (s : Store) : Label → Option Store
  | .startRequest callId request pathAccountLocator write =>
    if (s.verifications.get? callId).isSome then none
    else some (s.startRequest callId request pathAccountLocator write)
  | .verifyRequest callId =>
    (s.verifications.get? callId).map fun call =>
      let (result, limits, db) := verifyRegisteredRequest P cfg s.db s.limits call
      { s with limits, db, verifications := s.nextPhase call result }
  | .verifyCreation signedRequest request nowEpochMs =>
    if nowEpochMs ≤ s.clock then
      some { s with db := (verifyAccountCreationRequest P s.db signedRequest request nowEpochMs).2 }
    else none
  | .createAccount accountLocator signingKeyId signingPublicKey =>
    some { s with
      db := (Server.createAccount cfg s.db accountLocator signingKeyId signingPublicKey).2 }
  | .createObject callId accountLocator objectId value nowEpochMs filesystemFreeBytes =>
    if (s.calls.get? callId).isSome then none
    else some (s.createObject P cfg callId accountLocator objectId value nowEpochMs
      filesystemFreeBytes).2
  | .writeBlob callId io => (s.callIn callId .inserted).map fun call => s.writeBlob call io
  | .markReady callId =>
    (s.callIn callId .written).map fun call =>
      { s with db := Server.markReady s.db call.accountLocator call.objectId }.setPhase callId none
  | .removePending callId =>
    (s.callIn callId .failed).map fun call =>
      { s with
        db := removePendingObject s.db call.accountLocator call.objectId call.storageBytes
        }.setPhase callId none
  | .abandonCall callId => (s.calls.get? callId).map fun _ => s.setPhase callId none
  | .compareAndSwapRoot accountLocator request nowEpochMs filesystemFreeBytes egress =>
    some { s with
      db := (Server.compareAndSwapRoot P cfg s.db accountLocator request nowEpochMs
        filesystemFreeBytes egress).2 }
  | .startGc nowEpochMs graceMs =>
    if s.gc.isSome then none else some { s with gc := some (startGc s.db nowEpochMs graceMs) }
  | .gcStep listed =>
    s.gc.map fun gc =>
      let (db, files, gc) := gcStep s.db s.files listed gc
      { s with db, files, gc }
  | .gcAbort => s.gc.map fun _ => { s with gc := none }
  | .setServiceMode mode => some { s with db := Server.setServiceMode s.db mode }
  | .setAccountMode accountLocator mode =>
    some { s with db := Server.setAccountMode s.db accountLocator mode }
  | .setAccountQuota accountLocator quotaBytes =>
    some { s with db := (Server.setAccountQuota s.db accountLocator quotaBytes).2 }
  | .deleteAccount accountLocator =>
    some { s with db := Server.deleteAccount s.db accountLocator }
  | _ => none

/-- The steps of `open` once the usage is repaired. -/
def openingStep (s : Store) (remaining : List ObjectRow) (owed : Option ObjectRow) :
    Label → Option Store
  | .reconcile readable =>
    match remaining, owed with
    | row :: remaining, none =>
      if readable && pendingBlobValid P s.files row then
        some { s with
          db := Server.markReady s.db row.accountLocator row.objectId
          process := .opening remaining none }
      else
        some { s with
          db := deletePending s.db row.accountLocator row.objectId
          process := .opening remaining (some row) }
    | _, _ => none
  | .reconcileRelease =>
    owed.map fun row => { s with
      db := s.db.adjustUsage row.accountLocator (· - row.storageBytes) (· - 1)
      process := .opening remaining none }
  | .opened => if remaining = [] ∧ owed = none then some { s with process := .running } else none
  | _ => none

def step (s : Store) : Label → Option Store
  | .tick nowEpochMs => if s.clock ≤ nowEpochMs then some { s with clock := nowEpochMs } else none
  | .crash => some { s with
      calls := .empty, verifications := .empty, gc := none, limits := .default, process := .stopped }
  | .openStore =>
    match s.process, repairStorageAccounting cfg s.db with
    | .stopped, .ok db => some { s with db, process := .opening (pendingRows db) none }
    | _, _ => none
  | label =>
    match s.process with
    | .running => s.runningStep P cfg label
    | .opening remaining owed => s.openingStep P remaining owed label
    | .stopped => none

end Store

end Aerobag.Server
