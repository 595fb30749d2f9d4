import Aerobag.Server.Store

/-!
# Garbage collection (`aerobag-cloud-server/src/store/gc.rs`)

A collection has a transaction for each account that marks from the root and deletes old unmarked
rows, the query for the blob keys that rows name, and the removal of the files of deleted rows and
of old files that no row named.
-/

namespace Aerobag.Server

variable (db : Database) (accountLocator : String)

def accountObjects : List ObjectRow :=
  db.objects.rows.filter fun row => row.accountLocator = accountLocator

def rootChildren : List String :=
  ((db.roots.get? accountLocator).map RootRow.childObjectIds).getD []

def unmarkedChildren (objects : List ObjectRow) (marked : List String) : Nat :=
  ((objects.filter fun row => !marked.contains row.objectId).map
    fun row => row.childObjectIds.length).sum

/-- `pending` is the queue and `marked` the ids taken from it. Children enter it when their object
is marked, so `pending.length + unmarkedChildren objects marked` rounds empty it. -/
def markLoop (objects : List ObjectRow) : Nat → List String → List String → List String
  | 0, _, marked => marked
  | _ + 1, [], marked => marked
  | fuel + 1, objectId :: pending, marked =>
    if marked.contains objectId then markLoop objects fuel pending marked
    else
      let children := ((objects.find? fun row => row.objectId = objectId).map
        ObjectRow.childObjectIds).getD []
      markLoop objects fuel (pending ++ children) (objectId :: marked)

/-- The ids that the marking loop reaches from the root's children. -/
def markObjects (objects : List ObjectRow) (roots : List String) : List String :=
  markLoop objects (roots.length + unmarkedChildren objects []) roots []

def gcDeletes (cutoff : Int) (row : ObjectRow) : Bool :=
  row.accountLocator = accountLocator &&
    !((markObjects (accountObjects db accountLocator) (rootChildren db accountLocator)).contains
      row.objectId || decide (row.createdAtEpochMs > cutoff))

/-- The deletion of one row and the release of what it was charged for. -/
def gcDeleteRow (row : ObjectRow) : Database :=
  releaseAccountUsage
    { db with objects := db.objects.deleteWhere fun other => other.key = row.key }
    row.accountLocator row.storageBytes 1

/-- The account transaction, with the blob keys of the deleted rows. -/
def gcAccount (cutoff : Int) : Database × List String :=
  let deleted := db.objects.rows.filter (gcDeletes db accountLocator cutoff)
  (deleted.foldl gcDeleteRow db, deleted.filterMap fun row => row.placement.blobKey?)

inductive GcRun where
  /-- In the loop over the accounts, with the blob keys so far. -/
  | accounts (cutoff : Int) (remaining blobKeys : List String)
  /-- Removing the blobs of deleted rows, after the keys in the rows were read. -/
  | blobKeys (cutoff : Int) (referencedBlobKeys remaining : List String)
  | files (cutoff : Int) (referencedBlobKeys remaining : List String)
  deriving DecidableEq, Repr

/-- `SELECT blob_storage_key FROM objects WHERE … IS NOT NULL`. -/
def referencedBlobKeys : List String :=
  db.objects.rows.filterMap fun row => row.placement.blobKey?

def removeFileIfPresent (files : BlobFiles) (key : String) : BlobFiles :=
  files.deleteWhere fun file => file.key = key

/-- A row names the file, or it is younger than the cutoff; times before the epoch have no value. -/
def sweepKeeps (cutoff : Int) (referencedBlobKeys : List String) (files : BlobFiles)
    (key : String) : Bool :=
  referencedBlobKeys.contains key ||
    (files.get? key).any fun file => decide (0 ≤ file.modifiedEpochMs ∧ file.modifiedEpochMs > cutoff)

/-- `run_gc` reads the accounts and starts the loop over them. -/
def startGc (nowEpochMs graceMs : Int) : GcRun :=
  .accounts (nowEpochMs - graceMs) (db.accounts.rows.map AccountRow.accountLocator) []

/-- The next step, `none` at the end. `listed` are the files of the blob directory. -/
def gcStep (files : BlobFiles) (listed : List String) :
    GcRun → Database × BlobFiles × Option GcRun
  | .accounts cutoff (accountLocator :: remaining) blobKeys =>
    let (db, keys) := gcAccount db accountLocator cutoff
    (db, files, some (.accounts cutoff remaining (blobKeys ++ keys)))
  | .accounts cutoff [] blobKeys =>
    (db, files, some (.blobKeys cutoff (referencedBlobKeys db) blobKeys))
  | .blobKeys cutoff referenced (key :: remaining) =>
    (db, removeFileIfPresent files key, some (.blobKeys cutoff referenced remaining))
  | .blobKeys cutoff referenced [] => (db, files, some (.files cutoff referenced listed))
  | .files cutoff referenced (key :: remaining) =>
    let files := if sweepKeeps cutoff referenced files key then files
      else removeFileIfPresent files key
    (db, files, some (.files cutoff referenced remaining))
  | .files _ _ [] => (db, files, none)

end Aerobag.Server
