import Aerobag.Lib.Map
import Mathlib.Data.Finset.Card

/-!
# Collection of the fetch cache (`preprocessor-cli/src/product_build/gc.rs`)

A metadata file is named by the hash of its cache key and names the blob of its content. Each file
is judged by itself, from the references of the build manifests and its age.
-/

namespace Aerobag.Gc

inductive BuildCacheGcMode where
  | dryRun
  | execute
  deriving DecidableEq, Repr

structure FetchCacheRef where
  cacheKey : String
  sha256 : String
  deriving DecidableEq, Repr

/-- The time of the last change is in nanoseconds. -/
structure FileStat where
  modified : Int
  bytes : Nat
  deriving DecidableEq, Repr

structure FetchMetadata extends FileStat where
  sha256 : Option String
  deriving DecidableEq, Repr

/-- The `.json` files below `http` and the files of `blobs`. -/
structure FetchCache where
  http : Std.ExtTreeMap String FetchMetadata
  blobs : Std.ExtTreeMap String FileStat

inductive FetchCacheGcCandidateKind where
  | metadata
  | blob
  deriving DecidableEq, Repr

structure FetchCacheGcCandidate where
  kind : FetchCacheGcCandidateKind
  path : String
  bytes : Nat
  deriving DecidableEq, Repr

structure FetchCacheGcReport where
  buildManifests : Nat
  rootedFetchRefs : Nat
  rootedBlobs : Nat
  scannedMetadata : Nat := 0
  scannedBlobs : Nat := 0
  graceMetadata : Nat := 0
  graceBlobs : Nat := 0
  evictableMetadata : Nat := 0
  evictableBlobs : Nat := 0
  reclaimedBytes : Nat := 0
  candidates : List FetchCacheGcCandidate := []
  missingFetchRefs : Bool
  deriving DecidableEq, Repr

inductive Verdict where
  | rooted
  | grace
  | evictable
  deriving DecidableEq, Repr

def saturatingAdd (a b : Nat) : Nat := min (a + b) (2 ^ 64 - 1)

/-- With the grace period in hours. A file of the future is young. -/
def isYoungerThan (now : Int) (graceHours : Nat) (file : FileStat) : Bool :=
  let grace : Int := min (graceHours * 3600) (2 ^ 64 - 1) * 10 ^ 9
  grace ≠ 0 && (now < file.modified || now - file.modified < grace)

structure FetchCacheGc where
  hashText : String → String
  manifests : List (List (List FetchCacheRef))
  graceHours : Nat
  now : Int

namespace FetchCacheGc

variable (gc : FetchCacheGc) (cache : FetchCache)

def fetchRefs : List FetchCacheRef := gc.manifests.flatten.flatten

def httpMetadataPath (cacheKey : String) : String := gc.hashText cacheKey ++ ".json"

def rootedShas : Finset String := (gc.fetchRefs.map (·.sha256)).toFinset

def rootedMetadataPaths : Finset String :=
  (gc.fetchRefs.map fun ref => gc.httpMetadataPath ref.cacheKey).toFinset

def metadataVerdict (path : String) (file : FetchMetadata) : Verdict :=
  if path ∈ gc.rootedMetadataPaths then .rooted
  else if isYoungerThan gc.now gc.graceHours file.toFileStat then .grace
  else .evictable

/-- The blobs that young metadata files name. -/
def graceShas : Finset String :=
  (cache.http.toList.filterMap fun (path, file) =>
    if gc.metadataVerdict path file = .grace then file.sha256 else none).toFinset

def blobVerdict (sha : String) (file : FileStat) : Verdict :=
  if sha ∈ gc.rootedShas ∨ sha ∈ gc.graceShas cache then .rooted
  else if isYoungerThan gc.now gc.graceHours file then .grace
  else .evictable

def candidates : List FetchCacheGcCandidate :=
  (cache.http.toList.filter fun (path, file) => gc.metadataVerdict path file = .evictable).map
      (fun (path, file) => ⟨.metadata, path, file.bytes⟩) ++
    (cache.blobs.toList.filter fun (sha, file) => gc.blobVerdict cache sha file = .evictable).map
      fun (sha, file) => ⟨.blob, sha, file.bytes⟩

def report : FetchCacheGcReport :=
  let metadata := cache.http.toList.map fun (path, file) => gc.metadataVerdict path file
  let blobs := cache.blobs.toList.map fun (sha, file) => gc.blobVerdict cache sha file
  { buildManifests := gc.manifests.length
    rootedFetchRefs := gc.fetchRefs.length
    rootedBlobs := gc.rootedShas.card
    scannedMetadata := metadata.length
    scannedBlobs := blobs.length
    graceMetadata := metadata.count .grace
    graceBlobs := blobs.count .grace
    evictableMetadata := metadata.count .evictable
    evictableBlobs := blobs.count .evictable
    reclaimedBytes := ((gc.candidates cache).map (·.bytes)).foldl saturatingAdd 0
    candidates := (gc.candidates cache).mergeSort fun left right =>
      right.bytes < left.bytes ∨ right.bytes = left.bytes ∧ left.path ≤ right.path
    missingFetchRefs := false }

def gcFetchCache (mode : BuildCacheGcMode) : Except String FetchCacheGcReport × FetchCache :=
  if gc.fetchRefs = [] then
    (match mode with
      | .execute => .error ("current build manifests contain no fetch_cache_refs; run a product build " ++
          "with fetch-dependency recording before executing fetch-cache GC")
      | .dryRun => .ok
        { buildManifests := gc.manifests.length, rootedFetchRefs := 0, rootedBlobs := 0,
          missingFetchRefs := true }, cache)
  else
    (.ok (gc.report cache), match mode with
      | .dryRun => cache
      | .execute =>
        ⟨cache.http.filter fun path file => gc.metadataVerdict path file ≠ .evictable,
          cache.blobs.filter fun sha file => gc.blobVerdict cache sha file ≠ .evictable⟩)

end FetchCacheGc

end Aerobag.Gc
