import Aerobag.Gc.FetchCache
import Aerobag.Lib.Sha256

/-!
# The fetch cache after a collection

A metadata file that a manifest roots is kept whatever it names. So the cache stays closed exactly
when the blobs these files name are kept.
-/

namespace Aerobag.Gc

open Std.ExtTreeMap

def FetchCache.Closed (cache : FetchCache) : Prop :=
  ∀ (path : String) (file : FetchMetadata), cache.http[path]? = some file →
    ∃ sha, file.sha256 = some sha ∧ sha ∈ cache.blobs

namespace FetchCacheGc

def after (gc : FetchCacheGc) (cache : FetchCache) : FetchCache := (gc.gcFetchCache cache .execute).2

def listed (gc : FetchCacheGc) (cache : FetchCache) : List FetchCacheGcCandidate :=
  (gc.gcFetchCache cache .dryRun).1.toOption.elim [] (·.candidates)

/-- Some manifest, a young metadata file or the age of the blob keeps what the file names. -/
def Keeps (gc : FetchCacheGc) (cache : FetchCache) (file : FetchMetadata) : Prop :=
  ∀ sha, file.sha256 = some sha → sha ∈ gc.rootedShas ∨ sha ∈ gc.graceShas cache ∨
    ∃ blob, cache.blobs[sha]? = some blob ∧ isYoungerThan gc.now gc.graceHours blob

variable {gc : FetchCacheGc} {cache : FetchCache} {path sha : String} {file : FetchMetadata}

theorem mem_graceShas : sha ∈ gc.graceShas cache ↔ ∃ path file, cache.http[path]? = some file ∧
    gc.metadataVerdict path file = .grace ∧ file.sha256 = some sha := by
  simp [graceShas]

theorem removed_iff {α : Type} {m m' : Std.ExtTreeMap String α} {k : String} {P : α → Prop}
    (h : ∀ v, m'[k]? = some v ↔ m[k]? = some v ∧ ¬ P v) :
    k ∈ m ∧ k ∉ m' ↔ ∃ v, m[k]? = some v ∧ P v := by
  simp only [← isSome_getElem?_iff_mem]
  grind

section Referenced

variable (hrf : gc.fetchRefs ≠ [])

include hrf

theorem http_after : (gc.after cache).http[path]? = some file ↔
    cache.http[path]? = some file ∧ gc.metadataVerdict path file ≠ .evictable := by
  simp [after, gcFetchCache, hrf]

theorem blobs_after {blob : FileStat} : (gc.after cache).blobs[sha]? = some blob ↔
    cache.blobs[sha]? = some blob ∧ gc.blobVerdict cache sha blob ≠ .evictable := by
  simp [after, gcFetchCache, hrf]

theorem mem_blobs_after (hsh : sha ∈ cache.blobs) : sha ∈ (gc.after cache).blobs ↔
    sha ∈ gc.rootedShas ∨ sha ∈ gc.graceShas cache ∨
      ∃ blob, cache.blobs[sha]? = some blob ∧ isYoungerThan gc.now gc.graceHours blob := by
  obtain ⟨blob, hb⟩ := isSome_getElem?_iff_mem.2 hsh |> Option.isSome_iff_exists.1
  rw [← isSome_getElem?_iff_mem, Option.isSome_iff_exists]
  simp only [blobs_after hrf, hb, Option.some.injEq, exists_eq_left', blobVerdict]
  split_ifs with hk hy
  · exact iff_of_true nofun (hk.imp_right .inl)
  · exact iff_of_true nofun (.inr (.inr hy))
  · simpa [hy] using hk

theorem mem_listed {c : FetchCacheGcCandidate} : c ∈ gc.listed cache ↔ c ∈ gc.candidates cache := by
  simp [listed, gcFetchCache, hrf, report, Except.toOption]

end Referenced

theorem closed_after (hcl : cache.Closed) : (gc.after cache).Closed ↔
    ∀ (path : String) (file : FetchMetadata), cache.http[path]? = some file →
      path ∈ gc.rootedMetadataPaths → gc.Keeps cache file := by
  by_cases hrf : gc.fetchRefs = []
  · simp [after, gcFetchCache, rootedMetadataPaths, hrf, hcl]
  · constructor
    · intro ha path file hf hro sha hsh
      obtain ⟨_, hown, hm⟩ := hcl path file hf
      obtain ⟨_, hown', ha⟩ := ha path file
        ((http_after hrf).2 ⟨hf, by simp [metadataVerdict, hro]⟩)
      rw [hsh, Option.some.injEq] at hown hown'
      subst hown hown'
      exact (mem_blobs_after hrf hm).1 ha
    · intro hkp path file haf
      obtain ⟨hf, hv⟩ := (http_after hrf).1 haf
      obtain ⟨sha, hsh, hm⟩ := hcl path file hf
      refine ⟨sha, hsh, (mem_blobs_after hrf hm).2 ?_⟩
      by_cases hro : path ∈ gc.rootedMetadataPaths
      · exact hkp path file hf hro sha hsh
      · have hgr : gc.metadataVerdict path file = .grace := by simp_all [metadataVerdict]
        exact .inr (.inl (mem_graceShas.2 ⟨path, file, hf, hgr, hsh⟩))

/-- The cache stays closed exactly when something keeps what the rooted metadata files name. Both files
of a reference are kept, and what is removed is what a dry run lists. -/
theorem collection_keeps_cache (gc : FetchCacheGc) (cache : FetchCache) (hclosed : cache.Closed) :
    ((gc.after cache).Closed ↔ ∀ (path : String) (file : FetchMetadata),
      cache.http[path]? = some file → path ∈ gc.rootedMetadataPaths → gc.Keeps cache file) ∧
    (∀ ref ∈ gc.fetchRefs, ref.sha256 ∈ cache.blobs → gc.httpMetadataPath ref.cacheKey ∈ cache.http →
      ref.sha256 ∈ (gc.after cache).blobs ∧
      gc.httpMetadataPath ref.cacheKey ∈ (gc.after cache).http) ∧
    (∀ path, path ∈ cache.http ∧ path ∉ (gc.after cache).http ↔
      ∃ bytes, ⟨.metadata, path, bytes⟩ ∈ gc.listed cache) ∧
    ∀ sha, sha ∈ cache.blobs ∧ sha ∉ (gc.after cache).blobs ↔
      ∃ bytes, ⟨.blob, sha, bytes⟩ ∈ gc.listed cache := by
  refine ⟨closed_after hclosed, ?_⟩
  by_cases hrf : gc.fetchRefs = []
  · simp [after, listed, gcFetchCache, hrf, Except.toOption]
  · refine ⟨fun ref hr hb hm => ⟨(mem_blobs_after hrf hb).2 (.inl ?_), ?_⟩, fun path => ?_, fun sha => ?_⟩
    · exact List.mem_toFinset.2 (List.mem_map_of_mem hr)
    · have hro : gc.httpMetadataPath ref.cacheKey ∈ gc.rootedMetadataPaths :=
        List.mem_toFinset.2 (List.mem_map_of_mem hr)
      obtain ⟨file, hf⟩ := Option.isSome_iff_exists.1 (isSome_getElem?_iff_mem.2 hm)
      exact isSome_getElem?_iff_mem.1 (Option.isSome_of_mem
        ((http_after hrf).2 ⟨hf, by simp [metadataVerdict, hro]⟩))
    · rw [removed_iff fun _ => http_after hrf]
      simp [mem_listed hrf, candidates]
    · rw [removed_iff fun _ => blobs_after hrf]
      simp [mem_listed hrf, candidates]

theorem closed_iff : cache.Closed ↔
    ∀ x ∈ cache.http.toList, x.2.sha256.any (· ∈ cache.blobs) = true := by
  simp [FetchCache.Closed, Option.any_eq_true]

def chartGc : FetchCacheGc :=
  ⟨fun text => hexBytes (Sha256.digest (strBytes text)), [[[⟨"chart", "first"⟩]]], 1, 10 ^ 18⟩

/-- A chart that was fetched twice. The metadata file names one of its contents. -/
def chartCache (sha : String) : FetchCache :=
  ⟨.ofList [(chartGc.httpMetadataPath "chart", FetchMetadata.mk ⟨0, 80⟩ (some sha))],
    .ofList [("first", FileStat.mk 0 9), ("second", FileStat.mk 0 9)]⟩

/-- The content that the manifest names is kept, and the other one is removed. -/
theorem collection_keeps_cache_first : (chartGc.after (chartCache "first")).Closed ∧
    "second" ∉ (chartGc.after (chartCache "first")).blobs := by
  have hcl : (chartCache "first").Closed := closed_iff.2 (by decide +kernel)
  have hkp := collection_keeps_cache chartGc (chartCache "first") hcl
  have hro : ∀ x ∈ (chartCache "first").http.toList, ∀ sha ∈ x.2.sha256, sha ∈ chartGc.rootedShas := by
    decide +kernel
  refine ⟨hkp.1.2 fun path file hf _ sha hsh => .inl ?_, ((hkp.2.2.2 "second").2 ⟨9, ?_⟩).2⟩
  · exact hro (path, file) (mem_toList_iff_getElem?_eq_some.2 hf) sha hsh
  · decide +kernel

/-- The metadata names the content that was fetched last, whose blob is removed. -/
theorem refetched_blob_removed : (chartCache "second").Closed ∧
    (chartGc.after (chartCache "second")).http.toList = (chartCache "second").http.toList ∧
    (chartGc.after (chartCache "second")).blobs.toList = [("first", ⟨0, 9⟩)] ∧
    ¬ (chartGc.after (chartCache "second")).Closed := by
  simp only [closed_iff]
  decide +kernel

end FetchCacheGc

end Aerobag.Gc
