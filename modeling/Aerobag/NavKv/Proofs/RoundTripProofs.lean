import Aerobag.NavKv.Delta
import Aerobag.NavKv.Proofs.BuildProofs

/-!
# What has been built can be read

The pairs that a tree has been built from are the ones that lookups and the scan of all pairs give.
-/

open List Option

namespace Aerobag.NavKv

@[simp] theorem fromUtf8Lossy_strBytes (r : Bytes → String) (s : String) :
    fromUtf8Lossy r (strBytes s) = s := by
  rw [fromUtf8Lossy, fromUTF8?_strBytes, Option.getD_some]

theorem map_pairOf {rt : NavKvRoot} {t : Tree rt} {ps : List NavKvPair}
    {es : List LeafEntry} (r : Bytes → String)
    (h : RepresentsAll t.valueBytes ps es) : es.map (t.pairOf r) = ps := by
  induction h with
  | nil => rfl
  | @cons p e ps es hf hr ih =>
    rw [map_cons]
    congr 1
    rw [Tree.pairOf, hf.key, hf.value, fromUtf8Lossy_strBytes]

/-- A key has a value just when the pair was built in. -/
theorem value_iff_mem {r : NavKvRoot} {t : Tree r} {ps : List NavKvPair}
    (h : RepresentsAll t.valueBytes ps t.entries) {k : String} {v : Bytes} :
    (entryFor (strBytes k) t.entries).map (fun e => e.value.bytesIn t.valueBytes) = some v ↔
      ⟨k, v⟩ ∈ ps := by
  have hpr := map_pairOf (fun _ => "") h
  constructor
  · intro hv
    obtain ⟨e, he, rfl⟩ := map_eq_some_iff.1 hv
    obtain ⟨hm, hk⟩ := (Search.lookup_eq_some t.ascend).1 he
    rw [← hpr, List.mem_map]
    exact ⟨e, hm, by rw [Tree.pairOf, hk, fromUtf8Lossy_strBytes]⟩
  · intro hm
    rw [← hpr, List.mem_map] at hm
    obtain ⟨e, he, hpa⟩ := hm
    obtain ⟨p, -, hr⟩ := RepresentsAll.exists_pair h e he
    obtain ⟨hk, hv⟩ := NavKvPair.mk.inj hpa
    rw [hr.key, fromUtf8Lossy_strBytes] at hk
    have hfd : entryFor (strBytes k) t.entries = some e :=
      (Search.lookup_eq_some t.ascend).2 ⟨he, by rw [hr.key, hk]⟩
    rw [hfd, map_some, hv]

/-- Lookups in a tree that has been built give the values of the pairs, and the scan gives all pairs
in the order of their keys. -/
theorem build_round_trip {repair : Bytes → String} {pairs : List NavKvPair} {pageSize : Nat}
    {out : NavKvBuildOutput} (h : buildNavKvSorted repair pairs pageSize = .ok out) :
    ∃ root, NavKvRoot.parse out.rootBytes = .ok root ∧ ∀ fuel, out.pages.length ≤ fuel →
      (∀ k v, (root.extractValue (out.pages[·]?) fuel k).value = some v ↔ ⟨k, v⟩ ∈ pairs) ∧
      ∃ sorted, (root.pairs (out.pages[·]?) repair fuel).value = some sorted ∧
        sorted.Perm pairs ∧ sorted.Pairwise fun a b => strBytes a.key < strBytes b.key := by
  obtain ⟨root, hrt, hac, t, hps, hr, -, -⟩ := exists_tree_of_build h
  refine ⟨root, hrt, fun fuel hfu => ?_⟩
  rw [← hps] at hfu ⊢
  rw [t.length_pages] at hfu
  constructor
  · intro k v
    obtain ⟨path, leaf, entries, hw, hl, hlf, hfd⟩ := t.exists_way (strBytes k)
    have hg := t.gives_extractValue hw hlf hfd.lookup (hl.trans_le hfu)
    rw [hg.value, value_iff_mem hr]
    exact (perm_insertionSort KeyLe pairs).mem_iff
  · obtain ⟨rds, hg⟩ := t.gives_pairs repair hfu
    refine ⟨pairs.insertionSort KeyLe, ?_, perm_insertionSort KeyLe pairs, hac⟩
    rw [hg.value, map_pairOf repair hr]

/-- Four pairs, one with a value that takes many pages; the tree has three levels. -/
def samplePairs : List NavKvPair :=
  [⟨"c", [3]⟩, ⟨"a", [1]⟩, ⟨"d", [4]⟩, ⟨"b", List.replicate 4100 2⟩]

/-- The four pairs, on pages of thirty bytes. -/
theorem build_round_trip_sample : ∃ out, buildNavKvSorted (fun _ => "") samplePairs 30 = .ok out ∧
    ∃ root, NavKvRoot.parse out.rootBytes = .ok root ∧ ∀ fuel, out.pages.length ≤ fuel →
      (∀ k v, (root.extractValue (out.pages[·]?) fuel k).value = some v ↔ ⟨k, v⟩ ∈ samplePairs) ∧
      ∃ sorted, (root.pairs (out.pages[·]?) (fun _ => "") fuel).value = some sorted ∧
        sorted.Perm samplePairs ∧ sorted.Pairwise fun a b => strBytes a.key < strBytes b.key := by
  have hok : (buildNavKvSorted (fun _ => "") samplePairs 30).toOption.isSome = true := by
    decide +kernel
  obtain ⟨out, ho⟩ := isSome_iff_exists.1 hok
  have hbl := Except.toOption_eq_some.1 ho
  exact ⟨out, hbl, build_round_trip hbl⟩

/-- The second key begins with the first one and a NUL. -/
def Continues (key key' : String) : Prop := strBytes key ++ [0] <+: strBytes key'

/-- The lengths of the values are in the range of `u64`. -/
def InMemory (pairs : List NavKvPair) : Prop := ∀ pair ∈ pairs, pair.value.length < 2 ^ 64

theorem not_continues_self (k : String) : ¬ Continues k k := fun h => by simpa using h.length_le

/-- The hashed bytes of a pair can be read back, unless a key goes on with a NUL. -/
theorem canonicalBytes_inj {x y : NavKvPair} {r r' : Bytes} (hx : x.value.length < 2 ^ 64)
    (hy : y.value.length < 2 ^ 64) (hc : ¬ Continues x.key y.key) (hc' : ¬ Continues y.key x.key)
    (h : canonicalBytes x ++ r = canonicalBytes y ++ r') : x = y ∧ r = r' := by
  obtain ⟨k, v⟩ := x
  obtain ⟨k', v'⟩ := y
  simp only [canonicalBytes, append_assoc, singleton_append] at h
  obtain ⟨hke, htl⟩ := append_cons_inj_of_not_prefix hc hc' h
  obtain ⟨hl, hvl⟩ := append_inj htl (by simp)
  have hln : v.length = v'.length := by
    rw [← leNat_leBytes (show v.length < 256 ^ 8 by omega), hl, leNat_leBytes (by omega)]
  obtain ⟨rfl, hr⟩ := append_inj (tail_eq_of_cons_eq hvl) hln
  obtain rfl := strBytes_injective hke
  exact ⟨rfl, tail_eq_of_cons_eq hr⟩

/-- **What the canonical hash binds.** Lists of pairs with the same hashed bytes are equal exactly if at
no place one key continues the other one after a NUL, and the hash over a tree is that of the pairs that
it was built from. -/
theorem canonical_hash_binding {pairs pairs' : List NavKvPair} (h : InMemory pairs)
    (h' : InMemory pairs') :
    (pairs.flatMap canonicalBytes = pairs'.flatMap canonicalBytes →
      (pairs = pairs' ↔ ∀ p ∈ pairs.zip pairs',
        ¬ Continues p.1.key p.2.key ∧ ¬ Continues p.2.key p.1.key)) ∧
      ∀ repair pairs pageSize extra out,
        buildNavKvStrictWithExtraPrefetchKeys repair pairs pageSize extra = .ok out →
        ∃ root, NavKvRoot.parse out.rootBytes = .ok root ∧ ∀ fuel, out.pages.length ≤ fuel →
          (root.canonicalSha256 (out.pages[·]?) repair fuel).value =
            some (navKvCanonicalSha256FromPairs pairs) := by
  refine ⟨fun heq => ⟨?_, fun hc => ?_⟩, fun repair pairs pageSize extra out hbl => ?_⟩
  · rintro rfl p hp
    have hpp : p.1 = p.2 := by
      obtain ⟨i, hi, rfl⟩ := getElem_of_mem hp
      simp
    rw [hpp]
    exact ⟨not_continues_self _, not_continues_self _⟩
  · refine flatMap_inj_of_zip (fun p hp r r' => ?_) (by simp [canonicalBytes]) heq
    obtain ⟨hm, hm'⟩ := of_mem_zip hp
    exact canonicalBytes_inj (h _ hm) (h' _ hm') (hc p hp).1 (hc p hp).2
  · obtain ⟨root, hrt, -, t, hps, hr, -, -⟩ := exists_tree_of_build hbl
    refine ⟨root, hrt, fun fuel hfu => ?_⟩
    rw [← hps] at hfu ⊢
    obtain ⟨rds, hg⟩ := t.gives_pairs repair (t.length_pages ▸ hfu)
    rw [map_pairOf repair hr] at hg
    exact (hg.map navKvCanonicalSha256FromPairs).value

def nulPair : NavKvPair := ⟨"a\x00b", [1]⟩

/-- A list whose key has a NUL compared with itself, and pairs that are told apart by their values. -/
theorem canonical_hash_binding_sample :
    (∀ p ∈ [nulPair].zip [nulPair], ¬ Continues p.1.key p.2.key) ∧
      [⟨"a", [1, 0]⟩].flatMap canonicalBytes ≠ [⟨"a", [1]⟩].flatMap canonicalBytes := by
  have hmem : ∀ pair : NavKvPair, pair.value.length < 2 ^ 64 → InMemory [pair] := by simp [InMemory]
  constructor
  · have hiff := (canonical_hash_binding (hmem nulPair (by decide)) (hmem nulPair (by decide))).1 rfl
    exact fun p hp => (hiff.1 rfl p hp).1
  · intro h
    have hiff := (canonical_hash_binding (hmem ⟨"a", [1, 0]⟩ (by decide))
      (hmem ⟨"a", [1]⟩ (by decide))).1 h
    exact absurd (hiff.2 (by simp [not_continues_self])) (by decide)

/-- A key with a NUL and the value after it are hashed like a shorter key and a longer value. -/
theorem canonical_hash_collides :
    ∃ pairs pairs', validateSortedUniquePairs pairs = .ok () ∧ validateSortedUniquePairs pairs' = .ok () ∧
      pairs.flatMap canonicalBytes = pairs'.flatMap canonicalBytes ∧ pairs ≠ pairs' :=
  ⟨[⟨"k", [1, 0, 0, 0, 0, 0, 0, 0, 0, 118]⟩],
    [⟨"k\x00\n\x00\x00\x00\x00\x00\x00\x00", [118]⟩], by decide +kernel⟩

end Aerobag.NavKv
