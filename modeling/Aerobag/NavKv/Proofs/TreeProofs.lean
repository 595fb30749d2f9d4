import Aerobag.NavKv.Proofs.FormatProofs

/-!
# What the pages of a tree stand for

A node stands for the entries of the leaves below it. For every key there is a way down to one leaf
that decides about it. The leaves are linked in the order of their entries.
-/

open List Option

namespace Aerobag.NavKv

/-- What a node stands for: the page of its first leaf, and the entries of all its leaves. -/
structure Contents where
  firstLeaf : Nat
  entries : List LeafEntry

/-- The node is the root of a tree of the given height, with these contents. -/
def Denotes (pages : List Bytes) : Nat → NodeSummary → Contents → Prop
  | 0, node, contents =>
    contents.firstLeaf = node.page ∧ contents.entries.head?.map (·.key) = some node.firstKey ∧
    ∃ bytes nextLeaf, pages[node.page]? = some bytes ∧
      encodeLeafPage contents.entries nextLeaf = .ok bytes ∧ ∀ next ∈ nextLeaf, next < pages.length
  | height + 1, node, contents =>
    ∃ (bytes : Bytes) (children : List (NodeSummary × Contents)),
      pages[node.page]? = some bytes ∧ encodeInternalPage (children.map Prod.fst) = .ok bytes ∧
      (∀ child ∈ children, Denotes pages height child.1 child.2) ∧
      (∃ first, children.head? = some first ∧ first.1.firstKey = node.firstKey ∧
        first.2.firstLeaf = contents.firstLeaf) ∧
      contents.entries = children.flatMap (·.2.entries)

namespace Denotes

variable {pgs : List Bytes} {n : Nat} {nd : NodeSummary} {cs : Contents}

theorem page_lt (h : Denotes pgs n nd cs) : nd.page < pgs.length := by
  cases n with
  | zero =>
    obtain ⟨-, -, bs, nl, hb, -⟩ := h
    exact (List.getElem?_eq_some_iff.1 hb).1
  | succ n =>
    obtain ⟨bs, cs, hb, -⟩ := h
    exact (List.getElem?_eq_some_iff.1 hb).1

theorem head (h : Denotes pgs n nd cs) : cs.entries.head?.map (·.key) = some nd.firstKey := by
  induction n generalizing nd cs with
  | zero => exact h.2.1
  | succ n ih =>
    obtain ⟨bs, chs, -, -, hkd, ⟨first, hf, hk, -⟩, hen⟩ := h
    have hhd := ih (hkd first (mem_of_head? hf))
    obtain ⟨r, rfl⟩ := head?_eq_some_iff.1 hf
    obtain ⟨e, he, -⟩ := map_eq_some_iff.1 hhd
    rw [hen, flatMap_cons, head?_append, he, some_or, ← he, hhd, hk]

theorem append (h : Denotes pgs n nd cs) (m : List Bytes) : Denotes (pgs ++ m) n nd cs := by
  have hkp {p : Nat} {bs : Bytes} (hb : pgs[p]? = some bs) : (pgs ++ m)[p]? = some bs := by
    rw [getElem?_append_left (List.getElem?_eq_some_iff.1 hb).1, hb]
  induction n generalizing nd cs with
  | zero =>
    obtain ⟨hf, hhd, bs, nl, hb, he, hnx⟩ := h
    refine ⟨hf, hhd, bs, nl, hkp hb, he, fun next hm => ?_⟩
    rw [length_append]
    exact Nat.lt_add_right _ (hnx next hm)
  | succ n ih =>
    obtain ⟨bs, chs, hb, he, hkd, hf, hen⟩ := h
    exact ⟨bs, chs, hkp hb, he, fun c hch => ih (hkd c hch), hf, hen⟩

end Denotes

/-- A link to a page cannot be taken for the mark of the last leaf. -/
theorem lt_noPage {n next : Nat} (hc : n < 2 ^ 32) (hnx : next < n) : next < noPage := by
  unfold noPage
  omega

/-- The way down from a page to the leaf for a key: the internal nodes on it, and the leaf. -/
inductive Descends (pages : List Bytes) (key : Bytes) :
    Nat → List Nat → Nat → List LeafEntry → Prop where
  | leaf {page : Nat} {bytes : Bytes} {entries : List LeafEntry} {nextLeaf : Option Nat}
      (hbytes : pages[page]? = some bytes) (hleaf : LeafAt bytes entries nextLeaf)
      (hnext : ∀ next ∈ nextLeaf, next < noPage) : Descends pages key page [] page entries
  | child {page leaf : Nat} {bytes : Bytes} {group : List NodeSummary} {child : NodeSummary}
      {path : List Nat} {entries : List LeafEntry} (hbytes : pages[page]? = some bytes)
      (hnode : InternalAt bytes group) (hpages : ∀ child ∈ group, child.page < 2 ^ 32)
      (hsorted : (group.map (·.firstKey)).Pairwise (· < ·))
      (hchild : group[((group.tail.map (·.firstKey)).takeWhile (· ≤ key)).length]? = some child)
      (hrest : Descends pages key child.page path leaf entries) :
      Descends pages key page (page :: path) leaf entries

section Way

variable {pgs : List Bytes} {n : Nat} {nd : NodeSummary} {cs : Contents}

theorem chunks_ascend {cs : List (NodeSummary × Contents)}
    (hkd : ∀ c ∈ cs, Denotes pgs n c.1 c.2) (hac : KeysAscend (cs.flatMap (·.2.entries))) :
    (∀ c ∈ cs, KeysAscend c.2.entries) ∧ ((cs.map Prod.fst).map (·.firstKey)).Pairwise (· < ·) := by
  obtain ⟨hec, hcr⟩ := pairwise_flatMap.1 hac
  refine ⟨hec, ?_⟩
  rw [List.map_map, pairwise_map]
  refine hcr.imp_of_mem fun {first s} hf hsc hls => ?_
  obtain ⟨a, ha, hak⟩ := map_eq_some_iff.1 (hkd first hf).head
  obtain ⟨b, hb, hbk⟩ := map_eq_some_iff.1 (hkd s hsc).head
  have hks := hls a (mem_of_head? ha) b (mem_of_head? hb)
  rwa [hak, hbk] at hks

/-- From every node there is a way down to the one leaf that matters for a key, and for the keys between the
same two entries. -/
theorem Denotes.descends (h : Denotes pgs n nd cs) (hc : pgs.length < 2 ^ 32)
    (hft : ∀ e ∈ cs.entries, e.Fits) (hac : KeysAscend cs.entries)
    (key : Bytes) : ∃ p l es, (∀ key', (∀ e ∈ cs.entries,
        (e.key ≤ key' ↔ e.key ≤ key)) → Descends pgs key' nd.page p l es) ∧
      p.length = n ∧ KeysAscend es ∧ Search.Around LeafEntry.key key es cs.entries := by
  induction n generalizing nd cs with
  | zero =>
    obtain ⟨-, -, bs, nl, hb, hn, hnx⟩ := h
    have hln := fun next hm => lt_noPage hc (hnx next hm)
    exact ⟨[], nd.page, cs.entries,
      fun _ _ => .leaf hb (leafAt_of_encode hn hft hln) hln, rfl, hac, [], [], by simp⟩
  | succ n ih =>
    obtain ⟨bs, chs, hb, hn, hkd, ⟨first, hf, -⟩, hen⟩ := h
    rw [hen] at hac hft ⊢
    obtain ⟨hec, hsr⟩ := chunks_ascend hkd hac
    -- the child whose chunk has the key, if any has
    let cks := chs.map fun c => (c.1.firstKey, c.2.entries)
    have hfl : cks.flatMap Prod.snd = chs.flatMap (·.2.entries) := by rw [flatMap_map]
    have hne : cks ≠ [] := by
      intro hnl
      rw [map_eq_nil_iff.1 hnl] at hf
      cases hf
    have hhd : ∀ ch ∈ cks, ch.2.head?.map LeafEntry.key = some ch.1 := by
      intro ch hck
      obtain ⟨c, hch, rfl⟩ := List.mem_map.1 hck
      exact (hkd c hch).head
    obtain ⟨ch, hck, har⟩ := Search.around_chunk hne hhd (hfl ▸ hac) key
    rw [hfl] at har
    rw [getElem?_map, map_eq_some_iff] at hck
    obtain ⟨c, hix, rfl⟩ := hck
    have hm := mem_of_getElem? hix
    have he : ∀ e ∈ c.2.entries, e.Fits := fun e he => hft e (mem_flatMap.2 ⟨c, hm, he⟩)
    obtain ⟨p, l, es, hds, hl, hlf, hfd⟩ := ih (hkd c hm) he (hec c hm)
    refine ⟨nd.page :: p, l, es, fun key' hsm =>
      .child hb (internalAt_of_encode hn) ?_ hsr ?_
        (hds key' fun e he => hsm e (mem_flatMap.2 ⟨c, hm, he⟩)),
      by rw [length_cons, hl], hlf, hfd.trans har⟩
    · intro o ho
      obtain ⟨pr, hpr, rfl⟩ := List.mem_map.1 ho
      exact (hkd pr hpr).page_lt.trans hc
    · have hpv : cks.tail.map Prod.fst = (chs.map Prod.fst).tail.map (·.firstKey) := by
        simp only [cks, ← map_tail, List.map_map]
        rfl
      have htk : (cks.tail.map Prod.fst).takeWhile (· ≤ key') =
          (cks.tail.map Prod.fst).takeWhile (· ≤ key) := by
        refine Search.takeWhile_congr fun pv hpi => ?_
        -- a pivot is the key of the first entry below it
        obtain ⟨ch, hck, rfl⟩ := List.mem_map.1 hpi
        have hck := mem_of_mem_tail hck
        obtain ⟨e, he, hk⟩ := map_eq_some_iff.1 (hhd ch hck)
        have := hsm e (hfl ▸ mem_flatMap.2 ⟨ch, hck, mem_of_head? he⟩)
        rwa [hk, ← decide_eq_decide] at this
      rw [← htk, hpv] at hix
      rw [getElem?_map, hix, map_some]

end Way

/-- The leaves of the groups stand on the pages from `page` on, each one with a link to the next. -/
def Chain (pages : List Bytes) : Nat → List (List LeafEntry) → Prop
  | _, [] => True
  | page, group :: rest =>
    (∃ bytes, pages[page]? = some bytes ∧
      encodeLeafPage group (if rest.isEmpty then none else some (page + 1)) = .ok bytes) ∧
    Chain pages (page + 1) rest

theorem Chain.append {ps : List Bytes} {p : Nat} {gs : List (List LeafEntry)}
    (h : Chain ps p gs) (m : List Bytes) : Chain (ps ++ m) p gs := by
  induction gs generalizing p with
  | nil => trivial
  | cons g r ih =>
    obtain ⟨⟨bs, hb, he⟩, hr⟩ := h
    refine ⟨⟨bs, ?_, he⟩, ih hr⟩
    rw [getElem?_append_left (List.getElem?_eq_some_iff.1 hb).1, hb]

end Aerobag.NavKv
