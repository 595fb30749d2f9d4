import Aerobag.NavKv.Proofs.TreeProofs

/-!
# Reading a tree

`Tree` is a tree as the builder leaves it. A lookup goes the way down to one leaf and gives the value
that the entries have for the key; the scan of all pairs follows the linked leaves.
-/

open List

namespace Aerobag.NavKv

open Reading

/-- The reading asks for the pages and then gives the value, or fails. -/
def Gives {α : Type} (x : Reading α) (result : Option α) (reads : List Nat) : Prop :=
  ∀ asked, x.run asked = match result with
    | some a => .ok a (asked ++ reads)
    | none => .error () (asked ++ reads)

namespace Gives

variable {α β : Type} {x : Reading α} {rds : List Nat} {res : Option α} {a : α} {f : α → Reading β}

theorem value (h : Gives x res rds) : x.value = res := by
  rw [Reading.value, Command.result, h []]
  cases res <;> rfl

theorem asked (h : Gives x res rds) : x.asked = rds := by
  rw [Reading.asked, Command.final, h []]
  cases res <;> rfl

theorem pure (a : α) : Gives (Pure.pure a) (some a) [] := by
  intro ask
  rw [append_nil]
  rfl

theorem throw : Gives (throw () : Reading α) none [] := by
  intro asked
  rw [append_nil]
  rfl

theorem ofOption {y : Option α} (h : y = res) : Gives (Reading.ofOption y) res [] := by
  subst h
  cases y with
  | none => exact .throw
  | some a => exact .pure a

theorem ofExcept {y : Except String α} (h : y = .ok a) :
    Gives (Reading.ofExcept y) (some a) [] := by
  rw [h]
  exact .pure a

theorem fetch {pv : Nat → Option Bytes} {p : Nat} {bs : Bytes}
    (h : pv p = some bs) : Gives (Reading.fetch pv p) (some bs) [p] := by
  intro asked
  simp only [Reading.fetch, h]
  rfl

theorem bind {r : Option β} {m : List Nat} (hx : Gives x (some a) rds)
    (hf : Gives (f a) r m) : Gives (x >>= f) r (rds ++ m) := by
  intro ask
  rw [Command.run_bind, hx ask]
  exact (hf (ask ++ rds)).trans (by rw [append_assoc])

theorem map (hx : Gives x (some a) rds) (g : α → β) :
    Gives (x >>= fun a => Pure.pure (g a)) (some (g a)) rds := by
  simpa using hx.bind (f := fun a => Pure.pure (g a)) (pure (g a))

theorem exists_bind {rs : List Nat} {r : Option β} (hx : Gives x (some a) rs)
    (hf : ∃ m, Gives (f a) r m) : ∃ rs, Gives (x >>= f) r rs := by
  obtain ⟨m, hmr⟩ := hf
  exact ⟨_, hx.bind hmr⟩

theorem bind_none (hx : Gives x none rds) : Gives (x >>= f) none rds := by
  intro asked
  rw [Command.run_bind, hx asked]

theorem congr {rs' : List Nat} (h : Gives x res rds) (hrs : rds = rs') : Gives x res rs' := hrs ▸ h

end Gives

/-- The provider has the node pages as far as they are served. -/
structure Serves (root : NavKvRoot) (provider : Nat → Option Bytes) (nodePages : List Bytes)
    (served : Nat → Prop) : Prop where
  count : nodePages.length = root.valuePageStart
  page : ∀ {page bytes}, served page → nodePages[page]? = some bytes → provider page = some bytes

section Nodes

variable {root : NavKvRoot} {prov : Nat → Option Bytes} {nodePages : List Bytes} {key : Bytes}
  {page lf fuel : Nat} {path : List Nat} {entries : List LeafEntry} {bytes : Bytes}
  {nextLeaf : Option Nat} {sv : Nat → Prop}

theorem Serves.not_value (h : Serves root prov nodePages sv) (hb : nodePages[page]? = some bytes) :
    ¬ root.valuePageStart ≤ page := by
  rw [← h.count, Nat.not_le]
  exact (List.getElem?_eq_some_iff.1 hb).1

theorem gives_readNode_leaf (h : Serves root prov nodePages sv) (hpg : sv page)
    (hb : nodePages[page]? = some bytes) (hlf : LeafAt bytes entries nextLeaf)
    (hnx : ∀ next ∈ nextLeaf, next < noPage) :
    Gives (root.readNode prov page) (some (.leaf ⟨nextLeaf, entries⟩)) [page] := by
  rw [NavKvRoot.readNode, if_neg (h.not_value hb)]
  refine (Gives.fetch (h.page hpg hb)).bind (.bind (.ofExcept hlf.kind) ?_)
  exact .bind (.ofExcept (hlf.parse hnx)) (.pure _)

theorem gives_readNode_internal {g : List NodeSummary}
    (h : Serves root prov nodePages sv) (hpg : sv page)
    (hb : nodePages[page]? = some bytes) (hnd : InternalAt bytes g)
    (hps : ∀ c ∈ g, c.page < 2 ^ 32) : Gives (root.readNode prov page)
      (some (.internal ⟨g.map (·.page), g.tail.map (·.firstKey)⟩)) [page] := by
  rw [NavKvRoot.readNode, if_neg (h.not_value hb)]
  refine (Gives.fetch (h.page hpg hb)).bind (.bind (.ofExcept hnd.kind) ?_)
  exact .bind (.ofExcept (hnd.parse hps)) (.pure _)

theorem gives_readLeaf (h : Serves root prov nodePages sv) (hpg : sv page)
    (hb : nodePages[page]? = some bytes) (hlf : LeafAt bytes entries nextLeaf)
    (hnx : ∀ next ∈ nextLeaf, next < noPage) :
    Gives (root.readLeaf prov page) (some ⟨nextLeaf, entries⟩) [page] :=
  (gives_readNode_leaf h hpg hb hlf hnx).bind (.pure _)

theorem partitionPoint_pivots {g : List NodeSummary} (hsr : (g.map (·.firstKey)).Pairwise (· < ·)) :
    Search.partitionPoint (fun p => decide (p ≤ key)) (g.tail.map (·.firstKey)) =
      ((g.tail.map (·.firstKey)).takeWhile (· ≤ key)).length := by
  refine Search.partitionPoint_eq ?_
  rw [map_tail]
  refine hsr.tail.imp fun {a b} hls hb => ?_
  rw [decide_eq_true_eq] at hb ⊢
  exact (hls.trans_le hb).le

/-- The reader goes the way down to the leaf of a key. -/
theorem gives_findLeafPageForKey {p l n : Nat} {pt : List Nat} {es : List LeafEntry}
    (h : Serves root prov nodePages sv)
    (hw : Descends nodePages key p pt l es) (hps : ∀ p ∈ pt ++ [l], sv p) (hfu : pt.length < n) :
    Gives (root.findLeafPageForKey prov key n p) (some l) (pt ++ [l]) := by
  induction hw generalizing n with
  | leaf hb hlf hnx =>
    obtain ⟨n, rfl⟩ := Nat.exists_eq_succ_of_ne_zero (Nat.ne_of_gt hfu)
    exact (gives_readNode_leaf h (hps _ (by simp)) hb hlf hnx).bind (.pure _)
  | @child p l bs g c pt es hb hnd hkd hsr hch _ ih =>
    obtain ⟨n, rfl⟩ := Nat.exists_eq_succ_of_ne_zero (Nat.ne_of_gt (Nat.zero_lt_of_lt hfu))
    rw [cons_append, forall_mem_cons] at hps
    refine (gives_readNode_internal h hps.1 hb hnd hkd).bind ?_
    have hnx : (g.map (·.page))[Search.partitionPoint (fun pv => decide (pv ≤ key))
        (g.tail.map (·.firstKey))]? = some c.page := by
      rw [partitionPoint_pivots hsr, getElem?_map, hch, Option.map_some]
    exact (Gives.ofOption hnx).bind (ih hps.2 (Nat.lt_of_succ_lt_succ hfu))

theorem Descends.leafAt (hw : Descends nodePages key page path lf entries) :
    ∃ bs nl, nodePages[lf]? = some bs ∧ LeafAt bs entries nl ∧ ∀ next ∈ nl, next < noPage := by
  induction hw with
  | leaf hb hlf hnx => exact ⟨_, _, hb, hlf, hnx⟩
  | child _ _ _ _ _ _ ih => exact ih

theorem binarySearch_entries (hac : KeysAscend entries) :
    ((Search.binarySearchBy (fun e => compareBytes e.key key) entries).toOption.bind
      fun i => entries[i]?) = entryFor key entries := by
  have hpr : Search.Partitioned (fun e => compareBytes e.key key) entries := by
    refine hac.imp fun {a b} hls => ?_
    rcases lt_or_ge a.key key with hlt | hge
    · exact .inl (compareBytes_eq_lt.2 hlt)
    · exact .inr (compareBytes_eq_gt.2 (hge.trans_lt hls))
  rw [Search.getElem?_binarySearchBy hpr, entryFor]
  exact congrArg (entries.find? ·) (funext fun e => decide_eq_decide.2 compareBytes_eq_eq)

theorem gives_findLeafEntry (h : Serves root prov nodePages sv)
    (hw : Descends nodePages key root.rootPage path lf entries)
    (hps : ∀ p ∈ path ++ [lf], sv p) (hac : KeysAscend entries) (hfu : path.length < fuel) :
    Gives (root.findLeafEntry prov fuel key) (entryFor key entries) (path ++ [lf] ++ [lf]) := by
  obtain ⟨bs, nl, hb, hlf, hnx⟩ := hw.leafAt
  exact (gives_findLeafPageForKey h hw hps hfu).bind
    ((gives_readLeaf h (hps lf (by simp)) hb hlf hnx).bind (.ofOption (binarySearch_entries hac)))

theorem gives_firstLeafPage {fu : Nat}
    (h : Serves root prov nodePages fun _ => True) (hc : nodePages.length < 2 ^ 32)
    {n : Nat} {nd : NodeSummary} {cts : Contents} (hnd : Denotes nodePages n nd cts)
    (hft : ∀ e ∈ cts.entries, e.Fits) (hfu : n < fu) :
    ∃ rs, Gives (root.firstLeafPage prov fu nd.page) (some cts.firstLeaf) rs := by
  obtain ⟨fu, rfl⟩ := Nat.exists_eq_succ_of_ne_zero (Nat.ne_of_gt (Nat.zero_lt_of_lt hfu))
  induction n generalizing nd cts fu with
  | zero =>
    obtain ⟨hf, -, bs, nl, hb, hec, hnx⟩ := hnd
    have hln := fun next hm => lt_noPage hc (hnx next hm)
    rw [hf]
    exact ⟨_, (gives_readNode_leaf h trivial hb (leafAt_of_encode hec hft hln) hln).bind (.pure _)⟩
  | succ n ih =>
    obtain ⟨bs, cs, hb, hec, hkd, ⟨first, hf, -, hlf⟩, hen⟩ := hnd
    have hm := mem_of_head? hf
    have hps : ∀ c ∈ cs.map Prod.fst, c.page < 2 ^ 32 := by
      intro c hch
      obtain ⟨p, hpr, rfl⟩ := List.mem_map.1 hch
      exact (hkd p hpr).page_lt.trans hc
    have hhd : ((cs.map Prod.fst).map (·.page)).head? = some first.1.page := by
      rw [head?_map, head?_map, hf]
      rfl
    have hsb : ∀ e ∈ first.2.entries, e.Fits := fun e he =>
      hft e (hen ▸ mem_flatMap.2 ⟨first, hm, he⟩)
    obtain ⟨fu, rfl⟩ := Nat.exists_eq_succ_of_ne_zero
      (Nat.ne_of_gt (Nat.zero_lt_of_lt (Nat.lt_of_succ_lt_succ hfu)))
    obtain ⟨rs, hrs⟩ := ih (hkd first hm) hsb fu (Nat.lt_of_succ_lt_succ hfu)
    rw [hlf] at hrs
    exact ⟨_, (gives_readNode_internal h trivial hb (internalAt_of_encode hec) hps).bind
      ((Gives.ofOption hhd).bind hrs)⟩

end Nodes

theorem mem_inclusive {st s i : Nat} : i ∈ inclusive st s ↔ st ≤ i ∧ i ≤ s := by
  rw [inclusive, mem_range'_1]
  omega

/-- The bytes of the values of a tree, in whole pages that can be counted with `u32`. -/
structure NavKvRoot.Values (root : NavKvRoot) (valueBytes : Bytes) : Prop where
  valid : root.Valid
  logical : root.pageCount * root.pageSize < 2 ^ 32
  length : valueBytes.length = root.valueBytesLen

/-- The bytes of a value page. -/
def valuePage (root : NavKvRoot) (valueBytes : Bytes) (index : Nat) : Bytes :=
  (valueBytes.drop (index * root.pageSize)).take root.pageSize

section Values

variable {root : NavKvRoot} {prov : Nat → Option Bytes} {valueBytes : Bytes}
  {idx start stop : Nat}

def NavKvRoot.valuePageEnd (root : NavKvRoot) : Nat :=
  root.valuePageStart + (root.valueBytesLen + root.pageSize - 1) / root.pageSize

theorem NavKvRoot.lt_valuePageEnd (hp : 0 < root.pageSize)
    (hix : idx * root.pageSize < root.valueBytesLen) :
    root.valuePageStart + idx < root.valuePageEnd := by
  refine Nat.add_lt_add_left ?_ _
  rw [← Nat.succ_le_iff, Nat.le_div_iff_mul_le hp, Nat.succ_mul]
  omega

theorem NavKvRoot.Values.page_lt (h : root.Values valueBytes)
    (hix : idx * root.pageSize < valueBytes.length) : root.valuePageStart + idx < root.pageCount :=
  h.valid.valuePages ▸ root.lt_valuePageEnd h.valid.pageSize_pos (h.length ▸ hix)

theorem NavKvRoot.Values.end_lt (h : root.Values valueBytes)
    (hix : idx * root.pageSize < valueBytes.length) :
    idx * root.pageSize + root.pageSize < 2 ^ 32 := by
  have hle : idx + 1 ≤ root.pageCount := by
    have := h.page_lt hix
    omega
  rw [← Nat.succ_mul]
  exact (Nat.mul_le_mul_right _ hle).trans_lt h.logical

theorem gives_valuePage {i : Nat} (h : root.Values valueBytes) {r : List Nat} {os : Bytes}
    {rs : List Nat} (hpg : prov (root.valuePageStart + i) = some (valuePage root valueBytes i))
    (hix : i * root.pageSize < stop) (hst : stop ≤ valueBytes.length)
    (hs : start < i * root.pageSize + root.pageSize) (hlt : start < stop)
    (hr : Gives (root.readValuePages prov start stop r) (some os) rs) :
    Gives (root.readValuePages prov start stop (i :: r))
      (some (between valueBytes (max start (i * root.pageSize))
        (min stop (i * root.pageSize + root.pageSize)) ++ os))
      ((root.valuePageStart + i) :: rs) := by
  have hin := hix.trans_le hst
  have he := h.end_lt hin
  have hnm : wrap (root.valuePageStart + i) = root.valuePageStart + i :=
    Nat.mod_eq_of_lt ((h.page_lt hin).trans h.valid.pageCount)
  have hof : wrap (i * root.pageSize) = i * root.pageSize := Nat.mod_eq_of_lt (by omega)
  have hnx : wrap (i * root.pageSize + root.pageSize) = i * root.pageSize + root.pageSize :=
    Nat.mod_eq_of_lt he
  have hl : (valuePage root valueBytes i).length =
      min root.pageSize (valueBytes.length - i * root.pageSize) := by
    rw [valuePage, length_take, length_drop]
  rw [NavKvRoot.readValuePages]
  simp only [hnm, hof, hnx]
  generalize hfr : i * root.pageSize = offset at *
  have hsl : wrap (min stop (offset + root.pageSize) + 2 ^ 32 - offset) =
      min stop (offset + root.pageSize) - offset := by
    unfold wrap
    omega
  refine (Gives.fetch hpg).bind ?_
  rw [hsl, if_neg (by omega)]
  have hpr : between (valuePage root valueBytes i) (start - offset)
      (min stop (offset + root.pageSize) - offset) =
      between valueBytes (max start offset) (min stop (offset + root.pageSize)) := by
    have hsz : min stop (offset + root.pageSize) - offset ≤ root.pageSize := by omega
    rw [valuePage, between_piece hsz]
    congr 1 <;> omega
  rw [← hpr]
  rw [← append_nil rs]
  exact hr.bind (.pure _)

theorem gives_readValuePages {ix : Nat} (h : root.Values valueBytes) {n : Nat}
    (hps : ∀ i ∈ List.range' ix n, prov (root.valuePageStart + i) =
      some (valuePage root valueBytes i)) (hst : stop ≤ valueBytes.length) (hlt : start < stop)
    (hs : start < ix * root.pageSize + root.pageSize)
    (hl : ∀ i ∈ List.range' ix n, i * root.pageSize < stop)
    (hcv : stop ≤ (ix + n) * root.pageSize) :
    Gives (root.readValuePages prov start stop (List.range' ix n))
      (some (between valueBytes (max start (ix * root.pageSize)) stop))
      ((List.range' ix n).map (root.valuePageStart + ·)) := by
  induction n generalizing ix with
  | zero =>
    rw [Nat.add_zero] at hcv
    rw [between_eq_nil (hcv.trans (Nat.le_max_right _ _))]
    exact .pure []
  | succ n ih =>
    rw [range'_succ, forall_mem_cons] at hps hl
    have hnx : (ix + 1) * root.pageSize = ix * root.pageSize + root.pageSize := Nat.succ_mul _ _
    have hr := ih hps.2 (by omega) hl.2 (by rwa [Nat.add_right_comm])
    have hg := gives_valuePage h hps.1 hl.1 hst hs hlt hr
    have hjn : between valueBytes (max start (ix * root.pageSize))
        (min stop (ix * root.pageSize + root.pageSize)) ++
        between valueBytes (max start ((ix + 1) * root.pageSize)) stop =
        between valueBytes (max start (ix * root.pageSize)) stop := by
      rw [hnx]
      rcases Nat.le_total stop (ix * root.pageSize + root.pageSize) with he | hmr
      · rw [Nat.min_eq_left he, between_eq_nil (he.trans (Nat.le_max_right _ _)), append_nil]
      · rw [Nat.min_eq_right hmr, Nat.max_eq_right hs.le]
        exact between_append (by omega) hmr
    rwa [hjn] at hg

/-- A value is put together from its pages. -/
theorem gives_readExternalValue (h : root.Values valueBytes) {len : Nat} (hl : 0 < len)
    (hin : start + len ≤ valueBytes.length)
    (hps : ∀ i ∈ inclusive (start / root.pageSize) ((start + len - 1) / root.pageSize),
      prov (root.valuePageStart + i) = some (valuePage root valueBytes i)) :
    Gives (root.readExternalValue prov start len) (some (between valueBytes start (start + len)))
      ((inclusive (start / root.pageSize) ((start + len - 1) / root.pageSize)).map
        (root.valuePageStart + ·)) := by
  have hp := h.valid.pageSize_pos
  have hb := h.valid.valueBytesLen
  have hln := h.length
  have hf : start / root.pageSize * root.pageSize ≤ start := Nat.div_mul_le_self _ _
  have hfr : start < start / root.pageSize * root.pageSize + root.pageSize := by
    have := Nat.lt_div_mul_add hp (a := start)
    omega
  have hls : start + len - 1 < (start + len - 1) / root.pageSize * root.pageSize + root.pageSize :=
    Nat.lt_div_mul_add hp
  have hor : start / root.pageSize ≤ (start + len - 1) / root.pageSize :=
    Nat.div_le_div_right (by omega)
  rw [NavKvRoot.readExternalValue, if_neg hl.ne', if_neg (by omega), if_neg (by omega)]
  have hbl : ∀ i ∈ inclusive (start / root.pageSize) ((start + len - 1) / root.pageSize),
      i * root.pageSize < start + len := by
    intro i hi
    have hil := (mem_inclusive.1 hi).2
    have := (Nat.mul_le_mul_right root.pageSize hil).trans (Nat.div_mul_le_self _ _)
    omega
  have hcv : start + len ≤ (start / root.pageSize +
      ((start + len - 1) / root.pageSize + 1 - start / root.pageSize)) * root.pageSize := by
    rw [Nat.add_sub_cancel' (by omega), Nat.succ_mul]
    omega
  have hg := gives_readValuePages h hps hin (by omega) hfr hbl hcv
  rwa [Nat.max_eq_left hf] at hg

end Values

/-- A value that does not stand in a leaf is a part of the value bytes, and not empty. -/
def LeafEntryValue.Stored (valueBytes : Bytes) : LeafEntryValue → Prop
  | .inline _ => True
  | .external offset len => 0 < len ∧ offset + len ≤ valueBytes.length

def LeafEntryValue.bytesIn (valueBytes : Bytes) : LeafEntryValue → Bytes
  | .inline bytes => bytes
  | .external offset len => between valueBytes offset (offset + len)

/-- A tree as the builder leaves it: the node pages, then the value bytes cut into pages. -/
structure Tree (root : NavKvRoot) where
  nodePages : List Bytes
  valueBytes : Bytes
  height : Nat
  node : NodeSummary
  groups : List (List LeafEntry)
  values : root.Values valueBytes
  rootPage : node.page = root.rootPage
  nodeCount : nodePages.length = root.valuePageStart
  denotes : Denotes nodePages height node ⟨0, groups.flatten⟩
  chain : Chain nodePages 0 groups
  height_lt : height < nodePages.length
  ascend : KeysAscend groups.flatten
  fits : ∀ entry ∈ groups.flatten, entry.Fits
  stored : ∀ entry ∈ groups.flatten, entry.value.Stored valueBytes

namespace Tree

variable {root : NavKvRoot} (t : Tree root) {fuel : Nat}

/-- All entries, from leaf to leaf. -/
def entries : List LeafEntry := t.groups.flatten

def pages : List Bytes := t.nodePages ++ pieces root.pageSize t.valueBytes

def valuePages (root : NavKvRoot) : LeafEntryValue → List Nat
  | .inline _ => []
  | .external offset len =>
    (inclusive (offset / root.pageSize) ((offset + len - 1) / root.pageSize)).map
      (root.valuePageStart + ·)

theorem length_pages : t.pages.length = root.pageCount := by
  rw [pages, length_append, length_pieces, t.nodeCount, t.values.length, t.values.valid.valuePages]

theorem nodeCount_le : t.nodePages.length ≤ root.pageCount := by
  rw [t.nodeCount]
  exact t.values.valid.valuePageStart_le

theorem nodeCount_lt : t.nodePages.length < 2 ^ 32 :=
  t.nodeCount_le.trans_lt t.values.valid.pageCount

theorem getElem?_nodePage {p : Nat} {bs : Bytes} (h : t.nodePages[p]? = some bs) :
    t.pages[p]? = some bs := by
  rw [pages, getElem?_append_left (List.getElem?_eq_some_iff.1 h).1, h]

theorem serves : Serves root (t.pages[·]?) t.nodePages fun _ => True :=
  ⟨t.nodeCount, fun _ => t.getElem?_nodePage⟩

theorem getElem?_valuePage {i : Nat} (h : i * root.pageSize < t.valueBytes.length) :
    t.pages[root.valuePageStart + i]? = some (valuePage root t.valueBytes i) := by
  rw [pages, getElem?_append_right (by rw [t.nodeCount]; omega), t.nodeCount,
    Nat.add_sub_cancel_left, getElem?_pieces t.values.valid.pageSize_pos h]
  rfl

theorem getElem?_of_stored {off len i : Nat}
    (h : (LeafEntryValue.external off len).Stored t.valueBytes)
    (hix : i ∈ inclusive (off / root.pageSize) ((off + len - 1) / root.pageSize)) :
    t.pages[root.valuePageStart + i]? = some (valuePage root t.valueBytes i) := by
  obtain ⟨hl, hin⟩ := h
  have := (Nat.mul_le_mul_right root.pageSize (mem_inclusive.1 hix).2).trans
    (Nat.div_mul_le_self _ _)
  exact t.getElem?_valuePage (by omega)

theorem exists_common_way (key : Bytes) : ∃ p l es,
    (∀ key', (∀ e ∈ t.entries, (e.key ≤ key' ↔ e.key ≤ key)) →
      Descends t.nodePages key' root.rootPage p l es) ∧ p.length < root.pageCount ∧
      KeysAscend es ∧ Search.Around LeafEntry.key key es t.entries := by
  obtain ⟨p, l, es, hw, hl, hac, hfd⟩ := t.denotes.descends t.nodeCount_lt t.fits t.ascend key
  rw [t.rootPage] at hw
  exact ⟨p, l, es, hw, hl ▸ t.height_lt.trans_le t.nodeCount_le, hac, hfd⟩

/-- There is a way down for every key. -/
theorem exists_way (key : Bytes) : ∃ p l es,
    Descends t.nodePages key root.rootPage p l es ∧ p.length < root.pageCount ∧
      KeysAscend es ∧ Search.Around LeafEntry.key key es t.entries := by
  obtain ⟨p, l, es, hw, hr⟩ := t.exists_common_way key
  exact ⟨p, l, es, hw key fun _ _ => .rfl, hr⟩

theorem stored_of_entryFor {key : Bytes} {e : LeafEntry}
    (h : entryFor key t.entries = some e) : e.value.Stored t.valueBytes :=
  t.stored e ((Search.lookup_eq_some t.ascend).1 h).1

/-- A lookup gives the value of the key's entry, and reads the pages on the way and those of the
value. -/
theorem gives_extractValue {key : String} {p : List Nat} {l : Nat} {es : List LeafEntry}
    (hw : Descends t.nodePages (strBytes key) root.rootPage p l es) (hac : KeysAscend es)
    (hfd : entryFor (strBytes key) es = entryFor (strBytes key) t.entries)
    (hfu : p.length < fuel) : Gives (root.extractValue (t.pages[·]?) fuel key)
      ((entryFor (strBytes key) t.entries).map fun e => e.value.bytesIn t.valueBytes)
      (p ++ [l] ++ [l] ++
        (entryFor (strBytes key) t.entries).elim [] fun e => valuePages root e.value) := by
  have he := gives_findLeafEntry t.serves hw (fun _ _ => trivial) hac hfu
  rw [hfd] at he
  cases hcs : entryFor (strBytes key) t.entries with
  | none =>
    rw [hcs] at he
    exact he.bind_none.congr (append_nil _).symm
  | some e =>
    rw [hcs] at he
    refine he.bind ?_
    have hso := t.stored_of_entryFor hcs
    obtain ⟨ek, v⟩ := e
    cases v with
    | inline bs => exact .pure bs
    | external off len =>
      change Gives (if len = 0 then _ else _) _ _
      rw [if_neg hso.1.ne']
      exact gives_readExternalValue t.values hso.1 hso.2 fun i hi => t.getElem?_of_stored hso hi

variable (repair : Bytes → String)

def pairOf (entry : LeafEntry) : NavKvPair :=
  ⟨fromUtf8Lossy repair entry.key, entry.value.bytesIn t.valueBytes⟩

theorem gives_readPairs {es : List LeafEntry} (hso : ∀ e ∈ es, e.value.Stored t.valueBytes) :
    ∃ rs, Gives (root.readPairs (t.pages[·]?) repair es) (some (es.map (t.pairOf repair))) rs := by
  induction es with
  | nil => exact ⟨[], .pure []⟩
  | cons e r ih =>
    rw [forall_mem_cons] at hso
    obtain ⟨rs, hr⟩ := ih hso.2
    have hv : ∃ rs, Gives (root.readPair (t.pages[·]?) repair e) (some (t.pairOf repair e)) rs := by
      obtain ⟨key, v⟩ := e
      cases v with
      | inline bs => exact ⟨_, (Gives.pure bs).bind (.pure _)⟩
      | external off len =>
        exact ⟨_, (gives_readExternalValue t.values hso.1.1 hso.1.2
          fun i hi => t.getElem?_of_stored hso.1 hi).bind (.pure _)⟩
    obtain ⟨_, hpr⟩ := hv
    exact ⟨_, hpr.bind (hr.bind (.pure _))⟩

theorem exists_chainLeaf {g : List LeafEntry} {r : List (List LeafEntry)} {p : Nat}
    (hcn : Chain t.nodePages p (g :: r)) (hft : ∀ e ∈ g, e.Fits) :
    ∃ bs nl, t.nodePages[p]? = some bs ∧ LeafAt bs g nl ∧ (∀ next ∈ nl, next < noPage) ∧
      nl = if r.isEmpty then none else some (p + 1) := by
  obtain ⟨⟨bs, hb, he⟩, hr⟩ := hcn
  have hln : ∀ next ∈ if r.isEmpty then none else some (p + 1), next < noPage := by
    cases r with
    | nil => simp
    | cons s os =>
      obtain ⟨⟨next, hnx, -⟩, -⟩ := hr
      rintro _ ⟨⟩
      exact lt_noPage t.nodeCount_lt (List.getElem?_eq_some_iff.1 hnx).1
  exact ⟨bs, _, hb, leafAt_of_encode he hft hln, hln, rfl⟩

/-- The scan from a leaf on follows the chain to its end. -/
theorem gives_pairsFrom {n : Nat} {gs : List (List LeafEntry)} {p : Nat}
    (hcn : Chain t.nodePages p gs) (hne : gs ≠ []) (hft : ∀ e ∈ gs.flatten, e.Fits)
    (hso : ∀ e ∈ gs.flatten, e.value.Stored t.valueBytes) (hfu : t.nodePages.length - p ≤ n) :
    ∃ rs, Gives (root.pairsFrom (t.pages[·]?) repair n p)
      (some (gs.flatten.map (t.pairOf repair))) rs := by
  induction gs generalizing p n with
  | nil => exact absurd rfl hne
  | cons g r ih =>
    simp only [flatten_cons, forall_mem_append] at hft hso
    obtain ⟨bs, nl, hb, hlf, hnx, rfl⟩ := t.exists_chainLeaf hcn hft.1
    have hrd := gives_readLeaf t.serves trivial hb hlf hnx
    have hpg := (List.getElem?_eq_some_iff.1 hb).1
    obtain ⟨n, rfl⟩ := Nat.exists_eq_succ_of_ne_zero (show n ≠ 0 by omega)
    obtain ⟨_, hpr⟩ := t.gives_readPairs repair hso.1
    rw [flatten_cons, List.map_append]
    cases r with
    | nil =>
      rw [flatten_nil, map_nil, append_nil]
      exact ⟨_, hrd.bind (hpr.bind (.pure _))⟩
    | cons s os =>
      obtain ⟨_, hos⟩ := ih hcn.2 (by simp) hft.2 hso.2 (show _ ≤ n by omega)
      exact ⟨_, hrd.bind (hpr.bind (hos.bind (.pure _)))⟩

/-- Reading all pairs goes along the chain of leaves. -/
theorem gives_pairs (hfu : root.pageCount ≤ fuel) :
    ∃ rs, Gives (root.pairs (t.pages[·]?) repair fuel)
      (some (t.entries.map (t.pairOf repair))) rs := by
  have hle := t.nodeCount_le
  have hne : t.groups ≠ [] := by
    intro hnl
    have hhd := t.denotes.head
    rw [hnl] at hhd
    cases hhd
  obtain ⟨_, hf⟩ := gives_firstLeafPage t.serves t.nodeCount_lt t.denotes t.fits
    (t.height_lt.trans_le (hle.trans hfu))
  obtain ⟨_, hfr⟩ := t.gives_pairsFrom repair t.chain hne t.fits t.stored
    ((Nat.sub_le _ _).trans (hle.trans hfu))
  rw [t.rootPage] at hf
  exact ⟨_, hf.bind hfr⟩

end Tree

/-- Only pages of the file are asked for, whatever the pages hold. -/
def AsksBelow {α : Type} (x : Reading α) (count : Nat) : Prop :=
  ∀ asked, (∀ page ∈ asked, page < count) →
    Command.Ends x asked fun _ asked' => ∀ page ∈ asked', page < count

namespace AsksBelow

variable {α β : Type} {count : Nat}

theorem pure (a : α) : AsksBelow (Pure.pure a) count := fun _ h => h

theorem throw : AsksBelow (throw () : Reading α) count := fun _ h => h

theorem ofOption (y : Option α) : AsksBelow (Reading.ofOption y) count := by
  cases y with
  | none => exact .throw
  | some a => exact .pure a

theorem ofExcept (y : Except String α) : AsksBelow (Reading.ofExcept y) count :=
  .ofOption y.toOption

theorem bind {x : Reading α} {f : α → Reading β} (hx : AsksBelow x count)
    (hf : ∀ a, AsksBelow (f a) count) : AsksBelow (x >>= f) count := by
  intro ask had
  refine (hx ask had).bind hf fun _ _ h => h

theorem fetch (pv : Nat → Option Bytes) {pg : Nat} (h : pg < count) :
    AsksBelow (Reading.fetch pv pg) count := by
  intro asked had
  rw [Reading.fetch]
  have hmr : ∀ p ∈ asked ++ [pg], p < count := forall_mem_append.2 ⟨had, forall_mem_singleton.2 h⟩
  cases pv pg with
  | none => exact hmr
  | some bs => exact hmr

theorem asked {x : Reading α} (h : AsksBelow x count) : ∀ p ∈ x.asked, p < count :=
  Command.ends_iff.1 (h [] (by simp))

end AsksBelow

section Asks

variable {root : NavKvRoot} (h : root.Valid) (prov : Nat → Option Bytes)

include h

theorem asks_readNode (p : Nat) : AsksBelow (root.readNode prov p) root.pageCount := by
  rw [NavKvRoot.readNode]
  split
  · exact .throw
  · rename_i hnd
    have hpg : p < root.pageCount := by
      have := h.valuePageStart_le
      omega
    refine (AsksBelow.fetch prov hpg).bind fun bs => (AsksBelow.ofExcept _).bind fun k => ?_
    split
    · exact (AsksBelow.ofExcept _).bind fun _ => .pure _
    · split
      · exact (AsksBelow.ofExcept _).bind fun _ => .pure _
      · exact .throw

theorem asks_readLeaf (p : Nat) : AsksBelow (root.readLeaf prov p) root.pageCount := by
  refine (asks_readNode h prov p).bind fun n => ?_
  cases n with
  | leaf l => exact .pure _
  | internal n => exact .throw

theorem asks_findLeafPageForKey (key : Bytes) (n p : Nat) :
    AsksBelow (root.findLeafPageForKey prov key n p) root.pageCount := by
  induction n generalizing p with
  | zero => exact .throw
  | succ n ih =>
    refine (asks_readNode h prov p).bind fun nd => ?_
    cases nd with
    | leaf l => exact .pure _
    | internal nd => exact (AsksBelow.ofOption _).bind fun c => ih c

theorem asks_findLeafEntry (key : Bytes) (n : Nat) :
    AsksBelow (root.findLeafEntry prov n key) root.pageCount :=
  (asks_findLeafPageForKey h prov key n _).bind fun lp =>
    (asks_readLeaf h prov lp).bind fun _ => .ofOption _

omit h in
theorem asks_readValuePages {st s : Nat} {ins : List Nat}
    (hps : ∀ i ∈ ins, wrap (root.valuePageStart + i) < root.pageCount) :
    AsksBelow (root.readValuePages prov st s ins) root.pageCount := by
  induction ins with
  | nil => exact .pure _
  | cons i r ih =>
    rw [forall_mem_cons] at hps
    refine (AsksBelow.fetch prov hps.1).bind fun bs => ?_
    simp only
    split
    · exact .throw
    · exact (ih hps.2).bind fun _ => .pure _

theorem asks_readExternalValue (st len : Nat) :
    AsksBelow (root.readExternalValue prov st len) root.pageCount := by
  rw [NavKvRoot.readExternalValue]
  split
  · exact AsksBelow.pure _
  · split
    · exact AsksBelow.throw
    · split
      · exact AsksBelow.throw
      · rename_i hl _ hin
        refine asks_readValuePages prov fun idx hix => ?_
        have hbl := (Nat.mul_le_mul_right root.pageSize (mem_inclusive.1 hix).2).trans
          (Nat.div_mul_le_self _ _)
        exact (Nat.mod_le _ _).trans_lt (h.valuePages ▸ root.lt_valuePageEnd h.pageSize_pos (by omega))

theorem asks_extractValue (key : String) (n : Nat) :
    AsksBelow (root.extractValue prov n key) root.pageCount := by
  refine (asks_findLeafEntry h prov _ n).bind fun e => ?_
  obtain ⟨key, v⟩ := e
  cases v with
  | inline bs => exact .pure _
  | external off len =>
    simp only
    split
    · exact .throw
    · exact asks_readExternalValue h prov off len

theorem asks_getValueRange (key : String) (n : Nat) :
    AsksBelow (root.getValueRange prov n key) root.pageCount := by
  refine (asks_findLeafEntry h prov _ n).bind fun e => ?_
  obtain ⟨key, v⟩ := e
  cases v <;> exact .pure _

theorem asks_prefixKeysFrom (r : Bytes → String) (kp : Bytes) (n p : Nat) :
    AsksBelow (root.prefixKeysFrom prov r kp n p) root.pageCount := by
  induction n generalizing p with
  | zero => exact .throw
  | succ n ih =>
    refine (asks_readLeaf h prov p).bind fun l => ?_
    simp only
    split
    · exact (ih _).bind fun _ => .pure _
    · exact .pure _

theorem asks_prefixKeys (r : Bytes → String) (n : Nat) (kp : String) :
    AsksBelow (root.prefixKeys prov r n kp) root.pageCount :=
  (asks_findLeafPageForKey h prov _ n _).bind fun _ => asks_prefixKeysFrom h prov r _ n _

end Asks

end Aerobag.NavKv
