import Aerobag.NavKv.Proofs.StoreProofs

/-!
# Ranges of values and scans for a prefix

The reader computes with `u32`: where the value pages end below 2³², and values with them, the ranges of
values do not overflow. The scan for a prefix starts in its leaf and follows the chain of the leaves.
-/

open List Except

namespace Aerobag.NavKv

section Ranges

variable {root : NavKvRoot} {of len : Nat}

theorem value_bind {α β : Type} {x : Reading α} {f : α → Reading β} {a : α} {r : Option β}
    (hx : x.value = some a) (hf : Gives (f a) r []) : (x >>= f).value = r := by
  rw [Reading.value, Command.result] at hx ⊢
  rw [Command.run_bind]
  cases hr : x.run [] with
  | error e ask => simp [hr, Except.toOption] at hx
  | ok a' ask =>
    obtain rfl : a' = a := by simpa [hr, Except.toOption] using hx
    simp only [hf ask]
    cases r <;> rfl

theorem readU32_lt {bs : Bytes} {o n : Nat} (h : readU32 bs o = .ok n) : n < 2 ^ 32 := by
  unfold readU32 at h
  split at h
  · cases h
  · next chunk hc =>
    cases h
    have hln : chunk.length = 4 := by
      unfold slice at hc
      split_ifs at hc with hle
      obtain rfl := Option.some.inj hc
      rw [length_take, length_drop]
      omega
    have hlt := leNat_lt chunk
    rwa [hln] at hlt

/-- What `parse` checks of the value pages. -/
structure NavKvRoot.Accepted (root : NavKvRoot) : Prop where
  pageSize_pos : 0 < root.pageSize
  pageCount_lt : root.pageCount < 2 ^ 32
  valueBytesLen_lt : root.valueBytesLen < 2 ^ 32
  wrap_le : wrap root.valuePageEnd ≤ root.pageCount

/-- What the parser has checked. -/
theorem accepted_of_parse {rb : Bytes} (h : NavKvRoot.parse rb = .ok root) : root.Accepted := by
  simp only [NavKvRoot.parse, bind_eq_ok, rejectIf_eq_ok, pure_eq_ok] at h
  obtain ⟨_, -, _, -, _, -, _, -, _, -, _, -, _, -, _, hpc, _, -, _, hvl, _, -, _, hsz, _, -, _, -, _, -,
    _, he, _, -, _, -, rfl⟩ := h
  exact ⟨Nat.pos_of_ne_zero hsz, readU32_lt hpc, readU32_lt hvl, not_lt.1 he⟩

/-- The pages that `prefix_stats` counts, computed without an overflow of the range. -/
theorem statsPages_of_lt (hln : 0 < len) (hlt : of + len < 2 ^ 32) :
    root.statsPages (.external of len) =
      (inclusive (of / root.pageSize) ((of + len - 1) / root.pageSize)).map fun page =>
        wrap (root.valuePageStart + page) := by
  have hl : wrap (wrap (of + len) + 2 ^ 32 - 1) = of + len - 1 := by
    unfold wrap
    omega
  rw [NavKvRoot.statsPages, if_neg hln.ne']
  simp only [hl]

theorem statsPages_eq (hp : 0 < root.pageSize) (hv : root.valueBytesLen < 2 ^ 32)
    (he : root.valuePageEnd < 2 ^ 32) (hln : 0 < len) (hin : of + len ≤ root.valueBytesLen) :
    root.statsPages (.external of len) = Tree.valuePages root (.external of len) ∧
      ∀ p ∈ Tree.valuePages root (.external of len),
        root.valuePageStart ≤ p ∧ p < root.valuePageEnd := by
  have hlt : ∀ i ∈ inclusive (of / root.pageSize) ((of + len - 1) / root.pageSize),
      root.valuePageStart + i < root.valuePageEnd := by
    intro i hix
    have := (Nat.mul_le_mul_right root.pageSize (mem_inclusive.1 hix).2).trans (Nat.div_mul_le_self _ _)
    exact root.lt_valuePageEnd hp (by omega)
  constructor
  · rw [statsPages_of_lt hln (by omega)]
    exact map_congr_left fun i hix => Nat.mod_eq_of_lt ((hlt i hix).trans he)
  · simp only [Tree.valuePages, mem_map, forall_exists_index, and_imp]
    rintro _ i hix rfl
    exact ⟨Nat.le_add_right .., hlt i hix⟩

end Ranges

def rootRecord (pageSize pageCount valuePageStart valueBytesLen : Nat) : Bytes :=
  magic ++ [4, 1, pageSize, 0, pageCount, valuePageStart, valueBytesLen, 0, 0, 0, 0, 0].flatMap pushU32

/-- A leaf with the key `k`, whose value has this offset and length. -/
def leafFor (offset len : Nat) : Bytes :=
  [1, 1, 2 ^ 32 - 1, 1, 0, offset, len].flatMap pushU32 ++ strBytes "k"

def LeafEntry.StartsWith (keyPrefix : Bytes) (entry : LeafEntry) : Bool :=
    keyPrefix.isPrefixOf entry.key

section Scan

variable {keyPrefix : Bytes} {ents la : List LeafEntry}

/-- A leaf in front of later entries: when the scan stops in it, none of them matches. -/
theorem matchingEntries_eq (hac : KeysAscend (ents ++ la)) :
    (NavKvRoot.matchingEntries keyPrefix ents).1 = ents.filter (·.StartsWith keyPrefix) ∧
      ((NavKvRoot.matchingEntries keyPrefix ents).2 = false →
        la.filter (·.StartsWith keyPrefix) = []) := by
  induction ents with
  | nil => simp [NavKvRoot.matchingEntries]
  | cons e r ih =>
    obtain ⟨hlt, hr⟩ := pairwise_cons.1 hac
    obtain ⟨hfd, hmr⟩ := ih hr
    rw [NavKvRoot.matchingEntries]
    have hno {o : LeafEntry} h : ¬ o.StartsWith keyPrefix := mt isPrefixOf_iff_prefix.1 h
    split_ifs with hls hys
    · rw [filter_cons_of_neg (hno fun h => h.le hls)]
      exact ⟨hfd, hmr⟩
    · rw [filter_cons_of_pos (show e.StartsWith keyPrefix from hys)]
      exact ⟨congrArg _ hfd, hmr⟩
    · have hn : ∀ o ∈ r ++ la, ¬ o.StartsWith keyPrefix := fun o ho =>
        hno fun h => hys ( isPrefixOf_iff_prefix.2 (Search.prefix_of_between h hls (hlt o ho)))
      rw [forall_mem_append] at hn
      rw [filter_cons_of_neg (show ¬ e.StartsWith keyPrefix from hys), filter_eq_nil_iff.2 hn.1]
      exact ⟨rfl, fun _ => filter_eq_nil_iff.2 hn.2⟩

theorem scanEntries_eq (r : Bytes → String) : NavKvRoot.scanEntries r keyPrefix ents =
      ((NavKvRoot.matchingEntries keyPrefix ents).1.map (fromUtf8Lossy r ·.key),
        (NavKvRoot.matchingEntries keyPrefix ents).2) := by
  induction ents with
  | nil => rfl
  | cons e rs ih =>
    rw [NavKvRoot.scanEntries, NavKvRoot.matchingEntries, ih]
    split_ifs <;> rfl

theorem prefixKeysFrom_eq (rt : NavKvRoot) (pv : Nat → Option Bytes) (r : Bytes → String)
    (n p : Nat) : rt.prefixKeysFrom pv r keyPrefix n p = (do
      let ls ← rt.scanLeaves pv keyPrefix n p
      return (ls.flatMap Prod.snd).map (fromUtf8Lossy r ·.key)) := by
  induction n generalizing p with
  | zero => rfl
  | succ n ih =>
    rw [NavKvRoot.prefixKeysFrom, NavKvRoot.scanLeaves, bind_assoc]
    congr 1
    funext leaf
    simp only [scanEntries_eq]
    rcases leaf.nextLeaf with _ | next <;>
      cases (NavKvRoot.matchingEntries keyPrefix leaf.entries).2 <;> simp [ih]

theorem prefixKeys_eq (r : NavKvRoot) (pv : Nat → Option Bytes) (rp : Bytes → String)
    (n : Nat) (kp : String) : r.prefixKeys pv rp n kp = (do
      let lp ← r.findLeafPageForKey pv (strBytes kp) n r.rootPage
      let ls ← r.scanLeaves pv (strBytes kp) n lp
      return (ls.flatMap Prod.snd).map (fromUtf8Lossy rp ·.key)) := by
  simp [NavKvRoot.prefixKeys, prefixKeysFrom_eq]

variable {root : NavKvRoot} (t : Tree root) {fu : Nat}

/-- A scan along the leaves gives the entries with the prefix, in order. -/
theorem gives_scanLeaves {gs : List (List LeafEntry)} {p : Nat}
    (hcn : Chain t.nodePages p gs) (hne : gs ≠ [])
    (hft : ∀ e ∈ gs.flatten, e.Fits) (hac : KeysAscend gs.flatten) :
    ∃ ls : List (Nat × List LeafEntry),
      ls.flatMap Prod.snd = gs.flatten.filter (·.StartsWith keyPrefix) ∧
      ∀ {r' pv s n}, Serves r' pv t.nodePages s →
        (∀ p ∈ ls.map Prod.fst, s p) → t.nodePages.length - p ≤ n →
        Gives (r'.scanLeaves pv keyPrefix n p) (some ls) (ls.map Prod.fst) := by
  induction gs generalizing p with
  | nil => exact absurd rfl hne
  | cons g r ih =>
    rw [flatten_cons] at hft hac
    rw [forall_mem_append] at hft
    obtain ⟨bs, nl, hb, hlf, hnx, rfl⟩ := t.exists_chainLeaf hcn hft.1
    have hpg := (List.getElem?_eq_some_iff.1 hb).1
    rw [flatten_cons, filter_append, ← (matchingEntries_eq hac).1]
    have hmr := (@matchingEntries_eq keyPrefix _ _ hac).2
    rcases hmt : NavKvRoot.matchingEntries keyPrefix g with ⟨f, m⟩
    rw [hmt] at hmr
    -- a scan that stops in this leaf
    have hst {r' : NavKvRoot} {pv : Nat → Option Bytes} {s : Nat → Prop} {n : Nat}
        (hs : Serves r' pv t.nodePages s) (hsv : s p)
        (hfu : t.nodePages.length - p ≤ n) (he : r = [] ∨ m = false) :
        Gives (r'.scanLeaves pv keyPrefix n p) (some [(p, f)]) [p] := by
      obtain ⟨n, rfl⟩ := Nat.exists_eq_succ_of_ne_zero (show n ≠ 0 by omega)
      refine (gives_readLeaf hs hsv hb hlf hnx).bind ?_
      simp only [hmt]
      rcases he with rfl | rfl
      · cases m <;> exact .pure _
      · cases r <;> exact .pure _
    cases r with
    | nil => exact ⟨[(p, f)], by simp, fun hs hsv hfu => hst hs (hsv p (by simp)) hfu (.inl rfl)⟩
    | cons sc os =>
      cases m with
      | false =>
        exact ⟨[(p, f)], by rw [hmr rfl]; simp,
          fun hs hsv hfu => hst hs (hsv p (by simp)) hfu (.inr rfl)⟩
      | true =>
        obtain ⟨ls, hl, hg⟩ := ih hcn.2 (by simp) hft.2 (pairwise_append.1 hac).2.1
        refine ⟨(p, f) :: ls, by simp [hl], fun {r' _ _ n} hs hsv hfu => ?_⟩
        rw [map_cons, forall_mem_cons] at hsv
        obtain ⟨n, rfl⟩ := Nat.exists_eq_succ_of_ne_zero (show n ≠ 0 by omega)
        refine (gives_readLeaf hs hsv.1 hb hlf hnx).bind ?_
        simp only [hmt]
        exact (hg hs hsv.2 (by omega)).map _

theorem Chain.drop {ps : List Bytes} {gs : List (List LeafEntry)} {p : Nat}
    (h : Chain ps p gs) (i : Nat) : Chain ps (p + i) (gs.drop i) := by
  induction i generalizing p gs with
  | zero => exact h
  | succ i ih =>
    cases gs with
    | nil => trivial
    | cons g r =>
      rw [← Nat.add_assoc, Nat.add_right_comm]
      exact ih h.2

theorem Descends.lt {nps : List Bytes} {key : Bytes} {p l : Nat} {pt : List Nat}
    (h : Descends nps key p pt l ents) : ∀ p ∈ pt ++ [l], p < nps.length := by
  induction h with
  | leaf hb => simpa using (List.getElem?_eq_some_iff.1 hb).1
  | child hb _ _ _ _ _ ih => exact forall_mem_cons.2 ⟨(List.getElem?_eq_some_iff.1 hb).1, ih⟩

/-- The leaf at which a scan starts; the keys in the leaves before it are smaller. -/
theorem Tree.exists_start (hne : ∀ g ∈ t.groups, g ≠ [])
    (hin : Internal (t.nodePages.drop t.groups.length)) (key : Bytes) :
    ∃ p l es, (∀ key', (∀ e ∈ t.entries, (e.key ≤ key' ↔ e.key ≤ key)) →
        Descends t.nodePages key' root.rootPage p l es) ∧
      p.length < root.pageCount ∧ l < t.groups.length ∧
      ∀ e ∈ (t.groups.take l).flatten, e.key < key := by
  obtain ⟨p, l, es, hw, hl, -, b, a, hsp, hbf, -⟩ := t.exists_common_way key
  obtain ⟨bs, nl, hb, hlf, hnx⟩ := (hw key fun _ _ => .rfl).leafAt
  have hlt : l < t.groups.length := by
    by_contra hge
    obtain ⟨g, hnd⟩ := hin bs (mem_of_getElem? (i := l - t.groups.length) (by
      rw [getElem?_drop, Nat.add_sub_cancel' (not_lt.1 hge), hb]))
    exact absurd (hlf.kind.symm.trans hnd.kind) (by decide)
  refine ⟨p, l, es, hw, hl, hlt, fun e he => ?_⟩
  -- The leaf is the one of the chain, and has a first entry.
  have hcn := t.chain.drop l
  have hgr := t.groups.take_append_drop l
  rw [drop_eq_getElem_cons hlt] at hcn hgr
  rw [Nat.zero_add] at hcn
  have hm : t.groups[l] ∈ t.groups := getElem_mem hlt
  obtain ⟨_, _, hb', hlf', hnx', -⟩ := t.exists_chainLeaf hcn fun e h =>
    t.fits e (mem_flatten.2 ⟨_, hm, h⟩)
  obtain rfl := Option.some.inj (hb.symm.trans hb')
  have hpr := Except.ok.inj ((hlf.parse hnx).symm.trans (hlf'.parse hnx'))
  obtain ⟨first, tl, hf⟩ := exists_cons_of_ne_nil (hne _ hm)
  have hfl : (t.groups.take l).flatten ++ first :: (tl ++ (t.groups.drop (l + 1)).flatten) =
      t.entries := by
    rw [Tree.entries, ← congrArg List.flatten hgr]
    simp [hf]
  have hac := t.ascend
  rw [Tree.entries] at hfl hsp
  have hls := (pairwise_append.1 (hfl ▸ hac)).2.2 e he first mem_cons_self
  have he' : e ∈ t.groups.flatten := hfl ▸ mem_append_left _ he
  rw [hsp, (LeafNode.mk.inj hpr).2, hf] at he' hac
  rw [append_assoc, mem_append, cons_append, mem_cons] at he'
  rw [KeysAscend, append_assoc, cons_append, pairwise_append, pairwise_cons] at hac
  rcases he' with he' | rfl | he'
  · exact hbf e he'
  · exact absurd hls (lt_irrefl _)
  · exact absurd hls (hac.2.1.1 e he').asymm

/-- A scan from the leaf of the prefix finds all of them. -/
theorem Tree.exists_scan (hne : ∀ gr ∈ t.groups, gr ≠ [])
    (hin : Internal (t.nodePages.drop t.groups.length)) (kp : Bytes) :
    ∃ p l es ls, (∀ key', (∀ e ∈ t.entries, (e.key ≤ key' ↔ e.key ≤ kp)) →
        Descends t.nodePages key' root.rootPage p l es) ∧ p.length < root.pageCount ∧
      ls.flatMap Prod.snd = t.entries.filter (·.StartsWith kp) ∧
      ∀ {β : Type} {root' prov served fu} (g : List (Nat × List LeafEntry) → β),
        Serves root' prov t.nodePages served →
        (∀ pg ∈ p ++ [l] ++ ls.map Prod.fst, served pg) → root.pageCount ≤ fu → Gives (do
          let lp ← root'.findLeafPageForKey prov kp fu root.rootPage
          let ls ← root'.scanLeaves prov kp fu lp
          return g ls) (some (g ls)) (p ++ [l] ++ ls.map Prod.fst) := by
  obtain ⟨p, l, es, hw, hl, hlt, hbf⟩ := t.exists_start hne hin kp
  have hsp : t.entries = (t.groups.take l).flatten ++ (t.groups.drop l).flatten := by
    rw [← flatten_append, take_append_drop, Tree.entries]
  have hft := t.fits
  have hsr := t.ascend
  rw [← Tree.entries, hsp] at hft hsr
  obtain ⟨ls, hlv, hsc⟩ := gives_scanLeaves t (t.chain.drop l) (by simpa using hlt)
    (forall_mem_append.1 hft).2 (pairwise_append.1 hsr).2.1
  rw [Nat.zero_add] at hsc
  refine ⟨p, l, es, ls, hw, hl, ?_, fun g hs hps hfu => ?_⟩
  · have hn : (t.groups.take l).flatten.filter (·.StartsWith kp) = [] :=
      filter_eq_nil_iff.2 fun e he h => ( isPrefixOf_iff_prefix.1 h).le (hbf e he)
    rw [hlv, hsp, filter_append, hn, nil_append]
  · rw [forall_mem_append] at hps
    exact (gives_findLeafPageForKey hs (hw kp fun _ _ => .rfl) hps.1
      (hl.trans_le hfu)).bind ((hsc hs hps.2
        ((Nat.sub_le ..).trans (t.nodeCount_le.trans hfu))).map g)

theorem Tree.mem_statsPages {e : LeafEntry} {key : String} (hm : e ∈ t.entries)
    (hk : e.key = strBytes key) (hfu : root.pageCount ≤ fu) (p : Nat) :
    p ∈ root.statsPages e.value ↔ root.valuePageStart ≤ p ∧
      p ∈ (root.extractValue (t.pages[·]?) fu key).asked := by
  have hps : root.statsPages e.value = Tree.valuePages root e.value ∧
      ∀ p ∈ Tree.valuePages root e.value, root.valuePageStart ≤ p := by
    obtain ⟨ek, v⟩ := e
    cases v with
    | inline bs => exact ⟨rfl, by simp [Tree.valuePages]⟩
    | external o len =>
      obtain ⟨hl, hin⟩ := t.stored _ hm
      have hv := t.values.valid
      obtain ⟨heq, hle⟩ := statsPages_eq hv.pageSize_pos hv.valueBytesLen
        (hv.valuePages.trans_lt hv.pageCount) hl (t.values.length ▸ hin)
      exact ⟨heq, fun p hpg => (hle p hpg).1⟩
  obtain ⟨pt, l, es, hw, hl, hac, har⟩ := t.exists_way (strBytes key)
  have hfd : entryFor (strBytes key) t.entries = some e :=
    (Search.lookup_eq_some t.ascend).2 ⟨hm, hk⟩
  have hg := t.gives_extractValue hw hac har.lookup (hl.trans_le hfu)
  have hlt := hw.lt
  rw [t.nodeCount] at hlt
  simp only [hg.asked, hfd, hps.1, mem_append] at hlt ⊢
  grind

end Scan

/-- **Scans for a prefix.** In a tree that has been built the scan finds the keys that start with the
prefix, in their order, and the statistics count them and the value pages that the lookups of these keys
touch. -/
theorem prefix_scan_exact {repair : Bytes → String} {pairs : List NavKvPair} {pageSize : Nat}
    {extra : List NavKvPrefetch} {out : NavKvBuildOutput}
    (h : buildNavKvStrictWithExtraPrefetchKeys repair pairs pageSize extra = .ok out) :
    ∃ root, NavKvRoot.parse out.rootBytes = .ok root ∧ ∀ fuel, out.pages.length ≤ fuel →
      ∀ keyPrefix : String,
      let found := pairs.filter fun pair => (strBytes keyPrefix).isPrefixOf (strBytes pair.key)
      (root.prefixKeys (out.pages[·]?) repair fuel keyPrefix).value = some (found.map (·.key)) ∧
      (found.map (·.key)).Pairwise (strBytes · < strBytes ·) ∧
      ∃ stats, (root.prefixStats (out.pages[·]?) fuel keyPrefix).value = some stats ∧
        stats.keyCount = found.length ∧ ∀ page, page ∈ stats.externalValuePages ↔
          root.valuePageStart ≤ page ∧
            ∃ pair ∈ found, page ∈ (root.extractValue (out.pages[·]?) fuel pair.key).asked := by
  obtain ⟨root, hrt, hac, t, hps, hr, hne, hin, -⟩ := exists_tree_of_build h
  refine ⟨root, hrt, fun fuel hfu keyPrefix => ?_⟩
  rw [← hps] at hfu ⊢
  rw [t.length_pages] at hfu
  intro found
  have hk : ∀ entry ∈ t.entries, entry.key = strBytes (t.pairOf repair entry).key := by
    intro entry he
    obtain ⟨pair, -, hpr⟩ := RepresentsAll.exists_pair hr entry he
    rw [Tree.pairOf, hpr.key, fromUtf8Lossy_strBytes]
  obtain ⟨path, leaf, entries, leaves, -, -, hl, hsc⟩ := t.exists_scan hne hin (strBytes keyPrefix)
  have hfd : found = (leaves.flatMap Prod.snd).map (t.pairOf repair) := by
    simp only [found]
    rw [hl, ← map_pairOf repair hr, filter_map]
    exact congrArg _ (filter_congr fun entry he => by simp [LeafEntry.StartsWith, hk entry he])
  have hm : ∀ entry ∈ leaves.flatMap Prod.snd, entry ∈ t.entries := by
    rw [hl]
    exact fun entry he => (mem_filter.1 he).1
  refine ⟨?_, pairwise_map.2 (hac.filter _), root.countStats leaves,
    (hsc root.countStats t.serves (fun _ _ => trivial) hfu).value, ?_, fun page => ?_⟩
  · rw [prefixKeys_eq, (hsc _ t.serves (fun _ _ => trivial) hfu).value, hfd, List.map_map]
    rfl
  · rw [hfd, length_map]
    rfl
  · have hps entry he := t.mem_statsPages (hm entry he) (hk entry (hm entry he)) hfu page
    rw [NavKvRoot.countStats, mem_btreeSet, mem_flatMap, hfd]
    simp only [List.mem_map, exists_exists_and_eq_and]
    constructor
    · rintro ⟨entry, he, hpg⟩
      exact ⟨((hps entry he).1 hpg).1, entry, he, ((hps entry he).1 hpg).2⟩
    · rintro ⟨hle, entry, he, hpg⟩
      exact ⟨entry, he, (hps entry he).2 ⟨hle, hpg⟩⟩

/-- The keys that start with b. -/
theorem prefix_scan_exact_sample :
    ∃ out root, buildNavKvSorted (fun _ => "") samplePairs 30 = .ok out ∧
      NavKvRoot.parse out.rootBytes = .ok root ∧
      (root.prefixKeys (out.pages[·]?) (fun _ => "") out.pages.length "b").value = some ["b"] := by
  have hok : (buildNavKvSorted (fun _ => "") samplePairs 30).toOption.isSome = true := by
    decide +kernel
  obtain ⟨out, ho⟩ := Option.isSome_iff_exists.1 hok
  have hbl := Except.toOption_eq_some.1 ho
  obtain ⟨root, hrt, hsc⟩ := prefix_scan_exact hbl
  exact ⟨out, root, hbl, hrt, (hsc _ le_rfl "b").1.trans (by decide +kernel)⟩

end Aerobag.NavKv
