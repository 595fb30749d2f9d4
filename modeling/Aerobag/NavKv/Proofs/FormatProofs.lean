import Aerobag.NavKv.Store

/-!
# Encodings can be read again

What the encoders write at an offset is what the parsers read there; and the scans of the store find
in the bytes of a page what the parsed node has.
-/

open List Except

namespace Aerobag.NavKv

variable {n offset : Nat} {bs a b rb : Bytes} {es : List LeafEntry}
  {nl : Option Nat} {pivots : List Bytes} {rt : NavKvRoot}

@[simp] theorem length_pushU32 (n : Nat) : (pushU32 n).length = 4 := length_leBytes 4 n

theorem length_flatMap_pushU32 (ns : List Nat) : (ns.flatMap pushU32).length = ns.length * 4 := by
  simp [length_flatMap]

theorem toU32_eq_ok {m : Nat} {msg : String} : toU32 n msg = .ok m ↔ n < 2 ^ 32 ∧ n = m := by
  simp only [toU32, bind_eq_ok, rejectIf_eq_ok, pure_eq_ok, not_le]
  exact exists_const Unit

theorem readU32_at (h : At bs offset (pushU32 n)) (hn : n < 2 ^ 32) :
    readU32 bs offset = .ok n := by
  have hsl : slice bs offset (offset + 4) = some (pushU32 n) := h.slice_eq (by simp)
  rw [readU32, hsl]
  exact congrArg _ (leNat_leBytes (by simpa using hn))

variable {o : Nat}

theorem readU32_flatMap_at {ns : List Nat} {i : Nat} (hat : At bs o (ns.flatMap pushU32))
    (hft : ∀ n ∈ ns, n < 2 ^ 32) (hn : ns[i]? = some n) : readU32 bs (o + i * 4) = .ok n := by
  induction ns generalizing o i with
  | nil => simp at hn
  | cons first r ih =>
    rw [forall_mem_cons] at hft
    cases i with
    | zero =>
      obtain rfl : first = n := by simpa using hn
      exact readU32_at (hat.left.cast (by simp)) hft.1
    | succ i =>
      have hr := hat.right
      rw [length_pushU32] at hr
      have hrd := ih hr hft.2 (by simpa using hn)
      rwa [show o + 4 + i * 4 = o + (i + 1) * 4 by omega] at hrd

theorem getSlice_at {p : Bytes} (h : At bs offset p) (msg : String) :
    getSlice bs offset (offset + p.length) msg = .ok p := by
  rw [getSlice, h.slice_eq rfl]

namespace LeafEntryValue

/-- The three numbers that stand for a value in the fixed part of an entry. -/
def kind : LeafEntryValue → Nat
  | inline _ => valueKindInline
  | external _ _ => valueKindExternal

def first : LeafEntryValue → Nat
  | inline bytes => bytes.length
  | external offset _ => offset

def second : LeafEntryValue → Nat
  | inline _ => 0
  | external _ len => len

def inlineBytes : LeafEntryValue → Bytes
  | inline bytes => bytes
  | external _ _ => []

end LeafEntryValue

/-- The numbers of the entry fit into the format. -/
structure LeafEntry.Fits (entry : LeafEntry) : Prop where
  first : entry.value.first < 2 ^ 32
  second : entry.value.second < 2 ^ 32

theorem encodeLeafEntry_eq_ok {e : LeafEntry} (h : encodeLeafEntry e = .ok bs) :
    e.key.length < 2 ^ 32 ∧
      bs = pushU32 e.key.length ++ pushU32 e.value.kind ++ pushU32 e.value.first ++
        pushU32 e.value.second ++ e.key ++ e.value.inlineBytes := by
  simp only [encodeLeafEntry, bind_eq_ok, toU32_eq_ok] at h
  obtain ⟨_, ⟨hk, rfl⟩, h⟩ := h
  refine ⟨hk, ?_⟩
  cases hv : e.value with
  | inline v =>
    simp only [hv, bind_eq_ok, toU32_eq_ok, pure_eq_ok] at h
    obtain ⟨_, ⟨-, rfl⟩, rfl⟩ := h
    rfl
  | external o len =>
    simp only [hv, pure_eq_ok] at h
    rw [← h]
    simp [LeafEntryValue.kind, LeafEntryValue.first, LeafEntryValue.second,
      LeafEntryValue.inlineBytes]

/-- An entry stands at an offset: what the parser and the scan read there. -/
structure EntryAt (bytes : Bytes) (offset : Nat) (entry : LeafEntry) : Prop where
  keyLen : readU32 bytes offset = .ok entry.key.length
  kind : readU32 bytes (offset + 4) = .ok entry.value.kind
  first : readU32 bytes (offset + 8) = .ok entry.value.first
  second : readU32 bytes (offset + 12) = .ok entry.value.second
  key : At bytes (offset + leafEntryFixedLen) entry.key
  value : At bytes (offset + leafEntryFixedLen + entry.key.length) entry.value.inlineBytes

theorem entryAt_of_at {en : Bytes} {e : LeafEntry} (he : encodeLeafEntry e = .ok en) (hft : e.Fits)
    (hat : At bs offset en) : EntryAt bs offset e := by
  obtain ⟨hk, rfl⟩ := encodeLeafEntry_eq_ok he
  have hkd : e.value.kind < 2 ^ 32 := by
    cases e.value <;> simp [LeafEntryValue.kind, valueKindInline, valueKindExternal]
  have hv := hat.right
  have hfx := hat.left.left
  constructor
  · exact readU32_at hfx.left.left.left hk
  · exact readU32_at (hfx.left.left.right.cast (by simp)) hkd
  · exact readU32_at (hfx.left.right.cast (by simp)) hft.first
  · exact readU32_at (hfx.right.cast (by simp)) hft.second
  · exact hat.left.right.cast (by simp [leafEntryFixedLen])
  · refine hv.cast ?_
    simp only [length_append, length_pushU32, leafEntryFixedLen]
    omega

def LeafEntry.stop (entry : LeafEntry) (offset : Nat) : Nat :=
  offset + leafEntryFixedLen + entry.key.length + entry.value.inlineBytes.length

/-- The entries stand one after the other from an offset on. -/
def EntriesAt (bytes : Bytes) : Nat → List LeafEntry → Prop
  | _, [] => True
  | offset, entry :: rest => EntryAt bytes offset entry ∧ EntriesAt bytes (entry.stop offset) rest

theorem entriesAt_of_at {e : List Bytes} (he : es.mapM encodeLeafEntry = .ok e)
    (hft : ∀ en ∈ es, en.Fits) (hat : At bs o e.flatten) : EntriesAt bs o es := by
  induction es generalizing e o with
  | nil => trivial
  | cons en r ih =>
    rw [mapM_cons] at he
    simp only [bind_eq_ok, pure_eq_ok] at he
    obtain ⟨first, hf, os, hos, rfl⟩ := he
    rw [forall_mem_cons] at hft
    refine ⟨entryAt_of_at hf hft.1 hat.left, ih hos hft.2 ?_⟩
    have hl : first.length = leafEntryFixedLen + en.key.length + en.value.inlineBytes.length := by
      rw [(encodeLeafEntry_eq_ok hf).2]
      simp only [length_append, length_pushU32, leafEntryFixedLen]
    have hr := hat.right
    rwa [hl, ← Nat.add_assoc, ← Nat.add_assoc] at hr

theorem parseLeafEntries_at (hat : EntriesAt bs o es) :
    parseLeafEntries bs es.length o = .ok es := by
  induction es generalizing o with
  | nil => rfl
  | cons e r ih =>
    obtain ⟨he, hr⟩ := hat
    have hpr := ih hr
    have hk := getSlice_at he.key "nav_kv leaf key extends past page"
    have hv := getSlice_at he.value "nav_kv inline value extends past page"
    rw [length_cons, parseLeafEntries]
    simp only [he.keyLen, he.kind, he.first, he.second, hk, ok_bind]
    unfold LeafEntry.stop at hpr
    obtain ⟨key, v⟩ := e
    cases v with
    | inline v =>
      simp only [LeafEntryValue.inlineBytes] at hv hpr
      simp only [LeafEntryValue.first, hv, hpr]
      rfl
    | external st len =>
      simp only [LeafEntryValue.inlineBytes, length_nil, Nat.add_zero] at hpr
      simp only [hpr]
      rfl

theorem encodeLeafPage_eq_ok (h : encodeLeafPage es nl = .ok bs) :
    es.length < 2 ^ 32 ∧ ∃ e, es.mapM encodeLeafEntry = .ok e ∧
        bs = pushU32 nodeKindLeaf ++ pushU32 es.length ++ pushU32 (nl.getD noPage) ++
          e.flatten := by
  simp only [encodeLeafPage, bind_eq_ok, toU32_eq_ok, pure_eq_ok] at h
  obtain ⟨_, ⟨hc, rfl⟩, e, he, rfl⟩ := h
  exact ⟨hc, e, he, rfl⟩

/-- The page is that of a leaf with these entries. -/
structure LeafAt (bytes : Bytes) (entries : List LeafEntry) (nextLeaf : Option Nat) : Prop where
  kind : readU32 bytes 0 = .ok nodeKindLeaf
  count : readU32 bytes 4 = .ok entries.length
  next : readU32 bytes 8 = .ok (nextLeaf.getD noPage)
  entries : EntriesAt bytes leafHeaderLen entries

/-- What is encoded can be found in the page. -/
theorem leafAt_of_encode (h : encodeLeafPage es nl = .ok bs)
    (hft : ∀ e ∈ es, e.Fits) (hnx : ∀ next ∈ nl, next < noPage) : LeafAt bs es nl := by
  obtain ⟨hc, en, he, rfl⟩ := encodeLeafPage_eq_ok h
  have hat := At.self (pushU32 nodeKindLeaf ++ pushU32 es.length ++
    pushU32 (nl.getD noPage) ++ en.flatten)
  have hln : nl.getD noPage < 2 ^ 32 := by
    cases nl with
    | none => decide
    | some next => exact (hnx next rfl).trans (by decide)
  constructor
  · exact readU32_at hat.left.left.left (by decide)
  · exact readU32_at (hat.left.left.right.cast (by simp)) hc
  · exact readU32_at (hat.left.right.cast (by simp)) hln
  · exact entriesAt_of_at he hft (hat.right.cast (by simp [leafHeaderLen]))

/-- A leaf page is read back. -/
theorem LeafAt.parse (h : LeafAt bs es nl) (hnx : ∀ next ∈ nl, next < noPage) :
    parseLeafNode bs = .ok ⟨nl, es⟩ := by
  simp only [parseLeafNode, h.count, h.next, parseLeafEntries_at h.entries, ok_bind]
  cases nl with
  | none => rfl
  | some next =>
    have hne : next ≠ noPage := (hnx next rfl).ne
    simp [hne]

theorem compareBytes_eq_lt : compareBytes a b = .lt ↔ a < b := by
  unfold compareBytes
  split
  · simp_all
  · split <;> simp_all

theorem compareBytes_eq_eq : compareBytes a b = .eq ↔ a = b := by
  unfold compareBytes
  split
  · rename_i hlt
    simp [hlt.ne]
  · split <;> simp_all

theorem compareBytes_eq_gt : compareBytes a b = .gt ↔ b < a := by
  unfold compareBytes
  split
  · rename_i hlt
    simp [hlt.le]
  · split
    · rename_i heq
      simp [heq]
    · rename_i hlt hne
      simp [lt_of_le_of_ne (not_lt.1 hlt) (Ne.symm hne)]

def KeysAscend (entries : List LeafEntry) : Prop := entries.Pairwise fun a b => a.key < b.key

def entryFor (key : Bytes) (entries : List LeafEntry) : Option LeafEntry :=
  Search.lookup LeafEntry.key key entries

/-- The scan finds the entry of a key. -/
theorem scanLeaf_at {key : Bytes} (hat : EntriesAt bs o es) (hac : KeysAscend es) :
    scanLeaf bs key es.length o = .ok ((entryFor key es).map (·.value)) := by
  induction es generalizing o with
  | nil => rfl
  | cons e r ih =>
    obtain ⟨he, hr⟩ := hat
    obtain ⟨hf, hos⟩ := pairwise_cons.1 hac
    have hsc := ih hr hos
    have hk := getSlice_at he.key "nav_kv leaf key extends past page"
    have hv := getSlice_at he.value "nav_kv inline value extends past page"
    have hin := he.value.length_le
    unfold LeafEntry.stop at hsc
    rw [length_cons, scanLeaf, entryFor, Search.lookup_cons, ← entryFor]
    simp only [he.keyLen, he.kind, he.first, he.second, hk, ok_bind]
    have hel : valueKindExternal ≠ valueKindInline := by decide
    obtain ⟨ek, v⟩ := e
    cases hcm : compareBytes ek key with
    | eq =>
      obtain rfl := compareBytes_eq_eq.1 hcm
      cases v with
      | inline v =>
        simp only [LeafEntryValue.inlineBytes] at hv
        simp [LeafEntryValue.kind, LeafEntryValue.first, hv]
      | external st len =>
        simp [LeafEntryValue.kind, LeafEntryValue.first, LeafEntryValue.second, hel]
    | gt =>
      have hgt : key < ek := compareBytes_eq_gt.1 hcm
      have hn : entryFor key r = none :=
        Search.lookup_eq_none.2 fun l hla => (hgt.trans (hf l hla)).ne'
      simp [hgt.ne', hn]
    | lt =>
      have hlt : ek < key := compareBytes_eq_lt.1 hcm
      have hne : ¬ ek = key := hlt.ne
      cases v with
      | inline v =>
        simp only [LeafEntryValue.first, hne]
        exact bind_eq_ok.2 ⟨(), rejectIf_eq_ok.2 (Nat.not_lt.2 hin), hsc⟩
      | external st len =>
        simp only [LeafEntryValue.inlineBytes] at hsc
        simpa [LeafEntryValue.kind, hel, hne] using hsc

theorem LeafAt.valueRef {key : Bytes} (h : LeafAt bs es nl) (hac : KeysAscend es) :
    leafEntryValueRefForKey bs key = .ok ((entryFor key es).map (·.value)) := by
  simp [leafEntryValueRefForKey, h.count, ok_bind, scanLeaf_at h.entries hac]

def PivotsAt (bytes : Bytes) : Nat → List Bytes → Prop
  | _, [] => True
  | offset, pivot :: rest => readU32 bytes offset = .ok pivot.length ∧ At bytes (offset + 4) pivot ∧
      PivotsAt bytes (offset + 4 + pivot.length) rest

theorem pivotsAt_of_at {e : List Bytes} (he : pivots.mapM encodePivot = .ok e)
    (hat : At bs o e.flatten) : PivotsAt bs o pivots := by
  induction pivots generalizing e o with
  | nil => trivial
  | cons p r ih =>
    rw [mapM_cons] at he
    simp only [bind_eq_ok, pure_eq_ok, encodePivot, toU32_eq_ok] at he
    obtain ⟨_, ⟨_, ⟨hl, rfl⟩, rfl⟩, os, hos, rfl⟩ := he
    rw [flatten_cons, append_assoc] at hat
    have hk := hat.right
    exact ⟨readU32_at hat.left hl, hk.left, ih hos hk.right⟩

theorem parsePivots_at (hat : PivotsAt bs o pivots) :
    parsePivots bs pivots.length o = .ok pivots := by
  induction pivots generalizing o with
  | nil => rfl
  | cons p r ih =>
    obtain ⟨hl, hpv, hr⟩ := hat
    have hk := getSlice_at hpv "nav_kv internal pivot extends past page"
    rw [length_cons, parsePivots]
    simp only [hl, hk, ih hr, ok_bind]
    rfl

theorem scanPivots_at (hat : PivotsAt bs o pivots) (key : Bytes) (ci : Nat) :
    scanPivots bs key pivots.length ci o =
      .ok (ci + (pivots.takeWhile fun p => p ≤ key).length) := by
  induction pivots generalizing o ci with
  | nil => rfl
  | cons p r ih =>
    obtain ⟨hl, hpv, hr⟩ := hat
    have hk := getSlice_at hpv "nav_kv internal pivot extends past page"
    rw [length_cons, scanPivots]
    simp only [hl, hk, ok_bind]
    by_cases hle : p ≤ key
    · rw [ih hr (ci + 1)]
      simp only [takeWhile_cons, hle, decide_true, if_true, length_cons]
      congr 1
      omega
    · simp [hle]

theorem parseChildren_at {cs : List Nat} (hat : At bs o (cs.flatMap pushU32))
    (hft : ∀ c ∈ cs, c < 2 ^ 32) : parseChildren bs cs.length o = .ok cs := by
  induction cs generalizing o with
  | nil => rfl
  | cons c r ih =>
    rw [forall_mem_cons] at hft
    have hr := hat.right
    rw [length_pushU32] at hr
    rw [length_cons, parseChildren]
    simp only [readU32_at hat.left hft.1, ih hr hft.2]
    rfl

/-- The page is that of an internal node over these children. -/
structure InternalAt (bytes : Bytes) (group : List NodeSummary) : Prop where
  two : 2 ≤ group.length
  kind : readU32 bytes 0 = .ok nodeKindInternal
  pivotCount : readU32 bytes 4 = .ok (group.length - 1)
  childCount : readU32 bytes 8 = .ok group.length
  children : At bytes internalHeaderLen ((group.map (·.page)).flatMap pushU32)
  pivots : PivotsAt bytes (internalHeaderLen + group.length * 4) (group.tail.map (·.firstKey))

theorem internalAt_of_encode {g : List NodeSummary} (h : encodeInternalPage g = .ok bs) :
    InternalAt bs g := by
  simp only [encodeInternalPage, bind_eq_ok, rejectIf_eq_ok, toU32_eq_ok, pure_eq_ok] at h
  obtain ⟨_, ht, _, ⟨hpv, rfl⟩, _, ⟨hch, rfl⟩, e, he, hb⟩ := h
  have hat := At.self bs
  have hps : g.flatMap (fun c => pushU32 c.page) = (g.map (·.page)).flatMap pushU32 := by
    rw [flatMap_map]
  rw [hps] at hb
  nth_rewrite 2 [← hb] at hat
  constructor
  · exact Nat.not_lt.1 ht
  · exact readU32_at hat.left.left.left.left (by decide)
  · exact readU32_at (hat.left.left.left.right.cast (by simp)) hpv
  · exact readU32_at (hat.left.left.right.cast (by simp)) hch
  · exact hat.left.right.cast (by simp [internalHeaderLen])
  · refine pivotsAt_of_at he (hat.right.cast ?_)
    simp only [length_append, length_pushU32, length_flatMap_pushU32, length_map, internalHeaderLen]
    omega

namespace InternalAt

variable {bs : Bytes} {gr : List NodeSummary}

theorem parse (h : InternalAt bs gr) (hps : ∀ c ∈ gr, c.page < 2 ^ 32) :
    parseInternalNode bs = .ok ⟨gr.map (·.page), gr.tail.map (·.firstKey)⟩ := by
  have hcn : gr.length = gr.length - 1 + 1 := by
    have := h.two
    omega
  have hkd := parseChildren_at h.children (by simpa using hps)
  have hpv := parsePivots_at h.pivots
  rw [length_map] at hkd
  rw [length_map, length_tail] at hpv
  simp only [parseInternalNode, h.pivotCount, h.childCount, ok_bind, bind_eq_ok,
    rejectIf_eq_ok, hkd, hpv]
  exact ⟨(), not_not_intro hcn, rfl⟩

theorem childRef (h : InternalAt bs gr) (hps : ∀ c ∈ gr, c.page < 2 ^ 32)
    {key : Bytes} {c : NodeSummary}
    (hch : gr[((gr.tail.map (·.firstKey)).takeWhile (· ≤ key)).length]? = some c) :
    internalChildForKeyRef bs key = .ok c.page := by
  have hcn : gr.length = gr.length - 1 + 1 := by
    have := h.two
    omega
  have hix := scanPivots_at h.pivots key 0
  rw [length_map, length_tail, Nat.zero_add] at hix
  have hpg : (gr.map (·.page))[((gr.tail.map (·.firstKey)).takeWhile (· ≤ key)).length]? =
      some c.page := by
    rw [getElem?_map, hch, Option.map_some]
  have hrd := readU32_flatMap_at h.children (by simpa using hps) hpg
  simp only [internalChildForKeyRef, h.pivotCount, h.childCount, ok_bind, bind_eq_ok,
    rejectIf_eq_ok, hix]
  exact ⟨(), not_not_intro hcn, hrd⟩

end InternalAt

/-- The numbers of a root record are those of a tree whose value pages are the last ones. -/
structure NavKvRoot.Valid (root : NavKvRoot) : Prop where
  entryCount : root.entryCount < 2 ^ 32
  pageCount : root.pageCount < 2 ^ 32
  pageSize : root.pageSize < 2 ^ 32
  valueBytesLen : root.valueBytesLen < 2 ^ 32
  pageSize_pos : 0 < root.pageSize
  rootPage : root.rootPage < root.pageCount
  valuePages : root.valuePageStart + (root.valueBytesLen + root.pageSize - 1) / root.pageSize =
    root.pageCount

theorem NavKvRoot.Valid.valuePageStart_le (h : rt.Valid) : rt.valuePageStart ≤ rt.pageCount :=
  h.valuePages ▸ Nat.le_add_right _ _

theorem readPrefetchPages_at {pc : Nat} (hc : pc < 2 ^ 32) {ps : List Nat}
    {i : Nat} {pr : Option Nat} (hat : At rb (headerLen + i * 4) (ps.flatMap pushU32))
    (hbd : ∀ p ∈ ps, p < pc) (hsr : ps.Pairwise (· < ·))
    (hpr : ∀ before ∈ pr, ∀ p ∈ ps, before < p) :
    readPrefetchPages rb pc ps.length i pr = .ok ps := by
  induction ps generalizing i pr with
  | nil => rfl
  | cons p r ih =>
    rw [forall_mem_cons] at hbd
    rw [pairwise_cons] at hsr
    have hr := hat.right
    rw [length_pushU32] at hr
    have hos : readPrefetchPages rb pc r.length (i + 1) (some p) = .ok r :=
      ih (hr.cast (by omega)) hbd.2 hsr.2 (by rintro _ ⟨⟩; exact hsr.1)
    have hla : ¬ pr.any (fun before => p ≤ before) = true := by
      cases pr with
      | none => simp
      | some before => simpa using hpr before rfl p (by simp)
    rw [length_cons, readPrefetchPages]
    simp only [readU32_at hat.left (hbd.1.trans hc), ok_bind, bind_eq_ok, rejectIf_eq_ok]
    exact ⟨(), Nat.not_le.2 hbd.1, (), hla, r, hos, rfl⟩

def NavKvRoot.header (root : NavKvRoot) : List Nat :=
  [navkvStorageFormat, root.entryCount, root.pageSize, root.rootPage, root.pageCount,
    root.valuePageStart, root.valueBytesLen, 0, 0, 0, root.prefetchPages.length, 0]

theorem buildRootBytes_eq_ok
    (h : buildRootBytes rt.entryCount rt.pageSize rt.rootPage rt.pageCount rt.valuePageStart
      rt.valueBytesLen rt.prefetchPages = .ok rb) :
    rt.prefetchPages.length < 2 ^ 32 ∧
      rb = magic ++ rt.header.flatMap pushU32 ++ rt.prefetchPages.flatMap pushU32 := by
  simp only [buildRootBytes, bind_eq_ok, toU32_eq_ok, pure_eq_ok] at h
  obtain ⟨_, ⟨hl, rfl⟩, rfl⟩ := h
  refine ⟨hl, ?_⟩
  simp [NavKvRoot.header, flatMap_cons, flatMap_nil, append_nil, append_assoc]

theorem NavKvRoot.Valid.header (h : rt.Valid) (hp : rt.prefetchPages.length < 2 ^ 32) :
    ∀ n ∈ rt.header, n < 2 ^ 32 := by
  have hrt := h.rootPage.trans h.pageCount
  have hvl := h.valuePageStart_le.trans_lt h.pageCount
  simp only [NavKvRoot.header, forall_mem_cons]
  exact ⟨by decide, h.entryCount, h.pageSize, hrt, h.pageCount, hvl, h.valueBytesLen,
    by decide, by decide, by decide, hp, by decide, by simp⟩

/-- A root record is read back. -/
theorem parse_buildRootBytes (hv : rt.Valid) (hbd : ∀ p ∈ rt.prefetchPages, p < rt.pageCount)
    (hsr : rt.prefetchPages.Pairwise (· < ·))
    (h : buildRootBytes rt.entryCount rt.pageSize rt.rootPage rt.pageCount rt.valuePageStart
      rt.valueBytesLen rt.prefetchPages = .ok rb) :
    NavKvRoot.parse rb = .ok rt := by
  obtain ⟨hp, hb⟩ := buildRootBytes_eq_ok h
  have hmg : magic.length = 16 := by decide
  have hl : rb.length = headerLen + rt.prefetchPages.length * 4 := by
    rw [hb]
    simp only [length_append, length_flatMap_pushU32]
    rfl
  have hat := At.self rb
  nth_rewrite 2 [hb] at hat
  have hrd {i n : Nat} hn : readU32 rb (16 + i * 4) = .ok n :=
    readU32_flatMap_at (hat.left.right.cast (by simp [hmg])) (hv.header hp) hn
  have hps : readPrefetchPages rb rt.pageCount rt.prefetchPages.length 0 none =
      .ok rt.prefetchPages := by
    refine readPrefetchPages_at hv.pageCount (hat.right.cast ?_) hbd hsr nofun
    rfl
  have hwr : wrap (rt.valuePageStart + (rt.valueBytesLen + rt.pageSize - 1) / rt.pageSize) =
      rt.pageCount := by
    rw [hv.valuePages]
    exact Nat.mod_eq_of_lt hv.pageCount
  have htk : rb.take 16 = magic := by rw [hb, append_assoc, ← hmg, take_left]
  simp only [NavKvRoot.parse, bind_eq_ok, rejectIf_eq_ok]
  refine ⟨(), by rw [hl]; omega, (), not_not_intro htk, _, hrd (i := 0) rfl,
    (), not_not_intro rfl, _, hrd (i := 1) rfl, _, hrd (i := 2) rfl, _, hrd (i := 3) rfl,
    _, hrd (i := 4) rfl, _, hrd (i := 5) rfl, _, hrd (i := 6) rfl, _, hrd (i := 10) rfl,
    (), hv.pageSize_pos.ne', (), ?_, (), Nat.not_le.2 hv.rootPage, (),
    Nat.not_lt.2 hv.valuePageStart_le, (), ?_, (), not_not_intro hl, _, hps, rfl⟩
  · have := hv.rootPage
    omega
  · omega

end Aerobag.NavKv
