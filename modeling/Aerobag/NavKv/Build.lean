import Aerobag.NavKv.Reader

/-!
# Building a nav_kv tree (`had-nav-kv/src/lib.rs`)

The builder packs the sorted entries into leaves, and the nodes of a level into those of the next,
until one is left. The number of pages is checked at the end.
-/

open List Except

namespace Aerobag.NavKv

variable {pageSize : Nat} {grs : List (List NodeSummary)}

structure NavKvBuildOutput where
  rootBytes : Bytes
  pages : List Bytes
  pageSize : Nat
  logicalBytesLen : Nat
  valueBytesLen : Nat
  prefetchPages : List Nat
  deriving DecidableEq, Repr

/-- Whether startup needs a value or only the tree path describing its pages. -/
inductive NavKvPrefetch where
  | value (key : String)
  | lookup (key : String)

/-- The loop of `validate_pairs`, after a pair with the key `previous`. -/
def validatePairsFrom (pageSize : Nat) : Option String → List NavKvPair → Except String Unit
  | _, [] => .ok ()
  | previous, pair :: rest => do
    .rejectIf pair.key.isEmpty "nav_kv key must not be empty"
    .rejectIf pair.value.isEmpty ("nav_kv value for key " ++ pair.key ++ " must not be empty")
    let inlineValueLen := if pair.value.length ≤ inlineValueMaxLen then pair.value.length else 0
    .rejectIf (pageSize < leafHeaderLen + leafEntryFixedLen + (strBytes pair.key).length +
      inlineValueLen) ("nav_kv key " ++ pair.key ++ " is too large for a leaf page")
    match previous with
    | none => pure ()
    | some before =>
      match compareBytes (strBytes before) (strBytes pair.key) with
      | .lt => pure ()
      | .eq => throw ("duplicate nav_kv key " ++ pair.key)
      | .gt => throw ("nav_kv keys are not sorted: " ++ before ++ " before " ++ pair.key)
    validatePairsFrom pageSize (some pair.key) rest

def validatePairs (pairs : List NavKvPair) (pageSize : Nat) : Except String Unit := do
  .rejectIf (pageSize = 0) "nav_kv page_size must be non-zero"
  .rejectIf pairs.isEmpty "nav_kv requires at least one key/value pair"
  validatePairsFrom pageSize none pairs

/-- The loop that makes the leaf entries, with the value bytes so far. -/
def leafEntriesFrom (valueBytes : Bytes) :
    List NavKvPair → Except String (List LeafEntry × Bytes)
  | [] => return ([], valueBytes)
  | pair :: rest => do
    let valueLen ← toU32 pair.value.length "nav_kv value length exceeds u32"
    if pair.value.length ≤ inlineValueMaxLen then
      let (entries, valueBytes) ← leafEntriesFrom valueBytes rest
      return (⟨strBytes pair.key, .inline pair.value⟩ :: entries, valueBytes)
    else
      let valueOffset ← toU32 valueBytes.length "nav_kv value bytes exceed u32"
      let (entries, valueBytes) ← leafEntriesFrom (valueBytes ++ pair.value) rest
      return (⟨strBytes pair.key, .external valueOffset valueLen⟩ :: entries, valueBytes)

def leafEntryEncodedLen (entry : LeafEntry) : Nat :=
  leafEntryFixedLen + entry.key.length +
    match entry.value with
    | .inline bytes => bytes.length
    | .external _ _ => 0

/-- The packing loop of `build_leaf_pages`, with the current group. -/
def packLeafGroups (pageSize : Nat) :
    List LeafEntry → List LeafEntry → Nat → Except String (List (List LeafEntry))
  | [], current, _ => return if current.isEmpty then [] else [current]
  | entry :: rest, current, currentSize => do
    let entrySize := leafEntryEncodedLen entry
    if ¬ current.isEmpty ∧ pageSize < currentSize + entrySize then
      .rejectIf (pageSize < leafHeaderLen + entrySize) "nav_kv leaf entry exceeds page size"
      let groups ← packLeafGroups pageSize rest [entry] (leafHeaderLen + entrySize)
      return current :: groups
    else
      .rejectIf (pageSize < currentSize + entrySize) "nav_kv leaf entry exceeds page size"
      packLeafGroups pageSize rest (current ++ [entry]) (currentSize + entrySize)

def NodeSummary.of (page : Nat) (keys : List Bytes) : NodeSummary := ⟨page, keys.headD []⟩

/-- The loop of `build_leaf_pages` that encodes the groups, from a page on. -/
def emitLeafPages : Nat → List (List LeafEntry) → Except String (List (NodeSummary × Bytes))
  | _, [] => return []
  | page, group :: rest => do
    let bytes ← encodeLeafPage group (if rest.isEmpty then none else some (page + 1))
    let others ← emitLeafPages (page + 1) rest
    return (.of page (group.map (·.key)), bytes) :: others

/-- The summaries of the leaves, and all pages with them. -/
def buildLeafPages (entries : List LeafEntry) (pageSize : Nat) (pages : List Bytes) :
    Except String (List NodeSummary × List Bytes) := do
  let groups ← packLeafGroups pageSize entries [] leafHeaderLen
  let firstLeafPage ← toU32 pages.length "nav_kv page count exceeds u32"
  let leaves ← emitLeafPages firstLeafPage groups
  return (leaves.map Prod.fst, pages ++ leaves.map Prod.snd)

def internalPageSizeForChildren (children : List NodeSummary) (extra : Option NodeSummary) : Nat :=
  let childCount := children.length + if extra.isSome then 1 else 0
  internalHeaderLen + childCount * 4 + (children.tail.map fun child => 4 + child.firstKey.length).sum +
    match extra with
    | some child => if 1 < childCount then 4 + child.firstKey.length else 0
    | none => 0

/-- The loop of `pack_internal_groups`, with the current group. -/
def packChildren (pageSize : Nat) :
    List NodeSummary → List NodeSummary → Except String (List (List NodeSummary))
  | [], current => return if current.isEmpty then [] else [current]
  | child :: rest, current => do
    let candidateLen := current.length + 1
    let candidateSize := internalPageSizeForChildren current (some child)
    if 1 < candidateLen ∧ pageSize < candidateSize then
      .rejectIf (pageSize < internalPageSizeForChildren [child] none)
        "nav_kv internal child entry exceeds page size"
      let groups ← packChildren pageSize rest [child]
      return current :: groups
    else
      .rejectIf (pageSize < internalPageSizeForChildren (current ++ [child]) none)
        "nav_kv internal child entry exceeds page size"
      packChildren pageSize rest (current ++ [child])

/-- The end of `pack_internal_groups`: a lone last child gets a neighbour. -/
def regroup (pageSize : Nat) (groups : List (List NodeSummary)) :
    Except String (List (List NodeSummary)) :=
  match groups.reverse with
  | [last] :: previous :: others =>
    if previous.length ≤ 2 then do
      .rejectIf (pageSize < internalPageSizeForChildren (previous ++ [last]) none)
        "nav_kv internal page exceeds page size after regrouping"
      return others.reverse ++ [previous ++ [last]]
    else return others.reverse ++ [previous.dropLast, previous.getLast?.toList ++ [last]]
  | _ => return groups

def packInternalGroups (children : List NodeSummary) (pageSize : Nat) :
    Except String (List (List NodeSummary)) := do
  let groups ← packChildren pageSize children []
  regroup pageSize groups

/-- The loop of `build_internal_level`. -/
def emitInternalPages : List (List NodeSummary) → List Bytes →
    Except String (List NodeSummary × List Bytes)
  | [], pages => return ([], pages)
  | group :: rest, pages => do
    let page ← toU32 pages.length "nav_kv page count exceeds u32"
    let bytes ← encodeInternalPage group
    let (summaries, pages) ← emitInternalPages rest (pages ++ [bytes])
    return (.of page (group.map (·.firstKey)) :: summaries, pages)

def buildInternalLevel (children : List NodeSummary) (pageSize : Nat) (pages : List Bytes) :
    Except String (List NodeSummary × List Bytes) := do
  let groups ← packInternalGroups children pageSize
  emitInternalPages groups pages

/-! ## Levels

Every node has at least two children, so that a level is shorter than the one below it. -/

theorem packChildren_flatten {gs : List (List NodeSummary)}
    {cs cu : List NodeSummary} (h : packChildren pageSize cs cu = .ok gs) :
    gs.flatten = cu ++ cs := by
  induction cs generalizing cu gs with
  | nil =>
    rw [packChildren, pure_eq_ok] at h
    subst h
    cases cu <;> simp
  | cons c r ih =>
    rw [packChildren] at h
    split at h
    · simp only [bind_eq_ok, pure_eq_ok] at h
      obtain ⟨_, -, gs', hgr', rfl⟩ := h
      rw [flatten_cons, ih hgr']
      simp
    · simp only [bind_eq_ok] at h
      obtain ⟨_, -, hgr⟩ := h
      rw [ih hgr]
      simp

theorem regroup_flatten {gs' : List (List NodeSummary)}
    (h : regroup pageSize grs = .ok gs') : gs'.flatten = grs.flatten := by
  unfold regroup at h
  split at h
  · rename_i l p os hrv
    have hgr : grs = os.reverse ++ [p, [l]] := by
      rw [← reverse_reverse grs, hrv]
      simp
    split at h
    · simp only [bind_eq_ok, pure_eq_ok] at h
      obtain ⟨_, -, rfl⟩ := h
      simp [hgr]
    · rename_i hln
      rw [pure_eq_ok] at h
      subst h
      have hne : p ≠ [] := by
        rintro rfl
        simp at hln
      have hl : p.dropLast ++ p.getLast?.toList = p := by
        rw [getLast?_eq_some_getLast hne]
        exact dropLast_append_getLast hne
      rw [hgr]
      simp only [flatten_append, flatten_cons, flatten_nil, append_nil]
      rw [← append_assoc p.dropLast, hl]
  · rw [pure_eq_ok] at h
    rw [h]

theorem emitInternalPages_length {ps ps' : List Bytes} {sms : List NodeSummary}
    (h : emitInternalPages grs ps = .ok (sms, ps')) : 2 * sms.length ≤ grs.flatten.length := by
  induction grs generalizing ps sms with
  | nil =>
    simp only [emitInternalPages, pure_eq_ok, Prod.mk.injEq] at h
    simp [← h.1]
  | cons g r ih =>
    simp only [emitInternalPages, bind_eq_ok, pure_eq_ok] at h
    obtain ⟨p, -, bs, hb, ⟨sms', ps''⟩, hr, hrs⟩ := h
    obtain ⟨rfl, rfl⟩ := Prod.mk.inj hrs
    have ht : ¬ g.length < 2 := by
      simp only [encodeInternalPage, bind_eq_ok, rejectIf_eq_ok] at hb
      exact hb.choose_spec.1
    have hsh := ih hr
    simp only [length_cons, flatten_cons, length_append]
    omega

theorem buildInternalLevel_length {cs : List NodeSummary} {ps ps' : List Bytes}
    {sms : List NodeSummary} (h : buildInternalLevel cs pageSize ps = .ok (sms, ps')) :
    2 * sms.length ≤ cs.length := by
  simp only [buildInternalLevel, packInternalGroups, bind_eq_ok] at h
  obtain ⟨gs, ⟨p, hpc, hgr⟩, hps⟩ := h
  have hl := emitInternalPages_length hps
  rwa [regroup_flatten hgr, packChildren_flatten hpc] at hl

def buildLevels (pageSize : Nat) (level : List NodeSummary) (pages : List Bytes) :
    Except String (List NodeSummary × List Bytes) :=
  if hlevel : 1 < level.length then
    match hnext : buildInternalLevel level pageSize pages with
    | .error e => .error e
    | .ok next =>
      have : next.1.length < level.length := by
        have := buildInternalLevel_length hnext
        omega
      buildLevels pageSize next.1 next.2
  else .ok (level, pages)
termination_by level.length

variable (repair : Bytes → String)

/-- Adds the pages of a reading to the touched ones. -/
def touch {α : Type} (reading : Reading α) (touched : List Nat) : List Nat :=
  touched ++ reading.asked

def traceKeys (root : NavKvRoot) (pages : List Bytes) (keys : List String) (touched : List Nat) :
    List Nat :=
  keys.foldl (fun touched key =>
    touch (root.extractValue (pages[·]?) pages.length key) touched) touched

/-- The scan for a prefix and the requests for the keys that it finds. -/
def tracePrefix (root : NavKvRoot) (pages : List Bytes) (keyPrefix : String) (touched : List Nat) :
    Except String (List Nat) :=
  let scan := root.prefixKeys (pages[·]?) repair pages.length keyPrefix
  match scan.value with
  | none => .error ("nav_kv startup prefetch failed to scan prefix " ++ keyPrefix)
  | some keys => .ok (traceKeys root pages keys (touch scan touched))

def traceExtra (root : NavKvRoot) (pages : List Bytes) :
    List NavKvPrefetch → List Nat → Except String (List Nat)
  | [], touched => return touched
  | .value key :: rest, touched => do
    let reading := root.extractValue (pages[·]?) pages.length key
    .rejectIf reading.value.isNone ("extra startup prefetch key does not exist: " ++ key)
    traceExtra root pages rest (touch reading touched)
  | .lookup key :: rest, touched => do
    let reading := root.getValueRange (pages[·]?) pages.length key
    .rejectIf reading.value.isNone ("extra startup prefetch key does not exist: " ++ key)
    traceExtra root pages rest (touch reading touched)

def startupPrefetchPages (root : NavKvRoot) (pages : List Bytes)
    (extraPrefetchKeys : List NavKvPrefetch) : Except String (List Nat) := do
  let touched := traceKeys root pages ["contract/nav-db"] []
  let catalog := root.extractValue (pages[·]?) pages.length "chart/catalog"
  if catalog.value.isNone then return []
  else
    let touched := touch catalog touched
    let touched := traceKeys root pages
      ["resource/families", "weather/metar-important-stations", "weather/station-catalog"] touched
    let touched ← tracePrefix repair root pages "package/by-id/" touched
    let touched ← tracePrefix repair root pages "chart-reference/" touched
    let touched ← tracePrefix repair root pages "plate/by-id/chart-reference%3A" touched
    let touched := traceKeys root pages ["vector/manifest"] touched
    let touched ← traceExtra root pages extraPrefetchKeys touched
    return (Std.ExtTreeSet.ofList touched compare).toList

def buildNavKvStrictWithExtraPrefetchKeys (pairs : List NavKvPair) (pageSize : Nat)
    (extraPrefetchKeys : List NavKvPrefetch) : Except String NavKvBuildOutput := do
  validatePairs pairs pageSize
  let (entries, valueBytes) ← leafEntriesFrom [] pairs
  let valueBytesLen ← toU32 valueBytes.length "nav_kv value bytes exceed u32"
  let (level, pages) ← buildLeafPages entries pageSize []
  let (level, pages) ← buildLevels pageSize level pages
  match level.head? with
  | none => throw "nav_kv requires at least one root page"
  | some root =>
    let rootPage := root.page
    let valuePageStart ← toU32 pages.length "nav_kv page count exceeds u32"
    let pages := pages ++ pieces pageSize valueBytes
    let pageCount ← toU32 pages.length "nav_kv page count exceeds u32"
    let logicalBytesLen ← toU32 (pageCount * pageSize) "nav_kv logical length exceeds u32"
    let entryCount ← toU32 pairs.length "nav_kv entry count exceeds u32"
    let rootWithoutPrefetch ← buildRootBytes entryCount pageSize rootPage pageCount valuePageStart
      valueBytesLen []
    let root ← NavKvRoot.parse rootWithoutPrefetch
    let prefetchPages ← startupPrefetchPages repair root pages extraPrefetchKeys
    let rootBytes ← buildRootBytes entryCount pageSize rootPage pageCount valuePageStart
      valueBytesLen prefetchPages
    return ⟨rootBytes, pages, pageSize, logicalBytesLen, valueBytesLen, prefetchPages⟩

def KeyLe (left right : NavKvPair) : Prop := strBytes left.key ≤ strBytes right.key

instance : DecidableRel KeyLe := fun left right =>
  inferInstanceAs (Decidable (strBytes left.key ≤ strBytes right.key))

def buildNavKvSorted (pairs : List NavKvPair) (pageSize : Nat) : Except String NavKvBuildOutput :=
  buildNavKvStrictWithExtraPrefetchKeys repair (pairs.insertionSort KeyLe) pageSize []

end Aerobag.NavKv
