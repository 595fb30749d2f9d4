import Aerobag.NavKv.Reader

/-!
# A store of some pages of a nav_kv tree (`had-nav-kv/src/lib.rs`)

The store looks a key up in the pages that it has, scanning the bytes of a page, and reports the
pages that it misses. The counts of `NavKvPageProbeStats` are left out.
-/

namespace Aerobag.NavKv

inductive NavKvLookup where
  | hit (bytes : Bytes)
  | missingKey
  | missingPages (pages : List Nat)
  deriving DecidableEq, Repr

structure NavKvStore where
  root : NavKvRoot
  pages : Std.ExtTreeMap Nat Bytes

/-- The missing pages, `BTreeSet<u32>`. -/
abbrev Missing := Std.ExtTreeSet Nat

/-- The loop of `internal_child_for_key_ref`: the index of the child. -/
def scanPivots (bytes key : Bytes) : Nat → Nat → Nat → Except String Nat
  | 0, childIndex, _ => return childIndex
  | count + 1, childIndex, offset => do
    let keyLen ← readU32 bytes offset
    let offset := offset + 4
    let pivot ← getSlice bytes offset (offset + keyLen) "nav_kv internal pivot extends past page"
    if pivot ≤ key then scanPivots bytes key count (childIndex + 1) (offset + keyLen)
    else return childIndex

def internalChildForKeyRef (bytes key : Bytes) : Except String Nat := do
  let pivotCount ← readU32 bytes 4
  let childCount ← readU32 bytes 8
  .rejectIf (childCount ≠ pivotCount + 1) "nav_kv internal child/pivot count mismatch"
  let childIndex ← scanPivots bytes key pivotCount 0 (internalHeaderLen + childCount * 4)
  readU32 bytes (internalHeaderLen + childIndex * 4)

/-- The loop of `leaf_entry_value_ref_for_key`. -/
def scanLeaf (bytes key : Bytes) : Nat → Nat → Except String (Option LeafEntryValue)
  | 0, _ => return none
  | count + 1, offset => do
    let keyLen ← readU32 bytes offset
    let valueKind ← readU32 bytes (offset + 4)
    let valueA ← readU32 bytes (offset + 8)
    let valueB ← readU32 bytes (offset + 12)
    let offset := offset + leafEntryFixedLen
    let entryKey ← getSlice bytes offset (offset + keyLen) "nav_kv leaf key extends past page"
    let offset := offset + keyLen
    match compareBytes entryKey key with
    | .eq =>
      if valueKind = valueKindInline then
        let value ← getSlice bytes offset (offset + valueA) "nav_kv inline value extends past page"
        return some (.inline value)
      else if valueKind = valueKindExternal then return some (.external valueA valueB)
      else throw "nav_kv leaf entry has invalid value kind"
    | .gt => return none
    | .lt =>
      if valueKind = valueKindInline then
        .rejectIf (bytes.length < offset + valueA) "nav_kv inline value extends past page"
        scanLeaf bytes key count (offset + valueA)
      else if valueKind = valueKindExternal then scanLeaf bytes key count offset
      else throw "nav_kv leaf entry has invalid value kind"

def leafEntryValueRefForKey (bytes key : Bytes) : Except String (Option LeafEntryValue) := do
  let count ← readU32 bytes 4
  scanLeaf bytes key count leafHeaderLen

namespace NavKvStore

def new (root : NavKvRoot) : NavKvStore := ⟨root, ∅⟩

def insertPage (self : NavKvStore) (pageIndex : Nat) (bytes : Bytes) : NavKvStore :=
  { self with pages := self.pages.insert pageIndex bytes }

variable (self : NavKvStore)

def nodePageBytesOrRecordMissing (page : Nat) (missing : Missing) : Option Bytes × Missing :=
  if self.root.valuePageStart ≤ page then (none, missing)
  else
    match self.pages[page]? with
    | some bytes => (some bytes, missing)
    | none => (none, missing.insert page)

def valuePageBytesOrRecordMissing (page : Nat) (missing : Missing) : Option Bytes × Missing :=
  match self.pages[page]? with
  | some bytes => (some bytes, missing)
  | none => (none, missing.insert page)

def findLeafPageForKeyRef (key : Bytes) : Nat → Nat → Missing → Except String (Option Nat × Missing)
  | 0, _, _ => .error "out of fuel"
  | fuel + 1, pageIndex, missing =>
    match self.nodePageBytesOrRecordMissing pageIndex missing with
    | (none, missing) => .ok (none, missing)
    | (some bytes, missing) => do
      let kind ← readU32 bytes 0
      if kind = nodeKindLeaf then return (some pageIndex, missing)
      else if kind = nodeKindInternal then
        let child ← internalChildForKeyRef bytes key
        findLeafPageForKeyRef key fuel child missing
      else throw "nav_kv node has invalid kind"

def findLeafEntryRef (fuel : Nat) (key : Bytes) (missing : Missing) :
    Except String (Option LeafEntryValue × Missing) := do
  let (leafPage, missing) ← self.findLeafPageForKeyRef key fuel self.root.rootPage missing
  match leafPage with
  | none => return (none, missing)
  | some leafPage =>
    match self.nodePageBytesOrRecordMissing leafPage missing with
    | (none, missing) => return (none, missing)
    | (some leafBytes, missing) =>
      let value ← leafEntryValueRefForKey leafBytes key
      return (value, missing)

def recordMissingExternalValuePages (start len : Nat) (missing : Missing) :
    Except String Missing :=
  if len = 0 then .ok missing
  else do
    .rejectIf (2 ^ 32 ≤ start + len) "nav_kv external value range overflows"
    .rejectIf (self.root.valueBytesLen < start + len)
      "nav_kv external value extends past value bytes"
    let stop := start + len
    return (inclusive (start / self.root.pageSize) ((stop - 1) / self.root.pageSize)).foldl
      (fun missing valuePage =>
        let pageIndex := wrap (self.root.valuePageStart + valuePage)
        if self.pages.contains pageIndex then missing else missing.insert pageIndex) missing

def readValuePagesBorrowed (start stop : Nat) : List Nat → Missing → Option Bytes × Missing
  | [], missing => (some [], missing)
  | valuePage :: rest, missing =>
    match self.valuePageBytesOrRecordMissing (wrap (self.root.valuePageStart + valuePage)) missing with
    | (none, missing) => (none, missing)
    | (some page, missing) =>
      let pageStart := wrap (valuePage * self.root.pageSize)
      let sliceStart := start - pageStart
      let sliceEnd := wrap (min stop (wrap (pageStart + self.root.pageSize)) + 2 ^ 32 - pageStart)
      if page.length < sliceEnd ∨ sliceEnd < sliceStart then (none, missing)
      else
        match readValuePagesBorrowed start stop rest missing with
        | (none, missing) => (none, missing)
        | (some others, missing) =>
          (some ((page.drop sliceStart).take (sliceEnd - sliceStart) ++ others), missing)

def readExternalValueBorrowed (start len : Nat) (missing : Missing) : Option Bytes × Missing :=
  if len = 0 then (some [], missing)
  else if 2 ^ 32 ≤ start + len then (none, missing)
  else if self.root.valueBytesLen < start + len then (none, missing)
  else
    let stop := start + len
    self.readValuePagesBorrowed start stop
      (inclusive (start / self.root.pageSize) ((stop - 1) / self.root.pageSize)) missing

def getBytes (fuel : Nat) (key : String) : Except String NavKvLookup := do
  let (entry, missing) ← self.findLeafEntryRef fuel (strBytes key) ∅
  match entry with
  | none => return if missing.isEmpty then .missingKey else .missingPages missing.toList
  | some (.inline bytes) => return .hit bytes
  | some (.external offset len) =>
    let missing ← self.recordMissingExternalValuePages offset len ∅
    if ¬ missing.isEmpty then return .missingPages missing.toList
    else
      match self.readExternalValueBorrowed offset len missing with
      | (some bytes, _) => return .hit bytes
      | (none, missing) =>
        if missing.isEmpty then throw "nav_kv failed to read external value"
        else return .missingPages missing.toList

def missingPagesForKey (fuel : Nat) (key : String) : Except String (List Nat) := do
  let (entry, missing) ← self.findLeafEntryRef fuel (strBytes key) ∅
  match entry with
  | some (.external offset len) =>
    let missing ← self.recordMissingExternalValuePages offset len missing
    return missing.toList
  | _ => return missing.toList

/-- The loop of `missing_pages_for_keys_with_stats`. -/
def missingPagesForKeysFrom (fuel : Nat) (pages : Missing) : List String → Except String Missing
  | [] => return pages
  | key :: rest => do
    let missing ← self.missingPagesForKey fuel key
    missingPagesForKeysFrom fuel (pages.insertMany missing) rest

def missingPagesForKeys (fuel : Nat) (keys : List String) : Except String (List Nat) := do
  let pages ← self.missingPagesForKeysFrom fuel ∅ keys
  return pages.toList

/-- It reads on while the store has the pages. -/
def keysWithPrefixLookup (repair : Bytes → String) (fuel : Nat) (keyPrefix : String) :
    Except String NavKvLookup :=
  let scan := self.root.prefixKeys (self.pages[·]?) repair fuel keyPrefix
  match scan.value with
  | some keys => .ok (.hit (strBytes ("\n".intercalate keys)))
  | none =>
    let missing := btreeSet (scan.asked.filter (· ∉ self.pages))
    if missing.isEmpty then .error "nav_kv failed to scan prefix" else .ok (.missingPages missing)

end NavKvStore

end Aerobag.NavKv
