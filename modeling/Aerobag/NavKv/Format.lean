import Aerobag.Lib.Except
import Aerobag.Lib.Slice

/-!
# The storage format of a nav_kv tree (`had-nav-kv/src/lib.rs`)

A root record and numbered pages. Leaves hold entries, internal nodes the pages of their children
and the first keys of all but the first. The pages after the nodes hold the values that do not stand
in a leaf.
-/

namespace Aerobag.NavKv

def magic : Bytes := strBytes "AEROBAGNAVKV0001"
def navkvStorageFormat : Nat := 4
def headerLen : Nat := 64
def prefetchCountOffset : Nat := 56
def nodeKindLeaf : Nat := 1
def nodeKindInternal : Nat := 2
def leafHeaderLen : Nat := 12
def internalHeaderLen : Nat := 12
def leafEntryFixedLen : Nat := 16
def inlineValueMaxLen : Nat := 4096
def noPage : Nat := 2 ^ 32 - 1
def valueKindExternal : Nat := 0
def valueKindInline : Nat := 1

def toU32 (n : Nat) (message : String) : Except String Nat := do
  .rejectIf (2 ^ 32 ≤ n) message
  return n

/-- A sum or product of `u32`, which wraps around. -/
def wrap (n : Nat) : Nat := n % 2 ^ 32

def pushU32 (value : Nat) : Bytes := leBytes 4 value

def readU32 (bytes : Bytes) (offset : Nat) : Except String Nat :=
  match slice bytes offset (offset + 4) with
  | none => .error "nav_kv read past end"
  | some chunk => .ok (leNat chunk)

def getSlice (bytes : Bytes) (start stop : Nat) (message : String) : Except String Bytes :=
  match slice bytes start stop with
  | none => .error message
  | some part => .ok part

inductive LeafEntryValue where
  | inline (bytes : Bytes)
  | external (offset len : Nat)
  deriving DecidableEq, Repr

/-- `LeafEntry` of the builder and `LeafLookup` of the reader. -/
structure LeafEntry where
  key : Bytes
  value : LeafEntryValue
  deriving DecidableEq, Repr

structure NodeSummary where
  page : Nat
  firstKey : Bytes
  deriving DecidableEq, Repr

structure LeafNode where
  nextLeaf : Option Nat
  entries : List LeafEntry
  deriving DecidableEq, Repr

structure InternalNode where
  children : List Nat
  pivots : List Bytes
  deriving DecidableEq, Repr

inductive Node where
  | leaf (node : LeafNode)
  | internal (node : InternalNode)
  deriving DecidableEq, Repr

def encodeLeafEntry (entry : LeafEntry) : Except String Bytes := do
  let keyLen ← toU32 entry.key.length "nav_kv key length exceeds u32"
  match entry.value with
  | .inline bytes =>
    let valueLen ← toU32 bytes.length "nav_kv inline value length exceeds u32"
    return pushU32 keyLen ++ pushU32 valueKindInline ++ pushU32 valueLen ++ pushU32 0 ++
      entry.key ++ bytes
  | .external offset len =>
    return pushU32 keyLen ++ pushU32 valueKindExternal ++ pushU32 offset ++ pushU32 len ++ entry.key

def encodeLeafPage (entries : List LeafEntry) (nextLeaf : Option Nat) : Except String Bytes := do
  let count ← toU32 entries.length "too many leaf entries"
  let encoded ← entries.mapM encodeLeafEntry
  return pushU32 nodeKindLeaf ++ pushU32 count ++ pushU32 (nextLeaf.getD noPage) ++ encoded.flatten

def encodePivot (firstKey : Bytes) : Except String Bytes := do
  let keyLen ← toU32 firstKey.length "nav_kv pivot length exceeds u32"
  return pushU32 keyLen ++ firstKey

def encodeInternalPage (children : List NodeSummary) : Except String Bytes := do
  .rejectIf (children.length < 2) "nav_kv internal nodes require at least two children"
  let pivotCount ← toU32 (children.length - 1) "too many pivots"
  let childCount ← toU32 children.length "too many children"
  let pivots ← (children.tail.map (·.firstKey)).mapM encodePivot
  return pushU32 nodeKindInternal ++ pushU32 pivotCount ++ pushU32 childCount ++
    children.flatMap (fun child => pushU32 child.page) ++ pivots.flatten

def parseLeafEntries (bytes : Bytes) : Nat → Nat → Except String (List LeafEntry)
  | 0, _ => return []
  | count + 1, offset => do
    let keyLen ← readU32 bytes offset
    let valueKind ← readU32 bytes (offset + 4)
    let valueA ← readU32 bytes (offset + 8)
    let valueB ← readU32 bytes (offset + 12)
    let offset := offset + leafEntryFixedLen
    let key ← getSlice bytes offset (offset + keyLen) "nav_kv leaf key extends past page"
    let offset := offset + keyLen
    if valueKind = valueKindInline then
      let value ← getSlice bytes offset (offset + valueA) "nav_kv inline value extends past page"
      let rest ← parseLeafEntries bytes count (offset + valueA)
      return ⟨key, .inline value⟩ :: rest
    else if valueKind = valueKindExternal then
      let rest ← parseLeafEntries bytes count offset
      return ⟨key, .external valueA valueB⟩ :: rest
    else throw "nav_kv leaf entry has invalid value kind"

def parseLeafNode (bytes : Bytes) : Except String LeafNode := do
  let count ← readU32 bytes 4
  let nextRaw ← readU32 bytes 8
  let entries ← parseLeafEntries bytes count leafHeaderLen
  return ⟨if nextRaw ≠ noPage then some nextRaw else none, entries⟩

def parseChildren (bytes : Bytes) : Nat → Nat → Except String (List Nat)
  | 0, _ => return []
  | count + 1, offset => do
    let child ← readU32 bytes offset
    let rest ← parseChildren bytes count (offset + 4)
    return child :: rest

def parsePivots (bytes : Bytes) : Nat → Nat → Except String (List Bytes)
  | 0, _ => return []
  | count + 1, offset => do
    let keyLen ← readU32 bytes offset
    let offset := offset + 4
    let key ← getSlice bytes offset (offset + keyLen) "nav_kv internal pivot extends past page"
    let rest ← parsePivots bytes count (offset + keyLen)
    return key :: rest

def parseInternalNode (bytes : Bytes) : Except String InternalNode := do
  let pivotCount ← readU32 bytes 4
  let childCount ← readU32 bytes 8
  .rejectIf (childCount ≠ pivotCount + 1) "nav_kv internal child/pivot count mismatch"
  let children ← parseChildren bytes childCount internalHeaderLen
  let pivots ← parsePivots bytes pivotCount (internalHeaderLen + childCount * 4)
  return ⟨children, pivots⟩

structure NavKvRoot where
  entryCount : Nat
  pageSize : Nat
  rootPage : Nat
  pageCount : Nat
  valuePageStart : Nat
  valueBytesLen : Nat
  prefetchPages : List Nat
  deriving DecidableEq, Repr

/-- Zeros fill up the header. -/
def buildRootBytes (entryCount pageSize rootPage pageCount valuePageStart valueBytesLen : Nat)
    (prefetchPages : List Nat) : Except String Bytes := do
  let prefetchCount ← toU32 prefetchPages.length "nav_kv prefetch page count exceeds u32"
  return magic ++ pushU32 navkvStorageFormat ++ pushU32 entryCount ++ pushU32 pageSize ++
    pushU32 rootPage ++ pushU32 pageCount ++ pushU32 valuePageStart ++ pushU32 valueBytesLen ++
    pushU32 0 ++ pushU32 0 ++ pushU32 0 ++ pushU32 prefetchCount ++ pushU32 0 ++
    prefetchPages.flatMap pushU32

/-- The loop of `parse` over the prefetch pages, after `previous`. -/
def readPrefetchPages (rootBytes : Bytes) (pageCount : Nat) :
    Nat → Nat → Option Nat → Except String (List Nat)
  | 0, _, _ => return []
  | count + 1, index, previous => do
    let page ← readU32 rootBytes (headerLen + index * 4)
    .rejectIf (pageCount ≤ page) "nav_kv prefetch page exceeds page count"
    .rejectIf (previous.any fun before => page ≤ before)
      "nav_kv prefetch pages must be sorted and unique"
    let rest ← readPrefetchPages rootBytes pageCount count (index + 1) (some page)
    return page :: rest

def NavKvRoot.parse (rootBytes : Bytes) : Except String NavKvRoot := do
  .rejectIf (rootBytes.length < headerLen) "nav_kv root is shorter than header"
  .rejectIf (rootBytes.take 16 ≠ magic) "nav_kv root has invalid magic"
  let version ← readU32 rootBytes 16
  .rejectIf (version ≠ navkvStorageFormat) ("unsupported nav_kv version " ++ toString version)
  let entryCount ← readU32 rootBytes 20
  let pageSize ← readU32 rootBytes 24
  let rootPage ← readU32 rootBytes 28
  let pageCount ← readU32 rootBytes 32
  let valuePageStart ← readU32 rootBytes 36
  let valueBytesLen ← readU32 rootBytes 40
  let prefetchCount ← readU32 rootBytes prefetchCountOffset
  .rejectIf (pageSize = 0) "nav_kv page_size must be non-zero"
  .rejectIf (pageCount = 0) "nav_kv page_count must be non-zero"
  .rejectIf (pageCount ≤ rootPage) "nav_kv root_page exceeds page count"
  .rejectIf (pageCount < valuePageStart) "nav_kv value_page_start exceeds page count"
  let valuePageCount := (valueBytesLen + pageSize - 1) / pageSize
  .rejectIf (pageCount < wrap (valuePageStart + valuePageCount))
    "nav_kv value bytes exceed value pages"
  .rejectIf (rootBytes.length ≠ headerLen + prefetchCount * 4)
    "nav_kv root length does not match version metadata"
  let prefetchPages ← readPrefetchPages rootBytes pageCount prefetchCount 0 none
  return ⟨entryCount, pageSize, rootPage, pageCount, valuePageStart, valueBytesLen, prefetchPages⟩

end Aerobag.NavKv
