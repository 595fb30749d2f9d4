import Aerobag.Lib.Command
import Aerobag.Lib.Search
import Aerobag.Lib.Sha256
import Aerobag.NavKv.Format

/-!
# Reading a nav_kv tree (`had-nav-kv/src/lib.rs`)

The reader asks a page provider for pages and parses them; the pages that it has asked for are
recorded. Its loops have no bound in the source. Here they have fuel; a reading that runs out of it
fails.
-/

namespace Aerobag.NavKv

structure NavKvPair where
  key : String
  value : Bytes
  deriving DecidableEq, Repr

abbrev Reading := EStateM Unit (List Nat)

namespace Reading

def value {α : Type} (x : Reading α) : Option α := (Command.result x []).toOption

def asked {α : Type} (x : Reading α) : List Nat := Command.final x []

def fetch (provider : Nat → Option Bytes) (page : Nat) : Reading Bytes := do
  modify (· ++ [page])
  match provider page with
  | some bytes => return bytes
  | none => throw ()

def ofOption {α : Type} : Option α → Reading α
  | some a => return a
  | none => throw ()

def ofExcept {α : Type} (x : Except String α) : Reading α := ofOption x.toOption

end Reading

open Reading

def compareBytes (a b : Bytes) : Ordering := if a < b then .lt else if a = b then .eq else .gt

def fromUtf8Lossy (repair : Bytes → String) (bytes : Bytes) : String :=
  (String.fromUTF8? ⟨⟨bytes⟩⟩).getD (repair bytes)

def inclusive (start stop : Nat) : List Nat := List.range' start (stop + 1 - start)

def btreeSet (pages : List Nat) : List Nat := (Std.ExtTreeSet.ofList pages compare).toList

structure NavKvPrefixStats where
  keyCount : Nat
  keyBytes : Nat
  valueBytes : Nat
  inlineValueCount : Nat
  externalValueCount : Nat
  matchingLeafPages : List Nat
  externalValuePages : List Nat
  deriving DecidableEq, Repr

def LeafEntryValue.length : LeafEntryValue → Nat
  | .inline bytes => bytes.length
  | .external _ len => len

/-- What the canonical hash is updated with for a pair. -/
def canonicalBytes (pair : NavKvPair) : Bytes :=
  strBytes pair.key ++ [0] ++ leBytes 8 pair.value.length ++ [0] ++ pair.value ++ [0xff]

def navKvCanonicalSha256FromPairs (pairs : List NavKvPair) : String :=
  hexBytes (Sha256.digest (pairs.flatMap canonicalBytes))

namespace NavKvRoot

variable (self : NavKvRoot) (provider : Nat → Option Bytes)

def readNode (page : Nat) : Reading Node :=
  if self.valuePageStart ≤ page then throw ()
  else do
    let bytes ← fetch provider page
    let kind ← ofExcept (readU32 bytes 0)
    if kind = nodeKindLeaf then return .leaf (← ofExcept (parseLeafNode bytes))
    else if kind = nodeKindInternal then return .internal (← ofExcept (parseInternalNode bytes))
    else throw ()

def readLeaf (page : Nat) : Reading LeafNode := do
  match ← self.readNode provider page with
  | .leaf leaf => return leaf
  | .internal _ => throw ()

def firstLeafPage : Nat → Nat → Reading Nat
  | 0, _ => throw ()
  | fuel + 1, pageIndex => do
    match ← self.readNode provider pageIndex with
    | .leaf _ => return pageIndex
    | .internal node => firstLeafPage fuel (← ofOption node.children.head?)

def findLeafPageForKey (key : Bytes) : Nat → Nat → Reading Nat
  | 0, _ => throw ()
  | fuel + 1, pageIndex => do
    match ← self.readNode provider pageIndex with
    | .leaf _ => return pageIndex
    | .internal node =>
      let childIndex := Search.partitionPoint (fun pivot => decide (pivot ≤ key)) node.pivots
      findLeafPageForKey key fuel (← ofOption node.children[childIndex]?)

def findLeafEntry (fuel : Nat) (key : Bytes) : Reading LeafEntry := do
  let leafPage ← self.findLeafPageForKey provider key fuel self.rootPage
  let leaf ← self.readLeaf provider leafPage
  ofOption ((Search.binarySearchBy (fun entry => compareBytes entry.key key)
    leaf.entries).toOption.bind fun index => leaf.entries[index]?)

/-- The loop of `read_external_value` over the value pages. -/
def readValuePages (start stop : Nat) : List Nat → Reading Bytes
  | [] => return []
  | valuePage :: rest => do
    let page ← fetch provider (wrap (self.valuePageStart + valuePage))
    let pageStart := wrap (valuePage * self.pageSize)
    let sliceStart := start - pageStart
    let sliceEnd := wrap (min stop (wrap (pageStart + self.pageSize)) + 2 ^ 32 - pageStart)
    if page.length < sliceEnd ∨ sliceEnd < sliceStart then throw ()
    else
      let others ← readValuePages start stop rest
      return (page.drop sliceStart).take (sliceEnd - sliceStart) ++ others

def readExternalValue (start len : Nat) : Reading Bytes :=
  if len = 0 then return []
  else if 2 ^ 32 ≤ start + len then throw ()
  else if self.valueBytesLen < start + len then throw ()
  else
    let stop := start + len
    self.readValuePages provider start stop
      (inclusive (start / self.pageSize) ((stop - 1) / self.pageSize))

def extractValue (fuel : Nat) (key : String) : Reading Bytes := do
  let entry ← self.findLeafEntry provider fuel (strBytes key)
  match entry.value with
  | .inline bytes => return bytes
  | .external offset len =>
    if len = 0 then throw () else self.readExternalValue provider offset len

def getValueRange (fuel : Nat) (key : String) : Reading (Nat × Nat) := do
  let entry ← self.findLeafEntry provider fuel (strBytes key)
  match entry.value with
  | .external offset len => return (offset, wrap (offset + len))
  | .inline _ => return (0, 0)

variable (repair : Bytes → String)

def readPair (entry : LeafEntry) : Reading NavKvPair := do
  let value ← match entry.value with
    | .inline bytes => pure bytes
    | .external offset len => self.readExternalValue provider offset len
  return ⟨fromUtf8Lossy repair entry.key, value⟩

/-- The inner loop of `pairs`. -/
def readPairs : List LeafEntry → Reading (List NavKvPair)
  | [] => return []
  | entry :: rest => do
    let pair ← self.readPair provider repair entry
    let pairs ← readPairs rest
    return pair :: pairs

/-- The outer loop of `pairs`, from a leaf on. -/
def pairsFrom : Nat → Nat → Reading (List NavKvPair)
  | 0, _ => throw ()
  | fuel + 1, leafPage => do
    let leaf ← self.readLeaf provider leafPage
    let pairs ← self.readPairs provider repair leaf.entries
    match leaf.nextLeaf with
    | some next =>
      let others ← pairsFrom fuel next
      return pairs ++ others
    | none => return pairs

def pairs (fuel : Nat) : Reading (List NavKvPair) := do
  let leafPage ← self.firstLeafPage provider fuel self.rootPage
  self.pairsFrom provider repair fuel leafPage

def canonicalSha256 (fuel : Nat) : Reading String := do
  let pairs ← self.pairs provider repair fuel
  return hexBytes (Sha256.digest (pairs.flatMap canonicalBytes))

/-- The inner loop of `prefix_keys`: keys, and whether it goes on. -/
def scanEntries (keyPrefix : Bytes) : List LeafEntry → List String × Bool
  | [] => ([], true)
  | entry :: rest =>
    if entry.key < keyPrefix then scanEntries keyPrefix rest
    else if ¬ keyPrefix.isPrefixOf entry.key then ([], false)
    else
      let (keys, more) := scanEntries keyPrefix rest
      (fromUtf8Lossy repair entry.key :: keys, more)

/-- The outer loop of `prefix_keys`, from a leaf on. -/
def prefixKeysFrom (keyPrefix : Bytes) : Nat → Nat → Reading (List String)
  | 0, _ => throw ()
  | fuel + 1, leafPage => do
    let leaf ← self.readLeaf provider leafPage
    let (keys, more) := scanEntries repair keyPrefix leaf.entries
    match leaf.nextLeaf, more with
    | some next, true =>
      let others ← prefixKeysFrom keyPrefix fuel next
      return keys ++ others
    | _, _ => return keys

def prefixKeys (fuel : Nat) (keyPrefix : String) : Reading (List String) := do
  let leafPage ← self.findLeafPageForKey provider (strBytes keyPrefix) fuel self.rootPage
  self.prefixKeysFrom provider repair (strBytes keyPrefix) fuel leafPage

/-- The inner loop of `prefix_stats`: entries, and whether it goes on. -/
def matchingEntries (keyPrefix : Bytes) : List LeafEntry → List LeafEntry × Bool
  | [] => ([], true)
  | entry :: rest =>
    if entry.key < keyPrefix then matchingEntries keyPrefix rest
    else if ¬ keyPrefix.isPrefixOf entry.key then ([], false)
    else
      let (found, more) := matchingEntries keyPrefix rest
      (entry :: found, more)

/-- The outer loop of `prefix_stats`: the leaf pages, with what matches. -/
def scanLeaves (keyPrefix : Bytes) : Nat → Nat → Reading (List (Nat × List LeafEntry))
  | 0, _ => throw ()
  | fuel + 1, leafPage => do
    let leaf ← self.readLeaf provider leafPage
    let (found, more) := matchingEntries keyPrefix leaf.entries
    match leaf.nextLeaf, more with
    | some next, true =>
      let others ← scanLeaves keyPrefix fuel next
      return (leafPage, found) :: others
    | _, _ => return [(leafPage, found)]

/-- The pages that `prefix_stats` counts for a value. -/
def statsPages : LeafEntryValue → List Nat
  | .inline _ => []
  | .external offset len =>
    if len = 0 then []
    else
      let startPage := offset / self.pageSize
      let endPage := wrap (wrap (offset + len) + 2 ^ 32 - 1) / self.pageSize
      (inclusive startPage endPage).map fun page => wrap (self.valuePageStart + page)

/-- What the loops of `prefix_stats` have counted. -/
def countStats (leaves : List (Nat × List LeafEntry)) : NavKvPrefixStats :=
  let entries := leaves.flatMap Prod.snd
  let isInline (entry : LeafEntry) := match entry.value with
    | .inline _ => true
    | .external _ _ => false
  { keyCount := entries.length
    keyBytes := (entries.map (·.key.length)).sum
    valueBytes := (entries.map (·.value.length)).sum
    inlineValueCount := entries.countP isInline
    externalValueCount := entries.countP (!isInline ·)
    matchingLeafPages := btreeSet ((leaves.filter (!·.2.isEmpty)).map Prod.fst)
    externalValuePages := btreeSet (entries.flatMap (self.statsPages ·.value)) }

def prefixStats (fuel : Nat) (keyPrefix : String) : Reading NavKvPrefixStats := do
  let leafPage ← self.findLeafPageForKey provider (strBytes keyPrefix) fuel self.rootPage
  let leaves ← self.scanLeaves provider (strBytes keyPrefix) fuel leafPage
  return self.countStats leaves

end NavKvRoot

end Aerobag.NavKv
