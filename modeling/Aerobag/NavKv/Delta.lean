import Aerobag.Lib.Join
import Aerobag.NavKv.Reader

/-!
# Deltas of nav_kv pairs (`had-nav-kv/src/lib.rs`)

The loops of `build_nav_kv_delta` and `apply_nav_kv_delta` both walk two lists side by side, as
`Join.merge` does; they differ in what they push.
-/

namespace Aerobag.NavKv

structure NavKvDeltaEntry where
  key : String
  value : Option Bytes
  deriving DecidableEq, Repr

structure NavKvDelta where
  entries : List NavKvDeltaEntry
  deriving DecidableEq, Repr

/-- The loop of both checks of an order, after the key `previous`. -/
def validateSortedUnique {α : Type} (what : String) (key : α → String) (hasEmptyValue : α → Bool) :
    Option String → List α → Except String Unit
  | _, [] => .ok ()
  | previous, x :: rest => do
    .rejectIf (key x).isEmpty (what ++ " key must not be empty")
    .rejectIf (hasEmptyValue x) (what ++ " value for key " ++ key x ++ " must not be empty")
    match previous with
    | none => pure ()
    | some before =>
      match compareBytes (strBytes before) (strBytes (key x)) with
      | .lt => pure ()
      | .eq => throw (what ++ " duplicate key " ++ key x)
      | .gt => throw (what ++ " keys are not sorted: " ++ before ++ " before " ++ key x)
    validateSortedUnique what key hasEmptyValue (some (key x)) rest

def validateSortedUniquePairs (pairs : List NavKvPair) : Except String Unit :=
  validateSortedUnique "nav_kv" NavKvPair.key (·.value.isEmpty) none pairs

def validateSortedUniqueDelta (delta : NavKvDelta) : Except String Unit :=
  validateSortedUnique "nav_kv delta" NavKvDeltaEntry.key (·.value.any List.isEmpty) none delta.entries

def NavKvPair.sortKey (pair : NavKvPair) : Bytes := strBytes pair.key

def NavKvDeltaEntry.sortKey (entry : NavKvDeltaEntry) : Bytes := strBytes entry.key

/-- The entry for a pair that goes, comes, or is in both lists. -/
def deltaEntry : Option NavKvPair → Option NavKvPair → Option NavKvDeltaEntry
  | some fromPair, none => some ⟨fromPair.key, none⟩
  | none, some toPair => some ⟨toPair.key, some toPair.value⟩
  | some fromPair, some toPair =>
    if fromPair.value ≠ toPair.value then some ⟨toPair.key, some toPair.value⟩ else none
  | none, none => none

def buildNavKvDelta (source target : List NavKvPair) : Except String NavKvDelta := do
  validateSortedUniquePairs source
  validateSortedUniquePairs target
  return ⟨Join.merge NavKvPair.sortKey NavKvPair.sortKey deltaEntry source target⟩

def patchedPair : Option NavKvPair → Option NavKvDeltaEntry → Option NavKvPair
  | pair?, none => pair?
  | _, some entry => entry.value.map fun value => ⟨entry.key, value⟩

def applyNavKvDelta (source : List NavKvPair) (delta : NavKvDelta) : Except String
    (List NavKvPair) := do
  validateSortedUniquePairs source
  validateSortedUniqueDelta delta
  return Join.merge NavKvPair.sortKey NavKvDeltaEntry.sortKey patchedPair source delta.entries

end Aerobag.NavKv
