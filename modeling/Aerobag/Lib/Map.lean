import Mathlib.Algebra.BigOperators.Group.List.Basic
import Mathlib.Data.List.Sort
import Mathlib.Data.String.Basic

/-!
# Ordered maps and sorted lists

What an insertion or a removal does to the entries of an ordered map, up to their order; and sorted
vectors of strings, which are determined by how often each string occurs.
-/

open List

namespace Std.ExtTreeMap

variable {κ ν : Type} {cmp : κ → κ → Ordering} [TransCmp cmp] [LawfulEqCmp cmp]
  {m : ExtTreeMap κ ν cmp} {k : κ} {v : ν}

theorem nodup_toList : m.toList.Nodup := by
  refine (distinct_keys_toList (t := m)).imp ?_
  rintro a b hne rfl
  exact hne ReflCmp.compare_self

theorem toList_insert_perm (h : m[k]? = none) : (m.insert k v).toList.Perm ((k, v) :: m.toList) := by
  have hfr : (k, v) ∉ m.toList := by
    rw [mem_toList_iff_getElem?_eq_some, h]
    simp
  refine (perm_ext_iff_of_nodup nodup_toList (nodup_toList.cons hfr)).2 ?_
  rintro ⟨k', v'⟩
  rw [mem_cons, mem_toList_iff_getElem?_eq_some, getElem?_insert]
  by_cases hk : k = k'
  · subst hk
    rw [if_pos ReflCmp.compare_self]
    simp [h, eq_comm]
  · have hne : cmp k k' ≠ .eq := fun heq => hk (LawfulEqCmp.eq_of_compare heq)
    simp [hne, Ne.symm hk]

theorem erase_eq_self (h : m[k]? = none) : m.erase k = m := by
  refine ext_getElem? fun k' => ?_
  rw [getElem?_erase]
  split
  · rename_i heq
    rw [← LawfulEqCmp.eq_of_compare heq, h]
  · rfl

theorem insert_erase : (m.erase k).insert k v = m.insert k v := by
  refine ext_getElem? fun k' => ?_
  rw [getElem?_insert, getElem?_insert, getElem?_erase]
  split <;> rfl

theorem insert_insert {w : ν} : (m.insert k v).insert k w = m.insert k w := by
  refine ext_getElem? fun k' => ?_
  simp only [getElem?_insert]
  split <;> rfl

/-- The map with this value under the key, or with none. -/
def put (m : ExtTreeMap κ ν cmp) (k : κ) : Option ν → ExtTreeMap κ ν cmp
  | some v => m.insert k v
  | none => m.erase k

theorem getElem?_put [DecidableEq κ] (o : Option ν) (k' : κ) :
    (m.put k o)[k']? = if k = k' then o else m[k']? := by
  cases o <;> simp [put, getElem?_insert, getElem?_erase, LawfulEqCmp.compare_eq_iff_eq]

theorem erase_insert : (m.insert k v).erase k = m.erase k := by
  refine ext_getElem? fun k' => ?_
  rw [getElem?_erase, getElem?_erase, getElem?_insert]
  split <;> rfl

theorem insert_eq_self (h : m[k]? = some v) : m.insert k v = m := by
  refine ext_getElem? fun k' => ?_
  rw [getElem?_insert]
  split
  · rename_i heq
    rw [← LawfulEqCmp.eq_of_compare heq, h]
  · rfl

theorem toList_erase_perm (h : m[k]? = some v) : m.toList.Perm ((k, v) :: (m.erase k).toList) := by
  have hpr := toList_insert_perm (m := m.erase k) (v := v) getElem?_erase_self
  rwa [insert_erase, insert_eq_self h] at hpr

end Std.ExtTreeMap

namespace Std.ExtTreeMap

variable {α : Type} {key : α → String}

/-- Inserts each value under its key, a later one in place of an earlier one. -/
def insertAll (key : α → String) (map : ExtTreeMap String α) (xs : List α) : ExtTreeMap String α :=
  xs.foldl (fun map x => map.insert (key x) x) map

/-- The values in the order of their keys. -/
def valueList (map : ExtTreeMap String α) : List α := map.toList.map Prod.snd

theorem insertAll_append (map : ExtTreeMap String α) (xs ys : List α) :
    insertAll key map (xs ++ ys) = insertAll key (insertAll key map xs) ys :=
  foldl_append

/-- Of the values with one key the last one stays. -/
theorem getElem?_insertAll (xs : List α) (m : ExtTreeMap String α) (k : String) :
    (insertAll key m xs)[k]? = (xs.reverse.find? (key · = k)).or m[k]? := by
  induction xs generalizing m with
  | nil => simp [insertAll]
  | cons x xs ih =>
    change (insertAll key (m.insert (key x) x) xs)[k]? = _
    rw [ih, reverse_cons, find?_append, Option.or_assoc, getElem?_insert]
    by_cases hk : key x = k <;> simp [hk]

theorem insertAll_eq_some {xs : List α} (hxs : xs.Pairwise fun a b => key a < key b)
    {map : ExtTreeMap String α} {k : String} {x : α} : (insertAll key map xs)[k]? = some x ↔
      x ∈ xs ∧ key x = k ∨ (∀ y ∈ xs, key y ≠ k) ∧ map[k]? = some x := by
  induction xs generalizing map with
  | nil => simp [insertAll]
  | cons first r ih =>
    obtain ⟨hf, hr⟩ := pairwise_cons.1 hxs
    change (insertAll key (map.insert (key first) first) r)[k]? = some x ↔ _
    by_cases hk : key first = k
    · simp only [mem_cons]
      grind
    · simp only [mem_cons]
      grind

theorem mem_of_insertAll {xs : List α} {map : ExtTreeMap String α} {k : String} {x : α}
    (h : (insertAll key map xs)[k]? = some x) : map[k]? = some x ∨ x ∈ xs ∧ key x = k := by
  induction xs generalizing map with
  | nil => exact .inl h
  | cons first r ih =>
    rcases ih h with hmp | ⟨hm, hk⟩
    · rw [getElem?_insert] at hmp
      split at hmp
      · rename_i heq
        obtain rfl := Option.some.inj hmp
        exact .inr ⟨mem_cons_self, LawfulEqCmp.eq_of_compare heq⟩
      · exact .inl hmp
    · exact .inr ⟨mem_cons_of_mem _ hm, hk⟩

section Keyed

variable {map : ExtTreeMap String α} (hkey : ∀ {k : String} {x : α}, map[k]? = some x → key x = k)

include hkey

theorem valueList_ascending : map.valueList.Pairwise fun a b => key a < key b := by
  unfold valueList
  rw [pairwise_map]
  refine (ordered_keys_toList (t := map)).imp_of_mem ?_
  rintro ⟨k, x⟩ ⟨k', x'⟩ hm hm' hlt
  rw [mem_toList_iff_getElem?_eq_some] at hm hm'
  rw [hkey hm, hkey hm']
  exact compare_lt_iff_lt.1 hlt

theorem mem_valueList_iff {x : α} : x ∈ map.valueList ↔ map[key x]? = some x := by
  rw [valueList, List.mem_map]
  constructor
  · rintro ⟨⟨k, x'⟩, hm, rfl⟩
    rw [mem_toList_iff_getElem?_eq_some] at hm
    rwa [hkey hm]
  · exact fun hx => ⟨(key x, x), mem_toList_iff_getElem?_eq_some.2 hx, rfl⟩

theorem insertAll_valueList : insertAll key ∅ map.valueList = map := by
  refine ext_getElem? fun k => Option.ext fun x => ?_
  rw [insertAll_eq_some (valueList_ascending hkey), mem_valueList_iff hkey]
  constructor
  · rintro (⟨hx, rfl⟩ | ⟨-, hx⟩)
    · exact hx
    · simp at hx
  · intro hx
    obtain rfl := hkey hx
    exact .inl ⟨hx, rfl⟩

end Keyed

end Std.ExtTreeMap

namespace List

variable {xs ys : List String} {x : String}

theorem eq_of_sorted_of_count (hxs : xs.Pairwise (· ≤ ·)) (hys : ys.Pairwise (· ≤ ·))
    (h : ∀ x, xs.count x = ys.count x) : xs = ys :=
  Perm.eq_of_pairwise (fun _ _ _ _ => le_antisymm) hxs hys (perm_iff_count.2 h)

theorem insertIdx_takeWhile (p : String → Bool) (xs : List String) (x : String) :
    xs.insertIdx (xs.takeWhile p).length x = xs.takeWhile p ++ x :: xs.dropWhile p := by
  induction xs with
  | nil => rfl
  | cons y ys ih =>
    by_cases hy : p y
    · simp [hy, ih]
    · simp [hy]

/-- The place after the smaller elements is the one that an insertion in order takes. -/
theorem insertIdx_eq_orderedInsert :
    xs.insertIdx (xs.takeWhile (· < x)).length x = xs.orderedInsert (· ≤ ·) x := by
  rw [insertIdx_takeWhile, orderedInsert_eq_take_drop]
  simp [not_le]

theorem sorted_insertIdx (h : xs.Pairwise (· ≤ ·)) :
    (xs.insertIdx (xs.takeWhile (· < x)).length x).Pairwise (· ≤ ·) := by
  rw [insertIdx_eq_orderedInsert]
  exact h.orderedInsert x xs

theorem count_insertIdx_takeWhile (y : String) :
    (xs.insertIdx (xs.takeWhile (· < x)).length x).count y =
      xs.count y + if x = y then 1 else 0 := by
  rw [insertIdx_eq_orderedInsert, (perm_orderedInsert _ x xs).count_eq y, count_cons]
  simp [beq_iff_eq]

end List
