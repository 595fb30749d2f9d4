import Aerobag.Lib.Map
import Mathlib.Logic.Function.Basic

/-!
# Inverted indexes

For every key the sorted vector of the identifiers that have it, and no empty vectors. There is one
such index for a family of keys (`Represents`), which follows the family (`set`, `unset`).
-/

open List Option

namespace Inverted

open Std (ExtTreeMap)

variable {K V : Type}

/-- The keys of the value under each identifier. -/
def keysIn (keys : V → List K) (records : ExtTreeMap String V) (id : String) : List K :=
  (records[id]?.map keys).getD []

section

variable (keys : V → List K) (rs : ExtTreeMap String V) (id : String)

theorem keysIn_put (o : Option V) :
    keysIn keys (rs.put id o) = Function.update (keysIn keys rs) id ((o.map keys).getD []) := by
  funext id'
  rw [Function.update_apply, keysIn, ExtTreeMap.getElem?_put]
  simp only [eq_comm (a := id')]
  split <;> rfl

theorem keysIn_insert (v : V) :
    keysIn keys (rs.insert id v) = Function.update (keysIn keys rs) id (keys v) :=
  keysIn_put keys rs id (some v)

theorem keysIn_erase : keysIn keys (rs.erase id) = Function.update (keysIn keys rs) id [] :=
  keysIn_put keys rs id none

end

variable [DecidableEq K] {cmp : K → K → Ordering} [Std.TransCmp cmp]

/-- The index of identifiers with the given keys. -/
structure Represents (keys : String → List K) (index : ExtTreeMap K (List String) cmp) : Prop where
  sorted : ∀ {key : K} {ids : List String}, index[key]? = some ids → ids.Pairwise (· ≤ ·)
  nonempty : ∀ {key : K} {ids : List String}, index[key]? = some ids → ids ≠ []
  count : ∀ key id, (index.getD key []).count id = (keys id).count key

namespace Represents

variable {ks : String → List K} {i i' : ExtTreeMap K (List String) cmp} {id : String}
  {key : K}

theorem empty : Represents (fun _ => []) (∅ : ExtTreeMap K (List String) cmp) := by
  constructor <;> simp

theorem sorted_getD (h : Represents ks i) (key : K) : (i.getD key []).Pairwise (· ≤ ·) := by
  rw [ExtTreeMap.getD_eq_getD_getElem?]
  cases his : i[key]? with
  | none => simp
  | some ids => exact h.sorted his

theorem mem_iff (h : Represents ks i) : id ∈ i.getD key [] ↔ key ∈ ks id := by
  rw [← count_pos_iff, h.count, count_pos_iff]

/-- One vector of the index is replaced, and has no place there if it is empty. -/
theorem replace {ks' : String → List K} (h : Represents ks i) (key : K) (ids : List String)
    (hsr : ids.Pairwise (· ≤ ·))
    (he : ∀ key', i'[key']? = if key = key' then if ids = [] then none else some ids else i[key']?)
    (hc : ∀ id, ids.count id = (ks' id).count key)
    (ho : ∀ id key', key ≠ key' → (ks' id).count key' = (ks id).count key') : Represents ks' i' := by
  refine ⟨?_, ?_, ?_⟩
  · intro key' ids' his'
    rw [he] at his'
    split at his'
    · split at his'
      · cases his'
      · exact some.inj his' ▸ hsr
    · exact h.sorted his'
  · intro key' ids' his'
    rw [he] at his'
    split at his'
    · split at his'
      · cases his'
      · next hne => exact some.inj his' ▸ hne
    · exact h.nonempty his'
  · intro key' id
    rw [ExtTreeMap.getD_eq_getD_getElem?, he]
    by_cases hk : key = key'
    · subst hk
      rw [if_pos rfl, ← hc]
      by_cases hn : ids = [] <;> simp [hn]
    · rw [if_neg hk, ho id key' hk, ← h.count, ExtTreeMap.getD_eq_getD_getElem?]

variable [Std.LawfulEqCmp cmp]

theorem eq (h : Represents ks i) (h' : Represents ks i') : i = i' := by
  have hgd : ∀ key, i.getD key [] = i'.getD key [] := fun key =>
    List.eq_of_sorted_of_count (h.sorted_getD key) (h'.sorted_getD key) fun id => by
      rw [h.count, h'.count]
  refine ExtTreeMap.ext_getElem? fun key => ?_
  have hsm := hgd key
  simp only [ExtTreeMap.getD_eq_getD_getElem?] at hsm
  cases his : i[key]? with
  | none =>
    cases his' : i'[key]? with
    | none => rfl
    | some ids' => exact absurd (by simpa [his, his'] using hsm.symm) (h'.nonempty his')
  | some ids =>
    cases his' : i'[key]? with
    | none => exact absurd (by simpa [his, his'] using hsm) (h.nonempty his)
    | some ids' => simpa [his, his'] using hsm

theorem set (h : Represents ks i) (id : String) (key : K) {ids : List String}
    (hsr : ids.Pairwise (· ≤ ·))
    (hc : ∀ id', ids.count id' = (i.getD key []).count id' + if id = id' then 1 else 0) :
    Represents (Function.update ks id (ks id ++ [key])) (i.insert key ids) := by
  have hne : ids ≠ [] := by
    rintro rfl
    simpa using hc id
  refine h.replace key ids hsr (fun key' => ?_) (fun id' => ?_) fun id' key' hk => ?_
  · simp [hne, ExtTreeMap.getElem?_insert, Std.LawfulEqCmp.compare_eq_iff_eq]
  · rw [hc, h.count]
    by_cases hid : id' = id
    · simp [hid]
    · simp [hid, Ne.symm hid]
  · by_cases hid : id' = id
    · subst hid
      simp [hk]
    · rw [Function.update_of_ne hid]

theorem unset (h : Represents ks i) (id : String) {ids : List String} (his : i[key]? = some ids) :
    Represents (Function.update ks id ((ks id).erase key))
      (if (ids.erase id).isEmpty then i.erase key else i.insert key (ids.erase id)) := by
  have hgd : i.getD key [] = ids := by rw [ExtTreeMap.getD_eq_getD_getElem?, his, getD_some]
  refine h.replace key (ids.erase id) ((h.sorted his).sublist erase_sublist) (fun key' => ?_)
    (fun id' => ?_) fun id' key' hk => ?_
  · by_cases hem : ids.erase id = []
    · simp [hem, ExtTreeMap.getElem?_erase, Std.LawfulEqCmp.compare_eq_iff_eq]
    · simp [hem, ExtTreeMap.getElem?_insert, Std.LawfulEqCmp.compare_eq_iff_eq]
  · by_cases hid : id' = id
    · subst hid
      rw [Function.update_self, count_erase_self, count_erase_self, ← h.count, hgd]
    · rw [Function.update_of_ne hid, count_erase_of_ne hid, ← h.count, hgd]
  · by_cases hid : id' = id
    · subst hid
      rw [Function.update_self, count_erase_of_ne (Ne.symm hk)]
    · rw [Function.update_of_ne hid]

end Represents

end Inverted
