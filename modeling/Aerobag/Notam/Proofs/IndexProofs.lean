import Aerobag.Notam.State
import Aerobag.Lib.Inverted

/-!
# The airport index

The index of a state is an inverted one: under every airport stands, sorted, each identifier as often
as the airport occurs among its keys. Entering, taking out and appending lead from one such index to
the next.
-/

open List

namespace Aerobag.Notam

open Command Inverted

def entered (airportIds : List String) : List String :=
  (airportIds.map normalizeAirportId).filter fun key => !key.isEmpty

variable {ks : String → List String} {ix : AirportIndex} {id : String}

theorem entered_cons (a : String) (r : List String) :
    entered (a :: r) = if (normalizeAirportId a).isEmpty = true then entered r
      else normalizeAirportId a :: entered r := by
  unfold entered
  generalize hk : normalizeAirportId a = key
  rw [map_cons, hk]
  by_cases hbl : key.isEmpty = true <;> simp [hbl]

theorem insertIntoAirportIndex_ends (h : Represents ks ix) (hnd : (ks id).Nodup)
    (ads : List String) : Ends (insertIntoAirportIndex id ads) ix fun res i' =>
      match res with
      | .ok _ => (ks id ++ entered ads).Nodup ∧
          Represents (Function.update ks id (ks id ++ entered ads)) i'
      | .error _ => ¬ (ks id ++ entered ads).Nodup := by
  induction ads generalizing ks ix with
  | nil =>
    rw [show ks id ++ entered [] = ks id by simp [entered], Function.update_eq_self]
    exact ⟨hnd, h⟩
  | cons ap r ih =>
    rw [insertIntoAirportIndex, entered_cons]
    generalize normalizeAirportId ap = key
    by_cases hbl : key.isEmpty = true
    · rw [if_pos hbl, if_pos hbl]
      exact ih h hnd
    · rw [if_neg hbl, if_neg hbl]
      simp only [ends_modify_bind, ends_get_bind, Std.ExtTreeMap.getD_insert_self]
      unfold binarySearch
      split
      · -- The identifier is there already, so that the airport was among the keys.
        rename_i hfd
        split at hfd
        · rename_i hm
          intro hal
          exact disjoint_of_nodup_append hal (h.mem_iff.1 hm) mem_cons_self
        · cases hfd
      · rename_i i hms
        split at hms
        · cases hms
        · rename_i hnt
          obtain rfl := Except.error.inj hms
          rw [ends_modify_bind]
          have hst := h.set id key (List.sorted_insertIdx (h.sorted_getD key)) fun id' =>
            List.count_insertIdx_takeWhile id'
          rw [Std.ExtTreeMap.insert_insert]
          have hks : Function.update ks id (ks id ++ [key]) id = ks id ++ [key] :=
            Function.update_self ..
          have hrc := ih hst (by
            rw [hks]
            exact nodup_append.2 ⟨hnd, by simp, by
              rintro a ha b hb rfl
              exact hnt (h.mem_iff.2 (mem_singleton.1 hb ▸ ha))⟩)
          rw [hks, Function.update_idem] at hrc
          simpa [append_assoc, singleton_append] using hrc

theorem removeFromAirportIndex_ends {i : Std.ExtTreeMap String (List String) compare}
    {ads : List String} (h : Represents ks i)
    (hks : (ks id).Perm (entered ads)) : Ends (removeFromAirportIndex id ads) i fun r i' =>
      r = .ok () ∧ Represents (Function.update ks id []) i' := by
  induction ads generalizing ks i with
  | nil =>
    have hn : ks id = [] := perm_nil.1 hks
    simp only [removeFromAirportIndex, ends_pure, true_and]
    rw [← hn, Function.update_eq_self]
    exact h
  | cons a rs ih =>
    rw [entered_cons] at hks
    rw [removeFromAirportIndex]
    generalize normalizeAirportId a = key at hks ⊢
    by_cases hbl : key.isEmpty = true
    · rw [if_pos hbl] at hks ⊢
      exact ih h hks
    · rw [if_neg hbl] at hks ⊢
      have hm : id ∈ i.getD key [] := h.mem_iff.2 (hks.mem_iff.2 mem_cons_self)
      rw [Std.ExtTreeMap.getD_eq_getD_getElem?] at hm
      rw [ends_get_bind]
      cases his : i[key]? with
      | none => simp [his] at hm
      | some ids =>
        rw [his, Option.getD_some] at hm
        simp only [binarySearch, hm, if_true, eraseIdx_idxOf_eq_erase]
        have hun := h.unset id his
        have hsl : Function.update ks id ((ks id).erase key) id = (ks id).erase key :=
          Function.update_self ..
        have hr : ((ks id).erase key).Perm (entered rs) := by
          have := hks.erase key
          rwa [erase_cons_head] at this
        have hrc := ih hun (by rwa [hsl])
        rwa [Function.update_idem] at hrc

/-- Appending keeps an index when no identifier in it comes after the appended one. -/
theorem pushAirports_represents {i : Std.ExtTreeMap String (List String) compare}
    (h : Represents ks i)
    (hl : ∀ id' ap, ap ∈ ks id' → id' ≤ id) (ads : List String) :
    Represents (Function.update ks id (ks id ++ entered ads)) (pushAirports id ads i) := by
  induction ads generalizing ks i with
  | nil =>
    rw [show ks id ++ entered [] = ks id by simp [entered], Function.update_eq_self]
    exact h
  | cons ap r ih =>
    rw [pushAirports, foldl_cons, ← pushAirports, entered_cons]
    generalize normalizeAirportId ap = key
    by_cases hbl : key.isEmpty = true
    · rw [if_pos hbl, if_pos hbl]
      exact ih h hl
    · rw [if_neg hbl, if_neg hbl]
      have hsr : (i.getD key [] ++ [id]).Pairwise (· ≤ ·) := by
        refine pairwise_append.2 ⟨h.sorted_getD key, pairwise_singleton _ _, ?_⟩
        intro a ha b hb
        rw [mem_singleton.1 hb]
        exact hl a key (h.mem_iff.1 ha)
      have hst := h.set id key hsr fun id' => by simp [count_singleton]
      have hks : Function.update ks id (ks id ++ [key]) id = ks id ++ [key] :=
        Function.update_self ..
      have hrc := ih hst (by
        intro id' a' har'
        by_cases hid : id' = id
        · exact hid.le
        · rw [Function.update_of_ne hid] at har'
          exact hl id' a' har')
      rw [hks, Function.update_idem] at hrc
      simpa [append_assoc, singleton_append] using hrc

end Aerobag.Notam
