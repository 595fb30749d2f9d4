import Mathlib.Data.List.Sort

/-!
# Lists with consecutive numbers

Each element has a number, one more than the element before it. What the usual queries select: the
elements after or up to a number, the least number, the elements in order.
-/

open List

namespace Numbered

variable {α : Type*} {nu : α → Nat} {first : Nat} {x : α} {xs : List α}

/-- The elements have consecutive numbers, from `first` on. -/
def From (number : α → Nat) : Nat → List α → Prop
  | _, [] => True
  | first, x :: xs => number x = first ∧ From number (first + 1) xs

theorem From.le (h : From nu first xs) : ∀ y ∈ xs, first ≤ nu y := by
  induction xs generalizing first with
  | nil => nofun
  | cons x xs ih =>
    refine forall_mem_cons.2 ⟨h.1.ge, fun y hy => ?_⟩
    exact (Nat.le_succ first).trans (ih h.2 y hy)

theorem From.pairwise (h : From nu first xs) : xs.Pairwise fun a b => nu a < nu b := by
  induction xs generalizing first with
  | nil => exact .nil
  | cons x xs ih =>
    refine pairwise_cons.2 ⟨fun y hy => ?_, ih h.2⟩
    rw [h.1]
    exact h.2.le y hy

theorem From.drop (h : From nu first xs) (n : Nat) : From nu (first + n) (xs.drop n) := by
  induction n generalizing first xs with
  | zero => exact h
  | succ n ih =>
    cases xs with
    | nil => trivial
    | cons x xs =>
      rw [drop_succ_cons, Nat.add_comm n 1, ← Nat.add_assoc]
      exact ih h.2

theorem From.map_eq (h : From nu first xs) : xs.map nu = List.range' first xs.length := by
  induction xs generalizing first with
  | nil => rfl
  | cons x xs ih => rw [map_cons, length_cons, range'_succ, h.1, ih h.2]

theorem From.filter_lt (h : From nu first xs) (c : Nat) :
    xs.filter (fun x => c < nu x) = xs.drop (c + 1 - first) := by
  induction xs generalizing first with
  | nil => simp
  | cons x xs ih =>
    obtain ⟨rfl, hr⟩ := h
    rw [filter_cons]
    by_cases hlt : c < nu x
    · have hzr : c + 1 - nu x = 0 := by omega
      have hal : xs.filter (fun x => c < nu x) = xs := filter_eq_self.2 fun y hy => by
          have := hr.le y hy
          simpa using (by omega)
      rw [if_pos (by simpa using hlt), hzr, drop_zero, hal]
    · have hsc : c + 1 - nu x = (c + 1 - (nu x + 1)) + 1 := by omega
      rw [if_neg (by simpa using hlt), ih hr, hsc, drop_succ_cons]

theorem From.getLast?_filter_le (h : From nu first xs) {c : Nat} (hc : first ≤ c)
    (hl : c < first + xs.length) : (xs.filter fun x => nu x ≤ c).getLast? = xs[c - first]? := by
  induction xs generalizing first with
  | nil => simp at hl; omega
  | cons x xs ih =>
    obtain ⟨rfl, hr⟩ := h
    rw [filter_cons, if_pos (by simpa using hc), getLast?_cons]
    rcases Nat.eq_or_lt_of_le hc with heq | hlt
    · have hn : xs.filter (fun x => nu x ≤ c) = [] := filter_eq_nil_iff.2 fun y hy => by
          have := hr.le y hy
          simpa using (by omega)
      rw [hn, ← heq, Nat.sub_self]
      rfl
    · rw [length_cons] at hl
      have hix : c - nu x = (c - (nu x + 1)) + 1 := by omega
      have hg := ih hr hlt (by omega)
      have hin : c - (nu x + 1) < xs.length := by omega
      rw [hg, hix, getElem?_cons_succ, getElem?_eq_getElem hin]
      rfl

theorem From.min?_map (h : From nu first (x :: xs)) : ((x :: xs).map nu).min? = some first := by
  rw [min?_eq_some_iff]
  refine ⟨List.mem_map.2 ⟨x, by simp, h.1⟩, fun n hn => ?_⟩
  obtain ⟨y, hy, rfl⟩ := List.mem_map.1 hn
  exact h.le y hy

theorem From.insertionSort_eq (h : From nu first xs) {ys : List α} (hnd : ys.Nodup)
    (hm : ∀ y, y ∈ ys ↔ y ∈ xs) : ys.insertionSort (fun a b => nu a ≤ nu b) = xs := by
  have hsr := h.pairwise
  have hxs : xs.Nodup := hsr.imp fun hlt heq => (heq ▸ hlt).false
  have hpr : (ys.insertionSort fun a b => nu a ≤ nu b).Perm xs :=
    (perm_insertionSort _ ys).trans ((perm_ext_iff_of_nodup hnd hxs).2 hm)
  have hnm : (xs.map nu).Nodup := pairwise_map.2 (hsr.imp Nat.ne_of_lt)
  refine hpr.eq_of_pairwise (fun a b ha hb hab hba => ?_) (pairwise_insertionSort _ ys)
    (hsr.imp Nat.le_of_lt)
  exact inj_on_of_nodup_map hnm (hpr.mem_iff.1 ha) hb (Nat.le_antisymm hab hba)

end Numbered
