import Mathlib.Data.List.Iterate
import Mathlib.Data.List.Perm.Subperm
import Mathlib.Data.List.ReduceOption

/-!
# Identities for the members of a list

A member of a list gets the identity it asks for if that is valid and no member before has it; the
others take one from a supply. If nothing collides, the others get the names that come next:
`assign_eq_fill`.
-/

open List

namespace Identities

variable {ι κ : Type} [DecidableEq ι]

/-- Goes through the wishes. `seen` are the identities already given. -/
def assign (valid : ι → Bool) (take : List ι → κ → ι × κ) :
    List ι → κ → List (Option ι) → List ι × κ
  | _, k, [] => ([], k)
  | seen, k, wish :: wishes =>
    let given := match wish with
      | some i => if valid i ∧ i ∉ seen then (i, k) else take seen k
      | none => take seen k
    let rest := assign valid take (given.1 :: seen) given.2 wishes
    (given.1 :: rest.1, rest.2)

/-- The first name of the supply that is not in `seen`; the last one looked at if there is none among
the first `fuel`. -/
def firstFree (name : κ → ι) (next : κ → κ) : Nat → List ι → κ → ι × κ
  | 0, _, k => (name k, next k)
  | fuel + 1, seen, k =>
    if name k ∈ seen then firstFree name next fuel seen (next k) else (name k, next k)

/-- What the wishes come to if nothing collides. -/
def fill (name : κ → ι) (next : κ → κ) : κ → List (Option ι) → List ι × κ
  | k, [] => ([], k)
  | k, some i :: wishes => (i :: (fill name next k wishes).1, (fill name next k wishes).2)
  | k, none :: wishes =>
    (name k :: (fill name next (next k) wishes).1, (fill name next (next k) wishes).2)

variable {v : ι → Bool} {t : List ι → κ → ι × κ} {name : κ → ι} {next : κ → κ} {seen : List ι}
  {k : κ} {w : List (Option ι)}

@[simp] theorem length_assign {s : List ι} : (assign v t s k w).1.length = w.length := by
  induction w generalizing s k with
  | nil => rfl
  | cons ws w ih => simp [assign, ih]

/-- A supply that gives a new valid identity each time makes the identities valid and distinct. -/
theorem assign_spec {b : Nat} (s : List ι) (k : κ) (w : List (Option ι))
    (htk : ∀ s k, s.length < b → (t s k).1 ∉ s ∧ v (t s k).1 = true)
    (hl : s.length + w.length ≤ b) : (assign v t s k w).1.Nodup ∧
      ∀ i ∈ (assign v t s k w).1, i ∉ s ∧ v i = true := by
  induction w generalizing s k with
  | nil => simp [assign]
  | cons ws w ih =>
    rw [length_cons] at hl
    simp only [assign]
    generalize hgv : (match ws with
      | some i => if v i ∧ i ∉ s then (i, k) else t s k
      | none => t s k) = given
    have hn : given.1 ∉ s ∧ v given.1 = true := by
      rw [← hgv]
      split
      · split
        · rename_i h
          exact ⟨h.2, h.1⟩
        · exact htk s k (by omega)
      · exact htk s k (by omega)
    obtain ⟨hnd, hr⟩ := ih (given.1 :: s) given.2 (by simp; omega)
    refine ⟨nodup_cons.2 ⟨fun hm => (hr _ hm).1 mem_cons_self, hnd⟩, ?_⟩
    intro i hi
    rcases mem_cons.1 hi with rfl | hi
    · exact hn
    · exact ⟨fun h => (hr i hi).1 (mem_cons_of_mem _ h), (hr i hi).2⟩

theorem firstFree_notMem (hnd : ((List.iterate next k (seen.length + 1)).map name).Nodup) :
    (firstFree name next seen.length seen k).1 ∉ seen := by
  suffices h : ∀ n k, (firstFree name next n seen k).1 ∈ seen →
      ∀ i ∈ (List.iterate next k (n + 1)).map name, i ∈ seen by
    intro hm
    have hsb := h seen.length k hm
    have hle := (hnd.subperm hsb).length_le
    simp at hle
  intro n
  induction n with
  | zero =>
    intro k h i hi
    simp only [List.iterate, map_cons, map_nil, mem_singleton] at hi
    exact hi ▸ h
  | succ n ih =>
    intro k h i hi
    rw [firstFree] at h
    split at h
    · rename_i hus
      rw [List.iterate, map_cons, mem_cons] at hi
      rcases hi with rfl | hi
      · exact hus
      · exact ih (next k) h i hi
    · rename_i hfr
      exact absurd h hfr

theorem exists_firstFree_eq (nm : κ → ι) (next : κ → κ) (n : Nat) (s : List ι) (k : κ) :
    ∃ k', (firstFree nm next n s k).1 = nm k' := by
  induction n generalizing k with
  | zero => exact ⟨k, rfl⟩
  | succ n ih =>
    rw [firstFree]
    split
    · exact ih (next k)
    · exact ⟨k, rfl⟩

theorem firstFree_of_notMem {n : Nat} (h : name k ∉ seen) :
    firstFree name next n seen k = (name k, next k) := by
  cases n with
  | zero => rfl
  | succ n => rw [firstFree, if_neg h]

/-- If the outcome without collisions has none, it is the outcome. -/
theorem assign_eq_fill {s : List ι}
    (n : κ → ι) (next : κ → κ) (htk : ∀ s k, n k ∉ s → t s k = (n k, next k))
    (hv : ∀ i, some i ∈ w → v i = true) (hnd : (fill n next k w).1.Nodup)
    (hsn : ∀ i ∈ (fill n next k w).1, i ∉ s) : assign v t s k w = fill n next k w := by
  induction w generalizing s k with
  | nil => rfl
  | cons ws w ih =>
    -- the head is new, so the tail is done with one more identity seen
    have hv' : ∀ i, some i ∈ w → v i = true := fun i hi => hv i (mem_cons_of_mem _ hi)
    have hr : ∀ {i : ι} {k' : κ}, (i :: (fill n next k' w).1).Nodup →
        (∀ j ∈ i :: (fill n next k' w).1, j ∉ s) → assign v t (i :: s) k' w = fill n next k' w := by
      intro i k' hnd hsn
      obtain ⟨hi, hnd⟩ := nodup_cons.1 hnd
      refine ih hv' hnd fun j hj hm => ?_
      rcases mem_cons.1 hm with rfl | hm
      · exact hi hj
      · exact hsn j (mem_cons_of_mem _ hj) hm
    cases ws with
    | some i =>
      have hi : v i = true ∧ i ∉ s := ⟨hv i mem_cons_self, hsn i mem_cons_self⟩
      simp only [assign, if_pos hi, fill]
      rw [hr hnd hsn]
    | none =>
      simp only [assign, fill]
      rw [htk s k (hsn _ mem_cons_self), hr hnd hsn]

omit [DecidableEq ι] in
theorem fill_map_some {ids : List ι} : fill name next k (ids.map some) = (ids, k) := by
  induction ids with
  | nil => rfl
  | cons i ids ih => simp [fill, ih]

/-- The identities are those asked for and the names that come next. -/
theorem fill_perm : (fill name next k w).1.Perm
    (w.reduceOption ++ (List.iterate next k (w.count none)).map name) := by
  induction w generalizing k with
  | nil => simp [fill]
  | cons ws w ih =>
    cases ws with
    | some i => exact ih.cons i
    | none =>
      rw [reduceOption_cons_of_none, count_cons_self, List.iterate]
      exact (ih.cons (name k)).trans perm_middle.symm

/-- Every member has what it asks for, or else one of the names. -/
theorem fill_forall₂ (n : κ → ι) (next : κ → κ) (k : κ) (w : List (Option ι)) : List.Forall₂
    (fun ws i => match ws with
        | some j => i = j
        | none => i ∈ (List.iterate next k (w.count none)).map n)
      w (fill n next k w).1 := by
  suffices h : ∀ u k, List.Forall₂ (fun ws i => match ws with
        | some j => i = j
        | none => i ∈ u ++ (List.iterate next k (w.count none)).map n)
      w (fill n next k w).1 by simpa using h [] k
  induction w with
  | nil => exact fun _ _ => .nil
  | cons ws w ih =>
    intro u k
    cases ws with
    | some i => exact .cons rfl (ih u k)
    | none =>
      rw [count_cons_self, List.iterate, map_cons, append_cons]
      exact .cons (by simp) (ih (u ++ [n k]) (next k))

end Identities
