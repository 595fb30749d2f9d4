import Mathlib.Data.Set.Finite.Basic

/-!
# Walks along links

A walk goes from a place to the next one as long as there is one. Where only finitely many places have a
next one, it ends exactly if it does not come to a place twice.
-/

namespace Walk

variable {α : Type*} {next : α → Option α} {a p : α} {i j : Nat}

/-- The place after a number of steps. -/
def place (next : α → Option α) : Nat → α → Option α
  | 0, a => some a
  | n + 1, a => (next a).bind (place next n)

/-- The walk comes to an end. -/
def Ends (next : α → Option α) (a : α) : Prop := ∃ n, place next n a = none

/-- The walk ends at this place. -/
def Last (next : α → Option α) (a p : α) : Prop := ∃ n, place next n a = some p ∧ next p = none

/-- The walk does not come to a place twice. -/
def Straight (next : α → Option α) (a : α) : Prop :=
  ∀ i j p, place next i a = some p → place next j a = some p → i = j

theorem place_add (i j : Nat) (a : α) :
    place next (i + j) a = (place next i a).bind (place next j) := by
  induction i generalizing a with
  | zero => rw [Nat.zero_add]; rfl
  | succ i ih =>
    rw [Nat.add_right_comm, place, place, Option.bind_assoc]
    simp only [ih]

theorem place_eq_none_of_le (h : place next i a = none) (hij : i ≤ j) : place next j a = none := by
  obtain ⟨k, rfl⟩ := Nat.exists_eq_add_of_le hij
  rw [place_add, h]
  rfl

theorem Ends.exists_last (h : Ends next a) : ∃ p, Last next a p := by
  obtain ⟨n, hn⟩ := h
  induction n generalizing a with
  | zero => cases hn
  | succ n ih =>
    cases hnx : next a with
    | none => exact ⟨a, 0, rfl, hnx⟩
    | some b =>
      rw [place, hnx, Option.bind_some] at hn
      obtain ⟨p, m, hp, hl⟩ := ih hn
      exact ⟨p, m + 1, by rw [place, hnx, Option.bind_some, hp], hl⟩

theorem Last.unique {q : α} (h : Last next a p) (h' : Last next a q) : p = q := by
  obtain ⟨m, hp, hno⟩ := h
  induction m generalizing a with
  | zero =>
    obtain rfl := Option.some.inj hp
    obtain ⟨_ | k, hq, -⟩ := h'
    · exact Option.some.inj hq
    · rw [place, hno] at hq
      cases hq
  | succ m ih =>
    obtain ⟨b, hb, hp⟩ := Option.bind_eq_some_iff.1 hp
    obtain ⟨_ | k, hq, hno'⟩ := h'
    · rw [Option.some.inj hq, hno'] at hb
      cases hb
    · obtain ⟨b', hb', hq⟩ := Option.bind_eq_some_iff.1 hq
      obtain rfl := Option.some.inj (hb.symm.trans hb')
      exact ih ⟨k, hq, hno'⟩ hp

/-- A place that is come to again is come to without end. -/
theorem place_mul (h : place next j p = some p) (m : Nat) : place next (m * j) p = some p := by
  induction m with
  | zero => rw [Nat.zero_mul]; rfl
  | succ m ih => rw [Nat.succ_mul, place_add, ih, Option.bind_some, h]

theorem Ends.straight (h : Ends next a) : Straight next a := by
  obtain ⟨n, hn⟩ := h
  intro i j p hi hj
  by_contra hne
  wlog hij : i < j generalizing i j with hsym
  · exact hsym j i hj hi (Ne.symm hne) (by omega)
  obtain ⟨k, rfl⟩ := Nat.exists_eq_add_of_lt hij
  rw [Nat.add_assoc, place_add, hi, Option.bind_some] at hj
  have hfar := place_eq_none_of_le (j := i + n * (k + 1)) hn
    ((Nat.le_mul_of_pos_right n k.succ_pos).trans (Nat.le_add_left _ _))
  rw [place_add, hi, Option.bind_some, place_mul hj] at hfar
  cases hfar

theorem ends_iff_straight (hfin : {p | next p ≠ none}.Finite) : Ends next a ↔ Straight next a := by
  refine ⟨Ends.straight, fun hst => ?_⟩
  by_contra hno
  simp only [Ends, not_exists, ← Option.isSome_iff_ne_none] at hno
  have hplace (n : Nat) : ∃ p, place next n a = some p := Option.isSome_iff_exists.1 (hno n)
  choose f hf using hplace
  have hinj : Function.Injective f := fun i j hij => hst i j _ (hf i) (hij ▸ hf j)
  have hmem (n : Nat) : f n ∈ {p | next p ≠ none} := by
    intro hnone
    have hsucc : place next (n + 1) a = (place next n a).bind (place next 1) := place_add n 1 a
    rw [hf n, hf (n + 1), Option.bind_some, place, hnone] at hsucc
    cases hsucc
  exact Set.infinite_of_injective_forall_mem hinj hmem hfin

end Walk
