import Mathlib.Tactic.Common

/-!
# Computations that can fail

The guard `rejectIf`, and inversion of `Except` computations that return a value: what a `do` block
has gone through when it ends in `.ok`.
-/

open List

namespace Except

universe u

variable {ε : Type*} {α β : Type u} {x : Except ε α} {f : α → Except ε β} {a : α}

theorem bind_eq_ok {b : β} : (x >>= f) = .ok b ↔ ∃ a, x = .ok a ∧ f a = .ok b := by
  cases x with
  | error e => simp [bind, Except.bind]
  | ok a => simp [bind, Except.bind]

@[simp] theorem ok_bind : (Except.ok a >>= f) = f a := rfl

theorem toOption_eq_some : x.toOption = some a ↔ x = .ok a := by cases x <;> simp [Except.toOption]

theorem exists_of_isOk (h : x.isOk = true) : ∃ a, x = .ok a := by
  cases x with
  | error e => cases h
  | ok a => exact ⟨a, rfl⟩

theorem mapError_eq_ok {ε' : Type*} {f : ε → ε'} : x.mapError f = .ok a ↔ x = .ok a := by
  cases x <;> simp [Except.mapError]

@[simp] theorem throw_ne_ok {e : ε} : (throw e : Except ε α) ≠ .ok a := nofun

@[simp] theorem pure_eq_ok {b : α} : (pure a : Except ε α) = .ok b ↔ a = b := by
  simp [pure, Except.pure]

/-- The guard `if bad { return Err(e) }`. -/
def rejectIf (bad : Prop) [Decidable bad] (e : ε) : Except ε Unit :=
  if bad then .error e else .ok ()

@[simp] theorem rejectIf_eq_ok {bad : Prop} [Decidable bad] {e : ε} {u : Unit} :
    rejectIf bad e = .ok u ↔ ¬ bad := by
  by_cases h : bad <;> simp [rejectIf]

theorem forM_eq_ok {f : α → Except ε Unit} {xs : List α} :
    xs.forM f = .ok () ↔ ∀ x ∈ xs, f x = .ok () := by
  induction xs with
  | nil => simp
  | cons x xs ih =>
    have hcn : (x :: xs).forM f = (f x >>= fun _ => xs.forM f) := rfl
    simp only [hcn, bind_eq_ok, ih, forall_mem_cons]
    exact ⟨fun ⟨_, h⟩ => h, fun h => ⟨(), h⟩⟩

theorem exists_of_mapM_eq_ok {xs : List α} {ys : List β} (h : xs.mapM f = .ok ys) :
    ∀ y ∈ ys, ∃ x ∈ xs, f x = .ok y := by
  induction xs generalizing ys with
  | nil => simp [← pure_eq_ok.1 h]
  | cons x xs ih =>
    rw [mapM_cons] at h
    obtain ⟨y, hy, h⟩ := bind_eq_ok.1 h
    obtain ⟨r, hr, h⟩ := bind_eq_ok.1 h
    obtain rfl := pure_eq_ok.1 h
    intro z hz
    rcases mem_cons.1 hz with rfl | hz
    · exact ⟨x, mem_cons_self, hy⟩
    · obtain ⟨x', hx', hfx'⟩ := ih hr z hz
      exact ⟨x', mem_cons_of_mem x hx', hfx'⟩

/-- A map with a function that returns `g x` or fails. -/
theorem mapM_eq_ok_iff {g : α → β} (hfg : ∀ x y, f x = .ok y → y = g x) {xs : List α} {ys : List β} :
    xs.mapM f = .ok ys ↔ ys = xs.map g ∧ ∀ x ∈ xs, f x = .ok (g x) := by
  induction xs generalizing ys with
  | nil =>
    rw [mapM_nil, pure_eq_ok]
    simp [eq_comm]
  | cons x xs ih =>
    simp only [mapM_cons, bind_eq_ok, ih, pure_eq_ok, forall_mem_cons]
    constructor
    · rintro ⟨y, hy, _, ⟨rfl, hxs⟩, rfl⟩
      obtain rfl := hfg x y hy
      exact ⟨rfl, hy, hxs⟩
    · rintro ⟨rfl, hx, hxs⟩
      exact ⟨g x, hx, _, ⟨rfl, hxs⟩, rfl⟩

end Except
