import Mathlib.Data.List.Induction

/-!
# Runs of a labelled transition system

A system is a partial function `step : σ → α → Option σ`; the label holds every input and every
choice of the environment. A fact about one step becomes one about every run: `exec_inv`,
`exec_inv_of_steps` under a condition, and `exec_inv_history` for what has `Happened`.
-/

open Option

namespace Run

variable {σ α : Type*}

/-- The state after taking the labels in order, `none` if one of them cannot be taken. -/
def exec (step : σ → α → Option σ) : σ → List α → Option σ
  | s, [] => some s
  | s, a :: as => (step s a).bind fun s' => exec step s' as

/-- Every label of the run meets `ok` in the state from which it is taken. -/
def Steps (step : σ → α → Option σ) (ok : σ → α → Prop) : σ → List α → Prop
  | _, [] => True
  | s, a :: as => ok s a ∧ match step s a with
    | none => True
    | some s' => Steps step ok s' as

instance Steps.decidable (step : σ → α → Option σ) (ok : σ → α → Prop)
    [∀ s a, Decidable (ok s a)] : ∀ s as, Decidable (Steps step ok s as)
  | _, [] => .isTrue trivial
  | s, a :: as =>
    match h : step s a with
    | none => decidable_of_iff (ok s a) (by simp [Steps, h])
    | some s' =>
      have := Steps.decidable step ok s' as
      decidable_of_iff (ok s a ∧ Steps step ok s' as) (by simp [Steps, h])

variable {st : σ → α → Option σ} {ok : σ → α → Prop} {s t : σ} {as bs : List α}

@[simp] theorem exec_nil : exec st s [] = some s := rfl

theorem exec_cons_eq_some {a : α} :
    exec st s (a :: as) = some t ↔ ∃ s', st s a = some s' ∧ exec st s' as = some t := by
  simp [exec, bind_eq_some_iff]

theorem exec_append : exec st s (as ++ bs) = (exec st s as).bind fun s' => exec st s' bs := by
  induction as generalizing s with
  | nil => simp
  | cons a as ih =>
    cases h : st s a with
    | none => simp [exec, h]
    | some s' => simp [exec, h, ih]

/-- A check that evaluates to `true` on the outcome of a run gives the state that the run ends in. -/
theorem exists_of_any {p : σ → Bool} (h : (exec st s as).any p = true) :
    ∃ t, exec st s as = some t ∧ p t = true := by
  cases hr : exec st s as with
  | none => simp [hr] at h
  | some t => exact ⟨t, rfl, by simpa [hr] using h⟩

theorem steps_cons {a : α} {s' : σ} (hs : st s a = some s') :
    Steps st ok s (a :: as) ↔ ok s a ∧ Steps st ok s' as := by
  simp [Steps, hs]

theorem Steps.mono {ok' : σ → α → Prop} (him : ∀ s a, ok s a → ok' s a)
    (h : Steps st ok s as) : Steps st ok' s as := by
  induction as generalizing s with
  | nil => trivial
  | cons a as ih =>
    refine ⟨him s a h.1, ?_⟩
    cases hs : st s a with
    | none => trivial
    | some s' => exact ih ((steps_cons hs).1 h).2

/-- A property that every step satisfying `ok` preserves holds after every run of such steps. -/
theorem exec_inv_of_steps (Inv : σ → Prop)
    (hst : ∀ {s a s'}, st s a = some s' → ok s a → Inv s → Inv s')
    (hs : Inv s) (hrn : exec st s as = some t) (hok : Steps st ok s as) : Inv t := by
  induction as generalizing s with
  | nil => exact some.inj hrn ▸ hs
  | cons a as ih =>
    obtain ⟨s', h, hr⟩ := exec_cons_eq_some.1 hrn
    obtain ⟨ha, hok'⟩ := (steps_cons h).1 hok
    exact ih (hst h ha hs) hr hok'

/-- A property that every step preserves holds after every run. -/
theorem exec_inv (Inv : σ → Prop) (hst : ∀ {s a s'}, st s a = some s' → Inv s → Inv s')
    (hs : Inv s) (hrn : exec st s as = some t) : Inv t := by
  induction as generalizing s with
  | nil => exact some.inj hrn ▸ hs
  | cons a as ih =>
    obtain ⟨s', h, hr⟩ := exec_cons_eq_some.1 hrn
    exact ih (hst h hs) hr

/-- The run has taken a step of which `p` holds. `p` also sees the labels before that step. -/
def Happened (step : σ → α → Option σ) (p : List α → σ → α → σ → Prop) (s : σ) (as : List α) : Prop :=
  ∃ before a after t t', as = before ++ a :: after ∧ exec step s before = some t ∧
    step t a = some t' ∧ p before t a t'

variable {p : List α → σ → α → σ → Prop}

theorem Happened.append (h : Happened st p s as) (bs : List α) : Happened st p s (as ++ bs) := by
  obtain ⟨b, a, af, t, t', rfl, hbf, hst, hp⟩ := h
  exact ⟨b, a, af ++ bs, t, t', by simp, hbf, hst, hp⟩

theorem Happened.last {a : α} {t' : σ} (hr : exec st s as = some t) (hst : st t a = some t')
    (hp : p as t a t') : Happened st p s (as ++ [a]) :=
  ⟨as, a, [], t, t', rfl, hr, hst, hp⟩

/-- A property of the run so far and the state that every step preserves holds after every run. -/
theorem exec_inv_history (Inv : List α → σ → Prop) (hs : Inv [] s)
    (hst : ∀ {as t a t'}, exec st s as = some t → st t a = some t' → Inv as t →
      Inv (as ++ [a]) t') (hrn : exec st s as = some t) : Inv as t := by
  induction as using List.reverseRecOn generalizing t with
  | nil => exact some.inj hrn ▸ hs
  | append_singleton as a ih =>
    rw [exec_append] at hrn
    obtain ⟨mid, hm, hr⟩ := bind_eq_some_iff.1 hrn
    obtain ⟨t', hl, he⟩ := exec_cons_eq_some.1 hr
    obtain rfl := some.inj he
    exact hst hm hl (ih hm)

end Run
