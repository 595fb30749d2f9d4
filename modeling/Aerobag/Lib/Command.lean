import Mathlib.Tactic.Common

/-!
# Commands on a state that can fail half-way

`EStateM ε σ α` is the monad of a method on `&mut self` that returns a `Result`: when it fails, its
changes stay. `Ends x s Q` says that `x`, started in `s`, ends in a result and a state with `Q`.
-/

namespace Command

universe u

variable {ε σ α β : Type u}

/-- The command `x`, started in `s`, ends with a result and in a state that satisfy `Q`. -/
def Ends (x : EStateM ε σ α) (s : σ) (Q : Except ε α → σ → Prop) : Prop :=
  match x.run s with
  | .ok a s' => Q (.ok a) s'
  | .error e s' => Q (.error e) s'

def final (x : EStateM ε σ α) (s : σ) : σ :=
  match x.run s with
  | .ok _ s' => s'
  | .error _ s' => s'

def result (x : EStateM ε σ α) (s : σ) : Except ε α :=
  match x.run s with
  | .ok a _ => .ok a
  | .error e _ => .error e

/-- A result that is already there, as a command: the operator `?`. -/
def attempt : Except ε α → EStateM ε σ α
  | .ok a => pure a
  | .error e => throw e

/-- A command on a part of the state. -/
def zoom {τ : Type u} (get : σ → τ) (set : τ → σ → σ) (x : EStateM ε τ α) : EStateM ε σ α := fun s =>
  match x.run (get s) with
  | .ok a t => .ok a (set t s)
  | .error e t => .error e (set t s)

variable {s : σ} {Q : Except ε α → σ → Prop} {x : EStateM ε σ α}

theorem ends_iff : Ends x s Q ↔ Q (result x s) (final x s) := by
  unfold Ends result final
  cases x.run s <;> rfl

variable {Q' : Except ε α → σ → Prop}

theorem Ends.imp (h : Ends x s Q) (him : ∀ r s', Q r s' → Q' r s') : Ends x s Q' :=
  ends_iff.2 (him _ _ (ends_iff.1 h))

theorem Ends.and (h : Ends x s Q) (h' : Ends x s Q') : Ends x s fun r s' => Q r s' ∧ Q' r s' :=
  ends_iff.2 ⟨ends_iff.1 h, ends_iff.1 h'⟩

variable {a : α} {s' : σ}

theorem Ends.of_ok (h : Ends x s Q) (hr : x.run s = .ok a s') : Q (.ok a) s' := by
  unfold Ends at h
  rwa [hr] at h

theorem Ends.of_error {e : ε} (h : Ends x s Q) (hr : x.run s = .error e s') : Q (.error e) s' := by
  unfold Ends at h
  rwa [hr] at h

theorem run_eq_ok_iff : x.run s = .ok a s' ↔ Ends x s fun r t => r = .ok a ∧ t = s' := by
  unfold Ends
  cases x.run s <;> simp

theorem ends_of_run (hok : ∀ a s', x.run s = .ok a s' → Q (.ok a) s')
    (he : ∀ e s', x.run s = .error e s' → Q (.error e) s') : Ends x s Q := by
  unfold Ends
  cases hr : x.run s with
  | ok a s' => exact hok a s' hr
  | error e s' => exact he e s' hr

@[simp] theorem ends_pure : Ends (pure a) s Q ↔ Q (.ok a) s := Iff.rfl

@[simp] theorem ends_get {Q : Except ε σ → σ → Prop} : Ends get s Q ↔ Q (.ok s) s := Iff.rfl

@[simp] theorem ends_modify {Q : Except ε PUnit → σ → Prop} {f : σ → σ} :
    Ends (modify f) s Q ↔ Q (.ok ⟨⟩) (f s) := Iff.rfl

theorem ends_attempt {r : Except ε α} : Ends (attempt r) s Q ↔ Q r s := by cases r <;> rfl

variable {τ : Type u}

theorem ends_zoom {get : σ → τ} {set : τ → σ → σ} {x : EStateM ε τ α} :
    Ends (zoom get set x) s Q ↔ Ends x (get s) fun r t => Q r (set t s) := by
  have hr : (zoom get set x).run s = match x.run (get s) with
      | .ok a t => .ok a (set t s)
      | .error e t => .error e (set t s) := rfl
  unfold Ends
  rw [hr]
  cases x.run (get s) <;> rfl

variable {f : α → EStateM ε σ β}

theorem run_bind : (x >>= f).run s = match x.run s with
      | .ok a s' => (f a).run s'
      | .error e s' => .error e s' :=
  rfl

/-- After the first command either the second one runs, or the error ends both. -/
theorem ends_bind {Q : Except ε β → σ → Prop} : Ends (x >>= f) s Q ↔ Ends x s fun
      | .ok a, s' => Ends (f a) s' Q
      | .error e, s' => Q (.error e) s' := by
  unfold Ends
  rw [run_bind]
  cases x.run s <;> rfl

variable {b : β} {t : σ}

theorem run_bind_eq_ok :
    (x >>= f).run s = .ok b t ↔ ∃ a s', x.run s = .ok a s' ∧ (f a).run s' = .ok b t := by
  rw [run_bind]
  cases x.run s <;> simp

/-- A command that starts with `?` succeeds when there is a value and the rest succeeds with it. -/
theorem run_attempt_bind_eq_ok {r : Except ε α} :
    (attempt r >>= f).run s = .ok b t ↔ ∃ a, r = .ok a ∧ (f a).run s = .ok b t := by
  rw [run_bind_eq_ok]
  constructor
  · rintro ⟨a, s', hr, hf⟩
    cases r with
    | ok a' =>
      cases hr
      exact ⟨a, rfl, hf⟩
    | error e => cases hr
  · rintro ⟨a, rfl, hf⟩
    exact ⟨a, s, rfl, hf⟩

/-- A command that handles the error of another goes on from the state that it left. -/
theorem ends_tryCatch {han : ε → EStateM ε σ α} : Ends (tryCatch x han) s Q ↔ Ends x s fun
      | .ok a, s' => Q (.ok a) s'
      | .error e, s' => Ends (han e) s' Q := by
  have hr : (tryCatch x han).run s = match x.run s with
      | .ok a s' => .ok a s'
      | .error e s' => (han e).run s' := by
    change EStateM.tryCatch x han s = _
    unfold EStateM.tryCatch EStateM.run
    cases x s <;> rfl
  unfold Ends
  rw [hr]
  cases x.run s <;> rfl

section Sequence

variable {Q : Except ε β → σ → Prop}

@[simp] theorem ends_get_bind {f : σ → EStateM ε σ β} : Ends (get >>= f) s Q ↔ Ends (f s) s Q :=
  .rfl

@[simp] theorem ends_modify_bind {g : σ → σ} {f : PUnit → EStateM ε σ β} :
    Ends (modify g >>= f) s Q ↔ Ends (f ⟨⟩) (g s) Q :=
  .rfl

/-- A command that starts with `?` goes on with the value, or ends there with the error. -/
theorem ends_attempt_bind {r : Except ε α} : Ends (attempt r >>= f) s Q ↔
      (∀ a, r = .ok a → Ends (f a) s Q) ∧ ∀ e, r = .error e → Q (.error e) s := by
  rw [ends_bind, ends_attempt]
  cases r <;> simp

end Sequence

theorem Ends.bind {R : Except ε α → σ → Prop} {Q : Except ε β → σ → Prop}
    (hx : Ends x s R) (hok : ∀ a s', R (.ok a) s' → Ends (f a) s' Q)
    (he : ∀ e s', R (.error e) s' → Q (.error e) s') : Ends (x >>= f) s Q := by
  refine ends_bind.2 (hx.imp fun r s' h => ?_)
  cases r with
  | ok a => exact hok a s' h
  | error e => exact he e s' h

theorem Ends.zoom_bind {get : σ → τ} {set : τ → σ → σ} {x : EStateM ε τ α}
    {P : τ → Prop} {Q : Except ε β → σ → Prop}
    (hx : Ends x (get s) fun r t => r = .ok a ∧ P t) (hf : ∀ t, P t → Ends (f a) (set t s) Q) :
    Ends (zoom get set x >>= f) s Q := by
  refine ends_bind.2 (ends_zoom.2 (hx.imp ?_))
  rintro r t ⟨rfl, ht⟩
  exact hf t ht

section Moves

variable {R : σ → σ → Prop}

/-- Whether the command fails or not, it ends in a state that the relation leads to. -/
def Moves (R : σ → σ → Prop) (x : EStateM ε σ α) (s : σ) : Prop := Ends x s fun _ s' => R s s'

variable {x : EStateM ε σ α} {f : α → EStateM ε σ β}

@[simp] theorem moves_get_bind {f : σ → EStateM ε σ β} : Moves R (get >>= f) s ↔ Moves R (f s) s :=
  .rfl

theorem moves_modify {g : σ → σ} : Moves R (modify g : EStateM ε σ PUnit) s ↔ R s (g s) := Iff.rfl

theorem Moves.bind [IsTrans σ R] (hx : Moves R x s) (hf : ∀ a s', Moves R (f a) s') :
    Moves R (x >>= f) s :=
  Ends.bind hx (fun a s' h => (hf a s').imp fun _ _ h' => Trans.trans h h') fun _ _ h => h

theorem moves_modify_bind [IsTrans σ R] {g : σ → σ} {f : PUnit → EStateM ε σ β} (hg : R s (g s))
    (hf : Moves R (f ⟨⟩) (g s)) : Moves R (modify g >>= f) s :=
  ends_modify_bind.2 (hf.imp fun _ _ h => Trans.trans hg h)

variable [Std.Refl R]

theorem moves_pure : Moves R (pure a : EStateM ε σ α) s := Std.Refl.refl s

theorem moves_attempt {r : Except ε α} : Moves R (attempt r : EStateM ε σ α) s :=
  ends_attempt.2 (Std.Refl.refl s)

theorem moves_attempt_bind {r : Except ε α} (hf : ∀ a, r = .ok a → Moves R (f a) s) :
    Moves R (attempt r >>= f) s :=
  ends_attempt_bind.2 ⟨hf, fun _ _ => Std.Refl.refl s⟩

theorem moves_forM [IsTrans σ R] {f : α → EStateM ε σ PUnit} (hf : ∀ a s, Moves R (f a) s)
    (xs : List α) : Moves R (xs.forM f) s := by
  induction xs generalizing s with
  | nil => exact moves_pure
  | cons a as ih => exact (hf a s).bind fun _ _ => ih

end Moves

end Command
