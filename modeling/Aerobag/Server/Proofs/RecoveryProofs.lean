import Aerobag.Server.Proofs.AccountingProofs
import Aerobag.Server.Proofs.EventProofs

/-!
# Crashes and other accounts

What holds after `open`, and what steps for other accounts leave alone.
-/

open List

namespace Aerobag.Server

variable {P : Primitives} {cfg : StoreConfig} {s s' : Store} {l : Label}

/-- While `open` runs, the pending rows are those that it has still to settle. -/
def Settling (s : Store) : Prop := ∀ rows owed, s.process = .opening rows owed →
  ∀ row ∈ s.db.objects.rows, row.state = .pending → row ∈ rows

theorem Settling.step (hst : s.step P cfg l = some s') (h : Settling s) : Settling s' := by
  intro rows owed hop row hrow hpn
  cases Store.effect_of_step hst with
  | tick => exact h rows owed hop row hrow hpn
  | openStore =>
    obtain ⟨rfl, -⟩ := Process.opening.inj hop
    exact mem_filter.2 ⟨hrow, by simpa using hpn⟩
  | reconcileReady hpr =>
    obtain ⟨rfl, -⟩ := Process.opening.inj hop
    obtain ⟨hr, hk⟩ | ⟨o, -, -, -, rfl⟩ := mem_markReady.1 hrow
    · obtain rfl | hrs := mem_cons.1 (h _ _ hpr row hr hpn)
      · exact absurd ⟨rfl, hpn⟩ hk
      · exact hrs
    · cases hpn
  | reconcileDelete hpr =>
    obtain ⟨rfl, -⟩ := Process.opening.inj hop
    obtain ⟨hr, hk⟩ := mem_deletePending.1 hrow
    obtain rfl | hrs := mem_cons.1 (h _ _ hpr row hr hpn)
    · exact absurd ⟨rfl, hpn⟩ hk
    · exact hrs
  | reconcileRelease hpr =>
    obtain ⟨rfl, -⟩ := Process.opening.inj hop
    exact h _ _ hpr row hrow hpn
  | crash | opened => cases hop
  | _ => cases (‹s.process = .running›).symm.trans hop

/-- The process is stopped before the blob is written. -/
def stoppedCreation : List Label :=
  [.createAccount "account" "key" [], .createObject 0 "account" "large" largeValue 0 1, .crash,
    .openStore, .reconcile true, .reconcileRelease]

/-- Whatever else happens, crashes and collections among it, an account's root and its events stay as
they are while no root is written for it and it is not deleted. -/
theorem root_kept_by_others {account : String} {labels : List Label}
    (hrun : Run.exec (Store.step P cfg) s labels = some s')
    (hquiet : ∀ label ∈ labels, Quiet account label) : SameRoot account s.db s'.db := by
  induction labels generalizing s with
  | nil =>
    cases hrun
    exact .refl _ _
  | cons label labels ih =>
    obtain ⟨t, hst, hrun⟩ := Run.exec_cons_eq_some.1 hrun
    obtain ⟨hq, hquiet⟩ := forall_mem_cons.1 hquiet
    exact (sameRoot_of_step hq hst).trans (ih hrun hquiet)

/-- A collection leaves the root as it is. -/
theorem root_kept_by_others_collection : ∃ s s',
    Run.exec (Store.step .transparent .small) .created (collectStray.take 5) = some s ∧
    Run.exec (Store.step .transparent .small) s (collectStray.drop 5) = some s' ∧
    (s.db.roots.get? "account").isSome ∧ SameRoot "account" s.db s'.db := by
  have hch : (Run.exec (Store.step .transparent .small) .created (collectStray.take 5)).any
      (fun s => (Run.exec (Store.step .transparent .small) s (collectStray.drop 5)).isSome &&
        (s.db.roots.get? "account").isSome) = true := by decide +kernel
  obtain ⟨s, hr, h⟩ := Run.exists_of_any hch
  obtain ⟨h, hrt⟩ := Bool.and_eq_true_iff.1 h
  obtain ⟨s', hs'⟩ := Option.isSome_iff_exists.1 h
  exact ⟨s, s', hr, hs', hrt, root_kept_by_others hs' (by simp [collectStray, Quiet])⟩

end Aerobag.Server
