import Aerobag.Server.Proofs.SystemProofs

/-!
# What holds while the store is not open

A process that is starting or has stopped has no call and no collection in progress, and the rows
that `reconcile_pending_blobs` has yet to settle are pending rows.
-/

open List

namespace Aerobag.Server

variable {P : Primitives} {cfg : StoreConfig} {s s' : Store}

/-- While the store is opened no call is under way. -/
structure OpenInv (s : Store) : Prop where
  /-- The rows that `open` has still to settle are pending rows of the table. -/
  remaining : ∀ rows owed, s.process = .opening rows owed →
    (rows.map ObjectRow.key).Nodup ∧ ∀ row ∈ rows, row ∈ s.db.objects.rows ∧ row.state = .pending
  idle : s.process ≠ .running → s.calls.rows = [] ∧ s.gc = none

namespace OpenInv

theorem of_running (hpr : s.process = .running) : OpenInv s :=
  ⟨by simp [hpr], fun hne => absurd hpr hne⟩

private theorem settled {row : ObjectRow} {rem : List ObjectRow} {os : Table ObjectRow.key}
    (h : ((row :: rem).map ObjectRow.key).Nodup ∧
      ∀ o ∈ row :: rem, o ∈ s.db.objects.rows ∧ o.state = .pending)
    (hkp : ∀ o ∈ s.db.objects.rows, o.key ≠ row.key → o ∈ os.rows) :
    (rem.map ObjectRow.key).Nodup ∧ ∀ o ∈ rem, o ∈ os.rows ∧ o.state = .pending := by
  obtain ⟨hnd, hpn⟩ := h
  rw [map_cons, nodup_cons] at hnd
  refine ⟨hnd.2, fun o ho => ?_⟩
  obtain ⟨hm, hst⟩ := hpn o (mem_cons_of_mem _ ho)
  exact ⟨hkp o hm fun hk => hnd.1 (List.mem_map.2 ⟨o, ho, hk⟩), hst⟩

private theorem of_opening {rs : List ObjectRow} {o : Option ObjectRow}
    (hpr : s.process = .opening rs o) (hid : s.calls.rows = [] ∧ s.gc = none)
    (hrs : (rs.map ObjectRow.key).Nodup ∧ ∀ row ∈ rs, row ∈ s.db.objects.rows ∧ row.state = .pending) :
    OpenInv s := by
  refine ⟨fun rs' o' hop => ?_, fun _ => hid⟩
  obtain ⟨rfl, rfl⟩ := Process.opening.inj (hpr.symm.trans hop)
  exact hrs

/-- The invariant is kept by every step. -/
theorem step {l : Label} (hst : s.step P cfg l = some s') (h : OpenInv s) : OpenInv s' := by
  cases Store.effect_of_step hst with
  | tick => exact ⟨h.remaining, h.idle⟩
  | crash => exact ⟨by simp, fun _ => ⟨rfl, rfl⟩⟩
  | openStore hpr =>
    exact of_opening rfl (h.idle (by simp [hpr])) ⟨Table.nodup_keys _ |>.sublist (filter_sublist.map _),
      fun row hr => by simpa [pendingRows] using hr⟩
  | reconcileReady hpr =>
    exact of_opening rfl (h.idle (by simp [hpr])) (settled (h.remaining _ _ hpr)
      fun oth ho hne => mem_markReady.2 (.inl ⟨ho, fun hk => hne hk.1⟩))
  | reconcileDelete hpr =>
    exact of_opening rfl (h.idle (by simp [hpr])) (settled (h.remaining _ _ hpr)
      fun oth ho hne => mem_deletePending.2 ⟨ho, fun hk => hne hk.1⟩)
  | reconcileRelease hpr => exact of_opening rfl (h.idle (by simp [hpr])) (h.remaining _ _ hpr)
  | opened => exact of_running rfl
  | _ => exact of_running ‹s.process = .running›

theorem created : OpenInv .created := of_running rfl

end OpenInv

end Aerobag.Server
