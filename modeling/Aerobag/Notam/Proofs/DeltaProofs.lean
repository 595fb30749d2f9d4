import Aerobag.Lib.Run
import Aerobag.Notam.Proofs.BindingProofs

/-!
# Deltas and failed updates

An accepted delta leads to the consistent state of the mutated records. A failed update keeps the
state consistent unless it is refused after the old record has been taken out.
-/

open List

namespace Aerobag.Notam

open Command

variable {R : Type} {env : NotamEnv R} {s t : NotamState R} {mu : NotamMutation R}
  {ms : List (NotamMutation R)}

theorem NotamMutation.Admissible.safe (h : mu.Admissible env) (rs : RecordMap R) :
    mu.Safe env rs := by
  cases mu with
  | remove nid => trivial
  | upsert r =>
    obtain ⟨⟨l, hlf⟩, hks⟩ := h
    obtain ⟨cn, hcn, -⟩ := recordLeafHash_eq_ok.1 hlf
    simpa [Safe, hcn, Except.toBool] using hks

theorem NotamMutation.Safe.act {o : NotamMutation R} {rs : RecordMap R}
    (h : o.Safe env rs) (hne : mu.notamId ≠ o.notamId) : o.Safe env (mu.act rs) := by
  cases o with
  | remove nid => exact h
  | upsert r =>
    have hsm : (mu.act rs)[r.id]? = rs[r.id]? := by
      rw [mu.getElem?_act]
      exact if_neg hne
    rw [Safe, hsm]
    exact h

/-- Safe mutations leave a consistent state, also when one of them is refused. -/
theorem applyMutations_safe (h : Consistent env s) (hsf : ∀ m ∈ ms, m.Safe env s.records)
    (his : (ms.map (·.notamId)).Pairwise (· < ·)) :
    Ends (applyMutations env ms) s fun _ s' => Consistent env s' := by
  induction ms generalizing s with
  | nil => exact ends_pure.2 h
  | cons m r ih =>
    rw [forall_mem_cons] at hsf
    rw [map_cons, pairwise_cons, List.forall_mem_map] at his
    refine ends_bind.2 ((applyMutation_ends h m).imp ?_)
    intro res s₁ hr
    cases res with
    | error e =>
      rw [hr.2 hsf.1]
      exact h
    | ok _ =>
      obtain ⟨-, h₁, hrc⟩ := hr
      refine ih h₁ (fun o ho => ?_) his.2
      rw [hrc]
      exact (hsf.2 o ho).act (his.1 o ho).ne

theorem requireTarget_eq_ok {si : String} {cs : NotamCounters} {u : Unit} :
    t.requireTarget si cs = .ok u ↔ t.counters = cs ∧ t.stateId = si := by
  simp only [NotamState.requireTarget, Except.bind_eq_ok, Except.rejectIf_eq_ok, not_not]
  exact exists_const Unit

theorem validateMutationOrder_eq_ok {u : Unit} : validateMutationOrder env ms = .ok u ↔
      (∀ m ∈ ms, validateNotamId env m.notamId = .ok ()) ∧
        (ms.map (·.notamId)).Pairwise (· < ·) := by
  rw [validateMutationOrder, validateIdOrder_eq_ok]
  simp

/-- How a delta ends, when it is accepted and when it is refused. -/
theorem applyDelta_ends (h : Consistent env s) (d : NotamDelta R) : Ends (applyDelta env d) s fun
      | .ok _, s' => Consistent env s' ∧ s'.records = actAll d.mutations s.records
      | .error _, s' => (∀ m ∈ d.mutations, m.Safe env s.records) → Consistent env s' := by
  refine ends_attempt_bind.2 ⟨fun _ _ => ?_, fun _ _ _ => h⟩
  refine ends_get_bind.2 (ends_attempt_bind.2 ⟨fun _ _ => ?_, fun _ _ _ => h⟩)
  refine ends_attempt_bind.2 ⟨fun _ hor => ?_, fun _ _ _ => h⟩
  have his := (validateMutationOrder_eq_ok.1 hor).2
  have hen := ends_iff.1 (applyMutations_ends h d.mutations)
  have hsf := fun hsf => ends_iff.1 (applyMutations_safe h hsf his)
  refine ends_bind.2 (ends_iff.2 ?_)
  generalize result (applyMutations env d.mutations) s = result at hen
  generalize final (applyMutations env d.mutations) s = s' at hen hsf
  cases result with
  | error e => exact hsf
  | ok _ =>
    obtain ⟨-, hs', hrc⟩ := hen
    refine ends_get_bind.2 (ends_attempt.2 ?_)
    cases s'.requireTarget d.toStateId d.counters with
    | ok _ => exact ⟨hs', hrc⟩
    | error e => exact fun _ => hs'

theorem applyDelta_run (h : Consistent env s) {d : NotamDelta R}
    (hcn : validateContract d.schemaVersion d.product d.contractVersion = .ok ())
    (hfr : s.stateId = d.fromStateId) (his : (d.mutations.map (·.notamId)).Pairwise (· < ·))
    (had : ∀ m ∈ d.mutations, m.Admissible env) (ht : Consistent env t)
    (hrc : t.records = actAll d.mutations s.records)
    (hct : t.counters = d.counters) (hto : t.stateId = d.toStateId) :
    (applyDelta env d).run s = .ok () t := by
  have hbs : Except.rejectIf (s.stateId ≠ d.fromStateId)
      (NotamStateError.baseStateMismatch d.fromStateId s.stateId) = .ok () :=
    Except.rejectIf_eq_ok.2 (not_not.2 hfr)
  have hor : validateMutationOrder env d.mutations = .ok () :=
    validateMutationOrder_eq_ok.2 ⟨fun m hm => admissible_id (had m hm), his⟩
  have hmt := (applyMutations_run h).2 ⟨had, ht, hrc⟩
  have htg : t.requireTarget d.toStateId d.counters = .ok () := requireTarget_eq_ok.2 ⟨hct, hto⟩
  rw [run_eq_ok_iff] at hmt ⊢
  unfold applyDelta
  simp only [hcn, attempt, pure_bind, ends_get_bind, hbs, hor]
  refine ends_bind.2 (hmt.imp ?_)
  rintro _ _ ⟨rfl, rfl⟩
  simp [ends_get_bind, htg, ends_pure, and_self]

theorem applyDelta_accepted (h : Consistent env s) {d : NotamDelta R}
    (hr : (applyDelta env d).run s = .ok () t) :
    validateContract d.schemaVersion d.product d.contractVersion = .ok () ∧
    s.stateId = d.fromStateId ∧ validateMutationOrder env d.mutations = .ok () ∧
    (∀ m ∈ d.mutations, m.Admissible env) ∧ t.stateId = d.toStateId := by
  have hen : Ends (applyDelta env d) s fun
      | .ok _, t =>
          validateContract d.schemaVersion d.product d.contractVersion = .ok () ∧
          s.stateId = d.fromStateId ∧ validateMutationOrder env d.mutations = .ok () ∧
          (∀ m ∈ d.mutations, m.Admissible env) ∧ t.stateId = d.toStateId
      | .error _, _ => True := by
    refine ends_attempt_bind.2 ⟨fun _ hcn => ?_, fun _ _ => trivial⟩
    refine ends_get_bind.2 (ends_attempt_bind.2 ⟨fun _ hbs => ?_, fun _ _ => trivial⟩)
    refine ends_attempt_bind.2 ⟨fun _ hor => ?_, fun _ _ => trivial⟩
    refine ends_bind.2 ((applyMutations_ends h d.mutations).imp fun res s' hrs => ?_)
    cases res with
    | error _ => trivial
    | ok _ =>
      refine ends_get_bind.2 (ends_attempt.2 ?_)
      cases ht : s'.requireTarget d.toStateId d.counters with
      | error _ => trivial
      | ok _ =>
        exact ⟨hcn, not_not.1 (Except.rejectIf_eq_ok.1 hbs), hor, hrs.1,
          (requireTarget_eq_ok.1 ht).2⟩
  exact hen.of_ok hr

/-- The last mutation of an identifier decides what stands under it. -/
theorem getElem?_actAll_of_mem (his : (ms.map (·.notamId)).Pairwise (· < ·))
    (h : mu ∈ ms) (rs : RecordMap R) : (actAll ms rs)[mu.notamId]? = mu.outcome := by
  have ho : ∀ r (rs : RecordMap R) id,
      (∀ m ∈ r, id < m.notamId) → (actAll r rs)[id]? = rs[id]? := by
    intro r
    induction r with
    | nil => exact fun _ _ _ => rfl
    | cons m r ih =>
      intro rs id hla
      have hne : m.notamId ≠ id := (hla m mem_cons_self).ne'
      have hac := ih (m.act rs) id fun m' hm' => hla m' (mem_cons_of_mem _ hm')
      rw [m.getElem?_act, if_neg hne] at hac
      exact hac
  induction ms generalizing rs with
  | nil => cases h
  | cons m r ih =>
    rw [map_cons, pairwise_cons] at his
    rcases mem_cons.1 h with rfl | hr
    · have hkp := ho r (mu.act rs) mu.notamId fun m' hm' => his.1 _ (List.mem_map_of_mem hm')
      rw [mu.getElem?_act, if_pos rfl] at hkp
      exact hkp
    · exact ih his.2 hr (m.act rs)

/-- The operation cannot be refused after an old record has been taken out. -/
def Operation.Safe (env : NotamEnv R) (s : NotamState R) : Operation R → Prop
  | mutate mutation => mutation.Safe env s.records
  | apply delta => ∀ mutation ∈ delta.mutations, mutation.Safe env s.records
  | load _ => True

theorem operation_ends (h : Consistent env s) (op : Operation R) : Ends (op.run env) s fun
      | .ok _, s' => Consistent env s'
      | .error _, s' => op.Safe env s → Consistent env s' := by
  cases op with
  | mutate m =>
    refine (applyMutation_ends h m).imp fun res s' hr => ?_
    cases res with
    | ok _ => exact hr.2.1
    | error e => exact fun hsf => hr.2 hsf ▸ h
  | apply d =>
    refine (applyDelta_ends h d).imp fun res s' hr => ?_
    cases res with
    | ok _ => exact hr.1
    | error e => exact hr
  | load cp =>
    refine ends_attempt_bind.2 ⟨fun t ht => ?_, fun _ _ _ => h⟩
    exact (fromCheckpoint_eq_ok.1 ht).2.2.2.1

theorem consistent_of_stepOk (h : Consistent env s) {op : Operation R}
    (hst : s.stepOk env op = some t) : Consistent env t := by
  unfold NotamState.stepOk at hst
  cases hr : (op.run env).run s with
  | error e s' => simp [hr] at hst
  | ok _ s' =>
    rw [hr] at hst
    exact Option.some.inj hst ▸ (operation_ends h op).of_ok hr

theorem consistent_of_reached {os : List (Operation R)}
    (hrc : Run.exec (NotamState.stepOk env) (.empty env) os = some s) : Consistent env s :=
  Run.exec_inv (Consistent env) (fun hst h => consistent_of_stepOk h hst) .empty hrc

/-- A safe step, failed or not, leads to a consistent state. -/
theorem consistent_of_step (h : Consistent env s) {op : Operation R}
    (hsf : op.Safe env s) (hst : s.step env op = some t) : Consistent env t := by
  obtain rfl := Option.some.inj hst
  have hen := ends_iff.1 (operation_ends h op)
  generalize result (op.run env) s = result at hen
  cases result with
  | ok _ => exact hen
  | error e => exact hen hsf

/-- When no operation can be refused after an old record has been taken out, every state that is
reached has the identity of its records and counters, and a failed operation leaves the records or
changes the identity. -/
theorem failed_update_detectable {operations : List (Operation R)}
    (hsafe : Run.Steps (NotamState.step env) (fun s operation => operation.Safe env s) (.empty env)
      operations)
    (hrun : Run.exec (NotamState.step env) (.empty env) operations = some s) :
    recomputeRecordIdentity env (recordList s.records) = .ok (s.stateId, s.counters) ∧
    ∀ (operation : Operation R) e s', operation.Safe env s → (operation.run env).run s = .error e s' →
      recomputeRecordIdentity env (recordList s'.records) = .ok (s'.stateId, s'.counters) ∧
      ((∀ message, (env.sha256 message).length = 32) → NoCollision env s s' → InMemory env s →
        InMemory env s' → s'.stateId = s.stateId →
          canonicalRecords env s' = canonicalRecords env s) := by
  have hs : Consistent env s := Run.exec_inv_of_steps (Consistent env)
    (fun hst hsafe h => consistent_of_step h hsafe hst) .empty hrun hsafe
  refine ⟨hs.recompute, fun operation e s' hsafe' he => ?_⟩
  have hs' : Consistent env s' := (operation_ends hs operation).of_error he hsafe'
  refine ⟨hs'.recompute, fun hl hn hsm hsm' hid => Set.Subset.antisymm ?_ ?_⟩
  · exact canonicalRecords_subset hs'.toIdentified hs.toIdentified hl hn.symm hsm' hsm hid
  · exact canonicalRecords_subset hs.toIdentified hs'.toIdentified hl hn hsm hsm' hid.symm

/-- An upsert that is refused because of its record takes out the record it was to replace and keeps
the identity of the state. -/
theorem applyMutation_refused (h : Consistent env s) {r : NotamRecord R}
    (hid : validateNotamId env r.id = .ok ()) (hbd : ∀ l, recordLeafHash env r ≠ .ok l) :
    Ends (applyMutation env (.upsert r)) s fun res s' => (∃ e, res = .error e) ∧
      s'.stateId = s.stateId ∧ s'.records = s.records.erase r.id ∧
      s'.counters = countersOf (s.records.erase r.id) := by
  refine ends_attempt_bind.2 ⟨fun _ _ => ?_, fun e he => ?_⟩
  · refine ends_bind.2 ((takeOut_ends h.valid h.tabulated r.id).imp ?_)
    rintro _ s₁ ⟨rfl, cs, i, rfl, ht⟩
    have hfr : (s.records.erase r.id)[r.id]? = none := by simp
    refine ends_bind.2 ((putIn_ends ht hfr).imp ?_)
    intro res s₂ hr
    cases res with
    | ok _ =>
      obtain ⟨l, -, hlf, -⟩ := hr
      exact absurd hlf (hbd l)
    | error e =>
      rcases hr with ⟨⟨l, hlf⟩, -⟩ | ⟨-, rfl⟩
      · exact absurd hlf (hbd l)
      · exact ⟨⟨e, rfl⟩, rfl, rfl, ht.counters⟩
  · rw [NotamMutation.notamId, hid] at he
    cases he

theorem exists_applied (h : Consistent env s) {m : NotamMutation R} (had : m.Admissible env) :
    ∃ t, (applyMutation env m).run s = .ok () t ∧ Consistent env t ∧
      t.records = m.act s.records := by
  have hen := applyMutation_ends h m
  cases hr : (applyMutation env m).run s with
  | ok _ t => exact ⟨t, rfl, (hen.of_ok hr).2⟩
  | error e t => exact absurd had (hen.of_error hr).1

namespace Sample

def notice : NotamRecord NotamDetails := record "A" (some "KSEA") [] "first"

def badAlias (id : String) : NotamRecord NotamDetails := record id (some "KSEA") ["sea"] "second"

theorem notice_admissible : ∀ m ∈ [NotamMutation.upsert notice], m.Admissible Sample.env :=
  admissible_of_check (by decide +kernel)

theorem exists_refused {s : NotamState NotamDetails} (h : Consistent Sample.env s) (id : String)
    (hid : id ∈ ["A", "B"]) :
    ∃ e s', (applyMutation Sample.env (.upsert (badAlias id))).run s = .error e s' ∧
      s'.stateId = s.stateId ∧ s'.records = s.records.erase id ∧
      s'.counters = countersOf (s.records.erase id) := by
  have hch : ∀ id ∈ ["A", "B"], (canonicalRecordBytes Sample.env (badAlias id)).isOk = false ∧
      (validateNotamId Sample.env id).isOk = true := by decide +kernel
  obtain ⟨hbd, hv⟩ := hch id hid
  obtain ⟨_, hv⟩ := Except.exists_of_isOk hv
  have hen := applyMutation_refused h (r := badAlias id) hv fun l hlf => by
    obtain ⟨cn, hcn, -⟩ := recordLeafHash_eq_ok.1 hlf
    rw [hcn] at hbd
    cases hbd
  cases hr : (applyMutation Sample.env (.upsert (badAlias id))).run s with
  | ok _ s' =>
    obtain ⟨⟨e, he⟩, -⟩ := hen.of_ok hr
    cases he
  | error e s' => exact ⟨e, s', rfl, (hen.of_error hr).2⟩

end Sample

/-- A notice is applied and another one refused; the records are those of the identity. -/
theorem failed_update_detectable_refused : ∃ s e s',
    Run.exec (NotamState.step Sample.env) (.empty Sample.env) [.mutate (.upsert Sample.notice)] =
      some s ∧
    (applyMutation Sample.env (.upsert (Sample.badAlias "B"))).run s = .error e s' ∧
    ∀ t ∈ [s, s'], recomputeRecordIdentity Sample.env (recordList t.records) =
      .ok (t.stateId, t.counters) := by
  have had := Sample.notice_admissible _ mem_cons_self
  obtain ⟨s, hr, hs, hrc⟩ := exists_applied .empty had
  obtain ⟨e, s', hr', -⟩ := Sample.exists_refused hs "B" (by simp)
  have hex : Run.exec (NotamState.step Sample.env) (.empty Sample.env)
      [.mutate (.upsert Sample.notice)] = some s := by
    simp [Run.exec, NotamState.step, Operation.run, final, hr]
  have hsf : Run.Steps (NotamState.step Sample.env) (fun s op => op.Safe Sample.env s)
      (.empty Sample.env) [.mutate (.upsert Sample.notice)] :=
    ⟨had.safe (NotamState.empty Sample.env).records, trivial⟩
  obtain ⟨hid, hfl⟩ := failed_update_detectable hsf hex
  have hsafe : (Operation.mutate (.upsert (Sample.badAlias "B"))).Safe Sample.env s := by
    have hbd : (canonicalRecordBytes Sample.env (Sample.badAlias "B")).isOk = false := by
      decide +kernel
    rw [Operation.Safe, NotamMutation.Safe, if_neg (by simp [hbd]), hrc]
    rfl
  exact ⟨s, e, s', hex, hr', by simpa using ⟨hid, (hfl _ e s' hsafe hr').1⟩⟩

/-- A notice is replaced by one that is refused: the notice and its count are gone, and the state
still has the identity that it had with them. -/
theorem refused_upsert_undetected : ∃ s e s',
    (applyMutation Sample.env (.upsert Sample.notice)).run (.empty Sample.env) = .ok () s ∧
    s.records["A"]? = some Sample.notice ∧ s.counters.notamCount = 1 ∧
    (applyMutation Sample.env (.upsert (Sample.badAlias "A"))).run s = .error e s' ∧
    s'.records["A"]? = none ∧ s'.counters.notamCount = 0 ∧ s'.stateId = s.stateId := by
  obtain ⟨s, hr, hs, hrc⟩ := exists_applied .empty (Sample.notice_admissible _ mem_cons_self)
  obtain ⟨e, s', hr', hid, hrc', hct'⟩ := Sample.exists_refused hs "A" (by simp)
  refine ⟨s, e, s', hr, ?_, ?_, hr', ?_, ?_, hid⟩
  · rw [hrc]
    rfl
  · rw [hs.tabulated.counters, hrc]
    decide
  · rw [hrc', Std.ExtTreeMap.getElem?_erase]
    rfl
  · rw [hct', hrc]
    decide

end Aerobag.Notam
