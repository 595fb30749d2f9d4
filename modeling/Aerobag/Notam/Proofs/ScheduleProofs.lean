import Aerobag.Notam.Proofs.CheckpointProofs

/-!
# Collapsed deltas and schedules

Mutations can be cut into spans and every span collapsed into one delta. However they are cut, the
deltas lead to the state that the mutations lead to.
-/

namespace Aerobag.Notam

open Command

variable {R : Type} {env : NotamEnv R} {s t : NotamState R} {mus : List (NotamMutation R)}

def lastMutations (mutations : List (NotamMutation R)) : Std.ExtTreeMap String (NotamMutation R) :=
  Std.ExtTreeMap.insertAll (·.notamId) ∅ mutations

/-- The last mutation of every identifier, in the order of the identifiers. -/
def collapse (mutations : List (NotamMutation R)) : List (NotamMutation R) :=
  (lastMutations mutations).valueList

theorem lastMutations_keyed {id : String} {m : NotamMutation R}
    (h : (lastMutations mus)[id]? = some m) : m.notamId = id := by
  rcases Std.ExtTreeMap.mem_of_insertAll h with hn | ⟨-, hid⟩
  · simp at hn
  · exact hid

theorem mem_of_mem_collapse {m : NotamMutation R} (h : m ∈ collapse mus) : m ∈ mus := by
  have hl := (Std.ExtTreeMap.mem_valueList_iff lastMutations_keyed).1 h
  rcases Std.ExtTreeMap.mem_of_insertAll hl with hn | ⟨hm, -⟩
  · simp at hn
  · exact hm

theorem getElem?_actAll (ms : List (NotamMutation R)) (rs : RecordMap R) (id : String) :
    (actAll ms rs)[id]? = ((lastMutations ms)[id]?.map NotamMutation.outcome).getD rs[id]? := by
  induction ms using List.reverseRecOn with
  | nil => simp [actAll, lastMutations, Std.ExtTreeMap.insertAll]
  | append_singleton ms m ih =>
    have hac : actAll (ms ++ [m]) rs = m.act (actAll ms rs) := List.foldl_append
    have hl : lastMutations (ms ++ [m]) = (lastMutations ms).insert m.notamId m :=
      Std.ExtTreeMap.insertAll_append ..
    rw [hac, hl, m.getElem?_act, ih, Std.ExtTreeMap.getElem?_insert]
    by_cases hid : m.notamId = id <;> simp [hid]

/-- Only the last mutation of each id counts. -/
theorem actAll_collapse (ms : List (NotamMutation R)) (rs : RecordMap R) :
    actAll (collapse ms) rs = actAll ms rs := by
  refine Std.ExtTreeMap.ext_getElem? fun id => ?_
  have hsm : lastMutations (collapse ms) = lastMutations ms :=
    Std.ExtTreeMap.insertAll_valueList lastMutations_keyed
  rw [getElem?_actAll, getElem?_actAll, hsm]

def applyDeltas (env : NotamEnv R) : List (NotamDelta R) → StateM R Unit
  | [] => return
  | delta :: rest => do
    applyDelta env delta
    applyDeltas env rest

/-- The deltas of a publisher that cuts its mutations into batches. -/
def schedule (env : NotamEnv R) : NotamState R → List (List (NotamMutation R)) → List (NotamDelta R)
  | _, [] => []
  | s, span :: rest =>
    let t := final (applyMutations env span) s
    .new s.stateId t.stateId t.counters (collapse span) :: schedule env t rest

theorem applyDelta_collapse (hs : Consistent env s)
    (hr : (applyMutations env mus).run s = .ok () t) :
    (applyDelta env (.new s.stateId t.stateId t.counters (collapse mus))).run s = .ok () t := by
  obtain ⟨had, ht, hrc⟩ := (applyMutations_run hs).1 hr
  refine applyDelta_run hs validateContract_new rfl ?_ ?_ ht ?_ rfl rfl
  · exact List.pairwise_map.2 (Std.ExtTreeMap.valueList_ascending lastMutations_keyed)
  · exact fun m hm => had m (mem_of_mem_collapse hm)
  · rw [hrc]
    exact (actAll_collapse mus s.records).symm

theorem applyMutations_append {xs ys : List (NotamMutation R)} :
    (applyMutations env (xs ++ ys)).run s = .ok () t ↔
      ∃ cut, (applyMutations env xs).run s = .ok () cut ∧
        (applyMutations env ys).run cut = .ok () t := by
  have hap : applyMutations env (xs ++ ys) =
      (applyMutations env xs >>= fun _ => applyMutations env ys) := by
    induction xs with
    | nil => simp [applyMutations]
    | cons x xs ih => simp [applyMutations, ih]
  rw [hap, run_bind_eq_ok]
  exact ⟨fun ⟨_, cut, h⟩ => ⟨cut, h⟩, fun ⟨cut, h⟩ => ⟨(), cut, h⟩⟩

theorem applyDeltas_schedule (hs : Consistent env s) {ss : List (List (NotamMutation R))}
    (hrn : (applyMutations env ss.flatten).run s = .ok () t) :
    (applyDeltas env (schedule env s ss)).run s = .ok () t := by
  induction ss generalizing s with
  | nil => exact hrn
  | cons sp r ih =>
    obtain ⟨cut, hsp, hr⟩ := applyMutations_append.1 hrn
    have hct := ((applyMutations_run hs).1 hsp).2.1
    have hfn : final (applyMutations env sp) s = cut := by simp [final, hsp]
    have hd := applyDelta_collapse hs hsp
    have hdl := ih hct hr
    simp only [schedule, hfn]
    exact run_bind_eq_ok.2 ⟨(), cut, hd, hdl⟩

/-- Mutations that take a reached state to another can be collapsed into one delta; and however they
are cut into spans, the collapsed deltas lead to the same state, from the first state or from the
checkpoint of the state at a cut. -/
theorem schedules_converge {operations : List (Operation R)} {mutations : List (NotamMutation R)}
    (hreached : Run.exec (NotamState.stepOk env) (.empty env) operations = some s)
    (hrun : (applyMutations env mutations).run s = .ok () t) :
    (applyDelta env (.new s.stateId t.stateId t.counters (collapse mutations))).run s = .ok () t ∧
    ∀ before after : List (List (NotamMutation R)), (before ++ after).flatten = mutations →
      (applyDeltas env (schedule env s (before ++ after))).run s = .ok () t ∧
      ∃ cut loaded, (applyMutations env before.flatten).run s = .ok () cut ∧
        NotamState.fromCheckpoint env cut.checkpoint = .ok loaded ∧
        (applyDeltas env (schedule env cut after)).run loaded = .ok () t := by
  have hs := consistent_of_reached hreached
  refine ⟨applyDelta_collapse hs hrun, fun before after hct => ?_⟩
  subst hct
  refine ⟨applyDeltas_schedule hs hrun, ?_⟩
  rw [List.flatten_append] at hrun
  obtain ⟨cut, hbf, haf⟩ := applyMutations_append.1 hrun
  have hct := ((applyMutations_run hs).1 hbf).2.1
  exact ⟨cut, cut, hbf, hct.fromCheckpoint, applyDeltas_schedule hct haf⟩

/-- The changes of `Sample.retarget` as one delta, as two, and as one from the checkpoint between. -/
theorem schedules_converge_retarget : ∃ s t cut loaded,
    Run.exec (NotamState.stepOk Sample.env) (.empty Sample.env) [] = some s ∧
    (applyMutations Sample.env Sample.retarget).run s = .ok () t ∧
    (applyDelta Sample.env (.new s.stateId t.stateId t.counters (collapse Sample.retarget))).run s =
      .ok () t ∧
    (applyDeltas Sample.env (schedule Sample.env s [Sample.retarget.take 2, Sample.retarget.drop 2])).run
      s = .ok () t ∧
    NotamState.fromCheckpoint Sample.env cut.checkpoint = .ok loaded ∧
    (applyDeltas Sample.env (schedule Sample.env cut [Sample.retarget.drop 2])).run loaded = .ok () t := by
  obtain ⟨t, hr⟩ := applyMutations_exists .empty Sample.retarget_admissible
  have hem : Run.exec (NotamState.stepOk Sample.env) (.empty Sample.env) [] =
    some (.empty Sample.env) := rfl
  obtain ⟨hone, hcut⟩ := schedules_converge hem hr
  obtain ⟨htwo, cut, loaded, -, hld, hrest⟩ := hcut [Sample.retarget.take 2] [Sample.retarget.drop 2] rfl
  exact ⟨_, t, cut, loaded, hem, hr, hone, htwo, hld, hrest⟩

end Aerobag.Notam
