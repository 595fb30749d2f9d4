import Aerobag.Notam.Proofs.LoadProofs
import Aerobag.Notam.Sample

/-!
# The incremental identity

Along every sequence of successful mutations from the empty state, all that is maintained
incrementally is what a computation from scratch would give.
-/

open List

namespace Aerobag.Notam

open Command Inverted

variable {R : Type} {env : NotamEnv R} {ms : List (NotamMutation R)}

/-- No counter is larger than the number of the records. -/
structure NotamCounters.AtMost (counters : NotamCounters) (n : Nat) : Prop where
  notamCount : counters.notamCount = n
  airportNotamCount : counters.airportNotamCount ≤ n
  multipleEffects : counters.airportNotamsWithMultipleEffects ≤ n
  otherEffect : counters.airportNotamsWithOtherEffect ≤ n

theorem atMost_contribution (r : NotamRecord R) : (recordCounterContribution r).AtMost 1 := by
  refine ⟨rfl, Bool.toNat_le _, Bool.toNat_le _, Bool.toNat_le _⟩

theorem countersOf_atMost (rs : RecordMap R) : (countersOf rs).AtMost rs.size := by
  rw [← Std.ExtTreeMap.length_toList, countersOf]
  induction rs.toList with
  | nil => exact ⟨rfl, Nat.zero_le _, Nat.zero_le _, Nat.zero_le _⟩
  | cons e r ih =>
    rw [map_cons, sum_cons, length_cons]
    obtain ⟨hc, har, hml, ho⟩ := atMost_contribution e.2
    constructor
    · simp [NotamCounters.notamCount_add, hc, ih.notamCount, Nat.add_comm]
    · have := ih.airportNotamCount
      simp only [NotamCounters.airportNotamCount_add]
      omega
    · have := ih.multipleEffects
      simp only [NotamCounters.airportNotamsWithMultipleEffects_add]
      omega
    · have := ih.otherEffect
      simp only [NotamCounters.airportNotamsWithOtherEffect_add]
      omega

theorem actAll_eq_some {rs : RecordMap R} {id : String} {r : NotamRecord R}
    (h : (actAll ms rs)[id]? = some r) : rs[id]? = some r ∨ .upsert r ∈ ms := by
  induction ms generalizing rs with
  | nil => exact .inl h
  | cons m rst ih =>
    rcases ih h with hrc | hm
    · rw [m.getElem?_act] at hrc
      split at hrc
      · cases m with
        | upsert r' =>
          cases hrc
          exact .inr mem_cons_self
        | remove nid => cases hrc
      · exact .inl hrc
    · exact .inr (mem_cons_of_mem _ hm)

/-- With distinct keys an index holds each id once. -/
theorem strict_index {rs : RecordMap R} {i : AirportIndex}
    (h : Represents (keysIn NotamRecord.airportKeys rs) i)
    (hnd : ∀ (id : String) (r : NotamRecord R), rs[id]? = some r →
      r.airportKeys.Nodup) (ap : String) : (i.getD ap []).Pairwise (· < ·) := by
  have hc : ∀ id, (i.getD ap []).count id ≤ 1 := by
    intro id
    rw [h.count]
    cases hrc : rs[id]? with
    | none => simp [keysIn, hrc]
    | some r => simpa [keysIn, hrc] using nodup_iff_count_le_one.1 (hnd id r hrc) ap
  exact (h.sorted_getD ap).imp₂ (fun _ _ hle hne => lt_of_le_of_ne hle hne)
    (nodup_iff_count_le_one.2 hc)

/-- After any successful sequence of mutations the identity is the one computed from scratch, the
counters are the sums over the records, every leaf is the leaf of a record in its bucket, the
airport index lists the identifiers of the records that name the airport, and how the records were
reached does not matter. -/
theorem incremental_identity {mutations : List (NotamMutation R)} {s : NotamState R}
    (hrun : (applyMutations env mutations).run (.empty env) = .ok () s) :
    s.fullyRecomputedStateId env = .ok s.stateId ∧
    s.counters = countersOf s.records ∧ s.counters.AtMost s.records.size ∧
    (∀ notamId, ∃ s', (takeOut notamId).run s = .ok () s') ∧
    (∀ bucket id leaf, (s.merkle.bucketMembers bucket)[id]? = some leaf ↔
      bucketForId env id = bucket ∧
        ∃ record, s.records[id]? = some record ∧ recordLeafHash env record = .ok leaf) ∧
    (∀ airport, (s.byAirport.getD airport []).Pairwise (· < ·) ∧ s.byAirport[airport]? ≠ some [] ∧
      ∀ id, id ∈ s.byAirport.getD airport [] ↔
        ∃ record, s.records[id]? = some record ∧ airport ∈ record.airportKeys) ∧
    ∀ mutations' t, (applyMutations env mutations').run (.empty env) = .ok () t →
      t.records = s.records → t = s := by
  obtain ⟨had, hs, hre⟩ := (applyMutations_run .empty).1 hrun
  have hnd : ∀ (id : String) record, s.records[id]? = some record → record.airportKeys.Nodup := by
    intro id record hrc
    rw [hre] at hrc
    rcases actAll_eq_some hrc with hn | hm
    · simp [NotamState.empty, NotamState.ofParts] at hn
    · exact (had _ hm).2
  refine ⟨?_, hs.tabulated.counters, ?_, ?_, ?_, ?_, ?_⟩
  · change (recomputeRecordIdentity env (recordList s.records)).map _ = _
    rw [hs.recompute]
    rfl
  · rw [hs.tabulated.counters]
    exact countersOf_atMost s.records
  · intro notamId
    have hen := takeOut_ends hs.valid hs.tabulated notamId
    cases ho : (takeOut notamId).run s with
    | ok _ s' => exact ⟨s', rfl⟩
    | error e s' => cases (hen.of_error ho).1
  · intro bucket id leaf
    rw [hs.leaves]
    by_cases hbucket : bucketForId env id = bucket
    · rw [if_pos hbucket, leafOf_eq_some]
      exact ⟨fun h => ⟨hbucket, h⟩, fun h => h.2⟩
    · simp [hbucket]
  · intro airport
    refine ⟨strict_index hs.tabulated.index hnd airport, fun hnl => hs.tabulated.index.nonempty hnl rfl,
      fun id => ?_⟩
    rw [hs.tabulated.index.mem_iff]
    cases hrc : s.records[id]? <;> simp [keysIn, hrc]
  · intro mutations' t hrun' hsm
    exact ((applyMutations_run .empty).1 hrun').2.1.eq hs hsm

theorem applyMutations_exists {s : NotamState R} (h : Consistent env s)
    (had : ∀ m ∈ ms, m.Admissible env) : ∃ t, (applyMutations env ms).run s = .ok () t := by
  have hen := applyMutations_ends h ms
  cases hr : (applyMutations env ms).run s with
  | ok _ t => exact ⟨t, rfl⟩
  | error e t =>
    obtain ⟨m, hm, hrf⟩ := hen.of_error hr
    exact absurd (had m hm) hrf

theorem admissible_of_check
    (h : ms.all (fun
      | .upsert r => (canonicalRecordBytes env r).isOk && decide r.airportKeys.Nodup
      | .remove nid => (validateNotamId env nid).isOk) = true) :
    ∀ m ∈ ms, m.Admissible env := by
  intro m hm
  have hch := List.all_eq_true.1 h m hm
  cases m with
  | upsert r =>
    rw [Bool.and_eq_true, decide_eq_true_eq] at hch
    refine ⟨?_, hch.2⟩
    cases hcn : canonicalRecordBytes env r with
    | ok cn => exact ⟨_, recordLeafHash_eq_ok.2 ⟨cn, hcn, rfl⟩⟩
    | error e => simp [hcn, Except.toBool] at hch
  | remove nid =>
    cases hid : validateNotamId env nid with
    | ok _ => exact hid
    | error e => simp [hid, Except.toBool] at hch

namespace Sample

/-- Two notices at one airport; the first one moves, the second one is cancelled. -/
def retarget : List (NotamMutation NotamDetails) :=
  [.upsert (record "A" (some "ksea") [] "first"), .upsert (record "B" (some "KSEA") ["SEA"] "second"),
    .upsert (record "A" (some "KPAE") [] "moved"), .remove "B"]

theorem retarget_admissible : ∀ m ∈ retarget, m.Admissible Sample.env :=
  admissible_of_check (by decide +kernel)

end Sample

/-- Notices are entered, moved to another airport and removed. -/
theorem incremental_identity_retarget : ∃ s,
    (applyMutations Sample.env Sample.retarget).run (.empty Sample.env) = .ok () s ∧
    s.fullyRecomputedStateId Sample.env = .ok s.stateId := by
  obtain ⟨s, hr⟩ := applyMutations_exists .empty Sample.retarget_admissible
  exact ⟨s, hr, (incremental_identity hr).1⟩

end Aerobag.Notam
