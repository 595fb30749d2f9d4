import Aerobag.Notam.Proofs.DeltaProofs

/-!
# Checkpoints and schedules

A checkpoint leads to the state that the mutations lead to, except that it is also accepted when a
record names an airport twice.
-/

open List

namespace Aerobag.Notam

open Command Inverted

variable {R : Type} {env : NotamEnv R} {s : NotamState R} {recs : List (NotamRecord R)}

theorem validateContract_new :
    validateContract liveFeedsSchemaVersion notamProductId notamLiveFeedContractVersion = .ok () := by
  decide

theorem Consistent.fromCheckpoint (h : Consistent env s) :
    NotamState.fromCheckpoint env s.checkpoint = .ok s := by
  have hag : Ascending s.checkpoint.records := recordList_ascending h.valid
  refine fromCheckpoint_eq_ok.2 ⟨validateContract_new, hag, fun r hm => ?_, h,
    (recordMap_recordList h.valid).symm, rfl, rfl⟩
  exact h.valid.leaf ((Std.ExtTreeMap.mem_valueList_iff h.valid.keyed).1 hm)

theorem actAll_upsert (rs : List (NotamRecord R)) (map : RecordMap R) :
    actAll (rs.map .upsert) map = Std.ExtTreeMap.insertAll (·.id) map rs := by
  rw [actAll, foldl_map]
  rfl

/-- The checkpoint has the contract, the records, and the identity and counters of the records, if
they have one. -/
structure Matches (env : NotamEnv R) (checkpoint : NotamCheckpoint R)
    (records : List (NotamRecord R)) : Prop where
  contract : validateContract checkpoint.schemaVersion checkpoint.product
    checkpoint.contractVersion = .ok ()
  content : checkpoint.records = records
  identity : ∀ identity, recomputeRecordIdentity env records = .ok identity →
    (checkpoint.stateId, checkpoint.counters) = identity

theorem exists_consistent (hag : Ascending recs)
    (hl : ∀ r ∈ recs, ∃ lf, recordLeafHash env r = .ok lf) :
    ∃ t, Consistent env t ∧ t.records = recordMap recs := by
  have hlp := foldlM_add (.start : Loaded env _) hag (by simp)
  cases hld : recs.foldlM (Loading.add env) ⟨.empty env, 0, ∅, ∅⟩ with
  | error e =>
    rw [hld] at hlp
    obtain ⟨r, hm, hbd⟩ := hlp
    obtain ⟨lf, hlf⟩ := hl r hm
    exact absurd hlf (hbd lf)
  | ok l =>
    rw [hld] at hlp
    exact ⟨_, hlp.2.1.consistent, hlp.2.2⟩

theorem fromCheckpoint_matches {cp : NotamCheckpoint R}
    (hmt : Matches env cp recs) (hag : Ascending recs) :
    (∃ t, NotamState.fromCheckpoint env cp = .ok t) ↔
      ∀ r ∈ recs, ∃ l, recordLeafHash env r = .ok l := by
  constructor
  · rintro ⟨t, ht⟩
    rw [← hmt.content]
    exact (fromCheckpoint_eq_ok.1 ht).2.2.1
  · intro hl
    obtain ⟨t, ht, hrc⟩ := exists_consistent hag hl
    have h := hmt.identity _ (recomputeRecordIdentity_eq_ok hag ht hrc)
    obtain ⟨hid, hct⟩ := Prod.ext_iff.1 h
    refine ⟨t, fromCheckpoint_eq_ok.2 ⟨hmt.contract, ?_, ?_, ht, ?_, hid.symm, hct.symm⟩⟩
    · rwa [hmt.content]
    · rwa [hmt.content]
    · rw [hrc, hmt.content]

theorem upserts_ok_iff :
    (∃ t, (applyMutations env (recs.map .upsert)).run (.empty env) = .ok () t) ↔
      ∀ r ∈ recs, (∃ l, recordLeafHash env r = .ok l) ∧ r.airportKeys.Nodup := by
  constructor
  · rintro ⟨t, hr⟩ r hm
    exact ((applyMutations_run .empty).1 hr).1 _ (List.mem_map_of_mem hm)
  · intro had
    exact applyMutations_exists .empty (List.forall_mem_map.2 had)

/-- A checkpoint of the records is accepted just when the upserts of the records are, and then both
lead to the same state, in which no identifier stands twice under an airport. -/
def PathsAgree (env : NotamEnv R) (checkpoint : NotamCheckpoint R)
    (records : List (NotamRecord R)) : Prop :=
  ((∃ t, NotamState.fromCheckpoint env checkpoint = .ok t) ↔
    ∃ t, (applyMutations env (records.map .upsert)).run (.empty env) = .ok () t) ∧
  ∀ t t', NotamState.fromCheckpoint env checkpoint = .ok t →
    (applyMutations env (records.map .upsert)).run (.empty env) = .ok () t' →
    t = t' ∧ ∀ airport, (t.byAirport.getD airport []).Pairwise (· < ·)

/-- The two paths agree on records with increasing identifiers if no record names an airport twice,
or if one of the records is invalid. A state that was reached by successful operations is the one of
its checkpoint. -/
theorem checkpoint_paths_agree {records : List (NotamRecord R)} {checkpoint : NotamCheckpoint R}
    (hascending : Ascending records) (hmatches : Matches env checkpoint records) :
    (PathsAgree env checkpoint records ↔
      (∃ record ∈ records, ∀ bytes, canonicalRecordBytes env record ≠ .ok bytes) ∨
        ∀ record ∈ records, record.airportKeys.Nodup) ∧
    ∀ operations s, Run.exec (NotamState.stepOk env) (.empty env) operations = some s →
      NotamState.fromCheckpoint env s.checkpoint = .ok s := by
  have hb : ∀ record : NotamRecord R, (∃ leaf, recordLeafHash env record = .ok leaf) ↔
      ∃ bytes, canonicalRecordBytes env record = .ok bytes := by
    intro record
    simp only [recordLeafHash_eq_ok]
    exact ⟨fun ⟨_, bytes, h, _⟩ => ⟨bytes, h⟩, fun ⟨bytes, h⟩ => ⟨_, bytes, h, rfl⟩⟩
  refine ⟨⟨fun hag => ?_, fun hcn => ⟨?_, fun t t' ht ht' => ?_⟩⟩, ?_⟩
  · by_cases hv : ∀ record ∈ records, ∃ leaf, recordLeafHash env record = .ok leaf
    · have hup := hag.1.1 ((fromCheckpoint_matches hmatches hascending).2 hv)
      exact .inr fun record hm => (upserts_ok_iff.1 hup record hm).2
    · left
      push Not at hv
      obtain ⟨record, hm, hbd⟩ := hv
      refine ⟨record, hm, fun bytes hok => ?_⟩
      obtain ⟨leaf, hlf⟩ := (hb record).2 ⟨bytes, hok⟩
      exact hbd leaf hlf
  · rw [fromCheckpoint_matches hmatches hascending, upserts_ok_iff]
    refine ⟨fun hl record hm => ⟨hl record hm, ?_⟩, fun hal record hm => (hal record hm).1⟩
    rcases hcn with ⟨bad, hbd, hr⟩ | hnd
    · obtain ⟨bytes, hok⟩ := (hb bad).1 (hl bad hbd)
      exact absurd hok (hr bytes)
    · exact hnd record hm
  · obtain ⟨-, -, -, hs, hre, -⟩ := fromCheckpoint_eq_ok.1 ht
    obtain ⟨had, hs', hre'⟩ := (applyMutations_run .empty).1 ht'
    rw [actAll_upsert] at hre'
    rw [hmatches.content] at hre
    refine ⟨hs.eq hs' (hre.trans hre'.symm), strict_index hs.tabulated.index ?_⟩
    intro id record hrc
    rw [hre] at hrc
    obtain ⟨hm, -⟩ := (recordMap_eq_some hascending).1 hrc
    exact (had _ (List.mem_map_of_mem hm)).2
  · intro operations s hrh
    exact (consistent_of_reached hrh).fromCheckpoint

theorem exists_matches (hag : Ascending recs) (hl : ∀ r ∈ recs, ∃ l, recordLeafHash env r = .ok l) :
    ∃ cp, Matches env cp recs := by
  obtain ⟨t, ht, hrc⟩ := exists_consistent hag hl
  refine ⟨.new t.stateId t.counters recs, validateContract_new, rfl, fun i hid => ?_⟩
  rw [recomputeRecordIdentity_eq_ok hag ht hrc] at hid
  exact Except.ok.inj hid

theorem exists_leaf_of_isOk {r : NotamRecord R} (h : (canonicalRecordBytes env r).isOk = true) :
    ∃ l, recordLeafHash env r = .ok l := by
  cases hcn : canonicalRecordBytes env r with
  | ok cn => exact ⟨_, recordLeafHash_eq_ok.2 ⟨cn, hcn, rfl⟩⟩
  | error e => simp [hcn, Except.toBool] at h

namespace Sample

def ownAlias : NotamRecord NotamDetails := record "A" (some "kabc") ["KABC"] "first"

/-- The second one has an alias. -/
def notices : List (NotamRecord NotamDetails) := [notice, record "B" (some "KSEA") ["SEA"] "second"]

end Sample

/-- The paths of the two notices, and a state on one of them with its checkpoint. -/
theorem checkpoint_paths_agree_notices : ∃ checkpoint s,
    Matches Sample.env checkpoint Sample.notices ∧
    PathsAgree Sample.env checkpoint Sample.notices ∧
    Run.exec (NotamState.stepOk Sample.env) (.empty Sample.env) [.mutate (.upsert Sample.notice)] =
      some s ∧ NotamState.fromCheckpoint Sample.env s.checkpoint = .ok s := by
  have hlf : ∀ r ∈ Sample.notices, (canonicalRecordBytes Sample.env r).isOk = true := by decide +kernel
  have hag : Ascending Sample.notices := pairwise_pair.2 (by decide : "A" < "B")
  obtain ⟨checkpoint, hmatches⟩ := exists_matches hag fun r hr => exists_leaf_of_isOk (hlf r hr)
  obtain ⟨hpaths, hown⟩ := checkpoint_paths_agree hag hmatches
  obtain ⟨s, hr, -⟩ := exists_applied .empty (Sample.notice_admissible _ mem_cons_self)
  have hex : Run.exec (NotamState.stepOk Sample.env) (.empty Sample.env)
      [.mutate (.upsert Sample.notice)] = some s := by
    simp [Run.exec, NotamState.stepOk, Operation.run, hr]
  exact ⟨checkpoint, s, hmatches, hpaths.2 (.inr (by decide +kernel)), hex, hown _ s hex⟩

/-- A notice that names its airport twice: its checkpoint is accepted, with the notice twice under the
airport, and its upsert is refused. -/
theorem checkpoint_accepts_own_alias : ∃ checkpoint t e s,
    Ascending [Sample.ownAlias] ∧ Matches Sample.env checkpoint [Sample.ownAlias] ∧
    NotamState.fromCheckpoint Sample.env checkpoint = .ok t ∧
    t.byAirport.getD "KABC" [] = ["A", "A"] ∧
    (applyMutations Sample.env ([Sample.ownAlias].map .upsert)).run (.empty Sample.env) =
      .error e s := by
  have hok : (canonicalRecordBytes Sample.env Sample.ownAlias).isOk = true := by decide +kernel
  have hks : Sample.ownAlias.airportKeys = ["KABC", "KABC"] := by decide +kernel
  have hag : Ascending [Sample.ownAlias] := pairwise_singleton _ _
  have hl : ∀ r ∈ [Sample.ownAlias], ∃ leaf, recordLeafHash Sample.env r = .ok leaf :=
    forall_mem_singleton.2 (exists_leaf_of_isOk hok)
  obtain ⟨checkpoint, hmatches⟩ := exists_matches hag hl
  obtain ⟨t, ht⟩ := (fromCheckpoint_matches hmatches hag).2 hl
  obtain ⟨-, -, -, hcn, hrc, -⟩ := fromCheckpoint_eq_ok.1 ht
  cases hr : (applyMutations Sample.env ([Sample.ownAlias].map .upsert)).run
      (.empty Sample.env) with
  | ok _ s =>
    have hnd := (upserts_ok_iff.1 ⟨s, hr⟩ _ mem_cons_self).2
    simp [hks] at hnd
  | error e s =>
    refine ⟨checkpoint, t, e, s, hag, hmatches, ht, ?_, rfl⟩
    refine List.eq_of_sorted_of_count (hcn.tabulated.index.sorted_getD _) (by simp) fun id => ?_
    have hm : recordMap [Sample.ownAlias] = (∅ : RecordMap NotamDetails).insert "A" Sample.ownAlias := rfl
    rw [hcn.tabulated.index.count, hrc, hmatches.content, hm, keysIn_insert, hks]
    by_cases hid : id = "A"
    · subst hid
      simp
    · rw [Function.update_of_ne hid]
      simp [keysIn, Ne.symm hid]

end Aerobag.Notam
