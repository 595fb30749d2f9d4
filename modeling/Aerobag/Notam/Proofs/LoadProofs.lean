import Aerobag.Lib.Lists
import Aerobag.Notam.Proofs.StateProofs

/-!
# Loading records in bulk

`from_checkpoint` and `recompute_record_identity` go over records in order and hash the tree once at
the end. They arrive at the consistent state of the records.
-/

open List

namespace Aerobag.Notam

open Command Inverted

variable {R : Type} {env : NotamEnv R} {sl : Loading R} {rec : NotamRecord R}
  {recs : List (NotamRecord R)} {t : NotamState R}

def recordMap (records : List (NotamRecord R)) : RecordMap R :=
  Std.ExtTreeMap.insertAll (·.id) ∅ records

def recordList (records : RecordMap R) : List (NotamRecord R) := records.valueList

def Ascending (records : List (NotamRecord R)) : Prop :=
  records.Pairwise fun a b => a.id < b.id

/-- The loop variables are those of the records read so far. -/
structure Loaded (env : NotamEnv R) (l : Loading R) : Prop where
  valid : AllValid env l.records
  tabulated : Tabulated l.records l.counters l.byAirport
  leaves : Leaves env l.records l.merkle

theorem Loaded.start : Loaded env (⟨.empty env, 0, ∅, ∅⟩ : Loading R) :=
  have h : Consistent env (.empty env) := .empty
  ⟨h.valid, h.tabulated, h.leaves⟩

theorem Loaded.add (h : Loaded env sl)
    (hl : ∀ id r', sl.records[id]? = some r' → id < rec.id) {l : Bytes}
    (hlf : recordLeafHash env rec = .ok l) : Loaded env {
      merkle := sl.merkle.insertLeaf env rec.id l
      counters := addRecordCounters sl.counters rec
      records := sl.records.insert rec.id rec
      byAirport := pushAirports rec.id rec.airportIds sl.byAirport } := by
  have hfr : sl.records[rec.id]? = none := by
    cases hsm : sl.records[rec.id]? with
    | none => rfl
    | some r' => exact absurd (hl _ _ hsm) (lt_irrefl _)
  have hn : keysIn NotamRecord.airportKeys sl.records rec.id = [] := by
    rw [keysIn, hfr]
    rfl
  have hks : ∀ id ap, ap ∈ keysIn NotamRecord.airportKeys sl.records id → id ≤ rec.id := by
    intro id ap har
    cases hsm : sl.records[id]? with
    | none => simp [keysIn, hsm] at har
    | some r' => exact (hl _ _ hsm).le
  have hix := pushAirports_represents h.tabulated.index hks rec.airportIds
  rw [hn] at hix
  refine ⟨h.valid.act (.upsert rec) ?_, h.tabulated.insert hfr hix,
    h.leaves.act (.upsert rec) (getElem?_insert_leaf hlf sl.records _)⟩
  rintro _ ⟨⟩
  exact ⟨l, hlf⟩

/-- One record is loaded, or refused. -/
theorem add_ends (h : Loaded env sl) (hl : ∀ id r', sl.records[id]? = some r' → id < rec.id) :
    match sl.add env rec with
    | .ok loaded => (∃ l, recordLeafHash env rec = .ok l) ∧ Loaded env loaded ∧
        loaded.records = sl.records.insert rec.id rec
    | .error _ => ∀ l, recordLeafHash env rec ≠ .ok l := by
  unfold Loading.add
  cases hcn : canonicalRecordBytes env rec with
  | error e =>
    intro l hlf
    obtain ⟨cn, hok, -⟩ := recordLeafHash_eq_ok.1 hlf
    rw [hcn] at hok
    cases hok
  | ok cn =>
    have hlf := recordLeafHash_eq_ok.2 ⟨cn, hcn, rfl⟩
    exact ⟨⟨_, hlf⟩, h.add hl hlf, rfl⟩

/-- The loop over the records of a checkpoint. -/
theorem foldlM_add {s : Loading R} (h : Loaded env s) (hac : Ascending recs)
    (hl : ∀ id r', s.records[id]? = some r' → ∀ r ∈ recs, id < r.id) :
    match recs.foldlM (Loading.add env) s with
    | .ok l => (∀ r ∈ recs, ∃ lf, recordLeafHash env r = .ok lf) ∧
        Loaded env l ∧ l.records = Std.ExtTreeMap.insertAll (·.id) s.records recs
    | .error _ => ∃ r ∈ recs, ∀ lf, recordLeafHash env r ≠ .ok lf := by
  induction recs generalizing s with
  | nil => exact ⟨by simp, h, rfl⟩
  | cons r rs ih =>
    obtain ⟨hf, hr⟩ := pairwise_cons.1 hac
    have had := add_ends h fun id r' hid => hl id r' hid r mem_cons_self
    rw [foldlM_cons]
    cases hnx : s.add env r with
    | error e =>
      rw [hnx] at had
      exact ⟨r, mem_cons_self, had⟩
    | ok next =>
      rw [hnx] at had
      obtain ⟨hlf, hld, hrc⟩ := had
      have hl' : ∀ id r', next.records[id]? = some r' → ∀ r ∈ rs, id < r.id := by
        intro id r' hid la hla
        rw [hrc, Std.ExtTreeMap.getElem?_insert] at hid
        split at hid
        · rename_i hsm
          rw [← Std.LawfulEqCmp.eq_of_compare hsm]
          exact hf la hla
        · exact hl id r' hid la (mem_cons_of_mem _ hla)
      have hlp := ih hld hr hl'
      change match rs.foldlM (Loading.add env) next with | .ok l => _ | .error _ => _
      cases he : rs.foldlM (Loading.add env) next with
      | error e =>
        rw [he] at hlp
        obtain ⟨bad, hm, hbd⟩ := hlp
        exact ⟨bad, mem_cons_of_mem _ hm, hbd⟩
      | ok l =>
        rw [he] at hlp
        obtain ⟨hlv, hld', hal⟩ := hlp
        exact ⟨forall_mem_cons.2 ⟨hlf, hlv⟩, hld', by rw [hal, hrc]; rfl⟩

theorem recordList_ascending {rs : RecordMap R} (hv : AllValid env rs) :
    Ascending (recordList rs) :=
  Std.ExtTreeMap.valueList_ascending hv.keyed

theorem recordMap_eq_some (hac : Ascending recs) {id : String} :
    (recordMap recs)[id]? = some rec ↔ rec ∈ recs ∧ rec.id = id := by
  rw [recordMap, Std.ExtTreeMap.insertAll_eq_some hac]
  simp

theorem recordMap_recordList {rs : RecordMap R} (hv : AllValid env rs) :
    recordMap (recordList rs) = rs :=
  Std.ExtTreeMap.insertAll_valueList hv.keyed

theorem validateIdOrder_eq_ok {l : String} {p : Option String} {ids : List String}
    {u : Unit} : validateIdOrder env l p ids = .ok u ↔
      (∀ id ∈ ids, validateNotamId env id = .ok ()) ∧ ids.Pairwise (· < ·) ∧
        ∀ b ∈ p, ∀ id ∈ ids, b < id := by
  refine Lists.ascending_iff (f := id)
    (P := fun p ids => validateIdOrder env l p ids = .ok u) .trans rfl ?_
  intro p id r
  cases p <;> simp [validateIdOrder, Except.bind_eq_ok, Unique.exists_iff]

theorem Loaded.consistent {l : Loading R} (h : Loaded env l) :
    Consistent env (.ofParts env l.counters l.records l.byAirport (l.merkle.recomputeAll env)) :=
  ⟨⟨h.valid, h.leaves, rfl, rfl, rfl⟩, h.tabulated⟩

/-- When a checkpoint is accepted, and the state that it gives. -/
theorem fromCheckpoint_eq_ok {cp : NotamCheckpoint R} : NotamState.fromCheckpoint env cp = .ok t ↔
      validateContract cp.schemaVersion cp.product cp.contractVersion = .ok () ∧
      Ascending cp.records ∧ (∀ r ∈ cp.records, ∃ lf, recordLeafHash env r = .ok lf) ∧
      Consistent env t ∧ t.records = recordMap cp.records ∧
      t.stateId = cp.stateId ∧ t.counters = cp.counters := by
  have his : (cp.records.map (·.id)).Pairwise (· < ·) ↔ Ascending cp.records := pairwise_map
  simp only [NotamState.fromCheckpoint, Except.bind_eq_ok, validateRecordOrder,
    validateIdOrder_eq_ok, NotamState.requireTarget, Except.rejectIf_eq_ok, Except.pure_eq_ok, his,
    not_not]
  constructor
  · rintro ⟨_, hcn, _, ⟨-, hac, -⟩, l, hlo, _, ⟨_, hct, hid⟩, rfl⟩
    have hlp := foldlM_add (.start : Loaded env _) hac (by simp)
    rw [hlo] at hlp
    obtain ⟨hlv, hld, hrc⟩ := hlp
    exact ⟨hcn, hac, hlv, hld.consistent, hrc, hid, hct⟩
  · rintro ⟨hcn, hac, hlv, ht, hrc, hid, hct⟩
    have hv : ∀ id ∈ cp.records.map (·.id), validateNotamId env id = .ok () := by
      simp only [List.forall_mem_map]
      intro r hm
      obtain ⟨lf, hlf⟩ := hlv r hm
      exact validateNotamId_of_leaf hlf
    have hlp := foldlM_add (.start : Loaded env _) hac (by simp)
    cases hlo : cp.records.foldlM (Loading.add env) ⟨.empty env, 0, ∅, ∅⟩ with
    | error e =>
      rw [hlo] at hlp
      obtain ⟨r, hm, hbd⟩ := hlp
      obtain ⟨lf, hlf⟩ := hlv r hm
      exact absurd hlf (hbd lf)
    | ok l =>
      rw [hlo] at hlp
      obtain ⟨-, hld, hl⟩ := hlp
      have hsm := hld.consistent.eq ht (hl.trans hrc.symm)
      refine ⟨(), hcn, (), ⟨hv, hac, by simp⟩, l, rfl, (), ?_, hsm⟩
      rw [hsm]
      exact ⟨(), hct, hid⟩

/-- The loop of `recompute_record_identity` is a part of that of `from_checkpoint`. -/
theorem foldlM_addIdentity (env : NotamEnv R) (l : Loading R) (rs : List (NotamRecord R)) :
    rs.foldlM (addIdentity env) (l.merkle, l.counters) =
      (rs.foldlM (Loading.add env) l).map fun l => (l.merkle, l.counters) := by
  induction rs generalizing l with
  | nil => rfl
  | cons r rst ih =>
    rw [foldlM_cons, foldlM_cons, addIdentity, Loading.add]
    cases canonicalRecordBytes env r with
    | error e => rfl
    | ok cn =>
      exact ih ⟨l.merkle.insertLeaf env r.id (leafHash env r.id cn),
        addRecordCounters l.counters r, l.records.insert r.id r,
        pushAirports r.id r.airportIds l.byAirport⟩

theorem recomputeRecordIdentity_eq_ok (hac : Ascending recs) (ht : Consistent env t)
    (hre : t.records = recordMap recs) :
    recomputeRecordIdentity env recs = .ok (t.stateId, t.counters) := by
  have hlp := foldlM_add (.start : Loaded env _) hac (by simp)
  have hid := foldlM_addIdentity env ⟨.empty env, 0, ∅, ∅⟩ recs
  unfold recomputeRecordIdentity
  rw [hid]
  cases hld : recs.foldlM (Loading.add env) ⟨.empty env, 0, ∅, ∅⟩ with
  | error e =>
    rw [hld] at hlp
    obtain ⟨r, hm, hbd⟩ := hlp
    have hrc : t.records[r.id]? = some r := by
      rw [hre]
      exact (recordMap_eq_some hac).2 ⟨hm, rfl⟩
    obtain ⟨lf, hlf⟩ := ht.valid.leaf hrc
    exact absurd hlf (hbd lf)
  | ok l =>
    rw [hld] at hlp
    obtain ⟨-, hlo, hl⟩ := hlp
    rw [← hlo.consistent.eq ht (hl.trans hre.symm)]
    rfl

theorem Consistent.recompute (ht : Consistent env t) :
    recomputeRecordIdentity env (recordList t.records) = .ok (t.stateId, t.counters) :=
  recomputeRecordIdentity_eq_ok (recordList_ascending ht.valid) ht
    (recordMap_recordList ht.valid).symm

end Aerobag.Notam
