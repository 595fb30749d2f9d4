import Aerobag.Notam.Proofs.IndexProofs

/-!
# The derived parts of a NOTAM state

A state is `Consistent` when its derived parts are those of its records; there is one such state for
given records. In it a mutation succeeds exactly when it is `Admissible`, and leads to the
consistent state of the mutated records.
-/

open List

namespace Aerobag.Notam

open Command Inverted

variable {R : Type} {env : NotamEnv R} {records : RecordMap R} {id : String}
  {record : NotamRecord R} {cts : NotamCounters} {lf : Bytes}

def NotamMutation.outcome : NotamMutation R → Option (NotamRecord R)
  | upsert record => some record
  | remove _ => none

def NotamMutation.act (mutation : NotamMutation R) (records : RecordMap R) : RecordMap R :=
  records.put mutation.notamId mutation.outcome

theorem NotamMutation.getElem?_act (mutation : NotamMutation R) (records : RecordMap R)
    (id : String) : (mutation.act records)[id]? =
      if mutation.notamId = id then mutation.outcome else records[id]? :=
  Std.ExtTreeMap.getElem?_put ..

def actAll (mutations : List (NotamMutation R)) (records : RecordMap R) : RecordMap R :=
  mutations.foldl (fun records mutation => mutation.act records) records

/-- The mutation passes all checks: the identifier is valid, and an upserted record is valid and
names no airport twice. -/
def NotamMutation.Admissible (env : NotamEnv R) : NotamMutation R → Prop
  | upsert record => (∃ leaf, recordLeafHash env record = .ok leaf) ∧ record.airportKeys.Nodup
  | remove notamId => validateNotamId env notamId = .ok ()

namespace NotamCounters

@[ext] theorem ext {a b : NotamCounters} (hc : a.notamCount = b.notamCount)
    (har : a.airportNotamCount = b.airportNotamCount)
    (hml : a.airportNotamsWithMultipleEffects = b.airportNotamsWithMultipleEffects)
    (ho : a.airportNotamsWithOtherEffect = b.airportNotamsWithOtherEffect) : a = b := by
  cases a
  simp_all

@[simp] theorem notamCount_add (a b : NotamCounters) :
    (a + b).notamCount = a.notamCount + b.notamCount := rfl

@[simp] theorem airportNotamCount_add (a b : NotamCounters) :
    (a + b).airportNotamCount = a.airportNotamCount + b.airportNotamCount := rfl

@[simp] theorem airportNotamsWithMultipleEffects_add (a b : NotamCounters) :
    (a + b).airportNotamsWithMultipleEffects =
      a.airportNotamsWithMultipleEffects + b.airportNotamsWithMultipleEffects := rfl

@[simp] theorem airportNotamsWithOtherEffect_add (a b : NotamCounters) :
    (a + b).airportNotamsWithOtherEffect =
      a.airportNotamsWithOtherEffect + b.airportNotamsWithOtherEffect := rfl

instance : AddCommMonoid NotamCounters where
  add_assoc a b c := by ext <;> simp [Nat.add_assoc]
  add_comm a b := by ext <;> simp [Nat.add_comm]
  zero_add a := by ext <;> exact Nat.zero_add _
  add_zero a := by ext <;> exact Nat.add_zero _
  nsmul := nsmulRec

end NotamCounters

def countersOf (records : RecordMap R) : NotamCounters :=
  (records.toList.map fun entry => recordCounterContribution entry.2).sum

theorem countersOf_insert (hfr : records[id]? = none) (r : NotamRecord R) :
    countersOf (records.insert id r) = addRecordCounters (countersOf records) r := by
  unfold countersOf addRecordCounters
  rw [((Std.ExtTreeMap.toList_insert_perm hfr).map _).sum_eq, map_cons, sum_cons, add_comm]

theorem countersOf_erase (h : records[id]? = some record) :
    countersOf records = recordCounterContribution record + countersOf (records.erase id) := by
  unfold countersOf
  rw [((Std.ExtTreeMap.toList_erase_perm h).map _).sum_eq, map_cons, sum_cons]

structure AllValid (env : NotamEnv R) (records : RecordMap R) : Prop where
  keyed : ∀ {id : String} {record : NotamRecord R}, records[id]? = some record → record.id = id
  leaf : ∀ {id : String} {record : NotamRecord R}, records[id]? = some record →
    ∃ leaf, recordLeafHash env record = .ok leaf

theorem AllValid.act (h : AllValid env records) (m : NotamMutation R)
    (hv : ∀ r, m.outcome = some r → ∃ l, recordLeafHash env r = .ok l) :
    AllValid env (m.act records) := by
  constructor
  · intro id r hrc
    rw [m.getElem?_act] at hrc
    split at hrc
    · rename_i hid
      cases m with
      | upsert r' =>
        cases hrc
        exact hid
      | remove nid => cases hrc
    · exact h.keyed hrc
  · intro id r hrc
    rw [m.getElem?_act] at hrc
    split at hrc
    · exact hv r hrc
    · exact h.leaf hrc

structure Tabulated (records : RecordMap R) (counters : NotamCounters) (index : AirportIndex) :
    Prop where
  counters : counters = countersOf records
  index : Represents (keysIn NotamRecord.airportKeys records) index

theorem ends_checkedSub {get : NotamCounters → Nat} {set : Nat → NotamCounters → NotamCounters}
    {a : Nat} {msg : String} {Q} (h : a ≤ get cts) : Ends (checkedSub get set a msg) cts Q ↔
      Q (.ok ()) (set (get cts - a) cts) := by
  have hps : Except.rejectIf (get cts < a) (NotamStateError.invariant msg) = .ok () :=
    Except.rejectIf_eq_ok.2 h.not_gt
  simp [checkedSub, ends_get_bind, hps, attempt, pure_bind, ends_modify]

theorem subtractRecordCounters_ends (r : NotamRecord R) (rs : NotamCounters) :
    Ends (subtractRecordCounters r) (recordCounterContribution r + rs)
      fun res cs => res = .ok () ∧ cs = rs := by
  generalize hc : recordCounterContribution r = c
  unfold subtractRecordCounters
  simp only [hc]
  -- none of the four subtractions underflows
  refine ends_bind.2 ((ends_checkedSub (by simp)).2 ?_)
  refine ends_bind.2 ((ends_checkedSub (by simp)).2 ?_)
  refine ends_bind.2 ((ends_checkedSub (by simp)).2 ?_)
  refine (ends_checkedSub (by simp)).2 ⟨rfl, ?_⟩
  ext <;> simp

variable {s : NotamState R}

theorem takeOut_none {nid : String} (hn : s.records[nid]? = none) :
    Ends (takeOut nid) s fun res s' => res = .ok () ∧ s' = s := by
  unfold takeOut
  simp [ends_get_bind, hn, Std.ExtTreeMap.erase_eq_self hn]

theorem Tabulated.insert {i i' : AirportIndex} (h : Tabulated records cts i)
    (hfr : records[record.id]? = none)
    (hix : Represents (Function.update (keysIn NotamRecord.airportKeys records) record.id
      record.airportKeys) i') :
    Tabulated (records.insert record.id record) (addRecordCounters cts record) i' :=
  ⟨by rw [h.counters, countersOf_insert hfr], keysIn_insert NotamRecord.airportKeys records _ record ▸ hix⟩

theorem Tabulated.eq {cs' : NotamCounters} {i i' : AirportIndex}
    (h : Tabulated records cts i) (h' : Tabulated records cs' i') : cts = cs' ∧ i = i' :=
  ⟨h.counters.trans h'.counters.symm, h.index.eq h'.index⟩

theorem takeOut_ends (hv : AllValid env s.records)
    (h : Tabulated s.records s.counters s.byAirport) (n : String) :
    Ends (takeOut n) s fun res s' => res = .ok () ∧ ∃ cs i, s' = { s with
        records := s.records.erase n, counters := cs, byAirport := i } ∧
      Tabulated (s.records.erase n) cs i := by
  cases hold : s.records[n]? with
  | none =>
    refine (takeOut_none hold).imp ?_
    rintro _ s' ⟨hok, rfl⟩
    refine ⟨hok, s'.counters, s'.byAirport, ?_, ?_⟩
    · rw [Std.ExtTreeMap.erase_eq_self hold]
    · rwa [Std.ExtTreeMap.erase_eq_self hold]
  | some r =>
    have hid := hv.keyed hold
    have hks : (keysIn NotamRecord.airportKeys s.records r.id).Perm (entered r.airportIds) := by
      rw [keysIn, hid, hold]
      exact .refl _
    unfold takeOut
    simp only [ends_get_bind, hold, ends_modify_bind]
    refine ends_bind.2 (ends_zoom.2 ((removeFromAirportIndex_ends h.index hks).imp ?_))
    rintro _ i ⟨rfl, hix⟩
    refine ends_zoom.2 ?_
    simp only [h.counters, countersOf_erase hold]
    refine (subtractRecordCounters_ends r _).imp ?_
    rintro _ cs ⟨rfl, rfl⟩
    refine ⟨rfl, _, _, rfl, rfl, ?_⟩
    rwa [keysIn_erase, ← hid]

theorem recordLeafHash_eq_ok : recordLeafHash env record = .ok lf ↔
      ∃ cn, canonicalRecordBytes env record = .ok cn ∧ leafHash env record.id cn = lf := by
  simp only [recordLeafHash, Except.bind_eq_ok, Except.pure_eq_ok]

theorem putIn_ends (h : Tabulated s.records s.counters s.byAirport)
    (hfr : s.records[record.id]? = none) : Ends (putIn env record.id record) s fun
      | .ok _, s' => ∃ l i, recordLeafHash env record = .ok l ∧ record.airportKeys.Nodup ∧ s' = { s with
            merkle := s.merkle.insertLeaf env record.id l
            counters := addRecordCounters s.counters record
            byAirport := i
            records := s.records.insert record.id record } ∧
          Tabulated (s.records.insert record.id record) (addRecordCounters s.counters record) i
      | .error _, s' => (∃ l, recordLeafHash env record = .ok l) ∧ ¬ record.airportKeys.Nodup ∨
          (∀ l, recordLeafHash env record ≠ .ok l) ∧ s' = s := by
  have hn : keysIn NotamRecord.airportKeys s.records record.id = [] := by
    rw [keysIn, hfr]
    rfl
  refine ends_attempt_bind.2 ⟨fun _ _ => ?_, fun e he => ?_⟩
  · refine ends_attempt_bind.2 ⟨fun cn hcn => ?_, fun e he => ?_⟩
    · have hlf : recordLeafHash env record = .ok (leafHash env record.id cn) :=
        recordLeafHash_eq_ok.2 ⟨cn, hcn, rfl⟩
      have hin := insertIntoAirportIndex_ends h.index (hn ▸ nodup_nil) record.airportIds
      simp only [hn] at hin
      refine ends_modify_bind.2 (ends_bind.2 (ends_zoom.2 (hin.imp ?_)))
      intro res i hr
      cases res with
      | ok _ => exact ⟨_, i, hlf, hr.1, rfl, h.insert hfr hr.2⟩
      | error e => exact .inl ⟨⟨_, hlf⟩, hr⟩
    · refine .inr ⟨fun l hlf => ?_, rfl⟩
      obtain ⟨cn, hcn, -⟩ := recordLeafHash_eq_ok.1 hlf
      rw [he] at hcn
      cases hcn
  · simp [Except.rejectIf] at he

def leafOf (env : NotamEnv R) (records : RecordMap R) (id : String) : Option Bytes :=
  records[id]?.bind fun record => (recordLeafHash env record).toOption

theorem leafOf_eq_some : leafOf env records id = some lf ↔
      ∃ r, records[id]? = some r ∧ recordLeafHash env r = .ok lf := by
  simp [leafOf, Option.bind_eq_some_iff, Except.toOption_eq_some]

/-- The leaf of every record is in the bucket of its identifier, and there is no other leaf. -/
def Leaves (env : NotamEnv R) (records : RecordMap R) (merkle : NotamMerkleIndex) : Prop :=
  ∀ bucket id, (merkle.bucketMembers bucket)[id]? =
    if bucketForId env id = bucket then leafOf env records id else none

namespace NotamMerkleIndex

theorem groupHash_update {g : Fin groupCount} {b : Fin bucketCount}
    (hgr : g.val ≠ b / bucketsPerGroup) (hs : Fin bucketCount → Bytes) (h : Bytes) :
    groupHash env g (Function.update hs b h) = groupHash env g hs := by
  have ho : ∀ i, bucketAt g i ≠ b := by
    rintro i rfl
    have hi := i.isLt
    simp only [bucketAt, bucketsPerGroup, bucketCount, groupCount] at hgr hi
    omega
  simp [groupHash, groupMessage, Function.update_of_ne (ho _)]

/-- After a change to one bucket the hashes along its path make the tree the recomputed one. -/
theorem recomputePath_eq {m : NotamMerkleIndex} (h : m.recomputeAll env = m)
    (bk : Fin bucketCount) (ms : Bucket) : recomputePath env { m with
      bucketMembers := Function.update m.bucketMembers bk ms } bk =
    recomputeAll env { m with bucketMembers := Function.update m.bucketMembers bk ms } := by
  have hbu : ∀ b, m.bucketHashes b = bucketHash env b (m.bucketMembers b) := fun b =>
    (congrFun (congrArg bucketHashes h) b).symm
  have hgr : ∀ g, m.groupHashes g = groupHash env g m.bucketHashes := by
    intro g
    rw [funext hbu]
    exact (congrFun (congrArg groupHashes h) g).symm
  have hpt : (fun b : Fin bucketCount =>
      bucketHash env b (Function.update m.bucketMembers bk ms b)) =
      Function.update m.bucketHashes bk (bucketHash env bk ms) := by
    funext b
    by_cases hb : b = bk
    · subst hb
      simp
    · simp [hb, hbu]
  simp only [recomputePath, recomputeAll, Function.update_self, hpt]
  congr 1
  funext group
  by_cases hgroup : group.val = bk / bucketsPerGroup
  · rw [show group = ⟨bk / bucketsPerGroup, hgroup ▸ group.isLt⟩ from Fin.ext hgroup]
    simp
  · rw [groupHash_update hgroup, Function.update_of_ne (fun h => hgroup (congrArg Fin.val h)), hgr]

end NotamMerkleIndex

theorem leafOf_act (m : NotamMutation R) (rs : RecordMap R) (id : String) :
    leafOf env (m.act rs) id = if m.notamId = id then
      m.outcome.bind (fun r => (recordLeafHash env r).toOption) else leafOf env rs id := by
  unfold leafOf
  rw [m.getElem?_act]
  split <;> rfl

theorem getElem?_insert_leaf (hlf : recordLeafHash env record = .ok lf) (rs : RecordMap R)
    (ms : Bucket) (id : String) : (ms.insert record.id lf)[id]? =
      if (NotamMutation.upsert record).notamId = id then
        leafOf env ((NotamMutation.upsert record).act rs) id else ms[id]? := by
  rw [leafOf_act, Std.ExtTreeMap.getElem?_insert]
  by_cases hsm : record.id = id <;>
    simp [hsm, NotamMutation.notamId, NotamMutation.outcome, hlf, Except.toOption]

theorem Leaves.act {mr : NotamMerkleIndex} (h : Leaves env records mr)
    (m : NotamMutation R) {ms : Bucket}
    (hmm : ∀ id, ms[id]? = if m.notamId = id then leafOf env (m.act records) id
      else (mr.bucketMembers (bucketForId env m.notamId))[id]?) :
    Leaves env (m.act records) { mr with
      bucketMembers := Function.update mr.bucketMembers (bucketForId env m.notamId) ms } := by
  intro b id
  change (Function.update mr.bucketMembers _ ms b)[id]? = _
  by_cases hbucket : b = bucketForId env m.notamId
  · subst hbucket
    rw [Function.update_self, hmm]
    by_cases hid : m.notamId = id
    · subst hid
      simp
    · rw [if_neg hid, h, leafOf_act, if_neg hid]
  · rw [Function.update_of_ne hbucket, h]
    by_cases hid : m.notamId = id
    · subst hid
      simp [Ne.symm hbucket]
    · rw [leafOf_act, if_neg hid]

/-- The leaf, bucket, group and state hashes are those of the records and the counters. -/
structure Identified (env : NotamEnv R) (s : NotamState R) : Prop where
  valid : AllValid env s.records
  leaves : Leaves env s.records s.merkle
  hashed : s.merkle.recomputeAll env = s.merkle
  stateHash : s.stateHash = rootHash env s.merkle.groupHashes s.counters
  stateId : s.stateId = hexBytes s.stateHash

structure Consistent (env : NotamEnv R) (s : NotamState R) : Prop extends Identified env s where
  tabulated : Tabulated s.records s.counters s.byAirport

namespace Consistent

theorem eq {s t : NotamState R} (hs : Consistent env s) (ht : Consistent env t)
    (hrc : s.records = t.records) : s = t := by
  obtain ⟨hct, hix⟩ := hs.tabulated.eq (hrc ▸ ht.tabulated)
  have hmm : s.merkle.bucketMembers = t.merkle.bucketMembers := by
    funext b
    refine Std.ExtTreeMap.ext_getElem? fun id => ?_
    rw [hs.leaves, ht.leaves, hrc]
  have hmr : s.merkle = t.merkle := by
    rw [← hs.hashed, ← ht.hashed]
    simp [NotamMerkleIndex.recomputeAll, hmm]
  have hha : s.stateHash = t.stateHash := by rw [hs.stateHash, ht.stateHash, hmr, hct]
  have hid : s.stateId = t.stateId := by rw [hs.stateId, ht.stateId, hha]
  cases s
  simp_all

theorem act (h : Consistent env s) (m : NotamMutation R) {ms : Bucket}
    {cs : NotamCounters} {i : AirportIndex} (hv : ∀ r, m.outcome = some r → ∃ l, recordLeafHash env r = .ok l)
    (ht : Tabulated (m.act s.records) cs i)
    (hmm : ∀ id, ms[id]? = if m.notamId = id then leafOf env (m.act s.records) id
      else (s.merkle.bucketMembers (bucketForId env m.notamId))[id]?) :
    Consistent env (recomputeAfterBucket env (bucketForId env m.notamId) { s with
      records := m.act s.records
      counters := cs
      byAirport := i
      merkle := { s.merkle with
        bucketMembers :=
          Function.update s.merkle.bucketMembers (bucketForId env m.notamId) ms } }) := by
  unfold recomputeAfterBucket
  simp only [NotamMerkleIndex.recomputePath_eq h.hashed]
  exact ⟨⟨h.valid.act m hv, h.leaves.act m hmm, rfl, rfl, rfl⟩, ht⟩

theorem empty : Consistent env (.empty env : NotamState R) := by
  have hrc : (NotamState.empty env).records = ∅ := rfl
  have hix : (NotamState.empty env).byAirport = ∅ := rfl
  refine ⟨⟨?_, ?_, rfl, rfl, rfl⟩, ⟨?_, ?_, ?_, ?_⟩⟩
  · constructor <;> simp [hrc]
  · intro b id
    change (∅)[id]? = _
    simp [hrc, leafOf]
  · rfl
  · simp [hix]
  · simp [hix]
  · simp [hix, hrc, keysIn]

end Consistent

/-- The mutation cannot be refused after the old record has been taken out. -/
def NotamMutation.Safe (env : NotamEnv R) (records : RecordMap R) : NotamMutation R → Prop
  | upsert record => if (canonicalRecordBytes env record).isOk then record.airportKeys.Nodup
      else records[record.id]? = none
  | remove _ => True

theorem validateNotamId_of_leaf (h : recordLeafHash env record = .ok lf) :
    validateNotamId env record.id = .ok () := by
  obtain ⟨cn, hcn, -⟩ := recordLeafHash_eq_ok.1 h
  obtain ⟨_, hid, -⟩ := Except.bind_eq_ok.1 hcn
  exact hid

theorem admissible_id {m : NotamMutation R} (h : m.Admissible env) :
    validateNotamId env m.notamId = .ok () := by
  cases m with
  | upsert r =>
    obtain ⟨⟨l, hlf⟩, -⟩ := h
    exact validateNotamId_of_leaf hlf
  | remove nid => exact h

/-- A mutation succeeds if it is admissible, and then ends in the consistent state of the mutated
records. A mutation that is refused changes nothing if it is safe. -/
theorem applyMutation_ends (h : Consistent env s) (m : NotamMutation R) :
    Ends (applyMutation env m) s fun
      | .ok _, s' => m.Admissible env ∧ Consistent env s' ∧ s'.records = m.act s.records
      | .error _, s' => ¬ m.Admissible env ∧ (m.Safe env s.records → s' = s) := by
  refine ends_attempt_bind.2 ⟨fun _ hid => ?_, fun e he => ?_⟩
  · refine ends_bind.2 ((takeOut_ends h.valid h.tabulated m.notamId).imp ?_)
    rintro _ s₁ ⟨rfl, cs, i, rfl, ht⟩
    cases m with
    | remove nid =>
      refine ends_modify_bind.2 (ends_modify.2 ⟨hid, ?_, rfl⟩)
      refine h.act (.remove nid) (by rintro _ ⟨⟩) ht fun id => ?_
      rw [leafOf_act, Std.ExtTreeMap.getElem?_erase]
      by_cases hsm : nid = id <;> simp [hsm, NotamMutation.notamId, NotamMutation.outcome]
    | upsert r =>
      have hfr : (s.records.erase r.id)[r.id]? = none := by simp
      refine ends_bind.2 ((putIn_ends ht hfr).imp ?_)
      intro res s₂ hr
      cases res with
      | ok _ =>
        obtain ⟨l, i', hlf, hks, rfl, ht'⟩ := hr
        have hac : (s.records.erase (NotamMutation.upsert r).notamId).insert r.id r =
            (NotamMutation.upsert r).act s.records := Std.ExtTreeMap.insert_erase
        simp only [hac] at ht' ⊢
        refine ends_modify.2 ⟨⟨⟨l, hlf⟩, hks⟩, ?_, rfl⟩
        refine h.act (.upsert r) ?_ ht' fun id => ?_
        · rintro _ ⟨⟩
          exact ⟨l, hlf⟩
        · exact getElem?_insert_leaf hlf s.records _ id
      | error e =>
        rcases hr with ⟨⟨l, hlf⟩, hks⟩ | ⟨hlf, rfl⟩
        · refine ⟨fun had => hks had.2, fun hsf => absurd ?_ hks⟩
          obtain ⟨cn, hcn, -⟩ := recordLeafHash_eq_ok.1 hlf
          simpa [NotamMutation.Safe, hcn, Except.toBool] using hsf
        · refine ⟨fun had => had.1.elim hlf, fun hsf => ?_⟩
          have hat : s.records[r.id]? = none := by
            cases hcn : canonicalRecordBytes env r with
            | ok cn => exact absurd (recordLeafHash_eq_ok.2 ⟨_, hcn, rfl⟩) (hlf _)
            | error e => simpa [NotamMutation.Safe, hcn, Except.toBool] using hsf
          -- the identifier had no record, so that nothing was taken out
          have hsm : s.records.erase (NotamMutation.upsert r).notamId = s.records :=
            Std.ExtTreeMap.erase_eq_self hat
          rw [hsm] at ht ⊢
          obtain ⟨rfl, rfl⟩ := ht.eq h.tabulated
          rfl
  · refine ⟨fun had => ?_, fun _ => rfl⟩
    rw [admissible_id had] at he
    cases he

theorem applyMutations_ends (h : Consistent env s) (ms : List (NotamMutation R)) :
    Ends (applyMutations env ms) s fun
      | .ok _, s' => (∀ m ∈ ms, m.Admissible env) ∧ Consistent env s' ∧
          s'.records = actAll ms s.records
      | .error _, _ => ∃ m ∈ ms, ¬ m.Admissible env := by
  induction ms generalizing s with
  | nil => exact ends_pure.2 ⟨by simp, h, rfl⟩
  | cons m rs ih =>
    refine ends_bind.2 ((applyMutation_ends h m).imp ?_)
    intro res s₁ hrs
    cases res with
    | error e => exact ⟨m, mem_cons_self, hrs.1⟩
    | ok _ =>
      obtain ⟨had, h₁, hrc⟩ := hrs
      refine (ih h₁).imp ?_
      intro res s₂ hrs
      cases res with
      | error e =>
        obtain ⟨r, hm, hrf⟩ := hrs
        exact ⟨r, mem_cons_of_mem _ hm, hrf⟩
      | ok _ =>
        obtain ⟨hr, h₂, hr₂⟩ := hrs
        refine ⟨forall_mem_cons.2 ⟨had, hr⟩, h₂, ?_⟩
        rw [hr₂, hrc]
        rfl

theorem applyMutations_run (h : Consistent env s) {ms : List (NotamMutation R)}
    {t : NotamState R} : (applyMutations env ms).run s = .ok () t ↔
      (∀ m ∈ ms, m.Admissible env) ∧ Consistent env t ∧ t.records = actAll ms s.records := by
  have hen := applyMutations_ends h ms
  refine ⟨fun hr => hen.of_ok hr, fun ⟨had, ht, hrc⟩ => ?_⟩
  cases hr : (applyMutations env ms).run s with
  | error e s' =>
    obtain ⟨m, hm, hrf⟩ := hen.of_error hr
    exact absurd (had m hm) hrf
  | ok _ s' =>
    obtain ⟨-, hs', hrc'⟩ := hen.of_ok hr
    rw [hs'.eq ht (hrc'.trans hrc.symm)]

end Aerobag.Notam
