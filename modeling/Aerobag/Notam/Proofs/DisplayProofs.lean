import Aerobag.Notam.Proofs.CheckpointProofs

/-!
# Displayed NOTAMs follow the canonical state

`Shows index records` says what the index of a session is. There is one for given records and label,
so that it does not matter whether it follows projected deltas. What the projection can still miss
in a valid record is `Presentable`.
-/

namespace Aerobag.Notam

open Command Inverted

/-! ## The lookups -/

variable {K : Type} {ix : NotamDisplayIndex} {record : NotamRecord NotamDetails} {u : Unit}
  {mutation : NotamDisplayMutation} {pj : NotamDisplayRecord}

section Lookup

variable {K : Type} [DecidableEq K] [Ord K] [Std.TransOrd K] [Std.LawfulEqOrd K]
  {keys : String → List K} {ix : DisplayLookup K} {notamId : String}

theorem insertProjectedNotamId_ends (h : Represents keys ix) (key : K) :
    Ends (insertProjectedNotamId notamId key) ix fun
      | .ok _, index' => key ∉ keys notamId ∧
          Represents (Function.update keys notamId (keys notamId ++ [key])) index'
      | .error _, _ => key ∈ keys notamId := by
  unfold insertProjectedNotamId
  simp only [ends_modify_bind, ends_get_bind, Std.ExtTreeMap.getD_insert_self]
  unfold binarySearch
  by_cases hm : notamId ∈ ix.getD key []
  · simp only [hm]
    exact h.mem_iff.1 hm
  · simp only [hm, if_false, ends_modify]
    refine ⟨fun hk => hm (h.mem_iff.2 hk), ?_⟩
    have hst := h.set notamId key (List.sorted_insertIdx (h.sorted_getD key)) fun id' =>
      List.count_insertIdx_takeWhile id'
    rwa [Std.ExtTreeMap.insert_insert]

theorem forM_insertProjectedNotamId {ks : String → List K} {i : Std.ExtTreeMap K (List String) compare}
    (h : Represents ks i) (a : List K)
    (hnd : (ks notamId ++ a).Nodup) : Ends (a.forM (insertProjectedNotamId notamId)) i fun r i' =>
      r = .ok () ∧ Represents (Function.update ks notamId (ks notamId ++ a)) i' := by
  induction a generalizing ks i with
  | nil =>
    rw [List.append_nil, Function.update_eq_self]
    exact ⟨rfl, h⟩
  | cons key rs ih =>
    have hfr : key ∉ ks notamId := fun hk => List.disjoint_of_nodup_append hnd hk List.mem_cons_self
    refine (insertProjectedNotamId_ends h key).bind (fun _ i' ⟨_, h'⟩ => ?_)
      fun _ _ hk => absurd hk hfr
    have hsl : Function.update ks notamId (ks notamId ++ [key]) notamId =
        ks notamId ++ [key] := Function.update_self ..
    have hr := ih h' (by rwa [hsl, List.append_assoc])
    rwa [hsl, Function.update_idem, List.append_assoc] at hr

theorem forM_removeProjectedNotamId {ks : String → List K} {i : Std.ExtTreeMap K (List String) compare}
    (d : K → String) (h : Represents ks i)
    {r : List K} (hks : (ks notamId).Perm r) :
    Ends (r.forM (removeProjectedNotamId d notamId)) i fun res i' =>
      res = .ok () ∧ Represents (Function.update ks notamId []) i' := by
  induction r generalizing ks i with
  | nil =>
    have hsm : Function.update ks notamId [] = ks := by
      rw [← List.perm_nil.1 hks, Function.update_eq_self]
    rw [hsm]
    exact ⟨rfl, h⟩
  | cons key rs ih =>
    have hm : notamId ∈ i.getD key [] := h.mem_iff.2 (hks.mem_iff.2 List.mem_cons_self)
    have hsl : Function.update ks notamId ((ks notamId).erase key) notamId =
        (ks notamId).erase key := Function.update_self ..
    have hr : ((ks notamId).erase key).Perm rs := by
      have hpr := hks.erase key
      rwa [List.erase_cons_head] at hpr
    rw [Std.ExtTreeMap.getD_eq_getD_getElem?] at hm
    change Ends (removeProjectedNotamId d notamId key >>= _) i _
    rw [removeProjectedNotamId]
    cases his : i[key]? with
    | none => simp [his] at hm
    | some ids =>
      rw [his, Option.getD_some] at hm
      simp only [bind_assoc, ends_get_bind, his, binarySearch, hm, if_true,
        List.eraseIdx_idxOf_eq_erase]
      have hrc := ih (h.unset notamId his) (by rwa [hsl])
      rwa [Function.update_idem] at hrc

end Lookup

/-! ## The index -/

abbrev DisplayMap := Std.ExtTreeMap String NotamDisplayRecord

/-- The index holds the records and looks them up by all their keys. -/
structure Shows (index : NotamDisplayIndex) (records : DisplayMap) : Prop where
  content : index.records = records
  airports : Represents (keysIn (·.airportKeys) records) index.byAirport
  subjects : Represents (keysIn (·.subjects.toList) records) index.bySubject
  procedures : Represents (keysIn (·.procedureRendezvousKeys.toList) records) index.byProcedure

theorem Shows.empty (vl : String) : Shows (.empty vl) ∅ := by
  have hks : ∀ {K : Type} (ks : NotamDisplayRecord → List K),
      keysIn ks ∅ = fun _ => [] := fun ks => funext fun id => by simp [keysIn]
  refine ⟨rfl, ?_, ?_, ?_⟩
  · exact .empty
  · exact .empty
  · exact .empty

variable {i' : NotamDisplayIndex}

theorem Shows.eq {rs : DisplayMap} (h : Shows ix rs)
    (h' : Shows i' rs) (hlb : ix.versionLabel = i'.versionLabel) : ix = i' := by
  have har := h.airports.eq h'.airports
  have hsb := h.subjects.eq h'.subjects
  have hpr := h.procedures.eq h'.procedures
  have hcn := h.content.trans h'.content.symm
  cases ix
  simp_all

variable {env : NotamEnv NotamDetails} {debug : KeyDebug} {ix : NotamDisplayIndex}
  {records : DisplayMap}

/-- A notice is removed from all indexes. -/
theorem remove_ends (h : Shows ix records) (n : String) :
    Ends (NotamDisplayIndex.remove env debug n) ix fun res i' =>
      res = .ok () ∧ Shows i' (records.erase n) ∧ i'.versionLabel = ix.versionLabel := by
  unfold NotamDisplayIndex.remove
  simp only [ends_get_bind, ends_modify_bind, h.content]
  cases hold : records[n]? with
  | none =>
    rw [Std.ExtTreeMap.erase_eq_self hold]
    exact ⟨rfl, ⟨rfl, h.airports, h.subjects, h.procedures⟩, rfl⟩
  | some r =>
    have hks : ∀ {K : Type} (ks : NotamDisplayRecord → List K),
        (keysIn ks records n).Perm (ks r) := fun ks => by
      simp [keysIn, hold]
    refine .zoom_bind (forM_removeProjectedNotamId env.debug h.airports (hks _)) fun ba har => ?_
    refine .zoom_bind (forM_removeProjectedNotamId debug.procedure h.procedures (hks _))
      fun bp hpr => ?_
    refine ends_zoom.2 ((forM_removeProjectedNotamId debug.subject h.subjects (hks _)).imp ?_)
    rintro _ bs ⟨rfl, hsb⟩
    refine ⟨rfl, ⟨rfl, ?_, ?_, ?_⟩, rfl⟩
    · rwa [keysIn_erase]
    · rwa [keysIn_erase]
    · rwa [keysIn_erase]

theorem nodup_toList_set [Ord K] [Std.TransOrd K] (set : Std.ExtTreeSet K) : set.toList.Nodup := by
  refine Std.ExtTreeSet.distinct_toList.imp ?_
  rintro a b hne rfl
  exact hne Std.ReflCmp.compare_self

variable {r : NotamDisplayRecord}

theorem nodup_airportKeys (h : validateAirportAliases env r.airportId r.airportAliases = .ok ()) :
    r.airportKeys.Nodup := by
  have hal : ∀ ai ∈ r.airportAliases.toList, badAlias r.airportId ai = false := fun ai hm => by
    simpa using Except.forM_eq_ok.1 h ai hm
  refine List.nodup_append.2 ⟨?_, nodup_toList_set _, ?_⟩
  · cases r.airportId <;> simp
  · rintro a har ai hs rfl
    have hgd := hal a hs
    rw [Option.mem_toList] at har
    simp [badAlias, har] at hgd

/-- A notice is entered into all indexes, or refused. -/
theorem upsert_ends (h : Shows ix records) (r : NotamDisplayRecord) :
    Ends (NotamDisplayIndex.upsert env debug r) ix fun
      | .ok _, index' => validateProjectionRecord env r = .ok () ∧
          Shows index' (records.insert r.id r) ∧ index'.versionLabel = ix.versionLabel
      | .error _, _ => validateProjectionRecord env r ≠ .ok () := by
  refine ends_attempt_bind.2 ⟨fun _ hv => ?_, fun e he => by simp [he]⟩
  have hal : validateAirportAliases env r.airportId r.airportAliases = .ok () :=
    (Except.bind_eq_ok.1 hv).choose_spec.1
  refine ends_bind.2 ((remove_ends h r.id).imp ?_)
  rintro _ b ⟨rfl, hbr, hlb⟩
  have hn : ∀ {K : Type} (ks : NotamDisplayRecord → List K),
      keysIn ks (records.erase r.id) r.id = [] := fun ks => by simp [keysIn]
  have hin : ∀ {K : Type} (ks : NotamDisplayRecord → List K),
      keysIn ks (records.insert r.id r) =
        Function.update (keysIn ks (records.erase r.id)) r.id (ks r) := by
    intro K ks
    rw [← keysIn_insert, Std.ExtTreeMap.insert_erase]
  refine .zoom_bind (forM_insertProjectedNotamId hbr.airports r.airportKeys ?_) fun ba har => ?_
  · rw [hn]
    exact nodup_airportKeys hal
  refine .zoom_bind (forM_insertProjectedNotamId hbr.procedures
    r.procedureRendezvousKeys.toList ?_) fun bp hpr => ?_
  · rw [hn]
    exact nodup_toList_set _
  refine .zoom_bind (forM_insertProjectedNotamId hbr.subjects r.subjects.toList ?_) fun bs hsb => ?_
  · rw [hn]
    exact nodup_toList_set _
  rw [hn] at har hpr hsb
  refine ⟨hv, ⟨?_, ?_, ?_, ?_⟩, hlb⟩
  · change b.records.insert r.id r = _
    rw [hbr.content, Std.ExtTreeMap.insert_erase]
  · rwa [hin]
  · rwa [hin]
  · rwa [hin]

/-! ## Checkpoints and deltas of the projection -/

namespace NotamDisplayMutation

def outcome : NotamDisplayMutation → Option NotamDisplayRecord
  | upsert record => some record
  | remove _ => none

def act (mutation : NotamDisplayMutation) (records : DisplayMap) : DisplayMap :=
  records.put mutation.notamId mutation.outcome

end NotamDisplayMutation

def displayAll (mutations : List NotamDisplayMutation) (records : DisplayMap) : DisplayMap :=
  mutations.foldl (fun records mutation => mutation.act records) records

theorem validateProjectionRecord_eq_ok : validateProjectionRecord env r = .ok u ↔
      validateAirportAliases env r.airportId r.airportAliases = .ok () ∧
      ¬ (r.id.isEmpty ∨ Text.trim r.id ≠ r.id) ∧ (∀ a, r.airportId = some a → ¬ (a.isEmpty ∨
        Text.trim a ≠ a ∨ a ≠ Text.toAsciiUppercase a)) ∧
      ¬ (r.airportId = none ∧ r.procedureRendezvousKeys.isEmpty ∧ r.subjects.isEmpty) ∧
      (∀ key ∈ r.procedureRendezvousKeys, key.validate env.debug = .ok ()) ∧
      (∀ subject ∈ r.subjects, subject.validate env = .ok ()) ∧ ¬ (Text.trim r.text).isEmpty := by
  have hfr : ∀ {α : Type} {xs : List α} {f : α → Except NotamStateError Unit} u,
      xs.forM f = .ok u ↔ ∀ x ∈ xs, f x = .ok () := fun _ => Except.forM_eq_ok
  simp only [validateProjectionRecord, Except.bind_eq_ok, Except.rejectIf_eq_ok, hfr,
    Except.mapError_eq_ok, Std.ExtTreeSet.mem_toList, Option.mem_toList]
  constructor
  · rintro ⟨_, hal, _, hid, _, har, _, han, _, hks, _, hsb, htx⟩
    exact ⟨hal, hid, har, han, hks, hsb, htx⟩
  · rintro ⟨hal, hid, har, han, hks, hsb, htx⟩
    exact ⟨(), hal, (), hid, (), har, (), han, (), hks, (), hsb, htx⟩

theorem validate_eq_ok : mutation.validate env = .ok u ↔
      (∀ r, mutation.outcome = some r → validateProjectionRecord env r = .ok ()) ∧
        ¬ (mutation.notamId.isEmpty ∨ Text.trim mutation.notamId ≠ mutation.notamId) := by
  cases mutation with
  | upsert r =>
    simp only [NotamDisplayMutation.validate, Except.bind_eq_ok, Except.rejectIf_eq_ok,
      NotamDisplayMutation.outcome, Option.some.injEq, forall_eq']
    exact Unique.exists_iff
  | remove n =>
    simp only [NotamDisplayMutation.validate, Except.bind_eq_ok, Except.rejectIf_eq_ok,
      NotamDisplayMutation.outcome]
    constructor
    · rintro ⟨_, _, h⟩
      exact ⟨by simp, h⟩
    · rintro ⟨-, h⟩
      exact ⟨(), trivial, h⟩

theorem applyProjectionMutation_ends (h : Shows ix records) (hv : mutation.validate env = .ok ()) :
    Ends (NotamDisplayIndex.applyProjectionMutation env debug mutation) ix fun res i' =>
      res = .ok () ∧ Shows i' (mutation.act records) ∧ i'.versionLabel = ix.versionLabel := by
  cases mutation with
  | upsert r =>
    have hrc := (validate_eq_ok.1 hv).1 r rfl
    refine (upsert_ends h r).imp fun res i' hr => ?_
    cases res with
    | ok _ => exact ⟨rfl, hr.2⟩
    | error e => exact absurd hrc hr
  | remove n => exact remove_ends h n

theorem forM_applyProjectionMutation {i : NotamDisplayIndex} {rs : DisplayMap}
    (h : Shows i rs) {ms : List NotamDisplayMutation}
    (hv : ∀ mu ∈ ms, mu.validate env = .ok ()) :
    Ends (ms.forM (NotamDisplayIndex.applyProjectionMutation env debug)) i
      fun res i' => res = .ok () ∧ Shows i' (displayAll ms rs) ∧
        i'.versionLabel = i.versionLabel := by
  induction ms generalizing i rs with
  | nil => exact ⟨rfl, h, rfl⟩
  | cons mu r ih =>
    refine ends_bind.2 ((applyProjectionMutation_ends h (hv mu List.mem_cons_self)).imp ?_)
    rintro _ i' ⟨rfl, h', hlb⟩
    refine (ih h' fun m hm => hv m (List.mem_cons_of_mem _ hm)).imp ?_
    rintro _ i'' ⟨rfl, hsh, hlb'⟩
    exact ⟨rfl, hsh, hlb'.trans hlb⟩

variable {α : Type}

theorem validateProjectionOrder_eq_ok {c : α → Except NotamStateError Unit}
    {id : α → String} {msg : String} {p : Option String} {xs : List α} :
    validateProjectionOrder c id msg p xs = .ok u ↔
      (∀ x ∈ xs, c x = .ok ()) ∧ (xs.map id).Pairwise (· < ·) ∧ ∀ b ∈ p, ∀ x ∈ xs, b < id x := by
  rw [List.pairwise_map]
  refine Lists.ascending_iff
    (P := fun p xs => validateProjectionOrder c id msg p xs = .ok u) .trans rfl ?_
  intro p x r
  cases p <;> simp [validateProjectionOrder, Except.bind_eq_ok, Unique.exists_iff]

theorem validate_upsert (h : validateProjectionRecord env r = .ok ()) :
    (NotamDisplayMutation.upsert r).validate env = .ok () := by
  refine validate_eq_ok.2 ⟨?_, (validateProjectionRecord_eq_ok.1 h).2.1⟩
  rintro _ ⟨⟩
  exact h

theorem forM_upsert (env : NotamEnv NotamDetails) (d : KeyDebug) (si : String)
    {p : List NotamDisplayRecord} (hv : ∀ r ∈ p, validateProjectionRecord env r = .ok ()) :
    Ends (p.forM (NotamDisplayIndex.upsert env d)) (.empty si)
      fun res i => res = .ok () ∧ Shows i (.insertAll (·.id) ∅ p) ∧ i.versionLabel = si := by
  have hsm : p.forM (NotamDisplayIndex.upsert env d) =
      (p.map .upsert).forM (NotamDisplayIndex.applyProjectionMutation env d) := by
    clear hv
    induction p with
    | nil => rfl
    | cons r rs ih =>
      change (NotamDisplayIndex.upsert env d r >>= fun _ => _) = (_ >>= fun _ => _)
      rw [ih]
      rfl
  have hmp : displayAll (p.map .upsert) ∅ = .insertAll (·.id) ∅ p := List.foldl_map
  rw [hsm, ← hmp]
  refine forM_applyProjectionMutation (.empty si) ?_
  rw [List.forall_mem_map]
  exact fun r hm => validate_upsert (hv r hm)

theorem fromProjectionCheckpoint_eq_ok {cp : NotamDisplayCheckpoint}
    (hsc : cp.schemaVersion = notamDisplayProjectionSchemaVersion)
    (hor : (cp.records.map (·.id)).Pairwise (· < ·)) :
    NotamDisplayIndex.fromProjectionCheckpoint env debug cp = .ok ix ↔
      (∀ r ∈ cp.records, validateProjectionRecord env r = .ok ()) ∧
        Shows ix (.insertAll (·.id) ∅ cp.records) ∧ ix.versionLabel = cp.stateId := by
  simp only [NotamDisplayIndex.fromProjectionCheckpoint, Except.bind_eq_ok,
    validateNotamDisplayProjectionSchema, Except.rejectIf_eq_ok, validateProjectionRecordOrder,
    validateProjectionOrder_eq_ok]
  constructor
  · rintro ⟨_, -, _, ⟨hv, -, -⟩, hrn⟩
    have hen := forM_upsert env debug cp.stateId hv
    split at hrn
    · rename_i hr
      exact Except.ok.inj hrn ▸ ⟨hv, (hen.of_ok hr).2⟩
    · cases hrn
  · rintro ⟨hv, hsh, hlb⟩
    refine ⟨(), not_not.2 hsc, (), ⟨hv, hor, by simp⟩, ?_⟩
    have hen := forM_upsert env debug cp.stateId hv
    split
    · rename_i hr
      obtain ⟨-, hsh', hlb'⟩ := hen.of_ok hr
      rw [hsh.eq hsh' (hlb.trans hlb'.symm)]
    · rename_i hr
      cases (hen.of_error hr).1

/-- A projected delta, applied to the index. -/
theorem applyProjectionDelta_run (h : Shows ix records) {d : NotamDisplayDelta}
    (hsc : d.schemaVersion = notamDisplayProjectionSchemaVersion)
    (hfr : ix.versionLabel = d.fromStateId) (hor : (d.mutations.map (·.notamId)).Pairwise (· < ·))
    (hv : ∀ m ∈ d.mutations, m.validate env = .ok ())
    (h' : Shows i' (displayAll d.mutations records)) (hto : i'.versionLabel = d.toStateId) :
    (NotamDisplayIndex.applyProjectionDelta env debug d).run ix = .ok () i' := by
  have hcn : validateNotamDisplayProjectionSchema d.schemaVersion = .ok () :=
    Except.rejectIf_eq_ok.2 (not_not.2 hsc)
  have hbs : Except.rejectIf (ix.versionLabel ≠ d.fromStateId)
      (NotamStateError.baseStateMismatch d.fromStateId ix.versionLabel) = .ok () :=
    Except.rejectIf_eq_ok.2 (not_not.2 hfr)
  have ho : validateProjectionMutationOrder env d.mutations = .ok () :=
    validateProjectionOrder_eq_ok.2 ⟨hv, hor, by simp⟩
  rw [run_eq_ok_iff]
  unfold NotamDisplayIndex.applyProjectionDelta
  simp only [hcn, attempt, pure_bind, ends_get_bind, hbs, ho]
  refine ends_bind.2 ((forM_applyProjectionMutation h hv).imp ?_)
  rintro _ r ⟨rfl, hsh, -⟩
  refine ⟨rfl, ?_⟩
  have hrl : Shows { r with versionLabel := d.toStateId } (displayAll d.mutations records) :=
    ⟨hsh.content, hsh.airports, hsh.subjects, hsh.procedures⟩
  exact hrl.eq h' hto.symm

/-! ## The projection of a state -/

/-- The notices that are displayed of a state. -/
def displayed (records : RecordMap NotamDetails) : DisplayMap :=
  records.filterMap fun _ record => projectNotamDisplayRecord record

theorem getElem?_displayed (rs : RecordMap NotamDetails) (id : String) :
    (displayed rs)[id]? = rs[id]?.bind projectNotamDisplayRecord := by
  rw [displayed, Std.ExtTreeMap.getElem?_filterMap]
  cases rs[id]? <;> rfl

theorem isDisplayable_of_project (h : projectNotamDisplayRecord record = some pj) :
    record.isDisplayable = true :=
  (Option.ite_none_right_eq_some.1 h).1

theorem projectNotamDisplayRecord_id (h : projectNotamDisplayRecord record = some pj) :
    pj.id = record.id := by
  obtain ⟨-, ⟨⟩⟩ := Option.ite_none_right_eq_some.1 h
  rfl

variable {rs : RecordMap NotamDetails}

theorem displayed_keyed (hv : AllValid env rs)
    {id : String} (h : (displayed rs)[id]? = some pj) : pj.id = id := by
  rw [getElem?_displayed, Option.bind_eq_some_iff] at h
  obtain ⟨r, hrc, hpr⟩ := h
  rw [projectNotamDisplayRecord_id hpr, hv.keyed hrc]

theorem notamDisplayCheckpoint_records (state : NotamState NotamDetails) :
    (notamDisplayCheckpoint state).records = (displayed state.records).valueList := by
  rw [Std.ExtTreeMap.valueList, displayed, Std.ExtTreeMap.toList_filterMap, List.map_filterMap]
  simp [notamDisplayCheckpoint]

/-- What the projection demands of a valid record beyond the canonical checks: beside aliases there is
an airport, which in its normal form is none of them, and the procedure keys are canonical. -/
def NotamRecord.Presentable (env : NotamEnv NotamDetails) (record : NotamRecord NotamDetails) :
    Prop :=
  (∀ aliasId ∈ record.airportAliases,
    ∃ airportId, record.displayAirportId = some airportId ∧ aliasId ≠ airportId) ∧
  ∀ key ∈ record.rest.procedureRendezvousKeys, key.validate env.debug = .ok ()

def AllPresentable (env : NotamEnv NotamDetails) (records : RecordMap NotamDetails) : Prop :=
  ∀ (id : String) (record : NotamRecord NotamDetails), records[id]? = some record →
    record.isDisplayable = true → record.Presentable env

theorem displayAirportId_eq_some {a : String} (h : record.displayAirportId = some a) :
    ¬ (a.isEmpty ∨ Text.trim a ≠ a ∨ a ≠ Text.toAsciiUppercase a) := by
  simp only [NotamRecord.displayAirportId, Option.map_eq_some_iff, Option.filter_eq_some_iff] at h
  obtain ⟨trimmed, ⟨⟨v, -, rfl⟩, hnn⟩, rfl⟩ := h
  rw [Text.isEmpty_toAsciiUppercase, Text.trim_toAsciiUppercase, Text.trim_trim,
    Text.toAsciiUppercase_idem]
  simpa using hnn

theorem canonical_checks (h : ∃ l, recordLeafHash env record = .ok l) :
    validateNotamId env record.id = .ok () ∧
    (∀ ai ∈ record.airportAliases, badAlias record.airportId ai = false) ∧
    ∀ subject ∈ record.subjects, subject.validate env = .ok () := by
  obtain ⟨l, hlf⟩ := h
  obtain ⟨cn, hcn, -⟩ := recordLeafHash_eq_ok.1 hlf
  simp only [canonicalRecordBytes, Except.bind_eq_ok] at hcn
  obtain ⟨_, hid, _, hal, _, hsb, -⟩ := hcn
  refine ⟨hid, fun ai hm => ?_, fun subject hm => ?_⟩
  · simpa using Except.forM_eq_ok.1 hal ai (Std.ExtTreeSet.mem_toList.2 hm)
  · exact Except.mapError_eq_ok.1 (Except.forM_eq_ok.1 hsb subject (Std.ExtTreeSet.mem_toList.2 hm))

/-- The projection of a valid canonical record is valid exactly when the record is presentable. -/
theorem validateProjectionRecord_project (h : ∃ l, recordLeafHash env record = .ok l)
    (hpr : projectNotamDisplayRecord record = some pj) :
    validateProjectionRecord env pj = .ok () ↔ record.Presentable env := by
  obtain ⟨hid, hal, hsu⟩ := canonical_checks h
  have hds := isDisplayable_of_project hpr
  rw [projectNotamDisplayRecord, if_pos hds] at hpr
  obtain rfl := Option.some.inj hpr
  simp only [NotamRecord.isDisplayable, Bool.and_eq_true, Option.isSome_iff_exists] at hds
  obtain ⟨han, text, htx⟩ := hds
  rw [validateProjectionRecord_eq_ok]
  have hgd : validateAirportAliases env record.displayAirportId record.airportAliases = .ok () ↔
      ∀ ai ∈ record.airportAliases, ∃ a, record.displayAirportId = some a ∧ ai ≠ a := by
    rw [validateAirportAliases, Except.forM_eq_ok]
    simp only [Std.ExtTreeSet.mem_toList]
    refine forall₂_congr fun ai hm => ?_
    have hr := hal ai hm
    cases record.displayAirportId with
    | none => simp [badAlias]
    | some a =>
      simp only [badAlias, Bool.or_eq_false_iff] at hr ⊢
      simp [hr.2, hr.1.2]
  have htr : ¬ (Text.trim (record.displayText.getD "")).isEmpty := by
    simp only [NotamRecord.displayText, Option.filter_eq_some_iff, Option.map_eq_some_iff] at htx
    obtain ⟨⟨v, hv, rfl⟩, hnn⟩ := htx
    have hsm : record.displayText = some (Text.trim v) := by simp [NotamRecord.displayText, hv, hnn]
    rw [hsm, Option.getD_some, Text.trim_trim]
    simpa using hnn
  have hfd : ¬ (record.displayAirportId = none ∧
      record.rest.procedureRendezvousKeys.isEmpty ∧ record.subjects.isEmpty) := by
    rintro ⟨hn, hks, hsb⟩
    simp only [NotamRecord.hasDisplayAnchor, hks, hsb, Bool.not_true, Bool.or_false,
      Option.any_eq_true] at han
    obtain ⟨v, hv, hnn⟩ := han
    simp [NotamRecord.displayAirportId, hv, Option.filter, hnn] at hn
  constructor
  · rintro ⟨hch, -, -, -, hks, -⟩
    exact ⟨hgd.1 hch, hks⟩
  · rintro ⟨hps, hks⟩
    exact ⟨hgd.2 hps, Except.rejectIf_eq_ok.1 hid,
      fun _ har => displayAirportId_eq_some har, hfd, hks, hsu, htr⟩

/-! ## The projection of a delta -/

variable {s t : NotamState NotamDetails}

theorem removeDisplayed_eq_some {n : String} (h : removeDisplayed s n = some mutation) :
    mutation = .remove n := by
  obtain ⟨-, -, rfl⟩ := Option.map_eq_some_iff.1 h
  rfl

variable {m : NotamMutation NotamDetails}

theorem projectNotamMutation_eq_some
    {sh : NotamDisplayMutation} (h : projectNotamMutation s m = some sh) : sh.notamId = m.notamId ∧
      sh.outcome = m.outcome.bind projectNotamDisplayRecord := by
  cases m with
  | upsert r =>
    cases hpr : projectNotamDisplayRecord r with
    | none =>
      rw [projectNotamMutation, hpr, Option.map_none] at h
      rw [removeDisplayed_eq_some h]
      exact ⟨rfl, hpr.symm⟩
    | some p =>
      rw [projectNotamMutation, hpr, Option.map_some] at h
      obtain rfl := Option.some.inj h
      exact ⟨projectNotamDisplayRecord_id hpr, hpr.symm⟩
  | remove n =>
    rw [removeDisplayed_eq_some h]
    exact ⟨rfl, rfl⟩

/-- A mutation is left out of the projection when nothing is displayed before and after it. -/
theorem projectNotamMutation_eq_none
    (h : projectNotamMutation s m = none) : m.outcome.bind projectNotamDisplayRecord = none ∧
      s.records[m.notamId]?.bind projectNotamDisplayRecord = none := by
  cases m with
  | upsert r =>
    obtain ⟨hpr, hrm⟩ := Option.or_eq_none_iff.1 h
    exact ⟨Option.map_eq_none_iff.1 hpr, Option.map_eq_none_iff.1 hrm⟩
  | remove n => exact ⟨rfl, Option.map_eq_none_iff.1 h⟩

variable {ms : List (NotamMutation NotamDetails)}

/-- The projected mutations do to the displayed records what the mutations do to the records. The
projection looks at the records before the first mutation. -/
theorem displayAll_projected (his : (ms.map (·.notamId)).Pairwise (· < ·))
    (hsm : ∀ m ∈ ms, rs[m.notamId]? = s.records[m.notamId]?) :
    displayAll (ms.filterMap (projectNotamMutation s)) (displayed rs) =
      displayed (actAll ms rs) := by
  induction ms generalizing rs with
  | nil => rfl
  | cons m r ih =>
    rw [List.map_cons, List.pairwise_cons] at his
    have hla : ∀ o ∈ r, (m.act rs)[o.notamId]? = s.records[o.notamId]? := by
      intro o ho
      have hne := (his.1 _ (List.mem_map_of_mem ho)).ne
      rw [m.getElem?_act, if_neg hne]
      exact hsm o (List.mem_cons_of_mem _ ho)
    have hr := ih his.2 hla
    cases hpr : projectNotamMutation s m with
    | none =>
      obtain ⟨haf, hbf⟩ := projectNotamMutation_eq_none hpr
      have hst : displayed (m.act rs) = displayed rs := by
        refine Std.ExtTreeMap.ext_getElem? fun id => ?_
        rw [getElem?_displayed, getElem?_displayed, m.getElem?_act]
        split
        · rename_i hid
          rw [haf, ← hid, hsm m List.mem_cons_self, hbf]
        · rfl
      rw [List.filterMap_cons_none hpr, ← hst]
      exact hr
    | some sh =>
      obtain ⟨hid, hot⟩ := projectNotamMutation_eq_some hpr
      have hac : sh.act (displayed rs) = displayed (m.act rs) := by
        refine Std.ExtTreeMap.ext_getElem? fun id => ?_
        rw [getElem?_displayed, m.getElem?_act, NotamDisplayMutation.act,
          Std.ExtTreeMap.getElem?_put, hid, hot, getElem?_displayed]
        split <;> rfl
      rw [List.filterMap_cons_some hpr]
      change displayAll _ (sh.act (displayed rs)) = _
      rw [hac]
      exact hr

/-- All displayed notices are valid just when all notices can be presented. -/
theorem displayed_valid_iff (hs : Consistent env s) :
    (∀ p ∈ (displayed s.records).valueList, validateProjectionRecord env p = .ok ()) ↔
      AllPresentable env s.records := by
  have hm : ∀ {p : NotamDisplayRecord}, p ∈ (displayed s.records).valueList ↔
      (displayed s.records)[p.id]? = some p :=
    Std.ExtTreeMap.mem_valueList_iff (displayed_keyed hs.valid)
  constructor
  · intro hv id r hrc hds
    obtain ⟨p, hpr⟩ : ∃ p, projectNotamDisplayRecord r = some p := by
      rw [projectNotamDisplayRecord, if_pos hds]
      exact ⟨_, rfl⟩
    refine (validateProjectionRecord_project (hs.valid.leaf hrc) hpr).1 (hv p (hm.2 ?_))
    rw [projectNotamDisplayRecord_id hpr, hs.valid.keyed hrc, getElem?_displayed, hrc]
    exact hpr
  · intro hps p hpd
    have hsh := hm.1 hpd
    rw [getElem?_displayed, Option.bind_eq_some_iff] at hsh
    obtain ⟨r, hrc, hpr⟩ := hsh
    exact (validateProjectionRecord_project (hs.valid.leaf hrc) hpr).2
      (hps _ r hrc (isDisplayable_of_project hpr))

theorem fromProjectionCheckpoint_notamDisplayCheckpoint (hs : Consistent env s) :
    NotamDisplayIndex.fromProjectionCheckpoint env debug (notamDisplayCheckpoint s) = .ok ix ↔
      AllPresentable env s.records ∧ Shows ix (displayed s.records) ∧ ix.versionLabel = s.stateId := by
  have hor : ((notamDisplayCheckpoint s).records.map (·.id)).Pairwise (· < ·) := by
    rw [notamDisplayCheckpoint_records, List.pairwise_map]
    exact Std.ExtTreeMap.valueList_ascending (displayed_keyed hs.valid)
  rw [fromProjectionCheckpoint_eq_ok rfl hor, notamDisplayCheckpoint_records,
    Std.ExtTreeMap.insertAll_valueList (displayed_keyed hs.valid), displayed_valid_iff hs]
  rfl

theorem exists_shows (d : KeyDebug) (hs : Consistent env s) (hpr : AllPresentable env s.records) :
    ∃ i, NotamDisplayIndex.fromProjectionCheckpoint env d (notamDisplayCheckpoint s) = .ok i := by
  have hen := forM_upsert env d s.stateId ((displayed_valid_iff hs).2 hpr)
  rw [Std.ExtTreeMap.insertAll_valueList (displayed_keyed hs.valid)] at hen
  obtain ⟨-, hsh, hlb⟩ := ends_iff.1 hen
  exact ⟨_, (fromProjectionCheckpoint_notamDisplayCheckpoint hs).2 ⟨hpr, hsh, hlb⟩⟩

/-! ## Failed updates of the session -/

/-- When the check fails, it is not with an error after which the index is kept. -/
def Refuses (r : Except NotamStateError Unit) : Prop := ∀ e, r = .error e → e.preserves = false

namespace Refuses

theorem rejectIf {bad : Prop} [Decidable bad] {e : NotamStateError} (he : e.preserves = false) :
    Refuses (.rejectIf bad e) := by
  intro e' h
  unfold Except.rejectIf at h
  split at h
  · exact Except.error.inj h ▸ he
  · cases h

theorem mapError {r : Except String Unit} : Refuses (r.mapError .invalidRecord) := by
  intro e h
  cases r with
  | ok _ => cases h
  | error msg => exact Except.error.inj h ▸ rfl

theorem bind {r : Except NotamStateError Unit} {f : Unit → Except NotamStateError Unit}
    (hr : Refuses r) (hf : Refuses (f ())) : Refuses (r >>= f) := by
  intro e h
  cases r with
  | ok _ => exact hf e h
  | error e' => exact Except.error.inj h ▸ hr e' rfl

theorem forM {f : α → Except NotamStateError Unit} (hf : ∀ x, Refuses (f x))
    (xs : List α) : Refuses (xs.forM f) := by
  induction xs with
  | nil => exact nofun
  | cons x r ih => exact (hf x).bind ih

end Refuses

theorem refuses_validateProjectionRecord (r : NotamDisplayRecord) :
    Refuses (validateProjectionRecord env r) := by
  refine .bind (.forM (fun _ => .rejectIf rfl) _) (.bind (.rejectIf rfl) ?_)
  refine .bind (.forM (fun _ => .rejectIf rfl) _) (.bind (.rejectIf rfl) ?_)
  exact .bind (.forM (fun _ => .mapError) _) (.bind (.forM (fun _ => .mapError) _) (.rejectIf rfl))

/-- When the command fails, it is not with an error after which the index is kept. -/
def Spoils {σ : Type} (x : EStateM NotamStateError σ Unit) : Prop :=
  ∀ s, Ends x s fun result _ => Refuses result

namespace Spoils

variable {σ : Type}

theorem bind {x : EStateM NotamStateError σ Unit} {f : Unit → EStateM NotamStateError σ Unit}
    (hx : Spoils x) (hf : Spoils (f ())) : Spoils (x >>= f) := fun s =>
  (hx s).bind (fun _ s' _ => hf s') fun _ _ h => h

theorem attempt {r : Except NotamStateError Unit} (h : Refuses r) :
    Spoils (Command.attempt r : EStateM NotamStateError σ Unit) := fun _ => ends_attempt.2 h

theorem modify (f : σ → σ) : Spoils (modify f : EStateM NotamStateError σ Unit) := fun _ => nofun

theorem zoom {τ : Type} {get : σ → τ} {set : τ → σ → σ} {x : EStateM NotamStateError τ Unit}
    (hx : Spoils x) : Spoils (Command.zoom get set x) := fun s => ends_zoom.2 (hx (get s))

theorem forM {f : α → EStateM NotamStateError σ Unit} (hf : ∀ a, Spoils (f a))
    (xs : List α) : Spoils (xs.forM f) := by
  induction xs with
  | nil => exact fun _ => nofun
  | cons x r ih => exact (hf x).bind ih

end Spoils

section Lookup

variable {K : Type} [Ord K] [Std.TransOrd K]

theorem spoils_insertProjectedNotamId (n : String) (key : K) :
    Spoils (insertProjectedNotamId n key) := by
  intro i
  unfold insertProjectedNotamId
  simp only [ends_modify_bind, ends_get_bind]
  split
  · rintro _ ⟨⟩
    rfl
  · rintro _ ⟨⟩

theorem spoils_removeProjectedNotamId (d : K → String) (n : String) (key : K) :
    Spoils (removeProjectedNotamId d n key) := by
  intro i
  unfold removeProjectedNotamId
  simp only [ends_get_bind]
  split
  · rintro _ ⟨⟩
    rfl
  · split
    · rintro _ ⟨⟩
      rfl
    · rintro _ ⟨⟩

end Lookup

theorem spoils_remove (n : String) : Spoils (NotamDisplayIndex.remove env debug n) := by
  intro i
  unfold NotamDisplayIndex.remove
  simp only [ends_get_bind]
  split
  · rintro _ ⟨⟩
  · exact Spoils.bind (.zoom (.forM (fun _ => spoils_removeProjectedNotamId _ _ _) _))
      (.bind (.zoom (.forM (fun _ => spoils_removeProjectedNotamId _ _ _) _))
        (.zoom (.forM (fun _ => spoils_removeProjectedNotamId _ _ _) _))) _

theorem spoils_upsert (r : NotamDisplayRecord) : Spoils (NotamDisplayIndex.upsert env debug r) := by
  refine .bind (.attempt (refuses_validateProjectionRecord r)) (.bind (spoils_remove _) ?_)
  refine .bind (.zoom (.forM (fun _ => spoils_insertProjectedNotamId _ _) _)) ?_
  refine .bind (.zoom (.forM (fun _ => spoils_insertProjectedNotamId _ _) _)) ?_
  exact .bind (.zoom (.forM (fun _ => spoils_insertProjectedNotamId _ _) _)) (.modify _)

theorem spoils_applyProjectionMutation (env : NotamEnv NotamDetails) (d : KeyDebug)
    (m : NotamDisplayMutation) : Spoils (NotamDisplayIndex.applyProjectionMutation env d m) := by
  cases m with
  | upsert r => exact spoils_upsert r
  | remove n => exact spoils_remove n

/-- An error after which the index is kept comes before the first change. -/
theorem applyProjectionDelta_preserves (env : NotamEnv NotamDetails) (db : KeyDebug)
    (d : NotamDisplayDelta) (i : NotamDisplayIndex) :
    Ends (NotamDisplayIndex.applyProjectionDelta env db d) i fun res i' =>
      ∀ e, res = .error e → e.preserves = true → i' = i := by
  refine ends_attempt_bind.2 ⟨fun _ _ => ?_, fun _ _ _ _ _ => rfl⟩
  refine ends_get_bind.2 (ends_attempt_bind.2 ⟨fun _ _ => ?_, fun _ _ _ _ _ => rfl⟩)
  refine ends_attempt_bind.2 ⟨fun _ _ => ?_, fun _ _ _ _ _ => rfl⟩
  refine (Spoils.bind (.forM (spoils_applyProjectionMutation env db) d.mutations)
    (.modify _) i).imp fun res i' hsp e he hpr => ?_
  rw [hsp e he] at hpr
  cases hpr

theorem commitPreparedLiveFeed_error {cs : NotamCounters → String}
    {pl : PreparedSessionNotamPayload} {hl hel' : Option NotamDisplayIndex} {e : NotamCommitError}
    (h : (commitPreparedLiveFeed env debug cs pl).run hl = .error e hel') :
    hel' = hl ∨ hel' = none := by
  cases pl with
  | notamCheckpoint i => cases h
  | ready pl =>
    cases pl with
    | installDisplayCheckpoint cp =>
      cases h
      exact .inl rfl
    | applyDisplayDelta d =>
      cases hl with
      | none =>
        cases h
        exact .inl rfl
      | some i =>
        have hen := applyProjectionDelta_preserves env debug d i
        unfold commitPreparedLiveFeed EStateM.run at h
        dsimp only at h
        split at h
        · cases h
        · rename_i er i' hr
          obtain ⟨-, rfl⟩ := EStateM.Result.error.inj h
          split
          · rename_i hpr
            exact .inl (congrArg some (hen.of_error hr er rfl hpr))
          · exact .inr rfl

/-! ## The display follows the state -/

def NotamDisplayIndex.NoEmptyEntries (index : NotamDisplayIndex) : Prop :=
  (∀ (key : String) (ids : List String), index.byAirport[key]? = some ids → ids ≠ []) ∧
  (∀ (key : NotamSubjectKey) (ids : List String), index.bySubject[key]? = some ids → ids ≠ []) ∧
  ∀ (key : NotamDisplayProcedureKey) (ids : List String),
    index.byProcedure[key]? = some ids → ids ≠ []

/-- The delta from `s` to `t` is projected, both states can be displayed, and the index of the first
becomes the index of the second by the projected delta. -/
def DisplayFollows (env : NotamEnv NotamDetails) (debug : KeyDebug) (s t : NotamState NotamDetails)
    (delta : NotamDelta NotamDetails) : Prop :=
  ∃ shown index index', notamDisplayDelta env s delta = .ok shown ∧
    NotamDisplayIndex.fromProjectionCheckpoint env debug (notamDisplayCheckpoint s) = .ok index ∧
    NotamDisplayIndex.fromProjectionCheckpoint env debug (notamDisplayCheckpoint t) = .ok index' ∧
    (NotamDisplayIndex.applyProjectionDelta env debug shown).run index = .ok () index' ∧
    index'.NoEmptyEntries

theorem Shows.noEmptyEntries (h : Shows ix records) : ix.NoEmptyEntries :=
  ⟨fun _ _ => h.airports.nonempty, fun _ _ => h.subjects.nonempty, fun _ _ => h.procedures.nonempty⟩

theorem projected_valid
    (ham : ∀ m ∈ ms, m.Admissible env) (his : (ms.map (·.notamId)).Pairwise (· < ·))
    (hps : ∀ r : NotamRecord NotamDetails, .upsert r ∈ ms →
      r.isDisplayable = true → r.Presentable env) :
    ((ms.filterMap (projectNotamMutation s)).map (·.notamId)).Pairwise (· < ·) ∧
    ∀ sh ∈ ms.filterMap (projectNotamMutation s), sh.validate env = .ok () := by
  constructor
  · rw [List.pairwise_map] at his ⊢
    refine his.filterMap _ fun a b hlt sh hsh s' hsh' => ?_
    rw [(projectNotamMutation_eq_some hsh).1, (projectNotamMutation_eq_some hsh').1]
    exact hlt
  · intro sh hm
    obtain ⟨m, hmt, hpj⟩ := List.mem_filterMap.1 hm
    obtain ⟨hid, hot⟩ := projectNotamMutation_eq_some hpj
    have had := ham m hmt
    refine validate_eq_ok.2 ⟨fun p hpr => ?_, ?_⟩
    · rw [hot, Option.bind_eq_some_iff] at hpr
      obtain ⟨r, hrc, hds⟩ := hpr
      cases m with
      | remove n => cases hrc
      | upsert upserted =>
        obtain rfl := Option.some.inj hrc
        exact (validateProjectionRecord_project had.1 hds).2
          (hps _ hmt (isDisplayable_of_project hds))
    · rw [hid]
      exact Except.rejectIf_eq_ok.1 (admissible_id had)

/-- The display follows a delta of a reached state exactly when every displayable record that it
meets is presentable. A payload that cannot be committed to a session leaves its index or none. -/
theorem display_follows_state {operations : List (Operation NotamDetails)}
    {delta : NotamDelta NotamDetails}
    (hreached : Run.exec (NotamState.stepOk env) (.empty env) operations = some s)
    (hdelta : (applyDelta env delta).run s = .ok () t) (debug : KeyDebug)
    (counters : NotamCounters → String) :
    (DisplayFollows env debug s t delta ↔ ∀ record : NotamRecord NotamDetails,
      ((∃ id : String, s.records[id]? = some record) ∨ .upsert record ∈ delta.mutations) →
      record.isDisplayable = true → record.Presentable env) ∧
    ∀ payload held e held',
      (commitPreparedLiveFeed env debug counters payload).run held = .error e held' →
      held' = held ∨ held' = none := by
  refine ⟨?_, fun _ _ _ _ => commitPreparedLiveFeed_error⟩
  have hs := consistent_of_reached hreached
  obtain ⟨hcn, hfr, hor, had, hto⟩ := applyDelta_accepted hs hdelta
  have his := (validateMutationOrder_eq_ok.1 hor).2
  obtain ⟨ht, hre⟩ := (applyDelta_ends hs delta).of_ok hdelta
  constructor
  · rintro ⟨_, index, index', -, hix, hix', -, -⟩ record hmt hds
    obtain ⟨hpr, -⟩ := (fromProjectionCheckpoint_notamDisplayCheckpoint hs).1 hix
    obtain ⟨hpr', -⟩ := (fromProjectionCheckpoint_notamDisplayCheckpoint ht).1 hix'
    rcases hmt with ⟨id, hrc⟩ | hm
    · exact hpr id record hrc hds
    · refine hpr' record.id record ?_ hds
      rw [hre]
      exact getElem?_actAll_of_mem his hm s.records
  · intro hpr
    -- the records after the delta are records from before it or upserted ones
    have hpr' : AllPresentable env t.records := by
      intro id record hrc
      rw [hre] at hrc
      rcases actAll_eq_some hrc with hbf | hup
      · exact hpr record (.inl ⟨id, hbf⟩)
      · exact hpr record (.inr hup)
    have hsn : notamDisplayDelta env s delta = .ok ⟨notamDisplayProjectionSchemaVersion,
        delta.fromStateId, delta.toStateId,
        delta.mutations.filterMap (projectNotamMutation s)⟩ := by
      simp [notamDisplayDelta, hcn, hfr, hor, Except.rejectIf]
    obtain ⟨index, hix⟩ := exists_shows debug hs fun id record hrc => hpr record (.inl ⟨id, hrc⟩)
    obtain ⟨index', hix'⟩ := exists_shows debug ht hpr'
    obtain ⟨-, hsh, hlb⟩ := (fromProjectionCheckpoint_notamDisplayCheckpoint hs).1 hix
    obtain ⟨-, hsh', hlb'⟩ := (fromProjectionCheckpoint_notamDisplayCheckpoint ht).1 hix'
    obtain ⟨hod, hv⟩ := projected_valid (s := s) had his fun record hm => hpr record (.inr hm)
    have hdi := displayAll_projected (s := s) his fun _ _ => rfl
    refine ⟨_, index, index', hsn, hix, hix', ?_, hsh'.noEmptyEntries⟩
    refine applyProjectionDelta_run hsh rfl (hlb.trans hfr) hod hv ?_ (hlb'.trans hto)
    rwa [hdi, ← hre]

namespace Sample

def keyDebug : KeyDebug where
  subject
    | .navaid id => "Navaid(" ++ Sample.env.debug id ++ ")"
    | .airway id => "Airway(" ++ Sample.env.debug id ++ ")"
  procedure key := reprStr key

/-- A notice about a navaid that is found under an airport with an alias. -/
def navaidNotice (id airportId : String) : NotamRecord NotamDetails where
  id := id
  subjects := Std.ExtTreeSet.ofList [.navaid "SEA"] compare
  airportId := some airportId
  airportAliases := Std.ExtTreeSet.ofList ["KSEA"] compare
  airportEffects := {.navigationAidUnavailable}
  rest := ⟨∅, some "NAV", none, none, some "NAV VOR U/S", none, none⟩

end Sample

theorem exists_delta (hs : Consistent env s) (his : (ms.map (·.notamId)).Pairwise (· < ·))
    (had : ∀ m ∈ ms, m.Admissible env) : ∃ t d, (applyDelta env d).run s = .ok () t ∧
      Consistent env t ∧ d.mutations = ms ∧ t.records = actAll ms s.records := by
  obtain ⟨t, ht⟩ := applyMutations_exists hs had
  obtain ⟨-, hcn, hrc⟩ := (applyMutations_run hs).1 ht
  exact ⟨t, .new _ t.stateId t.counters ms,
    applyDelta_run hs validateContract_new rfl his had hcn hrc rfl rfl, hcn, rfl, hrc⟩

theorem navaidNotice_admissible : ∀ m ∈ [NotamMutation.upsert (Sample.navaidNotice "A" "SEA"),
      .upsert (Sample.navaidNotice "B" "SEA"), .upsert (Sample.navaidNotice "A" " "), .remove "A"],
    m.Admissible Sample.env :=
  admissible_of_check (by decide +kernel)

theorem navaidNotice_presentable (id : String) :
    (Sample.navaidNotice id "SEA").Presentable Sample.env := by
  have har : (Sample.navaidNotice "A" "SEA").displayAirportId = some "SEA" := by decide +kernel
  have hnt : "SEA" ∉ (Sample.navaidNotice "A" "SEA").airportAliases := by decide +kernel
  refine ⟨fun aliasId hal => ⟨"SEA", har, ?_⟩, fun key hk => ?_⟩
  · rintro rfl
    exact hnt hal
  · exact absurd hk Std.ExtTreeSet.not_mem_empty

/-- A notice under the airport "SEA" is displayed, and then replaced by another one. -/
theorem navaid_notice_displayed : ∃ first delta s t,
    Run.exec (NotamState.stepOk Sample.env) (.empty Sample.env) [.apply first] = some s ∧
    s.records["A"]? = some (Sample.navaidNotice "A" "SEA") ∧
    delta.mutations = [.remove "A", .upsert (Sample.navaidNotice "B" "SEA")] ∧
    (applyDelta Sample.env delta).run s = .ok () t ∧
    DisplayFollows Sample.env Sample.keyDebug s t delta := by
  obtain ⟨s, first, hfs, hs, -, hrc⟩ := exists_delta .empty (List.pairwise_singleton ..)
    (List.forall_mem_singleton.2 (navaidNotice_admissible _ List.mem_cons_self))
  have hsd : ([NotamMutation.remove "A", .upsert (Sample.navaidNotice "B" "SEA")].map
      (·.notamId)).Pairwise (· < ·) := List.pairwise_pair.2 (by decide : "A" < "B")
  obtain ⟨t, delta, hdl, -, hmt, -⟩ := exists_delta hs hsd fun m hm =>
    navaidNotice_admissible m (by aesop)
  have hre : Run.exec (NotamState.stepOk Sample.env) (.empty Sample.env) [.apply first] = some s := by
    simp [Run.exec, NotamState.stepOk, Operation.run, hfs]
  refine ⟨first, delta, s, t, hre, by rw [hrc]; rfl, hmt, hdl,
    (display_follows_state hre hdl Sample.keyDebug fun _ => "").1.2 ?_⟩
  rintro record (⟨id, hr⟩ | hm) -
  · obtain hr | hm := actAll_eq_some (hrc ▸ hr)
    · exact absurd (hr.symm.trans Std.ExtTreeMap.getElem?_empty) (by simp)
    · obtain rfl := NotamMutation.upsert.inj (List.mem_singleton.1 hm)
      exact navaidNotice_presentable "A"
  · obtain rfl : record = Sample.navaidNotice "B" "SEA" := by simpa [hmt] using hm
    exact navaidNotice_presentable "B"

/-- The same notice with a blank airport passes all checks of the canonical state, and the state
that holds it cannot be displayed. -/
theorem blank_airport_not_displayed : ∃ t delta,
    (applyDelta Sample.env delta).run (.empty Sample.env) = .ok () t ∧
    delta.mutations = [.upsert (Sample.navaidNotice "A" " ")] ∧
    (∀ index, NotamDisplayIndex.fromProjectionCheckpoint Sample.env Sample.keyDebug
      (notamDisplayCheckpoint t) ≠ .ok index) ∧
    ¬ DisplayFollows Sample.env Sample.keyDebug (.empty Sample.env) t delta := by
  obtain ⟨t, delta, hdl, ht, hmt, hrc⟩ := exists_delta .empty (List.pairwise_singleton ..)
    (List.forall_mem_singleton.2 (navaidNotice_admissible (.upsert (Sample.navaidNotice "A" " "))
      (by simp)))
  have hr : ∀ index, NotamDisplayIndex.fromProjectionCheckpoint Sample.env
      Sample.keyDebug (notamDisplayCheckpoint t) ≠ .ok index := by
    intro index hix
    have hpr := ((fromProjectionCheckpoint_notamDisplayCheckpoint ht).1 hix).1 "A"
      (Sample.navaidNotice "A" " ") (by rw [hrc]; rfl) (by decide +kernel)
    obtain ⟨airportId, har, -⟩ := hpr.1 "KSEA" (by decide +kernel)
    have hbl : (Sample.navaidNotice "A" " ").displayAirportId = none := by decide +kernel
    cases har
  refine ⟨t, delta, hdl, hmt, hr, ?_⟩
  rintro ⟨_, _, index', -, -, hix', -⟩
  exact hr index' hix'

end Aerobag.Notam
