import Aerobag.Client.Account

/-!
# Migration of an account

A format converts the records of the preceding one key by key (`Converts`). What a migration keeps is
kept along the chain of formats (`Preserves`).
-/

namespace Aerobag.Client

open Except Std.ExtTreeMap

variable {J : Type} {F : FormatDescriptor J} {acc m r : RecordMap J} {k : String} {o : CloudRecord J}

/-- A record as it is without a rule for its key, or what the rule for it makes of it. -/
def FormatDescriptor.Converts (self : FormatDescriptor J) (key : String) (original : CloudRecord J)
    (result : Option (CloudRecord J)) : Prop :=
  (∀ rule ∈ self.migrations, ¬ rule.key.matchesKey key) ∧ result = some original ∨
  ∃ rule ∈ self.migrations, rule.key.matchesKey key ∧ rule.convert original = .ok result ∧
    rule.targetVersion = result.map (·.schemaVersion) ∧
    ∀ record ∈ result, record.modifiedAtEpochMs = original.modifiedAtEpochMs

/-- Every record is converted, and no key is added. -/
def FormatDescriptor.ConvertsAll (self : FormatDescriptor J) (records migrated : RecordMap J) : Prop :=
  ∀ key, records[key]?.elim (migrated[key]? = none) (self.Converts key · migrated[key]?)

/-- A migration by these rules has no new key and keeps the records that match none of them and the
times of the others; a record is lost only by a rule without a target. -/
structure Preserves (rules : List (RecordMigration J)) (records migrated : RecordMap J) : Prop where
  old : ∀ (key : String) new, migrated[key]? = some new → ∃ old, records[key]? = some old ∧
    new.modifiedAtEpochMs = old.modifiedAtEpochMs
  lost : ∀ (key : String) old, records[key]? = some old → migrated[key]? = none →
    ∃ rule ∈ rules, rule.key.matchesKey key ∧ rule.targetVersion = none
  unmatched : ∀ key : String, (∀ rule ∈ rules, ¬ rule.key.matchesKey key) →
    migrated[key]? = records[key]?

/-- One step of the loop converts one record and leaves the others. -/
theorem converts_of_migrateRecord (h : F.migrateRecord acc k o = .ok r) (ho : acc[k]? = some o) :
    F.Converts k o r[k]? ∧ ∀ k' ≠ k, r[k']? = acc[k']? := by
  unfold FormatDescriptor.migrateRecord at h
  split at h
  · next hno =>
    obtain rfl := ok.inj h
    exact ⟨.inl ⟨by simpa using hno, ho⟩, fun _ _ => rfl⟩
  · next rule hru =>
    have hm := hru ▸ List.mem_singleton_self rule
    rw [List.mem_filter] at hm
    obtain ⟨_, -, h⟩ := bind_eq_ok.1 h
    obtain ⟨res, hcv, h⟩ := bind_eq_ok.1 h
    have hcs {r' : RecordMap J} (hr : r'[k]? = res) (hne : ∀ k' ≠ k, r'[k']? = acc[k']?)
        (htg : rule.targetVersion = res.map (·.schemaVersion))
        (htm : ∀ n ∈ res, n.modifiedAtEpochMs = o.modifiedAtEpochMs) :
        F.Converts k o r'[k]? ∧ ∀ k' ≠ k, r'[k']? = acc[k']? :=
      ⟨.inr ⟨rule, hm.1, hm.2, by rw [hr, hcv], hr ▸ htg, hr ▸ htm⟩, hne⟩
    cases res with
    | some n =>
      simp only [bind_eq_ok, rejectIf_eq_ok, pure_eq_ok, not_or, not_not] at h
      obtain ⟨_, ⟨htg, htm⟩, rfl⟩ := h
      exact hcs (by simp) (by grind) htg (by simpa using htm)
    | none =>
      simp only [bind_eq_ok, rejectIf_eq_ok, pure_eq_ok, Bool.not_eq_true, Option.isSome_eq_false_iff,
        Option.isNone_iff_eq_none] at h
      obtain ⟨_, htg, rfl⟩ := h
      exact hcs (by simp) (by grind) htg (by simp)
  · cases h

theorem converts_of_foldlM {l : List (String × CloudRecord J)} (hnd : l.Pairwise (·.1 ≠ ·.1))
    (hin : ∀ e ∈ l, acc[e.1]? = some e.2)
    (h : l.foldlM (fun acc e => F.migrateRecord acc e.1 e.2) acc = .ok r) :
    (∀ e ∈ l, F.Converts e.1 e.2 r[e.1]?) ∧ ∀ k, (∀ e ∈ l, e.1 ≠ k) → r[k]? = acc[k]? := by
  induction l generalizing acc with
  | nil =>
    obtain rfl := ok.inj h
    simp
  | cons e l ih =>
    obtain ⟨m, hm, h⟩ := bind_eq_ok.1 h
    obtain ⟨hne, hnd⟩ := List.pairwise_cons.1 hnd
    obtain ⟨hcv, hot⟩ := converts_of_migrateRecord hm (hin e (by simp))
    obtain ⟨hall, hno⟩ := ih hnd (fun d hd => by
      rw [hot d.1 (hne d hd).symm, hin d (by simp [hd])]) h
    refine ⟨?_, fun k hk => ?_⟩
    · rintro d (_ | ⟨_, hd⟩)
      · rwa [hno e.1 fun d hd => (hne d hd).symm]
      · exact hall d hd
    · rw [hno k fun d hd => hk d (by simp [hd]), hot k (hk e (by simp)).symm]

/-- The loop goes over all records, each under its own key. -/
theorem convertsAll_of_foldlM
    (h : m.toList.foldlM (fun acc e => F.migrateRecord acc e.1 e.2) m = .ok r) : F.ConvertsAll m r := by
  obtain ⟨hcv, hno⟩ := converts_of_foldlM (m.distinct_keys_toList.imp (by simp))
    (fun e he => mem_toList_iff_getElem?_eq_some.1 he) h
  intro k
  cases ho : m[k]? with
  | none =>
    refine (hno k ?_).trans ho
    rintro e he rfl
    simp [mem_toList_iff_getElem?_eq_some.1 he] at ho
  | some o => exact hcv (k, o) (mem_toList_iff_getElem?_eq_some.2 ho)

/-- A migration is that of the preceding format, followed by the rules of this one. -/
theorem convertsAll_of_migrate {p : FormatDescriptor J} {ps : List (FormatDescriptor J)} {source : Nat}
    (h : F.migrate (p :: ps) source m = .ok r) : source = F.version ∧ r = m ∨
      ∃ m', p.migrate ps source m = .ok m' ∧ F.ConvertsAll m' r := by
  unfold FormatDescriptor.migrate at h
  split_ifs at h with hv
  · exact .inl ⟨hv, (ok.inj h).symm⟩
  · obtain ⟨m', hm, h⟩ := bind_eq_ok.1 h
    exact .inr ⟨m', hm, convertsAll_of_foldlM h⟩

/-- The map changes only when the migration succeeds. -/
theorem run_migrateInPlace {ps : List (FormatDescriptor J)} {source : Nat} :
    (F.migrateInPlace ps source).run m =
      match F.migrate ps source m with
      | .ok r => .ok () r
      | .error e => .error e m := by
  induction ps generalizing F with
  | nil =>
    simp only [FormatDescriptor.migrateInPlace, FormatDescriptor.migrate]
    split <;> rfl
  | cons p ps ih =>
    simp only [FormatDescriptor.migrateInPlace, FormatDescriptor.migrate]
    split_ifs
    · rfl
    · simp only [EStateM.run_bind, EStateM.run_get, ih]
      cases p.migrate ps source m with
      | error e => rfl
      | ok m' =>
        change _ = match F.migrateRecords m' with | .ok r => _ | .error e => _
        cases hr : F.migrateRecords m' with
        | error e => simp only [EStateM.run_bind, EStateM.run_pure, hr]; rfl
        | ok r => simp only [EStateM.run_bind, EStateM.run_pure, hr]; rfl
    · rfl

theorem AccountFormat.migrateInPlace_eq {A : AccountFormat J} {source : Nat} :
    A.migrateInPlace source m =
      match A.migrate source m with
      | .ok r => (.ok (), r)
      | .error e => (.error e, m) := by
  simp only [migrateInPlace, migrate, Command.result, Command.final, run_migrateInPlace]
  cases A.current.migrate A.predecessors source m <;> rfl

theorem FormatDescriptor.ConvertsAll.exists_old {n : CloudRecord J} (h : F.ConvertsAll m r)
    (hn : r[k]? = some n) : ∃ o, m[k]? = some o ∧ F.Converts k o (some n) := by
  have hk := h k
  rw [hn] at hk
  cases ho : m[k]? with
  | none => simp [ho] at hk
  | some o => exact ⟨o, rfl, by simpa [ho] using hk⟩

/-- Converting the records of one format preserves what it is to preserve. -/
theorem FormatDescriptor.ConvertsAll.preserves (h : F.ConvertsAll m r) :
    Preserves F.migrations m r where
  old k n hn := by
    obtain ⟨o, ho, ⟨-, hno⟩ | ⟨_, -, -, -, -, htm⟩⟩ := h.exists_old hn
    · exact ⟨o, ho, by rw [Option.some.inj hno]⟩
    · exact ⟨o, ho, htm n rfl⟩
  lost k o ho hn := by
    have hk := h k
    simp only [ho, hn] at hk
    obtain ⟨-, hno⟩ | ⟨rule, hm, hmt, -, htg, -⟩ := hk
    · nomatch hno
    · exact ⟨rule, hm, hmt, htg⟩
  unmatched k hno := by
    have hk := h k
    cases ho : m[k]? with
    | none => simpa [ho] using hk
    | some o =>
      simp only [ho] at hk
      obtain ⟨-, hk⟩ | ⟨rule, hm, hmt, -⟩ := hk
      · exact hk
      · exact absurd hmt (hno rule hm)

theorem Preserves.trans {rs rs' : List (RecordMigration J)} {s : RecordMap J} (h : Preserves rs m r)
    (h' : Preserves rs' r s) : Preserves (rs' ++ rs) m s where
  old k n hn := by
    obtain ⟨o, ho, htm⟩ := h'.old k n hn
    obtain ⟨o', ho', htm'⟩ := h.old k o ho
    exact ⟨o', ho', htm.trans htm'⟩
  lost k o ho hn := by
    cases hr : r[k]? with
    | none =>
      obtain ⟨rule, hm, h⟩ := h.lost k o ho hr
      exact ⟨rule, List.mem_append_right _ hm, h⟩
    | some o' =>
      obtain ⟨rule, hm, h⟩ := h'.lost k o' hr hn
      exact ⟨rule, List.mem_append_left _ hm, h⟩
  unmatched k hno := by
    rw [h'.unmatched k fun rule hm => hno rule (List.mem_append_left _ hm),
      h.unmatched k fun rule hm => hno rule (List.mem_append_right _ hm)]

theorem Preserves.refl : Preserves [] m m where
  old _ n hn := ⟨n, hn, rfl⟩
  lost _ _ ho hn := nomatch ho.symm.trans hn
  unmatched _ _ := rfl

section Formats

variable (P : Primitives) (C : AccountCodec J) {source : Nat}

/-- The rules of the formats after the source, the last format first. -/
def appliedRules (source : Nat) : List (RecordMigration J) :=
  (((currentFormat P C).current :: (currentFormat P C).predecessors).filter
    (source < ·.version)).flatMap (·.migrations)

variable {P C}

/-- The three formats that an account can have. -/
theorem migrate_cases (h : (currentFormat P C).migrate source m = .ok r) : source = 3 ∧ r = m ∨
    source = 2 ∧ (currentFormat P C).current.ConvertsAll m r ∨
    source = 1 ∧ ∃ m', (format2 C).ConvertsAll m m' ∧ (currentFormat P C).current.ConvertsAll m' r := by
  obtain ⟨h3, rfl⟩ | ⟨m₂, h, hcv⟩ := convertsAll_of_migrate h
  · exact .inl ⟨h3, rfl⟩
  · obtain ⟨h2, rfl⟩ | ⟨m₁, h, hcv'⟩ := convertsAll_of_migrate h
    · exact .inr (.inl ⟨h2, hcv⟩)
    · unfold FormatDescriptor.migrate at h
      split at h
      · next h1 =>
        obtain rfl := ok.inj h
        exact .inr (.inr ⟨h1, m₂, hcv', hcv⟩)
      · nomatch h

/-- A migration preserves what is to be preserved, over any number of formats. -/
theorem migrate_preserves (h : (currentFormat P C).migrate source m = .ok r) :
    Preserves (appliedRules P C source) m r := by
  obtain ⟨rfl, rfl⟩ | ⟨rfl, hcv⟩ | ⟨rfl, m', hcv, hcv'⟩ := migrate_cases h
  · exact .refl
  · exact hcv.preserves
  · exact hcv.preserves.trans hcv'.preserves

variable (P C) in
/-- The key belongs to the record, and the record is valid as it is unless it is converted. -/
def ValidBefore (source : Nat) (key : String) (record : CloudRecord J) : Prop :=
  validateKeyBinding P C.toRecordCodec key { record with schemaVersion := RecordFamily.aircraft.version } =
    .ok () ∧
  ((∀ rule ∈ appliedRules P C source, ¬ rule.key.matchesKey key) →
    validateKnownRecord P C.toRecordCodec key record = .ok ())

/-- Neither text is the beginning of the other. -/
def Apart (start other : String) : Bool := !startsWith start other && !startsWith other start

variable {start other : String}

theorem not_startsWith (hk : startsWith k start) (ha : Apart start other) :
    ¬ startsWith k other := by
  simp only [Apart, startsWith, List.isPrefixOf_iff_prefix, Bool.and_eq_true, Bool.not_eq_true',
    ← Bool.not_eq_true] at *
  exact fun h => (List.prefix_or_prefix_of_prefix hk h).elim ha.2 ha.1

theorem stripStart_append {id : String} (ha : Apart start other) :
    stripStart (start ++ id) other = none := by
  have hno := @not_startsWith (start ++ id) start other (by simp [startsWith]) ha
  simpa [stripStart] using hno

/-- No key under the start matches the pattern. -/
def KeyPattern.Apart (start : String) : KeyPattern → Bool
  | is key => !startsWith key start
  | under other => Client.Apart start other
  | underAny others => others.all (Client.Apart start)

theorem KeyPattern.not_matchesKey {p : KeyPattern} (hp : p.Apart start)
    (hk : startsWith k start) : ¬ p.matchesKey k := by
  cases p with
  | is key =>
    rintro h
    obtain rfl : key = k := by simpa [matchesKey] using h
    simp [Apart, hk] at hp
  | under other => exact not_startsWith hk hp
  | underAny others => simpa [matchesKey] using fun o ho => not_startsWith hk (List.all_eq_true.1 hp o ho)

theorem validateKnownRecord_eq {f : RecordFamily} (hk : startsWith k start)
    (hf : f.key = .under start) (hap : ∀ g, g ≠ f → g.key.Apart start) (n : CloudRecord J) :
    validateKnownRecord P C.toRecordCodec k n = (do
      let _ ← n.decode C.toRecordCodec f
      validateKeyBinding P C.toRecordCodec k n) := by
  have hno : ∀ g, g ≠ f → g.key.matchesKey k = false := fun g hg => by
    simpa using KeyPattern.not_matchesKey (hap g hg) hk
  have hyes : f.key.matchesKey k = true := by rwa [hf]
  have hfd : RecordFamily.all.find? (·.key.matchesKey k) = some f := by
    cases f <;> simp [RecordFamily.all, hno, hyes]
  rw [validateKnownRecord, hfd]

section Valid

variable {n : CloudRecord J} (hb : validateKeyBinding P C.toRecordCodec k
  { o with schemaVersion := RecordFamily.aircraft.version } = .ok ())

include hb

theorem valid_definition (hk : startsWith k aircraftDefinitionKeyStart)
    (hcv : migrateAircraftDefinition C o = .ok (some n)) :
    validateKnownRecord P C.toRecordCodec k n = .ok () := by
  obtain ⟨_, hd, hn⟩ := bind_eq_ok.1 hcv
  obtain rfl := Option.some.inj (pure_eq_ok.1 hn)
  rw [validateKnownRecord_eq (f := .aircraft) hk rfl
    (by rintro ⟨⟩ hg <;> first | rfl | exact absurd rfl hg), hd]
  exact hb

theorem valid_membership (hC : ∀ v v', C.normalize .aircraftMembership v = .ok v' →
      C.normalize .aircraftMembership v' = .ok v')
    (hk : startsWith k aircraftLibraryRecordStart)
    (hcv : migrateLegacyMembership C o = .ok (some n)) :
    validateKnownRecord P C.toRecordCodec k n = .ok () := by
  simp only [migrateLegacyMembership, CloudRecord.encode, bind_eq_ok, pure_eq_ok, Option.some.injEq] at hcv
  obtain ⟨v, -, _, ⟨⟨⟩, htm, v', hno, rfl⟩, rfl⟩ := hcv
  have hst : stripStart k aircraftDefinitionKeyStart = none := by
    have hno := @not_startsWith k _ aircraftDefinitionKeyStart hk rfl
    simpa [stripStart] using hno
  rw [validateKnownRecord_eq (f := .aircraftMembership) hk rfl
    (by rintro ⟨⟩ hg <;> first | rfl | exact absurd rfl hg)]
  simp only [validateKeyBinding, hst] at hb ⊢
  refine bind_eq_ok.2 ⟨v', bind_eq_ok.2 ⟨(), by simp, bind_eq_ok.2 ⟨(), htm, hC _ _ hno⟩⟩, hb⟩

end Valid

/-- The migrated records are a valid page if the old ones were valid in their format. -/
theorem valid_of_migrate (hC : ∀ v v', C.normalize .aircraftMembership v = .ok v' →
      C.normalize .aircraftMembership v' = .ok v')
    (h : (currentFormat P C).migrate source m = .ok r)
    (hv : ∀ (k : String) o, m[k]? = some o → ValidBefore P C source k o) :
    validateCloudPage P C (pageForRecords r) = .ok () := by
  simp only [validateCloudPage, validateCloudRecords, pageForRecords, bind_eq_ok, forM_eq_ok]
  refine ⟨(), by simp, ?_⟩
  rintro ⟨k, n⟩ hkn
  have hn := mem_toList_iff_getElem?_eq_some.1 hkn
  by_cases hno : ∀ rule ∈ appliedRules P C source, ¬ rule.key.matchesKey k
  · exact (hv k n (((migrate_preserves h).unmatched k hno).symm.trans hn)).2 hno
  · have hdf {o : CloudRecord J} (hb : ValidBefore P C source k o) {rule} (hm : rule ∈
        (currentFormat P C).current.migrations) (hk : rule.key.matchesKey k)
        (hcv : rule.convert o = .ok (some n)) : validateKnownRecord P C.toRecordCodec k n = .ok () := by
      obtain rfl := List.mem_singleton.1 hm
      exact valid_definition hb.1 hk hcv
    obtain ⟨rfl, rfl⟩ | ⟨rfl, hcv⟩ | ⟨rfl, m', hcv, hcv'⟩ := migrate_cases h
    · exact absurd (fun _ h => nomatch h) hno
    · obtain ⟨o, ho, ⟨hun, -⟩ | ⟨rule, hm, hk, hcv, -⟩⟩ := hcv.exists_old hn
      · exact absurd hun hno
      · exact hdf (hv k o ho) hm hk hcv
    · obtain ⟨o', ho', hcv'⟩ := hcv'.exists_old hn
      obtain ⟨o, ho, hcv⟩ := hcv.exists_old ho'
      obtain ⟨hun, hno₂⟩ | ⟨rule, hm, hk, hcv, -⟩ := hcv
      · obtain rfl := Option.some.inj hno₂
        obtain ⟨hun', -⟩ | ⟨rule', hm', hk', hcv', -⟩ := hcv'
        · refine absurd (fun rule hm => ?_) hno
          exact (List.mem_append.1 hm).elim (hun' rule) (hun rule)
        · exact hdf (hv k o' ho) hm' hk' hcv'
      · -- the flight plan is gone, so that this is a record of the library
        obtain rfl | rfl := List.mem_pair.1 hm
        · nomatch hcv
        · obtain ⟨-, hno'⟩ | ⟨_, hm', hk', -⟩ := hcv'
          · obtain rfl := Option.some.inj hno'
            exact valid_membership (hv k o ho).1 hC hk hcv
          · obtain rfl := List.mem_singleton.1 hm'
            exact absurd hk' (KeyPattern.not_matchesKey rfl hk)

/-- A migration changes nothing or preserves what it is to preserve, it can be made in two stages, and
it makes a valid page of records that were valid before. -/
theorem account_migration_lossless (P : Primitives) (C : AccountCodec J) (source : Nat)
    (records : RecordMap J) :
    (∀ error, ((currentFormat P C).migrateInPlace source records).1 = .error error →
      ((currentFormat P C).migrateInPlace source records).2 = records) ∧
    (∀ migrated, (currentFormat P C).migrateInPlace source records = (.ok (), migrated) →
      Preserves (appliedRules P C source) records migrated ∧
      (∀ (key : String) old, records[key]? = some old → migrated[key]? = none →
        key = flightPlanRecordKey) ∧
      ((∀ value value', C.normalize .aircraftMembership value = .ok value' →
          C.normalize .aircraftMembership value' = .ok value') →
        (∀ (key : String) record, records[key]? = some record → ValidBefore P C source key record) →
        validateCloudPage P C (pageForRecords migrated) = .ok ())) ∧
    (currentFormat P C).migrate 1 records =
      (AccountFormat.mk (format2 C) [legacyFormat C]).migrate 1 records >>=
        (currentFormat P C).migrate 2 := by
  rw [AccountFormat.migrateInPlace_eq]
  refine ⟨fun error => ?_, fun migrated h => ?_, rfl⟩
  · cases (currentFormat P C).migrate source records with
    | error e => exact fun _ => rfl
    | ok m => exact nofun
  · replace h : (currentFormat P C).migrate source records = .ok migrated := by
      split at h
      · simp_all
      · simp at h
    have hpr := migrate_preserves h
    refine ⟨hpr, fun key old ho hn => ?_, fun hC hv => valid_of_migrate hC h hv⟩
    obtain ⟨rule, hm, hk, htg⟩ := hpr.lost key old ho hn
    have hall : rule ∈ (currentFormat P C).current.migrations ++ (format2 C).migrations := by
      obtain ⟨rfl, -⟩ | ⟨rfl, -⟩ | ⟨rfl, -⟩ := migrate_cases h
      · nomatch hm
      · exact List.mem_append_left _ hm
      · exact hm
    simp only [currentFormat, format2, historicalFormat, List.cons_append, List.nil_append,
      List.mem_cons, List.not_mem_nil, or_false] at hall
    obtain rfl | rfl | rfl := hall
    · nomatch htg
    · simpa [KeyPattern.matchesKey, eq_comm] using hk
    · nomatch htg

end Formats

namespace Sample

def includedText : String := "\x7b\"included\":true\x7d"

def legacyIncludedText : String := "\x7b\"included\":true,\"deleted\":true\x7d"

/-- `serde_json` on the values of `legacyRecords`. No node or page is read. -/
def legacyCodec : AccountCodec String where
  normalize _ value := if value ∈ [includedText, "true"] then .ok value else .error "invalid value"
  definitionBytes := strBytes
  recordBytes version value := strBytes ("[" ++ toString version ++ "," ++ value ++ "]")
  jsonTrue := "true"
  nodeToJson _ := "null"
  nodeFromJson _ := .error "not a node"
  pageToJson _ := "null"
  pageFromJson _ := .error "not a page"
  headerVersion _ := .error "not a node"
  legacyMembership value :=
    if value = legacyIncludedText then .ok includedText else .error "invalid membership"

def membershipKey : String := aircraftLibraryRecordStart ++ String.ofList (List.replicate 64 'a')

def debugRecord : CloudRecord String := ⟨1, some ⟨7, by decide⟩, "true"⟩

def membershipRecord (schemaVersion : Nat) (value : String) : CloudRecord String :=
  ⟨schemaVersion, some ⟨6, by decide⟩, value⟩

def legacyRecords : RecordMap String :=
  .ofList [(flightPlanRecordKey, ⟨3, some ⟨5, by decide⟩, "null"⟩),
    (membershipKey, membershipRecord 1 legacyIncludedText), ("settings/debug/tile_labels", debugRecord)]

end Sample

open Sample in
/-- An account of format 1 loses its flight plan; the membership is converted. -/
theorem account_migration_lossless_membership :
    ∃ migrated, (currentFormat standardPrimitives legacyCodec).migrateInPlace 1 legacyRecords =
        (.ok (), migrated) ∧
      migrated.toList = [(membershipKey, membershipRecord 2 includedText),
        ("settings/debug/tile_labels", debugRecord)] ∧
      validateCloudPage standardPrimitives legacyCodec (pageForRecords migrated) = .ok () := by
  have hal := account_migration_lossless standardPrimitives legacyCodec 1 legacyRecords
  have hmg : (currentFormat standardPrimitives legacyCodec).migrateInPlace 1 legacyRecords =
      (.ok (), .ofList [(membershipKey, membershipRecord 2 includedText),
        ("settings/debug/tile_labels", debugRecord)]) := by decide +kernel
  have hvb : ∀ e ∈ legacyRecords.toList, ValidBefore standardPrimitives legacyCodec 1 e.1 e.2 := by
    unfold ValidBefore
    decide +kernel
  refine ⟨_, hmg, by decide +kernel, (hal.2.1 _ hmg).2.2 (fun v v' h => ?_)
    fun key record hr => hvb (key, record) (mem_toList_iff_getElem?_eq_some.2 hr)⟩
  obtain rfl : v = v' := by
    simp only [legacyCodec] at h
    split at h
    · exact ok.inj h
    · nomatch h
  exact h

end Aerobag.Client
