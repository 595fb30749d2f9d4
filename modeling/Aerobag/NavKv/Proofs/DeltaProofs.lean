import Aerobag.Lib.Lists
import Aerobag.NavKv.Delta
import Aerobag.NavKv.Proofs.FormatProofs

/-!
# What deltas of nav_kv pairs do

A list that the validators accept is in the order of its keys, and so it is determined by the value
that it has under each key. `Join.lookup_merge` says what the two loops do under a key.
-/

open Option Except

namespace Aerobag.NavKv

open Search Join

variable {ps source target : List NavKvPair} {dl : NavKvDelta} {key : String}

theorem validateSortedUnique_eq_ok {α : Type} {w : String} {key : α → String} {hae : α → Bool}
    {p : Option String} {xs : List α} : validateSortedUnique w key hae p xs = .ok () ↔
      (∀ x ∈ xs, key x ≠ "" ∧ hae x = false) ∧ Ascends (fun x => strBytes (key x)) xs ∧
      ∀ b ∈ p, ∀ x ∈ xs, strBytes b < strBytes (key x) := by
  refine Lists.ascending_iff (f := key) (r := fun b next => strBytes b < strBytes next)
    (P := fun p xs => validateSortedUnique w key hae p xs = .ok ()) .trans rfl ?_
  intro p x rs
  cases p with
  | none => simp [validateSortedUnique, bind_eq_ok, and_assoc]
  | some b =>
    cases hcm : compareBytes (strBytes b) (strBytes (key x)) with
    | lt => simp [validateSortedUnique, bind_eq_ok, hcm, compareBytes_eq_lt.1 hcm, and_assoc]
    | eq =>
      have hnt := (compareBytes_eq_eq.1 hcm).ge.not_gt
      simp [validateSortedUnique, bind_eq_ok, hcm, hnt]
    | gt =>
      have hnt := (compareBytes_eq_gt.1 hcm).not_gt
      simp [validateSortedUnique, bind_eq_ok, hcm, hnt]

theorem validateSortedUniquePairs_eq_ok : validateSortedUniquePairs ps = .ok () ↔
      (∀ p ∈ ps, p.key ≠ "" ∧ p.value ≠ []) ∧ Ascends NavKvPair.sortKey ps := by
  refine validateSortedUnique_eq_ok.trans (and_congr ?_ (and_iff_left (by simp)))
  simp

theorem validateSortedUniqueDelta_eq_ok : validateSortedUniqueDelta dl = .ok () ↔
      (∀ e ∈ dl.entries, e.key ≠ "" ∧ e.value ≠ some []) ∧
      Ascends NavKvDeltaEntry.sortKey dl.entries := by
  refine validateSortedUnique_eq_ok.trans (and_congr ?_ (and_iff_left (by simp)))
  refine forall₂_congr fun e _ => and_congr_right fun _ => ?_
  cases e.value <;> simp

/-- The value under a key. -/
def valueAt (pairs : List NavKvPair) (key : String) : Option Bytes :=
  (pairs.find? fun pair => pair.key = key).map (·.value)

/-- The values after the changes of a delta. -/
def setAll (values : String → Option Bytes) (entries : List NavKvDeltaEntry) : String → Option Bytes :=
  entries.foldl (fun values entry => Function.update values entry.key entry.value) values

theorem map_lookup_eq_valueAt :
    (lookup NavKvPair.sortKey (strBytes key) ps).map (·.value) = valueAt ps key := by
  simp [lookup, valueAt, NavKvPair.sortKey, strBytes_injective.eq_iff]

theorem setAll_apply {es : List NavKvDeltaEntry} (h : Ascends NavKvDeltaEntry.sortKey es)
    (vs : String → Option Bytes) : setAll vs es key =
      (lookup NavKvDeltaEntry.sortKey (strBytes key) es).elim (vs key) (·.value) := by
  induction es generalizing vs with
  | nil => rfl
  | cons e r ih =>
    obtain ⟨hf, hr⟩ := List.pairwise_cons.1 h
    rw [show setAll vs (e :: r) = setAll (Function.update vs e.key e.value) r
      from rfl, ih hr, lookup_cons]
    by_cases hk : e.key = key
    · have hn : lookup NavKvDeltaEntry.sortKey (strBytes key) r = none := hk ▸ lookup_of_lt hf
      simp [hn, NavKvDeltaEntry.sortKey, hk]
    · have hne : e.sortKey ≠ strBytes key := fun h => hk (strBytes_injective h)
      rw [if_neg hne, Function.update_of_ne (Ne.symm hk)]

theorem keyed_deltaEntry :
    Keyed NavKvPair.sortKey NavKvPair.sortKey NavKvDeltaEntry.sortKey deltaEntry where
  neither := rfl
  left _ _ he := some.inj he ▸ rfl
  right _ _ he := some.inj he ▸ rfl
  both fromPair toPair hk entry he := by
    rw [mem_def, deltaEntry, ite_none_right_eq_some] at he
    exact some.inj he.2 ▸ hk.symm

theorem keyed_patchedPair :
    Keyed NavKvPair.sortKey NavKvDeltaEntry.sortKey NavKvPair.sortKey patchedPair where
  neither := rfl
  left _ _ hpr := some.inj hpr ▸ rfl
  right entry pair hpr := by
    obtain ⟨v, -, rfl⟩ := map_eq_some_iff.1 hpr
    rfl
  both source entry hk pair hpr := by
    obtain ⟨v, -, rfl⟩ := map_eq_some_iff.1 hpr
    exact hk.symm

/-- Key by key, applying the difference gives the target. -/
theorem patchedPair_deltaEntry {k : Bytes} {a b : Option NavKvPair} (ha : ∀ p ∈ a, p.sortKey = k)
    (hb : ∀ p ∈ b, p.sortKey = k) : patchedPair a (deltaEntry a b) = b ∧
      (deltaEntry a b = none ↔ a.map NavKvPair.value = b.map NavKvPair.value) := by
  cases a with
  | none => cases b <;> simp [deltaEntry, patchedPair]
  | some src =>
    cases b with
    | none => simp [deltaEntry, patchedPair]
    | some t =>
      have hk : src.key = t.key := strBytes_injective ((ha src rfl).trans (hb t rfl).symm)
      by_cases hv : src.value = t.value
      · have hsm : src = t := by
          cases src
          simp_all
        simp [deltaEntry, patchedPair, hsm]
      · simp [deltaEntry, patchedPair, hv]

theorem sortKey_of_lookup {k : Bytes} (h : Ascends NavKvPair.sortKey ps) :
    ∀ p ∈ lookup NavKvPair.sortKey k ps, p.sortKey = k :=
  fun _ hpr => ((lookup_eq_some h).1 hpr).2

/-- When a delta can be applied, and what comes out. -/
theorem applyNavKvDelta_eq_ok (hsr : validateSortedUniquePairs source = .ok ())
    (hd : validateSortedUniqueDelta dl = .ok ()) :
    ∃ res, applyNavKvDelta source dl = .ok res ∧ validateSortedUniquePairs res = .ok () ∧
      (∀ k, lookup NavKvPair.sortKey k res = patchedPair (lookup NavKvPair.sortKey k source)
        (lookup NavKvDeltaEntry.sortKey k dl.entries)) := by
  obtain ⟨hpa, hac⟩ := validateSortedUniquePairs_eq_ok.1 hsr
  obtain ⟨hen, hac'⟩ := validateSortedUniqueDelta_eq_ok.1 hd
  have hlk := lookup_merge keyed_patchedPair hac hac'
  have hr := ascends_merge keyed_patchedPair hac hac'
  refine ⟨_, by simp only [applyNavKvDelta, hsr, hd]; rfl,
    validateSortedUniquePairs_eq_ok.2 ⟨fun p hpr => ?_, hr⟩, hlk⟩
  have hpr' := (lookup_eq_some hr).2 ⟨hpr, rfl⟩
  rw [hlk] at hpr'
  cases he : lookup NavKvDeltaEntry.sortKey p.sortKey dl.entries with
  | none =>
    rw [he] at hpr'
    exact hpa p ((lookup_eq_some hac).1 hpr').1
  | some e =>
    rw [he] at hpr'
    obtain ⟨v, hv, rfl⟩ := map_eq_some_iff.1 hpr'
    obtain ⟨hk, hv'⟩ := hen e ((lookup_eq_some hac').1 he).1
    exact ⟨hk, fun h => hv' (hv.trans (congrArg some h))⟩

theorem eq_of_deltaEntry {a b : Option NavKvPair} {e : NavKvDeltaEntry} (h : deltaEntry a b = some e) :
    (∃ p ∈ a, e = ⟨p.key, none⟩) ∨ ∃ p ∈ b, e = ⟨p.key, some p.value⟩ := by
  cases a <;> cases b <;> simp_all [deltaEntry]

/-- The delta has an entry for just the keys that differ. -/
theorem buildNavKvDelta_eq_ok (hsr : validateSortedUniquePairs source = .ok ())
    (htr : validateSortedUniquePairs target = .ok ()) :
    ∃ d, buildNavKvDelta source target = .ok d ∧ validateSortedUniqueDelta d = .ok () ∧
      (∀ k, lookup NavKvDeltaEntry.sortKey k d.entries =
        deltaEntry (lookup NavKvPair.sortKey k source) (lookup NavKvPair.sortKey k target)) := by
  obtain ⟨hpr, hac⟩ := validateSortedUniquePairs_eq_ok.1 hsr
  obtain ⟨hpr', hac'⟩ := validateSortedUniquePairs_eq_ok.1 htr
  have hlk := lookup_merge keyed_deltaEntry hac hac'
  have hd := ascends_merge keyed_deltaEntry hac hac'
  refine ⟨⟨_⟩, by simp only [buildNavKvDelta, hsr, htr]; rfl,
    validateSortedUniqueDelta_eq_ok.2 ⟨fun e he => ?_, hd⟩, hlk⟩
  have he' := (lookup_eq_some hd).2 ⟨he, rfl⟩
  rw [hlk] at he'
  rcases eq_of_deltaEntry he' with ⟨p, hpa, rfl⟩ | ⟨p, hpa, rfl⟩
  · exact ⟨(hpr p ((lookup_eq_some hac).1 hpa).1).1, by simp⟩
  · have hv := hpr' p ((lookup_eq_some hac').1 hpa).1
    exact ⟨hv.1, by simpa using hv.2⟩

/-- The delta of two lists has an entry exactly for the keys whose values differ, and leads from the one
to the other. Applying any delta sets and deletes what its entries say. -/
theorem nav_kv_delta_exact (hsource : validateSortedUniquePairs source = .ok ())
    (htarget : validateSortedUniquePairs target = .ok ()) :
    (∃ delta, buildNavKvDelta source target = .ok delta ∧ validateSortedUniqueDelta delta = .ok () ∧
      (∀ key, (∃ entry ∈ delta.entries, entry.key = key) ↔ valueAt source key ≠ valueAt target key) ∧
      applyNavKvDelta source delta = .ok target) ∧
    ∀ delta, validateSortedUniqueDelta delta = .ok () →
      ∃ result, applyNavKvDelta source delta = .ok result ∧ validateSortedUniquePairs result = .ok () ∧
        valueAt result = setAll (valueAt source) delta.entries := by
  have hac := (validateSortedUniquePairs_eq_ok.1 hsource).2
  have hac' := (validateSortedUniquePairs_eq_ok.1 htarget).2
  constructor
  · obtain ⟨delta, hbl, hd, hlk⟩ := buildNavKvDelta_eq_ok hsource htarget
    obtain ⟨result, hap, hr, hvl⟩ := applyNavKvDelta_eq_ok hsource hd
    have hpt := fun k =>
      @patchedPair_deltaEntry k _ _ (sortKey_of_lookup hac) (sortKey_of_lookup hac')
    refine ⟨delta, hbl, hd, fun key => ?_, ?_⟩
    · have he : (∃ entry ∈ delta.entries, entry.key = key) ↔
          lookup NavKvDeltaEntry.sortKey (strBytes key) delta.entries ≠ none := by
        simp [lookup_eq_none, NavKvDeltaEntry.sortKey, strBytes_injective.eq_iff]
      rw [he, hlk, ← map_lookup_eq_valueAt, ← map_lookup_eq_valueAt]
      exact not_congr (hpt _).2
    · have hsm : result = target := (validateSortedUniquePairs_eq_ok.1 hr).2.ext hac' fun k => by
        rw [hvl, hlk, (hpt k).1]
      exact hsm ▸ hap
  · intro delta hd
    obtain ⟨result, hap, hr, hvl⟩ := applyNavKvDelta_eq_ok hsource hd
    refine ⟨result, hap, hr, funext fun key => ?_⟩
    rw [setAll_apply (validateSortedUniqueDelta_eq_ok.1 hd).2, ← map_lookup_eq_valueAt, hvl,
      ← map_lookup_eq_valueAt]
    cases lookup NavKvDeltaEntry.sortKey (strBytes key) delta.entries with
    | none => rfl
    | some entry => cases hv : entry.value <;> simp [patchedPair, hv]

/-- A value is replaced, one is deleted and one is added. -/
theorem nav_kv_delta_exact_mixed :
    ∃ delta, buildNavKvDelta [⟨"a", [1]⟩, ⟨"b", [2]⟩] [⟨"a", [9]⟩, ⟨"c", [3]⟩] = .ok delta ∧
      applyNavKvDelta [⟨"a", [1]⟩, ⟨"b", [2]⟩] delta = .ok [⟨"a", [9]⟩, ⟨"c", [3]⟩] := by
  obtain ⟨⟨delta, hbl, -, -, hap⟩, -⟩ := @nav_kv_delta_exact [⟨"a", [1]⟩, ⟨"b", [2]⟩]
    [⟨"a", [9]⟩, ⟨"c", [3]⟩] (by decide +kernel) (by decide +kernel)
  exact ⟨delta, hbl, hap⟩

end Aerobag.NavKv
