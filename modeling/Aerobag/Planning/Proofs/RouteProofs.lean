import Aerobag.Planning.Layout
import Mathlib.Data.List.Nodup

/-!
# Facts about normalization and rebuilding

A plan that went through `normalized` is `Normal`: one valid uid for each component, all different.
What `rebuildPlanFromUidComponents` makes is described by `Rebuilt`.
-/

open List Option Except

namespace Aerobag.Planning

variable {ct : UInt64} {α : Type} {ms : String} {a : α}

/-- The text of a uid determines its number. -/
theorem routeComponentUid_injective : Function.Injective routeComponentUid := by
  intro m n h
  rw [routeComponentUid, routeComponentUid, ← String.toList_inj, String.toList_append,
    String.toList_append, append_cancel_left_eq, String.toList_inj] at h
  exact UInt64.toNat_inj.1
    (Text.hex_injective (by have := m.toNat_lt; omega) (by have := n.toNat_lt; omega) h)

theorem validUid_routeComponentUid (n : UInt64) : validUid (routeComponentUid n) = true := by
  have hne : routeComponentUid n ≠ "" := by
    rw [routeComponentUid, Ne, ← String.toList_inj]
    simp
  simpa [validUid] using hne

theorem iterate_succ_uInt64 (k : UInt64) (n : Nat) : (· + 1)^[n] k = k + UInt64.ofNat n := by
  induction n with
  | zero => simp
  | succ n ih =>
    rw [Function.iterate_succ_apply', ih, UInt64.add_assoc, UInt64.ofNat_add]
    rfl

variable {n : Nat}

/-- The counter gives no uid twice within its range. -/
theorem nextUids_nodup (h : n ≤ 2 ^ 64) : (nextUids ct n).Nodup := by
  refine .map routeComponentUid_injective ?_
  rw [← range_map_iterate]
  refine .map_on ?_ nodup_range
  intro i hi j hj heq
  rw [mem_range] at hi hj
  have hnt := congrArg UInt64.toNat heq
  simp only [iterate_succ_uInt64, UInt64.toNat_add, UInt64.toNat_ofNat'] at hnt
  omega

theorem nextUids_add (c : UInt64) (m n : Nat) :
    nextUids c (m + n) = nextUids c m ++ nextUids (c + UInt64.ofNat m) n := by
  rw [nextUids, iterate_add, map_append, iterate_succ_uInt64]
  rfl

@[simp] theorem length_nextUids : (nextUids ct n).length = n := by simp [nextUids]

theorem nextUids_mono {m : Nat} (h : m ≤ n) : nextUids ct m ⊆ nextUids ct n := by
  obtain ⟨k, rfl⟩ := Nat.exists_eq_add_of_le h
  rw [nextUids_add]
  exact subset_append_left _ _

/-- A plan that normalization leaves as it is. -/
structure Normal (plan : FlightPlan) : Prop extends Identified plan where
  aircraft : plan.aircraft.isSome
  legs : plan.resolvedLegs = [] → resolvedLegsFromWaypointComponents plan.routeComponents = []

variable {p : FlightPlan}

@[simp] theorem normalized_id : p.normalized.id = p.id := rfl

@[simp] theorem normalized_routeComponents : p.normalized.routeComponents = p.routeComponents := rfl

@[simp] theorem normalized_guidance : p.normalized.guidance = p.guidance := rfl

section SetGuidance

variable {gd : Option GuidanceState}

@[simp] theorem setGuidance_routeComponents :
    (p.setGuidance gd).routeComponents = p.routeComponents := rfl

@[simp] theorem setGuidance_routeComponentUids :
    (p.setGuidance gd).routeComponentUids = p.routeComponentUids := rfl

@[simp] theorem setGuidance_resolvedLegs : (p.setGuidance gd).resolvedLegs = p.resolvedLegs := rfl

@[simp] theorem setGuidance_setGuidance {o : Option GuidanceState} :
    (p.setGuidance o).setGuidance gd = p.setGuidance gd := rfl

end SetGuidance

theorem normalized_resolvedLegs : p.normalized.resolvedLegs =
    if p.resolvedLegs.isEmpty then resolvedLegsFromWaypointComponents p.routeComponents
    else p.resolvedLegs := rfl

/-- The loop that looks for an unused uid finds one: there are more uids than a vector can hold. -/
theorem unusedRouteComponentUid_spec {s : List String} (h : s.length < 2 ^ 64) :
    (unusedRouteComponentUid s ct).1 ∉ s ∧ validUid (unusedRouteComponentUid s ct).1 = true := by
  refine ⟨Identities.firstFree_notMem (nextUids_nodup h), ?_⟩
  obtain ⟨n, hn⟩ := Identities.exists_firstFree_eq routeComponentUid (· + 1) s.length s ct
  rw [unusedRouteComponentUid, hn]
  exact validUid_routeComponentUid n

theorem identified_normalized (h : p.routeComponents.length ≤ 2 ^ 64) :
    Identified p.normalized := by
  obtain ⟨hnd, hm⟩ := Identities.assign_spec [] p.routeComponentUidCounter
    ((List.range p.routeComponents.length).map (p.routeComponentUids[·]?))
    (fun _ _ => unusedRouteComponentUid_spec) (by simpa using h)
  refine ⟨?_, hnd, fun uid hu => ?_⟩
  · simp [FlightPlan.normalized, normalizeRouteComponentUids]
  · simpa [validUid] using (hm uid hu).2

/-- Normalization makes every plan normal. -/
theorem normal_normalized (h : p.routeComponents.length ≤ 2 ^ 64) : Normal p.normalized := by
  refine ⟨identified_normalized h, rfl, fun hlg => ?_⟩
  rw [normalized_resolvedLegs] at hlg
  split at hlg
  · exact hlg
  · rename_i hne
    exact absurd (by simp [hlg]) hne

theorem Identified.assign_eq (h : Identified p) {t : List String → UInt64 → String × UInt64}
    (htk : ∀ s c, routeComponentUid c ∉ s → t s c = (routeComponentUid c, c + 1)) :
    Identities.assign validUid t [] p.routeComponentUidCounter (p.routeComponentUids.map some) =
      (p.routeComponentUids, p.routeComponentUidCounter) := by
  rw [Identities.assign_eq_fill routeComponentUid (· + 1) htk, Identities.fill_map_some]
  · intro uid hu
    have hm : uid ∈ p.routeComponentUids := by simpa using hu
    simpa [validUid] using h.valid uid hm
  · rw [Identities.fill_map_some]
    exact h.nodup
  · simp

theorem Identified.normalizeRouteComponentUids_eq (h : Identified p) :
    normalizeRouteComponentUids p = p := by
  have he : (List.range p.routeComponents.length).map (p.routeComponentUids[·]?) =
      p.routeComponentUids.map some := by
    rw [← h.length_uids]
    exact ext_getElem (by simp) fun i hi _ => by simp
  rw [normalizeRouteComponentUids, he, h.assign_eq fun _ _ => Identities.firstFree_of_notMem]

theorem Normal.normalized_eq (h : Normal p) : p.normalized = p := by
  obtain ⟨aircraft, har⟩ := isSome_iff_exists.1 h.aircraft
  rw [FlightPlan.normalized, h.normalizeRouteComponentUids_eq]
  cases hlg : p.resolvedLegs with
  | nil =>
    have hn := h.legs hlg
    cases p
    simp_all
  | cons leg ls =>
    cases p
    simp_all

theorem Normal.setGuidance {g : Option GuidanceState} (h : Normal p) : Normal (p.setGuidance g) :=
  ⟨⟨h.length_uids, h.nodup, h.valid⟩, h.aircraft, h.legs⟩

theorem checkedSub_eq_some {m k : Nat} : checkedSub m k = some n ↔ n + k = m := by
  rw [checkedSub, ite_none_right_eq_some, some.injEq]
  omega

@[simp] theorem invalidFlightPlan_ne_ok {m : String} :
    (invalidFlightPlan m : AppResult α) ≠ .ok a := nofun

variable {x : AppResult α} {β : Type} {k : β → AppResult α} {bad : Prop}

@[simp] theorem unless_invalidFlightPlan_eq_ok [Decidable bad]
    :
    (if bad then invalidFlightPlan ms >>= k else x) = .ok a ↔ ¬ bad ∧ x = .ok a := by
  split
  · rename_i hbd
    exact ⟨nofun, fun h => absurd hbd h.1⟩
  · rename_i hgd
    exact ⟨fun h => ⟨hgd, h⟩, And.right⟩

@[simp] theorem unless_unsupportedOperation_eq_ok [Decidable bad]
    :
    (if bad then unsupportedOperation ms >>= k else x) = .ok a ↔ ¬ bad ∧ x = .ok a := by
  split
  · rename_i hbd
    exact ⟨nofun, fun h => absurd hbd h.1⟩
  · rename_i hgd
    exact ⟨fun h => ⟨hgd, h⟩, And.right⟩

variable {G : Geodesy} {op rt : FlightPlan} {rb : List RebuiltRouteComponent}
  {pl : GuidanceRebuildPolicy}

/-- When a rebuild succeeds, and what it makes. -/
theorem rebuildRoute_eq_ok : rebuildRoute G op rb = .ok rt ↔
    validateRouteAttachments (rb.map (·.component)) (materializedUids op rb).1 =
        .ok () ∧ validateFinalProcedureGeometry G (rebuiltLegs rb) = .ok () ∧
      validatePreservedGroupedLegOrder (materializedLegs rb) (rebuiltLegs rb) = .ok () ∧
      validateAirwayGeometry (rebuiltRoute op rb) = .ok () ∧ rebuiltRoute op rb = rt := by
  constructor
  · intro h
    obtain ⟨⟨⟩, hat, h⟩ := bind_eq_ok.1 h
    obtain ⟨⟨⟩, htr, h⟩ := bind_eq_ok.1 h
    obtain ⟨⟨⟩, hor, h⟩ := bind_eq_ok.1 h
    obtain ⟨⟨⟩, har, h⟩ := bind_eq_ok.1 h
    exact ⟨hat, htr, hor, har, pure_eq_ok.1 h⟩
  · rintro ⟨hat, htr, hor, har, rfl⟩
    simp only [rebuildRoute, hat, htr, hor, har]
    rfl

theorem rebuildPlanFromUidComponents_eq_ok : rebuildPlanFromUidComponents G op rb pl = .ok p ↔
      ∃ r, rebuildRoute G op.normalized rb = .ok r ∧
        ∃ g, rebuiltGuidance op.normalized r pl = .ok g ∧ r.setGuidance g = p := by
  simp only [rebuildPlanFromUidComponents, bind_eq_ok, pure_eq_ok]

theorem airwaysBound_of_validateAirwayGeometry (h : validateAirwayGeometry p = .ok ()) :
    AirwaysBound p := by
  intro i aw har
  have hm : (.airway aw, i) ∈ p.routeComponents.zipIdx := mk_mem_zipIdx_iff_getElem?.2 har
  have hv := forM_eq_ok.1 h _ hm
  obtain ⟨es, hbd, -⟩ := bind_eq_ok.1 hv
  exact ⟨es, hbd⟩

/-- An accepted plan is normalized, and its airways are bound. -/
theorem buildFlightPlan_eq_ok {st : FlightPlan} (h : buildFlightPlan G st = .ok p) :
    p = st.normalized ∧ AirwaysBound p := by
  obtain ⟨⟨⟩, -, h⟩ := bind_eq_ok.1 h
  obtain ⟨⟨⟩, har, h⟩ := bind_eq_ok.1 h
  split at h
  · cases h
  · obtain ⟨⟨⟩, -, h⟩ := bind_eq_ok.1 h
    obtain rfl := pure_eq_ok.1 h
    exact ⟨rfl, airwaysBound_of_validateAirwayGeometry har⟩

end Aerobag.Planning
