import Aerobag.Planning.Proofs.IdentityProofs
import Aerobag.Planning.Proofs.LegProofs

/-!
# Rebuilding a route

What the legs of a rebuilt route are (`Follows`), and that rebuilding it again changes nothing. Both
fail for a route that is one waypoint over and over.
-/

open List Except

namespace Aerobag.Planning

/-- An airway or a procedure brings legs with it, a waypoint none. -/
inductive Supplied : RebuiltRouteComponent → Prop
  | waypoint (uid : Option String) (waypoint : NavRef) : Supplied ⟨uid, .waypoint waypoint, none⟩
  | grouped (uid : Option String) (component : RouteComponent) (first : ResolvedLeg)
      (more : List ResolvedLeg) (hgrouped : component.isWaypoint = false) :
      Supplied ⟨uid, component, some (first :: more)⟩

def RebuiltRouteComponent.entry (given : RebuiltRouteComponent) : Option NavRef :=
  match given.component with
  | .waypoint waypoint => some waypoint
  | _ => (given.preservedLegs.getD []).head?.map (·.fromRef)

/-- Where the route is after the component, unless that is left open. -/
def RebuiltRouteComponent.exit (given : RebuiltRouteComponent) : Option NavRef :=
  match given.component with
  | .waypoint waypoint => some waypoint
  | component => if component.hasTerminalDiscontinuity then none
    else (given.preservedLegs.getD []).getLast?.map (·.toRef)

/-- A waypoint with the same one after it. Of equal waypoints in a row the last one is an anchor. -/
def repeated (given : RebuiltRouteComponent) (rest : List RebuiltRouteComponent) : Bool :=
  match given.component, rest.map RebuiltRouteComponent.component with
  | .waypoint waypoint, .waypoint next :: _ => next == waypoint
  | _, _ => false

/-- The source and the ends of the bridge from the anchor before to the component, if there is one. -/
def bridgeTo (previous : Option (Nat × NavRef)) (index : Nat) (given : RebuiltRouteComponent) :
    List (ResolvedLegSource × NavRef × NavRef) :=
  match previous, given.entry with
  | some (place, anchor), some entry =>
    if anchor == entry || sidStartsAtMatchingOrigin given.component previous then []
    else [(.syntheticBridge place index, anchor, entry)]
  | _, _ => []

def ResolvedLeg.ends (leg : ResolvedLeg) : ResolvedLegSource × NavRef × NavRef :=
  (leg.source, leg.fromRef, leg.toRef)

/-- The legs lead from anchor to anchor: over a bridge, if it takes one, to the component, along the
legs that were given for it, and on from where it ends. -/
inductive Follows : Option (Nat × NavRef) → Nat → List RebuiltRouteComponent → List ResolvedLeg → Prop
  | nil {previous index} : Follows previous index [] []
  | skip {previous index given rest legs} (hrepeated : repeated given rest = true)
      (htail : Follows previous (index + 1) rest legs) : Follows previous index (given :: rest) legs
  | cons {previous index given rest bridge tail} (hrepeated : repeated given rest = false)
      (hbridge : bridge.map ResolvedLeg.ends = bridgeTo previous index given)
      (htail : Follows (given.exit.map (index, ·)) (index + 1) rest tail) :
      Follows previous index (given :: rest)
        (bridge ++ rewriteGroupedLegsSource (given.preservedLegs.getD []) index ++ tail)

variable {plan oldPlan : FlightPlan} {rebuilt rest : List RebuiltRouteComponent}
  {gv : RebuiltRouteComponent} {legs : List ResolvedLeg} {previous p : Option (Nat × NavRef)}
  {index : Nat} {leg : ResolvedLeg}

theorem map_syntheticBridgeIfNeeded (num : Nat) (tg : NavRef) :
    (syntheticBridgeIfNeeded num p index tg).map ResolvedLeg.ends = match p with
      | some (place, anchor) =>
        if anchor == tg then [] else [(.syntheticBridge place index, anchor, tg)]
      | none => [] := by
  cases p with
  | none => rfl
  | some p =>
    rw [syntheticBridgeIfNeeded]
    split <;> simp [ResolvedLeg.ends, *]

/-- The components with their legs, as the loop of `rebuildResolvedLegs` takes them. -/
def supply (index : Nat) (rebuilt : List RebuiltRouteComponent) :
    List (RouteComponent × Option (List ResolvedLeg)) :=
  (rebuilt.zipIdx index).map fun (given, index) =>
    (given.component, given.preservedLegs.map (rewriteGroupedLegsSource · index))

theorem rebuildResolvedLegs_waypoint (uid : Option String) (w : NavRef)
    (r : List RebuiltRouteComponent) (num i : Nat) (p : Option (Nat × NavRef)) :
    rebuildResolvedLegs num p i (supply i (⟨uid, .waypoint w, none⟩ :: r)) =
      if repeated ⟨uid, .waypoint w, none⟩ r then
        rebuildResolvedLegs num p (i + 1) (supply (i + 1) r)
      else let b := syntheticBridgeIfNeeded num p i w
        b ++ rebuildResolvedLegs (num + b.length) (some (i, w)) (i + 1) (supply (i + 1) r) := by
  cases r with
  | nil => rfl
  | cons next r =>
    obtain ⟨uid', c, ls⟩ := next
    cases c <;> rfl

section Grouped

variable {uid : Option String} {component : RouteComponent} {first : ResolvedLeg}
  {mr : List ResolvedLeg} (hgrp : component.isWaypoint = false)
include hgrp

theorem map_bridge_grouped (num : Nat) : (if sidStartsAtMatchingOrigin component previous then []
      else syntheticBridgeIfNeeded num previous index first.fromRef).map ResolvedLeg.ends =
      bridgeTo previous index ⟨uid, component, some (first :: mr)⟩ := by
  have he : RebuiltRouteComponent.entry ⟨uid, component, some (first :: mr)⟩ =
      some first.fromRef := by
    cases component with
    | waypoint w => cases hgrp
    | _ => rfl
  rw [apply_ite (List.map _), map_syntheticBridgeIfNeeded]
  cases previous with
  | none => simp [bridgeTo]
  | some anc =>
    by_cases hsd : sidStartsAtMatchingOrigin component (some anc) <;> simp [bridgeTo, he, hsd]

theorem exit_grouped :
    (RebuiltRouteComponent.exit ⟨uid, component, some (first :: mr)⟩).map (index, ·) =
      if component.hasTerminalDiscontinuity then none else some (index,
        ((rewriteGroupedLegsSource (first :: mr) index).getLast (cons_ne_nil _ _)).toRef) := by
  simp only [rewriteGroupedLegsSource, getLast_map]
  cases component with
  | waypoint w => cases hgrp
  | _ => simp [RebuiltRouteComponent.exit, getLast?_eq_some_getLast, apply_ite (Option.map _)]

end Grouped

theorem follows_rebuildResolvedLegs (hsp : ∀ g ∈ rebuilt, Supplied g)
    (num i : Nat) (p : Option (Nat × NavRef)) : Follows p i rebuilt
      (rebuildResolvedLegs num p i (supply i rebuilt)) := by
  induction rebuilt generalizing num i p with
  | nil => exact .nil
  | cons g r ih =>
    obtain ⟨hgv, hr⟩ := forall_mem_cons.1 hsp
    cases hgv with
    | waypoint uid w =>
      rw [rebuildResolvedLegs_waypoint]
      split
      · exact .skip ‹_› (ih hr num (i + 1) p)
      · rw [← append_nil (syntheticBridgeIfNeeded num p i w)]
        refine .cons (Bool.eq_false_iff.2 ‹_›) ?_ (ih hr _ _ _)
        rw [map_syntheticBridgeIfNeeded]
        cases p <;> simp [bridgeTo, RebuiltRouteComponent.entry, sidStartsAtMatchingOrigin]
    | grouped uid c first m hgr =>
      have hnt : repeated ⟨uid, c, some (first :: m)⟩ r = false := by
        cases c with
        | waypoint w => cases hgr
        | _ => rfl
      have hbr := @map_bridge_grouped p i uid c first m hgr num
      refine .cons hnt hbr ?_
      rw [exit_grouped hgr]
      exact ih hr _ _ _

/-- The legs that are made follow the components that were given. -/
theorem follows_rebuiltLegs (hsp : ∀ g ∈ rebuilt, Supplied g) :
    Follows none 0 rebuilt (rebuiltLegs rebuilt) := by
  have hsu : (rebuilt.map (·.component)).zip (materializedLegs rebuilt) = supply 0 rebuilt := by
    refine ext_getElem? fun i => ?_
    rw [getElem?_zip_materializedLegs, supply, getElem?_map, getElem?_zipIdx]
    simp [Function.comp_def]
  rw [rebuiltLegs, rebuildResolvedLegsWithGroupedComponents, hsu]
  exact follows_rebuildResolvedLegs hsp 0 0 none

/-- The leg was given with one of the components. -/
def Given (index : Nat) (rebuilt : List RebuiltRouteComponent) (leg : ResolvedLeg) : Prop :=
  ∃ place given, rebuilt[place]? = some given ∧ given.preservedLegs.getD [] ≠ [] ∧
    leg.source = .routeComponent (index + place)

theorem Given.cons {g : RebuiltRouteComponent}
    (h : Given (index + 1) rest leg) : Given index (g :: rest) leg := by
  obtain ⟨p, g, hg, hne, hsr⟩ := h
  exact ⟨p + 1, g, hg, hne, by rw [hsr]; congr 1; omega⟩

theorem differs_of_mem_bridge {b : List ResolvedLeg}
    (hbr : b.map ResolvedLeg.ends = bridgeTo previous index gv) (hlg : leg ∈ b) :
    (leg.fromRef == leg.toRef) = false := by
  have hm : leg.ends ∈ bridgeTo previous index gv := hbr ▸ List.mem_map_of_mem hlg
  unfold bridgeTo at hm
  split at hm
  · split at hm
    · cases hm
    · rename_i hdf
      simp only [Bool.or_eq_true, not_or, Bool.not_eq_true] at hdf
      simp only [ResolvedLeg.ends, mem_singleton, Prod.mk.injEq] at hm
      obtain ⟨-, rfl, rfl⟩ := hm
      exact hdf.1
  · cases hm

variable {i : Nat}

/-- A leg that leads from a place to itself was given. -/
theorem Follows.mem (h : Follows p i rebuilt legs) (hlg : leg ∈ legs) :
    (leg.fromRef == leg.toRef) = false ∨ Given i rebuilt leg := by
  induction h with
  | nil => cases hlg
  | skip _ _ ih => exact (ih hlg).imp_right .cons
  | @cons p i g r b t _ hbr _ ih =>
    rcases mem_append.1 hlg with hlg | hlg
    · rcases mem_append.1 hlg with hlg | hlg
      · exact .inl (differs_of_mem_bridge hbr hlg)
      · obtain ⟨old, hl, rfl⟩ := List.mem_map.1 hlg
        exact .inr ⟨0, g, rfl, ne_nil_of_mem hl, rfl⟩
    · exact (ih hlg).imp_right .cons

/-- Each component is a waypoint with the same one after it, up to the last. -/
def Repeats (rebuilt : List RebuiltRouteComponent) : Prop :=
  rebuilt.IsChain fun given next => repeated given [next] = true

theorem repeated_iff : repeated gv rest = true ↔ ∃ w h t next,
    gv.component = .waypoint w ∧ rest = h :: t ∧ h.component = .waypoint next ∧
      (next == w) = true := by
  cases rest with
  | nil => cases hgv : gv.component <;> simp [repeated]
  | cons h t => cases hgv : gv.component <;> cases hhd : h.component <;> simp [repeated, hgv, hhd]

theorem repeated_cons {h : RebuiltRouteComponent} : repeated gv (h :: rest) = repeated gv [h] := by
  unfold repeated
  cases gv.component <;> cases hhd : h.component <;> simp [hhd]

theorem Follows.of_nil (h : Follows p i rebuilt legs) (hlg : legs = [])
    (hsp : ∀ g ∈ rebuilt, Supplied g) : Repeats rebuilt ∧ ∀ anc ∈ p, ∀ hd ∈ rebuilt.head?, ∃ w,
      hd.component = .waypoint w ∧ (w == anc.2) = true := by
  induction h with
  | nil => exact ⟨.nil, by simp⟩
  | skip hrp _ ih =>
    obtain ⟨w, hd, t, next, hw, rfl, hnx, hsm⟩ := repeated_iff.1 hrp
    obtain ⟨hcn, han⟩ := ih hlg (forall_mem_cons.1 hsp).2
    refine ⟨hcn.cons_cons (repeated_cons ▸ hrp), fun anc har => ?_⟩
    obtain ⟨_, hnx', hat⟩ := han anc har hd rfl
    obtain rfl := RouteComponent.waypoint.inj (hnx.symm.trans hnx')
    rintro _ ⟨⟩
    exact ⟨w, hw, BEq.trans (BEq.symm hsm) hat⟩
  | @cons p i g r b t hrp hbr _ ih =>
    obtain ⟨hfr, rfl⟩ := append_eq_nil_iff.1 hlg
    obtain ⟨rfl, ho⟩ := append_eq_nil_iff.1 hfr
    obtain ⟨hgv, hr⟩ := forall_mem_cons.1 hsp
    cases hgv with
    | grouped uid c first m hgr => cases ho
    | waypoint uid w =>
      -- a component after it would be the same waypoint, and this one left out
      cases r with
      | cons hd t =>
        obtain ⟨next, hnx, hsm⟩ := (ih rfl hr).2 (i, w) rfl hd rfl
        rw [repeated_iff.2 ⟨w, hd, t, next, rfl, rfl, hnx, hsm⟩] at hrp
        cases hrp
      | nil =>
        refine ⟨.singleton _, ?_⟩
        rintro anc ⟨⟩ _ ⟨⟩
        refine ⟨w, rfl, BEq.symm ?_⟩
        by_contra hdf
        simp [bridgeTo, RebuiltRouteComponent.entry, sidStartsAtMatchingOrigin, hdf] at hbr

theorem Follows.eq_nil (h : Follows p i rebuilt legs) (hpr : p = none)
    (hsp : ∀ g ∈ rebuilt, Supplied g) (hcn : Repeats rebuilt)
    (hhd : ∀ hd ∈ rebuilt.head?, hd.component.isWaypoint = true) : legs = [] := by
  induction h with
  | nil => rfl
  | skip hrp _ ih =>
    obtain ⟨_, hd, t, next, -, rfl, hnx, -⟩ := repeated_iff.1 hrp
    refine ih hpr (forall_mem_cons.1 hsp).2 hcn.of_cons ?_
    rintro _ ⟨⟩
    rw [hnx]
    rfl
  | @cons p i g r b t hrp hbr htl ih =>
    obtain rfl := hpr
    cases r with
    | cons hd t =>
      have hf := (isChain_cons_cons.1 hcn).1
      rw [← repeated_cons, hrp] at hf
      cases hf
    | nil =>
      cases htl
      have hw := hhd g rfl
      cases hsp g mem_cons_self with
      | grouped uid c first m hgr => simp [hgr] at hw
      | waypoint uid w => simpa [bridgeTo, rewriteGroupedLegsSource] using hbr

variable {G : Geodesy}

/-- One waypoint, twice or more and nothing else. -/
def OneWaypoint (rebuilt : List RebuiltRouteComponent) : Prop :=
  2 ≤ rebuilt.length ∧ Repeats rebuilt

theorem resolvedLegs_rebuiltRoute (hsp : ∀ g ∈ rebuilt, Supplied g) (ho : ¬ OneWaypoint rebuilt) :
    (rebuiltRoute oldPlan rebuilt).resolvedLegs = rebuiltLegs rebuilt := by
  rw [rebuiltRoute, normalized_resolvedLegs]
  split
  · rename_i hem
    have hnl : rebuiltLegs rebuilt = [] := List.isEmpty_iff.1 hem
    have hcn := ((follows_rebuiltLegs hsp).of_nil hnl hsp).1
    have hsh : ¬ 2 ≤ rebuilt.length := fun hln => ho ⟨hln, hcn⟩
    rw [hnl]
    rcases rebuilt with _ | ⟨g, _ | ⟨next, r⟩⟩
    · rfl
    · simp [rebuiltDefinition, resolvedLegsFromWaypointComponents, waypointLegs]
    · simp at hsh
  · rfl

theorem materializedLegs_existing (hsp : ∀ g ∈ rebuilt, Supplied g)
    (hcm : plan.routeComponents = rebuilt.map (·.component))
    (hlg : plan.resolvedLegs = rebuiltLegs rebuilt) :
    materializedLegs (rebuiltExistingComponents plan) = materializedLegs rebuilt := by
  refine ext_getElem? fun i => ?_
  simp only [materializedLegs, getElem?_map, getElem?_zipIdx,
    getElem?_rebuiltExistingComponents, hcm, groupedComponentLegs, hlg,
    filter_ofComponent_rebuiltLegs]
  cases hgv : rebuilt[i]? with
  | none => rfl
  | some g =>
    cases hsp g (mem_of_getElem? hgv) with
    | waypoint uid w => rfl
    | grouped uid c first m hgr => simp [hgr, givenLegs, hgv, rewriteGroupedLegsSource]

theorem map_component_existing :
    (rebuiltExistingComponents plan).map (·.component) = plan.routeComponents := by
  refine ext_getElem? fun i => ?_
  rw [getElem?_map, getElem?_rebuiltExistingComponents]
  cases plan.routeComponents[i]? <;> rfl

theorem Identified.materializedUids_existing (h : Identified plan) :
    materializedUids plan (rebuiltExistingComponents plan) =
      (plan.routeComponentUids, plan.routeComponentUidCounter) := by
  rw [materializedUids, h.map_uid_existing]
  exact h.assign_eq fun _ _ _ => rfl

theorem validateRouteAttachments_of_airwaysBound {us : List String}
    (h : validateRouteAttachments plan.routeComponents us = .ok ()) (hbd : AirwaysBound plan) :
    validateRouteAttachments plan.routeComponents plan.routeComponentUids = .ok () := by
  obtain ⟨⟨⟩, hpr, -⟩ := bind_eq_ok.1 h
  refine bind_eq_ok.2 ⟨(), hpr, forM_eq_ok.2 ?_⟩
  rintro ⟨c, i⟩ hm
  cases c with
  | airway a =>
    obtain ⟨es, hen⟩ := hbd i a (mk_mem_zipIdx_iff_getElem?.1 hm)
    exact bind_eq_ok.2 ⟨es, hen, rfl⟩
  | _ => rfl

/-- Rebuilding a rebuilt plan from its own components changes nothing. -/
theorem rebuildRoute_existing {gd : Option GuidanceState}
    (hsp : ∀ g ∈ rebuilt, Supplied g) (hln : rebuilt.length ≤ 2 ^ 64)
    (hlg : (rebuiltRoute oldPlan rebuilt).resolvedLegs = rebuiltLegs rebuilt)
    (h : rebuildRoute G oldPlan rebuilt = .ok (rebuiltRoute oldPlan rebuilt))
    (hp : (rebuiltRoute oldPlan rebuilt).setGuidance gd = plan) :
    rebuildRoute G plan.normalized (rebuiltExistingComponents plan) = .ok (plan.setGuidance none) := by
  obtain ⟨hat, htr, hor, har, -⟩ := rebuildRoute_eq_ok.1 h
  have hcm : plan.routeComponents = rebuilt.map (·.component) := by rw [← hp]; rfl
  have hrs : plan.resolvedLegs = rebuiltLegs rebuilt := by rw [← hp]; exact hlg
  have hnr : Normal plan := by
    rw [← hp]
    exact (normal_normalized (by simpa [rebuiltDefinition] using hln)).setGuidance
  have hgv := materializedLegs_existing hsp hcm hrs
  have hag : rebuiltLegs (rebuiltExistingComponents plan) = rebuiltLegs rebuilt := by
    rw [rebuiltLegs, map_component_existing, hgv, hcm]
    rfl
  have hr : rebuiltRoute plan (rebuiltExistingComponents plan) = plan.setGuidance none := by
    rw [rebuiltRoute, rebuiltDefinition, hnr.materializedUids_existing, map_component_existing,
      hag, ← hrs]
    exact hnr.setGuidance.normalized_eq
  have har' : validateAirwayGeometry (plan.setGuidance none) = .ok () := by
    rw [← hp]
    exact har
  have hat' := validateRouteAttachments_of_airwaysBound (hcm ▸ hat)
    (airwaysBound_of_validateAirwayGeometry har')
  rw [hnr.normalized_eq, rebuildRoute_eq_ok, hag, hgv, hr, map_component_existing,
    hnr.materializedUids_existing]
  exact ⟨hat', htr, hor, har', rfl⟩

/-- What a rebuilt plan is to satisfy. -/
structure Coherent (G : Geodesy) (rebuilt : List RebuiltRouteComponent) (plan : FlightPlan) : Prop where
  follows : Follows none 0 rebuilt plan.resolvedLegs
  /-- Only a leg that was given may lead from a reference to itself. -/
  distinct : ∀ leg ∈ plan.resolvedLegs, (leg.fromRef == leg.toRef) = true → Given 0 rebuilt leg
  returns : ∃ again,
    rebuildPlanFromUidComponents G plan (rebuiltExistingComponents plan) .clear = .ok again
  again : ∀ policy again,
    rebuildPlanFromUidComponents G plan (rebuiltExistingComponents plan) policy = .ok again →
      again.resolvedLegs = plan.resolvedLegs

/-- A rebuilt route is coherent unless it is one waypoint over and over. -/
theorem rebuilt_route_coherent_iff {policy : GuidanceRebuildPolicy}
    (hsupplied : ∀ given ∈ rebuilt, Supplied given)
    (hlength : rebuilt.length ≤ 2 ^ 64)
    (h : rebuildPlanFromUidComponents G oldPlan rebuilt policy = .ok plan) :
    Coherent G rebuilt plan ↔ ¬ OneWaypoint rebuilt := by
  obtain ⟨_, hr, guidance, -, hp⟩ := rebuildPlanFromUidComponents_eq_ok.1 h
  obtain rfl := (rebuildRoute_eq_ok.1 hr).2.2.2.2
  constructor
  · rintro hch ⟨hln, hcn⟩
    rcases rebuilt with _ | ⟨given, _ | ⟨next, rest⟩⟩
    · simp at hln
    · simp at hln
    · obtain ⟨_, _, _, _, hgv, ⟨⟩, hnx, -⟩ := repeated_iff.1 (isChain_cons_cons.1 hcn).1
      have hnl := hch.follows.eq_nil rfl hsupplied hcn (by simp [hgv, RouteComponent.isWaypoint])
      rw [← hp, setGuidance_resolvedLegs, rebuiltRoute, normalized_resolvedLegs] at hnl
      split at hnl
      · simp [rebuiltDefinition, resolvedLegsFromWaypointComponents, hgv, hnx, waypointLegs] at hnl
      · simp_all
  · intro ho
    have hls := @resolvedLegs_rebuiltRoute oldPlan.normalized _ hsupplied ho
    have hfl : Follows none 0 rebuilt plan.resolvedLegs := by
      rw [← hp, setGuidance_resolvedLegs, hls]
      exact follows_rebuiltLegs hsupplied
    have hag := rebuildRoute_existing hsupplied hlength hls hr hp
    refine ⟨hfl, fun leg hlg hsm => ?_, ?_, fun policy again hrb => ?_⟩
    · refine (hfl.mem hlg).resolve_left fun hdf => ?_
      rw [hsm] at hdf
      cases hdf
    · exact ⟨_, rebuildPlanFromUidComponents_eq_ok.2 ⟨_, hag, none, rfl, rfl⟩⟩
    · obtain ⟨_, hr', _, -, rfl⟩ := rebuildPlanFromUidComponents_eq_ok.1 hrb
      rw [hag] at hr'
      obtain rfl := Except.ok.inj hr'
      rfl

def alongAirway : List RebuiltRouteComponent :=
  let leg (start finish : String) : ResolvedLeg := ⟨"", .fix start, .fix finish, .routeComponent 0, none⟩
  [⟨some "a", .waypoint (.fix "A"), none⟩,
    ⟨some "v", .airway ⟨"V2", none, "a", "b"⟩, some [leg "A" "M", leg "M" "B"]⟩,
    ⟨some "b", .waypoint (.fix "B"), none⟩, ⟨none, .waypoint (.fix "C"), none⟩]

/-- A waypoint, an airway with two legs, its end, and one more waypoint. -/
theorem rebuilt_route_coherent_alongAirway : ∃ plan,
    rebuildPlanFromUidComponents flatGeodesy .empty alongAirway .clear = .ok plan ∧
      Coherent flatGeodesy alongAirway plan := by
  have h : (rebuildPlanFromUidComponents flatGeodesy .empty alongAirway .clear).toOption.isSome := by
    decide +kernel
  obtain ⟨plan, hp⟩ := Option.isSome_iff_exists.1 h
  have hp := toOption_eq_some.1 hp
  refine ⟨plan, hp, (rebuilt_route_coherent_iff ?_ (by decide) hp).2 fun ho => ?_⟩
  · simp only [alongAirway, forall_mem_cons]
    exact ⟨.waypoint _ _, .grouped _ _ _ _ rfl, .waypoint _ _, .waypoint _ _, by simp⟩
  · exact absurd (isChain_cons_cons.1 ho.2).1 (by decide)

/-- Of a fix and the same fix again a leg is made that leads from the fix to itself. -/
theorem repeated_waypoint_self_leg : ∃ plan leg, rebuildPlanFromUidComponents flatGeodesy .empty
    [⟨none, .waypoint (.fix "A"), none⟩, ⟨none, .waypoint (.fix "A"), none⟩] .clear = .ok plan ∧
      plan.resolvedLegs = [leg] ∧ leg.fromRef = .fix "A" ∧ leg.toRef = .fix "A" :=
  ⟨_, _, rfl, rfl, rfl, rfl⟩

end Aerobag.Planning
