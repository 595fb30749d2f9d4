import Aerobag.Lib.Lists
import Aerobag.Planning.Proofs.EditProofs

/-!
# Component identities

An edit with fresh uids keeps the identities of the components: `Laid.draft` says where components
come from and which uids they bring, and `Draft.stable` that rebuilding leaves these as they are.
-/

open List Option

namespace Aerobag.Planning

variable {plan : FlightPlan} {edit : Edit} {tk : Nat} {rebuilt : List RebuiltRouteComponent}

/-- The component is what its origin says. A new one may have a uid already if it is one of `next`. -/
def Comes (plan : FlightPlan) (next : List String) : Origin → RebuiltRouteComponent → Prop
  | .kept index, component => (rebuiltExistingComponents plan)[index]? = some component
  | .replaced index, component =>
    index < plan.routeComponents.length ∧ component.uid = plan.routeComponentUids[index]?
  | .inserted, component => ∀ uid, component.uid = some uid → uid ∈ next

/-- The components that an edit hands to the rebuild, with their origins and the uids they bring. -/
structure Draft (plan : FlightPlan) (origins : List Origin) (taken : Nat)
    (rebuilt : List RebuiltRouteComponent) : Prop where
  comes : List.Forall₂ (Comes plan (nextUids plan.routeComponentUidCounter taken)) origins rebuilt
  /-- They are uids of the plan, one for each place that is not new, and uids that come next. -/
  wishes : ∃ kept, kept.Subperm plan.routeComponentUids ∧
    (rebuilt.filterMap (·.uid)).Perm (kept ++ nextUids plan.routeComponentUidCounter taken) ∧
    kept.length + origins.count .inserted = origins.length

theorem Identified.map_uid_existing (h : Identified plan) :
    (rebuiltExistingComponents plan).map (·.uid) = plan.routeComponentUids.map some := by
  refine ext_getElem? fun i => ?_
  rw [getElem?_map, getElem?_rebuiltExistingComponents]
  by_cases hix : i < plan.routeComponents.length
  · have hud : i < plan.routeComponentUids.length := h.length_uids ▸ hix
    simp [hix, hud]
  · have hud : plan.routeComponentUids.length ≤ i := by rw [h.length_uids]; omega
    simp [Nat.not_lt.1 hix, hud]

theorem filterMap_uid_of_map {cs : List RebuiltRouteComponent} {us : List String}
    (h : cs.map (·.uid) = us.map some) : cs.filterMap (·.uid) = us := by
  have hm : cs.filterMap (·.uid) = (cs.map (·.uid)).filterMap id := by
    rw [filterMap_map]
    rfl
  rw [hm, h]
  simp

theorem map_uid_replacedComponents {e : List RebuiltRouteComponent}
    {rp : Nat → Option (RouteComponent × List ResolvedLeg)} :
    (replacedComponents e rp).map (·.uid) = e.map (·.uid) := by
  rw [replacedComponents, List.map_map]
  calc e.zipIdx.map _ = e.zipIdx.map (fun ind => ind.1.uid) := by
        refine map_congr_left ?_
        rintro ⟨old, i⟩ -
        simp only [Function.comp_apply]
        split <;> rfl
    _ = e.map (·.uid) := by
        rw [← zipIdx_map_fst 0 e, List.map_map, zipIdx_map_fst]
        rfl

theorem comes_allKept (p : FlightPlan) (next : List String) :
    List.Forall₂ (Comes p next) (allKept p) (rebuiltExistingComponents p) := by
  refine forall₂_of_length_eq_of_get (by simp [allKept]) fun i hkp he => ?_
  simp only [allKept, get_eq_getElem, getElem_map, getElem_range]
  exact getElem?_eq_getElem he

theorem Inserts.comes {ct : UInt64} {new : List RebuiltRouteComponent}
    (h : Inserts ct new tk) :
    List.Forall₂ (Comes plan (nextUids ct tk)) (List.replicate new.length .inserted) new := by
  refine Lists.forall₂_replicate fun c hm uid hu => ?_
  rw [← h]
  exact mem_filterMap.2 ⟨c, hm, hu⟩

/-- The components of an edit with fresh uids are a draft. -/
theorem Laid.draft (hp : Identified plan) (hfr : edit.Fresh plan)
    (h : Laid plan edit tk rebuilt) : Draft plan (edit.origins plan) tk rebuilt := by
  have he := comes_allKept plan (nextUids plan.routeComponentUidCounter tk)
  have hud := hp.map_uid_existing
  cases h with
  | @spliced first l _ new hle hn hor =>
    rw [hor hfr]
    refine ⟨?_, plan.routeComponentUids.take first ++ plan.routeComponentUids.drop l, ?_, ?_, ?_⟩
    · exact rel_append (rel_append (forall₂_take _ he) hn.comes) (forall₂_drop _ he)
    · exact (Lists.take_append_drop_sublist _ hle).subperm
    · have hbf : ((rebuiltExistingComponents plan).take first).filterMap (·.uid) =
          plan.routeComponentUids.take first :=
        filterMap_uid_of_map (by rw [map_take, hud, map_take])
      have haf : ((rebuiltExistingComponents plan).drop l).filterMap (·.uid) =
          plan.routeComponentUids.drop l :=
        filterMap_uid_of_map (by rw [map_drop, hud, map_drop])
      rw [filterMap_append, filterMap_append, hbf, haf, hn, append_assoc, append_assoc]
      exact perm_append_comm.append_left _
    · rw [count_inserted_splice]
      simp [allKept, hp.length_uids]
      omega
  | moved i tg hix ht hor =>
    rw [hor]
    refine ⟨?_, plan.routeComponentUids, .refl _, ?_, ?_⟩
    · rw [eraseIdx_eq_take_drop_succ, eraseIdx_eq_take_drop_succ]
      have hos := rel_append (forall₂_take i he) (forall₂_drop (i + 1) he)
      exact rel_append (rel_append (forall₂_take _ hos)
        (forall₂_take 1 (forall₂_drop i he))) (forall₂_drop _ hos)
    · have hpr := (Lists.moved_perm (rebuiltExistingComponents plan) i tg).filterMap (·.uid)
      rw [filterMap_uid_of_map hud] at hpr
      simpa [nextUids] using hpr
    · have hc := (Lists.moved_perm (allKept plan) i tg).count_eq .inserted
      rw [hc, (Lists.moved_perm (allKept plan) i tg).length_eq,
        count_eq_zero_of_not_mem inserted_notMem_allKept]
      simp [allKept, hp.length_uids]
  | replaced rp hor =>
    rw [hor]
    refine ⟨?_, plan.routeComponentUids, .refl _, ?_, ?_⟩
    · refine forall₂_of_length_eq_of_get (by simp [replacedAt, replacedComponents])
        fun i hlf hrg => ?_
      have hix : i < plan.routeComponents.length := by simpa [replacedAt] using hlf
      have hlt : i < (rebuiltExistingComponents plan).length := by simpa using hix
      have hg : (rebuiltExistingComponents plan)[i]? =
          some (rebuiltExistingComponents plan)[i] := getElem?_eq_getElem hlt
      simp only [replacedAt, replacedComponents, get_eq_getElem, getElem_map, getElem_range,
        getElem_zipIdx, Nat.zero_add]
      cases hrp : rp i with
      | some r => exact ⟨hix, (of_getElem?_rebuiltExistingComponents hg).2⟩
      | none => simp [Comes]
    · rw [filterMap_uid_of_map (map_uid_replacedComponents.trans hud)]
      simp [nextUids]
    · rw [count_eq_zero_of_not_mem]
      · simp [replacedAt, hp.length_uids]
      · simp only [replacedAt, List.mem_map, not_exists, not_and]
        intro i _
        split <;> simp

@[simp] theorem advance_routeComponents :
    (plan.advance tk).routeComponents = plan.routeComponents := rfl

@[simp] theorem advance_routeComponentUids :
    (plan.advance tk).routeComponentUids = plan.routeComponentUids := rfl

theorem Normal.advance (h : Normal plan) : Normal (plan.advance tk) :=
  ⟨⟨h.length_uids, h.nodup, h.valid⟩, h.aircraft, h.legs⟩

section Draft

variable {ors : List Origin}

/-- The uids of a draft: those it brings, and new ones for the others. -/
def draftUids (plan : FlightPlan) (taken : Nat) (rebuilt : List RebuiltRouteComponent) :
    List String × UInt64 :=
  Identities.fill routeComponentUid (· + 1)
    (plan.routeComponentUidCounter + UInt64.ofNat taken) (rebuilt.map (·.uid))

theorem length_draftUids : (draftUids plan tk rebuilt).1.length = rebuilt.length := by
  have hlen := (Identities.fill_forall₂ routeComponentUid (· + 1)
    (plan.routeComponentUidCounter + .ofNat tk) (rebuilt.map (·.uid))).length_eq
  rw [length_map] at hlen
  exact hlen.symm

theorem Draft.exists_perm (h : Draft plan ors tk rebuilt) :
    (∃ k, k.Subperm plan.routeComponentUids ∧ (draftUids plan tk rebuilt).1.Perm
      (k ++ nextUids plan.routeComponentUidCounter (ors.count .inserted))) ∧
      tk + (rebuilt.map (·.uid)).count none = ors.count .inserted := by
  obtain ⟨k, hkp, hws, hl⟩ := h.wishes
  have hrd : (rebuilt.map (·.uid)).reduceOption = rebuilt.filterMap (·.uid) := by
    rw [List.reduceOption, filterMap_map]
    rfl
  have hfl : (draftUids plan tk rebuilt).1.Perm (k ++
      nextUids plan.routeComponentUidCounter (tk + (rebuilt.map (·.uid)).count none)) := by
    rw [nextUids_add, ← append_assoc]
    refine Identities.fill_perm.trans ?_
    rw [hrd]
    exact hws.append_right _
  have hc : tk + (rebuilt.map (·.uid)).count none = ors.count .inserted := by
    have hpr := hfl.length_eq
    have hor := h.comes.length_eq
    simp only [length_draftUids, length_append, length_nextUids] at hpr
    omega
  rw [hc] at hfl
  exact ⟨⟨k, hkp, hfl⟩, hc⟩

variable (hp : Identified plan) (h : Draft plan ors tk rebuilt)
  (hfr : ∀ uid ∈ nextUids plan.routeComponentUidCounter (ors.count .inserted),
    uid ∉ plan.routeComponentUids)
  (hlen : ors.length ≤ 2 ^ 64)
include hp h hfr hlen

theorem Draft.draftUids_nodup : (draftUids plan tk rebuilt).1.Nodup := by
  obtain ⟨k, hkp, hpr⟩ := h.exists_perm.1
  refine hpr.nodup_iff.2 (nodup_append'.2 ⟨?_, ?_, ?_⟩)
  · obtain ⟨us, hud, hsb⟩ := hkp
    exact hud.nodup_iff.1 (hp.nodup.sublist hsb)
  · exact nextUids_nodup (count_le_length.trans hlen)
  · exact fun uid hm hnx => hfr uid hnx (hkp.subset hm)

omit hfr hlen in
theorem Draft.draftUids_valid : ∀ uid ∈ (draftUids plan tk rebuilt).1, uid ≠ "" := by
  obtain ⟨k, hkp, hpr⟩ := h.exists_perm.1
  intro uid hm
  rcases mem_append.1 (hpr.mem_iff.1 hm) with hm | hm
  · exact hp.valid uid (hkp.subset hm)
  · obtain ⟨c, -, rfl⟩ := List.mem_map.1 hm
    simpa [validUid] using validUid_routeComponentUid c

theorem Draft.materializedUids_eq :
    materializedUids (plan.advance tk) rebuilt = draftUids plan tk rebuilt := by
  refine Identities.assign_eq_fill routeComponentUid (· + 1) (fun _ _ _ => rfl) ?_
    (h.draftUids_nodup hp hfr hlen) (by simp)
  intro uid hm
  have hdr : uid ∈ (draftUids plan tk rebuilt).1 :=
    Identities.fill_perm.mem_iff.2 (mem_append_left _ (reduceOption_mem_iff.2 hm))
  simpa [validUid] using h.draftUids_valid hp uid hdr

/-- Normalizing the rebuilt route finds nothing to repair. -/
theorem Draft.rebuiltRoute_uids : (rebuiltRoute (plan.advance tk) rebuilt).routeComponentUids =
      (draftUids plan tk rebuilt).1 := by
  have hud := h.materializedUids_eq hp hfr hlen
  rw [rebuiltRoute, rebuiltDefinition, hud]
  refine congrArg FlightPlan.routeComponentUids (Identified.normalizeRouteComponentUids_eq ?_)
  exact ⟨by simp [length_draftUids], h.draftUids_nodup hp hfr hlen, h.draftUids_valid hp⟩

/-- A kept component has its old uid, and an inserted one a uid that no component had. -/
theorem Draft.forall₂_uids : List.Forall₂ (fun o uid => match o.index? with
      | some i => plan.routeComponentUids[i]? = some uid
      | none => uid ∉ plan.routeComponentUids)
    ors (rebuiltRoute (plan.advance tk) rebuilt).routeComponentUids := by
  rw [h.rebuiltRoute_uids hp hfr hlen]
  have hnx := h.exists_perm.2
  have hfl := forall₂_map_left_iff.1 (Identities.fill_forall₂ routeComponentUid (· + 1)
    (plan.routeComponentUidCounter + .ofNat tk) (rebuilt.map (·.uid)))
  refine Lists.forall₂_trans ?_ h.comes hfl
  intro o c uid hcm hu
  -- a component that stands for one of the plan brings that one's uid
  have hl : ∀ i, i < plan.routeComponents.length → c.uid = plan.routeComponentUids[i]? →
      plan.routeComponentUids[i]? = some uid := by
    intro i hix hws
    rw [← hp.length_uids] at hix
    rw [hws, getElem?_eq_getElem hix] at hu
    rw [getElem?_eq_getElem hix, hu]
  cases o with
  | kept i =>
    obtain ⟨hco, hws⟩ := of_getElem?_rebuiltExistingComponents hcm
    exact hl i (List.getElem?_eq_some_iff.1 hco).1 hws
  | replaced i => exact hl i hcm.1 hcm.2
  | inserted =>
    refine hfr uid ?_
    rw [← hnx, nextUids_add, mem_append]
    cases hws : c.uid with
    | some w =>
      rw [hws] at hu
      exact .inl (hu ▸ hcm w hws)
    | none =>
      rw [hws] at hu
      exact .inr hu

end Draft

theorem of_boundWaypoint {cs : List RouteComponent} {us : List String}
    {ix : Option Nat} {uid : String} {w : NavRef} (h : boundWaypoint cs us ix uid = some w) :
    ∃ i, ix = some i ∧ us[i]? = some uid := by
  obtain ⟨i, hi, hat⟩ := bind_eq_some_iff.1 h
  refine ⟨i, hi, ?_⟩
  split at hat
  · split at hat
    · assumption
    · cases hat
  · cases hat

theorem AirwaysBound.uids {i : Nat} {aw : AirwaySegment String} (h : AirwaysBound plan)
    (har : plan.routeComponents[i]? = some (.airway aw)) :
    0 < i ∧ plan.routeComponentUids[i - 1]? = some aw.entry ∧
      plan.routeComponentUids[i + 1]? = some aw.exit := by
  obtain ⟨es, hen⟩ := h i aw har
  rw [boundAirwayEndpoints] at hen
  split at hen
  · rename_i e ex he het
    obtain ⟨b, hbf, he⟩ := of_boundWaypoint he
    obtain ⟨a, haf, het⟩ := of_boundWaypoint het
    rw [checkedSub_eq_some] at hbf
    obtain rfl := some.inj haf
    refine ⟨by omega, ?_, het⟩
    rwa [show i - 1 = b by omega]
  · cases hen

theorem Identified.index_eq (h : Identified plan) {i j : Nat} {uid : String}
    (hi : plan.routeComponentUids[i]? = some uid) (hj : plan.routeComponentUids[j]? = some uid) :
    i = j := by
  obtain ⟨hlt, -⟩ := List.getElem?_eq_some_iff.1 hi
  exact (getElem?_inj hlt h.nodup).1 (hi.trans hj.symm)

/-- Kept airways stay between the same occurrences of waypoints. -/
theorem airways_stable {os : List Origin} {ch : FlightPlan} (hp : Identified plan)
    (hbd : AirwaysBound plan) (hbd' : AirwaysBound ch) (hcs : List.Forall₂ (fun o c =>
      ∀ i, o = .kept i → plan.routeComponents[i]? = some c) os ch.routeComponents)
    (hud : List.Forall₂ (fun o uid => match o.index? with
      | some i => plan.routeComponentUids[i]? = some uid
      | none => uid ∉ plan.routeComponentUids) os ch.routeComponentUids)
    {i p : Nat} {a : AirwaySegment String} (har : plan.routeComponents[i]? = some (.airway a))
    (hpc : os[p]? = some (.kept i)) : (os[p - 1]?.bind Origin.index?) = some (i - 1) ∧
      (os[p + 1]?.bind Origin.index?) = some (i + 1) := by
  obtain ⟨c, hco, hkp⟩ := Lists.exists_of_forall₂_left hcs hpc
  have hsm : c = .airway a := some.inj ((hkp i rfl).symm.trans har)
  rw [hsm] at hco
  obtain ⟨-, he, het⟩ := hbd.uids har
  obtain ⟨-, he', het'⟩ := hbd'.uids hco
  -- what has the uid of an old component after the change is that component
  have hix : ∀ {p i : Nat} {uid : String}, plan.routeComponentUids[i]? = some uid →
      ch.routeComponentUids[p]? = some uid → os[p]?.bind Origin.index? = some i := by
    intro p i uid hold hn
    obtain ⟨o, hor, hcm⟩ := Lists.exists_of_forall₂_right hud hn
    rw [hor, bind_some]
    cases hfm : o.index? with
    | some f' =>
      rw [hfm] at hcm
      rw [hp.index_eq hcm hold]
    | none =>
      rw [hfm] at hcm
      exact absurd (mem_of_getElem? hold) hcm
  exact ⟨hix he he', hix het het'⟩

/-- The rebuilt plan is stable under the edit. -/
theorem Draft.stable {os : List Origin} {G : Geodesy} {p : GuidanceRebuildPolicy}
    {r : FlightPlan} (hp : Normal plan) (hbd : AirwaysBound plan)
    (h : Draft plan os tk rebuilt)
    (hfr : ∀ uid ∈ nextUids plan.routeComponentUidCounter (os.count .inserted),
      uid ∉ plan.routeComponentUids) (hl : os.length ≤ 2 ^ 64)
    (hrb : rebuildPlanFromUidComponents G (plan.advance tk) rebuilt p = .ok r) :
    Stable plan os r := by
  obtain ⟨rt, hr, g, -, rfl⟩ := rebuildPlanFromUidComponents_eq_ok.1 hrb
  rw [hp.advance.normalized_eq] at hr
  obtain ⟨-, -, -, har, rfl⟩ := rebuildRoute_eq_ok.1 hr
  have hbd' := airwaysBound_of_validateAirwayGeometry har
  have hud := h.forall₂_uids hp.toIdentified hfr hl
  have hcm : List.Forall₂ (fun o c =>
      ∀ i, o = .kept i → plan.routeComponents[i]? = some c) os (rebuilt.map (·.component)) := by
    refine forall₂_map_right_iff.2 (h.comes.imp ?_)
    rintro o c hco i rfl
    exact (of_getElem?_rebuiltExistingComponents hco).1
  have hd : Identified (rebuiltRoute (plan.advance tk) rebuilt) :=
    identified_normalized (by simpa [rebuiltDefinition, h.comes.length_eq] using hl)
  exact ⟨⟨hd.length_uids, hd.nodup, hd.valid⟩, hcm, hud,
    hbd', fun i pl aw => airways_stable hp.toIdentified hbd hbd' hcm hud⟩

theorem stable_refl (hp : Identified plan) (hbd : AirwaysBound plan) :
    Stable plan (allKept plan) plan := by
  have hcm : List.Forall₂ (fun o c =>
      ∀ i, o = .kept i → plan.routeComponents[i]? = some c)
      (allKept plan) plan.routeComponents := by
    refine forall₂_of_length_eq_of_get (by simp [allKept]) ?_
    rintro p hlf hrg i heq
    obtain rfl : p = i := by simpa [allKept] using heq
    exact getElem?_eq_getElem hrg
  have hud : List.Forall₂ (fun o uid => match o.index? with
      | some i => plan.routeComponentUids[i]? = some uid
      | none => uid ∉ plan.routeComponentUids) (allKept plan) plan.routeComponentUids := by
    refine forall₂_of_length_eq_of_get (by simp [allKept, hp.length_uids]) ?_
    intro p hlf hrg
    simp only [allKept, get_eq_getElem, getElem_map, getElem_range]
    exact getElem?_eq_getElem hrg
  exact ⟨hp, hcm, hud, hbd, fun i p aw => airways_stable hp hbd hbd hcm hud⟩

/-- What every plan that was built or edited has. -/
structure Settled (plan : FlightPlan) : Prop extends Normal plan where
  bound : AirwaysBound plan

variable {G : Geodesy} {res : FlightPlan}

theorem settled_of_buildFlightPlan {st : FlightPlan} (hst : st.routeComponents.length ≤ 2 ^ 64)
    (h : buildFlightPlan G st = .ok plan) : Settled plan := by
  obtain ⟨rfl, hbd⟩ := buildFlightPlan_eq_ok h
  exact ⟨normal_normalized hst, hbd⟩

theorem Edit.Rebuilds.settled (h : edit.Rebuilds G plan res)
    (hft : res.routeComponents.length ≤ 2 ^ 64) : Settled res := by
  obtain ⟨n, rb, p, -, hr⟩ := h
  obtain ⟨r, hrt, g, -, rfl⟩ := rebuildPlanFromUidComponents_eq_ok.1 hr
  obtain ⟨-, -, -, har, rfl⟩ := rebuildRoute_eq_ok.1 hrt
  have hnr : Normal (rebuiltRoute (plan.normalized.advance n).normalized rb) :=
    normal_normalized hft
  exact ⟨⟨⟨hnr.length_uids, hnr.nodup, hnr.valid⟩, hnr.aircraft, hnr.legs⟩,
    airwaysBound_of_validateAirwayGeometry har⟩

theorem Settled.of_apply (hp : Settled plan) (h : edit.apply G plan = .ok res)
    (hft : res.routeComponents.length ≤ 2 ^ 64) : Settled res := by
  rcases Edit.rebuilds_of_apply h with ⟨i, rfl, rfl⟩ | hrb
  · rw [hp.normalized_eq]
    exact hp
  · exact hrb.settled hft

/-- An edit that takes fresh uids is stable. -/
theorem Settled.stable (hp : Settled plan) (h : edit.apply G plan = .ok res)
    (hft : res.routeComponents.length ≤ 2 ^ 64) (hfr : edit.Fresh plan) :
    Stable plan (edit.origins plan) res := by
  rcases Edit.rebuilds_of_apply h with ⟨i, rfl, rfl⟩ | ⟨n, rb, p, hld, hr⟩
  · have hor : (Edit.moveComponent i 0).origins plan = allKept plan := by
      simpa [Edit.origins] using Lists.moved_self (allKept plan) i
    rw [hp.normalized_eq, hor]
    exact stable_refl hp.toIdentified hp.bound
  · rw [hp.normalized_eq] at hld hr
    have hdr := hld.draft hp.toIdentified hfr
    refine hdr.stable hp.toNormal hp.bound hfr ?_ hr
    obtain ⟨r, hrt, g, -, rfl⟩ := rebuildPlanFromUidComponents_eq_ok.1 hr
    obtain ⟨-, -, -, -, rfl⟩ := rebuildRoute_eq_ok.1 hrt
    rw [hdr.comes.length_eq]
    simpa [rebuiltRoute, rebuiltDefinition] using hft

/-- Every plan that edits make of an accepted one is settled. -/
theorem settled_of_run {p : FlightPlan} {st b : FlightPlan} {es : List Edit}
    (hsd : st.routeComponents.length ≤ 2 ^ 64) (hbl : buildFlightPlan G st = .ok b)
    (hr : Run.exec (editStep G) b es = some p)
    (hft : Run.Steps (editStep G) (fun p e => e.Fits G p) b es) : Settled p := by
  refine Run.exec_inv_of_steps Settled ?_ (settled_of_buildFlightPlan hsd hbl) hr hft
  intro p e r hst hft hp
  exact hp.of_apply (Except.toOption_eq_some.1 hst) (hft r hst)

/-- In every plan that edits make of an accepted one each component has a uid of its own. An edit
that takes fresh uids from the counter leaves the uids of all other components as they are. -/
theorem component_uids_stable_of_fresh {stored built : FlightPlan} {edits : List Edit}
    (hstored : stored.routeComponents.length ≤ 2 ^ 64)
    (hbuilt : buildFlightPlan G stored = .ok built)
    (hrun : Run.exec (editStep G) built edits = some plan)
    (hfits : Run.Steps (editStep G) (fun plan edit => edit.Fits G plan) built edits) :
    Identified plan ∧ AirwaysBound plan ∧
      ∀ (edit : Edit) (result : FlightPlan), edit.apply G plan = .ok result →
        result.routeComponents.length ≤ 2 ^ 64 → edit.Fresh plan →
        Stable plan (edit.origins plan) result := by
  have hp := settled_of_run hstored hbuilt hrun hfits
  exact ⟨hp.toIdentified, hp.bound, fun edit result => hp.stable⟩

/-- The second waypoint that is inserted gets a fresh uid too. -/
theorem fixes_component_uids_stable : ∃ built plan result,
    buildFlightPlan flatGeodesy fixes = .ok built ∧
      Run.exec (editStep flatGeodesy) built
        [.insertWaypoint 1 true (.fix "X"), .moveComponent 0 1] = some plan ∧
      (Edit.insertWaypoint 1 true (.fix "Y")).apply flatGeodesy plan = .ok result ∧
      .inserted ∈ (Edit.insertWaypoint 1 true (.fix "Y")).origins plan ∧
      Stable plan ((Edit.insertWaypoint 1 true (.fix "Y")).origins plan) result := by
  refine ⟨?_, ?_, ?_, ?built, ?run, ?edit, ?inserted,
    (component_uids_stable_of_fresh ?_ ?built ?run ?_).2.2 _ _ ?edit ?_ ?_⟩
  case built => rfl
  case run => rfl
  case edit => rfl
  all_goals decide +kernel

/-- The component B has the uid that the counter gives next. -/
def clashingFixes : FlightPlan :=
  { fixes with routeComponentUids := ["a", "fpc:0000000000000000", "c"] }

/-- The waypoint inserted before B gets the uid of B, and B another one. -/
theorem inserted_waypoint_takes_uid : ∃ built result,
    buildFlightPlan flatGeodesy clashingFixes = .ok built ∧
      (Edit.insertWaypoint 1 true (.fix "X")).apply flatGeodesy built = .ok result ∧
      (Edit.insertWaypoint 1 true (.fix "X")).origins built =
        [.kept 0, .inserted, .kept 1, .kept 2] ∧
      built.routeComponentUids = ["a", "fpc:0000000000000000", "c"] ∧
      result.routeComponentUids = ["a", "fpc:0000000000000000", "fpc:0000000000000001", "c"] :=
  ⟨_, _, rfl, rfl, rfl, rfl, rfl⟩

end Aerobag.Planning
