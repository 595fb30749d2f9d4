import Aerobag.Planning.Proofs.RouteProofs

/-!
# What the edits lay out

Every edit lays out one of three shapes: new components in place of a stretch of the list, one
component moved, or components replaced where they are (`Laid`).
-/

open List Option Except

namespace Aerobag.Planning

variable {pl : FlightPlan} {ctr : UInt64}

@[simp] theorem length_groupedComponentLegs :
    (groupedComponentLegs pl).length = pl.routeComponents.length := by
  simp [groupedComponentLegs]

@[simp] theorem length_rebuiltExistingComponents :
    (rebuiltExistingComponents pl).length = pl.routeComponents.length := by
  simp [rebuiltExistingComponents]

theorem getElem?_rebuiltExistingComponents (i : Nat) :
    (rebuiltExistingComponents pl)[i]? = pl.routeComponents[i]?.map fun c =>
      { uid := pl.routeComponentUids[i]?
        component := c
        preservedLegs := (groupedComponentLegs pl)[i]?.join } := by
  by_cases h : i < pl.routeComponents.length
  · simp [rebuiltExistingComponents, h]
  · have hl : pl.routeComponents.length ≤ i := by omega
    simp [hl]

theorem of_getElem?_rebuiltExistingComponents {i : Nat} {e : RebuiltRouteComponent}
    (h : (rebuiltExistingComponents pl)[i]? = some e) : pl.routeComponents[i]? = some e.component ∧
      e.uid = pl.routeComponentUids[i]? := by
  rw [getElem?_rebuiltExistingComponents, map_eq_some_iff] at h
  obtain ⟨c, hcm, rfl⟩ := h
  exact ⟨hcm, rfl⟩

theorem inserted_notMem_allKept : Origin.inserted ∉ allKept pl := by simp [allKept]

variable {n : Nat}

theorem count_inserted_splice {first l : Nat} :
    ((allKept pl).take first ++ List.replicate n Origin.inserted ++
      (allKept pl).drop l).count .inserted = n := by
  have hbf : .inserted ∉ (allKept pl).take first :=
    fun hm => inserted_notMem_allKept (mem_of_mem_take hm)
  have haf : .inserted ∉ (allKept pl).drop l :=
    fun hm => inserted_notMem_allKept (mem_of_mem_drop hm)
  simp [count_eq_zero_of_not_mem hbf, count_eq_zero_of_not_mem haf]

/-- New components that have, as far as they have uids yet, those that the counter gives next. -/
def Inserts (counter : UInt64) (new : List RebuiltRouteComponent) (taken : Nat) : Prop :=
  new.filterMap (·.uid) = nextUids counter taken

/-- What an edit lays out, and how many of the uids that come next it has used for it. -/
inductive Laid (plan : FlightPlan) (edit : Edit) : Nat → List RebuiltRouteComponent → Prop where
  | spliced {first last taken : Nat} {new : List RebuiltRouteComponent}
      (hle : first ≤ last) (hnew : Inserts plan.routeComponentUidCounter new taken)
      (horigins : edit.Fresh plan → edit.origins plan = (allKept plan).take first ++
        List.replicate new.length .inserted ++ (allKept plan).drop last) :
      Laid plan edit taken ((rebuiltExistingComponents plan).take first ++ new ++
        (rebuiltExistingComponents plan).drop last)
  | moved (index target : Nat) (hindex : index < plan.routeComponents.length)
      (htarget : target < plan.routeComponents.length)
      (horigins : edit.origins plan = ((allKept plan).eraseIdx index).take target ++
        ((allKept plan).drop index).take 1 ++ ((allKept plan).eraseIdx index).drop target) :
      Laid plan edit 0 (((rebuiltExistingComponents plan).eraseIdx index).take target ++
        ((rebuiltExistingComponents plan).drop index).take 1 ++
        ((rebuiltExistingComponents plan).eraseIdx index).drop target)
  | replaced (replacement : Nat → Option (RouteComponent × List ResolvedLeg))
      (horigins : edit.origins plan = replacedAt plan fun index => (replacement index).isSome) :
      Laid plan edit 0 (replacedComponents (rebuiltExistingComponents plan) replacement)

def FlightPlan.advance (plan : FlightPlan) (taken : Nat) : FlightPlan :=
  { plan with routeComponentUidCounter := plan.routeComponentUidCounter + UInt64.ofNat taken }

@[simp] theorem advance_zero : pl.advance 0 = pl := by
  have hcn : pl.routeComponentUidCounter + .ofNat 0 = pl.routeComponentUidCounter :=
    UInt64.add_zero _
  rw [FlightPlan.advance, hcn]

@[simp] theorem advance_guidance : (pl.advance n).guidance = pl.guidance := rfl

/-- The edit has made a plan of what it has laid out. -/
def Edit.Rebuilds (G : Geodesy) (plan : FlightPlan) (edit : Edit) (result : FlightPlan) : Prop :=
  ∃ taken rebuilt policy, Laid plan.normalized edit taken rebuilt ∧
    rebuildPlanFromUidComponents G (plan.normalized.advance taken) rebuilt policy = .ok result

theorem Inserts.nil : Inserts ctr [] 0 := rfl

theorem Inserts.new {c : RouteComponent} {ls : Option (List ResolvedLeg)} :
    Inserts ctr [rebuiltNewComponent c ls] 0 := rfl

variable {w : NavRef} {p : Bool}

theorem Inserts.newAirwayEndpoints :
    Inserts ctr (newAirwayEndpoints p ctr w) (newAirwayEndpoints p ctr w).length := by
  cases p <;> rfl

variable {m : Nat}

theorem Inserts.append {b a : List RebuiltRouteComponent} (hbf : Inserts ctr b m)
    (haf : Inserts (ctr + UInt64.ofNat m) a n) : Inserts ctr (b ++ a) (m + n) := by
  rw [Inserts, filterMap_append, hbf, haf, nextUids_add]

section Shapes

variable {G : Geodesy} {ed : Edit} {res : FlightPlan} {pol : GuidanceRebuildPolicy}
  {rebuilt : List RebuiltRouteComponent}

/-- An edit that puts new components in place of a stretch of the old ones. -/
theorem Edit.Rebuilds.splice (first l : Nat) {new : List RebuiltRouteComponent}
    (h : rebuildPlanFromUidComponents G pl.normalized rebuilt pol = .ok res)
    (hrb : rebuilt = (rebuiltExistingComponents pl.normalized).take first ++ new ++
      (rebuiltExistingComponents pl.normalized).drop l) (hle : first ≤ l)
    (hn : Inserts pl.normalized.routeComponentUidCounter new 0)
    (hor : ed.origins pl.normalized = (allKept pl.normalized).take first ++
      List.replicate new.length .inserted ++ (allKept pl.normalized).drop l) :
    ed.Rebuilds G pl res := by
  subst hrb
  refine ⟨0, _, pol, .spliced hle hn (fun _ => hor), ?_⟩
  rw [advance_zero]
  exact h

/-- An edit that replaces single components. -/
theorem Edit.Rebuilds.replace (rp : Nat → Option (RouteComponent × List ResolvedLeg))
    (h : rebuildPlanFromUidComponents G pl.normalized rebuilt pol = .ok res)
    (hrb : rebuilt = replacedComponents (rebuiltExistingComponents pl.normalized) rp)
    (hor : ed.origins pl.normalized = replacedAt pl.normalized fun i => (rp i).isSome) :
    ed.Rebuilds G pl res := by
  subst hrb
  exact ⟨0, _, pol, .replaced rp hor, by rw [advance_zero]; exact h⟩

end Shapes

section Edits

variable {G : Geodesy} {res : FlightPlan} {ai ix st : Nat} {pc : ProcedureSegment}
  {legs : List ResolvedLeg} {ctr : UInt64} {k : ProcedureKind}

theorem attachedProcedureIndex_cases {cs : List RouteComponent}
    (h : attachedProcedureIndex cs ai k = some ix) :
    (k = .sid ∧ ix = ai + 1) ∨ (k ≠ .sid ∧ ix < ai) := by
  rw [attachedProcedureIndex] at h
  split at h
  · obtain ⟨hpc, -⟩ := filter_eq_some_iff.1 h
    cases k with
    | sid => exact .inl ⟨rfl, (some.inj hpc).symm⟩
    | approach =>
      simp only [attachedProcedurePlace, checkedSub_eq_some] at hpc
      exact .inr ⟨by simp, by omega⟩
    | star =>
      obtain ⟨p, hpr, hpc⟩ := bind_eq_some_iff.1 hpc
      rw [checkedSub_eq_some] at hpr
      refine .inr ⟨by simp, ?_⟩
      split at hpc
      · rw [checkedSub_eq_some] at hpc
        omega
      · have := some.inj hpc
        omega
  · cases h

theorem range_le (p : FlightPlan) (ci : Nat) : (componentWithAttachedProceduresRange p ci).1 ≤
      (componentWithAttachedProceduresRange p ci).2 + 1 := by
  have hf : ((attachedProcedureIndex p.routeComponents ci .star <|>
      attachedProcedureIndex p.routeComponents ci .approach).getD ci) ≤ ci := by
    cases hst : attachedProcedureIndex p.routeComponents ci .star with
    | some i =>
      have := (attachedProcedureIndex_cases hst).resolve_left (by simp)
      exact this.2.le
    | none =>
      cases hap : attachedProcedureIndex p.routeComponents ci .approach with
      | some i =>
        have := (attachedProcedureIndex_cases hap).resolve_left (by simp)
        exact this.2.le
      | none => exact le_rfl
  have hl : ci ≤ (attachedProcedureIndex p.routeComponents ci .sid).getD ci := by
    cases hsd : attachedProcedureIndex p.routeComponents ci .sid with
    | some i =>
      have := (attachedProcedureIndex_cases hsd).resolve_right (by simp)
      exact this.2 ▸ Nat.le_succ ci
    | none => exact le_rfl
  exact (hf.trans hl).trans (Nat.le_succ _)

theorem requireFlyableLeg_eq_ok {change : String} :
    requireFlyableLeg change pl = .ok res ↔ pl.resolvedLegs ≠ [] ∧ pl = res := by
  rw [requireFlyableLeg]
  split
  · simp_all
  · simp_all

variable {ed : Edit}

theorem rebuilds_of_deleteComponent (h : deleteComponent G pl ix = .ok res)
    (hor : ed.origins pl.normalized = (Edit.deleteComponent ix).origins pl.normalized) :
    ed.Rebuilds G pl res := by
  simp only [deleteComponent] at h
  split at h
  · cases h
  · refine .splice _ _ h (by simp) (range_le pl.normalized ix) .nil ?_
    simpa [Edit.origins] using hor

theorem rebuilds_of_removeAllAbove (h : removeAllAbove G pl ix = .ok res) :
    (Edit.removeAllAbove ix).Rebuilds G pl res := by
  simp only [removeAllAbove] at h
  split at h
  · cases h
  · exact .splice 0 (ix + 1) h (by simp) (Nat.zero_le _) .nil (by simp [Edit.origins])

theorem rebuilds_of_insertWaypoint {b : Bool} (h : insertWaypoint G pl ix b w = .ok res)
    (hor : ed.origins pl.normalized = insertedAt pl.normalized (if b then ix else ix + 1)) :
    ed.Rebuilds G pl res := by
  simp only [insertWaypoint] at h
  split at h
  · cases h
  · exact .splice _ _ h (append_cons _ _ _) le_rfl .new (hor.trans (append_cons _ _ _))

theorem rebuilds_of_moveComponent {d : Int} (hd : d ≠ 0) (h : moveComponent G pl ix d = .ok res) :
    (Edit.moveComponent ix d).Rebuilds G pl res := by
  simp only [moveComponent, if_neg hd] at h
  split at h
  · cases h
  · split at h
    · cases h
    · rename_i hix ht
      rw [normalized_routeComponents] at hix ht
      have hmv : Laid pl.normalized (.moveComponent ix d) 0 _ :=
        .moved ix (ix + d).toNat (by simpa using hix)
          (by rw [normalized_routeComponents]; omega) rfl
      exact ⟨0, _, _, hmv, by rw [advance_zero]; exact h⟩

theorem rebuilds_of_insertProcedureBetweenWaypoints {first l : Nat}
    (h : insertProcedureBetweenWaypoints G pl first l pc legs = .ok res) :
    (Edit.insertProcedureBetweenWaypoints first l pc legs).Rebuilds G pl res := by
  simp only [insertProcedureBetweenWaypoints, unless_unsupportedOperation_eq_ok, bind_eq_ok] at h
  obtain ⟨hle, -, -, -, -, -, rb, hr, h⟩ := h
  obtain ⟨-, rfl⟩ := requireFlyableLeg_eq_ok.1 h
  exact .splice _ _ hr (append_cons _ _ _) (by omega) .new (append_cons _ _ _)

theorem rebuilds_of_rebuildWithProcedure {p : Nat}
    (h : rebuildWithProcedure G pl.normalized p pc legs = .ok res)
    (hor : ed.origins pl.normalized = insertedAt pl.normalized p) : ed.Rebuilds G pl res :=
  .splice p p h (append_cons _ _ _) le_rfl .new (hor.trans (append_cons _ _ _))

theorem procedureComponentIndexForLoad_eq_ok
    (hun : attachedProcedureIndex pl.routeComponents ai k = none)
    (hkd : k ≠ .sid) (h : procedureComponentIndexForLoad pl ai k = .ok ix) :
    ix = terminalProcedurePlace pl ai k := by
  unfold procedureComponentIndexForLoad at h
  split at h
  · rw [hun] at h
    obtain ⟨-, -, h⟩ := bind_eq_ok.1 h
    cases k with
    | sid => exact absurd rfl hkd
    | approach => exact (pure_eq_ok.1 h).symm
    | star =>
      have hix := pure_eq_ok.1 h
      rw [terminalProcedurePlace]
      split <;> simp_all
  · cases h

theorem rebuilds_of_insertTerminalProcedureBeforeAirport
    (h : insertTerminalProcedureBeforeAirport G pl ai pc legs = .ok res)
    (hor : ed.origins pl.normalized =
      insertedAt pl.normalized (terminalProcedurePlace pl.normalized ai pc.kind)) :
    ed.Rebuilds G pl res := by
  simp only [insertTerminalProcedureBeforeAirport, unless_invalidFlightPlan_eq_ok] at h
  obtain ⟨hkd, -, h⟩ := h
  split at h
  · simp only [unless_invalidFlightPlan_eq_ok, unless_unsupportedOperation_eq_ok, bind_eq_ok] at h
    obtain ⟨-, hat, i, hix, rb, hr, h⟩ := h
    obtain ⟨-, rfl⟩ := requireFlyableLeg_eq_ok.1 h
    rw [procedureComponentIndexForLoad_eq_ok (by simpa using hat) hkd hix] at hr
    exact rebuilds_of_rebuildWithProcedure hr hor
  · cases h
  · cases h

theorem rebuilds_of_insertDepartureAfterAirport
    (h : insertDepartureAfterAirport G pl ai pc legs = .ok res) :
    (Edit.insertDepartureAfterAirport ai pc legs).Rebuilds G pl res := by
  simp only [insertDepartureAfterAirport, unless_invalidFlightPlan_eq_ok] at h
  obtain ⟨-, -, h⟩ := h
  split at h
  · simp only [unless_invalidFlightPlan_eq_ok, unless_unsupportedOperation_eq_ok, bind_eq_ok] at h
    obtain ⟨-, -, -, -, rb, hr, h⟩ := h
    obtain ⟨-, rfl⟩ := requireFlyableLeg_eq_ok.1 h
    exact rebuilds_of_rebuildWithProcedure hr rfl
  · cases h
  · cases h

theorem rebuilds_of_replaceProcedureComponent
    (h : replaceProcedureComponent G pl ix pc legs = .ok res)
    (hor : ed.origins pl.normalized = replacedAt pl.normalized (· == ix)) :
    ed.Rebuilds G pl res := by
  simp only [replaceProcedureComponent, unless_invalidFlightPlan_eq_ok, bind_eq_ok] at h
  obtain ⟨-, -, -, rb, hr, h⟩ := h
  obtain ⟨-, rfl⟩ := requireFlyableLeg_eq_ok.1 h
  refine .replace (fun i => if i = ix then some (.procedure pc, legs) else none) hr ?_ ?_
  · refine ext_getElem? fun i => ?_
    rw [replacedComponents, getElem?_modify, getElem?_map, getElem?_zipIdx, Option.map_map]
    congr 1
    funext existing
    by_cases hi : ix = i
    · simp [hi]
    · simp [hi, Ne.symm hi]
  · rw [hor]
    simp [replacedAt]

theorem rebuilds_of_rebuildPlanWithNavMaterializations
    {rs : List (Nat × RouteComponent × List ResolvedLeg)}
    (h : rebuildPlanWithNavMaterializations G pl rs = .ok res) :
    (Edit.rebuildPlanWithNavMaterializations rs).Rebuilds G pl res := by
  refine .replace (rs.reverse.lookup ·) h rfl (congrArg (replacedAt _) (funext fun i => ?_))
  rw [Bool.eq_iff_iff]
  simp [Eq.comm (a := i)]

variable {fin : Option Nat}

theorem airwayEndMatches_eq_ok {e : NavRef} {em : Bool}
    (h : airwayEndMatches pl.routeComponents st fin e = .ok em) :
    st + 1 ≤ fin.getD pl.routeComponents.length ∧
      em = waypointIs pl (fin.getD pl.routeComponents.length) e := by
  cases fin with
  | some fin =>
    simp only [airwayEndMatches] at h
    split at h
    · cases h
    · rename_i hle
      split at h
      · rename_i w hw
        split at h
        · cases h
        · refine ⟨by simp; omega, ?_⟩
          simp only [getD_some, waypointIs, hw]
          exact (pure_eq_ok.1 h).symm
      · cases h
  | none =>
    simp only [airwayEndMatches] at h
    split at h
    · cases h
    · rename_i hl
      refine ⟨by simp; omega, ?_⟩
      have hm := pure_eq_ok.1 h
      simp [waypointIs, hm.symm]

theorem length_newAirwayEndpoints : (newAirwayEndpoints p ctr w).length = if p then 0 else 1 := by
  cases p <;> rfl

/-- New components between two waypoints that take the uids that come next. -/
structure SpanInserts (counter : UInt64) (span : List RebuiltRouteComponent) (counter' : UInt64)
    (startMatches endMatches : Bool) (airways : Nat) : Prop where
  inserts : ∃ taken, Inserts counter span taken ∧ counter' = counter + UInt64.ofNat taken
  length : span.length =
    2 * airways + (if startMatches then 0 else 1) - if endMatches then 1 else 0
  /-- The last component is a waypoint that has a uid, unless that at the end of the span serves. -/
  last : endMatches = false → (span.getLast?.bind (·.uid)).isSome

theorem spanInserts_airwaySpan (c : UInt64) (sm em : Bool)
    (su eu : String) (aw : AirwaySegment NavRef) :
    SpanInserts c (airwaySpan c sm em su eu aw legs).1
      (airwaySpan c sm em su eu aw legs).2 sm em 1 := by
  refine ⟨⟨_, (Inserts.newAirwayEndpoints.append .new).append .newAirwayEndpoints, ?_⟩, ?_, ?_⟩
  · rw [UInt64.ofNat_add, ← UInt64.add_assoc]
    rfl
  · simp only [airwaySpan, length_append, length_newAirwayEndpoints]
    split <;> split <;> rfl
  · rintro rfl
    simp [airwaySpan, newAirwayEndpoints, newAirwayEndpoint]

/-- An airway with the endpoints that the plan does not have yet. -/
theorem rebuilds_of_insertAirwaySpan {aw : AirwaySegment NavRef}
    (h : insertAirwaySpan G pl st fin aw legs = .ok res)
    (hor : ed.origins pl.normalized = airwaysInserted pl.normalized st
      (fin.getD pl.normalized.routeComponents.length) [aw]) :
    ed.Rebuilds G pl res := by
  obtain ⟨b, hbl, h⟩ := bind_eq_ok.1 h
  obtain ⟨rfl, -⟩ := buildFlightPlan_eq_ok hbl
  split at h
  · rename_i sw hs
    obtain ⟨em, hen, h⟩ := bind_eq_ok.1 h
    obtain ⟨hle, rfl⟩ := airwayEndMatches_eq_ok hen
    dsimp only at h
    obtain ⟨⟨n, hn, hcn⟩, hl, -⟩ : SpanInserts .. :=
      spanInserts_airwaySpan pl.normalized.routeComponentUidCounter (sw == aw.entry)
        (waypointIs pl.normalized (fin.getD pl.normalized.routeComponents.length) aw.exit)
        (pl.normalized.routeComponentUids.getD st "")
        (pl.normalized.routeComponentUids.getD (fin.getD 0) "") aw
    rw [length_rebuiltExistingComponents, hcn] at h
    refine ⟨n, _, .preserveByRowUid, .spliced hle hn fun _ => ?_, ?_⟩
    · have he : waypointIs pl.normalized st aw.entry = (sw == aw.entry) := by
        rw [waypointIs, hs]
        rfl
      rw [hor, airwaysInserted, hl]
      simp only [head?_cons, any_some, he]
      rfl
    · exact h
  · cases h

theorem SpanInserts.append {mid c' : UInt64} {s r : List RebuiltRouteComponent}
    {sm em : Bool} (hsp : SpanInserts ctr s mid sm false m)
    (hr : SpanInserts mid r c' true em n) (hn : 0 < n) :
    SpanInserts ctr (s ++ r) c' sm em (m + n) := by
  obtain ⟨tk, hin, rfl⟩ := hsp.inserts
  obtain ⟨mr, hmr, rfl⟩ := hr.inserts
  refine ⟨⟨tk + mr, hin.append hmr, ?_⟩, ?_, ?_⟩
  · rw [UInt64.ofNat_add, UInt64.add_assoc]
  · rw [length_append, hsp.length, hr.length]
    simp only [if_true, Bool.false_eq_true, if_false]
    split <;> split <;> omega
  · intro he
    have hl := hr.last he
    obtain ⟨uid, hl⟩ := isSome_iff_exists.1 hl
    obtain ⟨c, hcm, hu⟩ := bind_eq_some_iff.1 hl
    simp [hcm, hu]

variable {ss : List (AirwaySegment NavRef × List ResolvedLeg)}

/-- The components of a chain of airways, with the uids that its endpoints take. -/
theorem airwayRouteSpan_spec {c : UInt64} {fin l : RebuiltRouteComponent} {c' : UInt64}
    {i : Bool} {seg : AirwaySegment NavRef × List ResolvedLeg} {sp : List RebuiltRouteComponent}
    (h : airwayRouteSpan fin l c i (seg :: ss) = .ok (sp, c')) :
    (i = true → l.component.isAt seg.1.entry = true) ∧
      ∃ new em, SpanInserts c new c' (l.component.isAt seg.1.entry) em (ss.length + 1) ∧
        em = (seg :: ss).getLast?.any (fin.component.isAt ·.1.exit) ∧
        sp = if em then new ++ [fin] else new := by
  induction ss generalizing seg l c i sp with
  | nil =>
    obtain ⟨aw, ls⟩ := seg
    simp only [unless_invalidFlightPlan_eq_ok, bind_eq_ok, Prod.exists, airwayRouteSpan] at h
    obtain ⟨hin, r, c'', ⟨rfl, rfl⟩, rfl, rfl⟩ := h
    exact ⟨by simpa using hin, _, _, spanInserts_airwaySpan _ _ _ _ _ _, rfl, by simp⟩
  | cons next ss ih =>
    obtain ⟨aw, ls⟩ := seg
    rw [airwayRouteSpan] at h
    simp only [unless_invalidFlightPlan_eq_ok, bind_eq_ok, Prod.exists] at h
    obtain ⟨hin, r, c'', hr, rfl, rfl⟩ := h
    obtain ⟨he, new, em, hn, hen, rfl⟩ := ih hr
    rw [he rfl] at hn
    have hsp := (spanInserts_airwaySpan c (l.component.isAt aw.entry) false
      (l.uid.getD "") (fin.uid.getD "") aw).append hn (Nat.succ_pos _)
    rw [Nat.add_comm 1] at hsp
    refine ⟨by simpa using hin, _, em, hsp, ?_, ?_⟩
    · rw [hen, getLast?_cons_cons]
    · cases em <;> simp

/-- A chain of airways, in place of what stands between two waypoints. -/
theorem rebuilds_of_replaceAirwayRouteSpan {f : Nat}
    (h : replaceAirwayRouteSpan G pl st f ss = .ok res) :
    (Edit.replaceAirwayRouteSpan st f ss).Rebuilds G pl res := by
  obtain ⟨b, hbl, h⟩ := bind_eq_ok.1 h
  obtain ⟨rfl, -⟩ := buildFlightPlan_eq_ok hbl
  dsimp only at h
  split at h
  · rename_i sc ec hstr he
    split at h
    · cases h
    · rename_i hgr
      obtain ⟨⟨sp, ct⟩, hsp, h⟩ := bind_eq_ok.1 h
      cases ss with
      | nil => simp at hgr
      | cons seg ss =>
        obtain ⟨-, new, em, hn, hmt, rfl⟩ := airwayRouteSpan_spec hsp
        obtain ⟨n, hin, rfl⟩ := hn.inserts
        have hle : st + 1 ≤ f := by omega
        obtain ⟨hst, -⟩ := of_getElem?_rebuiltExistingComponents hstr
        obtain ⟨het, hen⟩ := of_getElem?_rebuiltExistingComponents he
        have hor : (Edit.replaceAirwayRouteSpan st f (seg :: ss)).origins
            pl.normalized = (allKept pl.normalized).take (st + 1) ++
              List.replicate new.length .inserted ++ (allKept pl.normalized).drop f := by
          rw [Edit.origins, airwaysInserted, hn.length, hmt, head?_map, getLast?_map,
            Option.any_map, Option.any_map]
          simp only [waypointIs, hst, het, any_some, head?_cons, length_cons, length_map]
        cases em with
        | true =>
          refine ⟨n, _, .preserveByRowUid, .spliced hle hin fun _ => hor, ?_⟩
          simp only [if_true, getLast?_concat, bind_some, hen, beq_self_eq_true] at h
          rw [drop_eq_getElem?_toList_append, he]
          simp only [append_assoc] at h ⊢
          exact h
        | false =>
          obtain ⟨uid, hl⟩ := isSome_iff_exists.1 (hn.last rfl)
          simp only [Bool.false_eq_true, if_false, hl] at h
          refine ⟨n, _, .preserveByRowUid, .spliced ?_ hin fun hfr => ?_, h⟩
          · split <;> omega
          · -- the last uid is one of the next ones, so it is not that of the end of the span
            have hu : uid ∈ nextUids pl.normalized.routeComponentUidCounter new.length := by
              obtain ⟨c, hcm, hu⟩ := bind_eq_some_iff.1 hl
              have hm : uid ∈ new.filterMap (·.uid) := mem_filterMap.2 ⟨c, mem_of_getLast? hcm, hu⟩
              have htk : n ≤ new.length := by
                have hln := length_filterMap_le (·.uid) new
                rwa [hin, length_nextUids] at hln
              rw [hin] at hm
              exact nextUids_mono htk hm
            have hn : uid ∉ pl.normalized.routeComponentUids := by
              refine hfr uid ?_
              rw [hor, count_inserted_splice]
              exact hu
            rw [if_neg, hor]
            intro heq
            exact hn (mem_of_getElem? (beq_iff_eq.1 heq).symm)
  · cases h

/-- An edit that returns has made its plan of what it has laid out; only the move of a component by
nothing returns the plan as it is. -/
theorem Edit.rebuilds_of_apply (h : ed.apply G pl = .ok res) :
    (∃ i, ed = .moveComponent i 0 ∧ res = pl.normalized) ∨ ed.Rebuilds G pl res := by
  cases ed with
  | deleteComponent i => exact .inr (rebuilds_of_deleteComponent h rfl)
  | removeAllAbove i => exact .inr (rebuilds_of_removeAllAbove h)
  | deleteWaypointComponent i =>
    simp only [Edit.apply, Planning.deleteWaypointComponent] at h
    split at h
    · exact .inr (rebuilds_of_deleteComponent h rfl)
    · cases h
    · cases h
  | insertWaypoint i b w => exact .inr (rebuilds_of_insertWaypoint h rfl)
  | insertAirportWaypoint i b a =>
    simp only [Edit.apply, Planning.insertAirportWaypoint] at h
    split at h
    · cases h
    · exact .inr (rebuilds_of_insertWaypoint h rfl)
  | moveComponent i d =>
    by_cases hd : d = 0
    · subst hd
      exact .inl ⟨i, rfl, (pure_eq_ok.1 h).symm⟩
    · exact .inr (rebuilds_of_moveComponent hd h)
  | insertAirwayBetweenWaypoints first l aw ls =>
    exact .inr (rebuilds_of_insertAirwaySpan h rfl)
  | insertAirwayAfterWaypoint first aw ls => exact .inr (rebuilds_of_insertAirwaySpan h rfl)
  | replaceAirwayRouteSpan first l ss => exact .inr (rebuilds_of_replaceAirwayRouteSpan h)
  | insertProcedureBetweenWaypoints first l p ls =>
    exact .inr (rebuilds_of_insertProcedureBetweenWaypoints h)
  | insertTerminalProcedureBeforeAirport i p ls =>
    exact .inr (rebuilds_of_insertTerminalProcedureBeforeAirport h rfl)
  | insertInitialProcedureBeforeAirport i p ls =>
    simp only [Edit.apply, Planning.insertInitialProcedureBeforeAirport] at h
    split at h
    · cases h
    · exact .inr (rebuilds_of_insertTerminalProcedureBeforeAirport h rfl)
  | insertDepartureAfterAirport i p ls => exact .inr (rebuilds_of_insertDepartureAfterAirport h)
  | replaceProcedureComponent i p ls => exact .inr (rebuilds_of_replaceProcedureComponent h rfl)
  | changeProcedureEnrouteTransition i t ls =>
    obtain ⟨p, -, h⟩ := bind_eq_ok.1 h
    exact .inr (rebuilds_of_replaceProcedureComponent h rfl)
  | changeProcedureRunwayTransition i t ls =>
    obtain ⟨p, -, h⟩ := bind_eq_ok.1 h
    exact .inr (rebuilds_of_replaceProcedureComponent h rfl)
  | rebuildPlanWithNavMaterializations rs =>
    exact .inr (rebuilds_of_rebuildPlanWithNavMaterializations h)

end Edits

end Aerobag.Planning
