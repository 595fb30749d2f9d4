import Aerobag.Planning.Legs

/-!
# The rows of a plan

How `planning.rs` projects components to rows, which leg ends at which row, and the rows of the
active leg. Only what identifies a row is modelled: labels, references, leg indices and uids.
-/

namespace Aerobag.Planning

inductive RouteComponentViewKind where
  | waypoint
  | airway
  | procedure
deriving DecidableEq, Repr

def RouteComponentViewKind.debugText : RouteComponentViewKind → String
  | .waypoint => "Waypoint"
  | .airway => "Airway"
  | .procedure => "Procedure"

inductive FlightPlanDisplayRowKind where
  | waypoint
  | group
  | discontinuity
deriving DecidableEq, Repr

structure DisplayRow where
  uid : String
  label : String
  rowKind : FlightPlanDisplayRowKind
  componentIndex : Option Nat
  legIndex : Option Nat
  navRef : Option NavRef
  syntheticDirectTo : Bool
deriving Repr

inductive ConcretizedNavItem where
  | waypoint (navRef : NavRef)
  | discontinuity (discontinuity : ProcedureDiscontinuity) (label : String)
deriving Repr

def ConcretizedNavItem.navRef? : ConcretizedNavItem → Option NavRef
  | .waypoint navRef => some navRef
  | .discontinuity _ _ => none

def componentViewKind : RouteComponent → RouteComponentViewKind
  | .waypoint _ => .waypoint
  | .airway _ => .airway
  | .procedure _ => .procedure

def ProcedureSegment.pilotFacingLabel (procedure : ProcedureSegment) : String :=
  ((procedure.displayLabel.map Text.trim).filter (· ≠ "")).getD procedure.procedureId

def componentSummary : RouteComponent → String
  | .waypoint waypoint => navRefLabel waypoint
  | .airway airway => airway.name
  | .procedure procedure => procedure.pilotFacingLabel

/-- A leg on vectors ends at its own row, not at a waypoint. -/
def resolvedLegTargetsVectorDiscontinuityRow (leg : ResolvedLeg) : Bool :=
  leg.fromRef == leg.toRef && leg.discontinuityAfter == some .vectors

def discontinuityItem (discontinuity : ProcedureDiscontinuity) : ConcretizedNavItem :=
  .discontinuity discontinuity discontinuity.displayLabel

def procedureLegItems (leg : ResolvedLeg) : List ConcretizedNavItem :=
  (if resolvedLegTargetsVectorDiscontinuityRow leg then [] else [.waypoint leg.toRef]) ++
    (leg.discontinuityAfter.map discontinuityItem).toList

def rawComponentUiItems (component : RouteComponent) (groupedLegs : List ResolvedLeg) :
    List ConcretizedNavItem :=
  match component with
  | .waypoint waypoint => [.waypoint waypoint]
  | .airway _ =>
    (groupedLegs.take (groupedLegs.length - 1)).map fun leg => .waypoint leg.toRef
  | .procedure procedure =>
    let first := (groupedLegs.head?.map fun leg => ConcretizedNavItem.waypoint leg.fromRef).toList
    let terminal := if groupedLegs.getLast?.any (·.discontinuityAfter.isSome) then []
      else (procedure.terminalDiscontinuity.map discontinuityItem).toList
    first ++ groupedLegs.flatMap procedureLegItems ++ terminal

def firstWaypointItem (items : List ConcretizedNavItem) : Option (Nat × NavRef) :=
  items.zipIdx.findSome? fun (item, index) => item.navRef?.map (index, ·)

def lastWaypointItem (items : List ConcretizedNavItem) : Option (Nat × NavRef) :=
  items.zipIdx.reverse.findSome? fun (item, index) => item.navRef?.map (index, ·)

def RouteComponent.isProcedure : RouteComponent → Bool
  | .procedure _ => true
  | _ => false

/-- A fix at which one component ends and the next begins is shown once. -/
def removeOverlap (left right : RouteComponent) (leftItems rightItems : List ConcretizedNavItem) :
    List ConcretizedNavItem × List ConcretizedNavItem :=
  if !left.isProcedure && !right.isProcedure then (leftItems, rightItems)
  else match lastWaypointItem leftItems, firstWaypointItem rightItems with
    | some (leftIndex, leftRef), some (rightIndex, rightRef) =>
      if leftRef != rightRef then (leftItems, rightItems)
      else if left.isWaypoint && !right.isWaypoint then (leftItems, rightItems.eraseIdx rightIndex)
      else (leftItems.eraseIdx leftIndex, rightItems)
    | _, _ => (leftItems, rightItems)

/-- The boundaries from a component on, in order. -/
def removeOverlaps : RouteComponent × List ConcretizedNavItem →
    List (RouteComponent × List ConcretizedNavItem) → List (List ConcretizedNavItem)
  | left, [] => [left.2]
  | left, right :: rest =>
    let items := removeOverlap left.1 right.1 left.2 right.2
    items.1 :: removeOverlaps (right.1, items.2) rest

def componentItemsWithProcedureOverlapRemoved (components : List RouteComponent)
    (grouped : List (Option (List ResolvedLeg))) : List (List ConcretizedNavItem) :=
  match (components.zip grouped).map fun (component, legs) =>
      (component, rawComponentUiItems component (legs.getD [])) with
  | [] => []
  | first :: rest => removeOverlaps first rest

variable (plan : FlightPlan) (componentIndex : Nat) (guidance : GuidanceState)

def topLevelWaypointRowLegIndex : Option Nat :=
  match plan.routeComponents[componentIndex]? with
  | some (.waypoint waypoint) =>
    if componentIndex = 0 then none
    else plan.resolvedLegs.findIdx? fun leg => leg.toRef == waypoint && match leg.source with
      | .routeComponent source => source + 1 == componentIndex
      | .syntheticBridge _ target => target == componentIndex
  | _ => none

def ResolvedLeg.arrivesIn (leg : ResolvedLeg) : Bool :=
  match leg.source with
  | .routeComponent source => source == componentIndex
  | .syntheticBridge _ target => target == componentIndex

/-- The legs of the component that end at a waypoint row of the reference. -/
def childWaypointLegs (navRef : NavRef) : List Nat :=
  (plan.resolvedLegs.zipIdx.filter fun (leg, _) =>
    leg.arrivesIn componentIndex && leg.toRef == navRef &&
      !resolvedLegTargetsVectorDiscontinuityRow leg).map (·.2)

/-- The leg before the first one of the component, if it ends at the reference. -/
def legBeforeComponent (navRef : NavRef) : Option Nat :=
  (plan.resolvedLegs.findIdx? (·.ofComponent componentIndex)).bind fun first =>
    (checkedSub first 1).filter fun previous => plan.resolvedLegs[previous]?.any (·.toRef == navRef)

def RouteComponent.isAirway : RouteComponent → Bool
  | .airway _ => true
  | _ => false

def childWaypointRowLegIndex (componentIndex itemIndex waypointOccurrence : Nat)
    (navRef : NavRef) : Option Nat :=
  let localLegIndex := (childWaypointLegs plan componentIndex navRef)[waypointOccurrence]?
  if localLegIndex.isSome || itemIndex != 0 ||
      plan.routeComponents[componentIndex]?.any (·.isAirway) then localLegIndex
  -- the first fix of a procedure may be where the component before it ends
  else legBeforeComponent plan componentIndex navRef

def vectorDiscontinuityRowLegIndex (componentIndex occurrence : Nat) :
    Option Nat :=
  let vectorLegs := plan.resolvedLegs.zipIdx.filter fun (leg, _) =>
    leg.ofComponent componentIndex && leg.discontinuityAfter == some .vectors
  (vectorLegs[occurrence]?.filter fun (leg, _) =>
    resolvedLegTargetsVectorDiscontinuityRow leg).map (·.2)

def lastGuidanceLegIndexForComponent : Option Nat :=
  (plan.resolvedLegs.zipIdx.filter fun (leg, _) => leg.ofComponent componentIndex).getLast?.map (·.2)

def rowUid (componentUid : String) (kind : RouteComponentViewKind) (rest : String) : String :=
  "component:" ++ componentUid ++ ":" ++ kind.debugText ++ ":" ++ rest

def childWaypointRowUid (componentUid : String) (kind : RouteComponentViewKind) (occurrence : Nat)
    (navRef : NavRef) : String :=
  rowUid componentUid kind (s!"child:{occurrence}:" ++ navRefKey navRef)

def discontinuityRowUid (componentUid : String) (kind : RouteComponentViewKind) (occurrence : Nat)
    (label : String) : String :=
  rowUid componentUid kind (s!"disc:{occurrence}:" ++ label)

/-- The rows of an airway or a procedure, with counts of items, waypoints and vectors. -/
def childRows (plan : FlightPlan) (componentIndex : Nat) (componentUid : String)
    (kind : RouteComponentViewKind) (occurrence waypoints vectors : Nat) (keys : List String) :
    List ConcretizedNavItem → List DisplayRow
  | [] => []
  | .waypoint navRef :: items =>
    { uid := childWaypointRowUid componentUid kind occurrence navRef
      label := navRefLabel navRef
      rowKind := .waypoint
      componentIndex := some componentIndex
      legIndex := childWaypointRowLegIndex plan componentIndex waypoints
        (keys.count (navRefKey navRef)) navRef
      navRef := some navRef
      syntheticDirectTo := false } ::
      childRows plan componentIndex componentUid kind (occurrence + 1) (waypoints + 1) vectors
        (navRefKey navRef :: keys) items
  | .discontinuity discontinuity label :: items =>
    { uid := discontinuityRowUid componentUid kind occurrence label
      label
      rowKind := .discontinuity
      componentIndex := some componentIndex
      legIndex := match discontinuity with
        | .hold => lastGuidanceLegIndexForComponent plan componentIndex
        | .vectors => vectorDiscontinuityRowLegIndex plan componentIndex vectors
        | .other _ => none
      navRef := none
      syntheticDirectTo := false } ::
      childRows plan componentIndex componentUid kind (occurrence + 1) waypoints
        (if discontinuity = .vectors then vectors + 1 else vectors) keys items

def componentRows (component : RouteComponent)
    (componentUid : String) (items : List ConcretizedNavItem) : List DisplayRow :=
  let kind := componentViewKind component
  match component with
  | .waypoint waypoint => [{
      uid := rowUid componentUid kind "waypoint"
      label := navRefLabel waypoint
      rowKind := .waypoint
      componentIndex := some componentIndex
      legIndex := topLevelWaypointRowLegIndex plan componentIndex
      navRef := some waypoint
      syntheticDirectTo := false }]
  | _ =>
    { uid := rowUid componentUid kind "group"
      label := componentSummary component
      rowKind := .group
      componentIndex := some componentIndex
      legIndex := none
      navRef := none
      syntheticDirectTo := false } ::
      childRows plan componentIndex componentUid kind 0 0 0 [] items

def GuidanceState.activeDirectTo : Option DirectToState :=
  if guidance.sequencingMode = .directTo then guidance.directTo else none

def directToOverlayRow : List DisplayRow :=
  match plan.guidance.bind (·.activeDirectTo) with
  | some directTo =>
    if directTo.targetRow.isPlanned then []
    else [{
      uid := directTo.targetRow.rowId
      label := navRefLabel directTo.target
      rowKind := .waypoint
      componentIndex := none
      legIndex := none
      navRef := some directTo.target
      syntheticDirectTo := true }]
  | none => []

/-- `project_display_rows` of the components of a plan. -/
def projectIdentityRows : List DisplayRow :=
  let items := componentItemsWithProcedureOverlapRemoved plan.routeComponents
    (groupedComponentLegs plan)
  (plan.routeComponents.zipIdx.flatMap fun (component, index) =>
    componentRows plan index component (plan.routeComponentUids.getD index "")
      (items.getD index [])) ++ directToOverlayRow plan

def displayRowTargetsGuidanceLeg (row : DisplayRow) : Bool :=
  (row.rowKind == .waypoint && row.navRef.isSome) ||
    (row.rowKind == .discontinuity &&
      (row.legIndex.bind (plan.resolvedLegs[·]?)).any resolvedLegTargetsVectorDiscontinuityRow)

/-- The first loop of `guidance_leg_row_ids`. -/
def insertRowIds (ids : List (Nat × String)) : List DisplayRow → AppResult (List (Nat × String))
  | [] => pure ids
  | row :: rows =>
    match row.legIndex with
    | none => insertRowIds ids rows
    | some legIndex =>
      if (ids.lookup legIndex).isSome then
        invalidFlightPlan s!"resolved leg {legIndex} projects to multiple target rows"
      else insertRowIds (ids ++ [(legIndex, row.uid)]) rows

/-- The uid of the row at which each leg ends. -/
def guidanceLegRowIds : AppResult (List (Nat × String)) := do
  let ids ← insertRowIds [] ((projectIdentityRows plan).filter (displayRowTargetsGuidanceLeg plan))
  (List.range plan.resolvedLegs.length).forM fun legIndex =>
    if (ids.lookup legIndex).isSome then pure ()
    else invalidFlightPlan s!"resolved leg {legIndex} has no projected target row"
  return ids

def plannedRowIdForLegIndex (legIndex : Nat) : AppResult String := do
  match (← guidanceLegRowIds plan).lookup legIndex with
  | some rowId => pure rowId
  | none => invalidFlightPlan s!"resolved leg {legIndex} has no projected target row"

structure GuidanceDetailRef where
  detailIndex : Nat
  legIndex : Nat
  legId : String
  elementIndex : Nat
deriving DecidableEq, Repr

def guidanceDetailRefs : List GuidanceDetailRef :=
  let elements := plan.resolvedLegs.zipIdx.flatMap fun (leg, legIndex) =>
    (List.range leg.elementCount).map fun elementIndex => (legIndex, leg.id, elementIndex)
  elements.zipIdx.map fun ((legIndex, legId, elementIndex), detailIndex) =>
    { detailIndex, legIndex, legId, elementIndex }

def firstGuidanceDetailIndexForLeg (legIndex : Nat) : Option Nat :=
  ((guidanceDetailRefs plan).find? (·.legIndex == legIndex)).map (·.detailIndex)

def guidanceDetailRefByIndex (detailIndex : Nat) : Option GuidanceDetailRef :=
  (guidanceDetailRefs plan).find? (·.detailIndex == detailIndex)

def resolvedLegEndsInManualSequence (leg : ResolvedLeg) : Bool :=
  leg.discontinuityAfter == some .vectors && leg.displayPath.any (!·.elements.isEmpty)

def guidanceDetailIsManualSequence (detailIndex : Nat) : Bool :=
  match guidanceDetailRefByIndex plan detailIndex with
  | none => false
  | some detail => plan.resolvedLegs[detail.legIndex]?.any fun leg =>
      resolvedLegEndsInManualSequence leg &&
        leg.displayPath.any (detail.elementIndex + 1 == ·.elements.length)

def terminalHoldStartElementIndexForLeg (legIndex : Nat) : Option Nat := do
  let leg ← plan.resolvedLegs[legIndex]?
  match leg.source with
  | .syntheticBridge _ _ => none
  | .routeComponent componentIndex =>
    match plan.routeComponents[componentIndex]? with
    | some (.procedure procedure) =>
      if procedure.terminalDiscontinuity ≠ some .hold then none
      else if lastGuidanceLegIndexForComponent plan componentIndex ≠ some legIndex then none
      else do
        let path ← leg.displayPath
        if 5 ≤ path.elements.length then some (path.elements.length - 4) else none
    | _ => none

def terminalHoldStartDetailIndexForLeg (legIndex : Nat) : Option Nat := do
  let holdStartElement ← terminalHoldStartElementIndexForLeg plan legIndex
  ((guidanceDetailRefs plan).find? fun detail =>
    detail.legIndex == legIndex && detail.elementIndex == holdStartElement).map (·.detailIndex)

def shouldSuspendAfterActiveLeg (activeLegIndex : Nat) : Bool :=
  match plan.resolvedLegs[activeLegIndex]? with
  | none => false
  | some leg =>
    if leg.discontinuityAfter.isSome then true
    else match leg.source with
      | .syntheticBridge _ _ => false
      | .routeComponent componentIndex =>
        match plan.routeComponents[componentIndex]? with
        | some (.procedure procedure) => procedure.terminalDiscontinuity.isSome &&
            lastGuidanceLegIndexForComponent plan componentIndex == some activeLegIndex
        | _ => false

structure PlanLeg where
  fromRef : NavRef
  toRef : NavRef
  airway : Option String
deriving BEq, Repr

def guidanceIsInTerminalHold : Bool :=
  guidance.activeDetailIndex.any fun detailIndex =>
    (terminalHoldStartDetailIndexForLeg plan guidance.activeLegIndex).any (· ≤ detailIndex)

def guidanceIsAtManualSequence : Bool :=
  guidance.activeDetailIndex.any (guidanceDetailIsManualSequence plan)

def guidanceProjectsActiveLeg : Bool :=
  let legExists := plan.resolvedLegs[guidance.activeLegIndex]?.isSome
  match guidance.sequencingMode with
  | .directTo => guidance.directTo.isSome
  | .followPlan => legExists
  | .suspended =>
    let preserveActiveLeg := match guidance.suspendReason with
      | some .manual => true
      | some .boundary =>
        guidanceIsInTerminalHold plan guidance || guidanceIsAtManualSequence plan guidance
      | some .routeEnd => false
      | some .directToComplete => false
      | none => guidance.directTo.isNone &&
          !shouldSuspendAfterActiveLeg plan guidance.activeLegIndex &&
          decide (guidance.activeLegIndex + 1 < plan.resolvedLegs.length)
    preserveActiveLeg && legExists

def activeGuidanceLegOf : Option PlanLeg := do
  let guidance ← plan.guidance
  if !guidanceProjectsActiveLeg plan guidance then none
  else match guidance.sequencingMode with
    | .directTo => guidance.directTo.map fun directTo =>
        { fromRef := directTo.start, toRef := directTo.target, airway := none }
    | _ => plan.resolvedLegs[guidance.activeLegIndex]?.map fun leg =>
        { fromRef := leg.fromRef, toRef := leg.toRef, airway := none }

def activeGuidanceLeg : Option PlanLeg := activeGuidanceLegOf plan.normalized

def lastRowBefore (rows : List DisplayRow) (index : Nat) (p : DisplayRow → Bool) :
    Option DisplayRow :=
  (rows.take index).reverse.find? p

def rowUidsBetween (rows : List DisplayRow) (isStart isTarget : DisplayRow → Bool) :
    Option String × Option String :=
  match rows.findIdx? isTarget with
  | none => (none, none)
  | some index => ((lastRowBefore rows index isStart).map (·.uid), rows[index]?.map (·.uid))

def activeGuidanceRowUids (rows : List DisplayRow) :
    Option String × Option String :=
  match plan.guidance, activeGuidanceLeg plan with
  | some guidance, some activeLeg =>
    let isWaypointAt (navRef : NavRef) (row : DisplayRow) : Bool :=
      row.rowKind == .waypoint && row.navRef.any (· == navRef)
    let isDiscontinuityOfLeg (discontinuity : ProcedureDiscontinuity) (row : DisplayRow) : Bool :=
      row.rowKind == .discontinuity && row.label == discontinuity.displayLabel &&
        row.legIndex == some guidance.activeLegIndex
    let isWaypointOfLeg (row : DisplayRow) : Bool :=
      row.rowKind == .waypoint && row.legIndex == some guidance.activeLegIndex &&
        row.navRef.any (· == activeLeg.toRef)
    if guidance.sequencingMode ≠ .directTo ∧ plan.resolvedLegs[guidance.activeLegIndex]?.any
        resolvedLegTargetsVectorDiscontinuityRow then
      rowUidsBetween rows (isWaypointAt activeLeg.fromRef) (isDiscontinuityOfLeg .vectors)
    else if guidanceIsInTerminalHold plan guidance then
      rowUidsBetween rows isWaypointOfLeg (isDiscontinuityOfLeg .hold)
    else match guidance.sequencingMode with
      | .directTo =>
        let startsAtPosition := match activeLeg.fromRef with
          | .latLon _ => true
          | _ => false
        rowUidsBetween rows
          (fun row => !startsAtPosition && isWaypointAt activeLeg.fromRef row)
          (fun row => guidance.directTo.any (row.uid == ·.targetRow.rowId))
      | _ => rowUidsBetween rows (isWaypointAt activeLeg.fromRef) isWaypointOfLeg
  | _, _ => (none, none)

end Aerobag.Planning
