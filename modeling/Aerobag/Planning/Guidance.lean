import Aerobag.Planning.Rows

/-!
# Guidance

The functions that start, stop and sequence guidance, and those that carry it over an edit: the uids
of the rows of the active leg are captured, and a leg between such rows is looked for afterwards.
-/

namespace Aerobag.Planning

def legStartsAtRouteComponent (leg : ResolvedLeg) (componentIndex : Nat) : Bool :=
  match leg.source with
  | .routeComponent source => source == componentIndex
  | .syntheticBridge source _ => source == componentIndex

variable (plan : FlightPlan) (guidance : GuidanceState) (directTo : DirectToState)

def resumeLegIndexAfterLeg (legIndex : Nat) : Option Nat :=
  if shouldSuspendAfterActiveLeg plan legIndex then none
  else plan.resolvedLegs[legIndex + 1]?.map fun _ => legIndex + 1

def resumeLegIndexAfterRow (row : DisplayRow) (target : NavRef) : Option Nat :=
  match row.legIndex with
  | some legIndex => resumeLegIndexAfterLeg plan legIndex
  | none => row.componentIndex.bind fun componentIndex => plan.resolvedLegs.findIdx? fun leg =>
      legStartsAtRouteComponent leg componentIndex && leg.fromRef == target

def resumeRowIdAfterRow (row : DisplayRow) (target : NavRef) :
    AppResult (Option String) :=
  match resumeLegIndexAfterRow plan row target with
  | none => pure none
  | some legIndex => do return some (← plannedRowIdForLegIndex plan legIndex)

structure PlannedDirectToTarget where
  rowId : String
  targetLegIndex : Option Nat
  resumeRowId : Option String
deriving Repr

def plannedDirectToTargetsForNavRef (target : NavRef) :
    AppResult (List PlannedDirectToTarget) :=
  let rows := (projectIdentityRows plan).filter fun row =>
    row.rowKind == .waypoint && row.navRef.any (· == target)
  rows.mapM fun row => do
    return {
      rowId := row.uid
      targetLegIndex := row.legIndex
      resumeRowId := ← resumeRowIdAfterRow plan row target }

def plannedDirectToTargetForRowId (rowId : String) :
    AppResult (NavRef × PlannedDirectToTarget) :=
  match (projectIdentityRows plan).find? (·.uid == rowId) with
  | none => invalidFlightPlan ("direct-to target row does not exist: " ++ rowId)
  | some row =>
    if row.rowKind ≠ .waypoint then
      unsupportedOperation ("direct-to target row is not a waypoint: " ++ rowId)
    else match row.navRef with
      | none => invalidFlightPlan ("direct-to target row has no location: " ++ rowId)
      | some target => do
        return (target, {
          rowId
          targetLegIndex := row.legIndex
          resumeRowId := ← resumeRowIdAfterRow plan row target })

def allocateTemporaryDirectToRowId : String :=
  "flight-plan-row:" ++ Text.hex 16 plan.routeComponentUidCounter.toNat

def directToTargetRow : Option DisplayRow :=
  match directTo.targetRow with
  | .temporary _ => none
  | .planned rowId => (projectIdentityRows plan).find? (·.uid == rowId)

def directToTargetLegIndex : Option Nat :=
  (directToTargetRow plan directTo).bind (·.legIndex)

def directToResumeLegIndex : Option Nat := do
  let resumeRowId ← directTo.resumeRowId
  ((projectIdentityRows plan).find? (·.uid == resumeRowId)).bind (·.legIndex)

def FlightPlan.withGuidance : FlightPlan :=
  plan.setGuidance (some guidance)

def directToGuidance (targetLegIndex : Option Nat) (directTo : DirectToState) :
    GuidanceState where
  activeLegIndex := (targetLegIndex <|> plan.guidance.map (·.activeLegIndex)).getD 0
  activeDetailIndex := targetLegIndex.bind (firstGuidanceDetailIndexForLeg plan)
  sequencingMode := .directTo
  directTo := some directTo
  suspendReason := none

def activateDirectTo (fromPosition : LatLon) (target : NavRef) :
    AppResult FlightPlan := do
  let plan := plan.normalized
  let plannedTarget := match ← plannedDirectToTargetsForNavRef plan target with
    | [target] => some target
    | _ => none
  return plan.withGuidance (directToGuidance plan (plannedTarget.bind (·.targetLegIndex)) {
    start := .latLon fromPosition
    target
    targetRow := match plannedTarget with
      | some target => .planned target.rowId
      | none => .temporary (allocateTemporaryDirectToRowId plan)
    resumeRowId := plannedTarget.bind (·.resumeRowId) })

def activateDirectToRow (fromPosition : LatLon) (targetRowId : String) :
    AppResult FlightPlan := do
  let plan := plan.normalized
  let (target, plannedTarget) ← plannedDirectToTargetForRowId plan targetRowId
  return plan.withGuidance (directToGuidance plan plannedTarget.targetLegIndex {
    start := .latLon fromPosition
    target
    targetRow := .planned plannedTarget.rowId
    resumeRowId := plannedTarget.resumeRowId })

def guidanceStateForActivatedDetail (activeLegIndex : Nat)
    (activeDetailIndex : Option Nat) : GuidanceState :=
  let manualSequence := activeDetailIndex.any (guidanceDetailIsManualSequence plan)
  { activeLegIndex
    activeDetailIndex
    sequencingMode := if manualSequence then .suspended else .followPlan
    directTo := none
    suspendReason := if manualSequence then some .boundary else none }

def guidanceStateForActivatedLeg (legIndex : Nat) : GuidanceState :=
  guidanceStateForActivatedDetail plan legIndex (firstGuidanceDetailIndexForLeg plan legIndex)

def restoreDirectTo : AppResult FlightPlan :=
  let plan := plan.normalized
  match plan.guidance with
  | none => pure plan
  | some guidance =>
    if guidance.sequencingMode ≠ .directTo then pure plan
    else if plan.resolvedLegs.isEmpty then
      pure (plan.withGuidance {
        activeLegIndex := 0
        activeDetailIndex := none
        sequencingMode := .suspended
        directTo := none
        suspendReason := some .routeEnd })
    else pure (plan.withGuidance (guidanceStateForActivatedLeg plan
      (min guidance.activeLegIndex (plan.resolvedLegs.length - 1))))

def activateLeg (legIndex : Nat) : AppResult FlightPlan :=
  let plan := plan.normalized
  if plan.resolvedLegs.length ≤ legIndex then
    unsupportedOperation s!"leg index out of bounds: {legIndex}"
  else pure (plan.withGuidance (guidanceStateForActivatedLeg plan legIndex))

def activateLegAtDetailIndex (legIndex detailIndex : Nat) :
    AppResult FlightPlan :=
  let plan := plan.normalized
  match guidanceDetailRefByIndex plan detailIndex with
  | none => unsupportedOperation s!"guidance detail index out of bounds: {detailIndex}"
  | some detail =>
    let owner := detail.legIndex
    if owner ≠ legIndex then
      unsupportedOperation s!"guidance detail {detailIndex} belongs to leg {owner}, not {legIndex}"
    else pure (plan.withGuidance (guidanceStateForActivatedDetail plan legIndex (some detailIndex)))

def activateNextLeg : AppResult FlightPlan :=
  let plan := plan.normalized
  match plan.guidance with
  | none => unsupportedOperation "cannot activate next leg without guidance state"
  | some guidance =>
    if guidance.activeLegIndex + 1 < plan.resolvedLegs.length then
      pure (plan.withGuidance (guidanceStateForActivatedLeg plan (guidance.activeLegIndex + 1)))
    else unsupportedOperation "no next leg is available"

def stopNavigation : AppResult FlightPlan :=
  let plan := plan.normalized
  if plan.guidance.isNone then
    unsupportedOperation "cannot stop navigation without guidance state"
  else pure (plan.setGuidance none)

/-- Guidance that follows the plan on the element it is on. -/
def GuidanceState.resumed : GuidanceState :=
  { guidance with sequencingMode := .followPlan, directTo := none, suspendReason := none }

def GuidanceState.suspendedFor (reason : SuspendReason) : GuidanceState :=
  { guidance with sequencingMode := .suspended, directTo := none, suspendReason := some reason }

def suspendSequencing : AppResult FlightPlan :=
  let plan := plan.normalized
  match plan.guidance with
  | none => unsupportedOperation "cannot suspend sequencing without guidance state"
  | some guidance => pure (plan.withGuidance (guidance.suspendedFor .manual))

def unsuspendSequencing : AppResult FlightPlan :=
  let plan := plan.normalized
  match plan.guidance with
  | none => unsupportedOperation "cannot unsuspend sequencing without guidance state"
  | some guidance =>
    if guidance.sequencingMode ≠ .suspended then unsupportedOperation "sequencing is not suspended"
    else if guidanceIsInTerminalHold plan guidance then pure (plan.withGuidance guidance.resumed)
    else if guidance.suspendReason = some .boundary ∧
        shouldSuspendAfterActiveLeg plan guidance.activeLegIndex then activateNextLeg plan
    else pure (plan.withGuidance guidance.resumed)

def toggleSequencingSuspension : AppResult FlightPlan :=
  match plan.guidance with
  | none => unsupportedOperation "cannot toggle sequencing suspension without guidance state"
  | some guidance =>
    match guidance.sequencingMode with
    | .suspended => unsuspendSequencing plan
    | _ => suspendSequencing plan

/-- The element that guidance is on, at first that of the leg. -/
def GuidanceState.detailOrFirst : Nat :=
  (guidance.activeDetailIndex <|>
    firstGuidanceDetailIndexForLeg plan guidance.activeLegIndex).getD 0

def requireDetail (detailIndex : Nat) : AppResult GuidanceDetailRef :=
  match guidanceDetailRefByIndex plan detailIndex with
  | some detail => pure detail
  | none => invalidFlightPlan s!"guidance detail index out of bounds: {detailIndex}"

def guidanceAfterDirectTo :
    GuidanceState :=
  let resume := (directToResumeLegIndex plan directTo).filter fun index =>
    plan.resolvedLegs[index]?.any (·.fromRef == directTo.target)
  match resume with
  | some legIndex => guidanceStateForActivatedLeg plan legIndex
  | none =>
    let targetLegIndex := directToTargetLegIndex plan directTo
    { activeLegIndex := targetLegIndex.getD guidance.activeLegIndex
      activeDetailIndex := targetLegIndex.bind (firstGuidanceDetailIndexForLeg plan) <|>
        guidance.activeDetailIndex
      sequencingMode := .suspended
      directTo := none
      suspendReason := some .directToComplete }

def sequenceActiveLeg : AppResult FlightPlan := do
  let plan := plan.normalized
  match plan.guidance with
  | none => unsupportedOperation "cannot sequence a plan without guidance state"
  | some guidance =>
    match guidance.sequencingMode with
    | .directTo =>
      match guidance.directTo with
      | none => invalidFlightPlan "direct-to sequencing mode requires direct-to state"
      | some directTo => return plan.withGuidance (guidanceAfterDirectTo plan guidance directTo)
    | .followPlan =>
      if plan.resolvedLegs.isEmpty then
        invalidFlightPlan "cannot sequence an empty resolved route"
      else
        let activeDetail ← requireDetail plan (guidance.detailOrFirst plan)
        let stay (reason : SuspendReason) : GuidanceState :=
          { guidance with activeDetailIndex := some activeDetail.detailIndex }.suspendedFor reason
        if shouldSuspendAfterActiveLeg plan guidance.activeLegIndex then
          return plan.withGuidance (stay .boundary)
        else if guidance.activeLegIndex + 1 < plan.resolvedLegs.length then
          return plan.withGuidance (guidanceStateForActivatedLeg plan (guidance.activeLegIndex + 1))
        else return plan.withGuidance (stay .routeEnd)
    | .suspended => return plan.withGuidance guidance

def activeDetailIsTerminalHoldDetail (detail : GuidanceDetailRef) : Bool :=
  (terminalHoldStartDetailIndexForLeg plan detail.legIndex).any (· ≤ detail.detailIndex)

def sequenceAfterTerminalHold :
    AppResult FlightPlan :=
  match activateNextLeg plan with
  | .ok next => pure next
  | .error error =>
    if error.kind = .unsupportedOperation then
      pure (plan.withGuidance (guidance.suspendedFor .routeEnd))
    else throw error

def sequenceActiveDetail : AppResult FlightPlan := do
  let plan := plan.normalized
  match plan.guidance with
  | none => unsupportedOperation "cannot sequence a plan without guidance state"
  | some guidance =>
    if guidance.sequencingMode ≠ .followPlan then sequenceActiveLeg plan
    else
      let activeDetail ← requireDetail plan (guidance.detailOrFirst plan)
      let nextDetailIndex := activeDetail.detailIndex + 1
      let nextInLeg := (guidanceDetailRefByIndex plan nextDetailIndex).any
        (·.legIndex == guidance.activeLegIndex)
      if !nextInLeg then
        if activeDetailIsTerminalHoldDetail plan activeDetail then
          sequenceAfterTerminalHold plan guidance
        else sequenceActiveLeg plan
      else if terminalHoldStartDetailIndexForLeg plan guidance.activeLegIndex =
          some nextDetailIndex then
        return plan.withGuidance
          ({ guidance with activeDetailIndex := some nextDetailIndex }.suspendedFor .boundary)
      else
        return plan.withGuidance (guidanceStateForActivatedDetail plan guidance.activeLegIndex
          (some nextDetailIndex))

structure ActiveGuidanceAnchor where
  fromRowUid : Option String
  toRowUid : Option String
  guidance : GuidanceState
  activeDetailElementIndex : Option Nat
deriving Repr

def guidanceAnchorDisplayRows : List DisplayRow :=
  projectIdentityRows plan.normalized

def captureActiveGuidanceAnchor : Option ActiveGuidanceAnchor := do
  let guidance ← plan.guidance
  if guidance.sequencingMode = .directTo then none
  else
    let uids := activeGuidanceRowUids plan (guidanceAnchorDisplayRows plan)
    let detail := guidance.activeDetailIndex.bind (guidanceDetailRefByIndex plan)
    some {
      fromRowUid := uids.1
      toRowUid := uids.2
      guidance
      activeDetailElementIndex :=
        (detail.filter (·.legIndex == guidance.activeLegIndex)).map (·.elementIndex) }

/-- The check of the leg in `revalidate_guidance_after_plan_edit`. -/
def revalidateActiveDetail : GuidanceState :=
  let legIndex := min guidance.activeLegIndex (plan.resolvedLegs.length - 1)
  let first := ((plan.resolvedLegs.take legIndex).map (·.elementCount)).sum
  let count := (plan.resolvedLegs[legIndex]?.map (·.elementCount)).getD 0
  let stillValid := guidance.activeDetailIndex.any fun detailIndex : Nat =>
    first ≤ detailIndex && detailIndex < first + count
  { guidance with
    activeLegIndex := legIndex
    activeDetailIndex := if stillValid then guidance.activeDetailIndex else some first }

/-- The direct-to part of `revalidate_guidance_after_plan_edit`. -/
def revalidateDirectTo :
    AppResult GuidanceState := do
  let targetRow := directToTargetRow plan directTo
  let activeLegIndex := (targetRow.bind (·.legIndex)).getD guidance.activeLegIndex
  if targetRow.isNone ∧ directTo.targetRow.isPlanned then
    return { guidance with
      activeLegIndex
      directTo := some { directTo with
        targetRow := .temporary directTo.targetRow.rowId
        resumeRowId := none } }
  else
    let resumeRowId ← match targetRow with
      | none => pure none
      | some row => resumeRowIdAfterRow plan row directTo.target
    return { guidance with activeLegIndex, directTo := some { directTo with resumeRowId } }

def revalidateGuidanceAfterPlanEdit (guidance : Option GuidanceState) (plan : FlightPlan) :
    AppResult (Option GuidanceState) :=
  if plan.resolvedLegs.isEmpty then pure none
  else match guidance with
    | none => pure none
    | some guidance =>
      let guidance := revalidateActiveDetail plan guidance
      match guidance.directTo with
      | none => pure (some guidance)
      | some directTo => do return some (← revalidateDirectTo plan guidance directTo)

def activeDetailIndexForRestoredLeg (legIndex : Nat)
    (anchor : ActiveGuidanceAnchor) : Option Nat :=
  let elementIndex := anchor.activeDetailElementIndex.getD 0
  ((guidanceDetailRefs plan).find? fun detail =>
    detail.legIndex == legIndex && detail.elementIndex == elementIndex).map (·.detailIndex) <|>
    firstGuidanceDetailIndexForLeg plan legIndex

def candidateGuidance (anchor : ActiveGuidanceAnchor) (legIndex : Nat) :
    GuidanceState :=
  { anchor.guidance with
    activeLegIndex := legIndex
    directTo := none
    activeDetailIndex := activeDetailIndexForRestoredLeg plan legIndex anchor }

/-- The leg is flown between rows of the uids of the anchor. -/
def matchesAnchor (anchor : ActiveGuidanceAnchor) (legIndex : Nat) : Bool :=
  let candidate := plan.withGuidance (candidateGuidance plan anchor legIndex)
  activeGuidanceRowUids candidate (guidanceAnchorDisplayRows candidate) ==
    (anchor.fromRowUid, anchor.toRowUid)

def restoreGuidanceFromRowUidAnchor (anchor : ActiveGuidanceAnchor) :
    AppResult (Option GuidanceState) :=
  if anchor.toRowUid.isNone then pure none
  else match (List.range plan.resolvedLegs.length).find? (matchesAnchor plan anchor) with
    | none => pure none
    | some legIndex =>
      let guidance := candidateGuidance plan anchor legIndex
      revalidateGuidanceAfterPlanEdit (some guidance) (plan.withGuidance guidance)

end Aerobag.Planning
