import Aerobag.Planning.Guidance

/-!
# Route edits

An edit lays out the new list of components, saying of each whether it is one of the plan with its
uid and legs or new; `rebuildPlanFromUidComponents` makes a checked plan of them and carries the
guidance over.
-/

namespace Aerobag.Planning

/-- A component of the new list, with its uid if it is an old one. -/
structure RebuiltRouteComponent where
  uid : Option String
  component : RouteComponent
  preservedLegs : Option (List ResolvedLeg)
deriving Repr

inductive GuidanceRebuildPolicy where
  | preserveByRowUid
  | clear
deriving DecidableEq, Repr

def rebuiltExistingComponents (plan : FlightPlan) : List RebuiltRouteComponent :=
  (plan.routeComponents.zip (groupedComponentLegs plan)).zipIdx.map
    fun ((component, preservedLegs), index) =>
      { uid := plan.routeComponentUids[index]?, component, preservedLegs }

def rebuiltNewComponent (component : RouteComponent) (preservedLegs : Option (List ResolvedLeg)) :
    RebuiltRouteComponent :=
  { uid := none, component, preservedLegs }

/-- `materialize_rebuilt_components`: the uids, and the counter after them. -/
def materializedUids (plan : FlightPlan) (rebuilt : List RebuiltRouteComponent) :
    List String × UInt64 :=
  Identities.assign validUid (fun _ => allocateRouteComponentUid) [] plan.routeComponentUidCounter
    (rebuilt.map (·.uid))

/-- `materialize_rebuilt_components`: the legs, at their new places. -/
def materializedLegs (rebuilt : List RebuiltRouteComponent) : List (Option (List ResolvedLeg)) :=
  rebuilt.zipIdx.map fun (component, index) =>
    component.preservedLegs.map (rewriteGroupedLegsSource · index)

def rebuiltLegs (rebuilt : List RebuiltRouteComponent) : List ResolvedLeg :=
  rebuildResolvedLegsWithGroupedComponents (rebuilt.map (·.component)) (materializedLegs rebuilt)

def rebuiltDefinition (oldPlan : FlightPlan) (rebuilt : List RebuiltRouteComponent) : FlightPlan :=
  { oldPlan with
    routeComponents := rebuilt.map (·.component)
    routeComponentUids := (materializedUids oldPlan rebuilt).1
    routeComponentUidCounter := (materializedUids oldPlan rebuilt).2
    resolvedLegs := rebuiltLegs rebuilt
    guidance := none }

def rebuiltRoute (oldPlan : FlightPlan) (rebuilt : List RebuiltRouteComponent) : FlightPlan :=
  (rebuiltDefinition oldPlan rebuilt).normalized

/-- The part of `rebuild_plan_from_uid_components` that makes the route. -/
def rebuildRoute (G : Geodesy) (oldPlan : FlightPlan) (rebuilt : List RebuiltRouteComponent) :
    AppResult FlightPlan := do
  validateRouteAttachments (rebuilt.map (·.component)) (materializedUids oldPlan rebuilt).1
  validateFinalProcedureGeometry G (rebuiltLegs rebuilt)
  validatePreservedGroupedLegOrder (materializedLegs rebuilt) (rebuiltLegs rebuilt)
  validateAirwayGeometry (rebuiltRoute oldPlan rebuilt)
  return rebuiltRoute oldPlan rebuilt

/-- The guidance of a plan, carried over to a route that has none. -/
def carryGuidance (oldPlan plan : FlightPlan) : AppResult (Option GuidanceState) :=
  match captureActiveGuidanceAnchor oldPlan with
  | some anchor => restoreGuidanceFromRowUidAnchor plan anchor
  | none => revalidateGuidanceAfterPlanEdit oldPlan.guidance plan

def rebuiltGuidance (oldPlan plan : FlightPlan) :
    GuidanceRebuildPolicy → AppResult (Option GuidanceState)
  | .preserveByRowUid => carryGuidance oldPlan plan
  | .clear => pure none

def rebuildPlanFromUidComponents (G : Geodesy) (oldPlan : FlightPlan)
    (rebuilt : List RebuiltRouteComponent) (policy : GuidanceRebuildPolicy) :
    AppResult FlightPlan := do
  let oldPlan := oldPlan.normalized
  let plan ← rebuildRoute G oldPlan rebuilt
  return plan.setGuidance (← rebuiltGuidance oldPlan plan policy)

/-- Undo and redo: another definition, with the guidance of the current plan. -/
def restoreFlightPlanDefinition (currentPlan historicalDefinition : FlightPlan) :
    AppResult FlightPlan := do
  let restored := historicalDefinition.normalized.setGuidance none
  return restored.setGuidance (← carryGuidance currentPlan.normalized restored)

def requireFlyableLeg (change : String) (plan : FlightPlan) : AppResult FlightPlan :=
  if plan.resolvedLegs.isEmpty then
    invalidFlightPlan ("flight plan must contain at least one flyable leg after " ++ change)
  else pure plan

section Edits

variable (G : Geodesy)

def outOfBounds {α : Type} (componentIndex : Nat) : AppResult α :=
  unsupportedOperation s!"component index out of bounds: {componentIndex}"

variable (plan : FlightPlan) (componentIndex : Nat) (airportComponentIndex : Nat)
  (procedure : ProcedureSegment) (procedureLegs : List ResolvedLeg)

def componentWithAttachedProceduresRange : Nat × Nat :=
  let attached := attachedProcedureIndex plan.routeComponents componentIndex
  ((attached .star <|> attached .approach).getD componentIndex,
    (attached .sid).getD componentIndex)

def deleteComponent : AppResult FlightPlan :=
  let plan := plan.normalized
  if plan.routeComponents.length ≤ componentIndex then outOfBounds componentIndex
  else
    let (first, last) := componentWithAttachedProceduresRange plan componentIndex
    let existing := rebuiltExistingComponents plan
    rebuildPlanFromUidComponents G plan (existing.take first ++ existing.drop (last + 1))
      .preserveByRowUid

def removeAllAbove : AppResult FlightPlan :=
  let plan := plan.normalized
  if plan.routeComponents.length ≤ componentIndex then outOfBounds componentIndex
  else rebuildPlanFromUidComponents G plan
    ((rebuiltExistingComponents plan).drop (componentIndex + 1)) .preserveByRowUid

def deleteWaypointComponent : AppResult FlightPlan :=
  match plan.routeComponents[componentIndex]? with
  | some (.waypoint _) => deleteComponent G plan componentIndex
  | some _ => unsupportedOperation ("cannot delete inside a grouped route component directly; " ++
      "flatten or remove the whole component")
  | none => outOfBounds componentIndex

def insertWaypoint (before : Bool) (waypoint : NavRef) :
    AppResult FlightPlan :=
  let plan := plan.normalized
  if plan.routeComponents.length ≤ componentIndex then outOfBounds componentIndex
  else
    let place := if before then componentIndex else componentIndex + 1
    let existing := rebuiltExistingComponents plan
    rebuildPlanFromUidComponents G plan
      (existing.take place ++ rebuiltNewComponent (.waypoint waypoint) none :: existing.drop place)
      .preserveByRowUid

def insertAirportWaypoint (before : Bool)
    (airportId : String) : AppResult FlightPlan :=
  let airportId := Text.toAsciiUppercase (Text.trim airportId)
  if airportId = "" then invalidFlightPlan "airport id is required"
  else insertWaypoint G plan componentIndex before (.airport airportId)

def moveComponent (delta : Int) : AppResult FlightPlan :=
  let plan := plan.normalized
  let target := componentIndex + delta
  if delta = 0 then pure plan
  else if plan.routeComponents.length ≤ componentIndex then outOfBounds componentIndex
  else if target < 0 ∨ plan.routeComponents.length ≤ target then
    unsupportedOperation s!"component move out of bounds: {componentIndex} -> {target}"
  else
    let existing := rebuiltExistingComponents plan
    let others := existing.eraseIdx componentIndex
    rebuildPlanFromUidComponents G plan
      (others.take target.toNat ++ (existing.drop componentIndex).take 1 ++
        others.drop target.toNat)
      .preserveByRowUid

/-- A new waypoint at an end of an airway, to which it is bound. -/
def newAirwayEndpoint (counter : UInt64) (waypoint : NavRef) : RebuiltRouteComponent where
  uid := some (routeComponentUid counter)
  component := .waypoint waypoint
  preservedLegs := none

/-- The new waypoint at an end of an airway, if there is none that serves. -/
def newAirwayEndpoints (present : Bool) (counter : UInt64) (waypoint : NavRef) :
    List RebuiltRouteComponent :=
  if present then [] else [newAirwayEndpoint counter waypoint]

def rebuiltAirway (airway : AirwaySegment NavRef) (legs : List ResolvedLeg) (entry exit : String) :
    RebuiltRouteComponent :=
  rebuiltNewComponent
    (.airway { name := airway.name, branchKey := airway.branchKey, entry, exit }) (some legs)

/-- Whether the waypoint at the end of the span is the exit of the airway. -/
def airwayEndMatches (components : List RouteComponent) (start : Nat) (finish : Option Nat)
    (exit : NavRef) : AppResult Bool :=
  match finish with
  | some finish =>
    if finish ≤ start then
      unsupportedOperation "Airway insertion requires an increasing waypoint span."
    else match components[finish]? with
      | some (.waypoint waypoint) =>
        if ((components.take finish).drop (start + 1)).any (!·.isWaypoint) then
          unsupportedOperation "Remove the grouped segment before inserting an airway across it."
        else pure (waypoint == exit)
      | _ => unsupportedOperation "Airway insertion requires a top-level exit waypoint."
  | none =>
    if start + 1 ≠ components.length then
      unsupportedOperation "Airway tail insertion requires the final waypoint."
    else pure false

/-- The airway with new waypoints at its ends where `startUid` and `endUid` do not serve, and the
counter. -/
def airwaySpan (counter : UInt64) (startMatches endMatches : Bool) (startUid endUid : String)
    (airway : AirwaySegment NavRef) (airwayLegs : List ResolvedLeg) :
    List RebuiltRouteComponent × UInt64 :=
  let newEntry := newAirwayEndpoints startMatches counter airway.entry
  let entry := if startMatches then startUid else routeComponentUid counter
  let counter := counter + UInt64.ofNat newEntry.length
  let newExit := newAirwayEndpoints endMatches counter airway.exit
  let exit := if endMatches then endUid else routeComponentUid counter
  (newEntry ++ [rebuiltAirway airway airwayLegs entry exit] ++ newExit,
    counter + UInt64.ofNat newExit.length)

def insertAirwaySpan (start : Nat) (finish : Option Nat)
    (airway : AirwaySegment NavRef) (airwayLegs : List ResolvedLeg) : AppResult FlightPlan := do
  let plan ← buildFlightPlan G plan
  match plan.routeComponents[start]? with
  | some (.waypoint startWaypoint) =>
    let endMatches ← airwayEndMatches plan.routeComponents start finish airway.exit
    let existing := rebuiltExistingComponents plan
    let (span, counter) := airwaySpan plan.routeComponentUidCounter (startWaypoint == airway.entry)
      endMatches (plan.routeComponentUids.getD start "")
      (plan.routeComponentUids.getD (finish.getD 0) "") airway airwayLegs
    -- without an end of the span nothing follows
    rebuildPlanFromUidComponents G { plan with routeComponentUidCounter := counter }
      (existing.take (start + 1) ++ span ++ existing.drop (finish.getD existing.length))
      .preserveByRowUid
  | _ => unsupportedOperation "Airway insertion requires a top-level entry waypoint."

def insertAirwayBetweenWaypoints (startComponentIndex endComponentIndex : Nat)
    (airway : AirwaySegment NavRef) (airwayLegs : List ResolvedLeg) : AppResult FlightPlan :=
  insertAirwaySpan G plan startComponentIndex (some endComponentIndex) airway airwayLegs

def insertAirwayAfterWaypoint (startComponentIndex : Nat)
    (airway : AirwaySegment NavRef) (airwayLegs : List ResolvedLeg) : AppResult FlightPlan :=
  insertAirwaySpan G plan startComponentIndex none airway airwayLegs

def spanError {α : Type} : AppResult α :=
  unsupportedOperation "Choose standalone waypoints around a route without procedures."

def RouteComponent.isAt (navRef : NavRef) : RouteComponent → Bool
  | .waypoint position => position == navRef
  | _ => false

/-- The loop of `replace_airway_route_span`, after `last` and up to `finish`. -/
def airwayRouteSpan (finish : RebuiltRouteComponent) (last : RebuiltRouteComponent)
    (counter : UInt64) (interior : Bool) :
    List (AirwaySegment NavRef × List ResolvedLeg) → AppResult (List RebuiltRouteComponent × UInt64)
  | [] => pure ([], counter)
  | (airway, legs) :: segments => do
    let startMatches := last.component.isAt airway.entry
    if interior && !startMatches then
      invalidFlightPlan "Airway routing cannot insert an interior direct leg."
    let endMatches := segments.isEmpty && finish.component.isAt airway.exit
    let (span, counter) := airwaySpan counter startMatches endMatches (last.uid.getD "")
      (finish.uid.getD "") airway legs
    let span := if endMatches then span ++ [finish] else span
    let (rest, counter) ← airwayRouteSpan finish (span.getLast?.getD finish) counter true segments
    return (span ++ rest, counter)

def replaceAirwayRouteSpan (start finish : Nat)
    (segments : List (AirwaySegment NavRef × List ResolvedLeg)) : AppResult FlightPlan := do
  let plan ← buildFlightPlan G plan
  let existing := rebuiltExistingComponents plan
  match existing[start]?, existing[finish]? with
  | some startComponent, some endComponent =>
    let hasOverlay := (plan.guidance.bind (·.activeDirectTo)).any (!·.targetRow.isPlanned)
    if finish ≤ start ∨ segments.isEmpty ∨ hasOverlay ∨ !startComponent.component.isWaypoint ∨
        !endComponent.component.isWaypoint ∨
        ((plan.routeComponents.take finish).drop (start + 1)).any (·.isProcedure) then spanError
    else
      let (span, counter) ← airwayRouteSpan endComponent startComponent
        plan.routeComponentUidCounter false segments
      let endAlreadyPresent := (span.getLast?.bind (·.uid)) == plan.routeComponentUids[finish]?
      rebuildPlanFromUidComponents G { plan with routeComponentUidCounter := counter }
        (existing.take (start + 1) ++ span ++
          existing.drop (if endAlreadyPresent then finish + 1 else finish))
        .preserveByRowUid
  | _, _ => spanError

def validateProcedureLoadAttachment (airportIndex : Option Nat)
    (kind : ProcedureKind) : AppResult Unit :=
  let attached := airportIndex.bind (attachedProcedureIndex plan.routeComponents · kind)
  let loaded := plan.routeComponents.zipIdx.findSome? fun (component, index) =>
    match component with
    | .procedure procedure =>
      if procedure.kind = kind ∧ some index ≠ attached then some procedure else none
    | _ => none
  match loaded with
  | some procedure => invalidFlightPlan ("The plan already has a loaded " ++ procedureKindNoun kind ++
      " at " ++ procedure.airportId ++ ". Remove it before loading one at another airport.")
  | none => pure ()

def procedureComponentIndexForLoad
    (kind : ProcedureKind) : AppResult Nat :=
  match plan.routeComponents[airportComponentIndex]? with
  | some (.waypoint (.airport _)) =>
    match attachedProcedureIndex plan.routeComponents airportComponentIndex kind with
    | some index => pure index
    | none => do
      validateProcedureLoadAttachment plan (some airportComponentIndex) kind
      match kind with
      | .sid => return airportComponentIndex + 1
      | .approach => return airportComponentIndex
      | .star => return airportComponentIndex -
          if (attachedProcedureIndex plan.routeComponents airportComponentIndex .approach).isSome
          then 1 else 0
  | _ => unsupportedOperation "procedure load target must be an airport waypoint"

def requireWaypoint (message : String) :
    AppResult NavRef :=
  match plan.routeComponents[componentIndex]? with
  | some (.waypoint waypoint) => pure waypoint
  | some _ => unsupportedOperation message
  | none => outOfBounds componentIndex

def insertProcedureBetweenWaypoints (startComponentIndex endComponentIndex : Nat)
    (procedure : ProcedureSegment) (procedureLegs : List ResolvedLeg) : AppResult FlightPlan := do
  if endComponentIndex ≤ startComponentIndex then
    unsupportedOperation (s!"procedure insertion requires an increasing waypoint span, got " ++
      s!"start={startComponentIndex} end={endComponentIndex}")
  let plan := plan.normalized
  let _ ← requireWaypoint plan startComponentIndex
    "procedure insertion start must be a waypoint component"
  let _ ← requireWaypoint plan endComponentIndex
    "procedure insertion end must be a waypoint component"
  let between := (plan.routeComponents.take endComponentIndex).drop (startComponentIndex + 1)
  if between.any (!·.isWaypoint) then
    unsupportedOperation ("procedure insertion cannot replace a span containing grouped " ++
      "components; flatten or remove them first")
  let existing := rebuiltExistingComponents plan
  let rebuilt ← rebuildPlanFromUidComponents G plan
    (existing.take (startComponentIndex + 1) ++
      rebuiltNewComponent (.procedure procedure) (some procedureLegs) ::
        existing.drop endComponentIndex)
    .preserveByRowUid
  requireFlyableLeg "procedure insertion" rebuilt

def rebuildWithProcedure (place : Nat) (procedure : ProcedureSegment)
    (procedureLegs : List ResolvedLeg) : AppResult FlightPlan :=
  let existing := rebuiltExistingComponents plan
  rebuildPlanFromUidComponents G plan
    (existing.take place ++ rebuiltNewComponent (.procedure procedure) (some procedureLegs) ::
      existing.drop place)
    .preserveByRowUid

def insertTerminalProcedureBeforeAirport : AppResult FlightPlan := do
  let attachmentMessage := if procedure.kind = .star then arrivalAttachmentMessage
    else approachAttachmentMessage
  if procedure.kind = .sid then
    invalidFlightPlan "terminal procedure insertion requires a STAR or approach"
  if procedureLegs.isEmpty then
    invalidFlightPlan "terminal procedure must contain at least one resolved leg"
  let plan := plan.normalized
  match plan.routeComponents[airportComponentIndex]? with
  | some (.waypoint (.airport airportId)) =>
    if Text.trim airportId ≠ Text.trim procedure.airportId then invalidFlightPlan attachmentMessage
    if (attachedProcedureIndex plan.routeComponents airportComponentIndex procedure.kind).isSome then
      unsupportedOperation ("replace the existing " ++ procedureKindNoun procedure.kind ++
        " instead of inserting another")
    let insertionIndex ← procedureComponentIndexForLoad plan airportComponentIndex procedure.kind
    let rebuilt ← rebuildWithProcedure G plan insertionIndex procedure procedureLegs
    requireFlyableLeg "terminal procedure insertion" rebuilt
  | some _ => unsupportedOperation "terminal procedure target must be an airport waypoint"
  | none => outOfBounds airportComponentIndex

def insertInitialProcedureBeforeAirport : AppResult FlightPlan :=
  if airportComponentIndex ≠ 0 then
    unsupportedOperation
      s!"initial procedure insertion requires the first component, got {airportComponentIndex}"
  else insertTerminalProcedureBeforeAirport G plan airportComponentIndex procedure procedureLegs

def NavRef.isAirport (airportId : String) : NavRef → Bool
  | .airport code => Text.trim code == Text.trim airportId
  | _ => false

def insertDepartureAfterAirport : AppResult FlightPlan := do
  if procedure.kind ≠ .sid then
    invalidFlightPlan "departure insertion requires a SID procedure"
  if procedureLegs.isEmpty then
    invalidFlightPlan "departure procedure must contain at least one resolved leg"
  let plan := plan.normalized
  match plan.routeComponents[airportComponentIndex]? with
  | some (.waypoint waypoint) =>
    if !waypoint.isAirport procedure.airportId then
      invalidFlightPlan "departure airport does not match the selected airport"
    if plan.routeComponents[airportComponentIndex + 1]?.any (RouteComponent.isProcedureOf .sid) then
      unsupportedOperation "replace the existing departure instead of inserting another"
    let _ ← procedureComponentIndexForLoad plan airportComponentIndex .sid
    let rebuilt ← rebuildWithProcedure G plan (airportComponentIndex + 1) procedure procedureLegs
    requireFlyableLeg "departure insertion" rebuilt
  | some _ => unsupportedOperation "departure insertion target must be an airport waypoint"
  | none => unsupportedOperation "departure insertion requires an airport waypoint"

/-- The component with new contents and legs under the uid it has. -/
def RebuiltRouteComponent.replaced (old : RebuiltRouteComponent) (component : RouteComponent)
    (legs : List ResolvedLeg) : RebuiltRouteComponent :=
  { old with component, preservedLegs := some legs }

def requireProcedure : AppResult ProcedureSegment :=
  match plan.routeComponents[componentIndex]? with
  | some (.procedure procedure) => pure procedure
  | some _ => unsupportedOperation "target component is not a procedure"
  | none => outOfBounds componentIndex

def replaceProcedureComponent : AppResult FlightPlan := do
  let plan := plan.normalized
  let _ ← requireProcedure plan componentIndex
  if procedureLegs.isEmpty then
    invalidFlightPlan "replacement procedure must contain at least one resolved leg"
  let rebuilt ← rebuildPlanFromUidComponents G plan
    ((rebuiltExistingComponents plan).modify componentIndex
      (·.replaced (.procedure procedure) procedureLegs))
    .clear
  requireFlyableLeg "procedure replacement" rebuilt

def changeProcedureEnrouteTransition
    (enrouteTransition : Option String) (procedureLegs : List ResolvedLeg) :
    AppResult FlightPlan := do
  let procedure ← requireProcedure plan.normalized componentIndex
  replaceProcedureComponent G plan componentIndex { procedure with enrouteTransition } procedureLegs

def changeProcedureRunwayTransition
    (runwayTransition : Option String) (procedureLegs : List ResolvedLeg) :
    AppResult FlightPlan := do
  let procedure ← requireProcedure plan.normalized componentIndex
  replaceProcedureComponent G plan componentIndex { procedure with runwayTransition } procedureLegs

/-- The components, with new contents for those that have a replacement. -/
def replacedComponents (existing : List RebuiltRouteComponent)
    (replacement : Nat → Option (RouteComponent × List ResolvedLeg)) : List RebuiltRouteComponent :=
  existing.zipIdx.map fun (old, index) =>
    match replacement index with
    | some (component, legs) => old.replaced component legs
    | none => old

def rebuildPlanWithNavMaterializations
    (replacements : List (Nat × RouteComponent × List ResolvedLeg)) : AppResult FlightPlan :=
  let plan := plan.normalized
  -- of several replacements of one component the last counts
  rebuildPlanFromUidComponents G plan
    (replacedComponents (rebuiltExistingComponents plan) (replacements.reverse.lookup ·))
    .preserveByRowUid

end Edits

end Aerobag.Planning
