import Aerobag.Lib.Except
import Aerobag.Lib.Identities
import Aerobag.Lib.Text
import Aerobag.Planning.Plan

/-!
# Components and legs

The part of `planning.rs` that makes a plan consistent: uids, resolved legs, and the checks of
attachments and geometry. `Geodesy` says what the geometry check finds out about two display paths.
-/

namespace Aerobag.Planning

/-- What floating-point geometry says about the paths of two legs. -/
structure Geodesy where
  /-- The printed turn in degrees, if the paths meet and turn by at least 150. -/
  hairpin : LegDisplayPath → LegDisplayPath → Option String

def routeComponentUid (counter : UInt64) : String := "fpc:" ++ Text.hex 16 counter.toNat

def allocateRouteComponentUid (counter : UInt64) : String × UInt64 :=
  (routeComponentUid counter, counter + 1)

def validUid (uid : String) : Bool := uid != ""

/-- The inner loop of `normalize_route_component_uids`. -/
def unusedRouteComponentUid (seen : List String) (counter : UInt64) : String × UInt64 :=
  Identities.firstFree routeComponentUid (· + 1) seen.length seen counter

def normalizeRouteComponentUids (plan : FlightPlan) : FlightPlan :=
  let existing := (List.range plan.routeComponents.length).map (plan.routeComponentUids[·]?)
  let assigned := Identities.assign validUid unusedRouteComponentUid []
    plan.routeComponentUidCounter existing
  { plan with routeComponentUids := assigned.1, routeComponentUidCounter := assigned.2 }

def waypointLegs (index : Nat) : List RouteComponent → List ResolvedLeg
  | .waypoint left :: .waypoint right :: rest =>
    { id := s!"component-{index}-{index + 1}"
      fromRef := left
      toRef := right
      source := .routeComponent index
      procedureProvenance := none } :: waypointLegs (index + 1) (.waypoint right :: rest)
  | _ :: rest => waypointLegs (index + 1) rest
  | [] => []

variable (components : List RouteComponent)

def resolvedLegsFromWaypointComponents : List ResolvedLeg :=
  waypointLegs 0 components

def FlightPlan.normalized (plan : FlightPlan) : FlightPlan :=
  let plan := normalizeRouteComponentUids plan
  { plan with
    aircraft := some (plan.aircraft.getD defaultAircraftSelection)
    resolvedLegs := if plan.resolvedLegs.isEmpty
      then resolvedLegsFromWaypointComponents plan.routeComponents
      else plan.resolvedLegs }

def ResolvedLeg.ofComponent (componentIndex : Nat) (leg : ResolvedLeg) : Bool :=
  leg.source == .routeComponent componentIndex

/-- The legs of each airway and procedure that has some, by component. -/
def groupedComponentLegs (plan : FlightPlan) : List (Option (List ResolvedLeg)) :=
  plan.routeComponents.zipIdx.map fun (component, index) =>
    if component.isWaypoint then none
    else match plan.resolvedLegs.filter (·.ofComponent index) with
      | [] => none
      | legs => some legs

def rewriteGroupedLegsSource (legs : List ResolvedLeg) (componentIndex : Nat) : List ResolvedLeg :=
  legs.map fun leg => { leg with source := .routeComponent componentIndex }

/-- `push_synthetic_bridge_if_needed`: what it pushes. -/
def syntheticBridgeIfNeeded (syntheticLegIndex : Nat) (previousWaypoint : Option (Nat × NavRef))
    (toComponentIndex : Nat) (target : NavRef) : List ResolvedLeg :=
  match previousWaypoint with
  | none => []
  | some (fromComponentIndex, start) =>
    if start == target then []
    else [{
      id := s!"component-{syntheticLegIndex}-{syntheticLegIndex + 1}"
      fromRef := start
      toRef := target
      source := .syntheticBridge fromComponentIndex toComponentIndex
      procedureProvenance := none }]

def RouteComponent.hasTerminalDiscontinuity : RouteComponent → Bool
  | .procedure segment => segment.terminalDiscontinuity.isSome
  | _ => false

/-- A departure from where the route is needs no bridge. -/
def sidStartsAtMatchingOrigin (component : RouteComponent)
    (previousWaypoint : Option (Nat × NavRef)) : Bool :=
  match component, previousWaypoint with
  | .procedure procedure, some (_, .airport origin) =>
    procedure.kind == .sid && procedure.airportId == origin
  | _, _ => false

/-- The loop of `rebuild_resolved_legs_with_grouped_components`. -/
def rebuildResolvedLegs (syntheticLegIndex : Nat) (previousWaypoint : Option (Nat × NavRef))
    (componentIndex : Nat) : List (RouteComponent × Option (List ResolvedLeg)) → List ResolvedLeg
  | [] => []
  | (component, grouped) :: rest =>
    match grouped with
    | some (first :: more) =>
      let bridge := if sidStartsAtMatchingOrigin component previousWaypoint then []
        else syntheticBridgeIfNeeded syntheticLegIndex previousWaypoint componentIndex first.fromRef
      let previous := if component.hasTerminalDiscontinuity then none
        else some (componentIndex, ((first :: more).getLast (by simp)).toRef)
      bridge ++ (first :: more) ++
        rebuildResolvedLegs (syntheticLegIndex + bridge.length) previous (componentIndex + 1) rest
    | _ =>
      match component with
      | .waypoint waypoint =>
        -- of equal waypoints in a row the last one is the end of the leg
        let repeated := match rest.head? with
          | some (.waypoint next, _) => next == waypoint
          | _ => false
        if repeated then
          rebuildResolvedLegs syntheticLegIndex previousWaypoint (componentIndex + 1) rest
        else
          let bridge :=
            syntheticBridgeIfNeeded syntheticLegIndex previousWaypoint componentIndex waypoint
          bridge ++ rebuildResolvedLegs (syntheticLegIndex + bridge.length)
            (some (componentIndex, waypoint)) (componentIndex + 1) rest
      | .airway _ =>
        rebuildResolvedLegs syntheticLegIndex previousWaypoint (componentIndex + 1) rest
      | .procedure procedure =>
        rebuildResolvedLegs syntheticLegIndex
          (if procedure.terminalDiscontinuity.isSome then none else previousWaypoint)
          (componentIndex + 1) rest

def rebuildResolvedLegsWithGroupedComponents
    (grouped : List (Option (List ResolvedLeg))) : List ResolvedLeg :=
  rebuildResolvedLegs 0 none 0 (components.zip grouped)

/-- A character in the `Debug` text of a string. Those beyond ASCII, for which Rust has a table of
the printable ones, stand as they are. -/
def escapeDebug (c : Char) : String :=
  if c = '\x00' then "\\0"
  else if c = '\t' then "\\t"
  else if c = '\r' then "\\r"
  else if c = '\n' then "\\n"
  else if c = '"' ∨ c = '\\' then "\\" ++ c.toString
  else if c.toNat < 0x20 ∨ c.toNat = 0x7f then
    "\\u\x7b" ++ String.ofList (Nat.toDigits 16 c.toNat) ++ "\x7d"
  else c.toString

def debugStrings (texts : List String) : String :=
  let quoted (text : String) : String := "\"" ++ String.join (text.toList.map escapeDebug) ++ "\""
  "[" ++ ", ".intercalate (texts.map quoted) ++ "]"

def validatePreservedGroupedLegOrder (grouped : List (Option (List ResolvedLeg)))
    (resolvedLegs : List ResolvedLeg) : AppResult Unit :=
  grouped.zipIdx.forM fun (legs, index) =>
    match legs with
    | none => pure ()
    | some legs =>
      let actual := (resolvedLegs.filter (·.ofComponent index)).map (·.id)
      let expected := legs.map (·.id)
      if actual = expected then pure ()
      else invalidFlightPlan (s!"route rebuild did not preserve grouped legs for component {index}" ++
        ": expected " ++ debugStrings expected ++ ", got " ++ debugStrings actual)

def checkedSub (n k : Nat) : Option Nat := if k ≤ n then some (n - k) else none

def procedureKindNoun : ProcedureKind → String
  | .sid => "departure"
  | .star => "arrival"
  | .approach => "approach"

def departureAttachmentMessage : String :=
  "Keep the departure immediately after its airport, or remove the departure first."

def arrivalAttachmentMessage : String :=
  "Keep the arrival immediately before its airport or approach, or remove the arrival first."

def approachAttachmentMessage : String :=
  "Keep the approach immediately before its airport, or remove the approach first."

def RouteComponent.isProcedureOf (kind : ProcedureKind) : RouteComponent → Bool
  | .procedure segment => segment.kind == kind
  | _ => false

/-- Where a procedure of that kind has to be for the airport at that index. -/
def attachedProcedurePlace (airportComponentIndex : Nat) :
    ProcedureKind → Option Nat
  | .sid => some (airportComponentIndex + 1)
  | .approach => checkedSub airportComponentIndex 1
  | .star =>
    (checkedSub airportComponentIndex 1).bind fun previous =>
      if components[previous]?.any (RouteComponent.isProcedureOf .approach)
      then checkedSub previous 1 else some previous

def attachedProcedureIndex (airportComponentIndex : Nat)
    (kind : ProcedureKind) : Option Nat :=
  match components[airportComponentIndex]? with
  | some (.waypoint (.airport airportId)) =>
    (attachedProcedurePlace components airportComponentIndex kind).filter fun index =>
      match components[index]? with
      | some (.procedure procedure) =>
        procedure.kind == kind && Text.trim procedure.airportId == Text.trim airportId
      | _ => false
  | _ => none

/-- The first pass of `validate_procedure_attachments`. -/
def validateSingleProcedures (seen : List ProcedureKind) : List RouteComponent → AppResult Unit
  | [] => pure ()
  | .procedure procedure :: rest =>
    if procedure.kind ∈ seen then
      let noun := procedureKindNoun procedure.kind
      invalidFlightPlan s!"Only one {noun} may be loaded in a flight plan."
    else validateSingleProcedures (procedure.kind :: seen) rest
  | _ :: rest => validateSingleProcedures seen rest

def validateProcedureAttachments : AppResult Unit := do
  validateSingleProcedures [] components
  let kinds := [(ProcedureKind.sid, departureAttachmentMessage),
    (.approach, approachAttachmentMessage), (.star, arrivalAttachmentMessage)]
  kinds.forM fun (kind, message) =>
    match components.findIdx? (·.isProcedureOf kind) with
    | none => pure ()
    | some index =>
      let airportIndex := match kind with
        | .sid => checkedSub index 1
        | .approach => some (index + 1)
        | .star => some (index +
          if components[index + 1]?.any (RouteComponent.isProcedureOf .approach) then 2 else 1)
      if airportIndex.bind (attachedProcedureIndex components · kind) = some index then pure ()
      else invalidFlightPlan message

def boundWaypoint (uids : List String) (index : Option Nat)
    (uid : String) : Option NavRef := do
  let index ← index
  match components[index]? with
  | some (.waypoint waypoint) => if uids[index]? = some uid then some waypoint else none
  | _ => none

def boundAirwayEndpoints (uids : List String) (index : Nat)
    (airway : AirwaySegment String) : AppResult (NavRef × NavRef) :=
  match boundWaypoint components uids (checkedSub index 1) airway.entry,
    boundWaypoint components uids (some (index + 1)) airway.exit with
  | some entry, some exit => pure (entry, exit)
  | _, _ => invalidFlightPlan (airway.name ++ " is attached to its entry and exit waypoints. " ++
      "Remove the airway before separating or deleting its endpoints.")

def validateRouteAttachments (uids : List String) :
    AppResult Unit := do
  validateProcedureAttachments components
  components.zipIdx.forM fun (component, index) =>
    match component with
    | .airway airway => do
      let _ ← boundAirwayEndpoints components uids index airway
    | _ => pure ()

/-- Each leg starts at the reference where the one before it ends. -/
def contiguous : List ResolvedLeg → Bool
  | left :: right :: rest => left.toRef == right.fromRef && contiguous (right :: rest)
  | _ => true

def validateAirwayGeometry (plan : FlightPlan) : AppResult Unit :=
  plan.routeComponents.zipIdx.forM fun (component, index) =>
    match component with
    | .airway airway => do
      let (entry, exit) ←
        boundAirwayEndpoints plan.routeComponents plan.routeComponentUids index airway
      let legs := ((groupedComponentLegs plan)[index]?.join).getD []
      let valid := legs.head?.any (·.fromRef == entry) && legs.getLast?.any (·.toRef == exit) &&
        contiguous legs &&
        legs.all (fun leg => leg.procedureProvenance.isNone && leg.fromRef != leg.toRef)
      if valid then pure ()
      else invalidFlightPlan (airway.name ++ " must contain a continuous materialized route " ++
        "between its endpoint waypoints.")
    | _ => pure ()

/-- The turn from one leg to the next, if it is one that the plan may not have. -/
def Geodesy.instantaneousHairpin (G : Geodesy) (incoming outgoing : ResolvedLeg) : Option String :=
  match incoming.source, outgoing.source, incoming.procedureProvenance,
    outgoing.procedureProvenance with
  | .routeComponent i, .routeComponent j, some before, some after =>
    if i ≠ j ∨ before.airportId ≠ after.airportId ∨ before.procedureId ≠ after.procedureId ∨
        before.kind ≠ after.kind ∨ before.discontinuityAfter.isSome then none
    else do G.hairpin (← before.displayPath) (← after.displayPath)
  | _, _, _, _ => none

def validateFinalProcedureGeometry (G : Geodesy) : List ResolvedLeg → AppResult Unit
  | incoming :: outgoing :: rest =>
    match G.instantaneousHairpin incoming outgoing with
    | some turn => invalidFlightPlan ("procedure geometry has a " ++ turn ++
        "-degree instantaneous hairpin between legs " ++ incoming.id ++ " and " ++ outgoing.id)
    | none => validateFinalProcedureGeometry G (outgoing :: rest)
  | _ => pure ()

/-- `build_flight_plan` of `lib.rs`. -/
def buildFlightPlan (G : Geodesy) (plan : FlightPlan) : AppResult FlightPlan := do
  let plan := plan.normalized
  validateRouteAttachments plan.routeComponents plan.routeComponentUids
  validateAirwayGeometry plan
  if plan.resolvedLegs.isEmpty ∧ plan.routeComponents.length > 1 then
    invalidFlightPlan "flight plan must contain at least one flyable leg"
  validateFinalProcedureGeometry G plan.resolvedLegs
  return plan

end Aerobag.Planning
