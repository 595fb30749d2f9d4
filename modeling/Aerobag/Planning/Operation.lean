import Aerobag.Lib.Run
import Aerobag.Planning.Edit

/-!
# Plans as a transition system

The route edits and the guidance operations as labels. A step is a call that returns a plan; a call
that returns an error leaves the plan to its caller as it was.
-/

namespace Aerobag.Planning

inductive Edit where
  | deleteComponent (componentIndex : Nat)
  | removeAllAbove (componentIndex : Nat)
  | deleteWaypointComponent (componentIndex : Nat)
  | insertWaypoint (componentIndex : Nat) (before : Bool) (waypoint : NavRef)
  | insertAirportWaypoint (componentIndex : Nat) (before : Bool) (airportId : String)
  | moveComponent (componentIndex : Nat) (delta : Int)
  | insertAirwayBetweenWaypoints (startComponentIndex endComponentIndex : Nat)
      (airway : AirwaySegment NavRef) (airwayLegs : List ResolvedLeg)
  | insertAirwayAfterWaypoint (startComponentIndex : Nat) (airway : AirwaySegment NavRef)
      (airwayLegs : List ResolvedLeg)
  | replaceAirwayRouteSpan (start finish : Nat)
      (segments : List (AirwaySegment NavRef × List ResolvedLeg))
  | insertProcedureBetweenWaypoints (startComponentIndex endComponentIndex : Nat)
      (procedure : ProcedureSegment) (procedureLegs : List ResolvedLeg)
  | insertTerminalProcedureBeforeAirport (airportComponentIndex : Nat)
      (procedure : ProcedureSegment) (procedureLegs : List ResolvedLeg)
  | insertInitialProcedureBeforeAirport (airportComponentIndex : Nat)
      (procedure : ProcedureSegment) (procedureLegs : List ResolvedLeg)
  | insertDepartureAfterAirport (airportComponentIndex : Nat) (procedure : ProcedureSegment)
      (procedureLegs : List ResolvedLeg)
  | replaceProcedureComponent (componentIndex : Nat) (procedure : ProcedureSegment)
      (procedureLegs : List ResolvedLeg)
  | changeProcedureEnrouteTransition (componentIndex : Nat) (enrouteTransition : Option String)
      (procedureLegs : List ResolvedLeg)
  | changeProcedureRunwayTransition (componentIndex : Nat) (runwayTransition : Option String)
      (procedureLegs : List ResolvedLeg)
  | rebuildPlanWithNavMaterializations
      (replacements : List (Nat × RouteComponent × List ResolvedLeg))

def Edit.apply (G : Geodesy) (plan : FlightPlan) : Edit → AppResult FlightPlan
  | deleteComponent i => Planning.deleteComponent G plan i
  | removeAllAbove i => Planning.removeAllAbove G plan i
  | deleteWaypointComponent i => Planning.deleteWaypointComponent G plan i
  | insertWaypoint i before waypoint => Planning.insertWaypoint G plan i before waypoint
  | insertAirportWaypoint i before airportId =>
    Planning.insertAirportWaypoint G plan i before airportId
  | moveComponent i delta => Planning.moveComponent G plan i delta
  | insertAirwayBetweenWaypoints i j airway legs =>
    Planning.insertAirwayBetweenWaypoints G plan i j airway legs
  | insertAirwayAfterWaypoint i airway legs =>
    Planning.insertAirwayAfterWaypoint G plan i airway legs
  | replaceAirwayRouteSpan i j segments => Planning.replaceAirwayRouteSpan G plan i j segments
  | insertProcedureBetweenWaypoints i j procedure legs =>
    Planning.insertProcedureBetweenWaypoints G plan i j procedure legs
  | insertTerminalProcedureBeforeAirport i procedure legs =>
    Planning.insertTerminalProcedureBeforeAirport G plan i procedure legs
  | insertInitialProcedureBeforeAirport i procedure legs =>
    Planning.insertInitialProcedureBeforeAirport G plan i procedure legs
  | insertDepartureAfterAirport i procedure legs =>
    Planning.insertDepartureAfterAirport G plan i procedure legs
  | replaceProcedureComponent i procedure legs =>
    Planning.replaceProcedureComponent G plan i procedure legs
  | changeProcedureEnrouteTransition i transition legs =>
    Planning.changeProcedureEnrouteTransition G plan i transition legs
  | changeProcedureRunwayTransition i transition legs =>
    Planning.changeProcedureRunwayTransition G plan i transition legs
  | rebuildPlanWithNavMaterializations replacements =>
    Planning.rebuildPlanWithNavMaterializations G plan replacements

def editStep (G : Geodesy) (plan : FlightPlan) (edit : Edit) : Option FlightPlan :=
  (edit.apply G plan).toOption

/-- A guidance function, a route edit, or a definition restored from the history. -/
inductive Operation where
  | activateDirectTo (fromPosition : LatLon) (target : NavRef)
  | activateDirectToRow (fromPosition : LatLon) (targetRowId : String)
  | restoreDirectTo
  | activateLeg (legIndex : Nat)
  | activateLegAtDetailIndex (legIndex detailIndex : Nat)
  | activateNextLeg
  | suspendSequencing
  | unsuspendSequencing
  | toggleSequencingSuspension
  | sequenceActiveLeg
  | sequenceActiveDetail
  | stopNavigation
  | edit (change : Edit)
  | restore (historicalDefinition : FlightPlan)

def Operation.apply (G : Geodesy) (plan : FlightPlan) : Operation → AppResult FlightPlan
  | activateDirectTo fromPosition target => Planning.activateDirectTo plan fromPosition target
  | activateDirectToRow fromPosition rowId => Planning.activateDirectToRow plan fromPosition rowId
  | restoreDirectTo => Planning.restoreDirectTo plan
  | activateLeg i => Planning.activateLeg plan i
  | activateLegAtDetailIndex i detailIndex => Planning.activateLegAtDetailIndex plan i detailIndex
  | activateNextLeg => Planning.activateNextLeg plan
  | suspendSequencing => Planning.suspendSequencing plan
  | unsuspendSequencing => Planning.unsuspendSequencing plan
  | toggleSequencingSuspension => Planning.toggleSequencingSuspension plan
  | sequenceActiveLeg => Planning.sequenceActiveLeg plan
  | sequenceActiveDetail => Planning.sequenceActiveDetail plan
  | stopNavigation => Planning.stopNavigation plan
  | edit change => change.apply G plan
  | restore historicalDefinition => restoreFlightPlanDefinition plan historicalDefinition

/-- The operation may change the legs of the plan. -/
def Operation.changesRoute : Operation → Bool
  | edit _ => true
  | restore _ => true
  | _ => false

def step (G : Geodesy) (plan : FlightPlan) (operation : Operation) : Option FlightPlan :=
  (operation.apply G plan).toOption

/-- Geometry that finds nothing to complain about. -/
def flatGeodesy : Geodesy := ⟨fun _ _ => none⟩

def waypointPlan (waypoints : List NavRef) : FlightPlan :=
  { FlightPlan.empty with routeComponents := waypoints.map .waypoint }

def fixes : FlightPlan := waypointPlan [.fix "A", .fix "B", .fix "C"]

end Aerobag.Planning
