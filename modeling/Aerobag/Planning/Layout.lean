import Aerobag.Planning.Operation

/-!
# What an edit does to the list of components

`Edit.origins` says which components are kept, replaced and inserted. `Stable`: a kept component
keeps its uid, a new one gets its own.
-/

namespace Aerobag.Planning

/-- Where a component of the new list comes from. -/
inductive Origin where
  | kept (index : Nat)
  /-- It has other contents than the component at this place, but stands for it. -/
  | replaced (index : Nat)
  | inserted
deriving DecidableEq, Repr

def Origin.index? : Origin → Option Nat
  | kept index => some index
  | replaced index => some index
  | inserted => none

section Origins

variable (plan : FlightPlan)

def allKept : List Origin := (List.range plan.routeComponents.length).map .kept

def insertedAt (place : Nat) : List Origin :=
  (allKept plan).take place ++ .inserted :: (allKept plan).drop place

def replacedAt (replaced : Nat → Bool) : List Origin :=
  (List.range plan.routeComponents.length).map fun index =>
    if replaced index then .replaced index else .kept index

/-- The component there is a waypoint at the reference. -/
def waypointIs (index : Nat) (navRef : NavRef) : Bool :=
  plan.routeComponents[index]?.any (·.isAt navRef)

/-- Airways with a waypoint after each; the ends of the span serve if they fit. -/
def airwaysInserted (start finish : Nat) (airways : List (AirwaySegment NavRef)) : List Origin :=
  let newEntry := if airways.head?.any (waypointIs plan start ·.entry) then 0 else 1
  let oldExit := if airways.getLast?.any (waypointIs plan finish ·.exit) then 1 else 0
  (allKept plan).take (start + 1) ++
    List.replicate (2 * airways.length + newEntry - oldExit) .inserted ++
    (allKept plan).drop finish

/-- Where a terminal procedure goes: an arrival before the approach. -/
def terminalProcedurePlace (airportIndex : Nat) (kind : ProcedureKind) : Nat :=
  if kind = .star ∧ (attachedProcedureIndex plan.routeComponents airportIndex .approach).isSome
  then airportIndex - 1 else airportIndex

def Edit.origins : Edit → List Origin
  | deleteComponent i | deleteWaypointComponent i =>
    let range := componentWithAttachedProceduresRange plan i
    (allKept plan).take range.1 ++ (allKept plan).drop (range.2 + 1)
  | removeAllAbove i => (allKept plan).drop (i + 1)
  | insertWaypoint i before _ | insertAirportWaypoint i before _ =>
    insertedAt plan (if before then i else i + 1)
  | moveComponent i delta =>
    let others := (allKept plan).eraseIdx i
    let target := (i + delta).toNat
    others.take target ++ ((allKept plan).drop i).take 1 ++ others.drop target
  | insertAirwayBetweenWaypoints i j airway _ => airwaysInserted plan i j [airway]
  | insertAirwayAfterWaypoint i airway _ =>
    airwaysInserted plan i plan.routeComponents.length [airway]
  | replaceAirwayRouteSpan i j segments => airwaysInserted plan i j (segments.map (·.1))
  | insertProcedureBetweenWaypoints i j _ _ =>
    (allKept plan).take (i + 1) ++ .inserted :: (allKept plan).drop j
  | insertTerminalProcedureBeforeAirport i procedure _
  | insertInitialProcedureBeforeAirport i procedure _ =>
    insertedAt plan (terminalProcedurePlace plan i procedure.kind)
  | insertDepartureAfterAirport i _ _ => insertedAt plan (i + 1)
  | replaceProcedureComponent i _ _ | changeProcedureEnrouteTransition i _ _
  | changeProcedureRunwayTransition i _ _ => replacedAt plan (· == i)
  | rebuildPlanWithNavMaterializations replacements =>
    replacedAt plan fun index => replacements.any (·.1 == index)

end Origins

structure Identified (plan : FlightPlan) : Prop where
  length_uids : plan.routeComponentUids.length = plan.routeComponents.length
  nodup : plan.routeComponentUids.Nodup
  valid : ∀ uid ∈ plan.routeComponentUids, uid ≠ ""

/-- Every airway of the plan lies between the waypoints it is bound to. -/
def AirwaysBound (plan : FlightPlan) : Prop :=
  ∀ (index : Nat) (airway : AirwaySegment String),
    plan.routeComponents[index]? = some (.airway airway) →
      ∃ endpoints, boundAirwayEndpoints plan.routeComponents plan.routeComponentUids index airway =
        .ok endpoints

/-- The uids of a plan after a change of its components. -/
structure Stable (plan : FlightPlan) (origins : List Origin) (changed : FlightPlan) : Prop where
  identified : Identified changed
  /-- The components that are kept are those of the plan. -/
  components : List.Forall₂ (fun origin component =>
    ∀ index, origin = .kept index → plan.routeComponents[index]? = some component)
    origins changed.routeComponents
  /-- They keep their uids; a new one has a new uid. -/
  uids : List.Forall₂ (fun origin uid => match origin.index? with
    | some index => plan.routeComponentUids[index]? = some uid
    | none => uid ∉ plan.routeComponentUids) origins changed.routeComponentUids
  bound : AirwaysBound changed
  /-- An airway lies between the same waypoint components as before. -/
  airways : ∀ (index place : Nat) (airway : AirwaySegment String),
    plan.routeComponents[index]? = some (.airway airway) →
      origins[place]? = some (.kept index) →
      (origins[place - 1]?.bind Origin.index?) = some (index - 1) ∧
        (origins[place + 1]?.bind Origin.index?) = some (index + 1)

def nextUids (counter : UInt64) (count : Nat) : List String :=
  (List.iterate (· + 1) counter count).map routeComponentUid

/-- No component has a uid that the counter gives to what the edit inserts. -/
def Edit.Fresh (plan : FlightPlan) (edit : Edit) : Prop :=
  ∀ uid ∈ nextUids plan.routeComponentUidCounter ((edit.origins plan).count .inserted),
    uid ∉ plan.routeComponentUids

instance (plan : FlightPlan) (edit : Edit) : Decidable (edit.Fresh plan) :=
  inferInstanceAs (Decidable (∀ uid ∈ nextUids _ _, uid ∉ plan.routeComponentUids))

/-- The vectors of the new plan have no more elements than an index can count. -/
def Edit.Fits (G : Geodesy) (plan : FlightPlan) (edit : Edit) : Prop :=
  ∀ result ∈ editStep G plan edit, result.routeComponents.length ≤ 2 ^ 64

instance (G : Geodesy) (plan : FlightPlan) (edit : Edit) : Decidable (edit.Fits G plan) :=
  inferInstanceAs (Decidable (∀ result ∈ editStep G plan edit, _))

end Aerobag.Planning
