import Aerobag.Lib.F64

/-!
# Flight plans

A list of route components with an identity for each, the legs they resolve to, and the guidance
that follows these legs. `==` is the derived comparison: a reference at a NaN does not equal itself.
-/

namespace Aerobag.Planning

inductive AppErrorKind where
  | invalidFlightPlan
  | unsupportedOperation
  | internal
deriving DecidableEq, Repr

structure AppError where
  kind : AppErrorKind
  message : String
deriving DecidableEq, Repr

abbrev AppResult := Except AppError

def invalidFlightPlan {α : Type} (message : String) : AppResult α :=
  throw { kind := .invalidFlightPlan, message }

def unsupportedOperation {α : Type} (message : String) : AppResult α :=
  throw { kind := .unsupportedOperation, message }

structure LatLon where
  lat : F64
  lon : F64
deriving Repr

instance : BEq LatLon where
  beq p q := p.lat == q.lat && p.lon == q.lon

theorem LatLon.beq_iff {p q : LatLon} :
    (p == q) = true ↔ (p.lat == q.lat) = true ∧ (p.lon == q.lon) = true :=
  Bool.and_eq_true_iff

instance : PartialEquivBEq LatLon where
  symm h := LatLon.beq_iff.2 ⟨BEq.symm (LatLon.beq_iff.1 h).1, BEq.symm (LatLon.beq_iff.1 h).2⟩
  trans hxy hyz := LatLon.beq_iff.2
    ⟨BEq.trans (LatLon.beq_iff.1 hxy).1 (LatLon.beq_iff.1 hyz).1,
      BEq.trans (LatLon.beq_iff.1 hxy).2 (LatLon.beq_iff.1 hyz).2⟩

inductive NavRef where
  | airport (code : String)
  | navaid (code : String)
  | arincNavaid (identifier icaoCode sectionCode subsectionCode : String)
  | terminalNavaid (airportId identifier icaoCode sectionCode subsectionCode : String)
  | fix (code : String)
  | latLon (position : LatLon)
  | spot (position : LatLon)
deriving BEq, Repr

/-- References are equal if they are the same text, or positions that are equal. -/
theorem NavRef.beq_iff {x y : NavRef} : (x == y) = true ↔
    x = y ∧ (∀ p, x ≠ .latLon p ∧ x ≠ .spot p) ∨
      (∃ p q, x = .latLon p ∧ y = .latLon q ∧ (p == q) = true) ∨
      ∃ p q, x = .spot p ∧ y = .spot q ∧ (p == q) = true := by
  show instBEqNavRef.beq x y = true ↔ _
  cases x <;> cases y <;> simp [instBEqNavRef.beq]

instance : PartialEquivBEq NavRef where
  symm {x y} h := by
    rcases NavRef.beq_iff.1 h with ⟨rfl, hx⟩ | ⟨p, q, rfl, rfl, hpq⟩ | ⟨p, q, rfl, rfl, hpq⟩
    · exact h
    · exact NavRef.beq_iff.2 (.inr (.inl ⟨q, p, rfl, rfl, BEq.symm hpq⟩))
    · exact NavRef.beq_iff.2 (.inr (.inr ⟨q, p, rfl, rfl, BEq.symm hpq⟩))
  trans {x y z} hxy hyz := by
    rcases NavRef.beq_iff.1 hxy with ⟨rfl, hx⟩ | ⟨p, q, rfl, rfl, hpq⟩ | ⟨p, q, rfl, rfl, hpq⟩
    · exact hyz
    · rcases NavRef.beq_iff.1 hyz with ⟨-, hy⟩ | ⟨q', r, hq, rfl, hqr⟩ | ⟨q', r, hq, rfl, hqr⟩
      · exact absurd rfl (hy q).1
      · cases hq
        exact NavRef.beq_iff.2 (.inr (.inl ⟨p, r, rfl, rfl, BEq.trans hpq hqr⟩))
      · cases hq
    · rcases NavRef.beq_iff.1 hyz with ⟨-, hy⟩ | ⟨q', r, hq, rfl, hqr⟩ | ⟨q', r, hq, rfl, hqr⟩
      · exact absurd rfl (hy q).2
      · cases hq
      · cases hq
        exact NavRef.beq_iff.2 (.inr (.inr ⟨p, r, rfl, rfl, BEq.trans hpq hqr⟩))

/-- The text that stands for a reference in the identity of a row. -/
def navRefKey : NavRef → String
  | .airport id => "airport:" ++ id
  | .navaid id => "navaid:" ++ id
  | .arincNavaid identifier icaoCode sectionCode subsectionCode =>
    "arinc-navaid:" ++ sectionCode ++ ":" ++ subsectionCode ++ ":" ++ icaoCode ++ ":" ++ identifier
  | .terminalNavaid airportId identifier icaoCode sectionCode subsectionCode =>
    "terminal-navaid:" ++ airportId ++ ":" ++ sectionCode ++ ":" ++ subsectionCode ++ ":" ++
      icaoCode ++ ":" ++ identifier
  | .fix id => "fix:" ++ id
  | .latLon position => "latlon:" ++ position.lat.toFixed 7 ++ ":" ++ position.lon.toFixed 7
  | .spot position => "spot:" ++ position.lat.toFixed 7 ++ ":" ++ position.lon.toFixed 7

def formatSpotCoordinates (position : LatLon) : String :=
  position.lat.toFixed 4 ++ "," ++ position.lon.toFixed 4

def navRefLabel : NavRef → String
  | .airport code => code
  | .navaid code => code
  | .fix code => code
  | .arincNavaid identifier _ _ _ => identifier
  | .terminalNavaid _ identifier _ _ _ => identifier
  | .latLon position => formatSpotCoordinates position
  | .spot position => "SPOT\n" ++ formatSpotCoordinates position

/-- An airway, between uids in a plan and between references in the database. -/
structure AirwaySegment (Endpoint : Type) where
  name : String
  branchKey : Option String
  entry : Endpoint
  exit : Endpoint
deriving BEq, Repr

inductive ProcedureKind where
  | sid
  | star
  | approach
deriving DecidableEq, Repr

inductive ProcedureDiscontinuity where
  | vectors
  | hold
  | other (label : String)
deriving DecidableEq, Repr

def ProcedureDiscontinuity.displayLabel : ProcedureDiscontinuity → String
  | .vectors => "VECTORS"
  | .hold => "HOLD"
  | .other label => label

structure ProcedureSegment where
  airportId : String
  procedureId : String
  displayLabel : Option String
  kind : ProcedureKind
  runwayTransition : Option String
  enrouteTransition : Option String
  terminalDiscontinuity : Option ProcedureDiscontinuity
  dataQuality : List String
deriving DecidableEq, Repr

inductive RouteComponent where
  | waypoint (waypoint : NavRef)
  | airway (airway : AirwaySegment String)
  | procedure (procedure : ProcedureSegment)
deriving BEq, Repr

def RouteComponent.isWaypoint : RouteComponent → Bool
  | .waypoint _ => true
  | _ => false

inductive PathTermination where
  | initialFix
  | trackToFix
  | courseToFix
  | directToFix
  | headingToManual
  | headingToAltitude
  | other (code : String)
deriving DecidableEq, Repr

inductive ProcedureSegmentRole where
  | enrouteTransition
  | common
  | runwayTransition
deriving DecidableEq, Repr

inductive LegDisplayPathStyle where
  | solid
  | dashed
  | vectors
deriving DecidableEq, Repr

inductive LegDisplayElement where
  | segment (start finish : LatLon)
  | arc (center : LatLon) (radiusNm : F64) (start finish : LatLon) (clockwise : Bool)
      (sweepDegrees : F64)
deriving BEq, Repr

structure LegDisplayPath where
  style : LegDisplayPathStyle
  elements : List LegDisplayElement
  effectiveTerminalCourseDeg : Option F64
  debugElementSources : List String
  debugElementRoles : List String
deriving BEq, Repr

structure ProcedureLegProvenance where
  airportId : String
  procedureId : String
  kind : ProcedureKind
  role : ProcedureSegmentRole
  pathTermination : PathTermination
  legSequence : Int
  discontinuityAfter : Option ProcedureDiscontinuity
  displayPath : Option LegDisplayPath
deriving BEq, Repr

inductive ResolvedLegSource where
  | routeComponent (componentIndex : Nat)
  | syntheticBridge (fromComponentIndex toComponentIndex : Nat)
deriving DecidableEq, Repr

/-- A leg from one reference (`from` in the source) to another (`to`). -/
structure ResolvedLeg where
  id : String
  fromRef : NavRef
  toRef : NavRef
  source : ResolvedLegSource
  procedureProvenance : Option ProcedureLegProvenance
deriving BEq, Repr

def ResolvedLeg.displayPath (leg : ResolvedLeg) : Option LegDisplayPath :=
  leg.procedureProvenance.bind fun provenance => provenance.displayPath

def ResolvedLeg.discontinuityAfter (leg : ResolvedLeg) : Option ProcedureDiscontinuity :=
  leg.procedureProvenance.bind fun provenance => provenance.discontinuityAfter

/-- The number of elements of a leg that guidance flies one by one. -/
def ResolvedLeg.elementCount (leg : ResolvedLeg) : Nat :=
  match leg.displayPath with
  | some path => max path.elements.length 1
  | none => 1

inductive SequencingMode where
  | followPlan
  | suspended
  | directTo
deriving DecidableEq, Repr

inductive SuspendReason where
  | manual
  | boundary
  | routeEnd
  | directToComplete
deriving DecidableEq, Repr

inductive DirectToTargetRow where
  | planned (rowId : String)
  | temporary (rowId : String)
deriving DecidableEq, Repr

def DirectToTargetRow.rowId : DirectToTargetRow → String
  | .planned rowId => rowId
  | .temporary rowId => rowId

def DirectToTargetRow.isPlanned : DirectToTargetRow → Bool
  | .planned _ => true
  | .temporary _ => false

structure DirectToState where
  start : NavRef
  target : NavRef
  targetRow : DirectToTargetRow
  resumeRowId : Option String
deriving BEq, Repr

structure GuidanceState where
  activeLegIndex : Nat
  activeDetailIndex : Option Nat
  sequencingMode : SequencingMode
  directTo : Option DirectToState
  suspendReason : Option SuspendReason
deriving BEq, Repr

structure AircraftSelection where
  definitionHash : String
  profileId : String
deriving DecidableEq, Repr

def defaultAircraftSelection : AircraftSelection where
  definitionHash := "34429b8eaf8ba0b83ff0f3e9526d6059712fbd71ffdf62fa0bce6644cc8016b7"
  profileId := "normal-cruise"

structure FlightPlan where
  id : String
  name : String
  routeComponents : List RouteComponent
  routeComponentUids : List String
  routeComponentUidCounter : UInt64
  resolvedLegs : List ResolvedLeg
  guidance : Option GuidanceState
  departure : Option String
  destination : Option String
  alternate : Option String
  aircraft : Option AircraftSelection
  cruiseAltitudeFt : Option Int
  plannedDepartureTimeEpochMs : Option Int
  notes : Option String
  updatedAtEpochMs : Int
  version : Nat
deriving BEq, Repr

def FlightPlan.setGuidance (plan : FlightPlan) (guidance : Option GuidanceState) : FlightPlan :=
  { plan with guidance }

def FlightPlan.empty : FlightPlan where
  id := "plan-empty"
  name := "Flight Plan"
  routeComponents := []
  routeComponentUids := []
  routeComponentUidCounter := 0
  resolvedLegs := []
  guidance := none
  departure := none
  destination := none
  alternate := none
  aircraft := some defaultAircraftSelection
  cruiseAltitudeFt := none
  plannedDepartureTimeEpochMs := none
  notes := none
  updatedAtEpochMs := 0
  version := 1

end Aerobag.Planning
