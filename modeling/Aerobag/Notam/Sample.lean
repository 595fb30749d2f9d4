import Aerobag.Lib.Json
import Aerobag.Lib.Sha256
import Aerobag.Notam.Display

/-!
# NOTAM states that can be run

An environment with SHA-256 and the JSON encoding of records without procedure keys whose texts need
no escapes.
-/

namespace Aerobag.Notam

def AirportNotamEffect.text : AirportNotamEffect → String
  | airportClosed => "airport_closed"
  | runwayClosed => "runway_closed"
  | airTrafficServiceUnavailable => "air_traffic_service_unavailable"
  | procedureUnavailable => "procedure_unavailable"
  | runwayRestricted => "runway_restricted"
  | runwayEquipmentUnavailable => "runway_equipment_unavailable"
  | navigationAidUnavailable => "navigation_aid_unavailable"
  | communicationUnavailable => "communication_unavailable"
  | airportServiceUnavailable => "airport_service_unavailable"
  | taxiwayClosed => "taxiway_closed"
  | apronClosed => "apron_closed"
  | procedureRestricted => "procedure_restricted"
  | movementAreaEquipmentUnavailable => "movement_area_equipment_unavailable"
  | surfaceCondition => "surface_condition"
  | workInProgress => "work_in_progress"
  | routineAdvisory => "routine_advisory"
  | obstruction => "obstruction"
  | other => "other"

def AirportNotamEffect.all : List AirportNotamEffect :=
  [airportClosed, runwayClosed, airTrafficServiceUnavailable, procedureUnavailable,
    runwayRestricted, runwayEquipmentUnavailable, navigationAidUnavailable,
    communicationUnavailable, airportServiceUnavailable, taxiwayClosed, apronClosed,
    procedureRestricted, movementAreaEquipmentUnavailable, surfaceCondition, workInProgress,
    routineAdvisory, obstruction, other]

def NotamRecord.text (record : NotamRecord NotamDetails) : Bytes :=
  Json.object
    [("id", Json.string record.id),
      ("subjects", Json.array (record.subjects.toList.map fun subject =>
        Json.object [(subject.kind, Json.string subject.ident)])),
      ("airport_id", Json.option Json.string record.airportId),
      ("airport_aliases", Json.array (record.airportAliases.toList.map Json.string)),
      ("airport_effects", Json.array ((AirportNotamEffect.all.filter
        (· ∈ record.airportEffects)).map fun effect => Json.string effect.text)),
      ("procedure_rendezvous_keys", Json.array []),
      ("notam_keyword", Json.option Json.string record.rest.notamKeyword),
      ("effective_start_utc", Json.option Json.string record.rest.effectiveStartUtc),
      ("effective_end_utc", Json.option Json.string record.rest.effectiveEndUtc),
      ("text", Json.option Json.string record.rest.text),
      ("local_text", Json.option Json.string record.rest.localText),
      ("icao_text", Json.option Json.string record.rest.icaoText)]

namespace Sample

def env : NotamEnv NotamDetails where
  sha256 := Sha256.digest
  encode record := .ok record.text
  debug text := "\"" ++ text ++ "\""

def record (id : String) (airportId : Option String) (aliases : List String) (text : String) :
    NotamRecord NotamDetails where
  id := id
  subjects := ∅
  airportId := airportId
  airportAliases := Std.ExtTreeSet.ofList aliases compare
  airportEffects := {.routineAdvisory}
  rest := ⟨∅, some "AD", some "2026-07-22T00:00:00Z", none, some text, none, none⟩

end Sample

end Aerobag.Notam
