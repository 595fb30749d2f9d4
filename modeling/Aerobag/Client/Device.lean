import Aerobag.Client.Workflow
import Aerobag.Lib.Run

/-!
# A device

A device runs one engine and keeps the engine's persistent state on its disk. A label has what the
environment contributes; a response may be lost, come twice, late or out of order, and be anything.
-/

namespace Aerobag.Client

structure Device (J : Type) where
  engine : CloudEngine J
  disk : CloudPersistentState J

inductive DeviceLabel (J F : Type) where
  | configure (baseUrl : Option String)
  | edit (edit : LocalEdit J F) (nowEpochMs : I64)
  | act (action : CloudAction) (currentPlan : F) (secret : Bytes) (nowEpochMs : I64)
  | report (event : CloudEventStreamEvent) (nowEpochMs : Int)
  | deferFlightPlan (plan : F)
  | adoptFlightPlan
  | take (nowEpochMs : Int) (entropy : StageEntropy)
  | complete (requestId : Nat) (response : CloudProviderResponse) (nowEpochMs : Int)
      (entropy : StageEntropy)
  | persist
  /-- The process ends, at any point, and a new one starts from the disk. -/
  | restart

variable {J F : Type} [DecidableEq J] [DecidableEq F] (env : CloudEnv J F)

def CloudEngine.step (disk : CloudPersistentState J) (self : CloudEngine J) :
    DeviceLabel J F → CloudEngine J
  | .configure baseUrl => Command.final (setAcsDefaultBaseUrl env baseUrl) self
  | .edit edit nowEpochMs => Command.final (recordLocalEdit env edit nowEpochMs) self
  | .act action currentPlan secret nowEpochMs =>
    Command.final (performAction env action currentPlan secret nowEpochMs) self
  | .report event nowEpochMs => Command.final (reportEventStreamEvent event nowEpochMs) self
  | .deferFlightPlan plan => Command.final (setPendingRemoteFlightPlan env plan) self
  | .adoptFlightPlan => takePendingRemoteFlightPlan self
  | .take nowEpochMs entropy => Command.final (takeProviderRequest env nowEpochMs entropy) self
  | .complete requestId response nowEpochMs entropy =>
    Command.final (completeProviderRequest env requestId response nowEpochMs entropy) self
  | .persist => self
  | .restart => .new env disk

/-- A step of an engine whose state is saved at every change: a restart finds the last one. This is
an assumption on the host. `local_documents.rs` writes in the background, so a process can end before
its last changes are on the disk; in `Device.step` it can. -/
def CloudEngine.savedStep (self : CloudEngine J) (label : DeviceLabel J F) :
    Option (CloudEngine J) :=
  some (self.step env self.persistent label)

def Device.step (self : Device J) (label : DeviceLabel J F) : Device J where
  engine := self.engine.step env self.disk label
  disk := match label with
    | .persist => self.engine.persistent
    | _ => self.disk

/-- The device after a run. No step is refused. -/
def Device.run (self : Device J) (labels : List (DeviceLabel J F)) : Option (Device J) :=
  Run.exec (fun device label => some (device.step env label)) self labels

/-- A device without an account, with any records of the current format. -/
def Device.unlinked (cached : RecordMap J) : Device J :=
  let disk : CloudPersistentState J :=
    { (CloudPersistentState.default : CloudPersistentState J) with records := ⟨cached, ∅, ∅⟩ }
  ⟨.new env disk, disk⟩

end Aerobag.Client
