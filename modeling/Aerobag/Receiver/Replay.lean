import Aerobag.Receiver.Protocol

/-!
# Replaying what was received

`Stream` of `receiver/capture_replay.rs`, with the messages that it has emitted, on the received bytes
of one connection.
-/

namespace Aerobag.Receiver

/-- The stream behind its framer. -/
structure Inbound where
  sequence : ReceiveSequence
  application : ApplicationStream
  emitted : List ApplicationRecord

structure Stream where
  framer : Framer
  inbound : Inbound

def Stream.new : Stream := ⟨.new, .new, .new, []⟩

def ApplicationRecord.isMessage : ApplicationRecord → Bool
  | .control _ _ => false
  | .message _ _ _ => true

/-- A frame of kind 3 gives up the messages that have not ended. -/
def Inbound.frame (self : Inbound) (frame : Frame) : Except Fault Inbound :=
  if frame.kind ≠ 2 ∧ frame.kind ≠ 3 then .error (.decodeError "unknown transport kind")
  else if frame.payload.isEmpty then .ok self
  else
    match self.sequence.accept frame with
    | .error fault => .error fault
    | .ok (false, sequence) => .ok { self with sequence }
    | .ok (true, sequence) =>
      if frame.kind = 3 then .ok { self with sequence, application := self.application.reset }
      else
        match self.application.feed frame.payload with
        | (_, .error fault) => .error fault
        | (application, .ok records) =>
          .ok ⟨sequence, application, self.emitted ++ records.filter (·.isMessage)⟩

/-- A record of the kind `Received`. -/
def Stream.received (self : Stream) (bytes : Bytes) : Except Fault Stream :=
  match self.framer.feed bytes with
  | (_, .error fault) => .error fault
  | (framer, .ok frames) => (frames.foldlM Inbound.frame self.inbound).map (⟨framer, ·⟩)

end Aerobag.Receiver
