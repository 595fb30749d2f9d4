import Aerobag.Lib.Chunked
import Aerobag.Lib.Map
import Aerobag.Lib.Slice

/-!
# Transport frames and application records

`receiver/framing.rs`: the bytes of a connection are cut into frames, their payloads into
application records, and fragments are put together. Both decoders take chunks of any size and
poison themselves at the first error.
-/

open Except

namespace Aerobag.Receiver

open Chunked

def maxFrameBytes : Nat := 65535

def maxAssemblies : Nat := 64

def maxProductBytes : Nat := 32 * 1024 * 1024

/-- Why a call does not return `Ok`. -/
inductive Fault where
  /-- It returns a `DecodeError`. -/
  | decodeError (message : String)
  /-- It panics: a subtraction underflows, or there is nothing to unwrap. -/
  | panic
deriving DecidableEq, Repr

structure Frame where
  kind : UInt8
  sequence : UInt8
  acknowledgement : UInt8
  payload : Bytes
deriving DecidableEq, Repr

def checksum (bytes : Bytes) : UInt8 := bytes.foldl (fun sum byte => sum - byte) 0

namespace Frame

def encodedLength (frame : Frame) : Nat :=
  8 + frame.payload.length + if frame.payload.isEmpty then 0 else 1

def encode (frame : Frame) : Except Fault Bytes := do
  Except.rejectIf (frame.encodedLength > maxFrameBytes) (.decodeError "frame too large")
  let header := [0xc0, 1] ++ leBytes 2 frame.encodedLength ++
    [frame.kind, frame.sequence, frame.acknowledgement]
  return header ++ [checksum header] ++ frame.payload ++
    if frame.payload.isEmpty then [] else [checksum frame.payload]

end Frame

/-- The length that the header of a frame announces. -/
def transportLength (buffer : Bytes) : Except Fault Nat := do
  Except.rejectIf (buffer.take 2 ≠ [0xc0, 1] ∨ checksum (buffer.take 8) ≠ 0)
    (.decodeError "transport header/checksum")
  let length := leNat (between buffer 2 4)
  Except.rejectIf (length < 8 ∨ length = 9) (.decodeError "invalid transport length")
  return length

def transportFormat : Format UInt8 Fault where
  header := 8
  length := transportLength
  header_pos := by decide
  length_append more h := by
    unfold transportLength
    rw [List.take_append_of_le_length (by omega), List.take_append_of_le_length h,
      between_append_left more (by omega)]
  header_le {bytes n} h := by
    simp only [transportLength, bind_eq_ok, rejectIf_eq_ok, pure_eq_ok] at h
    obtain ⟨-, -, -, hlength, rfl⟩ := h
    omega

/-- The frame whose bytes these are: as many as its header announces. -/
def takeFrame (_ : Unit) (buffer : Bytes) : Except Fault (Unit × List Frame) := do
  Except.rejectIf (checksum (buffer.drop 8) ≠ 0) (.decodeError "payload checksum")
  let length := buffer.length
  return ((), [{
    kind := buffer.getD 4 0
    sequence := buffer.getD 5 0
    acknowledgement := buffer.getD 6 0
    payload := if length = 8 then [] else between buffer 8 (length - 1) }])

def framer : Decoder UInt8 Fault Unit Frame where
  format := transportFormat
  initial := ()
  finish := takeFrame
  limit := 4 * maxFrameBytes
  tooLong := .decodeError "input chunk too large"
  resetRequired := .decodeError "reset required after framing failure"

/-- Incomplete input is bounded to one frame, by the type of the buffer. -/
abbrev Framer := framer.State

namespace Framer

def new : Framer := framer.start

def feed (self : Framer) (bytes : Bytes) : Framer × Except Fault (List Frame) :=
  framer.feed self bytes

end Framer

inductive ApplicationRecord where
  | control (messageId : UInt32) (commands : Bytes)
  | message (messageId : UInt32) (attributes : UInt8) (data : Bytes)
deriving DecidableEq, Repr

def applicationLength (buffer : Bytes) : Except Fault Nat := do
  let length := leNat (between buffer 1 3)
  Except.rejectIf (buffer.take 1 ≠ [1] ∨ length < 8) (.decodeError "application header")
  return length

def applicationFormat : Format UInt8 Fault where
  header := 4
  length := applicationLength
  header_pos := by decide
  length_append more h := by
    unfold applicationLength
    rw [List.take_append_of_le_length (by omega), between_append_left more (by omega)]
  header_le {bytes n} h := by
    simp only [applicationLength, bind_eq_ok, rejectIf_eq_ok, pure_eq_ok] at h
    obtain ⟨-, hlength, rfl⟩ := h
    omega

/-- The messages that have started and not ended. -/
structure Assemblies where
  files : Std.ExtTreeMap UInt32 (UInt8 × Bytes)
  totalBytes : Nat

variable (self : Assemblies)

namespace Assemblies

def checkedSub (m n : Nat) : Except Fault Nat := do
  Except.rejectIf (m < n) .panic
  return m - n

/-- The total without a message that is given up. -/
def totalWithout (id : UInt32) : Except Fault Nat :=
  match self.files[id]? with
  | some (_, previous) => checkedSub self.totalBytes previous.length
  | none => .ok self.totalBytes

/-- A start fragment opens its message, anew if it is open. -/
def start (id : UInt32) (attributes : UInt8) : Except Fault Assemblies := do
  let totalBytes ← self.totalWithout id
  let files := self.files.erase id
  Except.rejectIf (files.size = maxAssemblies) (.decodeError "too many unfinished products")
  return { files := files.insert id (attributes, []), totalBytes }

def append (id : UInt32) (flags : UInt8) (body : Bytes) :
    Except Fault Assemblies := do
  Except.rejectIf (self.totalBytes + body.length > maxProductBytes)
    (.decodeError "product reassembly limit")
  match self.files[id]? with
  | none => throw (.decodeError "fragment without start")
  | some (attributes, data) => return {
      files := self.files.insert id (attributes ||| flags, data ++ body)
      totalBytes := self.totalBytes + body.length }

def close (id : UInt32) : Except Fault (Assemblies × List ApplicationRecord) :=
  match self.files[id]? with
  | none => throw .panic
  | some (attributes, data) => do
    let totalBytes ← checkedSub self.totalBytes data.length
    return ({ files := self.files.erase id, totalBytes }, [.message id attributes data])

def startIf (flags : UInt8) (id : UInt32) : Except Fault Assemblies :=
  if flags &&& 4 ≠ 0 then self.start id (flags &&& ~~~0x0e) else .ok self

def closeIf (flags : UInt8) (id : UInt32) :
    Except Fault (Assemblies × List ApplicationRecord) :=
  if flags &&& 8 ≠ 0 then self.close id else .ok (self, [])

def takeFragment (flags : UInt8) (id : UInt32) (body : Bytes) :
    Except Fault (Assemblies × List ApplicationRecord) := do
  let started ← self.startIf flags id
  let appended ← started.append id (flags &&& ~~~0x0e) body
  appended.closeIf flags id

def takeRecord (raw : Bytes) :
    Except Fault (Assemblies × List ApplicationRecord) :=
  let flags := raw.getD 3 0
  let id := UInt32.ofNat (leNat (between raw 4 8))
  let body := raw.drop 8
  if flags &&& 2 ≠ 0 then .ok (self, [.control id body]) else self.takeFragment flags id body

end Assemblies

def applicationDecoder : Decoder UInt8 Fault Assemblies ApplicationRecord where
  format := applicationFormat
  initial := { files := ∅, totalBytes := 0 }
  finish := Assemblies.takeRecord
  limit := maxProductBytes
  tooLong := .decodeError "application chunk too large"
  resetRequired := .decodeError "reset required after application failure"

abbrev ApplicationStream := applicationDecoder.State

namespace ApplicationStream

def new : ApplicationStream := applicationDecoder.start

def feed (self : ApplicationStream) (bytes : Bytes) :
    ApplicationStream × Except Fault (List ApplicationRecord) :=
  applicationDecoder.feed self bytes

end ApplicationStream

end Aerobag.Receiver
