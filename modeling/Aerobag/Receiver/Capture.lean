import Aerobag.Lib.Except
import Aerobag.Lib.Sha256
import Aerobag.Lib.Slice

/-!
# Capture files

`receiver/capture.rs`: the append-only file of what a connection sent and received. A record ends
with a SHA-256; the reader accepts a torn last record and never a corrupt complete one.
-/

namespace Aerobag.Receiver

def captureMagicV1 : Bytes := [0x41, 0x42, 0x52, 0x58, 1, 0, 0, 0]

def captureMagic : Bytes := [0x41, 0x42, 0x52, 0x58, 2, 0, 0, 0]

def maxChunkBytes : Nat := 65535

def recordMetadataBytes : Nat := 25

def hashBytes : Nat := 32

inductive CaptureKind where
  | received
  | transmitted
  | connected
  | disconnected
  | diagnostic
  | writeRequested
  | writeCompleted
  | connectionRequested
  | setup
deriving DecidableEq, Repr

namespace CaptureKind

def code : CaptureKind → UInt8
  | received => 0
  | transmitted => 1
  | connected => 2
  | disconnected => 3
  | diagnostic => 4
  | writeRequested => 5
  | writeCompleted => 6
  | connectionRequested => 7
  | setup => 8

def ofCode (version : UInt8) : UInt8 → Option CaptureKind
  | 0 => some received
  | 1 => some transmitted
  | 2 => some connected
  | 3 => some disconnected
  | 4 => some diagnostic
  | 5 => some writeRequested
  | 6 => some writeCompleted
  | 7 => some connectionRequested
  | 8 => if version = 2 then some setup else none
  | _ => none

end CaptureKind

structure CaptureRecord where
  sequence : UInt64
  kind : CaptureKind
  monotonicMs : UInt64
  wallEpochMs : Int64
  bytes : Bytes
deriving DecidableEq

namespace CaptureRecord

/-- The length that is written: that of the record after it, up to the hash. -/
def size (r : CaptureRecord) : Nat := recordMetadataBytes + r.bytes.length

/-- The part of a record that the length counts. -/
def body (r : CaptureRecord) : Bytes :=
  leBytes 8 r.sequence.toNat ++ [r.kind.code] ++ leBytes 8 r.monotonicMs.toNat ++
    leBytes 8 r.wallEpochMs.toUInt64.toNat ++ r.bytes

def encode (r : CaptureRecord) : Bytes :=
  let hashed := leBytes 4 r.size ++ r.body
  hashed ++ Sha256.digest hashed

end CaptureRecord

/-- A write is complete, or fails after the first few bytes. -/
inductive SinkOutcome where
  | written
  | failed (kept : Nat) (message : String)

/-- The writer, with what is in its file. -/
structure CaptureWriter where
  sink : Bytes
  bytesWritten : UInt64
  maxBytes : UInt64
  sequence : UInt64
  lastMonotonicMs : Option UInt64
  failed : Bool

/-- A call of `append`, with what becomes of its write. -/
structure Append where
  kind : CaptureKind
  monotonicMs : UInt64
  wallEpochMs : Int64
  bytes : Bytes
  outcome : SinkOutcome

def saturatingAdd (a b : UInt64) : UInt64 :=
  if a.toNat + b.toNat < 2 ^ 64 then a + b else UInt64.ofNat (2 ^ 64 - 1)

namespace CaptureWriter

def encodedRecordBytes (payloadBytes : Nat) : Nat :=
  4 + recordMetadataBytes + payloadBytes + hashBytes

def new (maxBytes : UInt64) : Except String CaptureWriter := do
  Except.rejectIf (maxBytes.toNat < captureMagic.length + recordMetadataBytes + hashBytes + 4)
    "capture quota too small"
  return {
    sink := captureMagic
    bytesWritten := 8
    maxBytes
    sequence := 0
    lastMonotonicMs := none
    failed := false }

/-- The checks before the write, and the record that is then written. -/
def prepare (self : CaptureWriter) (call : Append) : Except String CaptureRecord := do
  Except.rejectIf
    (call.bytes.length > maxChunkBytes ∨ self.lastMonotonicMs.any (call.monotonicMs < ·))
    "invalid capture chunk/clock"
  let record : CaptureRecord := {
    sequence := self.sequence
    kind := call.kind
    monotonicMs := call.monotonicMs
    wallEpochMs := call.wallEpochMs
    bytes := call.bytes }
  Except.rejectIf
    (saturatingAdd self.bytesWritten (UInt64.ofNat record.encode.length) > self.maxBytes)
    "capture quota reached"
  return record

/-- Appends a record. After a failure nothing more is written. -/
def append (self : CaptureWriter) (call : Append) : CaptureWriter × Except String Unit :=
  if self.failed then (self, .error "capture writer failed; open a new capture")
  else
    match self.prepare call with
    | .error message => ({ self with failed := true }, .error message)
    | .ok record =>
      match call.outcome with
      | .failed kept message =>
        ({ self with sink := self.sink ++ record.encode.take kept, failed := true }, .error message)
      | .written =>
        ({ self with
            sink := self.sink ++ record.encode
            bytesWritten := self.bytesWritten + UInt64.ofNat record.encode.length
            sequence := self.sequence + 1
            lastMonotonicMs := some call.monotonicMs }, .ok ())

def handedBy (self : CaptureWriter) (call : Append) : List CaptureRecord :=
  if self.failed then [] else (self.prepare call).toOption.toList

end CaptureWriter

/-- A writer, with the records that it has handed to its sink. -/
structure Recording where
  writer : CaptureWriter
  handed : List CaptureRecord

namespace Recording

def append (self : Recording) (call : Append) : Recording where
  writer := (self.writer.append call).1
  handed := self.handed ++ self.writer.handedBy call

def step (self : Recording) (call : Append) : Option Recording := some (self.append call)

end Recording

inductive CaptureRead where
  | record (record : CaptureRecord)
  | atEnd
  | tornTail
deriving DecidableEq

structure CaptureReader where
  input : Bytes
  version : UInt8
  nextSequence : UInt64
  lastMonotonicMs : Option UInt64
  ended : Bool

/-- The next bytes and the rest, nothing if the input ends before. -/
def readExact (count : Nat) (input : Bytes) : Option (Bytes × Bytes) :=
  if count ≤ input.length then some (input.take count, input.drop count) else none

namespace CaptureReader

def new (input : Bytes) : Except String CaptureReader :=
  match readExact 8 input with
  | none => .error "failed to fill whole buffer"
  | some (magic, input) => do
    Except.rejectIf (magic ≠ captureMagic ∧ magic ≠ captureMagicV1) "unknown receiver capture format"
    return {
      input
      version := magic.getD 4 0
      nextSequence := 0
      lastMonotonicMs := none
      ended := false }

/-- The record with the given length field and body, if it is in order. -/
def decode (self : CaptureReader) (length body : Bytes) : Except String CaptureRecord := do
  let size := leNat length
  Except.rejectIf (Sha256.digest (length ++ body.take size) ≠ body.drop size)
    "receiver capture checksum mismatch"
  let some kind := CaptureKind.ofCode self.version (body.getD 8 0)
    | throw "unknown capture record kind"
  let record : CaptureRecord := {
    sequence := UInt64.ofNat (leNat (body.take 8))
    kind
    monotonicMs := UInt64.ofNat (leNat (between body 9 17))
    wallEpochMs := (UInt64.ofNat (leNat (between body 17 25))).toInt64
    bytes := between body 25 size }
  Except.rejectIf
    (record.sequence ≠ self.nextSequence ∨ self.lastMonotonicMs.any (record.monotonicMs < ·))
    "receiver capture ordering"
  return record

/-- Reads one record. The rest does not matter where the input ends. -/
def readRecord (self : CaptureReader) : Except String (CaptureRead × CaptureReader) :=
  match readExact 1 self.input with
  | none => .ok (.atEnd, self)
  | some (first, input) =>
    match readExact 3 input with
    | none => .ok (.tornTail, self)
    | some (more, input) =>
      let length := first ++ more
      let size := leNat length
      if size < recordMetadataBytes ∨ recordMetadataBytes + maxChunkBytes < size then
        .error "invalid receiver capture record size"
      else
        match readExact (size + hashBytes) input with
        | none => .ok (.tornTail, self)
        | some (body, input) => do
          let record ← self.decode length body
          return (.record record, { self with
            input
            nextSequence := self.nextSequence + 1
            lastMonotonicMs := some record.monotonicMs })

def nextRecord (self : CaptureReader) : CaptureReader × Except String CaptureRead :=
  if self.ended then (self, .ok .atEnd)
  else
    match self.readRecord with
    | .ok (.record record, next) => (next, .ok (.record record))
    | .ok (other, next) => ({ next with ended := true }, .ok other)
    | .error message => ({ self with ended := true }, .error message)

def nextRecords (self : CaptureReader) : Nat → List (Except String CaptureRead)
  | 0 => []
  | count + 1 => self.nextRecord.2 :: nextRecords self.nextRecord.1 count

end CaptureReader

end Aerobag.Receiver
