import Aerobag.Lib.Command
import Aerobag.Lib.Md5
import Aerobag.Lib.Sha256
import Aerobag.Receiver.Framing

/-!
# The protocol of a receiver connection

`receiver/protocol.rs`: the handshake, acknowledgements and retransmissions, and the delivery of
products, whose decoding is left open. Methods that can fail half-way are commands on a `Work`: the
protocol and the output of the call.
-/

namespace Aerobag.Receiver

open Command

def setupTimeoutMs : UInt64 := 15000

def retransmitMs : UInt64 := 1000

def maxRetries : Nat := 3

def maxPending : Nat := 32

def negotiation : Bytes := [0x40, 0x0a, 1, 0, 4, 0xf4, 1, 0x96, 0, 0xb8, 0xab, 3, 0]

def challengeSeed : Bytes := [
  0x8d, 0xa1, 0x61, 0x22, 0x89, 0x87, 0x92, 0x6a, 0x52, 0x25, 0xbb, 0x97, 0x60, 0x4e, 0xf2, 0x2a,
  0x78, 0x6d, 0x9a, 0xd7, 0x18, 0xd8, 0x50, 0x57, 0xca, 0xde, 0xbe, 0x54, 0xfc, 0xab, 0x53, 0xf9,
  0xde, 0x3b, 0x06, 0x99, 0x03, 0x42, 0x9a, 0xd9, 0x97, 0x25, 0x0f, 0xf2, 0x9a, 0x49, 0xa1, 0x2a]

inductive ProtocolPhase where
  | negotiating
  | capabilities
  | challenge
  | verifyResponse
  | product
  | receiving
  | failed
deriving DecidableEq, Repr

structure ReceiveSequence where
  last : Option UInt8
  recent : List (UInt8 × Bytes)

namespace ReceiveSequence

def new : ReceiveSequence := { last := none, recent := [] }

/-- A retransmission is known by its number and its payload. -/
def accept (self : ReceiveSequence) (frame : Frame) : Except Fault (Bool × ReceiveSequence) :=
  let digest := Sha256.digest frame.payload
  if (frame.sequence, digest) ∈ self.recent then .ok (false, self)
  else if self.last.any (fun last => frame.sequence ≠ last + 1) then
    .error (.decodeError "receiver transport sequence gap")
  else
    let recent := self.recent ++ [(frame.sequence, digest)]
    .ok (true, {
      last := some frame.sequence
      recent := if recent.length > 64 then recent.drop 1 else recent })

end ReceiveSequence

def record (flags : UInt8) (id : UInt32) (body : Bytes) : Bytes :=
  [1] ++ leBytes 2 (body.length + 8) ++ [flags] ++ leBytes 4 id.toNat ++ body

def message (id : UInt32) (body : Bytes) : Bytes := record 12 id body

def control (commands : List Bytes) : Bytes := record 2 0 commands.flatten

def subscription (id : UInt32) (rate : UInt8) : Bytes := [0] ++ leBytes 4 id.toNat ++ [1, rate]

def supportedIds : Bytes :=
  message 0 (([0, 0x102, 3, 1] : List UInt32).flatMap fun id => leBytes 4 id.toNat)

/-- The length of a command by its first byte. -/
def commandSize (kind : UInt8) : Option Nat :=
  if kind = 0 then some 7 else if kind = 1 ∨ kind = 2 ∨ kind = 3 then some 5 else none

/-- The ids that the commands of a control notify of. -/
def notifications (bytes : Bytes) : Except Fault (List UInt32) :=
  match bytes with
  | [] => .ok []
  | kind :: rest =>
    match _hsize : commandSize kind with
    | none => .error (.decodeError "unknown control syntax")
    | some size =>
      if (kind :: rest).length < size then .error (.decodeError "truncated control command")
      else do
        let later ← notifications ((kind :: rest).drop size)
        return if kind = 2 then UInt32.ofNat (leNat (between (kind :: rest) 1 5)) :: later else later
termination_by bytes.length
decreasing_by
  have hpos : 0 < size := by
    unfold commandSize at _hsize
    split at _hsize
    · exact Option.some.inj _hsize ▸ (by decide)
    · split at _hsize
      · exact Option.some.inj _hsize ▸ (by decide)
      · exact nomatch _hsize
  rw [List.length_drop, List.length_cons]
  omega

/-- The messages that carry weather: those with a `WeatherKind`. -/
def isWeather (id : UInt32) : Bool :=
  id ∈ [0x20000010, 0x20000011, 0x20000020, 0x20000030, 0x20000040, 0x20000050, 0x20000060,
    0x20000070, 0x20000080, 0x20000090, 0x200000a0]

structure ReceivedMessage (P : Type) where
  messageId : UInt32
  attributes : UInt8
  payloadBytes : Nat
  product : Except Fault P

structure ProtocolOutput (P : Type) where
  transmissions : List Bytes
  messages : List (ReceivedMessage P)

structure Pending where
  frame : Frame
  lastSentMs : UInt64
  retries : Nat

/-- What happens to a connection that matters for the handshake. -/
inductive Event (P : Type) where
  | handled (phase : ProtocolPhase) (record : ApplicationRecord)
  /-- A message goes into the output of the call. -/
  | delivered (message : ReceivedMessage P)

structure Protocol (P : Type) where
  phase : ProtocolPhase
  nonce : Bytes
  expectedResponse : Option Bytes
  framer : Framer
  application : ApplicationStream
  advertised : Std.ExtTreeSet UInt32
  nextTxSequence : UInt8
  receiveSequence : ReceiveSequence
  acknowledgement : UInt8
  pending : List Pending
  phaseSinceMs : UInt64
  lastClockMs : UInt64
  /-- Not a field of the source: what has happened on this connection, in order. -/
  history : List (Event P)

structure Work (P : Type) where
  self : Protocol P
  output : ProtocolOutput P

abbrev Exchange (P : Type) := EStateM Fault (Work P)

namespace Work

variable {P : Type}

def update (work : Work P) (change : Protocol P → Protocol P) : Work P :=
  { work with self := change work.self }

def transmit (work : Work P) (bytes : Bytes) : Work P :=
  { work with output := { work.output with
    transmissions := work.output.transmissions ++ [bytes] } }

def deliver (work : Work P) (message : ReceivedMessage P) : Work P where
  self := { work.self with history := work.self.history ++ [.delivered message] }
  output := { work.output with messages := work.output.messages ++ [message] }

end Work

namespace Protocol

variable {P : Type} (decodeProduct : UInt32 → Bytes → Except Fault P)

def idle (self : Protocol P) : Work P := { self, output := { transmissions := [], messages := [] } }

def decodeMessage (messageId : UInt32) (attributes : UInt8) (data : Bytes) : ReceivedMessage P where
  messageId
  attributes
  payloadBytes := data.length
  product :=
    if attributes ≠ 0 then .error (.decodeError "unverified application file attributes")
    else decodeProduct messageId data

def transition (phase : ProtocolPhase) (nowMs : UInt64) : Exchange P Unit :=
  modify (·.update fun self => { self with phase, phaseSinceMs := nowMs })

def fail (self : Protocol P) : Protocol P :=
  { self with
    phase := .failed
    pending := []
    framer := self.framer.reset
    application := self.application.reset }

def checkClock (nowMs : UInt64) : Exchange P Unit := do
  let self := (← get).self
  attempt (Except.rejectIf (self.phase = .failed) (.decodeError "receiver reconnect required"))
  attempt (Except.rejectIf (nowMs < self.lastClockMs)
    (.decodeError "receiver monotonic clock regressed"))
  modify (·.update fun self => { self with lastClockMs := nowMs })

/-- A frame with a payload waits for its acknowledgement. -/
def enqueue (frame : Frame) (nowMs : UInt64) (self : Protocol P) : Protocol P :=
  { self with
    nextTxSequence := self.nextTxSequence + 1
    pending := self.pending ++ [{ frame, lastSentMs := nowMs, retries := 0 }] }

def send (kind : UInt8) (payload : Bytes) (nowMs : UInt64) : Exchange P Unit := do
  let self := (← get).self
  let frame : Frame := {
    kind
    sequence := self.nextTxSequence
    acknowledgement := self.acknowledgement
    payload }
  attempt (Except.rejectIf (payload ≠ [] ∧ self.pending.length = maxPending)
    (.decodeError "receiver send window limit"))
  let bytes ← attempt frame.encode
  modify (·.transmit bytes)
  if payload ≠ [] then modify (·.update (enqueue frame nowMs)) else pure ()

def opened (nowMs : UInt64) (nonce : Bytes) : Protocol P where
  phase := .negotiating
  nonce
  expectedResponse := none
  framer := Framer.new
  application := ApplicationStream.new
  advertised := ∅
  nextTxSequence := 1
  receiveSequence := ReceiveSequence.new
  acknowledgement := 0
  pending := []
  phaseSinceMs := nowMs
  lastClockMs := nowMs
  history := []

def withNonce (nowMs : UInt64) (nonce : Bytes) : Except Fault (Protocol P × ProtocolOutput P) :=
  match (send 3 negotiation nowMs).run (opened nowMs nonce).idle with
  | .ok _ work => .ok (work.self, work.output)
  | .error fault _ => .error fault

/-- The frames up to the one that is acknowledged wait no longer. -/
def acknowledge (acknowledgement : UInt8) (self : Protocol P) : Protocol P :=
  match self.pending.findIdx? fun pending => pending.frame.sequence = acknowledgement with
  | some index => { self with pending := self.pending.drop (index + 1) }
  | none => self

def feedFramer (bytes : Bytes) : Exchange P (List Frame) := do
  let fed := (← get).self.framer.feed bytes
  modify (·.update fun self => { self with framer := fed.1 })
  attempt fed.2

def feedApplication (bytes : Bytes) : Exchange P (List ApplicationRecord) := do
  let fed := (← get).self.application.feed bytes
  modify (·.update fun self => { self with application := fed.1 })
  attempt fed.2

def acceptSequence (frame : Frame) : Exchange P Bool := do
  let accepted ← attempt ((← get).self.receiveSequence.accept frame)
  modify (·.update fun self => { self with receiveSequence := accepted.2 })
  return accepted.1

def advertise : ApplicationRecord → Exchange P Unit
  | .control _ _ => pure ()
  | .message messageId attributes data =>
    if messageId = 0 ∧ attributes = 0 then do
      attempt (Except.rejectIf (data.length % 4 ≠ 0 ∨ data.length > 4096 * 4)
        (.decodeError "supported message list length"))
      modify (·.update fun self => { self with
        advertised := .ofList ((pieces 4 data).map fun piece => UInt32.ofNat (leNat piece)) })
    else pure ()

def requestChallenge (nowMs : UInt64) : Exchange P Unit := do
  let self := (← get).self
  if self.phase = .capabilities ∧ self.advertised.contains 2 ∧ self.advertised.contains 4 then do
    send 2 (control [subscription 4 19, subscription 2 19] ++ supportedIds) nowMs
    transition .challenge nowMs
  else pure ()

/-- The subscriptions to those messages that are advertised. -/
def subscriptions (self : Protocol P) (requests : List (UInt32 × UInt8)) : List Bytes :=
  (requests.filter fun request => self.advertised.contains request.1).map fun request =>
    subscription request.1 request.2

/-- The weather that a control notifies of is requested. -/
def answerNotifications (commands : Bytes) (nowMs : UInt64) : Exchange P Unit := do
  let self := (← get).self
  let ids ← attempt (notifications commands)
  let wanted : Std.ExtTreeSet UInt32 :=
    .ofList (ids.filter fun id => isWeather id && self.advertised.contains id)
  let requests := wanted.toList.map fun id => [1] ++ leBytes 4 id.toNat
  if requests ≠ [] then send 2 (control requests) nowMs else pure ()

def answerChallenge (data : Bytes) (nowMs : UInt64) : Exchange P Unit := do
  attempt (Except.rejectIf (data.length ≠ 16) (.decodeError "handshake challenge length"))
  let self := (← get).self
  let response := leBytes 4 1 ++ Md5.digest (challengeSeed ++ data) ++ self.nonce
  modify (·.update fun self => { self with
    expectedResponse := some (Md5.digest (challengeSeed ++ self.nonce)) })
  send 2 (message 3 response) nowMs
  transition .verifyResponse nowMs

/-- The response has other bytes than the expected one. -/
def differs (data expected : Bytes) : Prop :=
  data.length ≠ expected.length ∨
    (data.zip expected).foldl (fun diff pair => diff ||| (pair.1 ^^^ pair.2)) (0 : UInt8) ≠ 0

instance (data expected : Bytes) : Decidable (differs data expected) :=
  inferInstanceAs (Decidable (_ ∨ _))

/-- The response to our challenge in phase `verifyResponse`. -/
def verifyResponse (data : Bytes) (nowMs : UInt64) : Exchange P Unit := do
  let self := (← get).self
  modify (·.update fun self => { self with expectedResponse := none })
  let expected ← attempt (self.expectedResponse.elim
    (.error (.decodeError "handshake response state")) .ok)
  attempt (Except.rejectIf (differs data expected)
    (.decodeError "receiver challenge response mismatch"))
  let requests := self.subscriptions
    [(0x1000, 1), (0x2010, 1), (0x2110, 1), (0x20001100, 10), (0x20001104, 10)]
  attempt (Except.rejectIf (¬self.advertised.contains 0x1000)
    (.decodeError "receiver has no product identity message"))
  send 2 (control requests ++ supportedIds) nowMs
  transition .product nowMs

/-- The product identity in phase `product`: the products are subscribed to. -/
def subscribe (nowMs : UInt64) : Exchange P Unit := do
  let self := (← get).self
  let requests := self.subscriptions [(0x2100, 1), (0x2200, 1), (0x3010, 1), (0x20000000, 10),
    (0x2001, 1), (0x2003, 1), (0x2005, 1)]
  let weather := (self.advertised.toList.filter isWeather).map fun id => subscription id 255
  send 2 (control (requests ++ weather)) nowMs
  transition .receiving nowMs

def identify (messageId : UInt32) (nowMs : UInt64) : Exchange P Unit := do
  if messageId = 0x1000 ∧ (← get).self.phase = .product then subscribe nowMs else pure ()

/-- Any other message. Those of the setup are not passed on. -/
def passOn (messageId : UInt32) (attributes : UInt8) (data : Bytes) (nowMs : UInt64) :
    Exchange P Unit := do
  identify messageId nowMs
  if messageId > 4 ∧ (← get).self.phase = .receiving then
    modify (·.deliver (decodeMessage decodeProduct messageId attributes data))
  else pure ()

def handleRecord (nowMs : UInt64) (record : ApplicationRecord) : Exchange P Unit := do
  let phase := (← get).self.phase
  modify (·.update fun self => { self with history := self.history ++ [.handled phase record] })
  match record with
  | .control _ commands =>
    if phase = .receiving then answerNotifications commands nowMs else pure ()
  | .message messageId attributes data =>
    if messageId = 2 ∧ attributes = 0 ∧ phase = .challenge then answerChallenge data nowMs
    else if messageId = 4 ∧ attributes = 0 ∧ phase = .verifyResponse then verifyResponse data nowMs
    else passOn decodeProduct messageId attributes data nowMs

def negotiate (kind : UInt8) (nowMs : UInt64) : Exchange P Unit := do
  attempt (Except.rejectIf (kind ≠ 3) (.decodeError "expected receiver negotiation"))
  send 2 (control [subscription 0 20]) nowMs
  transition .capabilities nowMs

/-- The records of a frame, the supported messages first. What is not answered is acknowledged. -/
def receiveRecords (frame : Frame) (nowMs : UInt64) : Exchange P Unit := do
  let beforeTx := (← get).output.transmissions.length
  attempt (Except.rejectIf (frame.kind ≠ 2) (.decodeError "unexpected repeated negotiation"))
  let records ← feedApplication frame.payload
  records.forM advertise
  requestChallenge nowMs
  records.forM (handleRecord decodeProduct nowMs)
  if (← get).output.transmissions.length = beforeTx then send 2 [] nowMs else pure ()

def receivePayload (frame : Frame) (nowMs : UInt64) : Exchange P Unit := do
  modify (·.update fun self => { self with acknowledgement := frame.sequence })
  if (← get).self.phase = .negotiating then negotiate frame.kind nowMs
  else receiveRecords decodeProduct frame nowMs

def receiveFrame (nowMs : UInt64) (frame : Frame) : Exchange P Unit := do
  attempt (Except.rejectIf (frame.kind ≠ 2 ∧ frame.kind ≠ 3) (.decodeError "unknown transport kind"))
  modify (·.update (acknowledge frame.acknowledgement))
  if frame.payload = [] then pure ()
  else do
    let fresh ← acceptSequence frame
    if fresh then receivePayload decodeProduct frame nowMs else send 2 [] nowMs

def receiveInner (bytes : Bytes) (nowMs : UInt64) : Exchange P Unit := do
  checkClock nowMs
  let frames ← feedFramer bytes
  frames.forM (receiveFrame decodeProduct nowMs)

/-- The frames that are sent again, and the bytes to be written. -/
def retransmit (acknowledgement : UInt8) (nowMs : UInt64) :
    List Pending → Except Fault (List (Pending × Bytes))
  | [] => .ok []
  | pending :: rest => do
    Except.rejectIf (pending.retries ≥ maxRetries) (.decodeError "receiver acknowledgement deadline")
    let frame := { pending.frame with acknowledgement }
    let bytes ← frame.encode
    let later ← retransmit acknowledgement nowMs rest
    return ({ frame, lastSentMs := nowMs, retries := pending.retries + 1 }, bytes) :: later

/-- A failed retransmission fails the call, and nothing is pending then. -/
def retransmitAll (nowMs : UInt64) : Exchange P Unit := do
  let self := (← get).self
  let sent ← attempt (retransmit self.acknowledgement nowMs self.pending)
  modify fun work =>
    { work.update fun self => { self with pending := sent.map Prod.fst } with
      output := { work.output with
        transmissions := work.output.transmissions ++ sent.map Prod.snd } }

def tickInner (nowMs : UInt64) : Exchange P Unit := do
  checkClock nowMs
  let self := (← get).self
  attempt (Except.rejectIf (self.phase ≠ .receiving ∧ nowMs - self.phaseSinceMs ≥ setupTimeoutMs)
    (.decodeError "receiver setup deadline"))
  if self.pending.head?.any fun first => nowMs - first.lastSentMs ≥ retransmitMs then
    retransmitAll nowMs
  else pure ()

/-- Runs a call: its output, or its error and then the connection has failed. -/
def run (self : Protocol P) (call : Exchange P Unit) :
    Protocol P × Except Fault (ProtocolOutput P) :=
  match call.run self.idle with
  | .ok _ work => (work.self, .ok work.output)
  | .error fault work => (work.self.fail, .error fault)

def receive (self : Protocol P) (bytes : Bytes) (nowMs : UInt64) :
    Protocol P × Except Fault (ProtocolOutput P) :=
  self.run (receiveInner decodeProduct bytes nowMs)

def tick (self : Protocol P) (nowMs : UInt64) : Protocol P × Except Fault (ProtocolOutput P) :=
  self.run (tickInner nowMs)

end Protocol

inductive ProtocolCall where
  | receive (bytes : Bytes) (nowMs : UInt64)
  | tick (nowMs : UInt64)

namespace Protocol

variable {P : Type} (decodeProduct : UInt32 → Bytes → Except Fault P)

def call (self : Protocol P) : ProtocolCall → Protocol P × Except Fault (ProtocolOutput P)
  | .receive bytes nowMs => self.receive decodeProduct bytes nowMs
  | .tick nowMs => self.tick nowMs

/-- The protocol after the calls, and what each returned. -/
def calls (self : Protocol P) :
    List ProtocolCall → Protocol P × List (Except Fault (ProtocolOutput P))
  | [] => (self, [])
  | first :: rest =>
    let next := self.call decodeProduct first
    let last := calls next.1 rest
    (last.1, next.2 :: last.2)

end Protocol

end Aerobag.Receiver
