import Aerobag.Client.Engine
import Aerobag.Server.Events

/-!
# One event stream connection (`aerobag-cloud-server/src/http.rs`, `events`)

The server, one connection on which it tells a client about an account's root, and the client. The
labels are the steps of the three in any order. The client reads what was sent, until the connection
ends.
-/

namespace Aerobag.EventStream

open Client Server

/-- A call of `heartbeat_event`, after a lag sent as a `Reset`. Its first statement saw `sequence`.
-/
structure Beat where
  reset : Bool
  sequence : Option Database

/-- Where the server is with the stream. -/
inductive Phase where
  | idle
  /-- In `initial_sse_events`, whose statements have seen these. -/
  | opening (seen : List Database)
  | streaming (lastSequence : Nat) (beat : Option Beat)

variable {J : Type}

/-- The server, one event stream and its client. -/
structure Connection (J : Type) where
  store : Store
  /-- The event of a committed root that is not broadcast yet. -/
  unsent : Option AcsSseEvent
  phase : Phase
  /-- The account's events in the broadcast receiver. -/
  queue : List AcsSseEvent
  /-- What the client's transport will report. -/
  wire : List CloudEventStreamEventKind
  streamId : Nat
  client : CloudEngine J
  /-- The root in a response of the server that is on its way to the client. -/
  answer : Option (Nat × Option String)
  /-- The reports set `force_poll` since the root last changed. -/
  polled : Bool

/-- A step of the server, of the stream or of the client. -/
inductive ConnectionLabel where
  | server (label : Label)
  | broadcast
  | subscribe
  | statement
  /-- The initial events are sent, behind the headers of the response. -/
  | respond
  | receive
  /-- The receiver lost its oldest events, `dropped` of them the account's. -/
  | lag (dropped : Nat)
  | heartbeat
  | beatSequence
  | beatRoot
  | report (nowEpochMs : Int)
  /-- The server answers the client with the account's root. -/
  | serve
  /-- The client makes the answer its root, and clears or sets `force_poll`. -/
  | accept (forcePoll : Bool)
  | lose

/-- The account's revision and root hash in the database. -/
def currentRoot (db : Database) (account : String) : Nat × Option String :=
  (((db.roots.get? account).map RootRow.revision).getD 0,
    (db.roots.get? account).map RootRow.rootHash)

/-- Calls that change roots hold the writing connection until their event is broadcast. -/
def changesRoots : Label → Bool
  | .compareAndSwapRoot .. | .deleteAccount _ => true
  | _ => false

def committedEvent (P : Primitives) (cfg : StoreConfig) (account : String) (s : Store) :
    Label → Option AcsSseEvent
  | .compareAndSwapRoot accountLocator request nowEpochMs filesystemFreeBytes egress =>
    match Server.compareAndSwapRoot P cfg s.db accountLocator request nowEpochMs
        filesystemFreeBytes egress with
    | (.ok (.committed root), db) =>
      if accountLocator = account then
        some (.rootChanged (eventSequence db account) root.revision root.rootHash)
      else none
    | _ => none
  | _ => none

/-- The event of a lag: a heartbeat sent as a `Reset`. -/
def asReset : AcsSseEvent → AcsSseEvent
  | .heartbeat sequence rootRevision rootHash => .reset sequence rootRevision rootHash
  | event => event

def acsOf (client : CloudEngine J) : Option AcsAccountState :=
  client.persistent.account.bind CloudAccount.acs

def lastEventSequence (client : CloudEngine J) : Option Nat :=
  (acsOf client).bind AcsAccountState.lastEventSequence

/-- The root that the client has stored. -/
def storedRoot (client : CloudEngine J) : Option (Nat × Option String) :=
  (acsOf client).map fun acs => (acs.rootRevision, acs.rootHash)

/-- The client after it has read or committed a root. -/
def adoptRoot (client : CloudEngine J) (root : Nat × Option String) (forcePoll : Bool) :
    CloudEngine J :=
  { client with
    persistent.account := client.persistent.account.map fun account =>
      { account with
        acs := account.acs.map fun acs => { acs with rootRevision := root.1, rootHash := root.2 } }
    persistent.forcePoll := forcePoll }

/-- The report sets `force_poll`, whether or not it is set already. -/
def forcesPoll (event : CloudEventStreamEvent) (nowEpochMs : Int) (client : CloudEngine J) : Bool :=
  (Command.final (reportEventStreamEvent event nowEpochMs)
    { client with persistent.forcePoll := false }).persistent.forcePoll

namespace Connection

def initial (streamId : Nat) (client : CloudEngine J) : Connection J where
  store := .created
  unsent := none
  phase := .idle
  queue := []
  wire := []
  streamId := streamId
  client := client
  answer := none
  polled := false

variable (P : Primitives) (cfg : StoreConfig) (account : String) (c : Connection J)

/-- A step of the server. A connection ends with the process. -/
def serverStep (label : Label) : Option (Connection J) :=
  if c.unsent.isSome && changesRoots label then none
  else (c.store.step P cfg label).bind fun store =>
    if store.process = .running then
      match committedEvent P cfg account c.store label with
      | some event => some { c with store, unsent := some event, polled := false }
      | none => some { c with store }
    else
      match c.phase with
      | .idle => some { c with store, unsent := none }
      | _ => none

def respond (seen : List Database) : Option (Connection J) :=
  (OpeningStream.reads ⟨c.store, [], seen⟩).bind fun reads =>
    match reads.initialSseEvents account (lastEventSequence c.client) with
    | .error _ => none
    | .ok events =>
      let last := events.foldl (fun last event => max last event.sequence) 0
      some { c with
        phase := .streaming last none
        wire := .connected :: events.map fun event => .message (some (.ok event)) }

/-- The next event of the receiver; one that is not new is skipped. -/
def receive (lastSequence : Nat) : Option (Connection J) :=
  match c.queue with
  | [] => none
  | event :: queue =>
    if event.sequence > lastSequence then
      some { c with
        queue
        phase := .streaming event.sequence none
        wire := c.wire ++ [.message (some (.ok event))] }
    else some { c with queue }

def beatRoot (lastSequence : Nat) (reset : Bool) (sequence : Database) : Option (Connection J) :=
  match heartbeatEvent sequence c.store.db account with
  | .error _ => none
  | .ok event =>
    if reset then
      some { c with
        phase := .streaming (asReset event).sequence none
        wire := c.wire ++ [.message (some (.ok (asReset event)))] }
    else
      some { c with
        phase := .streaming (max lastSequence event.sequence) none
        wire := c.wire ++ [.message (some (.ok event))] }

def report (nowEpochMs : Int) : Option (Connection J) :=
  match c.wire with
  | [] => none
  | kind :: wire =>
    let event : CloudEventStreamEvent := ⟨c.streamId, kind, none⟩
    some { c with
      wire
      client := Command.final (reportEventStreamEvent event nowEpochMs) c.client
      polled := c.polled || forcesPoll event nowEpochMs c.client }

def step : ConnectionLabel → Option (Connection J)
  | .server label => c.serverStep P cfg account label
  | .broadcast =>
    match c.unsent, c.phase with
    | none, _ => none
    | some _, .idle => some { c with unsent := none }
    | some event, _ => some { c with unsent := none, queue := c.queue ++ [event] }
  | .subscribe =>
    match c.phase with
    | .idle => if c.store.process = .running then some { c with phase := .opening [] } else none
    | _ => none
  | .statement =>
    match c.phase with
    | .opening seen => some { c with phase := .opening (seen ++ [c.store.db]) }
    | _ => none
  | .respond =>
    match c.phase with
    | .opening seen => c.respond account seen
    | _ => none
  | .receive =>
    match c.phase with
    | .streaming lastSequence none => c.receive lastSequence
    | _ => none
  | .lag dropped =>
    match c.phase with
    | .streaming lastSequence none =>
      some { c with queue := c.queue.drop dropped, phase := .streaming lastSequence (some ⟨true, none⟩) }
    | _ => none
  | .heartbeat =>
    match c.phase with
    | .streaming lastSequence none =>
      some { c with phase := .streaming lastSequence (some ⟨false, none⟩) }
    | _ => none
  | .beatSequence =>
    match c.phase with
    | .streaming lastSequence (some ⟨reset, none⟩) =>
      some { c with phase := .streaming lastSequence (some ⟨reset, some c.store.db⟩) }
    | _ => none
  | .beatRoot =>
    match c.phase with
    | .streaming lastSequence (some ⟨reset, some sequence⟩) => c.beatRoot account lastSequence reset sequence
    | _ => none
  | .report nowEpochMs => c.report nowEpochMs
  | .serve =>
    match c.phase, c.answer with
    | .idle, _ => none
    | _, some _ => none
    | _, none => some { c with answer := some (currentRoot c.store.db account) }
  | .accept forcePoll =>
    match c.answer with
    | none => none
    | some root => some { c with client := adoptRoot c.client root forcePoll, answer := none }
  | .lose => some { c with answer := none }

/-- Nothing is on its way to the client any more. -/
def Settled : Prop :=
  (∃ lastSequence, c.phase = .streaming lastSequence none) ∧ c.unsent = none ∧ c.queue = [] ∧
    c.wire = []

end Connection

end Aerobag.EventStream
