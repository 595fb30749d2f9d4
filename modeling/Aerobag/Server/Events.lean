import Aerobag.Server.System

/-!
# Change events (`aerobag-cloud-server/src/store.rs`)

What the store tells a client that opens an event stream. Writes can be committed between two
statements of these functions, which therefore take one database for each statement.
-/

namespace Aerobag.Server

def accountEvents (db : Database) (accountLocator : String) : List RootEventRow :=
  (db.rootEvents.rows.filter fun event => event.accountLocator = accountLocator).insertionSort
    fun a b => a.sequence ≤ b.sequence

/-- With the databases that its two statements see. -/
def currentEventState (sequence root : Database) (accountLocator : String) :
    StoreResult (Nat × Nat × Option String) :=
  match sequence.accounts.get? accountLocator with
  | none => .error (.new .notFound "cloud account does not exist")
  | some account =>
    let root := root.roots.get? accountLocator
    .ok (account.eventSequence, (root.map RootRow.revision).getD 0, root.map RootRow.rootHash)

def eventStateAt (db : Database) (accountLocator : String) (cursor : Nat) :
    StoreResult (Nat × Option String) :=
  if cursor = 0 then .ok (0, none)
  else
    match ((accountEvents db accountLocator).filter fun event => event.sequence ≤ cursor).getLast? with
    | none => .error (.new .conflict "SSE cursor state is no longer retained")
    | some event => .ok (event.rootRevision, some event.rootHash)

/-- What the statements of `initial_sse_events` see, in order. -/
structure InitialReads where
  serviceMode : Database
  accountMode : Database
  sequence : Database
  root : Database
  minimum : Database
  cursorState : Database
  events : Database

namespace InitialReads

variable (reads : InitialReads)

def ensureAccountReadable (accountLocator : String) : StoreResult Unit := do
  enforceMode reads.serviceMode.serviceMode false "service"
  match reads.accountMode.accounts.get? accountLocator with
  | none => throw (.new .notFound "cloud account does not exist")
  | some account => enforceMode account.mode false "account"

def initialSseEvents (accountLocator : String) (cursor : Option Nat) :
    StoreResult (List AcsSseEvent) := do
  reads.ensureAccountReadable accountLocator
  let (currentSequence, currentRevision, currentHash) ←
    currentEventState reads.sequence reads.root accountLocator
  match cursor with
  | none => return [.ready currentSequence currentRevision currentHash]
  | some cursor =>
    if cursor > currentSequence then return [.reset currentSequence currentRevision currentHash]
    else
      let minimumRetained :=
        ((accountEvents reads.minimum accountLocator).map RootEventRow.sequence).min?
      if minimumRetained.any fun minimum => cursor < minimum ∧ ¬ (cursor = 0 ∧ minimum = 1) then
        return [.reset currentSequence currentRevision currentHash]
      else
        let (revision, hash) ← eventStateAt reads.cursorState accountLocator cursor
        return .ready cursor revision hash ::
          ((accountEvents reads.events accountLocator).filter fun event =>
            cursor < event.sequence).map fun event =>
              .rootChanged event.sequence event.rootRevision event.rootHash

end InitialReads

/-- With the databases that its two statements see. -/
def heartbeatEvent (sequence root : Database) (accountLocator : String) :
    StoreResult AcsSseEvent := do
  let (sequence, rootRevision, rootHash) ← currentEventState sequence root accountLocator
  return .heartbeat sequence rootRevision rootHash

/-- What the call expected, and the hash of the root it wrote. -/
structure RootCommit where
  expectedRevision : Nat
  expectedRootHash : Option String
  rootHash : String
  deriving DecidableEq, Repr

/-- The commits after one more step. A deletion of the account takes them away. -/
def Store.commitsAfter (P : Primitives) (cfg : StoreConfig) (account : String) (s : Store)
    (commits : List RootCommit) : Label → List RootCommit
  | .compareAndSwapRoot accountLocator request nowEpochMs filesystemFreeBytes egress =>
    match (Server.compareAndSwapRoot P cfg s.db accountLocator request nowEpochMs
        filesystemFreeBytes egress).1 with
    | .ok (.committed root) =>
      if accountLocator = account then
        commits ++ [⟨request.expectedRevision, request.expectedRootHash, root.rootHash⟩]
      else commits
    | _ => commits
  | .deleteAccount accountLocator => if accountLocator = account then [] else commits
  | _ => commits

/-- A store, the commits of the root, and what one call of `initial_sse_events` has seen. -/
structure OpeningStream where
  store : Store
  commits : List RootCommit
  seen : List Database

inductive OpeningLabel where
  | server (label : Label)
  | statement

namespace OpeningStream

def created : OpeningStream := ⟨.created, [], []⟩

/-- What the statements have seen, once the last one has run. -/
def reads (o : OpeningStream) : Option InitialReads :=
  match o.seen with
  | [serviceMode, accountMode, sequence, root, minimum, cursorState, events] =>
    some { serviceMode, accountMode, sequence, root, minimum, cursorState, events }
  | _ => none

def step (P : Primitives) (cfg : StoreConfig) (account : String) (o : OpeningStream) :
    OpeningLabel → Option OpeningStream
  | .server label =>
    if o.reads.isSome then none
    else (o.store.step P cfg label).map fun store =>
      { o with store, commits := o.store.commitsAfter P cfg account o.commits label }
  | .statement =>
    if o.store.process = .running ∧ o.seen.length < 7 then
      some { o with seen := o.seen ++ [o.store.db] }
    else none

end OpeningStream

end Aerobag.Server
