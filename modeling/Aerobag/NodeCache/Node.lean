import Mathlib.Data.Finset.Basic
import Mathlib.Data.String.Basic
import Mathlib.Logic.Function.Basic

/-!
# The directory of a build node (`preprocessor-cli/src/product_build/node_cache.rs`)

Processes build a node in a directory that they share. A call of `run_cached_node` goes from one
file operation to the next; other calls and crashes come in between.

File modes are left out: a call makes writable what it then changes. A finished owner makes the
directory read-only once it has dropped the lock, and we leave out that this comes between two
operations of another call. The fetch references of a record are left out too. They are read from
the directory by the call that owns it or is about to return a hit, and no decision depends on them.
-/

namespace Aerobag.NodeCache

/-- `build-record.json`, with the number of the build. -/
structure NodeRecord where
  fingerprint : String
  cacheHit : Bool
  build : Nat
  deriving DecidableEq

/-- It is there before its text is complete. -/
inductive RecordFile where
  | incomplete (build : Nat)
  | complete (record : NodeRecord)
  deriving DecidableEq

/-- `.build-lock`, with the one call that created it. -/
structure LockFile where
  creator : Nat
  pid : Option Nat
  modifiedMs : Nat
  deriving DecidableEq

structure PreparedNode where
  fingerprint : String
  expectedOutputs : List String

inductive Entry where
  | record
  | output (path : String)
  deriving DecidableEq

inductive Phase where
  /-- In `try_load_node_record`. -/
  | checking
  | reading
  | looking (record : NodeRecord) (paths : List String)
  | claiming
  /-- In `remove_stale_lock_if_needed`. -/
  | inspecting
  | readingPid
  | judging (pid : Option Nat)
  | removing
  /-- The lock is to be filled, and the directory emptied. -/
  | locked
  | listing
  | resetting (entries : List Entry)
  | building (build : Nat)
  | recording (build : Nat)
  | dropping
  | hit (record : NodeRecord)
  | failed
  /-- The call has returned, or its process has ended, or it has not begun. -/
  | over
  deriving DecidableEq

/-- The call empties and fills the directory. -/
def Phase.rebuilds : Phase → Bool
  | .locked | .listing | .resetting _ | .building _ | .recording _ => true
  | _ => false

def Phase.owns (phase : Phase) : Bool := phase.rebuilds || phase = .dropping

structure State where
  alive : Finset Nat
  calls : Nat
  pid : Nat → Nat
  phase : Nat → Phase
  lock : Option LockFile
  record : Option RecordFile
  /-- The other files of the directory, with the build that has written each. -/
  outputs : Std.ExtTreeMap String Nat
  builds : Nat
  /-- The builds that finished, and the records of cache hits. -/
  finished : Finset Nat
  handed : List NodeRecord

def State.initial : State :=
  ⟨∅, 0, fun _ => 0, fun _ => .over, none, none, ∅, 0, ∅, []⟩

namespace State

variable (s : State) (c : Nat)

def goto (phase : Phase) : State := { s with phase := Function.update s.phase c phase }

def entries : List Entry :=
  s.record.toList.map (fun _ => .record) ++ s.outputs.keys.map .output

def remove : Entry → State
  | .record => { s with record := none }
  | .output path => { s with outputs := s.outputs.erase path }

end State

def State.hasBuild (node : PreparedNode) (s : State) : Bool :=
  match s.record with
  | some (.complete record) => record.fingerprint = node.fingerprint ∧
      ∀ path ∈ node.expectedOutputs, path ∈ s.outputs
  | _ => false

/-- What a call does next, where the directory does not say it. -/
inductive Act where
  | go (nowMs : Nat)
  | remove (entry : Entry)
  | write (path : String)
  | finish
  | giveUp
  deriving DecidableEq

inductive Label where
  | spawn (pid : Nat)
  | crash (pid : Nat)
  | call (pid : Nat)
  | act (c : Nat) (act : Act)
  deriving DecidableEq

def malformedLockGraceMs : Nat := 30000

variable (node : PreparedNode) (s : State) (c : Nat)

def loadNodeRecord : State :=
  match s.record with
  | some (.complete record) =>
    if record.fingerprint = node.fingerprint then s.goto c (.looking record node.expectedOutputs)
    else s.goto c .claiming
  | _ => s.goto c .failed

/-- `claim_or_wait_for_node`: the lock is created unless it is there. -/
def createLock (nowMs : Nat) : State :=
  match s.lock with
  | none => { s.goto c .locked with lock := some ⟨c, none, nowMs⟩ }
  | some _ => s.goto c .inspecting

/-- Its file may have been removed. -/
def writePid (nowMs : Nat) : State :=
  { s.goto c .listing with
    lock := s.lock.map fun file => if file.creator = c then ⟨c, some (s.pid c), nowMs⟩ else file }

/-- A lock without a process is stale when it is old. -/
def judgeMalformed (nowMs : Nat) : State :=
  match s.lock with
  | none => s.goto c .checking
  | some file =>
    if nowMs - file.modifiedMs < malformedLockGraceMs then s.goto c .checking else s.goto c .removing

/-- `write_node_record`, once the text is written to the file that was opened. -/
def completeRecord (build : Nat) : State :=
  { s.goto c .dropping with
    record := if s.record = some (.incomplete build) then
      some (.complete ⟨node.fingerprint, false, build⟩) else s.record
    finished := insert build s.finished }

def next : Phase → Act → Option State
  | .checking, .go _ => some (s.goto c (if s.record.isSome then .reading else .claiming))
  | .reading, .go _ => some (loadNodeRecord node s c)
  | .looking record (path :: paths), .go _ =>
    some (s.goto c (if path ∈ s.outputs then .looking record paths else .claiming))
  | .looking record [], .go _ => some { s.goto c (.hit { record with cacheHit := true }) with
      handed := { record with cacheHit := true } :: s.handed }
  | .claiming, .go nowMs => some (createLock s c nowMs)
  | .inspecting, .go _ => some (s.goto c (if s.lock.isSome then .readingPid else .checking))
  | .readingPid, .go _ => some (s.goto c (.judging (s.lock.bind (·.pid))))
  | .judging (some pid), .go _ => some (s.goto c (if pid ∈ s.alive then .checking else .removing))
  | .judging none, .go nowMs => some (judgeMalformed s c nowMs)
  | .removing, .go _ => some { s.goto c .checking with lock := none }
  | .locked, .go nowMs => some (writePid s c nowMs)
  | .listing, .go _ => some (s.goto c (.resetting s.entries))
  | .resetting entries, .remove entry =>
    if entry ∉ entries then none
    else if entry ∈ s.entries then
      some ((s.remove entry).goto c (.resetting (entries.filter (· ≠ entry))))
    else some (s.goto c .failed)
  | .resetting [], .go _ => some { s.goto c (.building s.builds) with builds := s.builds + 1 }
  | .building build, .write path => some { s with outputs := s.outputs.insert path build }
  | .building build, .finish =>
    some { s.goto c (.recording build) with record := some (.incomplete build) }
  | .building _, .giveUp => some (s.goto c .dropping)
  | .recording build, .go _ => some (completeRecord node s c build)
  | .dropping, .go _ => some { s.goto c .over with lock := none }
  | _, _ => none

def step : Label → Option State
  | .spawn pid => some { s with alive := insert pid s.alive }
  | .crash pid => some { s with
      alive := s.alive.erase pid
      phase := fun c => if s.pid c = pid then .over else s.phase c }
  | .call pid =>
    if pid ∈ s.alive then some { s with
      calls := s.calls + 1
      pid := Function.update s.pid s.calls pid
      phase := Function.update s.phase s.calls .checking }
    else none
  | .act c act => next node s c (s.phase c) act

end Aerobag.NodeCache
