import Aerobag.Notam.Record

/-!
# The NOTAM state and its identity (`notam-state/src/lib.rs`)

A state holds records by their identifier and derives from them the counters, an index by airport,
and a Merkle tree of fixed shape, whose root is the identity of the state. `NotamApplyWork` is left
out.
-/

namespace Aerobag.Notam

def notamProductId : String := "notams"
def bucketCount : Nat := 1024
def groupCount : Nat := 32
def bucketsPerGroup : Nat := bucketCount / groupCount
def liveFeedsSchemaVersion : Nat := 3
def notamLiveFeedContractVersion : Nat := 9

instance : NeZero bucketCount := ⟨by decide⟩

def leafDomain : Bytes := strBytes "aerobag/notams/leaf/v1" ++ [0]
def bucketDomain : Bytes := strBytes "aerobag/notams/bucket/v1" ++ [0]
def groupDomain : Bytes := strBytes "aerobag/notams/group/v1" ++ [0]
def stateDomain : Bytes := strBytes "aerobag/notams/state/v1" ++ [0]

variable {R : Type} (env : NotamEnv R)

/-- `update_frame`: the bytes after their length. -/
def frame (bytes : Bytes) : Bytes := beBytes 8 bytes.length ++ bytes

abbrev Bucket := Std.ExtTreeMap String Bytes

def bucketForId (id : String) : Fin bucketCount :=
  let hash := env.sha256 (strBytes id)
  Fin.ofNat bucketCount
    (((hash.getD 0 0).toNat <<< 2 ||| (hash.getD 1 0).toNat >>> 6) &&& (bucketCount - 1))

def leafMessage (id : String) (canonicalRecord : Bytes) : Bytes :=
  leafDomain ++ frame (strBytes id) ++ frame canonicalRecord

def leafHash (id : String) (canonicalRecord : Bytes) : Bytes :=
  env.sha256 (leafMessage id canonicalRecord)

def recordLeafHash (record : NotamRecord R) : Except NotamStateError Bytes := do
  let canonical ← canonicalRecordBytes env record
  return leafHash env record.id canonical

def bucketMessage (bucket : Nat) (members : Bucket) : Bytes :=
  bucketDomain ++ beBytes 2 bucket ++ beBytes 4 members.size ++
    members.toList.flatMap fun member => frame (strBytes member.1) ++ member.2

def bucketHash (bucket : Nat) (members : Bucket) : Bytes := env.sha256 (bucketMessage bucket members)

def bucketAt (group : Fin groupCount) (i : Fin bucketsPerGroup) : Fin bucketCount :=
  ⟨group * bucketsPerGroup + i, by
    have hgroup := group.isLt
    have hi := i.isLt
    simp only [groupCount, bucketsPerGroup, bucketCount] at *
    omega⟩

def groupMessage (group : Fin groupCount) (bucketHashes : Fin bucketCount → Bytes) : Bytes :=
  groupDomain ++ beBytes 1 group ++
    (List.finRange bucketsPerGroup).flatMap fun i => bucketHashes (bucketAt group i)

def groupHash (group : Fin groupCount) (bucketHashes : Fin bucketCount → Bytes) : Bytes :=
  env.sha256 (groupMessage group bucketHashes)

def stateMessage (groupHashes : Fin groupCount → Bytes) (counters : NotamCounters) : Bytes :=
  stateDomain ++ beBytes 4 liveFeedsSchemaVersion ++ beBytes 4 notamLiveFeedContractVersion ++
    beBytes 8 counters.notamCount ++ beBytes 8 counters.airportNotamCount ++
    beBytes 8 counters.airportNotamsWithMultipleEffects ++
    beBytes 8 counters.airportNotamsWithOtherEffect ++
    (List.finRange groupCount).flatMap groupHashes

def rootHash (groupHashes : Fin groupCount → Bytes) (counters : NotamCounters) : Bytes :=
  env.sha256 (stateMessage groupHashes counters)

structure NotamMerkleIndex where
  bucketMembers : Fin bucketCount → Bucket
  bucketHashes : Fin bucketCount → Bytes
  groupHashes : Fin groupCount → Bytes

namespace NotamMerkleIndex

def recomputeAll (self : NotamMerkleIndex) : NotamMerkleIndex :=
  let bucketHashes := fun bucket : Fin bucketCount => bucketHash env bucket (self.bucketMembers bucket)
  { self with
    bucketHashes := bucketHashes
    groupHashes := fun group => groupHash env group bucketHashes }

def empty : NotamMerkleIndex :=
  recomputeAll env ⟨fun _ => ∅, fun _ => [], fun _ => []⟩

def insertLeaf (self : NotamMerkleIndex) (id : String) (leaf : Bytes) : NotamMerkleIndex :=
  let bucket := bucketForId env id
  { self with
    bucketMembers := Function.update self.bucketMembers bucket
      ((self.bucketMembers bucket).insert id leaf) }

def removeLeaf (self : NotamMerkleIndex) (id : String) : NotamMerkleIndex :=
  let bucket := bucketForId env id
  { self with
    bucketMembers := Function.update self.bucketMembers bucket
      ((self.bucketMembers bucket).erase id) }

/-- The part of `recompute_after_bucket` on the tree: one path up to a group. -/
def recomputePath (self : NotamMerkleIndex) (bucket : Fin bucketCount) : NotamMerkleIndex :=
  let bucketHashes := Function.update self.bucketHashes bucket
    (bucketHash env bucket (self.bucketMembers bucket))
  let group : Fin groupCount := ⟨bucket / bucketsPerGroup, by
    have hbucket := bucket.isLt
    simp only [groupCount, bucketsPerGroup, bucketCount] at *
    omega⟩
  { self with
    bucketHashes := bucketHashes
    groupHashes := Function.update self.groupHashes group (groupHash env group bucketHashes) }

end NotamMerkleIndex

abbrev RecordMap (R : Type) := Std.ExtTreeMap String (NotamRecord R)

abbrev AirportIndex := Std.ExtTreeMap String (List String)

structure NotamState (R : Type) where
  stateId : String
  stateHash : Bytes
  counters : NotamCounters
  records : RecordMap R
  byAirport : AirportIndex
  merkle : NotamMerkleIndex

inductive NotamMutation (R : Type) where
  | upsert (record : NotamRecord R)
  | remove (notamId : String)

def NotamMutation.notamId : NotamMutation R → String
  | upsert record => record.id
  | remove notamId => notamId

/-- `binary_search`: where the identifier is or belongs. -/
def binarySearch (ids : List String) (id : String) : Except Nat Nat :=
  if id ∈ ids then .ok (ids.idxOf id) else .error (ids.takeWhile (· < id)).length

def insertIntoAirportIndex (id : String) :
    List String → EStateM NotamStateError AirportIndex Unit
  | [] => return
  | airportId :: rest => do
    let airportId := normalizeAirportId airportId
    if airportId.isEmpty then insertIntoAirportIndex id rest
    else
      -- `entry(..).or_default()` creates the vector before it is searched.
      modify fun index => index.insert airportId (index.getD airportId [])
      let ids := (← get).getD airportId []
      match binarySearch ids id with
      | .ok _ => throw (.invariant ("NOTAM " ++ id ++ " is already present in its airport index"))
      | .error i =>
        modify fun index => index.insert airportId (ids.insertIdx i id)
        insertIntoAirportIndex id rest

def removeFromAirportIndex (id : String) :
    List String → EStateM NotamStateError AirportIndex Unit
  | [] => return
  | airportId :: rest => do
    let airportId := normalizeAirportId airportId
    if airportId.isEmpty then removeFromAirportIndex id rest
    else
      match (← get)[airportId]? with
      | none => throw (.invariant ("NOTAM " ++ id ++ " is missing airport index " ++ airportId))
      | some ids =>
        match binarySearch ids id with
        | .error _ =>
          throw (.invariant ("NOTAM " ++ id ++ " is missing from airport index " ++ airportId))
        | .ok i =>
          let ids := ids.eraseIdx i
          modify fun index =>
            if ids.isEmpty then index.erase airportId else index.insert airportId ids
          removeFromAirportIndex id rest

abbrev StateM (R : Type) := EStateM NotamStateError (NotamState R)

def onIndex : EStateM NotamStateError AirportIndex Unit → StateM R Unit :=
  Command.zoom (·.byAirport) fun index self => { self with byAirport := index }

def onCounters : EStateM NotamStateError NotamCounters Unit → StateM R Unit :=
  Command.zoom (·.counters) fun counters self => { self with counters := counters }

def recomputeAfterBucket (bucket : Fin bucketCount) (self : NotamState R) : NotamState R :=
  let merkle := self.merkle.recomputePath env bucket
  let stateHash := rootHash env merkle.groupHashes self.counters
  { self with merkle := merkle, stateHash := stateHash, stateId := hexBytes stateHash }

/-- The part of `apply_mutation` that takes out the record with the identifier. -/
def takeOut (notamId : String) : StateM R Unit := do
  let old := (← get).records[notamId]?
  modify fun self => { self with records := self.records.erase notamId }
  match old with
  | none => return
  | some record =>
    onIndex (removeFromAirportIndex record.id record.airportIds)
    onCounters (subtractRecordCounters record)

/-- The part of `apply_mutation` that puts in the new record. -/
def putIn (notamId : String) (record : NotamRecord R) : StateM R Unit := do
  Command.attempt (.rejectIf (record.id ≠ notamId) (.invalidRecord
    ("NOTAM upsert ID " ++ record.id ++ " does not match mutation ID " ++ notamId)))
  let canonical ← Command.attempt (canonicalRecordBytes env record)
  modify fun self => { self with
    merkle := self.merkle.insertLeaf env notamId (leafHash env notamId canonical)
    counters := addRecordCounters self.counters record }
  onIndex (insertIntoAirportIndex record.id record.airportIds)
  modify fun self => { self with records := self.records.insert notamId record }

def applyMutation (mutation : NotamMutation R) : StateM R Unit := do
  let notamId := mutation.notamId
  Command.attempt (validateNotamId env notamId)
  takeOut notamId
  match mutation with
  | .upsert record => putIn env notamId record
  | .remove _ => modify fun self => { self with merkle := self.merkle.removeLeaf env notamId }
  modify (recomputeAfterBucket env (bucketForId env notamId))

def applyMutations : List (NotamMutation R) → StateM R Unit
  | [] => return
  | mutation :: rest => do
    applyMutation env mutation
    applyMutations rest

structure NotamCheckpoint (R : Type) where
  schemaVersion : Nat
  product : String
  contractVersion : Nat
  stateId : String
  counters : NotamCounters
  records : List (NotamRecord R)

structure NotamDelta (R : Type) where
  schemaVersion : Nat
  product : String
  contractVersion : Nat
  fromStateId : String
  toStateId : String
  counters : NotamCounters
  mutations : List (NotamMutation R)

def NotamCheckpoint.new (stateId : String) (counters : NotamCounters)
    (records : List (NotamRecord R)) : NotamCheckpoint R :=
  ⟨liveFeedsSchemaVersion, notamProductId, notamLiveFeedContractVersion, stateId, counters, records⟩

def NotamDelta.new (fromStateId toStateId : String) (counters : NotamCounters)
    (mutations : List (NotamMutation R)) : NotamDelta R :=
  ⟨liveFeedsSchemaVersion, notamProductId, notamLiveFeedContractVersion, fromStateId, toStateId,
    counters, mutations⟩

def validateContract (schemaVersion : Nat) (product : String) (contractVersion : Nat) :
    Except NotamStateError Unit := do
  .rejectIf (schemaVersion ≠ liveFeedsSchemaVersion) (.contract ("unsupported live-feed schema " ++
    toString schemaVersion ++ "; expected " ++ toString liveFeedsSchemaVersion))
  .rejectIf (product ≠ notamProductId) (.contract ("NOTAM payload declares product " ++ product))
  .rejectIf (contractVersion ≠ notamLiveFeedContractVersion) (.contract
    ("unsupported NOTAM contract " ++ toString contractVersion ++ "; expected " ++
      toString notamLiveFeedContractVersion))

/-- The loop of `validate_id_order`, after an identifier `previous`. -/
def validateIdOrder (label : String) : Option String → List String → Except NotamStateError Unit
  | _, [] => .ok ()
  | previous, id :: rest => do
    validateNotamId env id
    .rejectIf (previous.any fun before => decide (¬ before < id)) (.invalidOrdering
      ("NOTAM " ++ label ++ " IDs are not strictly ordered: " ++ env.debug (previous.getD "") ++
        " then " ++ env.debug id))
    validateIdOrder label (some id) rest

def validateMutationOrder (mutations : List (NotamMutation R)) : Except NotamStateError Unit :=
  validateIdOrder env "mutation" none (mutations.map (·.notamId))

def validateRecordOrder (records : List (NotamRecord R)) : Except NotamStateError Unit :=
  validateIdOrder env "checkpoint record" none (records.map (·.id))

variable (self : NotamState R)

namespace NotamState

/-- The state with the given parts; its identity is computed. -/
def ofParts (counters : NotamCounters) (records : RecordMap R) (byAirport : AirportIndex)
    (merkle : NotamMerkleIndex) : NotamState R :=
  let stateHash := rootHash env merkle.groupHashes counters
  ⟨hexBytes stateHash, stateHash, counters, records, byAirport, merkle⟩

def empty : NotamState R := ofParts env 0 ∅ ∅ (.empty env)

def requireTarget (expectedStateId : String)
    (expectedCounters : NotamCounters) : Except NotamStateError Unit := do
  .rejectIf (self.counters ≠ expectedCounters) (.counterMismatch expectedCounters self.counters)
  .rejectIf (self.stateId ≠ expectedStateId) (.targetStateMismatch expectedStateId self.stateId)

def checkpoint : NotamCheckpoint R :=
  .new self.stateId self.counters (self.records.toList.map Prod.snd)

end NotamState

/-- The loop variables of `from_checkpoint`. -/
structure Loading (R : Type) where
  merkle : NotamMerkleIndex
  counters : NotamCounters
  records : RecordMap R
  byAirport : AirportIndex

/-- The inner loop of `from_checkpoint`. -/
def pushAirports (id : String) (airportIds : List String) (index : AirportIndex) : AirportIndex :=
  airportIds.foldl (fun index airportId =>
    let airportId := normalizeAirportId airportId
    if airportId.isEmpty then index
    else index.insert airportId (index.getD airportId [] ++ [id])) index

def Loading.add (self : Loading R) (record : NotamRecord R) : Except NotamStateError (Loading R) := do
  let canonical ← canonicalRecordBytes env record
  return {
    merkle := self.merkle.insertLeaf env record.id (leafHash env record.id canonical)
    counters := addRecordCounters self.counters record
    records := self.records.insert record.id record
    byAirport := pushAirports record.id record.airportIds self.byAirport }

def NotamState.fromCheckpoint (checkpoint : NotamCheckpoint R) :
    Except NotamStateError (NotamState R) := do
  validateContract checkpoint.schemaVersion checkpoint.product checkpoint.contractVersion
  validateRecordOrder env checkpoint.records
  let loaded ← checkpoint.records.foldlM (Loading.add env) ⟨.empty env, 0, ∅, ∅⟩
  let state := NotamState.ofParts env loaded.counters loaded.records loaded.byAirport
    (loaded.merkle.recomputeAll env)
  state.requireTarget checkpoint.stateId checkpoint.counters
  return state

def applyDelta (delta : NotamDelta R) : StateM R Unit := do
  Command.attempt (validateContract delta.schemaVersion delta.product delta.contractVersion)
  let self ← get
  Command.attempt (.rejectIf (self.stateId ≠ delta.fromStateId)
    (.baseStateMismatch delta.fromStateId self.stateId))
  Command.attempt (validateMutationOrder env delta.mutations)
  applyMutations env delta.mutations
  let self ← get
  Command.attempt (self.requireTarget delta.toStateId delta.counters)

/-- One record of the loop of `recompute_record_identity`. -/
def addIdentity (self : NotamMerkleIndex × NotamCounters) (record : NotamRecord R) :
    Except NotamStateError (NotamMerkleIndex × NotamCounters) := do
  let canonical ← canonicalRecordBytes env record
  return (self.1.insertLeaf env record.id (leafHash env record.id canonical),
    addRecordCounters self.2 record)

def recomputeRecordIdentity (records : List (NotamRecord R)) :
    Except NotamStateError (String × NotamCounters) := do
  let (merkle, counters) ← records.foldlM (addIdentity env) (.empty env, 0)
  return (hexBytes (rootHash env (merkle.recomputeAll env).groupHashes counters), counters)

def NotamState.fullyRecomputedStateId : Except NotamStateError String :=
  (recomputeRecordIdentity env (self.records.toList.map Prod.snd)).map (·.1)

inductive Operation (R : Type) where
  | mutate (mutation : NotamMutation R)
  | apply (delta : NotamDelta R)
  /-- The state is replaced by the one of a checkpoint. -/
  | load (checkpoint : NotamCheckpoint R)

def Operation.run : Operation R → StateM R Unit
  | mutate mutation => applyMutation env mutation
  | apply delta => applyDelta env delta
  | load checkpoint => do
    let state ← Command.attempt (NotamState.fromCheckpoint env checkpoint)
    set state

def NotamState.step (operation : Operation R) : Option (NotamState R) :=
  some (Command.final (operation.run env) self)

def NotamState.stepOk (operation : Operation R) : Option (NotamState R) :=
  match (operation.run env).run self with
  | .ok _ state => some state
  | .error _ _ => none

end Aerobag.Notam
