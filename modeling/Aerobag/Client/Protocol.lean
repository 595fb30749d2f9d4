import Aerobag.Client.Device
import Mathlib.Logic.Relation

/-!
# The synchronization protocol

The synchronization without the timers, failures and event streams of the engine. `CloudEngine.sync`
maps an engine to its abstract state; `RootPage` says which page belongs to the hash of a root.
-/

namespace Aerobag.Client

/-- What identifies an account: the server and the secret that all keys are derived from. -/
structure AccountRef where
  baseUrl : Option String
  rootSecretBase64 : String
  deriving DecidableEq, Repr

def CloudAccount.ref (account : CloudAccount) : AccountRef :=
  ⟨account.acs.map (·.baseUrl), account.rootSecretBase64⟩

section Pages

variable {J F : Type} (env : CloudEnv J F) (account : AccountRef)

def Opens (kind : AcsEncryptedValueKind) (valueId role hash : String) (json : J) : Prop :=
  ∃ value secret, value.authenticatedHash env.primitives kind valueId = .ok hash ∧
    decodeRootSecret env account.rootSecretBase64 = .ok secret ∧
    openAcsValue env secret value role kind valueId = .ok json

/-- `node` is what a root with the given hash holds. -/
def RootNode (hash : String) (node : CloudNode) : Prop :=
  ∃ json, Opens env account .root acsFixedRootId "state_node" hash json ∧
    env.codec.nodeFromJson json = .ok node

/-- `page` is the page that `node` names, read in the client's format. -/
def NodePage (node : CloudNode) (page : CloudPage J) : Prop :=
  ∃ json, Opens env account .object node.merkleRootId "merkle_page" node.merkleRootHash json ∧
    env.format.current.decodePage json = .ok page

def RootPage (hash : String) (page : CloudPage J) : Prop :=
  ∃ node, RootNode env account hash node ∧ node.version = env.format.version ∧
    NodePage env account node page

end Pages

structure Sync (J : Type) where
  account : Option AccountRef
  cached : RecordMap J
  pending : KeySet
  workflow : Option CloudWorkflow
  localRevision : Nat
  observed : Option ObservedRoot
  upgradeFrom : Option Nat
  recordsFormat : Nat
  version : Nat

variable {J F : Type}

def CloudPersistentState.sync (self : CloudPersistentState J) : Sync J where
  account := self.account.map (·.ref)
  cached := self.records.cached
  pending := self.records.pendingKeys
  workflow := self.workflow
  localRevision := self.localRevision
  observed := none
  upgradeFrom := none
  recordsFormat := self.recordsFormat
  version := self.version

def CloudPersistentState.stored (self : CloudPersistentState J) : Sync J :=
  { self.sync with workflow := self.workflow.map resumedWorkflow }

def CloudEngine.sync (self : CloudEngine J) : Sync J :=
  { self.persistent.sync with observed := self.observedRoot, upgradeFrom := self.upgradeFrom }

/-- The workflows in which nothing is staged and no page is awaited. -/
def CloudWorkflow.Idle : Option CloudWorkflow → Prop
  | some (.acsCreatePage ..) | some (.acsCommitRoot ..) | some (.acsReadPage ..) => False
  | _ => True

namespace Sync

variable (env : CloudEnv J F)

/-- The records are in the client's format, and the state was written by this version. -/
structure Current (s : Sync J) : Prop where
  format : s.recordsFormat = env.format.version
  version : s.version = cloudPersistenceVersion

/-- The root that the process has read and whose page it has reconciled. -/
def Verified (s : Sync J) (root : ObservedRoot) : Prop :=
  s.observed = some root ∧ root.version = env.format.version ∧ root.recordsVerified = true

inductive Edited (s : Sync J) : String → CloudRecord J → Prop where
  /-- A record with a time, which is later than that of the record it replaces. -/
  | timed {key record} (hkey : stripStart key aircraftDefinitionKeyStart = none)
      (htime : ∀ old, s.cached[key]? = some old → old.time.succ ≤ record.time) :
      Edited s key record
  | definition {definition record}
      (hencode : CloudRecord.encode env.codec.toRecordCodec .aircraft definition none = .ok record) :
      Edited s (aircraftDefinitionKeyStart ++
        contentHash env.primitives env.codec.toRecordCodec definition) record
  | receipt {id record} (hnew : s.cached[serviceReceiptStart ++ id]? = none) :
      Edited s (serviceReceiptStart ++ id) record

def edit (s : Sync J) (key : String) (record : CloudRecord J) : Sync J :=
  { s with
    cached := s.cached.insert key record
    pending := if s.account.isSome then s.pending.insert key else s.pending
    localRevision := s.localRevision + 1 }

/-- Whether a record of a page replaces the record that the device has, if any. -/
def Wins (purpose : ReadPurpose) (isPending : Prop) (mine : Option (CloudRecord J))
    (remote : CloudRecord J) : Prop :=
  (purpose = .link ∧ ¬ isPending) ∨ ∀ record, mine = some record →
    compareCloudRecords env.primitives env.codec.toRecordCodec remote record ≠ .lt

/-- The records and pending keys of `t` are those of `s` reconciled with a page, key by key. -/
structure Reconciled (purpose : ReadPurpose) (page : RecordMap J) (s t : Sync J) : Prop where
  adopted : ∀ {key remote}, page[key]? = some remote →
    Wins env purpose (key ∈ s.pending) s.cached[key]? remote →
      t.cached[key]? = some remote ∧ key ∉ t.pending
  kept : ∀ {key remote}, page[key]? = some remote →
    ¬ Wins env purpose (key ∈ s.pending) s.cached[key]? remote →
      t.cached[key]? = s.cached[key]? ∧ key ∈ t.pending
  unknown : ∀ {key}, page[key]? = none →
    t.cached[key]? = s.cached[key]? ∧
      (key ∈ t.pending ↔ key ∈ s.pending ∨ s.cached[key]?.isSome)

/-- What is published: the device's records, on the verified root or as a first root; or the
migrated records of an older root, with the user's consent. -/
inductive Publishes (s : Sync J) (page : CloudPage J) (expectedRootHash : Option String) :
    PublicationPurpose → Prop where
  | publish {root} (hroot : Verified env s root) (hhash : expectedRootHash = some root.hash)
      (hpage : page.records = s.cached) : Publishes s page expectedRootHash .publish
  | createAccount (hhash : expectedRootHash = none) (hpage : page.records = s.cached) :
      Publishes s page expectedRootHash .createAccount
  | upgrade (hconsent : s.upgradeFrom.isSome) : Publishes s page expectedRootHash .upgrade

/-- The roots that responses may carry, and whether the user may consent to an upgrade. -/
structure Input where
  served : AcsRootSnapshot → Prop
  consents : Prop

inductive Step (input : Input) (s : Sync J) : Sync J → Prop where
  | quiet : Step input s s
  | idle {workflow source} (hidle : CloudWorkflow.Idle workflow)
      (hsource : source = none ∨ source = s.upgradeFrom) :
      Step input s { s with workflow := workflow, upgradeFrom := source }
  /-- The root it knew is not the account's root any more. -/
  | forget {workflow source} (hidle : CloudWorkflow.Idle workflow)
      (hsource : source = none ∨ source = s.upgradeFrom) :
      Step input s { s with workflow := workflow, observed := none, upgradeFrom := source }
  | consent {source : Nat} (hconsents : input.consents) :
      Step input s { s with upgradeFrom := some source }
  | link {account : AccountRef} {pending workflow} (hnone : s.account = none)
      (hpending : pending = ∅ ∨ pending = s.pending) (hidle : CloudWorkflow.Idle workflow) :
      Step input s
        { s with
          account := some account
          pending := pending
          workflow := workflow
          observed := none
          upgradeFrom := none }
  | create {account : AccountRef} {record} (hnone : s.account = none) :
      Step input s
        { s with
          account := some account
          cached := s.cached.insert flightPlanRecordKey record
          pending := .ofList (s.cached.insert flightPlanRecordKey record).keys
          workflow := some .acsCreateChallenge
          observed := none
          upgradeFrom := none }
  | unlink {observed source} (hobserved : observed = none ∨ observed = s.observed)
      (hsource : source = none ∨ source = s.upgradeFrom) :
      Step input s
        { s with
          account := none
          pending := ∅
          workflow := none
          observed := observed
          upgradeFrom := source }
  | stage {account page staged revision hash} (haccount : s.account = some account)
      (hpage : RootPage env account staged.nodeHash page)
      (hrevision : staged.localRevision = s.localRevision)
      (hpublishes : Publishes env s page hash staged.purpose) :
      Step input s { s with workflow := some (.acsCreatePage staged revision hash) }
  | store {staged revision hash} (hworkflow : s.workflow = some (.acsCreatePage staged revision hash)) :
      Step input s { s with workflow := some (.acsCommitRoot staged revision hash) }
  | commit {staged revision hash newRevision}
      (hworkflow : s.workflow = some (.acsCommitRoot staged revision hash))
      (hpurpose : staged.purpose ≠ .upgrade) :
      Step input s
        { s with
          workflow := none
          observed := some ⟨env.format.version, newRevision, staged.nodeHash, true⟩
          pending := if s.localRevision = staged.localRevision then ∅ else s.pending }
  | observe {version root source} (hserved : input.served root)
      (hsource : source = none ∨ source = s.upgradeFrom) :
      Step input s
        { s with
          workflow := none
          observed := some ⟨version, root.revision, root.rootHash, false⟩
          upgradeFrom := source }
  | read {account root node purpose source} (haccount : s.account = some account)
      (hserved : input.served root) (hnode : RootNode env account root.rootHash node)
      (hsource : source = none ∨ source = s.upgradeFrom) :
      Step input s
        { s with
          workflow := some (.acsReadPage root node purpose)
          observed := some ⟨node.version, root.revision, root.rootHash, false⟩
          upgradeFrom := source }
  | adopt {account root node purpose page t} (haccount : s.account = some account)
      (hworkflow : s.workflow = some (.acsReadPage root node purpose))
      (hversion : node.version = env.format.version) (hpage : NodePage env account node page)
      (hreconciled : Reconciled env purpose page.records s t)
      (hrest : t = { s with
        cached := t.cached
        pending := t.pending
        workflow := none
        observed := s.observed.map fun root => { root with recordsVerified := true } }) :
      Step input s t

inductive Moves (input : Input) (s t : Sync J) : Prop where
  | edits (h : Relation.ReflTransGen
      (fun s t => ∃ key record, Edited env s key record ∧ t = s.edit key record) s t)
  | step (h : Step env input s t)

end Sync

def DeviceLabel.input : DeviceLabel J F → Sync.Input
  | .complete _ (.acsRoot (some root)) _ _ => ⟨(· = root), False⟩
  | .act .confirmAccountUpgrade .. => ⟨fun _ => False, True⟩
  | _ => ⟨fun _ => False, False⟩

def Device.start (self : Device J) : DeviceLabel J F → Sync J
  | .restart => self.disk.stored
  | _ => self.engine.sync

end Aerobag.Client
