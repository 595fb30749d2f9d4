import Aerobag.Client.Protocol

/-!
# What an engine accepts and what it may publish on

The part of an engine that decides which roots it accepts and which it publishes on. `Trust.Step`
lists what can happen to it, from any state that an engine may start from.
-/

namespace Aerobag.Client

structure Trust where
  account : Option AccountRef
  tip : Option VerifiedTip
  workflow : Option CloudWorkflow
  observed : Option ObservedRoot
  upgradeFrom : Option Nat

variable {J F : Type}

def CloudEngine.trust (self : CloudEngine J) : Trust where
  account := self.persistent.account.map (·.ref)
  tip := self.persistent.account.bind (·.tip)
  workflow := self.persistent.workflow
  observed := self.observedRoot
  upgradeFrom := self.upgradeFrom

/-- The workflows of an account that has no tip yet. -/
def CloudWorkflow.Fresh : Option CloudWorkflow → Prop
  | some .acsCreateChallenge | some (.acsCreateAccount _) | some (.acsReadRoot .link) => True
  | some (.acsReadPage _ _ purpose) => purpose = .link
  | some (.acsCreatePage staged _ _) | some (.acsCommitRoot staged _ _) =>
    staged.purpose = .createAccount
  | _ => False

def StagedPublication.tip (staged : StagedPublication) : VerifiedTip :=
  ⟨staged.nodeId, staged.nodeHash, staged.generation⟩

namespace Trust

structure Cause where
  consents : Nat → Prop
  /-- The server is read, and returns this root of this format. -/
  reads : Nat → AcsRootSnapshot → Prop
  commits : StagedPublication → AcsRootSnapshot → Prop
  verifies : AcsRootSnapshot → Prop

/-- What can happen to the trust of an engine. -/
inductive Step (env : CloudEnv J F) (cause : Cause) (s : Trust) : Trust → Prop where
  | quiet : Step env cause s s
  | idle {workflow source} (hidle : CloudWorkflow.Idle workflow)
      (hfresh : CloudWorkflow.Fresh workflow → CloudWorkflow.Fresh s.workflow ∨ s.tip = none)
      (hsource : source = none ∨ source = s.upgradeFrom) :
      Step env cause s { s with workflow := workflow, upgradeFrom := source }
  /-- Another device was faster. -/
  | conflict :
      Step env cause s { s with workflow := some (.acsReadRoot .publishRace), observed := none }
  | consent {version root} (hconsents : cause.consents version) (hroot : s.observed = some root)
      (hversion : root.version = version) (hupgrade : env.format.canUpgrade version = true) :
      Step env cause s { s with upgradeFrom := some version }
  | link {account workflow} (hnone : s.account = none) (hidle : CloudWorkflow.Idle workflow) :
      Step env cause s ⟨some account, none, workflow, none, none⟩
  | unlink {observed source} (hobserved : observed = none ∨ observed = s.observed)
      (hsource : source = none ∨ source = s.upgradeFrom) :
      Step env cause s ⟨none, none, none, observed, source⟩
  | publish {tip staged revision hash} (hworkflow : s.workflow = none) (htip : s.tip = some tip)
      (hpurpose : staged.purpose = .publish)
      (hgeneration : staged.generation = succU64 tip.generation) :
      Step env cause s { s with workflow := some (.acsCreatePage staged revision hash) }
  | create {challenge staged} (hworkflow : s.workflow = some (.acsCreateAccount challenge))
      (hpurpose : staged.purpose = .createAccount) :
      Step env cause s { s with workflow := some (.acsCreatePage staged 0 none) }
  | upgrade {root node purpose staged}
      (hworkflow : s.workflow = some (.acsReadPage root node purpose))
      (hpurpose : staged.purpose = .upgrade)
      (hgeneration : staged.generation = succU64 node.generation) :
      Step env cause s
        { s with workflow := some (.acsCreatePage staged root.revision (some root.rootHash)) }
  | store {staged revision hash}
      (hworkflow : s.workflow = some (.acsCreatePage staged revision hash)) :
      Step env cause s { s with workflow := some (.acsCommitRoot staged revision hash) }
  | commit {root staged revision hash}
      (hworkflow : s.workflow = some (.acsCommitRoot staged revision hash))
      (hcommits : cause.commits staged root) (hpurpose : staged.purpose ≠ .upgrade) :
      Step env cause s
        { s with
          tip := some staged.tip
          workflow := none
          observed := some ⟨env.format.version, root.revision, root.rootHash, true⟩ }
  | upgraded {staged revision hash}
      (hworkflow : s.workflow = some (.acsCommitRoot staged revision hash))
      (hpurpose : staged.purpose = .upgrade) :
      Step env cause s
        { s with tip := some staged.tip, workflow := none, observed := none, upgradeFrom := none }
  | observe {version root source} (hreads : cause.reads version root)
      (hsource : source = none ∨ source = s.upgradeFrom) :
      Step env cause s
        { s with
          workflow := none
          observed := some ⟨version, root.revision, root.rootHash, false⟩
          upgradeFrom := source }
  /-- A root is read that may follow the tip, and its page is asked for. -/
  | read {account version root node purpose source} (haccount : s.account = some account)
      (hworkflow : s.workflow = some (.acsReadRoot purpose)) (hreads : cause.reads version root)
      (hnode : RootNode env account root.rootHash node)
      (hchecked : validateAcsNode root node s.tip purpose = .ok ())
      (hsource : source = none ∨ source = s.upgradeFrom) :
      Step env cause s
        { s with
          workflow := some (.acsReadPage root node purpose)
          observed := some ⟨version, root.revision, root.rootHash, false⟩
          upgradeFrom := source }
  | adopt {root node purpose} (hworkflow : s.workflow = some (.acsReadPage root node purpose))
      (hverifies : cause.verifies root) :
      Step env cause s
        { s with
          tip := some (tipOfNode root node)
          workflow := none
          observed := s.observed.map fun root => { root with recordsVerified := true } }
  /-- The tip is accepted, and the configuration is missing. -/
  | halfAdopted {root node purpose}
      (hworkflow : s.workflow = some (.acsReadPage root node purpose)) :
      Step env cause s
        { s with tip := some (tipOfNode root node), workflow := none, upgradeFrom := none }

end Trust

namespace CloudEngine

/-- The engine waits for the response to the request with this number. -/
def Awaits (self : CloudEngine J) (requestId : Nat) : Prop :=
  ∃ request, self.providerRequestInFlight = some request ∧ request.requestId = requestId

/-- The engine with which a response is handled. -/
def answering (self : CloudEngine J) : CloudEngine J :=
  { self with
    providerRequestInFlight := none
    persistent.lastProviderFailure := none
    persistent.nextRetryEpochMs := none }

variable (env : CloudEnv J F)

/-- The server returned the root, and the secret opens it to a value of this format. -/
def Reads (self : CloudEngine J) (version : Nat) (root : AcsRootSnapshot) : Prop :=
  (∃ purpose, self.persistent.workflow = some (.acsReadRoot purpose)) ∧
    ∃ account json, self.persistent.account = some account ∧
      Opens env account.ref .root acsFixedRootId "state_node" root.rootHash json ∧
      readVersion env.codec json = .ok version

def Commits (self : CloudEngine J) (staged : StagedPublication) (root : AcsRootSnapshot) : Prop :=
  ∃ revision hash, self.persistent.workflow = some (.acsCommitRoot staged revision hash) ∧
    staged.nodeHash = root.rootHash

/-- The page of the root's node is read and reconciled with the local records. -/
def Adopts (root : AcsRootSnapshot) (self self' : CloudEngine J) : Prop :=
  ∃ node purpose account page prepared,
    self.persistent.workflow = some (.acsReadPage root node purpose) ∧
    node.version = env.format.version ∧ self.persistent.account = some account ∧
    NodePage env account.ref node page ∧ (prepareLocalRecords env).run self = .ok () prepared ∧
    Sync.Reconciled env purpose page.records prepared.sync self'.sync

def answerCause (response : CloudProviderResponse) (self self' : CloudEngine J) : Trust.Cause where
  consents _ := False
  reads version root := response = .acsRoot (some root) ∧ self.Reads env version root
  commits staged root := response = .acsRootCas (.committed root) ∧ self.Commits staged root
  verifies root := ∃ object, response = .acsObject (some object) ∧ Adopts env root self self'

def cause (self : CloudEngine J) (label : DeviceLabel J F) (self' : CloudEngine J) : Trust.Cause where
  consents version := ∃ plan secret nowEpochMs,
    label = .act .confirmAccountUpgrade plan secret nowEpochMs ∧
      self.linkedAccountDetail = some (.confirmUpgrade version)
  reads version root := ∃ requestId response nowEpochMs entropy,
    label = .complete requestId response nowEpochMs entropy ∧ self.Awaits requestId ∧
      (answerCause env response self.answering self').reads version root
  commits staged root := ∃ requestId response nowEpochMs entropy,
    label = .complete requestId response nowEpochMs entropy ∧ self.Awaits requestId ∧
      (answerCause env response self.answering self').commits staged root
  verifies root := ∃ requestId response nowEpochMs entropy,
    label = .complete requestId response nowEpochMs entropy ∧ self.Awaits requestId ∧
      (answerCause env response self.answering self').verifies root

end CloudEngine

/-- The publication that a workflow is about, with the root that it expects. -/
def CloudWorkflow.publication? :
    Option CloudWorkflow → Option (StagedPublication × Nat × Option String)
  | some (.acsCreatePage staged revision hash) | some (.acsCommitRoot staged revision hash) =>
    some (staged, revision, hash)
  | _ => none

/-- A publication stores its page and commits its root. -/
def CloudProviderOperation.Publishes : CloudProviderOperation → Prop
  | .acsCreateObject .. | .acsCompareAndSwapRoot _ => True
  | _ => False

structure Past where
  read : Nat → AcsRootSnapshot → Prop
  verified : AcsRootSnapshot → Prop
  committed : StagedPublication → AcsRootSnapshot → Prop
  /-- The user confirmed the upgrade from this format. -/
  consented : Nat → Prop
  staged : StagedPublication → Nat → Option String → Prop
  /-- An earlier process left the publication, in the format of this one. -/
  resumed : StagedPublication → Prop

/-- The publication is in the format of the client. -/
def Past.InFormat (past : Past) (staged : StagedPublication) : Prop :=
  past.resumed staged ∨ ∃ revision hash, past.staged staged revision hash

/-- What allows a publication: an account is being created; or the process staged it on a root of
its format that it reconciled or committed, or on an older root that the user upgrades. -/
inductive Past.Authorizes (env : CloudEnv J F) (past : Past) (staged : StagedPublication) :
    Nat → Option String → Prop where
  | create (hpurpose : staged.purpose = .createAccount) : Authorizes env past staged 0 none
  | verified {root : AcsRootSnapshot} (hpurpose : staged.purpose = .publish)
      (hstaged : past.staged staged root.revision (some root.rootHash))
      (hread : past.read env.format.version root) (hverified : past.verified root) :
      Authorizes env past staged root.revision (some root.rootHash)
  | committed {earlier : StagedPublication} {root : AcsRootSnapshot}
      (hpurpose : staged.purpose = .publish)
      (hstaged : past.staged staged root.revision (some root.rootHash))
      (hcommitted : past.committed earlier root) (hformat : past.InFormat earlier) :
      Authorizes env past staged root.revision (some root.rootHash)
  | upgrade {root : AcsRootSnapshot} {version : Nat} (hpurpose : staged.purpose = .upgrade)
      (hstaged : past.staged staged root.revision (some root.rootHash))
      (hread : past.read version root) (holder : version < env.format.version)
      (hconsented : past.consented version) :
      Authorizes env past staged root.revision (some root.rootHash)

/-- A process that starts from this state goes on with the publication. -/
def CloudPersistentState.Resumes (self : CloudPersistentState J) (staged : StagedPublication) : Prop :=
  staged.purpose = .createAccount ∧
    ∃ revision hash, CloudWorkflow.publication? self.workflow = some (staged, revision, hash)

section Past

variable [DecidableEq J] [DecidableEq F] (env : CloudEnv J F) (disk : CloudPersistentState J)

/-- The process that has started from `disk` has read the root. -/
def CloudEngine.HasRead (labels : List (DeviceLabel J F)) (version : Nat) (root : AcsRootSnapshot) :
    Prop :=
  Run.Happened (CloudEngine.savedStep env)
    (fun _ e label e' => (e.cause env label e').reads version root) (.new env disk) labels

def CloudEngine.past (labels : List (DeviceLabel J F)) : Past where
  read version root := CloudEngine.HasRead env disk labels version root
  verified root := Run.Happened (CloudEngine.savedStep env)
    (fun _ e label e' => (e.cause env label e').verifies root) (.new env disk) labels
  committed staged root := Run.Happened (CloudEngine.savedStep env)
    (fun _ e label e' => (e.cause env label e').commits staged root) (.new env disk) labels
  consented version := Run.Happened (CloudEngine.savedStep env)
    (fun before e label e' => (e.cause env label e').consents version ∧
      ∃ root, CloudEngine.HasRead env disk before version root) (.new env disk) labels
  staged staged revision hash := Run.Happened (CloudEngine.savedStep env)
    (fun _ e _ e' => CloudWorkflow.publication? e.persistent.workflow = none ∧
      CloudWorkflow.publication? e'.persistent.workflow = some (staged, revision, hash))
    (.new env disk) labels
  resumed staged := disk.Resumes staged ∧ ∃ account node, disk.account = some account ∧
    RootNode env account.ref staged.nodeHash node ∧ node.version = env.format.version

end Past

end Aerobag.Client
