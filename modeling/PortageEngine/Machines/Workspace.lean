import PortageEngine.Library.Crew
import PortageEngine.Library.Files
import PortageEngine.Storage.Bucket

/-!
# Terraform workspaces

How the executors of one attempt create and destroy its build machine (`internal/iac/manager.go`, and
`executeProvisionPhase` and `runOneInfraCleanup` of `internal/builder`).  Instance ID and workspace
directory are functions of the attempt, so all executors share one directory on the shared root.  It
holds the Terraform configuration, the Terraform state, the identity file and the lock file
`.provision.lock`.

An operation is a program whose calls are those to the file system, to Terraform, to the provider and
to the database, so that others may come in between any two of them.  A lock is taken on the file that
has been opened, not on its name: when the directory is removed and made again, the next one to open
the lock file gets another file.
-/

namespace PortageEngine.Machines

open Library Library.Process
open Storage (Outcome)

/-! ## Requests -/

inductive Provider
  | pve
  | gcp
  | aws
  | aliyun
  deriving DecidableEq

/-- `supportedProviders`. -/
def Provider.supported : Provider → Bool
  | .aliyun => false
  | _ => true

inductive EgressMode
  | disabled
  | enforce
  | unknown
  deriving DecidableEq

/-- What `Provision` reads of the request that the attempt's job makes; `deploys` says that there is a
key path for SSH. -/
structure ProvisionRequest where
  provider : Provider
  egressPolicy : Option EgressMode
  deploys : Bool

/-! ## State -/

/-- The files of a workspace, the lock file and the Terraform state apart.  Their contents are
functions of the attempt. -/
inductive WorkspaceFile
  | main
  | firewall
  | egressPolicy
  | identity
  deriving DecidableEq

/-- A workspace directory: its lock file, its other files and the machines in its Terraform state. -/
structure Workspace where
  lockFile : Option Nat
  files : List WorkspaceFile
  resources : List Nat

structure Handle where
  ticket : Nat
  file : Nat
  locked : Bool

inductive InstanceState
  | provisioning
  | running
  | destroyed
  | destroyFailed
  deriving DecidableEq

/-- The instance in the phase execution context, with the claim under which it was saved. -/
structure SavedInstance where
  fence : Nat
  state : InstanceState
  deriving DecidableEq

/-- What an executor does.  Which of the first two, is decided by the context it has loaded. -/
inductive Task
  | provision
  | restore
  | terminate
  | reclaim
  deriving DecidableEq

/-- One operation: its number, the control-plane replica on which it runs, and the fence of the phase
claim of its executor. -/
structure Operation where
  ticket : Nat
  replica : Nat
  fence : Nat
  task : Task

/-- Everything about the machine of one attempt.

* `machines` are the VMs that exist, `created` is how many there have been.
* `opened` is how many lock files there have been.
* `claim` is the fence of the current phase claim.
* `instances` are the maps of the managers: for a replica that tracks the instance, the fence that its
  callback `lifecycle` carries, if it has one.
* `crashed` are the operations whose process has died.
* `trespassed` records that an operation whose claim had been superseded destroyed a VM that the
  current claim holder had recorded as running, or removed its workspace. -/
structure Site where
  workspace : Option Workspace
  machines : List Nat
  created : Nat
  handles : List Handle
  opened : Nat
  claim : Nat
  context : Option SavedInstance
  instances : List (Nat × Option Nat)
  started : Nat
  crashed : List Nat
  trespassed : Bool

def Site.init : Site where
  workspace := none
  machines := []
  created := 0
  handles := []
  opened := 0
  claim := 0
  context := none
  instances := []
  started := 0
  crashed := []
  trespassed := false

def Site.resources (s : Site) : List Nat :=
  (s.workspace.map Workspace.resources).getD []

/-- The fence under which the context was saved. -/
def Site.contextFence (s : Site) : Nat :=
  (s.context.map SavedInstance.fence).getD 0

/-- The current claim holder has recorded the machine as running. -/
def Site.recordedRunning (s : Site) : Bool :=
  s.context = some ⟨s.claim, .running⟩

/-- The operation has destroyed a machine, or has removed the workspace of one, if `hit`. -/
def Site.note (s : Site) (o : Operation) (hit : Bool) : Site :=
  { s with trespassed := s.trespassed || (hit && o.fence < s.claim && s.recordedRunning) }

/-! ## Calls -/

/-- Parts of the provisioning that change nothing here: they succeed or fail. -/
inductive Stage
  | workerIdentity
  | transition
  | egress
  | address
  | deploy
  | infraRecord
  | connection
  | inbound
  | session
  deriving DecidableEq

inductive Call
  | mkdirAll
  | openLock
  | flock
  /-- Unlock and close the lock file. -/
  | close
  | stat
  | write (file : WorkspaceFile)
  | removeAll
  | track
  | untrack
  | lookup
  | init
  | apply
  | destroy
  /-- The verification of a PVE cleanup, which destroys what is left under the machine's name. -/
  | ensureAbsent
  | stage (stage : Stage)
  /-- `SavePhaseExecutionContext`, in the callback `lifecycle` with `RecordInfra` after it. -/
  | save (fence : Nat) (state : InstanceState)
  /-- `CompleteInfraCleanup` or `FailInfraCleanup`. -/
  | finishCleanup (destroyed : Bool)
  deriving DecidableEq

structure Request where
  sender : Operation
  call : Call

inductive Reply
  | done
  | instance (lifecycle : Option Nat)
  | failed

/-- Terraform creates the machine if the state has none that exists. -/
def Site.applied (s : Site) (w : Workspace) : Site :=
  match w.resources.filter (· ∈ s.machines) with
  | [] => { s with
      machines := s.created :: s.machines
      created := s.created + 1
      workspace := some { w with resources := [s.created] } }
  | kept => { s with workspace := some { w with resources := kept } }

/-- Terraform destroys the machines in the state. -/
def Site.destroyed (s : Site) (w : Workspace) : Site :=
  { s with
    machines := s.machines.filter (· ∉ w.resources)
    workspace := some { w with resources := [] } }

/-- Open the lock file, which is created if there is none. -/
def Site.opens (s : Site) (o : Operation) (w : Workspace) : Site :=
  let others := s.handles.filter (·.ticket ≠ o.ticket)
  match w.lockFile with
  | some file => { s with handles := ⟨o.ticket, file, false⟩ :: others }
  | none => { s with
      workspace := some { w with lockFile := some s.opened }
      opened := s.opened + 1
      handles := ⟨o.ticket, s.opened, false⟩ :: others }

def Site.closes (s : Site) (ticket : Nat) : Site :=
  { s with handles := s.handles.filter (·.ticket ≠ ticket) }

/-- Lock the opened file, unless somebody else has. -/
def Site.locks (s : Site) (o : Operation) : Option Site :=
  (s.handles.find? (·.ticket = o.ticket)).bind fun h =>
    if s.handles.any fun k => k.ticket ≠ o.ticket && k.file = h.file && k.locked then none
    else some { s with
      handles := s.handles.map fun k => if k.ticket = o.ticket then { k with locked := true } else k }

def Site.perform (s : Site) (o : Operation) : Call → Option Site
  | .mkdirAll => some { s with workspace := some (s.workspace.getD ⟨none, [], []⟩) }
  | .openLock => s.workspace.map (s.opens o)
  | .flock => s.locks o
  | .close => some (s.closes o.ticket)
  | .stat | .init => s.workspace.map fun _ => s
  | .write file => s.workspace.map fun w =>
    { s with workspace := some { w with files := file :: w.files } }
  | .removeAll => some { s.note o (s.resources.any (· ∈ s.machines)) with workspace := none }
  | .track => some { s with instances := Files.write o.replica (some o.fence) s.instances }
  | .untrack => some { s with instances := Files.removeAll (· = o.replica) s.instances }
  | .apply => s.workspace.bind fun w => if .main ∈ w.files then some (s.applied w) else none
  | .destroy => s.workspace.map fun w =>
    (s.note o (s.resources.any (· ∈ s.machines))).destroyed w
  | .ensureAbsent =>
    -- without the identity file there is no name to look for
    if .identity ∉ (s.workspace.map Workspace.files).getD [] then some s
    else if s.machines.length ≤ 1 then
      some { s.note o (!s.machines.isEmpty) with machines := [] }
    else none
  | .save fence state =>
    if fence = s.claim then some { s with context := some ⟨fence, state⟩ } else none
  | .lookup | .stage _ | .finishCleanup _ => some s

def Call.certain : Call → Bool
  | .close | .track | .untrack => true
  | _ => false

/-- A call that takes `s` to `s'`.  One that reports an error may have had its effect. -/
def conclude (c : Outcome) (s s' : Site) : Site × Reply :=
  match c with
  | .performed => (s', .done)
  | .lost => (s', .failed)
  | .failed => (s, .failed)

/-- One call.  A process that has died does nothing more. -/
def siteExec (c : Outcome) (r : Request) (s : Site) : Site × Reply :=
  if r.sender.ticket ∈ s.crashed then (s, .failed)
  else if r.call = .lookup then
    (s, ((Files.read s.instances r.sender.replica).map Reply.instance).getD .failed)
  else
    match s.perform r.sender r.call with
    | none => (s, .failed)
    | some s' => if r.call.certain then (s', .done) else conclude c s s'

/-! ## Programs -/

abbrev Work (α : Type) := Prog Request Reply α

abbrev FallibleWork (α : Type) := ExceptT String (Prog Request Reply) α

def Operation.demand (o : Operation) (call : Call) (message : String) : FallibleWork Unit :=
  ExceptT.mk do
    match ← Prog.ask ⟨o, call⟩ with
    | .failed => pure (.error message)
    | _ => pure (.ok ())

def Operation.attempt (o : Operation) (call : Call) : Work Unit := do
  let _ ← Prog.ask ⟨o, call⟩
  pure ()

/-- Close the lock file however the body ends. -/
def Operation.closing (o : Operation) (body : FallibleWork Unit) : FallibleWork Unit :=
  ExceptT.mk do
    let result ← body.run
    o.attempt .close
    pure result

def prepareProvisionWorkspace (o : Operation) : FallibleWork Unit := do
  o.demand .mkdirAll "failed to create terraform directory"
  o.demand .openLock "open terraform workspace lock"
  onError (o.demand .flock "lock terraform workspace") (o.attempt .close)

def writeProvisionWorkspace (r : ProvisionRequest) (o : Operation) : FallibleWork Unit := do
  o.demand (.write .main) "failed to write terraform config"
  o.demand (.write .firewall) "failed to write firewall config"
  if r.egressPolicy.isSome then
    o.demand (.write .egressPolicy) "write egress policy contract"
  o.demand (.write .identity) "write infrastructure resource identity"

def unregister (o : Operation) : Work Unit := do
  o.attempt .untrack
  o.attempt .removeAll

def registerProvisioningInstance (o : Operation) : FallibleWork Unit := do
  o.demand .track ""
  onError
    (o.demand (.save o.fence .provisioning)
      "persist infrastructure ownership before terraform apply")
    (unregister o)

def applyTerraform (o : Operation) : FallibleWork Unit := do
  o.demand .init "terraform init failed"
  o.demand .apply "terraform apply failed"

def enforceProvisionEgress (r : ProvisionRequest) (o : Operation) : FallibleWork Unit :=
  match r.provider, r.egressPolicy with
  | .pve, some .enforce => o.demand (.stage .egress) "PVE egress policy enforcement failed"
  | .pve, some .unknown => throw "unsupported egress policy mode"
  | _, _ => pure ()

def resolveProvisionedInstance (o : Operation) : FallibleWork Unit :=
  o.demand (.stage .address) "failed to get IP address"

def finishProvision (r : ProvisionRequest) (o : Operation) : FallibleWork Unit := do
  if r.deploys then
    o.demand (.stage .deploy) "builder deployment failed"
  o.demand (.save o.fence .running) "persist running infrastructure state"

def destroyInstance (r : ProvisionRequest) (o : Operation) : FallibleWork Unit := do
  o.demand .destroy "terraform destroy failed"
  if r.provider = .pve then
    o.demand .ensureAbsent "provider-native PVE cleanup verification"

def rollback (r : ProvisionRequest) (o : Operation) : Work Unit := do
  match ← (destroyInstance r o).run with
  | .error _ => o.attempt (.save o.fence .destroyFailed)
  | .ok _ =>
    match ← Prog.ask ⟨o, .save o.fence .destroyed⟩ with
    -- "destroyed … but could not persist cleanup result (will reconcile)"
    | .failed => pure ()
    | _ => do
      o.attempt .untrack
      o.attempt .removeAll

/-- The steps of `Provision` whose failure is followed by a rollback. -/
def createInstance (r : ProvisionRequest) (o : Operation) : FallibleWork Unit := do
  applyTerraform o
  enforceProvisionEgress r o
  resolveProvisionedInstance o
  finishProvision r o

/-- What `Provision` does while it has the lock. -/
def provisionLocked (r : ProvisionRequest) (o : Operation) : FallibleWork Unit := do
  writeProvisionWorkspace r o
  registerProvisioningInstance o
  onError (createInstance r o) (rollback r o)

def provision (r : ProvisionRequest) (o : Operation) : FallibleWork Unit := do
  if !r.provider.supported then
    throw "provider not implemented"
  prepareProvisionWorkspace o
  o.closing (provisionLocked r o)

/-- The callback of a tracked instance; without one there is nothing to do. -/
def notify (o : Operation) (lifecycle : Option Nat) (state : InstanceState) : FallibleWork Unit :=
  match lifecycle with
  | none => pure ()
  | some fence => o.demand (.save fence state)
      "terraform destroy succeeded but durable cleanup acknowledgement failed"

/-- `Terminate` for a tracked instance. -/
def terminateTracked (r : ProvisionRequest) (o : Operation) (lifecycle : Option Nat) : FallibleWork Unit :=
  ExceptT.mk do
    match ← (destroyInstance r o).run with
    | .error e => do
      let _ ← (notify o lifecycle .destroyFailed).run
      pure (.error e)
    | .ok _ =>
      match ← (notify o lifecycle .destroyed).run with
      | .error e => pure (.error e)
      | .ok _ => do
        o.attempt .removeAll
        o.attempt .untrack
        pure (.ok ())

def terminate (r : ProvisionRequest) (o : Operation) : FallibleWork Unit :=
  ExceptT.mk do
    match ← Prog.ask ⟨o, .lookup⟩ with
    | .instance lifecycle => (terminateTracked r o lifecycle).run
    | _ => pure (.error "instance not found")

/-- What `DestroyRecorded` does while it has the lock file open. -/
def destroyRecordedOpened (r : ProvisionRequest) (o : Operation) : FallibleWork Unit := do
  o.demand .flock "lock recorded terraform workspace"
  o.demand .init "reinitialize recorded terraform workspace"
  destroyInstance r o
  o.demand .untrack ""

def destroyRecorded (r : ProvisionRequest) (o : Operation) : FallibleWork Unit := do
  if !r.provider.supported then
    throw "provider not implemented"
  o.demand .stat "inspect recorded terraform workspace"
  o.demand .openLock "open recorded workspace lock"
  o.closing (destroyRecordedOpened r o)

def removeRecordedWorkspace (o : Operation) : FallibleWork Unit :=
  o.demand .removeAll "remove destroyed terraform workspace"

/-- `runOneInfraCleanup` after `ClaimInfraCleanup`. -/
def runOneInfraCleanup (r : ProvisionRequest) (o : Operation) : FallibleWork Unit :=
  ExceptT.mk do
    match ← (destroyRecorded r o).run with
    | .error e => do
      o.attempt (.finishCleanup false)
      pure (.error e)
    | .ok _ =>
      match ← Prog.ask ⟨o, .finishCleanup true⟩ with
      | .failed => pure (.ok ())
      | _ => (removeRecordedWorkspace o).run

/-- The first branch of `executeProvisionPhase`: the context has a running instance. -/
def restoreProvisioned (o : Operation) : FallibleWork Unit := do
  o.demand (.stage .session) "restore worker session"
  o.demand (.stage .connection) "restore provisioned worker"
  o.demand (.save o.fence .running) ""

/-- What `executeProvisionPhase` does after `Provision`. -/
def confirmProvisioned (r : ProvisionRequest) (o : Operation) : FallibleWork Unit := do
  o.demand (.stage .infraRecord) "persist infrastructure ownership"
  o.demand (.stage .connection) "outbound worker did not connect"
  if r.provider = .pve && r.egressPolicy = some .enforce then
    o.demand (.stage .inbound) "close transient PVE inbound access"
  o.demand (.save o.fence .running) ""

/-- The second branch of `executeProvisionPhase`. -/
def provisionPhase (r : ProvisionRequest) (o : Operation) : FallibleWork Unit := do
  o.demand (.stage .workerIdentity) "prepare outbound worker"
  o.demand (.stage .transition) "durable provision transition was rejected"
  provision r o
  confirmProvisioned r o

def operate (r : ProvisionRequest) (o : Operation) : Work (Except String Unit) :=
  match o.task with
  | .provision => (provisionPhase r o).run
  | .restore => (restoreProvisioned o).run
  | .terminate => (terminate r o).run
  | .reclaim => (runOneInfraCleanup r o).run

/-! ## Executors -/

inductive Action
  /-- The next executor claims the phase. -/
  | claim
  /-- An executor with this claim loads the context and starts `executeProvisionPhase`. -/
  | execute (replica fence : Nat)
  /-- `Terminate` or `runOneInfraCleanup`. -/
  | terminate (replica fence : Nat)
  | reclaim (replica fence : Nat)
  /-- The process of an operation dies; the kernel closes its files. -/
  | crash (ticket : Nat)
  /-- A replica starts again, with the instances of its state file if it has one. -/
  | restart (replica : Nat) (persisted : Bool)

/-- Start an operation under a claim that has been handed out. -/
def Site.start (s : Site) (replica fence : Nat) (task : Task) : Site × Option Operation :=
  if fence ≤ s.claim then ({ s with started := s.started + 1 }, some ⟨s.started, replica, fence, task⟩)
  else (s, none)

def Site.crash (s : Site) (ticket : Nat) : Site :=
  { s.closes ticket with crashed := ticket :: s.crashed }

def Site.act (e : Action) (s : Site) : Site × Option Operation :=
  match e with
  | .claim => ({ s with claim := s.claim + 1 }, none)
  | .execute replica fence =>
    s.start replica fence
      (if s.context.any fun i => i.state = .running then .restore else .provision)
  | .terminate replica fence => s.start replica fence .terminate
  | .reclaim replica fence => s.start replica fence .reclaim
  | .crash ticket => (s.crash ticket, none)
  | .restart replica persisted =>
    let others := Files.removeAll (· = replica) s.instances
    -- the callback is not written to the state file
    let restored := ((Files.read s.instances replica).filter fun _ => persisted).map fun _ =>
      (replica, none)
    ({ s with instances := restored.toList ++ others }, none)

abbrev SitePool := Pool Site Operation Request Reply (Except String Unit)

def SitePool.init : SitePool where
  state := Site.init
  jobs := []

def stepSite (r : ProvisionRequest) : SitePool → Move Action Outcome → SitePool :=
  stepCrew siteExec Site.act (operate r)

end PortageEngine.Machines
