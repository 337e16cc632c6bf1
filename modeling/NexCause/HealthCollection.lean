/-
NexCause/HealthCollection.lean

The health samples of the deployment manager: `ObservabilityService`, whose
timer starts a pass over the active workspaces.  A pass lists the deployments
of a workspace, collects a sample of each of them, all at once, and deletes the
samples that have expired.

The deployments, the workspaces and the cluster belong to others: what a call
reads of them is chosen by the environment.
-/
import NexCause.ManagerEvidence
import NexCause.Promises
import NexCause.SessionService

namespace NexCause.Observability

open Program Prog

/-! ### Samples -/

/-- What a sample keeps of the deployment and of the cluster. -/
structure SampleSnapshot where
  collectedAt : ℕ
  deploymentId : String
  «namespace» : String
  storedStatus : DeploymentStatus
  kubernetesDeployment : String
  status : LiveStatus
  pods : List EvidenceService.DeploymentPodSummary
  events : List EvidenceService.DeploymentEventSummary
  deriving DecidableEq, Repr

/-- The `data` of `deploymentHealthSample.create`. -/
structure HealthSampleData where
  deploymentId : String
  status : String
  desiredReplicas : ℕ
  readyReplicas : ℕ
  availableReplicas : ℕ
  podCount : ℕ
  warningEventCount : ℕ
  restartCount : ℕ
  data : SampleSnapshot
  collectedAt : ℕ
  deriving DecidableEq, Repr

/-- A row of the table, of a workspace. -/
structure HealthSample extends HealthSampleData where
  workspaceId : String
  deriving DecidableEq, Repr

def countWarningEvents (events : List EvidenceService.DeploymentEventSummary) : ℕ :=
  (events.filter (·.type = some "Warning")).length

def countRestarts (pods : List EvidenceService.DeploymentPodSummary) : ℕ :=
  (pods.map fun pod => (pod.containers.map (·.restartCount)).sum).sum

/-- The texts of `DeploymentStatus`. -/
def statusText : DeploymentStatus → String
  | .creating => "creating"
  | .running => "running"
  | .failed => "failed"
  | .stopped => "stopped"
  | .deleted => "deleted"

def deriveSampleStatus (storedStatus : DeploymentStatus)
    (desiredReplicas readyReplicas warningEventCount : ℕ) : String :=
  if storedStatus = .stopped ∨ desiredReplicas = 0 then statusText .stopped
  else if storedStatus = .deleted then statusText .deleted
  else if 0 < warningEventCount then "warning"
  else if 0 < desiredReplicas ∧ desiredReplicas ≤ readyReplicas then statusText .running
  else statusText storedStatus

/-- The sample of a deployment. -/
def sampleOf (deployment : Deployment) (collectedAt : ℕ) (status : LiveStatus)
    (pods : List EvidenceService.DeploymentPodSummary)
    (events : List EvidenceService.DeploymentEventSummary) : HealthSampleData where
  deploymentId := deployment.id
  status := deriveSampleStatus deployment.status status.desiredReplicas status.readyReplicas
    (countWarningEvents events)
  desiredReplicas := status.desiredReplicas
  readyReplicas := status.readyReplicas
  availableReplicas := status.availableReplicas
  podCount := pods.length
  warningEventCount := countWarningEvents events
  restartCount := countRestarts pods
  data :=
    { collectedAt := collectedAt
      deploymentId := deployment.id
      «namespace» := deployment.«namespace»
      storedStatus := deployment.status
      kubernetesDeployment := deployment.kubernetesDeployment
      status := status
      pods := pods
      events := events }
  collectedAt := collectedAt

/-! ### Calls -/

inductive ObservabilityError
  /-- `NotFoundException` -/
  | notFound (message : String)
  | database (message : String)
  | kubernetes (message : String)
  deriving DecidableEq, Repr

inductive Call
  /-- `if (this.isCollecting) return; this.isCollecting = true` -/
  | claimCollection (instance' : ℕ)
  /-- `this.isCollecting = false` -/
  | endCollection (instance' : ℕ)
  | findActiveWorkspaces
  | findDeployments (ws : String)
  | findDeployment (ws id : String)
  /-- `new Date()` -/
  | now
  /-- `Promise.all` of `getDeploymentStatus`, `listDeploymentPods` and `listDeploymentEvents` -/
  | readCluster (ws «namespace» deploymentName : String) (labels : Entries)
  | createSample (ws : String) (data : HealthSampleData)
  /-- `deleteMany` of the samples before `minutesAgo(minutes)` -/
  | deleteSamples (ws : String) (minutes : ℚ)
  deriving DecidableEq, Repr

abbrev Call.Result : Call → Type
  | .claimCollection _ => Bool
  | .endCollection _ => Unit
  | .findActiveWorkspaces => List String
  | .findDeployments _ => List String
  | .findDeployment _ _ => Option Deployment
  | .now => ℕ
  | .readCluster _ _ _ _ => LiveStatus × List EvidenceService.DeploymentPodSummary ×
      List EvidenceService.DeploymentEventSummary
  | .createSample _ _ => Unit
  | .deleteSamples _ _ => Unit

/-- The samples; and the flag `isCollecting` of each instance is that the instance is in the list. -/
structure System where
  samples : List HealthSample
  collecting : List ℕ
  deriving DecidableEq, Repr

/-- What the environment chooses for a call: whether the database fails, the clock, the active
workspaces, the table of deployments, and what the cluster answers. -/
structure Choice where
  fault : Option String
  now : ℕ
  workspaces : List String
  deployments : List Deployment
  status : Except String LiveStatus
  pods : Except String (List EvidenceService.DeploymentPodSummary)
  events : Except String (List EvidenceService.DeploymentEventSummary)

/-- `Promise.all` of the three requests to the cluster.  Of several errors it takes the one that came
first; here, the first in the list. -/
def Choice.cluster (x : Choice) : Except ObservabilityError (LiveStatus ×
    List EvidenceService.DeploymentPodSummary × List EvidenceService.DeploymentEventSummary) :=
  match x.status, x.pods, x.events with
  | .ok status, .ok pods, .ok events => .ok (status, pods, events)
  | .error message, _, _ => .error (.kubernetes message)
  | _, .error message, _ => .error (.kubernetes message)
  | _, _, .error message => .error (.kubernetes message)

/-- A call that the database does not fail by itself. -/
def answer : (c : Call) → Choice → System → Except ObservabilityError c.Result × System
  | .claimCollection i, _, s =>
      if i ∈ s.collecting then (.ok false, s)
      else (.ok true, { s with collecting := i :: s.collecting })
  | .endCollection i, _, s => (.ok (), { s with collecting := s.collecting.filter (· ≠ i) })
  | .findActiveWorkspaces, x, s => (.ok x.workspaces, s)
  | .findDeployments ws, x, s =>
      (.ok ((x.deployments.filter fun d =>
        d.workspaceId = ws ∧ d.deletedAt = none ∧ d.status ≠ .deleted).map (·.id)), s)
  | .findDeployment ws id, x, s =>
      (.ok (x.deployments.find? fun d => d.id = id ∧ d.workspaceId = ws), s)
  | .now, x, s => (.ok x.now, s)
  | .readCluster _ _ _ _, x, s => (x.cluster, s)
  | .createSample ws data, x, s =>
      if x.deployments.any fun d => d.id = data.deploymentId ∧ d.workspaceId = ws then
        (.ok (), { s with samples := s.samples ++ [⟨data, ws⟩] })
      else (.error (.database "Foreign key constraint violated"), s)
  | .deleteSamples ws minutes, x, s =>
      (.ok (), { s with samples := s.samples.filter fun row =>
        ¬ (row.workspaceId = ws ∧ (row.collectedAt : ℤ) < newDate (x.now - minutes * 60 * 1000)) })

/-- The call is a statement of the database. -/
def Call.isStatement : Call → Bool
  | .findActiveWorkspaces => true
  | .findDeployments _ => true
  | .findDeployment _ _ => true
  | .createSample _ _ => true
  | .deleteSamples _ _ => true
  | _ => false

/-- One call. -/
def serve : Service Call Call.Result ObservabilityError Choice System := fun c x s =>
  match if c.isStatement then x.fault else none with
  | some message => (.error (.database message), s)
  | none => answer c x s

/-! ### The service -/

/-- What the service starts: ticks of the timer of an instance, and what a pass awaits. -/
inductive Job
  | tick (instance' : ℕ)
  | collectDeployment (ws deploymentId : String)
  deriving DecidableEq, Repr

/-- An `async` method. -/
abbrev Task (α : Type) : Type := Async Job Call Call.Result ObservabilityError α

/-- A call. -/
def ask (c : Call) : Task c.Result := await c

/-- `healthSampleRetentionMinutes` -/
structure HealthConfig where
  healthSampleRetentionMinutes : Option ℚ
  deriving DecidableEq, Repr

section Service

variable (config : HealthConfig)

/-- `getHealthSampleRetentionMinutes` -/
def HealthConfig.retentionMinutes : ℚ := config.healthSampleRetentionMinutes.getD 60

/-- `findDeploymentForHealthSample` -/
def findDeploymentForHealthSample (ws deploymentId : String) : Task Deployment := do
  let deployment : Option Deployment ← ask (.findDeployment ws deploymentId)
  match deployment with
  | none => Prog.throw (.notFound s!"Deployment {deploymentId} was not found")
  | some deployment => return deployment

/-- `collectDeploymentHealthSample` -/
def collectDeploymentHealthSample (ws deploymentId : String) : Task Unit := do
  let deployment ← findDeploymentForHealthSample ws deploymentId
  let labels := buildManagedLabels deployment.workspaceId deployment.appId deployment.id
  let collectedAt : ℕ ← ask .now
  let (status, pods, events) ←
    ask (.readCluster ws deployment.«namespace» deployment.kubernetesDeployment labels)
  ask (.createSample ws (sampleOf deployment collectedAt status pods events))

/-- `deleteExpiredHealthSamples` -/
def deleteExpiredHealthSamples (ws : String) : Task Unit :=
  ask (.deleteSamples ws config.retentionMinutes)

/-- The loop of `collectAllHealthSamples` over the active workspaces. -/
def collectWorkspaces : List String → Task Unit
  | [] => return ()
  | ws :: rest => do
      let deployments : List String ← ask (.findDeployments ws)
      awaitAll (deployments.map fun id => Job.collectDeployment ws id)
      deleteExpiredHealthSamples config ws
      collectWorkspaces rest

/-- `collectAllHealthSamples` of an instance. -/
def collectAllHealthSamples (i : ℕ) : Task Unit := do
  let claimed : Bool ← ask (.claimCollection i)
  if claimed then
    withFinally
      (do
        let workspaces : List String ← ask .findActiveWorkspaces
        collectWorkspaces config workspaces)
      (ask (.endCollection i))

/-- The function behind a job.  The timer logs the error of a pass, and a pass that of a deployment. -/
def Job.task : Job → Task Unit
  | .tick i => (collectAllHealthSamples config i).tryCatch fun _ => return ()
  | .collectDeployment ws deploymentId =>
      (collectDeploymentHealthSample ws deploymentId).tryCatch fun _ => return ()

end Service

/-- The service with what it has started. -/
abbrev Collector : Type := Fibers Job Call Call.Result ObservabilityError System

/-- The step function. -/
def collectorStep (config : HealthConfig) : Collector → ℕ × Choice → Option Collector :=
  Fibers.step (Job.task config) serve

/-- Ticks of the timers, by their instances, that have not begun. -/
def startCollector (config : HealthConfig) (samples : List HealthSample) (ticks : List ℕ) :
    Collector :=
  Fibers.start (Job.task config) ⟨samples, []⟩ (ticks.map Job.tick)

end NexCause.Observability
