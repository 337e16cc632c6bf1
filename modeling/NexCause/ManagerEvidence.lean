/-
NexCause/ManagerEvidence.lean

`EvidenceService` of the deployment manager (`evidence.service.ts`) with the
lists it reads from the cluster, `findByApp` of its deployments service, and
sessions: requests served one after another.

Beside the calls of the platform there are reads of lists and the insertion of
a snapshot.  The answers of the lists of the cluster are what the environment
chooses; the parallel reads of `collectLive` are made one after another.  Of the
records that only pass through, the model keeps a few columns.
-/
import Mathlib.Data.List.Sort
import NexCause.DeploymentsService

namespace NexCause

open Program

namespace EvidenceService

/-! ### What the cluster lists -/

structure ContainerStatus where
  name : String
  ready : Bool
  restartCount : ℕ
  deriving DecidableEq, Repr

/-- A Kubernetes pod; times are milliseconds. -/
structure Pod where
  name : Option String
  phase : Option String
  nodeName : Option String
  startTime : Option ℤ
  containerStatuses : Option (List ContainerStatus)
  deriving DecidableEq, Repr

structure DeploymentPodSummary where
  name : String
  phase : Option String
  nodeName : Option String
  startTime : Option ℤ
  containers : List ContainerStatus
  deriving DecidableEq, Repr

def toDeploymentPodSummary (pod : Pod) : DeploymentPodSummary where
  name := pod.name.getD ""
  phase := pod.phase
  nodeName := pod.nodeName
  startTime := pod.startTime
  containers := pod.containerStatuses.getD []

/-- A Kubernetes event. -/
structure Event where
  name : Option String
  type : Option String
  reason : Option String
  message : Option String
  count : Option ℕ
  involvedKind : Option String
  involvedName : Option String
  firstTimestamp : Option ℤ
  lastTimestamp : Option ℤ
  creationTimestamp : Option ℤ
  deriving DecidableEq, Repr

/-- `getEventTime`, with `none` for the empty text. -/
def getEventTime (e : Event) : Option ℤ :=
  e.lastTimestamp <|> e.firstTimestamp <|> e.creationTimestamp

/-- The order of the texts of two times, the empty text first. -/
def eventBefore (a b : Event) : Prop :=
  match getEventTime a, getEventTime b with
  | none, _ => True
  | some _, none => False
  | some s, some t => s ≤ t

instance : DecidableRel eventBefore := fun a b => by
  unfold eventBefore
  split <;> infer_instance

structure DeploymentEventSummary where
  name : Option String
  type : Option String
  reason : Option String
  message : Option String
  count : Option ℕ
  involvedKind : Option String
  involvedName : Option String
  firstTimestamp : Option ℤ
  lastTimestamp : Option ℤ
  eventTime : Option ℤ
  deriving DecidableEq, Repr

def toDeploymentEventSummary (e : Event) : DeploymentEventSummary where
  name := e.name
  type := e.type
  reason := e.reason
  message := e.message
  count := e.count
  involvedKind := e.involvedKind
  involvedName := e.involvedName
  firstTimestamp := e.firstTimestamp
  lastTimestamp := e.lastTimestamp
  eventTime := getEventTime e

structure PodLog where
  podName : String
  logs : List Char
  deriving DecidableEq, Repr

/-! ### The window -/

structure EvidenceWindowOptions where
  triggeredAt : Option ℤ
  windowStart : Option ℤ
  windowEnd : Option ℤ
  lookbackMinutes : Option ℤ
  lookaheadMinutes : Option ℤ
  reason : Option String
  deriving DecidableEq, Repr

structure EvidenceWindow where
  triggeredAt : ℤ
  start : ℤ
  stop : ℤ
  lookbackMinutes : ℤ
  lookaheadMinutes : ℤ
  reason : String
  deriving DecidableEq, Repr

def buildEvidenceWindow (options : EvidenceWindowOptions) (collectedAt : ℤ) : EvidenceWindow :=
  let lookbackMinutes := options.lookbackMinutes.getD 10
  let lookaheadMinutes := options.lookaheadMinutes.getD 2
  let triggeredAt := options.triggeredAt.getD collectedAt
  let start := options.windowStart.getD (triggeredAt - lookbackMinutes * 60 * 1000)
  let requestedEnd := options.windowEnd.getD (triggeredAt + lookaheadMinutes * 60 * 1000)
  { triggeredAt, start
    stop := if requestedEnd > collectedAt then collectedAt else requestedEnd
    lookbackMinutes, lookaheadMinutes
    reason := options.reason.getD "manual-or-current-evidence" }

/-- `secondsBetween`: the seconds, rounded up, one at least. -/
def secondsBetween (start stop : ℤ) : ℤ := max 1 (-((start - stop) / 1000))

def EvidenceWindow.isWithin (window : EvidenceWindow) (t : ℤ) : Bool :=
  window.start ≤ t && t ≤ window.stop

/-- `filterEventsByWindow`: an event without a time stays. -/
def filterEventsByWindow (window : EvidenceWindow) (events : List DeploymentEventSummary) :
    List DeploymentEventSummary :=
  events.filter fun e =>
    ((e.eventTime <|> e.lastTimestamp <|> e.firstTimestamp).map window.isWithin).getD true

/-- `filterTimestampedLogLines`: a line stays if its first word is no date. -/
def filterTimestampedLogLines (parseDate : List Char → Option ℤ) (window : EvidenceWindow)
    (logs : List Char) : List Char :=
  ['\n'].intercalate ((logs.splitOn '\n').filter fun line =>
    ((parseDate (line.takeWhile fun c => !isWhiteSpace c)).map window.isWithin).getD true)

def filterLogsByWindow (parseDate : List Char → Option ℤ) (window : EvidenceWindow)
    (podLogs : List PodLog) : List PodLog :=
  podLogs.map fun p => { p with logs := filterTimestampedLogLines parseDate window p.logs }

/-! ### The evidence -/

/-- The columns of a deployment that the evidence reports. -/
structure EvidenceDeployment where
  id : String
  «namespace» : String
  image : String
  replicas : ℕ
  desiredReplicas : ℕ
  lastNonZeroReplicas : Option ℕ
  port : ℕ
  status : DeploymentStatus
  kubernetesDeployment : String
  kubernetesService : String
  stoppedAt : Option ℕ
  lastRestartedAt : Option ℕ
  deletedAt : Option ℕ
  deriving DecidableEq, Repr

/-- A row of `DeploymentHealthSample`. -/
structure HealthSample where
  deploymentId : String
  status : String
  collectedAt : ℤ
  deriving DecidableEq, Repr

/-- What `collectLive` returns.  What could not be collected is the message of
its error. -/
structure LiveEvidence where
  deploymentId : String
  status : DeploymentStatus
  summary : String
  collectedAt : ℤ
  incidentWindow : EvidenceWindow
  app : App
  deployment : EvidenceDeployment
  build : Option Build
  runtimeConfigs : List RuntimeConfig
  liveStatus : Except String LiveStatus
  pods : Except String (List DeploymentPodSummary)
  events : Except String (List DeploymentEventSummary)
  logs : Except String (List PodLog)
  healthSamples : List HealthSample

/-- A row of `EvidenceSnapshot`. -/
structure EvidenceSnapshot where
  deploymentId : String
  status : DeploymentStatus
  summary : String
  data : LiveEvidence

/-- The text of a status. -/
def statusText : DeploymentStatus → String
  | .creating => "creating"
  | .running => "running"
  | .failed => "failed"
  | .stopped => "stopped"
  | .deleted => "deleted"

def deriveEvidenceStatus (deploymentStatus : DeploymentStatus) :
    Except String LiveStatus → DeploymentStatus
  | .error _ => deploymentStatus
  | .ok live =>
      if live.desiredReplicas > 0 ∧ live.readyReplicas ≥ live.desiredReplicas then .running
      else deploymentStatus

def buildEvidenceSummary (status : DeploymentStatus) (liveStatus : Except String LiveStatus)
    (pods : Except String (List DeploymentPodSummary))
    (events : Except String (List DeploymentEventSummary)) : String :=
  match liveStatus with
  | .error error => s!"Evidence collected with status lookup error: {error}"
  | .ok _ =>
      let podCount := (pods.toOption.getD []).length
      let warningEvents :=
        ((events.toOption.getD []).filter fun e => e.type = some "Warning").length
      s!"Deployment evidence collected with status {statusText status}, {podCount} pod(s), and {warningEvents} warning event(s)."

def sanitizeRuntimeConfig (runtimeConfig : RuntimeConfig) : RuntimeConfig :=
  if runtimeConfig.type ≠ .secret then runtimeConfig
  else { runtimeConfig with data := NexCause.redactSecretRuntimeConfig runtimeConfig.data }

end EvidenceService

open EvidenceService

/-! ### Calls -/

inductive ManagerCall
  | platform (c : Call)
  /-- the deployments of an app with their runtime configs, newest first -/
  | findDeployments (appId : String)
  /-- a deployment with its app, its build and its runtime configs -/
  | findDeploymentForEvidence (id : String)
  | findHealthSamples (deploymentId : String) (start stop : ℤ)
  | createSnapshot (data : EvidenceSnapshot)
  | listPods («namespace» : String) (labels : Entries)
  | listEvents («namespace» : String)
  | readPodLog («namespace» podName : String) (sinceSeconds tailLines : ℤ)

/-- What a call returns. -/
def ManagerCall.Result : ManagerCall → Type
  | .platform c => c.Result
  | .findDeployments _ => List Deployment
  | .findDeploymentForEvidence _ => Option (Deployment × App × Option Build)
  | .findHealthSamples _ _ _ => List HealthSample
  | .createSnapshot _ => EvidenceSnapshot
  | .listPods _ _ => List Pod
  | .listEvents _ => List Event
  | .readPodLog _ _ _ _ => List Char

/-- A program of the deployment manager, with its lists. -/
abbrev ManagerAction (α : Type) : Type := Prog ManagerCall ManagerCall.Result ApiError α

/-- A program of the platform's calls. -/
def onPlatform {α : Type} : Action α → ManagerAction α
  | .ret a => .ret a
  | .throw e => .throw e
  | .call c k => .call (.platform c) fun r => onPlatform (k r)

/-- The database beside the platform's world: the ids of the deployments in the
order in which they were created, the health samples, and the snapshots. -/
structure ManagerState where
  world : World
  created : List String
  healthSamples : List HealthSample
  snapshots : List EvidenceSnapshot

/-- What the environment does at one call: what fails, and what the cluster
lists. -/
structure ManagerEnvironment where
  platform : Environment
  pods : Except ApiError (List Pod)
  events : Except ApiError (List Event)
  podLog : Except ApiError (List Char)

/-- The deployment of an id with what belongs to it. -/
def ManagerState.deploymentForEvidence (s : ManagerState) (id : String) :
    Except ApiError (Option (Deployment × App × Option Build)) :=
  match s.world.deployments id with
  | none => .ok none
  | some d =>
      match s.world.apps.find? fun a => a.id = d.appId with
      | none => .error (.database "Inconsistent query result")
      | some app => .ok (some (d, app, s.world.builds.find? fun b => d.buildId = some b.id))

/-- Serve a call to the tables that the platform does not know. -/
def ManagerState.serveDatabase (s : ManagerState) : (c : ManagerCall) →
    Except ApiError c.Result × ManagerState
  | .findDeployments appId =>
      (.ok ((s.created.reverse.filterMap s.world.deployments).filter fun d => d.appId = appId), s)
  | .findDeploymentForEvidence id => (s.deploymentForEvidence id, s)
  | .findHealthSamples deploymentId start stop =>
      (.ok (((s.healthSamples.filter fun h => h.deploymentId = deploymentId ∧ start ≤ h.collectedAt ∧
        h.collectedAt ≤ stop).insertionSort fun a b => b.collectedAt ≤ a.collectedAt).take 120), s)
  | .createSnapshot data => (.ok data, { s with snapshots := s.snapshots ++ [data] })
  | _ => (.error (.error "not a database call"), s)

/-- Serve a call. -/
def serveManager : Service ManagerCall ManagerCall.Result ApiError ManagerEnvironment ManagerState :=
  fun c x s =>
  match c with
  | .platform c =>
      let answer := serve c x.platform s.world
      (answer.1, { s with
        world := answer.2
        created := match c, answer.1 with
          | .createDeployment data, .ok _ => s.created ++ [data.id]
          | _, _ => s.created })
  | .listPods _ _ => (x.pods, s)
  | .listEvents _ => (x.events, s)
  | .readPodLog _ _ _ _ => (x.podLog, s)
  | c =>
      match x.platform.databaseFault with
      | some message => (.error (.database message), s)
      | none => s.serveDatabase c

/-! ### Programs -/

def KubernetesService.listDeploymentPods («namespace» : String) (labels : Entries) :
    ManagerAction (List DeploymentPodSummary) := do
  let pods ← Prog.perform (ManagerCall.listPods «namespace» labels)
  return pods.map toDeploymentPodSummary

def KubernetesService.listDeploymentEvents («namespace» deploymentName : String) (labels : Entries) :
    ManagerAction (List DeploymentEventSummary) := do
  let allEvents ← Prog.perform (ManagerCall.listEvents «namespace»)
  let pods ← listDeploymentPods «namespace» labels
  let selected := List.filter (fun event : Event =>
    event.involvedName = some deploymentName ||
      (event.involvedName.any fun involved => pods.any fun pod => pod.name = involved) ||
      (event.involvedName.any fun involved =>
        (deploymentName ++ "-").toList.isPrefixOf involved.toList)) allEvents
  return (selected.insertionSort eventBefore).map toDeploymentEventSummary

/-- The logs of the pods, one after another. -/
def KubernetesService.podLogs («namespace» : String) (tailLines sinceSeconds : ℤ) :
    List Pod → ManagerAction (List PodLog)
  | [] => Prog.ret []
  | pod :: rest =>
      match truthy pod.name with
      | none => Prog.throw (.notFound "A matching pod was missing its name")
      | some podName => do
          let logs ← Prog.perform (ManagerCall.readPodLog «namespace» podName sinceSeconds tailLines)
          let others ← podLogs «namespace» tailLines sinceSeconds rest
          return ⟨podName, logs⟩ :: others

def KubernetesService.getDeploymentEvidenceLogs («namespace» : String) (labels : Entries)
    (tailLines sinceSeconds : ℤ) : ManagerAction (List PodLog) := do
  let pods ← Prog.perform (ManagerCall.listPods «namespace» labels)
  podLogs «namespace» tailLines sinceSeconds pods

/-- `collectOrError`: the result, or the message of the error. -/
def collectOrError {α : Type} (p : ManagerAction α) : ManagerAction (Except String α) :=
  (p >>= fun a => Prog.ret (.ok a)).tryCatch fun e => Prog.ret (.error e.message)

def findDeploymentForEvidence (id : String) : ManagerAction (Deployment × App × Option Build) := do
  match ← Prog.perform (ManagerCall.findDeploymentForEvidence id) with
  | some found => return found
  | none => Prog.throw (.notFound ("Deployment " ++ id ++ " was not found"))

/-- The evidence of what was found and collected. -/
def liveEvidence (parseDate : List Char → Option ℤ) (window : EvidenceWindow) (collectedAt : ℤ)
    (found : Deployment × App × Option Build) (status : Except String LiveStatus)
    (pods : Except String (List DeploymentPodSummary))
    (rawEvents : Except String (List DeploymentEventSummary))
    (rawLogs : Except String (List PodLog)) (healthSamples : List HealthSample) : LiveEvidence :=
  let deployment := found.1
  let events := rawEvents.map (filterEventsByWindow window)
  let evidenceStatus := deriveEvidenceStatus deployment.status status
  { deploymentId := deployment.id
    status := evidenceStatus
    summary := buildEvidenceSummary evidenceStatus status pods events
    collectedAt
    incidentWindow := window
    app := found.2.1
    deployment :=
      { id := deployment.id
        «namespace» := deployment.«namespace»
        image := deployment.image
        replicas := deployment.replicas
        desiredReplicas := deployment.desiredReplicas
        lastNonZeroReplicas := deployment.lastNonZeroReplicas
        port := deployment.port
        status := deployment.status
        kubernetesDeployment := deployment.kubernetesDeployment
        kubernetesService := deployment.kubernetesService
        stoppedAt := deployment.stoppedAt
        lastRestartedAt := deployment.lastRestartedAt
        deletedAt := deployment.deletedAt }
    build := found.2.2
    runtimeConfigs := deployment.runtimeConfigs.map EvidenceService.sanitizeRuntimeConfig
    liveStatus := status
    pods
    events
    logs := rawLogs.map (filterLogsByWindow parseDate window)
    healthSamples }

/-- `collectLive`, at the instant `collectedAt`. -/
def EvidenceService.collectLive (parseDate : List Char → Option ℤ) (id : String)
    (options : EvidenceWindowOptions) (collectedAt : ℤ) : ManagerAction LiveEvidence := do
  let found ← findDeploymentForEvidence id
  let deployment := found.1
  let labels := buildManagedLabels deployment.workspaceId deployment.appId deployment.id
  let window := buildEvidenceWindow options collectedAt
  let sinceSeconds := secondsBetween window.start collectedAt
  let status ← collectOrError
    (onPlatform (getDeploymentStatus deployment.«namespace» deployment.kubernetesDeployment))
  let pods ← collectOrError (KubernetesService.listDeploymentPods deployment.«namespace» labels)
  let rawEvents ← collectOrError (KubernetesService.listDeploymentEvents deployment.«namespace»
    deployment.kubernetesDeployment labels)
  let rawLogs ← collectOrError (KubernetesService.getDeploymentEvidenceLogs deployment.«namespace»
    labels 500 sinceSeconds)
  let healthSamples ← Prog.perform
    (ManagerCall.findHealthSamples deployment.id window.start window.stop)
  return liveEvidence parseDate window collectedAt found status pods rawEvents rawLogs healthSamples

def EvidenceService.createSnapshot (parseDate : List Char → Option ℤ) (id : String)
    (options : EvidenceWindowOptions) (collectedAt : ℤ) : ManagerAction EvidenceSnapshot := do
  let evidence ← collectLive parseDate id options collectedAt
  Prog.perform (ManagerCall.createSnapshot
    { deploymentId := id, status := evidence.status, summary := evidence.summary, data := evidence })

/-- `DeploymentsService.findByApp`. -/
def DeploymentsService.findByApp (appId : String) : ManagerAction (List SanitizedDeployment) := do
  let _ ← onPlatform (findAppOrThrow appId)
  let deployments ← Prog.perform (ManagerCall.findDeployments appId)
  return deployments.map sanitizeDeployment

/-! ### Sessions -/

inductive ManagerRequest
  | onDeployment (id : String) (request : Request)
  | findByApp (appId : String)
  | collectLive (id : String) (options : EvidenceWindowOptions) (now : ℤ)
  | createSnapshot (id : String) (options : EvidenceWindowOptions) (now : ℤ)

inductive ManagerResponse
  | onDeployment (response : Response)
  | deployments (ds : List SanitizedDeployment)
  | evidence (e : LiveEvidence)
  | snapshot (s : EvidenceSnapshot)

def ManagerRequest.program (config : ServiceConfig) (parseDate : List Char → Option ℤ) :
    ManagerRequest → ManagerAction ManagerResponse
  | .onDeployment id request => do return .onDeployment (← onPlatform (request.program config id))
  | .findByApp appId => do return .deployments (← DeploymentsService.findByApp appId)
  | .collectLive id options now => do
      return .evidence (← EvidenceService.collectLive parseDate id options now)
  | .createSnapshot id options now => do
      return .snapshot (← EvidenceService.createSnapshot parseDate id options now)

/-- What requests leave: their responses, the calls made, and the state. -/
structure Session where
  responses : List (Except ApiError ManagerResponse)
  calls : List ManagerCall
  state : ManagerState

/-- Requests one after another, each with the choices of the environment at its
calls. -/
def session (config : ServiceConfig) (parseDate : List Char → Option ℤ) :
    List (ManagerRequest × (ℕ → ManagerEnvironment)) → ManagerState → Session
  | [], s => ⟨[], [], s⟩
  | (request, env) :: rest, s =>
      let ended := (request.program config parseDate).run serveManager env s
      let others := session config parseDate rest ended.state
      ⟨ended.outcome :: others.responses, ended.calls ++ others.calls, others.state⟩

end NexCause
