/-
NexCause/IncidentsService.lean

Incidents of the deployment manager (`incidents.service.ts`) and the creation
of their RCA runs (`rca.service.ts`): detection passes, manual incidents,
resolutions and RCA requests, as `async` functions over the database.

A detection pass reads the deployments with recent samples and looks at all of
them at once; each compares its two newest samples and handles the signals it
sees at once.  Passes of one instance exclude each other by its flag
`isDetecting`; passes of different instances do not.

A statement sees and writes the rows of the workspace it is issued for, and may
fail; then it changes nothing.  The transactions of `rca.service.ts` insert
rows and read columns that never change, so each of them is one step.  What the
health collector has written is up to the environment at each read.
`triggerAgentRun`, which nobody awaits, writes no row and is left out.
-/
import Mathlib.Data.List.Sort
import Mathlib.Data.String.Basic
import NexCause.Promises
import NexCause.RcaContext
import NexCause.RunEventLog

namespace NexCause.Incidents

open Program Prog Transition

/-! ### Rows -/

inductive IncidentStatus
  | «open» | resolved
  deriving DecidableEq, Repr

inductive IncidentSeverity
  | info | warning | critical
  deriving DecidableEq, Repr

def IncidentSeverity.name : IncidentSeverity → String
  | .info => "info"
  | .warning => "warning"
  | .critical => "critical"

inductive IncidentSource
  | manual | automatic
  deriving DecidableEq, Repr

structure Deployment extends DeploymentRow where
  appId : String
  deriving DecidableEq, Repr

structure HealthSample extends HealthSampleRow where
  deploymentId : String
  status : String
  desiredReplicas : ℤ
  readyReplicas : ℤ
  availableReplicas : ℤ
  podCount : ℤ
  warningEventCount : ℤ
  restartCount : ℤ
  deriving DecidableEq, Repr

/-- A sample with its deployment. -/
structure Sample extends HealthSample where
  deployment : Deployment
  deriving DecidableEq, Repr

structure IncidentSignal where
  ruleKey : String
  severity : IncidentSeverity
  title : String
  summary : String
  deriving DecidableEq, Repr

/-- The `metadata` of incidents. -/
inductive Metadata
  | detected (ruleKey deploymentName healthSampleId sampleStatus : String)
      (desiredReplicas readyReplicas availableReplicas podCount warningEventCount restartCount : ℤ)
      (collectedAt : ℕ)
  | manual (deploymentName createdBy : String)
  deriving DecidableEq, Repr

/-- The `data` of `incident.create`. -/
structure IncidentData where
  appId : String
  deploymentId : String
  source : IncidentSource
  severity : IncidentSeverity
  ruleKey : Option String
  title : String
  summary : Option String
  latestHealthSampleId : Option String
  metadata : Option Metadata
  deriving DecidableEq, Repr

structure Incident extends IncidentData where
  id : String
  workspaceId : String
  status : IncidentStatus
  openedAt : ℕ
  resolvedAt : Option ℕ
  deriving DecidableEq, Repr

/-- The `data` of `incident.update`. -/
inductive IncidentChange
  | detected (severity : IncidentSeverity) (summary latestHealthSampleId : String)
      (metadata : Metadata)
  | resolved
  deriving DecidableEq, Repr

/-- The row after an update at `now`. -/
def IncidentChange.apply (now : ℕ) : IncidentChange → Incident → Incident
  | .detected severity summary latestHealthSampleId metadata, row =>
      { row with
          severity := severity
          summary := some summary
          latestHealthSampleId := some latestHealthSampleId
          metadata := some metadata }
  | .resolved, row => { row with status := .resolved, resolvedAt := some now }

/-- The `data` of `rcaRun.create`. -/
structure RunData where
  incidentId : String
  deploymentId : String
  source : RcaRunSource
  deriving DecidableEq, Repr

structure Run extends RunData where
  id : String
  workspaceId : String
  status : RcaRunStatus
  createdAt : ℕ
  deriving DecidableEq, Repr

structure RunEvent where
  rcaRunId : String
  workspaceId : String
  type : String
  source : RcaRunSource
  deriving DecidableEq, Repr

structure Database where
  apps : List AppRow
  deployments : List Deployment
  incidents : List Incident
  runs : List Run
  events : List RunEvent
  deriving DecidableEq, Repr

/-! ### Statements -/

inductive IncidentError
  /-- `NotFoundException` -/
  | notFound (message : String)
  | database (message : String)
  deriving DecidableEq, Repr

inductive Statement
  | findActiveWorkspaces
  | findRecentDeploymentIds
  | findSamples (deploymentId : String)
  | findOpenIncident (deploymentId ruleKey : String)
  | findIncident (id : String)
  | createIncident (data : IncidentData)
  | updateIncident (id : String) (change : IncidentChange)
  | findDeployment (id : String)
  | createRun (data : RunData)
  | createRunEvent (rcaRunId type : String) (source : RcaRunSource)
  /-- `set_config` and `COMMIT` -/
  | control
  deriving DecidableEq, Repr

abbrev Statement.Result : Statement → Type
  | .findActiveWorkspaces => List String
  | .findRecentDeploymentIds => List String
  | .findSamples _ => List Sample
  | .findOpenIncident _ _ => Option Incident
  | .findIncident _ => Option Incident
  | .createIncident _ => Incident
  | .updateIncident _ _ => Incident
  | .findDeployment _ => Option Deployment
  | .createRun _ => Run
  | .createRunEvent _ _ _ => Unit
  | .control => Unit

/-- What the environment chooses for a statement: whether it fails, the clock,
the id that is generated, the active workspaces, the samples in the table, and
the row that `findFirst` takes. -/
structure Choice where
  fault : Option String
  now : ℕ
  id : String
  workspaces : List String
  samples : List HealthSample
  pick : ℕ

/-- The sample with its deployment, for the workspace. -/
def Database.withDeployment (db : Database) (ws : String) (s : HealthSample) : Option Sample :=
  (db.deployments.find? fun d => d.id = s.deploymentId ∧ d.workspaceId = ws).map fun d => ⟨s, d⟩

/-- The rows that `findFirst` may take for `{ deploymentId, status: open, ruleKey }`. -/
def Database.openIncidents (db : Database) (ws deploymentId ruleKey : String) : List Incident :=
  db.incidents.filter fun i =>
    i.workspaceId = ws ∧ i.deploymentId = deploymentId ∧ i.status = .«open» ∧
      i.ruleKey = some ruleKey

/-- A row of the table, as the workspace sees it. -/
def Database.incident (db : Database) (ws id : String) : Option Incident :=
  db.incidents.find? fun i => i.id = id ∧ i.workspaceId = ws

def Database.deployment (db : Database) (ws id : String) : Option Deployment :=
  db.deployments.find? fun d => d.id = id ∧ d.workspaceId = ws

/-- The row that is inserted. -/
def IncidentData.row (ws : String) (x : Choice) (data : IncidentData) : Incident :=
  { data with
      id := x.id
      workspaceId := ws
      status := .«open»
      openedAt := x.now
      resolvedAt := none }

def RunData.row (ws : String) (x : Choice) (data : RunData) : Run :=
  { data with id := x.id, workspaceId := ws, status := .pending, createdAt := x.now }

/-- A statement that does not fail by itself, in the workspace `ws`. -/
def answer (ws : String) : (c : Statement) → Choice → Database →
    Except IncidentError c.Result × Database
  | .findActiveWorkspaces, x, db => (.ok x.workspaces, db)
  | .findRecentDeploymentIds, x, db =>
      let recent := x.samples.filter fun s => s.workspaceId = ws ∧ x.now - 10 * 60 * 1000 ≤ s.collectedAt
      (.ok ((recent.map HealthSample.deploymentId).dedup.insertionSort (· ≤ ·)), db)
  | .findSamples deploymentId, x, db =>
      let samples := x.samples.filter fun s => s.workspaceId = ws ∧ s.deploymentId = deploymentId
      let newest := samples.insertionSort fun a b => b.collectedAt ≤ a.collectedAt
      (.ok ((newest.take 2).filterMap (db.withDeployment ws)), db)
  | .findOpenIncident deploymentId ruleKey, x, db =>
      let found := db.openIncidents ws deploymentId ruleKey
      (.ok (found[x.pick % found.length]?), db)
  | .findIncident id, _, db => (.ok (db.incident ws id), db)
  | .createIncident data, x, db =>
      if db.incidents.any fun i => i.id = x.id then
        (.error (.database "Unique constraint failed"), db)
      else if (db.apps.any fun a => a.id = data.appId ∧ a.workspaceId = ws) ∧
          (db.deployments.any fun d => d.id = data.deploymentId ∧ d.workspaceId = ws) then
        (.ok (data.row ws x), { db with incidents := db.incidents ++ [data.row ws x] })
      else (.error (.database "Foreign key constraint violated"), db)
  | .updateIncident id change, x, db =>
      match db.incident ws id with
      | some row =>
          (.ok (change.apply x.now row),
            { db with incidents := db.incidents.map fun i =>
                if i.id = id ∧ i.workspaceId = ws then change.apply x.now i else i })
      | none => (.error (.database "Record to update not found"), db)
  | .findDeployment id, _, db => (.ok (db.deployment ws id), db)
  | .createRun data, x, db =>
      if db.runs.any fun r => r.id = x.id then
        (.error (.database "Unique constraint failed"), db)
      else if (db.incidents.any fun i => i.id = data.incidentId ∧ i.workspaceId = ws) ∧
          (db.deployments.any fun d => d.id = data.deploymentId ∧ d.workspaceId = ws) then
        (.ok (data.row ws x), { db with runs := db.runs ++ [data.row ws x] })
      else (.error (.database "Foreign key constraint violated"), db)
  | .createRunEvent rcaRunId type source, _, db =>
      if db.runs.any fun r => r.id = rcaRunId ∧ r.workspaceId = ws then
        (.ok (), { db with events := db.events ++ [⟨rcaRunId, ws, type, source⟩] })
      else (.error (.database "Foreign key constraint violated"), db)
  | .control, _, db => (.ok (), db)

/-- A statement, in the workspace `ws`.  One that fails, be it the commit, is
rolled back: a commit that takes effect and loses its answer is another fault. -/
def statement (ws : String) : Service Statement Statement.Result IncidentError Choice Database :=
  fun c x db => match x.fault with
    | some message => (.error (.database message), db)
    | none => answer ws c x db

/-! ### Transactions -/

/-- A program over the statements of one transaction. -/
abbrev Query (α : Type) : Type := Prog Statement Statement.Result IncidentError α

/-- A statement of a transaction. -/
def tx (c : Statement) : Query c.Result := perform c

/-- `withTenantTransaction` -/
def withTenantTransaction {α : Type} (callback : Query α) : Query α := do
  tx .control
  tx .control
  let a ← callback
  tx .control
  return a

/-- `tx.rcaRun.create` and the `run.created` event. -/
def createRunTx (data : RunData) : Query Run := do
  let created : Run ← tx (.createRun data)
  tx (.createRunEvent created.id "run.created" created.source)
  return created

inductive Transaction
  | startForIncident (incidentId : String) (source : RcaRunSource)
  | startForDeployment (deploymentId : String)
  deriving DecidableEq, Repr

/-- The callbacks of `startForIncident` and `startForDeployment`. -/
def Transaction.callback : Transaction → Query Run
  | .startForIncident incidentId source => do
      let incident : Option Incident ← tx (.findIncident incidentId)
      match incident with
      | none => Prog.throw (.notFound s!"Incident {incidentId} was not found")
      | some incident =>
          createRunTx ⟨incident.id, incident.deploymentId, normalizeRcaRunSource source⟩
  | .startForDeployment deploymentId => do
      let deployment : Option Deployment ← tx (.findDeployment deploymentId)
      match deployment with
      | none => Prog.throw (.notFound s!"Deployment {deploymentId} was not found")
      | some deployment => do
          let incident : Incident ← tx (.createIncident
            { appId := deployment.appId
              deploymentId := deployment.id
              source := .manual
              severity := .warning
              ruleKey := none
              title := s!"Manual RCA requested for {deployment.kubernetesDeployment}"
              summary := some "Manual RCA run was requested without a pre-existing incident."
              latestHealthSampleId := none
              metadata := some (.manual deployment.kubernetesDeployment "manual-rca-api") })
          createRunTx ⟨incident.id, deployment.id, .manual⟩

/-! ### The service -/

/-- The flag `isDetecting` of each instance is that the instance is in the list. -/
structure System where
  db : Database
  detecting : List ℕ
  deriving DecidableEq, Repr

inductive Call
  | statement (ws : String) (c : Statement)
  | transaction (ws : String) (t : Transaction)
  /-- `if (this.isDetecting) return; this.isDetecting = true` -/
  | claimDetection (instance' : ℕ)
  /-- `this.isDetecting = false` -/
  | endDetection (instance' : ℕ)
  deriving DecidableEq, Repr

abbrev Call.Result : Call → Type
  | .statement _ c => c.Result
  | .transaction _ _ => Run
  | .claimDetection _ => Bool
  | .endDetection _ => Unit

/-- One call, with a choice for each of its statements.  A transaction whose
callback raises is rolled back. -/
def serve : Service Call Call.Result IncidentError (ℕ → Choice) System
  | .statement ws c, env, s =>
      let r := statement ws c (env 0) s.db
      (r.1, { s with db := r.2 })
  | .transaction ws t, env, s =>
      let ended := (withTenantTransaction t.callback).run (statement ws) env s.db
      match ended.outcome with
      | .ok run => (.ok run, { s with db := ended.state })
      | .error e => (.error e, s)
  | .claimDetection i, _, s =>
      if i ∈ s.detecting then (.ok false, s)
      else (.ok true, { s with detecting := i :: s.detecting })
  | .endDetection i, _, s => (.ok (), { s with detecting := s.detecting.filter (· ≠ i) })

/-! ### Signals -/

/-- `buildSignals` -/
def buildSignals (latest : HealthSample) (previous : Option HealthSample) : List IncidentSignal :=
  (if 0 < latest.desiredReplicas ∧ latest.readyReplicas < latest.desiredReplicas then
    [{ ruleKey := "ready-replicas-below-desired"
       severity := .critical
       title := "Deployment has unavailable replicas"
       summary := s!"Ready replicas {latest.readyReplicas}/{latest.desiredReplicas}." }]
  else []) ++
  (if 0 < latest.warningEventCount then
    [{ ruleKey := "kubernetes-warning-events"
       severity := .warning
       title := "Deployment has Kubernetes warning events"
       summary := s!"{latest.warningEventCount} warning event(s) were observed in the latest health sample." }]
  else []) ++
  (match previous with
    | some previous =>
        if previous.restartCount < latest.restartCount then
          [{ ruleKey := "container-restarts-increased"
             severity := .warning
             title := "Container restart count increased"
             summary := s!"Container restarts increased from {previous.restartCount} to {latest.restartCount}." }]
        else []
    | none => []) ++
  (if latest.status = "failed" ∨ latest.status = "warning" then
    [{ ruleKey := s!"health-status-{latest.status}"
       severity := if latest.status = "failed" then .critical else .warning
       title := s!"Deployment health status is {latest.status}"
       summary := s!"Latest health sample status is {latest.status}." }]
  else [])

/-- `buildIncidentMetadata` -/
def buildIncidentMetadata (sample : Sample) (signal : IncidentSignal) : Metadata :=
  .detected signal.ruleKey sample.deployment.kubernetesDeployment sample.id sample.status
    sample.desiredReplicas sample.readyReplicas sample.availableReplicas sample.podCount
    sample.warningEventCount sample.restartCount sample.collectedAt

/-! ### The functions -/

/-- `CreateIncidentDto` -/
structure CreateIncidentDto where
  severity : Option IncidentSeverity
  title : Option String
  summary : Option String
  deriving DecidableEq, Repr

/-- What comes from outside: ticks of the detection timer of an instance, and
requests in a workspace. -/
inductive Request
  | detect (instance' : ℕ)
  | createManual (ws deploymentId : String) (dto : CreateIncidentDto)
  | resolve (ws id : String)
  | startForIncident (ws incidentId : String) (source : RcaRunSource)
  | startForDeployment (ws deploymentId : String)
  deriving DecidableEq, Repr

/-- What the service starts: requests, and what a detection pass awaits. -/
inductive Job
  | request (r : Request)
  | detectDeployment (ws deploymentId : String)
  | openAutomatic (ws : String) (sample : Sample) (signal : IncidentSignal)
  deriving DecidableEq, Repr

/-- An `async` method. -/
abbrev Task (α : Type) : Type := Async Job Call Call.Result IncidentError α

/-- A statement outside of a transaction. -/
def query (ws : String) (c : Statement) : Task c.Result := await (Call.statement ws c)

/-- `startForIncident` and `startForDeployment`, up to the request to the agent. -/
def startRun (ws : String) (t : Transaction) : Task Run := await (Call.transaction ws t)

/-- `findOne` -/
def findOne (ws id : String) : Task Incident := do
  let incident : Option Incident ← query ws (.findIncident id)
  match incident with
  | none => Prog.throw (.notFound s!"Incident {id} was not found")
  | some incident => return incident

/-- `findDeployment` -/
def findDeployment (ws deploymentId : String) : Task Deployment := do
  let deployment : Option Deployment ← query ws (.findDeployment deploymentId)
  match deployment with
  | none => Prog.throw (.notFound s!"Deployment {deploymentId} was not found")
  | some deployment => return deployment

/-- The `data` of `createManualIncident`. -/
def manualIncident (deployment : Deployment) (dto : CreateIncidentDto) : IncidentData where
  appId := deployment.appId
  deploymentId := deployment.id
  source := .manual
  severity := dto.severity.getD .warning
  ruleKey := none
  title := dto.title.getD s!"Manual incident for {deployment.kubernetesDeployment}"
  summary := dto.summary
  latestHealthSampleId := none
  metadata := some (.manual deployment.kubernetesDeployment "manual-api")

/-- `createManualIncident` -/
def createManualIncident (ws deploymentId : String) (dto : CreateIncidentDto) : Task Incident := do
  let deployment ← findDeployment ws deploymentId
  query ws (.createIncident (manualIncident deployment dto))

/-- `resolve` -/
def resolve (ws id : String) : Task Incident := do
  let _ ← findOne ws id
  query ws (.updateIncident id .resolved)

/-- The `data` of the update in `openAutomaticIncident`. -/
def detectedChange (sample : Sample) (signal : IncidentSignal) : IncidentChange :=
  .detected signal.severity signal.summary sample.id (buildIncidentMetadata sample signal)

/-- The `data` of the creation in `openAutomaticIncident`. -/
def automaticIncident (sample : Sample) (signal : IncidentSignal) : IncidentData where
  appId := sample.deployment.appId
  deploymentId := sample.deploymentId
  source := .automatic
  severity := signal.severity
  ruleKey := some signal.ruleKey
  title := signal.title
  summary := some signal.summary
  latestHealthSampleId := some sample.id
  metadata := some (buildIncidentMetadata sample signal)

/-- `openAutomaticIncident` -/
def openAutomaticIncident (autoRcaEnabled : Bool) (ws : String) (sample : Sample)
    (signal : IncidentSignal) : Task Unit := do
  let existing : Option Incident ←
    query ws (.findOpenIncident sample.deploymentId signal.ruleKey)
  match existing with
  | some existing => do
      let _ ← query ws (.updateIncident existing.id (detectedChange sample signal))
  | none => do
      let incident : Incident ← query ws (.createIncident (automaticIncident sample signal))
      if autoRcaEnabled then
        let _ ← startRun ws (.startForIncident incident.id .automatic)

/-- `detectDeploymentIncidents` -/
def detectDeploymentIncidents (ws deploymentId : String) : Task Unit := do
  let samples : List Sample ← query ws (.findSamples deploymentId)
  match samples with
  | [] => return ()
  | latest :: rest =>
      let signals := buildSignals latest.toHealthSample (rest.head?.map Sample.toHealthSample)
      awaitAll (signals.map fun signal => Job.openAutomatic ws latest signal)

/-- The loop of `detectIncidents` over the active workspaces. -/
def detectWorkspaces : List String → Task Unit
  | [] => return ()
  | ws :: rest => do
      let deploymentIds : List String ← query ws .findRecentDeploymentIds
      awaitAll (deploymentIds.map fun id => Job.detectDeployment ws id)
      detectWorkspaces rest

/-- `detectIncidents` of an instance.  The workspaces are not tenant rows. -/
def detectIncidents (i : ℕ) : Task Unit := do
  let claimed : Bool ← await (Call.claimDetection i)
  if claimed then
    withFinally
      (do
        let workspaces : List String ← query "" .findActiveWorkspaces
        detectWorkspaces workspaces)
      (await (Call.endDetection i))

/-- The function behind a request. -/
def Request.task : Request → Task Unit
  | .detect i => (detectIncidents i).tryCatch fun _ => return ()
  | .createManual ws deploymentId dto => do
      let _ ← createManualIncident ws deploymentId dto
  | .resolve ws id => do
      let _ ← Incidents.resolve ws id
  | .startForIncident ws incidentId source => do
      let _ ← startRun ws (.startForIncident incidentId source)
  | .startForDeployment ws deploymentId => do
      let _ ← startRun ws (.startForDeployment deploymentId)

/-- The function behind a job.  A pass logs the error of a deployment and goes on. -/
def Job.task (autoRcaEnabled : Bool) : Job → Task Unit
  | .request r => r.task
  | .detectDeployment ws deploymentId =>
      (detectDeploymentIncidents ws deploymentId).tryCatch fun _ => return ()
  | .openAutomatic ws sample signal => openAutomaticIncident autoRcaEnabled ws sample signal

/-- The service with what it has started. -/
abbrev Manager : Type := Fibers Job Call Call.Result IncidentError System

/-- The step function. -/
def managerStep (autoRcaEnabled : Bool) : Manager → ℕ × (ℕ → Choice) → Option Manager :=
  Fibers.step (Job.task autoRcaEnabled) serve

/-- Requests that have not begun. -/
def startManager (autoRcaEnabled : Bool) (db : Database) (requests : List Request) : Manager :=
  Fibers.start (Job.task autoRcaEnabled) ⟨db, []⟩ (requests.map Job.request)

end NexCause.Incidents
