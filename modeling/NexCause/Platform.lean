/-
NexCause/Platform.lean

What the deployment manager's programs run on: the rows of the database they
read and write, the cluster, and the calls to both, each one atomic step.

Every call may fail, as the environment chooses.  A call to the database that
fails is rolled back and changes nothing.  A call to the cluster that fails has
been refused, or has had its effect and lost its answer.  An update by id writes
the columns it names over whatever the row holds.
-/
import NexCause.Cluster
import NexCause.Program

namespace NexCause

open Program

/-! ### Rows -/

/-- `DeploymentStatus` of the database schema. -/
inductive DeploymentStatus
  | creating | running | failed | stopped | deleted
  deriving DecidableEq, Repr

/-- `BuildStatus` of the database schema. -/
inductive BuildStatus
  | pending | running | succeeded | failed | skipped
  deriving DecidableEq, Repr

structure App where
  id : String
  name : String
  defaultPort : Option ℕ
  deriving DecidableEq, Repr

structure Build where
  id : String
  appId : String
  status : BuildStatus
  image : Option String
  deriving DecidableEq, Repr

structure Workspace where
  id : String
  kubernetesNamespace : String
  deriving DecidableEq, Repr

/-- `RuntimeConfigType` of the database schema. -/
inductive RuntimeConfigType
  | env | secret | file
  deriving DecidableEq, Repr

/-- The JSON of a runtime config: the values, the names of the secrets, or
the older form of a secret record. -/
inductive RuntimeConfigData
  | values (entries : Entries)
  | secretKeys (envKeys filePaths : List String)
  | legacySecret (env files : Entries)
  deriving DecidableEq, Repr

structure RuntimeConfig where
  type : RuntimeConfigType
  data : RuntimeConfigData
  deriving DecidableEq, Repr

/-- A row of `Deployment`, with its runtime configs. -/
structure Deployment where
  id : String
  workspaceId : String
  appId : String
  buildId : Option String
  «namespace» : String
  image : String
  replicas : ℕ
  desiredReplicas : ℕ
  lastNonZeroReplicas : Option ℕ
  port : ℕ
  status : DeploymentStatus
  kubernetesDeployment : String
  kubernetesService : String
  kubernetesConfigMap : Option String
  kubernetesFileConfigMap : Option String
  kubernetesSecret : Option String
  kubernetesSecretFiles : Option String
  publicHostname : Option String
  stoppedAt : Option ℕ
  lastRestartedAt : Option ℕ
  deletedAt : Option ℕ
  runtimeConfigs : List RuntimeConfig
  deriving DecidableEq, Repr

/-- The `data` of a `deployment.update`: the columns it names, with their new
values. -/
structure DeploymentUpdate where
  replicas : Option ℕ := none
  desiredReplicas : Option ℕ := none
  lastNonZeroReplicas : Option (Option ℕ) := none
  status : Option DeploymentStatus := none
  publicHostname : Option (Option String) := none
  stoppedAt : Option (Option ℕ) := none
  lastRestartedAt : Option (Option ℕ) := none
  deletedAt : Option (Option ℕ) := none
  deriving DecidableEq, Repr

/-- The row after an update. -/
def Deployment.update (d : Deployment) (u : DeploymentUpdate) : Deployment :=
  { d with
    replicas := u.replicas.getD d.replicas
    desiredReplicas := u.desiredReplicas.getD d.desiredReplicas
    lastNonZeroReplicas := u.lastNonZeroReplicas.getD d.lastNonZeroReplicas
    status := u.status.getD d.status
    publicHostname := u.publicHostname.getD d.publicHostname
    stoppedAt := u.stoppedAt.getD d.stoppedAt
    lastRestartedAt := u.lastRestartedAt.getD d.lastRestartedAt
    deletedAt := u.deletedAt.getD d.deletedAt }

/-- The database and the cluster. -/
structure World where
  apps : List App
  builds : List Build
  workspaces : List Workspace
  deployments : String → Option Deployment
  cluster : Cluster

/-! ### Calls -/

inductive Call
  | findApp (id : String)
  | findBuild (id : String)
  | findWorkspace (id : String)
  | findDeployment (id : String)
  | createDeployment (data : Deployment)
  | updateDeployment (id : String) (data : DeploymentUpdate)
  | kubernetes (op : ClusterOp)
  deriving DecidableEq, Repr

/-- What a call returns. -/
def Call.Result : Call → Type
  | .findApp _ => Option App
  | .findBuild _ => Option Build
  | .findWorkspace _ => Option Workspace
  | .findDeployment _ => Option Deployment
  | .createDeployment _ => Deployment
  | .updateDeployment _ _ => Deployment
  | .kubernetes op => op.Result

/-- What the environment does at one call. -/
structure Environment where
  kubernetesFault : Option Fault
  databaseFault : Option String
  status : DeploymentConditions
  /-- a call to the cluster that fails has had its effect, and only its answer
  is lost -/
  tookEffect : Bool

/-- No call fails but for what it asks. -/
structure Environment.Healthy (x : Environment) : Prop where
  kubernetes : x.kubernetesFault = none
  database : x.databaseFault = none

/-- The call to the cluster has its effect, and fails all the same. -/
structure Environment.AnswerLost (x : Environment) : Prop where
  fails : x.kubernetesFault.isSome
  tookEffect : x.tookEffect = true

instance (x : Environment) : Decidable x.AnswerLost :=
  decidable_of_iff (x.kubernetesFault.isSome ∧ x.tookEffect = true)
    ⟨fun h => ⟨h.1, h.2⟩, fun h => ⟨h.1, h.2⟩⟩

/-- Nothing fails. -/
def healthy : Environment := ⟨none, none, ⟨0, 0, 0, 0, []⟩, false⟩

theorem healthy_healthy : healthy.Healthy := ⟨rfl, rfl⟩

/-- Serve a call to the database. -/
def World.serveDatabase (w : World) : (c : Call) → Except ApiError c.Result × World
  | .findApp id => (.ok (w.apps.find? fun a => a.id = id), w)
  | .findBuild id => (.ok (w.builds.find? fun b => b.id = id), w)
  | .findWorkspace id => (.ok (w.workspaces.find? fun ws => ws.id = id), w)
  | .findDeployment id => (.ok (w.deployments id), w)
  | .createDeployment data =>
      match w.deployments data.id with
      | some _ => (.error (.database "Unique constraint failed"), w)
      | none =>
          if data.buildId.all fun id => w.builds.any fun b => b.id = id then
            (.ok data, { w with deployments := Function.update w.deployments data.id (some data) })
          else (.error (.database "Foreign key constraint violated"), w)
  | .updateDeployment id data =>
      match w.deployments id with
      | none => (.error (.database "Record to update not found"), w)
      | some d =>
          (.ok (d.update data),
            { w with deployments := Function.update w.deployments id (some (d.update data)) })
  | .kubernetes _ => (.error (.error "not a database call"), w)

/-- Serve a call.  One to the database that fails is rolled back; one to the
cluster that fails may have taken effect all the same. -/
def serve : Service Call Call.Result ApiError Environment World := fun c x w =>
  match c with
  | .kubernetes op =>
      let (r, cluster) := w.cluster.serve op x.status
      match x.kubernetesFault with
      | some fault => (.error fault.1, if x.tookEffect then { w with cluster } else w)
      | none => (r, { w with cluster })
  | c =>
      match x.databaseFault with
      | some message => (.error (.database message), w)
      | none => w.serveDatabase c

/-- A program of the deployment manager. -/
abbrev Action (α : Type) : Type := Prog Call Call.Result ApiError α

/-! One action for each call, with its type. -/

def findApp (id : String) : Action (Option App) := Prog.perform (Call.findApp id)

def findBuild (id : String) : Action (Option Build) := Prog.perform (Call.findBuild id)

def findWorkspace (id : String) : Action (Option Workspace) := Prog.perform (Call.findWorkspace id)

def findDeployment (id : String) : Action (Option Deployment) := Prog.perform (Call.findDeployment id)

def createDeployment (data : Deployment) : Action Deployment := Prog.perform (Call.createDeployment data)

def updateDeployment (id : String) (data : DeploymentUpdate) : Action Deployment :=
  Prog.perform (Call.updateDeployment id data)

def readObject (key : ObjectKey) : Action ReadBody := Prog.perform (Call.kubernetes (.read key))

def createObject (key : ObjectKey) (resourceVersion : Option ℕ) (m : Manifest) : Action Unit :=
  Prog.perform (Call.kubernetes (.create key resourceVersion m))

def replaceObject (key : ObjectKey) (resourceVersion : ℕ) (m : Manifest) : Action Unit :=
  Prog.perform (Call.kubernetes (.replace key resourceVersion m))

def deleteObject (key : ObjectKey) : Action Unit := Prog.perform (Call.kubernetes (.delete key))

def patchObject (key : ObjectKey) (p : MergePatch) : Action Unit :=
  Prog.perform (Call.kubernetes (.patch key p))

/-! ### What a call does -/

/-- The call is one to the cluster. -/
def Call.IsKubernetes : Call → Prop
  | .kubernetes _ => True
  | _ => False

/-- A call to the cluster leaves the database alone. -/
theorem serve_deployments {c : Call} (hc : c.IsKubernetes) (x : Environment) (w : World) :
    (serve c x w).2.deployments = w.deployments := by
  cases c with
  | kubernetes op =>
    simp only [serve]
    split
    · split <;> rfl
    · rfl
  | _ => exact hc.elim

/-- A call that is not to the cluster leaves the cluster alone. -/
theorem serve_cluster {c : Call} (hc : ¬ c.IsKubernetes) (x : Environment) (w : World) :
    (serve c x w).2.cluster = w.cluster := by
  cases c with
  | kubernetes op => exact absurd trivial hc
  | createDeployment data =>
    simp only [serve, World.serveDatabase]
    split
    · rfl
    · split
      · rfl
      · split <;> rfl
  | updateDeployment id data =>
    simp only [serve, World.serveDatabase]
    split
    · rfl
    · split <;> rfl
  | _ =>
    simp only [serve, World.serveDatabase]
    split <;> rfl

/-- No call changes the apps, the builds or the workspaces. -/
theorem serve_tables (c : Call) (x : Environment) (w : World) :
    (serve c x w).2.apps = w.apps ∧ (serve c x w).2.builds = w.builds ∧
      (serve c x w).2.workspaces = w.workspaces := by
  cases c with
  | kubernetes op =>
    simp only [serve]
    split
    · split <;> exact ⟨rfl, rfl, rfl⟩
    · exact ⟨rfl, rfl, rfl⟩
  | createDeployment data =>
    simp only [serve, World.serveDatabase]
    split
    · exact ⟨rfl, rfl, rfl⟩
    · split
      · exact ⟨rfl, rfl, rfl⟩
      · split <;> exact ⟨rfl, rfl, rfl⟩
  | updateDeployment id data =>
    simp only [serve, World.serveDatabase]
    split
    · exact ⟨rfl, rfl, rfl⟩
    · split <;> exact ⟨rfl, rfl, rfl⟩
  | _ =>
    simp only [serve, World.serveDatabase]
    split <;> exact ⟨rfl, rfl, rfl⟩

/-- How a record can come to be what it is after a call: it was so, it was
inserted, or it was updated. -/
theorem serve_record {c : Call} {x : Environment} {w : World} {id : String} {d' : Deployment}
    (h : (serve c x w).2.deployments id = some d') :
    w.deployments id = some d' ∨
    (w.deployments id = none ∧ c = .createDeployment d' ∧ d'.id = id) ∨
    ∃ d u, w.deployments id = some d ∧ c = .updateDeployment id u ∧ d' = d.update u := by
  cases c with
  | kubernetes op => exact .inl (serve_deployments (c := .kubernetes op) trivial x w ▸ h)
  | createDeployment data =>
    simp only [serve, World.serveDatabase] at h
    split at h
    · exact .inl h
    · split at h
      · exact .inl h
      · rename_i hnone
        split at h
        · -- the row is this one, or was there before
          change Function.update w.deployments data.id (some data) id = some d' at h
          by_cases hid : id = data.id
          · subst hid
            rw [Function.update_self] at h
            obtain rfl := Option.some.inj h
            exact .inr (.inl ⟨hnone, rfl, rfl⟩)
          · rw [Function.update_of_ne hid] at h
            exact .inl h
        · exact .inl h
  | updateDeployment id' u =>
    simp only [serve, World.serveDatabase] at h
    split at h
    · exact .inl h
    · split at h
      · exact .inl h
      · rename_i d hd
        -- an update writes the row that it names
        change Function.update w.deployments id' (some (d.update u)) id = some d' at h
        by_cases hid : id = id'
        · subst hid
          rw [Function.update_self] at h
          exact .inr (.inr ⟨d, u, hd, rfl, (Option.some.inj h).symm⟩)
        · rw [Function.update_of_ne hid] at h
          exact .inl h
  | _ =>
    simp only [serve, World.serveDatabase] at h
    split at h <;> exact .inl h

/-- A record stays, with its names. -/
theorem serve_keeps_record {w : World} {id : String} {d : Deployment} (h : w.deployments id = some d)
    (c : Call) (x : Environment) :
    (serve c x w).2.deployments id = some d ∨
      ∃ u, c = .updateDeployment id u ∧ (serve c x w).2.deployments id = some (d.update u) := by
  cases c with
  | kubernetes op => exact .inl ((serve_deployments (c := .kubernetes op) trivial x w).symm ▸ h)
  | createDeployment data =>
    left
    simp only [serve, World.serveDatabase]
    split
    · exact h
    · split
      · exact h
      · -- another row is inserted
        rename_i hnone
        have hne : id ≠ data.id := by
          rintro rfl
          rw [hnone] at h
          cases h
        split
        · show Function.update w.deployments data.id (some data) id = some d
          rw [Function.update_of_ne hne]
          exact h
        · exact h
  | updateDeployment id' u =>
    simp only [serve, World.serveDatabase]
    split
    · exact .inl h
    · split
      · exact .inl h
      · rename_i d' hd'
        -- the row itself is written, or another
        by_cases hid : id = id'
        · subst hid
          obtain rfl := Option.some.inj (h.symm.trans hd')
          exact .inr ⟨u, rfl, Function.update_self ..⟩
        · left
          show Function.update w.deployments id' (some (d'.update u)) id = some d
          rw [Function.update_of_ne hid]
          exact h
  | _ =>
    left
    simp only [serve, World.serveDatabase]
    split <;> exact h

end NexCause
