/-
NexCause/BuildStatuses.lean

The status of a build while it is created and asked for: `create` and
`getStatus` of `BuildsService`, in any overlap, beside a Job whose counters only
grow.  `create` writes `running` at its end whatever the row says by then, and
`getStatus` writes what it has concluded from an earlier look at the Job.

Main result: if nobody is about to write `running` when the end of the Job is
stored, and nobody to write `failed` when the Job succeeds, a finished build stays
finished and no build whose Job has succeeded is stored as failed
(`build_statuses_settle`).
-/
import NexCause.DeploymentsService
import NexCause.ImageNames
import NexCause.Interleaving

namespace NexCause

open Program Transition

namespace BuildsService

/-! ### Rows and Jobs -/

/-- A row of `Build`. -/
structure BuildRecord where
  id : String
  workspaceId : String
  status : BuildStatus
  image : Option String
  kubernetesJob : Option String
  errorMessage : Option String
  deriving DecidableEq, Repr

/-- The `data` of a `build.update`; a message that is not there is left as it is. -/
structure BuildUpdate where
  status : BuildStatus
  errorMessage : Option (Option String)
  deriving DecidableEq, Repr

def BuildRecord.update (build : BuildRecord) (data : BuildUpdate) : BuildRecord :=
  { build with
    status := data.status
    errorMessage := data.errorMessage.getD build.errorMessage }

structure JobCondition where
  type : Option String
  message : Option String
  deriving DecidableEq, Repr

/-- What `getBuildJobStatus` reads of a Job. -/
structure LiveJobStatus where
  active : ℕ
  succeeded : ℕ
  failed : ℕ
  conditions : List JobCondition
  deriving DecidableEq, Repr

/-! ### Calls -/

/-- The calls about one build; `where: { id }` is this build in all of them. -/
inductive BuildCall
  | findApp (id : String)
  | findWorkspace (id : String)
  | insertBuild (data : BuildRecord)
  /-- `createBuildJob` or `createBuildpackJob` -/
  | createJob (job : BuildJob)
  | updateBuild (data : BuildUpdate)
  | findBuild
  | getBuildJobStatus («namespace» jobName : String)
  deriving DecidableEq, Repr

def BuildCall.Result : BuildCall → Type
  | .findApp _ => Option SourceApp
  | .findWorkspace _ => Option String
  | .insertBuild _ => BuildRecord
  | .createJob _ => Unit
  | .updateBuild _ => BuildRecord
  | .findBuild => Option BuildRecord
  | .getBuildJobStatus _ _ => LiveJobStatus

abbrev BuildAction (α : Type) : Type := Prog BuildCall BuildCall.Result ApiError α

/-- What a request returns. -/
inductive BuildResponse
  | build (record : BuildRecord)
  | status (buildId : String) (status : BuildStatus) (image : Option String)
      (live : Option LiveJobStatus)
  deriving DecidableEq, Repr

/-! ### The source -/

def workspaceNamespace (workspaceId : String) : BuildAction String := do
  match ← Prog.perform (BuildCall.findWorkspace workspaceId) with
  | some kubernetesNamespace => return kubernetesNamespace
  | none => .throw (.notFound "Workspace was not found")

/-- What a build is created from: the configuration, the id of the app, the request, the
tenant's workspace and the id that `randomUUID` gives. -/
structure CreateBuild where
  config : RegistryConfig
  localRegistryHost : Option String
  appId : String
  createBuildDto : CreateBuildDto
  workspaceId : Option String
  buildId : DeploymentId

/-- The row that is inserted. -/
def CreateBuild.record (r : CreateBuild) (app : SourceApp) (workspaceId : String) : BuildRecord where
  id := r.buildId.text
  workspaceId
  status := .pending
  image := some (imageName (r.localRegistryHost.getD "localhost:5001") app.name r.buildId)
  kubernetesJob := some (buildJobName app.name r.buildId.text)
  errorMessage := none

def create (r : CreateBuild) : BuildAction BuildResponse := do
  match ← Prog.perform (BuildCall.findApp r.appId) with
  | none => .throw (.notFound ("App " ++ r.appId ++ " was not found"))
  | some app =>
    if app.sourceType ≠ .git then
      .throw (.badRequest "Builds can only be created for git apps")
    else
      match truthy app.repoUrl with
      | none => .throw (.badRequest "Git apps must have a repoUrl before building")
      | some repoUrl => do
        let workspaceId ← Prog.ofExcept (requireWorkspaceId r.workspaceId)
        let «namespace» ← workspaceNamespace workspaceId
        let _ ← Prog.perform (BuildCall.insertBuild (r.record app workspaceId))
        let job := jobFor r.config app r.createBuildDto workspaceId «namespace» r.buildId repoUrl
        (Prog.perform (BuildCall.createJob job)).tryCatch fun error => do
          let _ ← Prog.perform (BuildCall.updateBuild ⟨.failed, some (some error.message)⟩)
          Prog.throw error
        let build ← Prog.perform (BuildCall.updateBuild ⟨.running, none⟩)
        return .build build

def getBuildStatusFromJob (currentStatus : BuildStatus) (liveStatus : LiveJobStatus) : BuildStatus :=
  if 0 < liveStatus.succeeded then .succeeded
  else if 0 < liveStatus.failed then .failed
  else if 0 < liveStatus.active then .running
  else currentStatus

def getFailedConditionMessage (conditions : List JobCondition) : Option String :=
  (conditions.find? fun condition => condition.type = some "Failed").bind JobCondition.message

/-- The update of a `getStatus` that has found another status. -/
def statusUpdate (build : BuildRecord) (liveStatus : LiveJobStatus) : BuildUpdate where
  status := getBuildStatusFromJob build.status liveStatus
  errorMessage :=
    if getBuildStatusFromJob build.status liveStatus = .failed then
      (getFailedConditionMessage liveStatus.conditions).map some
    else some build.errorMessage

def getStatus (id : String) : BuildAction BuildResponse := do
  match ← Prog.perform BuildCall.findBuild with
  | none => .throw (.notFound ("Build " ++ id ++ " was not found"))
  | some build =>
    match truthy build.kubernetesJob with
    | none => return .status build.id build.status build.image none
    | some jobName => do
      let «namespace» ← workspaceNamespace build.workspaceId
      let liveStatus ← Prog.perform (BuildCall.getBuildJobStatus «namespace» jobName)
      let nextStatus := getBuildStatusFromJob build.status liveStatus
      if nextStatus ≠ build.status then
        let _ ← Prog.perform (BuildCall.updateBuild (statusUpdate build liveStatus))
        return .status build.id nextStatus build.image (some liveStatus)
      else
        return .status build.id nextStatus build.image (some liveStatus)

/-! ### The world of one build -/

/-- The row of the build, and the Job of its name. -/
structure BuildWorld where
  row : Option BuildRecord
  job : Option LiveJobStatus
  deriving DecidableEq, Repr

/-- What the environment does at one call: what the Job has done since the last one, what the
lookups find, and whether the call fails; a creation that fails may have made the Job. -/
structure BuildEnvironment where
  active : ℕ
  succeeded : ℕ
  failed : ℕ
  conditions : List JobCondition
  app : Option SourceApp
  «namespace» : Option String
  fault : Option ApiError
  jobMade : Bool

/-- The Job goes on: its counters grow. -/
def BuildWorld.advance (w : BuildWorld) (x : BuildEnvironment) : BuildWorld :=
  { w with
    job := w.job.map fun live =>
      ⟨x.active, live.succeeded + x.succeeded, live.failed + x.failed, x.conditions⟩ }

/-- A Job that has not started a pod. -/
def freshJob : LiveJobStatus := ⟨0, 0, 0, []⟩

/-- Serve a call that does not fail. -/
def BuildWorld.serve (w : BuildWorld) (x : BuildEnvironment) :
    (c : BuildCall) → Except ApiError c.Result × BuildWorld
  | .findApp _ => (.ok x.app, w)
  | .findWorkspace _ => (.ok x.«namespace», w)
  | .insertBuild data =>
      match w.row with
      | some _ => (.error (.database "Unique constraint failed"), w)
      | none => (.ok data, { w with row := some data })
  | .createJob _ =>
      match w.job with
      | some _ => (.error (.kubernetes 409 "AlreadyExists"), w)
      | none => (.ok (), { w with job := some freshJob })
  | .updateBuild data =>
      match w.row with
      | none => (.error (.database "Record to update not found"), w)
      | some build => (.ok (build.update data), { w with row := some (build.update data) })
  | .findBuild => (.ok w.row, w)
  | .getBuildJobStatus _ _ =>
      match w.job with
      | none => (.error (.kubernetes 404 "NotFound"), w)
      | some live => (.ok live, w)

/-- What a call that fails has done. -/
def BuildWorld.failing (w : BuildWorld) (x : BuildEnvironment) : BuildCall → BuildWorld
  | .createJob _ => if x.jobMade ∧ w.job = none then { w with job := some freshJob } else w
  | _ => w

def serve : Service BuildCall BuildCall.Result ApiError BuildEnvironment BuildWorld := fun c x w =>
  match x.fault with
  | some e => (.error e, (w.advance x).failing x c)
  | none => (w.advance x).serve x c

/-! ### Requests -/

inductive BuildRequest
  | create (r : CreateBuild)
  | getStatus (id : String)

def BuildRequest.program : BuildRequest → BuildAction BuildResponse
  | .create r => BuildsService.create r
  | .getStatus id => BuildsService.getStatus id

/-- The request reads the Job. -/
def BuildRequest.polls : BuildRequest → Bool
  | .create _ => false
  | .getStatus _ => true

abbrev BuildPool : Type :=
  Pool BuildRequest BuildCall BuildCall.Result ApiError BuildResponse BuildWorld

/-- One create request, and any number of requests for the status. -/
def startBuild (r : CreateBuild) (polls : ℕ) (job : Option LiveJobStatus) : BuildPool :=
  .start ⟨none, job⟩
    ((.create r :: List.replicate polls (.getStatus r.buildId.text)).map fun q => (q, q.program))

/-- A status that was stored: whether from the Job, and how many pods of the Job had
succeeded by then. -/
structure StoredStatus where
  fromJob : Bool
  status : BuildStatus
  succeeded : ℕ
  deriving DecidableEq, Repr

def BuildWorld.succeeded (w : BuildWorld) : ℕ := (w.job.map LiveJobStatus.succeeded).getD 0

def BuildWorld.failed (w : BuildWorld) : ℕ := (w.job.map LiveJobStatus.failed).getD 0

/-- What a call of a request has stored. -/
def storedBy (q : BuildRequest) (c : BuildCall) (answer : Except ApiError c.Result × BuildWorld) :
    Option StoredStatus :=
  match c, answer with
  | .insertBuild data, (.ok _, w) => some ⟨q.polls, data.status, w.succeeded⟩
  | .updateBuild data, (.ok _, w) => some ⟨q.polls, data.status, w.succeeded⟩
  | _, _ => none

/-- The record of what has been stored. -/
def noteStored (s : BuildPool) (l : ℕ × BuildEnvironment) (stored : List StoredStatus) :
    List StoredStatus :=
  match s.next l.1 with
  | some (q, c) => stored ++ (storedBy q c (serve c l.2 s.state)).toList
  | none => stored

/-- The status says that the Job is over. -/
def IsFinished (status : BuildStatus) : Prop := status = .succeeded ∨ status = .failed

/-- After a finish from the Job nothing is stored as unfinished, and what has succeeded is never
stored as failed. -/
structure StatusesSettle (stored : List StoredStatus) : Prop where
  settled : ∀ before e after, stored = before ++ e :: after → e.fromJob = true →
    IsFinished e.status → ∀ e' ∈ after, e'.status ≠ .pending ∧ e'.status ≠ .running
  failed : ∀ e ∈ stored, e.status = .failed → e.succeeded = 0

/-! ### Which updates a request comes to -/

/-- The call that a program makes first. -/
def firstCall : BuildAction BuildResponse → Option BuildCall
  | .call c _ => some c
  | _ => none

/-- Why a request goes on to store a status after an answer. -/
inductive Justified (q : BuildRequest) : (c : BuildCall) → Except ApiError c.Result → BuildStatus → Prop
  | started (job : BuildJob) (hq : q.polls = false) : Justified q (.createJob job) (.ok ()) .running
  | broken (job : BuildJob) (e : ApiError) (hq : q.polls = false) :
      Justified q (.createJob job) (.error e) .failed
  | read («namespace» jobName : String) (current : BuildStatus) (live : LiveJobStatus)
      (h : getBuildStatusFromJob current live ≠ current) :
      Justified q (.getBuildJobStatus «namespace» jobName) (.ok live)
        (getBuildStatusFromJob current live)

/-- The program inserts its row as pending, and its next update is justified by the answer before it. -/
def Conducted (q : BuildRequest) (p : BuildAction BuildResponse) : Prop :=
  ∀ c k, p = .call c k → (∀ data, c = .insertBuild data → data.status = .pending) ∧
    ∀ r data, firstCall (k r) = some (.updateBuild data) → Justified q c r data.status

/-- What is left of a request, after any answers. -/
def Follows (q : BuildRequest) (p : BuildAction BuildResponse) : Prop :=
  p.Throughout (fun _ _ => True) (Conducted q)

section Programs

variable {q : BuildRequest}

theorem follows_throw (e : ApiError) : Follows q (.throw e) := by
  intro c k h
  cases h

theorem follows_ret (a : BuildResponse) : Follows q (.ret a) := by
  intro c k h
  cases h

theorem follows_call {c : BuildCall} {k : Except ApiError c.Result → BuildAction BuildResponse}
    (hinsert : ∀ data, c = .insertBuild data → data.status = .pending)
    (h : ∀ r, Follows q (k r) ∧
      ∀ data, firstCall (k r) = some (.updateBuild data) → Justified q c r data.status) :
    Follows q (.call c k) := by
  refine ⟨?_, fun r _ => (h r).1⟩
  intro c' k' heq
  obtain ⟨rfl, hk⟩ := Prog.call.inj heq
  obtain rfl := eq_of_heq hk
  exact ⟨hinsert, fun r => (h r).2⟩

/-- A call that is no update, before an update or the end. -/
theorem follows_perform {c : BuildCall} {f : c.Result → BuildAction BuildResponse}
    (hinsert : ∀ data, c = .insertBuild data → data.status = .pending)
    (h : ∀ a, Follows q (f a) ∧
      ∀ data, firstCall (f a) = some (.updateBuild data) → Justified q c (.ok a) data.status) :
    Follows q (Prog.perform c >>= f) := by
  refine follows_call hinsert fun r => ?_
  cases r with
  | ok a => exact h a
  | error e => exact ⟨follows_throw e, fun data hdata => by cases hdata⟩

theorem follows_workspaceNamespace {workspaceId : String} {f : String → BuildAction BuildResponse}
    (h : ∀ ns, Follows q (f ns) ∧ ∀ data, firstCall (f ns) ≠ some (.updateBuild data)) :
    Follows q (workspaceNamespace workspaceId >>= f) := by
  have hrun : workspaceNamespace workspaceId >>= f =
      (Prog.perform (.findWorkspace workspaceId) >>= fun found => match found with
        | some ns => f ns
        | none => .throw (.notFound "Workspace was not found")) := by
    unfold workspaceNamespace
    rw [Prog.bind_assoc]
    congr 1
    funext found
    cases found <;> rfl
  rw [hrun]
  refine follows_perform (by simp) fun found => ?_
  cases found with
  | none => exact ⟨follows_throw _, fun data hdata => by cases hdata⟩
  | some ns => exact ⟨(h ns).1, fun data hdata => absurd hdata ((h ns).2 data)⟩

/-- An update that nothing follows. -/
theorem follows_update {data : BuildUpdate}
    {f : (BuildCall.updateBuild data).Result → BuildAction BuildResponse}
    (h : ∀ build, Follows q (f build) ∧ ∀ data, firstCall (f build) ≠ some (.updateBuild data)) :
    Follows q (Prog.perform (.updateBuild data) >>= f) :=
  follows_perform (by simp) fun build => ⟨(h build).1, fun data hdata => absurd hdata ((h build).2 data)⟩

theorem create_follows (r : CreateBuild) : Follows (.create r) (create r) := by
  refine follows_perform (by simp) fun app => ?_
  cases app with
  | none => exact ⟨follows_throw _, fun data hdata => by cases hdata⟩
  | some app =>
    dsimp only
    split
    · exact ⟨follows_throw _, fun data hdata => by cases hdata⟩
    split
    · exact ⟨follows_throw _, fun data hdata => by cases hdata⟩
    cases requireWorkspaceId r.workspaceId with
    | error e => exact ⟨follows_throw _, fun data hdata => by cases hdata⟩
    | ok workspaceId =>
      refine ⟨follows_workspaceNamespace fun ns => ⟨?_, fun data hdata => by cases hdata⟩,
        fun data hdata => by cases hdata⟩
      refine follows_perform (fun data hdata => ?_) fun _ => ⟨?_, fun data hdata => by cases hdata⟩
      · rw [← BuildCall.insertBuild.inj hdata]
        rfl
      -- the creation of the Job, and the two updates that may follow it
      refine follows_call (by simp) fun answer => ?_
      cases answer with
      | error e =>
        refine ⟨follows_call (by simp) fun updated => ?_, fun data hdata => ?_⟩
        · cases updated <;> exact ⟨follows_throw _, fun data hdata => by cases hdata⟩
        · obtain rfl := BuildCall.updateBuild.inj (Option.some.inj hdata)
          exact .broken _ e rfl
      | ok made =>
        refine ⟨follows_update fun build => ⟨follows_ret _, fun data hdata => by cases hdata⟩,
          fun data hdata => ?_⟩
        obtain rfl := BuildCall.updateBuild.inj (Option.some.inj hdata)
        exact .started _ rfl

theorem getStatus_follows (id : String) : Follows (.getStatus id) (getStatus id) := by
  refine follows_perform (by simp) fun found => ?_
  cases found with
  | none => exact ⟨follows_throw _, fun data hdata => by cases hdata⟩
  | some build =>
    dsimp only
    split
    · exact ⟨follows_ret _, fun data hdata => by cases hdata⟩
    refine ⟨follows_workspaceNamespace fun ns => ⟨?_, fun data hdata => by cases hdata⟩,
      fun data hdata => by cases hdata⟩
    refine follows_perform (by simp) fun live => ?_
    split
    next hne =>
      refine ⟨follows_update fun updated => ⟨follows_ret _, fun data hdata => by cases hdata⟩,
        fun data hdata => ?_⟩
      obtain rfl := BuildCall.updateBuild.inj (Option.some.inj hdata)
      exact .read _ _ build.status live hne
    next => exact ⟨follows_ret _, fun data hdata => by cases hdata⟩

theorem program_follows (q : BuildRequest) : Follows q q.program := by
  cases q with
  | create r => exact create_follows r
  | getStatus id => exact getStatus_follows id

end Programs

/-! ### Calls and the Job -/

/-- A counter of the Job says that it is over. -/
def BuildWorld.Over (w : BuildWorld) : Prop := w.succeeded ≠ 0 ∨ w.failed ≠ 0

section World

variable {w : BuildWorld} {x : BuildEnvironment} {c : BuildCall}

theorem succeeded_le_advance : w.succeeded ≤ (w.advance x).succeeded := by
  unfold BuildWorld.succeeded BuildWorld.advance
  cases w.job with
  | none => exact le_refl 0
  | some live => exact Nat.le_add_right _ _

theorem failed_le_advance : w.failed ≤ (w.advance x).failed := by
  unfold BuildWorld.failed BuildWorld.advance
  cases w.job with
  | none => exact le_refl 0
  | some live => exact Nat.le_add_right _ _

theorem Over.advance (h : w.Over) : (w.advance x).Over := by
  rcases h with h | h
  · exact .inl (Nat.pos_iff_ne_zero.mp ((Nat.pos_iff_ne_zero.mpr h).trans_le succeeded_le_advance))
  · exact .inr (Nat.pos_iff_ne_zero.mp ((Nat.pos_iff_ne_zero.mpr h).trans_le failed_le_advance))

/-- A new Job has no pod that has ended. -/
theorem counters_freshJob (h : w.job = none) :
    { w with job := some freshJob : BuildWorld }.succeeded = w.succeeded ∧
      { w with job := some freshJob : BuildWorld }.failed = w.failed := by
  simp [BuildWorld.succeeded, BuildWorld.failed, freshJob, h]

/-- The counters are those of the Job when the call is made. -/
theorem serve_counters : (serve c x w).2.succeeded = (w.advance x).succeeded ∧
    (serve c x w).2.failed = (w.advance x).failed := by
  unfold serve
  split
  · cases c with
    | createJob job =>
      simp only [BuildWorld.failing]
      split
      next h => exact counters_freshJob h.2
      next => exact ⟨rfl, rfl⟩
    | _ => exact ⟨rfl, rfl⟩
  · cases c with
    | createJob job =>
      simp only [BuildWorld.serve]
      split
      next => exact ⟨rfl, rfl⟩
      next h => exact counters_freshJob h
    | insertBuild data =>
      simp only [BuildWorld.serve]
      split <;> exact ⟨rfl, rfl⟩
    | updateBuild data =>
      simp only [BuildWorld.serve]
      split <;> exact ⟨rfl, rfl⟩
    | getBuildJobStatus ns jobName =>
      simp only [BuildWorld.serve]
      split <;> exact ⟨rfl, rfl⟩
    | _ => exact ⟨rfl, rfl⟩

theorem Over.serve (h : w.Over) : (serve c x w).2.Over := by
  have hadvance := Over.advance (x := x) h
  unfold BuildWorld.Over at hadvance ⊢
  rwa [serve_counters.1, serve_counters.2]

/-- The row of the build is never removed. -/
theorem serve_row (h : w.row.isSome = true) : (serve c x w).2.row.isSome = true := by
  unfold serve
  split
  · cases c with
    | createJob job =>
      simp only [BuildWorld.failing]
      split <;> exact h
    | _ => exact h
  · cases c with
    | createJob job =>
      simp only [BuildWorld.serve]
      split <;> exact h
    | insertBuild data =>
      simp only [BuildWorld.serve]
      split
      · exact h
      · rfl
    | updateBuild data =>
      simp only [BuildWorld.serve]
      split
      · exact h
      · rfl
    | getBuildJobStatus ns jobName =>
      simp only [BuildWorld.serve]
      split <;> exact h
    | _ => exact h

/-- A Job that is over is not created again. -/
theorem createJob_of_over {job : BuildJob} (h : w.Over) :
    ∃ e, (serve (.createJob job) x w).1 = .error e := by
  have hjob : (w.advance x).job.isSome = true := by
    have hover := Over.advance (x := x) h
    cases hj : (w.advance x).job with
    | none => simp [BuildWorld.Over, BuildWorld.succeeded, BuildWorld.failed, hj] at hover
    | some live => rfl
  obtain ⟨live, hlive⟩ := Option.isSome_iff_exists.mp hjob
  unfold serve
  split
  · exact ⟨_, rfl⟩
  · simp only [BuildWorld.serve, hlive]
    exact ⟨_, rfl⟩

theorem insertBuild_of_row {data : BuildRecord} (h : w.row.isSome = true) :
    ∃ e, (serve (.insertBuild data) x w).1 = .error e := by
  obtain ⟨build, hbuild⟩ := Option.isSome_iff_exists.mp h
  have hrow : (w.advance x).row = some build := hbuild
  unfold serve
  split
  · exact ⟨_, rfl⟩
  · simp only [BuildWorld.serve, hrow]
    exact ⟨_, rfl⟩

theorem updateBuild_ok {data : BuildUpdate} {build : BuildRecord}
    (h : (serve (.updateBuild data) x w).1 = .ok build) : x.fault = none ∧ w.row.isSome = true := by
  unfold serve at h
  split at h
  · cases h
  next hfault =>
    refine ⟨hfault, ?_⟩
    simp only [BuildWorld.serve] at h
    split at h
    · cases h
    next build' hrow =>
      have hrow' : w.row = some build' := hrow
      simp [hrow']

/-- What is read of the Job is what it has come to. -/
theorem getBuildJobStatus_ok {ns jobName : String} {live : LiveJobStatus}
    (h : (serve (.getBuildJobStatus ns jobName) x w).1 = .ok live) :
    live.succeeded = (w.advance x).succeeded ∧ live.failed = (w.advance x).failed := by
  unfold serve at h
  split at h
  · cases h
  · simp only [BuildWorld.serve] at h
    split at h
    · cases h
    next live' hjob =>
      obtain rfl : live' = live := Except.ok.inj h
      simp [BuildWorld.succeeded, BuildWorld.failed, hjob]

end World

theorem getBuildStatusFromJob_ne_pending {current : BuildStatus} {live : LiveJobStatus}
    (h : getBuildStatusFromJob current live ≠ current) :
    getBuildStatusFromJob current live ≠ .pending := by
  unfold getBuildStatusFromJob at h ⊢
  split_ifs at h ⊢ <;> simp_all

theorem getBuildStatusFromJob_failed {current : BuildStatus} {live : LiveJobStatus}
    (h : getBuildStatusFromJob current live ≠ current)
    (hfailed : getBuildStatusFromJob current live = .failed) : live.succeeded = 0 := by
  unfold getBuildStatusFromJob at h hfailed
  split_ifs at h hfailed <;> simp_all

theorem getBuildStatusFromJob_running {current : BuildStatus} {live : LiveJobStatus}
    (h : getBuildStatusFromJob current live ≠ current)
    (hrunning : getBuildStatusFromJob current live = .running) :
    live.succeeded = 0 ∧ live.failed = 0 := by
  unfold getBuildStatusFromJob at h hrunning
  split_ifs at h hrunning <;> simp_all

theorem getBuildStatusFromJob_finished {current : BuildStatus} {live : LiveJobStatus}
    (h : getBuildStatusFromJob current live ≠ current)
    (hfinished : IsFinished (getBuildStatusFromJob current live)) :
    live.succeeded ≠ 0 ∨ live.failed ≠ 0 := by
  unfold IsFinished getBuildStatusFromJob at hfinished
  unfold getBuildStatusFromJob at h
  split_ifs at h hfinished <;> simp_all <;> omega

/-! ### Runs -/

/-- The next call of a request is to store the status. -/
def AboutToStore (s : BuildPool) (i : ℕ) (status : BuildStatus) : Prop :=
  ∃ q data, s.next i = some (q, .updateBuild data) ∧ data.status = status

/-- The step does not come between what another request has seen and what it stores. -/
structure Undisturbed (s : BuildPool) (l : ℕ × BuildEnvironment) : Prop where
  /-- when a finish is stored from the Job, no other request is about to store `running` -/
  finish : ∀ q data, s.next l.1 = some (q, .updateBuild data) → q.polls = true →
    IsFinished data.status → l.2.fault = none → ∀ j, j ≠ l.1 → ¬AboutToStore s j .running
  /-- when the Job succeeds, no request is about to store `failed` -/
  success : s.state.succeeded = 0 → (s.state.advance l.2).succeeded ≠ 0 →
    ∀ j, ¬AboutToStore s j .failed
  /-- a Job of the name that is there already has not succeeded -/
  creation : ∀ q job, s.next l.1 = some (q, .createJob job) → (s.state.advance l.2).succeeded = 0

/-- What the requests, the Job and the record have to do with each other. -/
structure Coherent (s : BuildPool) (stored : List StoredStatus) : Prop where
  follows : ∀ (i : ℕ) (q : BuildRequest) (p : BuildAction BuildResponse),
    s.tasks[i]? = some (q, p) → Follows q p
  updates : ∀ i q data, s.next i = some (q, .updateBuild data) → data.status ≠ .pending ∧
    (q.polls = true → IsFinished data.status → s.state.Over)
  success : s.state.succeeded ≠ 0 → ∀ i, ¬AboutToStore s i .failed
  finished : (∃ e ∈ stored, e.fromJob = true ∧ IsFinished e.status) →
    s.state.row.isSome = true ∧ s.state.Over ∧ ∀ i, ¬AboutToStore s i .running
  settle : StatusesSettle stored

section Step

variable {s t : BuildPool} {l : ℕ × BuildEnvironment} {q : BuildRequest} {c : BuildCall}
  {k : Except ApiError c.Result → BuildAction BuildResponse} {stored : List StoredStatus}

theorem next_eq {i : ℕ} {c' : BuildCall} (h : s.next i = some (q, c')) :
    ∃ p, s.tasks[i]? = some (q, p) ∧ firstCall p = some c' := by
  obtain ⟨k', hk⟩ := Pool.next_some.mp h
  exact ⟨_, hk, rfl⟩

theorem next_of_task {i : ℕ} {p : BuildAction BuildResponse} {c' : BuildCall}
    (h : s.tasks[i]? = some (q, p)) (hp : firstCall p = some c') : s.next i = some (q, c') := by
  cases p with
  | call c'' k' =>
    obtain rfl : c'' = c' := Option.some.inj hp
    exact Pool.next_some.mpr ⟨k', h⟩
  | _ => cases hp

/-- After a step, an update that is next was next before, or is justified by the answer. -/
theorem next_update {state : BuildWorld} {log : List (ℕ × BuildCall)}
    {answer : Except ApiError c.Result} (hfollows : Follows q (.call c k)) {i : ℕ} {q' : BuildRequest}
    {data : BuildUpdate}
    (h : Pool.next ⟨state, s.tasks.set l.1 (q, k answer), log⟩ i = some (q', .updateBuild data)) :
    (i ≠ l.1 ∧ s.next i = some (q', .updateBuild data)) ∨
      (i = l.1 ∧ q' = q ∧ Justified q c answer data.status) := by
  obtain ⟨p, hp, hfirst⟩ := next_eq h
  obtain ⟨rfl, heq⟩ | ⟨hne, hp⟩ := Pool.getElem?_set_cases hp
  · obtain ⟨rfl, rfl⟩ := Prod.mk.inj heq
    exact .inr ⟨rfl, rfl, (hfollows.here c k rfl).2 answer data hfirst⟩
  · exact .inl ⟨hne, next_of_task hp hfirst⟩

theorem storedBy_some {x : BuildEnvironment} {w : BuildWorld} {e : StoredStatus}
    (h : storedBy q c (serve c x w) = some e) :
    e.fromJob = q.polls ∧ e.succeeded = (w.advance x).succeeded ∧
      ((∃ data, c = .insertBuild data ∧ e.status = data.status ∧ w.row.isSome = false) ∨
        ∃ data, c = .updateBuild data ∧ e.status = data.status ∧ x.fault = none ∧
          w.row.isSome = true) := by
  have hcounters := (serve_counters (c := c) (x := x) (w := w)).1
  cases hend : serve c x w with
  | mk answer w' =>
    rw [hend] at h hcounters
    cases c with
    | insertBuild data =>
      cases answer with
      | error e => cases h
      | ok build =>
        obtain rfl := Option.some.inj h
        refine ⟨rfl, hcounters, .inl ⟨data, rfl, rfl, ?_⟩⟩
        -- a second row would have been refused
        by_contra hrow
        have hrow' : w.row.isSome = true := Bool.not_eq_false _ ▸ hrow
        obtain ⟨e, he⟩ : ∃ e, (serve (.insertBuild data) x w).1 = .error e := insertBuild_of_row hrow'
        rw [hend] at he
        cases he
    -- an update is stored only on a row, by a call that succeeds
    | updateBuild data =>
      cases answer with
      | error e => cases h
      | ok build =>
        obtain rfl := Option.some.inj h
        have hok : (serve (.updateBuild data) x w).1 = .ok build := by rw [hend]
        exact ⟨rfl, hcounters, .inr ⟨data, rfl, rfl, updateBuild_ok hok⟩⟩
    | _ => cases h

/-- What the service's own answer says when a status is to be stored after it. -/
theorem Justified.of_serve {x : BuildEnvironment} {w : BuildWorld} {status : BuildStatus}
    (h : Justified q c (serve c x w).1 status) :
    status ≠ .pending ∧ (q.polls = true → IsFinished status → (serve c x w).2.Over) ∧
      (status = .failed → (∃ job, c = .createJob job) ∨ (w.advance x).succeeded = 0) ∧
      (status = .running → ¬w.Over) := by
  have hcounters := serve_counters (c := c) (x := x) (w := w)
  generalize hanswer : (serve c x w).1 = answer at h
  cases h with
  -- a Job that was made is not over yet
  | started job hpolls =>
    refine ⟨by simp, fun h => by simp [hpolls] at h, by simp, fun _ hover => ?_⟩
    obtain ⟨e, he⟩ : ∃ e, (serve (.createJob job) x w).1 = .error e := createJob_of_over hover
    rw [he] at hanswer
    cases hanswer
  -- one that was not made has failed
  | broken job e hpolls =>
    exact ⟨by simp, fun h => by simp [hpolls] at h, fun _ => .inl ⟨job, rfl⟩, by simp⟩
  -- the counters that were read are those of the Job, which only grow
  | read ns jobName current live hne =>
    obtain ⟨hsucceeded, hfailed⟩ := getBuildJobStatus_ok hanswer
    refine ⟨getBuildStatusFromJob_ne_pending hne, fun _ hfinished => ?_, fun h => .inr ?_, ?_⟩
    · unfold BuildWorld.Over
      rw [hcounters.1, hcounters.2, ← hsucceeded, ← hfailed]
      exact getBuildStatusFromJob_finished hne hfinished
    · rw [← hsucceeded]
      exact getBuildStatusFromJob_failed hne h
    · rintro hrunning hover
      obtain ⟨hzero, hzero'⟩ := getBuildStatusFromJob_running hne hrunning
      rcases Over.advance (x := x) hover with h | h
      · exact h (hsucceeded ▸ hzero)
      · exact h (hfailed ▸ hzero')

theorem StatusesSettle.append {e : StoredStatus} (h : StatusesSettle stored)
    (hsettled : (∃ e ∈ stored, e.fromJob = true ∧ IsFinished e.status) →
      e.status ≠ .pending ∧ e.status ≠ .running)
    (hfailed : e.status = .failed → e.succeeded = 0) : StatusesSettle (stored ++ [e]) where
  settled := by
    intro before e₀ after heq hfrom hfinished e' he'
    rcases List.eq_nil_or_concat after with rfl | ⟨after, last, rfl⟩
    · cases he'
    · rw [List.concat_eq_append, ← List.cons_append, ← List.append_assoc] at heq
      obtain ⟨hstored, hlast⟩ := List.append_inj' heq rfl
      obtain rfl : e = last := List.singleton_inj.mp hlast
      rw [List.concat_eq_append] at he'
      rcases List.mem_append.mp he' with he' | he'
      · exact h.settled before e₀ after hstored hfrom hfinished e' he'
      · rw [List.mem_singleton.mp he']
        exact hsettled ⟨e₀, by simp [hstored], hfrom, hfinished⟩
  failed := by
    intro e' he'
    rcases List.mem_append.mp he' with he' | he'
    · exact h.failed e' he'
    · rw [List.mem_singleton.mp he']
      exact hfailed

/-- **What one step keeps**, unless it disturbs another request. -/
theorem Coherent.step (h : Coherent s stored) (hC : Undisturbed s l)
    (hstep : s.step serve l = some t) : Coherent t (noteStored s l stored) := by
  obtain ⟨q, c, k, hq, rfl⟩ := Pool.step_some hstep
  have hfollows := h.follows l.1 q _ hq
  have hnext : s.next l.1 = some (q, c) := Pool.next_some.mpr ⟨k, hq⟩
  have hcounters := serve_counters (c := c) (x := l.2) (w := s.state)
  -- nobody stores `failed` once the Job has succeeded, and nobody `running` once a finish is stored
  have hfailed : (s.state.advance l.2).succeeded ≠ 0 → ∀ j, ¬AboutToStore s j .failed := by
    intro hsucceeded
    by_cases hzero : s.state.succeeded = 0
    · exact hC.success hzero hsucceeded
    · exact h.success hzero
  have hnote : noteStored s l stored =
      stored ++ (storedBy q c (serve c l.2 s.state)).toList := by
    simp only [noteStored, hnext]
  rw [hnote]
  refine ⟨?_, ?_, ?_, ?_, ?_⟩
  · intro i q' p hi
    obtain ⟨-, heq⟩ | ⟨-, hi⟩ := Pool.getElem?_set_cases hi
    · obtain ⟨rfl, rfl⟩ := Prod.mk.inj heq
      exact hfollows.answer trivial
    · exact h.follows i q' p hi
  · intro i q' data hi
    rcases next_update hfollows hi with ⟨-, hi⟩ | ⟨-, rfl, hjustified⟩
    · obtain ⟨hpending, hover⟩ := h.updates i q' data hi
      exact ⟨hpending, fun hpolls hfinished => Over.serve (hover hpolls hfinished)⟩
    · obtain ⟨hpending, hover, -, -⟩ := hjustified.of_serve
      exact ⟨hpending, hover⟩
  · intro hsucceeded i
    rintro ⟨q', data, hi, hstatus⟩
    rw [hcounters.1] at hsucceeded
    rcases next_update hfollows hi with ⟨-, hi⟩ | ⟨-, rfl, hjustified⟩
    · exact hfailed hsucceeded i ⟨q', data, hi, hstatus⟩
    · rcases hjustified.of_serve.2.2.1 hstatus with ⟨job, rfl⟩ | hzero
      · exact hsucceeded (hC.creation q' job hnext)
      · exact hsucceeded hzero
  · -- a finish from the Job has been stored before, or is stored by this step
    rintro ⟨e, he, hfrom, hfinished⟩
    rcases List.mem_append.mp he with he | he
    · obtain ⟨hrow, hover, hrunning⟩ := h.finished ⟨e, he, hfrom, hfinished⟩
      refine ⟨serve_row hrow, Over.serve hover, fun i => ?_⟩
      rintro ⟨q', data, hi, hstatus⟩
      rcases next_update hfollows hi with ⟨-, hi⟩ | ⟨-, rfl, hjustified⟩
      · exact hrunning i ⟨q', data, hi, hstatus⟩
      · exact hjustified.of_serve.2.2.2 hstatus hover
    · obtain ⟨hpolls, -, hstored⟩ := storedBy_some (Option.mem_toList.mp he)
      rw [hfrom] at hpolls
      rcases hstored with ⟨data, rfl, hstatus, -⟩ | ⟨data, rfl, hstatus, hfault, hrow⟩
      · rw [hstatus, (hfollows.here _ k rfl).1 data rfl] at hfinished
        simp [IsFinished] at hfinished
      · rw [hstatus] at hfinished
        refine ⟨serve_row hrow, Over.serve ((h.updates l.1 q data hnext).2 hpolls.symm hfinished),
          fun i => ?_⟩
        rintro ⟨q', data', hi, hstatus'⟩
        rcases next_update hfollows hi with ⟨hne, hi⟩ | ⟨-, rfl, hjustified⟩
        · exact hC.finish q data hnext hpolls.symm hfinished hfault i hne ⟨q', data', hi, hstatus'⟩
        · cases hjustified
  · cases hstored : storedBy q c (serve c l.2 s.state) with
    | none => simpa using h.settle
    | some e =>
      obtain ⟨-, hsucceeded, hkind⟩ := storedBy_some hstored
      refine h.settle.append (fun hbefore => ?_) (fun hstatus => ?_)
      · obtain ⟨hrow, -, hrunning⟩ := h.finished hbefore
        rcases hkind with ⟨data, rfl, -, hnone⟩ | ⟨data, rfl, hstatus, -⟩
        · rw [hrow] at hnone
          cases hnone
        · rw [hstatus]
          exact ⟨(h.updates l.1 q data hnext).1, fun hr => hrunning l.1 ⟨q, data, hnext, hr⟩⟩
      · rw [hsucceeded]
        by_contra hne
        rcases hkind with ⟨data, rfl, hdata, -⟩ | ⟨data, rfl, hdata, -⟩
        · have hpending := (hfollows.here _ k rfl).1 data rfl
          rw [← hdata, hstatus] at hpending
          cases hpending
        · exact hfailed hne l.1 ⟨q, data, hnext, hdata ▸ hstatus⟩

end Step

/-- **A finished build stays finished**, in every run that disturbs no request. -/
theorem build_statuses_settle (r : CreateBuild) (polls : ℕ) (job : Option LiveJobStatus)
    {ls : List (ℕ × BuildEnvironment)} {s : BuildPool} {stored : List StoredStatus}
    (hC : Along (observed (Pool.step serve) noteStored) (fun x l => Undisturbed x.1 l)
      (startBuild r polls job, []) ls)
    (hrun : exec (observed (Pool.step serve) noteStored) (startBuild r polls job, []) ls =
      some (s, stored)) : StatusesSettle stored := by
  have hcoherent : Coherent (startBuild r polls job) [] := by
    have htask : ∀ (i : ℕ) (q : BuildRequest) (p : BuildAction BuildResponse),
        (startBuild r polls job).tasks[i]? = some (q, p) → p = q.program := by
      intro i q p hi
      obtain ⟨q', -, heq⟩ := List.mem_map.mp (List.mem_of_getElem? hi)
      obtain ⟨rfl, rfl⟩ := Prod.mk.inj heq
      rfl
    -- no request begins with an update
    have hnone : ∀ i q data, (startBuild r polls job).next i ≠ some (q, .updateBuild data) := by
      intro i q data hi
      obtain ⟨p, hp, hfirst⟩ := next_eq hi
      rw [htask i q p hp] at hfirst
      cases q <;> cases hfirst
    have hstore : ∀ i status, ¬AboutToStore (startBuild r polls job) i status := by
      rintro i status ⟨q, data, hi, -⟩
      exact hnone i q data hi
    refine ⟨fun i q p hi => ?_, fun i q data hi => absurd hi (hnone i q data),
      fun _ i => hstore i _, ?_, ⟨?_, ?_⟩⟩
    · rw [htask i q p hi]
      exact program_follows q
    · rintro ⟨e, he, -⟩
      cases he
    · intro before e after heq
      simp at heq
    · intro e he
      cases he
  have hkeep : ∀ (x : BuildPool × List StoredStatus) l y, Coherent x.1 x.2 → Undisturbed x.1 l →
      observed (Pool.step serve) noteStored x l = some y → Coherent y.1 y.2 := by
    rintro ⟨s, stored⟩ l ⟨t, stored'⟩ h hundisturbed hstep
    obtain ⟨hpool, rfl⟩ := observed_some hstep
    exact h.step hundisturbed hpool
  exact (exec_invariant (I := fun x => Coherent x.1 x.2) hkeep hcoherent hC hrun).settle

/-! ### Runs that can be computed -/

/-- The update that a request is about to make. -/
def nextUpdate (s : BuildPool) (i : ℕ) : Option (BuildRequest × BuildUpdate) :=
  match s.next i with
  | some (q, .updateBuild data) => some (q, data)
  | _ => none

/-- The request is about to create the Job. -/
def createsJob (s : BuildPool) (i : ℕ) : Bool :=
  match s.next i with
  | some (_, .createJob _) => true
  | _ => false

theorem nextUpdate_eq {s : BuildPool} {i : ℕ} {q : BuildRequest} {data : BuildUpdate} :
    nextUpdate s i = some (q, data) ↔ s.next i = some (q, .updateBuild data) := by
  unfold nextUpdate
  split
  next q' data' h => simp [h]
  next h =>
    refine ⟨fun h' => ?_, fun h' => absurd h' (h q data)⟩
    cases h'

theorem aboutToStore_iff {s : BuildPool} {i : ℕ} {status : BuildStatus} :
    AboutToStore s i status ↔ ∃ update ∈ nextUpdate s i, update.2.status = status := by
  constructor
  · rintro ⟨q, data, h, hstatus⟩
    exact ⟨(q, data), nextUpdate_eq.mpr h, hstatus⟩
  · rintro ⟨⟨q, data⟩, h, hstatus⟩
    exact ⟨q, data, nextUpdate_eq.mp h, hstatus⟩

instance (s : BuildPool) (i : ℕ) (status : BuildStatus) : Decidable (AboutToStore s i status) :=
  decidable_of_iff _ aboutToStore_iff.symm

instance (status : BuildStatus) : Decidable (IsFinished status) :=
  inferInstanceAs (Decidable (_ ∨ _))

/-- Only the requests that there are can be about to store something. -/
theorem lt_of_aboutToStore {s : BuildPool} {i : ℕ} {status : BuildStatus}
    (h : AboutToStore s i status) : i < s.tasks.length := by
  obtain ⟨q, data, hi, -⟩ := h
  obtain ⟨p, hp, -⟩ := next_eq hi
  exact (List.getElem?_eq_some_iff.mp hp).1

theorem undisturbed_iff {s : BuildPool} {l : ℕ × BuildEnvironment} : Undisturbed s l ↔
    (∀ update ∈ nextUpdate s l.1, update.1.polls = true → IsFinished update.2.status →
        l.2.fault = none → ∀ j < s.tasks.length, j ≠ l.1 → ¬AboutToStore s j .running) ∧
      (s.state.succeeded = 0 → (s.state.advance l.2).succeeded ≠ 0 →
        ∀ j < s.tasks.length, ¬AboutToStore s j .failed) ∧
      (createsJob s l.1 = true → (s.state.advance l.2).succeeded = 0) := by
  constructor
  · intro h
    refine ⟨?_, fun hzero hne j _ => h.success hzero hne j, fun hcreates => ?_⟩
    · rintro ⟨q, data⟩ hupdate hpolls hfinished hfault j - hj
      exact h.finish q data (nextUpdate_eq.mp hupdate) hpolls hfinished hfault j hj
    · unfold createsJob at hcreates
      split at hcreates
      next q job hnext => exact h.creation q job hnext
      next => cases hcreates
  · rintro ⟨hfinish, hsuccess, hcreation⟩
    refine ⟨?_, fun hzero hne j hj => hsuccess hzero hne j (lt_of_aboutToStore hj) hj, ?_⟩
    · intro q data hnext hpolls hfinished hfault j hne hj
      exact hfinish (q, data) (nextUpdate_eq.mpr hnext) hpolls hfinished hfault j
        (lt_of_aboutToStore hj) hne hj
    · intro q job hnext
      exact hcreation (by simp [createsJob, hnext])

instance (s : BuildPool) (l : ℕ × BuildEnvironment) : Decidable (Undisturbed s l) :=
  decidable_of_iff _ undisturbed_iff.symm

def shopBuild : CreateBuild where
  config := ⟨none, none, none⟩
  localRegistryHost := none
  appId := "app"
  createBuildDto := ⟨none, none, none, none⟩
  workspaceId := some "workspace"
  buildId := ⟨"3b241101-e2bb-4255-8caf-4136c566a962", by decide,
    forall_mem_mem_of_all (by decide)⟩

/-- Nothing happens to the Job, and no call fails. -/
def quietBuild : BuildEnvironment where
  active := 1
  succeeded := 0
  failed := 0
  conditions := []
  app := some ⟨"app", "shop", .git, some "https://example.com/shop.git", none, none, none⟩
  «namespace» := some "ns"
  fault := none
  jobMade := false

/-- The creation up to the Job. -/
def createdShop : List (ℕ × BuildEnvironment) :=
  [(0, quietBuild), (0, quietBuild), (0, quietBuild), (0, quietBuild)]

/-- A `getStatus` that finds that the Job has succeeded, and stores it. -/
def polledShop : List (ℕ × BuildEnvironment) :=
  [(1, quietBuild), (1, quietBuild), (1, { quietBuild with succeeded := 1 }), (1, quietBuild)]

/-- The build is stored as running before the status is asked for. -/
theorem build_settles_after_creation :
    ∃ s, exec (observed (Pool.step serve) noteStored) (startBuild shopBuild 1 none, [])
        (createdShop ++ (0, quietBuild) :: polledShop) =
          some (s, [⟨false, .pending, 0⟩, ⟨false, .running, 0⟩, ⟨true, .succeeded, 1⟩]) ∧
      StatusesSettle [⟨false, .pending, 0⟩, ⟨false, .running, 0⟩, ⟨true, .succeeded, 1⟩] := by
  have hC : Along (observed (Pool.step serve) noteStored) (fun x l => Undisturbed x.1 l)
      (startBuild shopBuild 1 none, []) (createdShop ++ (0, quietBuild) :: polledShop) := by
    decide +kernel
  have hstored : (exec (observed (Pool.step serve) noteStored) (startBuild shopBuild 1 none, [])
      (createdShop ++ (0, quietBuild) :: polledShop)).map Prod.snd =
        some [⟨false, .pending, 0⟩, ⟨false, .running, 0⟩, ⟨true, .succeeded, 1⟩] := by
    decide +kernel
  obtain ⟨⟨s, stored⟩, hrun, rfl⟩ := Option.map_eq_some_iff.mp hstored
  exact ⟨s, hrun, build_statuses_settle shopBuild 1 none hC hrun⟩

/-- The creation ends after a finish has been stored. -/
theorem created_build_runs_again :
    ¬∀ (r : CreateBuild) (polls : ℕ) (job : Option LiveJobStatus)
      (ls : List (ℕ × BuildEnvironment)) (s : BuildPool) (stored : List StoredStatus),
      exec (observed (Pool.step serve) noteStored) (startBuild r polls job, []) ls =
        some (s, stored) → StatusesSettle stored := by
  intro h
  have hstored : (exec (observed (Pool.step serve) noteStored) (startBuild shopBuild 1 none, [])
      (createdShop ++ polledShop ++ [(0, quietBuild)])).map Prod.snd =
        some [⟨false, .pending, 0⟩, ⟨true, .succeeded, 1⟩, ⟨false, .running, 1⟩] := by
    decide +kernel
  obtain ⟨⟨s, stored⟩, hrun, rfl⟩ := Option.map_eq_some_iff.mp hstored
  have hsettled := (h _ _ _ _ _ _ hrun).settled [⟨false, .pending, 0⟩] _ _ rfl rfl (.inl rfl)
    ⟨false, .running, 1⟩ List.mem_cons_self
  exact hsettled.2 rfl

end BuildsService

end NexCause
