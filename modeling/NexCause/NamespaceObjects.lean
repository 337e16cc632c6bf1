/-
NexCause/NamespaceObjects.lean

What the API server holds in the namespace of a workspace, as both of its
readers decode it: the evidence server (`adapters/kubernetes.go`) and the
deployment manager (`kubernetes.service.ts`).

The objects carry the fields that the readers look at, under the paths of the
API.  Timestamps are whole seconds, but for `eventTime`, which has microseconds;
the evidence server keeps nanoseconds, the deployment manager milliseconds.

Main results: the answers of both readers, in one run over these objects
(`evidencePods_eval`, `listDeploymentEvents_eval` and the like).
-/
import NexCause.Adapters
import NexCause.LabelSelectors
import NexCause.ManagerEvidence

namespace NexCause

open Program EvidenceService

/-! ### Objects -/

/-- `status` of a pod. -/
structure PodStatus where
  phase : Option String
  startTime : Option ℤ
  containerStatuses : Option (List ContainerStatus)
  deriving DecidableEq, Repr

/-- A pod: `metadata`, `spec.nodeName` and `status`. -/
structure PodObject where
  name : String
  labels : Entries
  nodeName : Option String
  status : PodStatus
  name_ne : name ≠ ""
  deriving DecidableEq, Repr

structure EventObject where
  name : String
  type : Option String
  reason : Option String
  message : Option String
  count : Option ℕ
  involvedKind : Option String
  involvedName : Option String
  eventTime : Option ℤ
  firstTimestamp : Option ℤ
  lastTimestamp : Option ℤ
  creationTimestamp : Option ℤ
  deriving DecidableEq, Repr

/-- The objects of a namespace; among those of one kind a name is unique. -/
structure NamespaceObjects where
  deployments : String → Option ReadBody
  pods : List PodObject
  events : List EventObject
  pods_nodup : (pods.map PodObject.name).Nodup
  events_nodup : (events.map EventObject.name).Nodup

/-! ### The deployments of the system -/

/-- An id as the services make them: letters, digits and hyphens, and what the
API server takes for a label. -/
structure ResourceId where
  text : String
  chars : ∀ c ∈ text.toList, c.isAlphanum ∨ c = '-'
  label : isLabelValue text.toList = true

theorem ResourceId.plain (id : ResourceId) : Plain id.text := by
  constructor
  · intro h
    simpa using id.chars _ h
  · intro h
    simpa using id.chars _ h

/-- A deployment that `create` has put into a namespace. -/
structure CreatedDeployment where
  «namespace» : String
  workspaceId : ResourceId
  appId : ResourceId
  id : ResourceId
  appName : String

namespace CreatedDeployment

def names (d : CreatedDeployment) : KubernetesResourceNames := buildResourceNames d.appName d.id.text

def name (d : CreatedDeployment) : String := d.names.deploymentName

/-- `getManagedLabels` -/
def managedLabels (d : CreatedDeployment) : Entries :=
  buildManagedLabels d.workspaceId.text d.appId.text d.id.text

/-- The labels by which the evidence server lists the pods of the deployment. -/
def adapterLabels (d : CreatedDeployment) : Entries :=
  [("app.kubernetes.io/managed-by", "deployment-manager-service"),
    ("rca-platform/app-id", d.appId.text), ("rca-platform/deployment-id", d.id.text)]

end CreatedDeployment

/-- A deployment of an app in the namespace of one workspace. -/
def deploymentOf (appName : String) (appId id : ResourceId) : CreatedDeployment where
  «namespace» := "rca-w-1"
  workspaceId := ⟨"7d1f0a52-6e0b", forall_mem_of_all (by decide), by decide⟩
  appId := appId
  id := id
  appName := appName

/-! ### Decoding -/

section Decoders

/-- One item of `Pods`.  The adapter looks for `nodeName` in the status of the
pod, where the API has no such field, so the name of the node stays empty. -/
def PodObject.toK8sPod (pod : PodObject) : K8sPod where
  name := pod.name
  phase := pod.status.phase.getD ""
  nodeName := ""
  startedAt := pod.status.startTime.map (· * Go.second)
  containers := (pod.status.containerStatuses.getD []).map fun c => ⟨c.name, c.ready, c.restartCount⟩

/-- A pod as the client of the deployment manager has it. -/
def PodObject.toPod (pod : PodObject) : Pod where
  name := some pod.name
  phase := pod.status.phase
  nodeName := pod.nodeName
  startTime := pod.status.startTime.map (· * 1000)
  containerStatuses := pod.status.containerStatuses

/-- One item of `Events`. -/
def EventObject.toK8sEvent (event : EventObject) : K8sEvent where
  name := event.name
  type := event.type.getD ""
  reason := event.reason.getD ""
  message := event.message.getD ""
  involvedKind := event.involvedKind.getD ""
  involvedName := event.involvedName.getD ""
  firstTimestamp := event.firstTimestamp.map (· * Go.second)
  lastTimestamp := event.lastTimestamp.map (· * Go.second)
  eventTime := event.eventTime.map (· * 1000)
  count := (event.count.getD 0 : ℕ)

def EventObject.toEvent (event : EventObject) : Event where
  name := some event.name
  type := event.type
  reason := event.reason
  message := event.message
  count := event.count
  involvedKind := event.involvedKind
  involvedName := event.involvedName
  firstTimestamp := event.firstTimestamp.map (· * 1000)
  lastTimestamp := event.lastTimestamp.map (· * 1000)
  creationTimestamp := event.creationTimestamp.map (· * 1000)

/-- `DeploymentStatus`, after its request. -/
def toK8sDeploymentStatus (body : ReadBody) : K8sDeploymentStatus where
  desiredReplicas := (body.object.specReplicas.getD 0 : ℕ)
  readyReplicas := body.status.readyReplicas
  availableReplicas := body.status.availableReplicas
  updatedReplicas := body.status.updatedReplicas
  unavailableReplicas := body.status.unavailableReplicas

end Decoders

/-! ### Answers -/

namespace NamespaceObjects

/-- The pods that a selector picks. -/
def podsOf (o : NamespaceObjects) (selector : List Char) : List PodObject :=
  o.pods.filter fun pod => matchesSelector selector pod.labels

/-- The answers to the evidence server. -/
def evidenceAnswer (o : NamespaceObjects) : (c : EvidenceCall) → Except String c.Result
  | .deploymentStatus _ deploymentName =>
      match o.deployments deploymentName with
      | some body => .ok (toK8sDeploymentStatus body)
      | none => .error "404 Not Found"
  | .pods _ appId deploymentId =>
      .ok ((o.podsOf (KubernetesAdapter.podSelector appId deploymentId)).map PodObject.toK8sPod)
  | .events _ => .ok (o.events.map EventObject.toK8sEvent)
  | _ => .error "not a call to the API server"

/-- The answers to the deployment manager. -/
def managerAnswer (o : NamespaceObjects) : (c : ManagerCall) → Except ApiError c.Result
  | .platform (.kubernetes (.read key)) =>
      match o.deployments key.name with
      | some body => .ok body
      | none => .error (.kubernetes 404 "Not Found")
  | .listPods _ labels => .ok ((o.podsOf (toLabelSelector labels)).map PodObject.toPod)
  | .listEvents _ => .ok (o.events.map EventObject.toEvent)
  | _ => .error (.error "not a call to the API server")

end NamespaceObjects

/-! ### What the selectors pick -/

section Selected

variable {d : CreatedDeployment} {labels : Entries}

/-- The texts of the label keys and of the label value that are constant. -/
theorem plain_constants :
    Plain "app.kubernetes.io/managed-by" ∧ Plain "deployment-manager-service" ∧
      Plain "rca-platform/workspace-id" ∧ Plain "rca-platform/app-id" ∧
      Plain "rca-platform/deployment-id" := by decide

theorem CreatedDeployment.admitted_managedLabels (d : CreatedDeployment) :
    admitted d.managedLabels = true := by
  have hmanager : isLabelValue "deployment-manager-service".toList = true := by decide
  simp only [admitted, managedLabels, buildManagedLabels, List.all_cons, List.all_nil, hmanager,
    d.workspaceId.label, d.appId.label, d.id.label, Bool.and_self]

/-- The deployment manager lists the pods with all labels of the deployment. -/
theorem matchesSelector_managedLabels :
    matchesSelector (toLabelSelector d.managedLabels) labels = matchesLabels d.managedLabels labels := by
  have hplain : ∀ label ∈ d.managedLabels, Plain label.1 ∧ Plain label.2 := by
    obtain ⟨hmanagedBy, hmanager, hworkspaceKey, happKey, hidKey⟩ := plain_constants
    simp [CreatedDeployment.managedLabels, buildManagedLabels, ResourceId.plain, *]
  have hne : d.managedLabels ≠ [] := List.cons_ne_nil _ _
  rw [matchesSelector_toLabelSelector hne hplain, d.admitted_managedLabels, Bool.true_and]

/-- The evidence server asks for three of them. -/
theorem matchesSelector_podSelector :
    matchesSelector (KubernetesAdapter.podSelector d.appId.text d.id.text) labels =
      matchesLabels d.adapterLabels labels := by
  have hplain : ∀ label ∈ d.adapterLabels, Plain label.1 ∧ Plain label.2 := by
    obtain ⟨hmanagedBy, hmanager, -, happKey, hidKey⟩ := plain_constants
    simp [CreatedDeployment.adapterLabels, ResourceId.plain, *]
  have hadmitted : admitted d.adapterLabels = true := by
    have hmanager : isLabelValue "deployment-manager-service".toList = true := by decide
    simp only [admitted, CreatedDeployment.adapterLabels, List.all_cons, List.all_nil, hmanager,
      d.appId.label, d.id.label, Bool.and_self]
  have hne : d.adapterLabels ≠ [] := List.cons_ne_nil _ _
  rw [KubernetesAdapter.podSelector_eq]
  show matchesSelector (toLabelSelector d.adapterLabels) labels = _
  rw [matchesSelector_toLabelSelector hne hplain, hadmitted, Bool.true_and]

/-- The label by which the two selections differ. -/
def CreatedDeployment.InWorkspace (d : CreatedDeployment) (labels : Entries) : Prop :=
  labels.lookup "rca-platform/workspace-id" = some d.workspaceId.text

instance : Decidable (d.InWorkspace labels) := by unfold CreatedDeployment.InWorkspace; infer_instance

theorem matchesLabels_managedLabels_iff :
    matchesLabels d.managedLabels labels = true ↔
      matchesLabels d.adapterLabels labels = true ∧ d.InWorkspace labels := by
  simp only [matchesLabels, CreatedDeployment.managedLabels, buildManagedLabels,
    CreatedDeployment.adapterLabels, CreatedDeployment.InWorkspace, List.all_cons, List.all_nil,
    Bool.and_true, Bool.and_eq_true, decide_eq_true_eq]
  tauto

end Selected

/-! ### What the readers return -/

/-- The event is about the deployment of that name, as a reader that has listed
these pods sees it. -/
def EventObject.involves (name : String) (pods : List PodObject) (event : EventObject) : Bool :=
  event.involvedName.any fun involved =>
    involved = name || pods.any (fun pod => pod.name = involved) ||
      (name ++ "-").toList.isPrefixOf involved.toList

section Involves

variable {name : String} {pods : List PodObject}

theorem EventObject.involves_iff {event : EventObject} :
    event.involves name pods = true ↔ ∃ involved, event.involvedName = some involved ∧
      (involved = name ∨ (∃ pod ∈ pods, pod.name = involved) ∨
        (name ++ "-").toList <+: involved.toList) := by
  simp only [involves, Option.any_eq_true, Bool.or_eq_true, decide_eq_true_eq, List.any_eq_true,
    List.isPrefixOf_iff_prefix, or_assoc]

/-- The condition of the adapter. -/
theorem selectsEvent_toK8sEvent (hname : name ≠ "") (event : EventObject) :
    KubernetesAdapter.selectsEvent name (pods.map PodObject.toK8sPod) event.toK8sEvent =
      event.involves name pods := by
  obtain ⟨_, _, _, _, _, _, involvedName, _, _, _, _⟩ := event
  unfold KubernetesAdapter.selectsEvent EventObject.involves EventObject.toK8sEvent
  dsimp only
  rw [List.any_map]
  cases involvedName with
  | some involved => rfl
  | none =>
    -- nothing has an empty name
    have hself : decide ("" = name) = false := decide_eq_false hname.symm
    have hpods : pods.any (fun pod => decide (pod.name = "")) = false := by
      rw [List.any_eq_false]
      intro pod _
      simp [pod.name_ne]
    have hprefix : (name ++ "-").toList.isPrefixOf "".toList = false := by
      rw [Bool.eq_false_iff, Ne, List.isPrefixOf_iff_prefix]
      intro h
      simpa using h.length_le
    show (decide ("" = name) || pods.any (fun pod => decide (pod.name = "")) ||
      (name ++ "-").toList.isPrefixOf "".toList) = false
    rw [hself, hpods, hprefix]
    rfl

/-- The condition of `listDeploymentEvents`. -/
theorem listed_toEvent (event : EventObject) :
    (decide (event.toEvent.involvedName = some name) ||
      (event.toEvent.involvedName.any fun involved =>
        (pods.map fun pod => toDeploymentPodSummary pod.toPod).any fun pod => pod.name = involved) ||
      (event.toEvent.involvedName.any fun involved =>
        (name ++ "-").toList.isPrefixOf involved.toList)) = event.involves name pods := by
  obtain ⟨_, _, _, _, _, _, involvedName, _, _, _, _⟩ := event
  unfold EventObject.involves
  cases involvedName with
  | none => rfl
  | some involved =>
    simp only [EventObject.toEvent, Option.any_some, List.any_map, Option.some.injEq]
    rfl

end Involves

section Eval

variable (o : NamespaceObjects) (d : CreatedDeployment)

/-- The pods that the evidence server lists for the deployment. -/
def NamespaceObjects.adapterPods : List PodObject :=
  o.pods.filter fun pod => matchesLabels d.adapterLabels pod.labels

/-- The pods that the deployment manager lists for the deployment. -/
def NamespaceObjects.managedPods : List PodObject :=
  o.pods.filter fun pod => matchesLabels d.managedLabels pod.labels

theorem NamespaceObjects.managedPods_eq :
    o.managedPods d = (o.adapterPods d).filter fun pod => d.InWorkspace pod.labels := by
  unfold managedPods adapterPods
  rw [List.filter_filter]
  apply List.filter_congr
  intro pod _
  rw [Bool.eq_iff_iff, matchesLabels_managedLabels_iff]
  simp [and_comm]

theorem adapter_pods_eval :
    (KubernetesAdapter.pods d.«namespace» d.appId.text d.id.text).eval o.evidenceAnswer =
      .ok ((o.adapterPods d).map PodObject.toK8sPod) := by
  have hpods : o.podsOf (KubernetesAdapter.podSelector d.appId.text d.id.text) = o.adapterPods d :=
    List.filter_congr fun _ _ => matchesSelector_podSelector
  rw [← hpods]
  exact Prog.eval_perform _

theorem listDeploymentPods_eval :
    (KubernetesService.listDeploymentPods d.«namespace» d.managedLabels).eval o.managerAnswer =
      .ok ((o.managedPods d).map fun pod => toDeploymentPodSummary pod.toPod) := by
  have hpods : o.podsOf (toLabelSelector d.managedLabels) = o.managedPods d :=
    List.filter_congr fun _ _ => matchesSelector_managedLabels
  have hlist : (Prog.perform (ManagerCall.listPods d.«namespace» d.managedLabels) :
      ManagerAction (List Pod)).eval o.managerAnswer = .ok ((o.managedPods d).map PodObject.toPod) := by
    rw [← hpods]
    exact Prog.eval_perform _
  unfold KubernetesService.listDeploymentPods
  rw [Prog.eval_bind_ok hlist]
  simp

theorem CreatedDeployment.name_ne : d.name ≠ "" := by
  intro h
  have hmem : '-' ∈ d.name.toList := by simp [name, names, buildResourceNames, resourceNamesOf, baseName]
  rw [h] at hmem
  simp at hmem

/-- The events that the adapter of the evidence server returns. -/
theorem adapter_events_eval :
    (KubernetesAdapter.events d.«namespace» d.name d.appId.text d.id.text).eval o.evidenceAnswer =
      .ok ((o.events.filter (EventObject.involves d.name (o.adapterPods d))).map
        EventObject.toK8sEvent) := by
  have hpods : ((KubernetesAdapter.pods d.«namespace» d.appId.text d.id.text).tryCatch
      fun _ => Prog.ret []).eval o.evidenceAnswer = .ok ((o.adapterPods d).map PodObject.toK8sPod) :=
    Prog.eval_tryCatch_ok (adapter_pods_eval o d)
  have hevents : (Prog.perform (EvidenceCall.events d.«namespace») :
      EvidenceProg (List K8sEvent)).eval o.evidenceAnswer = .ok (o.events.map EventObject.toK8sEvent) :=
    Prog.eval_perform _
  have hname := d.name_ne
  generalize d.name = name at hname ⊢
  have hselected : o.events.filter (KubernetesAdapter.selectsEvent name
      ((o.adapterPods d).map PodObject.toK8sPod) ∘ EventObject.toK8sEvent) =
      o.events.filter (EventObject.involves name (o.adapterPods d)) :=
    List.filter_congr fun event _ => selectsEvent_toK8sEvent hname event
  unfold KubernetesAdapter.events
  rw [Prog.eval_bind_ok hpods, Prog.eval_bind_ok hevents, Prog.pure_eq, Prog.eval_ret,
    List.filter_map, hselected]

/-- The events that the deployment manager returns. -/
theorem listDeploymentEvents_eval :
    (KubernetesService.listDeploymentEvents d.«namespace» d.name d.managedLabels).eval
        o.managerAnswer =
      .ok ((((o.events.filter (EventObject.involves d.name (o.managedPods d))).map
        EventObject.toEvent).insertionSort eventBefore).map toDeploymentEventSummary) := by
  have hevents : (Prog.perform (ManagerCall.listEvents d.«namespace») :
      ManagerAction (List Event)).eval o.managerAnswer = .ok (o.events.map EventObject.toEvent) :=
    Prog.eval_perform _
  unfold KubernetesService.listDeploymentEvents
  rw [Prog.eval_bind_ok hevents, Prog.eval_bind_ok (listDeploymentPods_eval o d), Prog.pure_eq,
    Prog.eval_ret, List.filter_map]
  simp only [Function.comp_def, listed_toEvent]

theorem adapter_deploymentStatus_eval :
    (KubernetesAdapter.deploymentStatus d.«namespace» d.name).eval o.evidenceAnswer =
      match o.deployments d.name with
      | some body => .ok (toK8sDeploymentStatus body)
      | none => .error "404 Not Found" := Prog.eval_perform _

end Eval

end NexCause
