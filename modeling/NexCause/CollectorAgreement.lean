/-
NexCause/CollectorAgreement.lean

Do the two collectors of the cluster agree?  The evidence server reports the
bundles of `DeploymentStatus`, `Pods` and `Events`, the deployment manager what
`getDeploymentStatus`, `listDeploymentPods` and `listDeploymentEvents` return.

Agreement is equality of the reports, once those of the deployment manager are
put into the terms of the evidence server.  The `eventTime` of an event is left
out of it: one reports the field of the API, the other the time it sorts by.

Main result: when exactly they agree (`collectors_agree_iff`).  The counts of replicas always
do; of the rest, each selection, each cut and each time has its condition, and
the name of a node, which only one of them reads from where it is, has to be
empty.
-/
import Mathlib
import NexCause.NamespaceObjects
import NexCause.Preprocess
import NexCause.StableSort

namespace NexCause

open Program EvidenceService StableSort

/-! ### The reports of the deployment manager -/

/-- Milliseconds, in nanoseconds. -/
def nanoseconds (milliseconds : ℤ) : Go.Time := milliseconds * 1000000

def LiveStatus.toReport (live : LiveStatus) : K8sDeploymentStatus where
  desiredReplicas := live.desiredReplicas
  readyReplicas := live.readyReplicas
  availableReplicas := live.availableReplicas
  updatedReplicas := live.updatedReplicas
  unavailableReplicas := live.unavailableReplicas

def EvidenceService.DeploymentPodSummary.toReport (pod : DeploymentPodSummary) : K8sPod where
  name := pod.name
  phase := pod.phase.getD ""
  nodeName := pod.nodeName.getD ""
  startedAt := pod.startTime.map nanoseconds
  containers := pod.containers.map fun c => ⟨c.name, c.ready, c.restartCount⟩

def EvidenceService.DeploymentEventSummary.toReport (event : DeploymentEventSummary) : K8sEvent where
  name := event.name.getD ""
  type := event.type.getD ""
  reason := event.reason.getD ""
  message := event.message.getD ""
  involvedKind := event.involvedKind.getD ""
  involvedName := event.involvedName.getD ""
  firstTimestamp := event.firstTimestamp.map nanoseconds
  lastTimestamp := event.lastTimestamp.map nanoseconds
  eventTime := none
  count := (event.count.getD 0 : ℕ)

/-- A sample without the `eventTime` of an event. -/
def Sample.untimed : Sample → Sample
  | .event e => .event { e with eventTime := none }
  | s => s

/-- The name of the object of a sample. -/
def Sample.name : Sample → String
  | .pod p => p.name
  | .event e => e.name
  | _ => ""

/-! ### The two collections -/

/-- What the evidence server puts beside what it collects, and its limit. -/
structure Collection where
  scope : Scope
  start : Go.Time
  stop : Go.Time
  limit : ℤ

section Collections

variable (o : NamespaceObjects) (d : CreatedDeployment) (c : Collection)

def evidenceStatus : Except String Bundle :=
  ((KubernetesAdapter.deploymentStatus d.«namespace» d.name).eval o.evidenceAnswer).map
    (Preprocess.deploymentStatus c.scope c.start c.stop)

def evidencePods : Except String Bundle :=
  ((KubernetesAdapter.pods d.«namespace» d.appId.text d.id.text).eval o.evidenceAnswer).map
    fun pods => Preprocess.pods c.scope c.start c.stop pods c.limit

def evidenceEvents : Except String Bundle :=
  ((KubernetesAdapter.events d.«namespace» d.name d.appId.text d.id.text).eval
    o.evidenceAnswer).map fun events => Preprocess.events c.scope c.start c.stop events c.limit

def managerStatus : Except ApiError LiveStatus :=
  (onPlatform (getDeploymentStatus d.«namespace» d.name)).eval o.managerAnswer

def managerPods : Except ApiError (List DeploymentPodSummary) :=
  (KubernetesService.listDeploymentPods d.«namespace» d.managedLabels).eval o.managerAnswer

def managerEvents : Except ApiError (List DeploymentEventSummary) :=
  (KubernetesService.listDeploymentEvents d.«namespace» d.name d.managedLabels).eval o.managerAnswer

/-- The collectors report the same. -/
structure CollectorsAgree : Prop where
  replicas : (evidenceStatus o d c).toOption.map Bundle.samples =
    (managerStatus o d).toOption.map fun live => [Sample.status live.toReport]
  pods : (evidencePods o d c).toOption.map Bundle.samples =
    (managerPods o d).toOption.map fun pods => pods.map fun pod => Sample.pod pod.toReport
  events : (evidenceEvents o d c).toOption.map (fun bundle => bundle.samples.map Sample.untimed) =
    (managerEvents o d).toOption.map fun events =>
      events.map fun event => Sample.event event.toReport

/-! ### The condition -/

/-- The order of the evidence server. -/
def sortedByAdapter (a b : EventObject) : Prop :=
  Preprocess.eventTime a.toK8sEvent ≤ Preprocess.eventTime b.toK8sEvent

/-- The order of the deployment manager. -/
def sortedByManager (a b : EventObject) : Prop := eventBefore a.toEvent b.toEvent

instance : DecidableRel sortedByAdapter := fun a b => by unfold sortedByAdapter; infer_instance

instance : DecidableRel sortedByManager := fun a b => by unfold sortedByManager; infer_instance

/-- A place within the limit; there is none if it is not positive. -/
def WithinLimit (limit : ℤ) (place : ℕ) : Prop := limit ≤ 0 ∨ place < limit

/-- The events of the deployment to the evidence server. -/
def NamespaceObjects.adapterEvents : List EventObject :=
  o.events.filter (EventObject.involves d.name (o.adapterPods d))

/-- The events of the deployment to the deployment manager. -/
def NamespaceObjects.managedEvents : List EventObject :=
  o.events.filter (EventObject.involves d.name (o.managedPods d))

/-- What the agreement of the collectors takes: a pod has the label of the
workspace exactly if it is listed within the limit, and has no node; an event
involves the pods with that label exactly if it is sorted within the limit, and
the times by which the collectors sort agree on the order of any two of those. -/
structure InStep (limit : ℤ) : Prop where
  labelled : ∀ pod ∈ o.adapterPods d,
    d.InWorkspace pod.labels ↔ WithinLimit limit (rank anyOrder (o.adapterPods d) pod)
  unscheduled : ∀ pod ∈ o.managedPods d, pod.nodeName.getD "" = ""
  involved : ∀ event ∈ o.adapterEvents d,
    event.involves d.name (o.managedPods d) = true ↔
      WithinLimit limit (rank sortedByAdapter (o.adapterEvents d) event)
  ordered : ∀ a b, [a, b].Sublist (o.managedEvents d) → (sortedByAdapter a b ↔ sortedByManager a b)

end Collections

/-! ### Reports of lists -/

section Lists

variable {α β κ : Type}

/-- How many samples the limit leaves. -/
def cut (limit : ℤ) (n : ℕ) : ℕ := if limit ≤ 0 then n else limit.toNat

theorem trimAny_fst (limit : ℤ) (items : List α) :
    (trimAny items limit).1 = items.take (cut limit items.length) := by
  unfold trimAny cut
  by_cases hlimit : limit ≤ 0
  · rw [if_pos (.inl hlimit), if_pos hlimit, List.take_length]
  · rw [if_neg hlimit]
    split
    · have hle : items.length ≤ limit.toNat := by omega
      rw [List.take_of_length_le hle]
    · rfl

/-- The place of an element is within the limit if the cut leaves it. -/
theorem withinLimit_iff {limit : ℤ} {n place : ℕ} (h : place < n) :
    WithinLimit limit place ↔ place < cut limit n := by
  unfold WithinLimit cut
  split
  · exact iff_of_true (.inl ‹_›) h
  · omega

/-- Two lists of reports, each with the name of what it is of, are the same
exactly if they are of the same list and the reports of each element are. -/
theorem map_eq_map_iff {f g : α → β} (key : β → κ) {xs ys : List α}
    (hkey : ∀ a ∈ xs, ∀ b ∈ ys, key (f a) = key (g b) → a = b) :
    xs.map f = ys.map g ↔ xs = ys ∧ ∀ a ∈ ys, f a = g a := by
  constructor
  · intro h
    induction xs generalizing ys with
    | nil =>
      obtain rfl : ys = [] := List.map_eq_nil_iff.mp h.symm
      exact ⟨rfl, by simp⟩
    | cons x xs ih =>
      cases ys with
      | nil => cases h
      | cons y ys =>
        obtain ⟨hhead, htail⟩ := List.cons.inj h
        obtain rfl := hkey x List.mem_cons_self y List.mem_cons_self (congrArg key hhead)
        obtain ⟨rfl, hrest⟩ := ih (fun a ha b hb => hkey a (List.mem_cons_of_mem _ ha) b
          (List.mem_cons_of_mem _ hb)) htail
        exact ⟨rfl, List.forall_mem_cons.mpr ⟨hhead, hrest⟩⟩
  · rintro ⟨rfl, h⟩
    exact List.map_congr_left h

end Lists

/-! ### The reports of one object -/

/-- Seconds by way of milliseconds. -/
theorem nanoseconds_milliseconds : (nanoseconds ∘ fun s => s * 1000) = fun s => s * Go.second := by
  funext s
  show s * 1000 * 1000000 = s * 1000000000
  omega

/-- The reports of a pod differ in the name of its node. -/
theorem pod_reports_iff (pod : PodObject) :
    pod.toK8sPod = (toDeploymentPodSummary pod.toPod).toReport ↔ pod.nodeName.getD "" = "" := by
  have hreport : (toDeploymentPodSummary pod.toPod).toReport =
      { pod.toK8sPod with nodeName := pod.nodeName.getD "" } := by
    simp [DeploymentPodSummary.toReport, toDeploymentPodSummary, PodObject.toPod,
      PodObject.toK8sPod, nanoseconds_milliseconds]
  rw [hreport]
  constructor
  · intro h
    exact (congrArg K8sPod.nodeName h).symm
  · intro h
    rw [h]
    rfl

/-- The reports of an event do not. -/
theorem event_reports (event : EventObject) :
    (Sample.event event.toK8sEvent).untimed =
      Sample.event (toDeploymentEventSummary event.toEvent).toReport := by
  simp [Sample.untimed, DeploymentEventSummary.toReport, toDeploymentEventSummary,
    EventObject.toEvent, EventObject.toK8sEvent, nanoseconds_milliseconds]

/-! ### The orders -/

/-- The time by which the deployment manager sorts; an empty one comes first. -/
def managerTime (event : EventObject) : WithBot ℤ := getEventTime event.toEvent

theorem sortedByManager_iff (a b : EventObject) :
    sortedByManager a b ↔ managerTime a ≤ managerTime b := by
  unfold sortedByManager eventBefore managerTime
  cases getEventTime a.toEvent with
  | none => exact iff_of_true trivial bot_le
  | some s =>
    cases getEventTime b.toEvent with
    | none => exact iff_of_false id (WithBot.not_coe_le_bot s)
    | some t => exact WithBot.coe_le_coe.symm

instance : Std.Total sortedByAdapter := ⟨fun _ _ => le_total _ _⟩

instance : IsTrans EventObject sortedByAdapter := ⟨fun _ _ _ => le_trans⟩

instance : Std.Total sortedByManager := ⟨fun a b => by
  rw [sortedByManager_iff, sortedByManager_iff]
  exact le_total _ _⟩

instance : IsTrans EventObject sortedByManager := ⟨fun a b c => by
  rw [sortedByManager_iff, sortedByManager_iff, sortedByManager_iff]
  exact le_trans⟩

/-! ### The three agreements -/

section Agreements

variable (o : NamespaceObjects) (d : CreatedDeployment) (c : Collection)

/-- The counts of replicas are the same. -/
theorem replicas_agree : (evidenceStatus o d c).toOption.map Bundle.samples =
    (managerStatus o d).toOption.map fun live => [Sample.status live.toReport] := by
  let read : ManagerCall := .platform (.kubernetes (.read ⟨.deployment, d.«namespace», d.name⟩))
  have hmanager : managerStatus o d = (onPlatform (Prog.ofExcept (o.managerAnswer read) >>=
      fun body : ReadBody => pure {
        desiredReplicas := body.object.specReplicas.getD 0
        readyReplicas := body.status.readyReplicas
        availableReplicas := body.status.availableReplicas
        updatedReplicas := body.status.updatedReplicas
        unavailableReplicas := body.status.unavailableReplicas
        conditions := body.status.conditions })).eval o.managerAnswer := rfl
  rw [hmanager, evidenceStatus, adapter_deploymentStatus_eval]
  cases hread : o.deployments d.name with
  | none =>
    have hanswer : o.managerAnswer read = .error (.kubernetes 404 "Not Found") := by
      simp only [read, NamespaceObjects.managerAnswer, hread]
    rw [hanswer]
    rfl
  | some body =>
    have hanswer : o.managerAnswer read = .ok body := by
      simp only [read, NamespaceObjects.managerAnswer, hread]
    rw [hanswer]
    rfl

theorem NamespaceObjects.nodup_adapterPods : (o.adapterPods d).Nodup :=
  (List.Nodup.of_map _ o.pods_nodup).sublist List.filter_sublist

theorem NamespaceObjects.nodup_adapterEvents : (o.adapterEvents d).Nodup :=
  (List.Nodup.of_map _ o.events_nodup).sublist List.filter_sublist

/-- The pods are the same if the two selections are, up to the limit, and none of
the pods has a node. -/
theorem pods_agree_iff :
    ((evidencePods o d c).toOption.map Bundle.samples =
      (managerPods o d).toOption.map fun pods => pods.map fun pod => Sample.pod pod.toReport) ↔
    (∀ pod ∈ o.adapterPods d,
      d.InWorkspace pod.labels ↔ WithinLimit c.limit (rank anyOrder (o.adapterPods d) pod)) ∧
    ∀ pod ∈ o.managedPods d, pod.nodeName.getD "" = "" := by
  have hnodup := o.nodup_adapterPods d
  have hevidence : (evidencePods o d c).toOption.map Bundle.samples =
      some (((o.adapterPods d).take (cut c.limit (o.adapterPods d).length)).map
        fun pod => Sample.pod pod.toK8sPod) := by
    rw [evidencePods, adapter_pods_eval]
    show some (trimAny (((o.adapterPods d).map PodObject.toK8sPod).map Sample.pod) c.limit).1 = _
    rw [List.map_map, trimAny_fst, List.length_map, ← List.map_take]
    rfl
  have hmanager : ((managerPods o d).toOption.map fun pods => pods.map fun pod =>
      Sample.pod pod.toReport) = some ((o.managedPods d).map fun pod =>
        Sample.pod (toDeploymentPodSummary pod.toPod).toReport) := by
    rw [managerPods, listDeploymentPods_eval]
    show some (((o.managedPods d).map _).map _) = _
    rw [List.map_map]
    rfl
  -- a pod is told by its name
  have hkey : ∀ pod ∈ (o.adapterPods d).take (cut c.limit (o.adapterPods d).length),
      ∀ pod' ∈ o.managedPods d, (Sample.pod pod.toK8sPod).name =
        (Sample.pod (toDeploymentPodSummary pod'.toPod).toReport).name → pod = pod' := by
    intro pod hpod pod' hpod' hname
    exact List.inj_on_of_nodup_map o.pods_nodup (List.mem_of_mem_filter (List.mem_of_mem_take hpod))
      (List.mem_of_mem_filter hpod') hname
  rw [hevidence, hmanager, Option.some_inj, map_eq_map_iff Sample.name hkey, o.managedPods_eq,
    take_eq_filter_iff hnodup]
  refine and_congr ?_ ?_
  · -- the same pods: the manager filters by workspace, the adapter cuts
    refine forall₂_congr fun pod hpod => ?_
    rw [decide_eq_true_eq, withinLimit_iff (rank_lt hnodup hpod)]
  · -- and the same about each
    refine forall₂_congr fun pod _ => ?_
    rw [Sample.pod.injEq, pod_reports_iff]

/-- The events that involve the pods of the deployment manager are among those
of the evidence server. -/
theorem NamespaceObjects.managedEvents_eq :
    o.managedEvents d = (o.adapterEvents d).filter (EventObject.involves d.name (o.managedPods d)) := by
  unfold managedEvents adapterEvents
  rw [List.filter_filter]
  apply List.filter_congr
  intro event _
  rw [Bool.eq_iff_iff, Bool.and_eq_true, EventObject.involves_iff, EventObject.involves_iff]
  constructor
  · rintro ⟨involved, hname, h⟩
    refine ⟨⟨involved, hname, h⟩, involved, hname, h.imp_right (Or.imp_left ?_)⟩
    rintro ⟨pod, hpod, hpodName⟩
    rw [o.managedPods_eq] at hpod
    exact ⟨pod, List.mem_of_mem_filter hpod, hpodName⟩
  · exact fun h => h.1

theorem events_agree_iff :
    ((evidenceEvents o d c).toOption.map (fun bundle => bundle.samples.map Sample.untimed) =
      (managerEvents o d).toOption.map fun events =>
        events.map fun event => Sample.event event.toReport) ↔
    (∀ event ∈ o.adapterEvents d,
      event.involves d.name (o.managedPods d) = true ↔
        WithinLimit c.limit (rank sortedByAdapter (o.adapterEvents d) event)) ∧
    ∀ a b, [a, b].Sublist (o.managedEvents d) → (sortedByAdapter a b ↔ sortedByManager a b) := by
  have hnodup := o.nodup_adapterEvents d
  have hevidence : (evidenceEvents o d c).toOption.map (fun bundle => bundle.samples.map Sample.untimed) =
      some ((((o.adapterEvents d).insertionSort sortedByAdapter).take
        (cut c.limit (o.adapterEvents d).length)).map
          fun event => (Sample.event event.toK8sEvent).untimed) := by
    have hsorted := List.map_insertionSort sortedByAdapter
      (fun a b => Preprocess.eventTime a ≤ Preprocess.eventTime b) EventObject.toK8sEvent
      (o.adapterEvents d) fun _ _ _ _ => Iff.rfl
    rw [evidenceEvents, adapter_events_eval]
    show some ((trimAny ((((o.adapterEvents d).map EventObject.toK8sEvent).insertionSort _).map
      Sample.event) c.limit).1.map Sample.untimed) = _
    rw [← hsorted, List.map_map, trimAny_fst, List.length_map, List.length_insertionSort,
      ← List.map_take, List.map_map]
    rfl
  have hmanager : ((managerEvents o d).toOption.map fun events => events.map fun event =>
      Sample.event event.toReport) = some (((o.managedEvents d).insertionSort sortedByManager).map
        fun event => Sample.event (toDeploymentEventSummary event.toEvent).toReport) := by
    have hsorted := List.map_insertionSort sortedByManager eventBefore EventObject.toEvent
      (o.managedEvents d) fun _ _ _ _ => Iff.rfl
    rw [managerEvents, listDeploymentEvents_eval]
    show some (((((o.managedEvents d).map EventObject.toEvent).insertionSort eventBefore).map
      toDeploymentEventSummary).map _) = _
    rw [← hsorted, List.map_map, List.map_map]
    rfl
  -- two events with the same name are the same event
  have hkey : ∀ event ∈ ((o.adapterEvents d).insertionSort sortedByAdapter).take
        (cut c.limit (o.adapterEvents d).length),
      ∀ event' ∈ (o.managedEvents d).insertionSort sortedByManager,
        (Sample.event event.toK8sEvent).untimed.name =
          (Sample.event (toDeploymentEventSummary event'.toEvent).toReport).name → event = event' := by
    intro event hevent event' hevent' hname
    rw [List.mem_insertionSort] at hevent'
    have hmem := (List.mem_insertionSort _).mp (List.mem_of_mem_take hevent)
    exact List.inj_on_of_nodup_map o.events_nodup (List.mem_of_mem_filter hmem)
      (List.mem_of_mem_filter hevent') hname
  -- the lists agree if what passes the limit is what the manager takes, in the same order
  rw [hevidence, hmanager, Option.some_inj, map_eq_map_iff Sample.name hkey,
    and_iff_left fun event _ => event_reports event, o.managedEvents_eq,
    take_insertionSort_eq_iff hnodup]
  refine and_congr_left' (forall₂_congr fun event hevent => ?_)
  rw [withinLimit_iff (rank_lt hnodup hevent)]

/-- **Agreement.** -/
theorem collectors_agree_iff : CollectorsAgree o d c ↔ InStep o d c.limit := by
  constructor
  · intro h
    obtain ⟨hlabelled, hunscheduled⟩ := (pods_agree_iff o d c).mp h.pods
    obtain ⟨hinvolved, hordered⟩ := (events_agree_iff o d c).mp h.events
    exact ⟨hlabelled, hunscheduled, hinvolved, hordered⟩
  · intro h
    exact ⟨replicas_agree o d c, (pods_agree_iff o d c).mpr ⟨h.labelled, h.unscheduled⟩,
      (events_agree_iff o d c).mpr ⟨h.involved, h.ordered⟩⟩

end Agreements

/-- A namespace with one pod of a deployment, which runs on a node. -/
def scheduledPod (d : CreatedDeployment) : NamespaceObjects where
  deployments := fun _ => none
  pods := [⟨"shop-1a2b3c4d-5d8f-x7k2p", d.managedLabels, some "node-1",
    ⟨some "Running", some 1780000000, some [⟨"shop", true, 0⟩]⟩, by decide⟩]
  events := []
  pods_nodup := List.nodup_singleton _
  events_nodup := List.nodup_nil

/-- The name of its node gets lost. -/
theorem node_of_pod_lost :
    ¬ CollectorsAgree (scheduledPod (deploymentOf "shop"
        ⟨"c0ffee00-1", forall_mem_of_all (by decide), by decide⟩
        ⟨"1a2b3c4d-5e6f", forall_mem_of_all (by decide), by decide⟩))
      (deploymentOf "shop" ⟨"c0ffee00-1", forall_mem_of_all (by decide), by decide⟩
        ⟨"1a2b3c4d-5e6f", forall_mem_of_all (by decide), by decide⟩)
      ⟨⟨"app", "shop", "deployment", "rca-w-1", "shop", "shop-1a2b3c4d"⟩, 0, 0, 120⟩ := by
  intro h
  obtain ⟨-, hunscheduled⟩ := (pods_agree_iff _ _ _).mp h.pods
  apply absurd (hunscheduled _ (List.mem_filter.mpr ⟨List.mem_cons_self, ?_⟩))
  · decide
  · decide

end NexCause
