/-
NexCause/RestartSignals.lean

Is the restart of a container signalled?  A health sample has the sum of the
restart counts of the containers there are, and the detector compares the sums
of two samples.  So what is gained in one container can be lost with another that
has gone, or that has been counted from zero again.

Main result: the rule `container-restarts-increased` is among the signals whenever
a container of both samples has restarted, exactly if more restarts were gained
than lost whenever one has (`restart_signalled_iff`).
-/
import NexCause.Tallies
import NexCause.CollectionIsolation
import NexCause.IncidentsService

namespace NexCause

open Program Prog

/-! ### Containers -/

/-- The restart counts of the pods, under the names of pod and container. -/
def restartCounts (pods : List EvidenceService.DeploymentPodSummary) :
    List ((String × String) × ℕ) :=
  pods.flatMap fun pod => pod.containers.map fun c => ((pod.name, c.name), c.restartCount)

/-- A container of a pod that is in both lists has a larger restart count in the second. -/
def Restarted (before after : List EvidenceService.DeploymentPodSummary) : Prop :=
  ∃ x ∈ restartCounts before, ∃ y ∈ restartCounts after, x.1 = y.1 ∧ x.2 < y.2

instance (before after : List EvidenceService.DeploymentPodSummary) :
    Decidable (Restarted before after) :=
  inferInstanceAs (Decidable (∃ x ∈ restartCounts before, ∃ y ∈ restartCounts after,
    x.1 = y.1 ∧ x.2 < y.2))

theorem countRestarts_eq (pods : List EvidenceService.DeploymentPodSummary) :
    Observability.countRestarts pods = ((restartCounts pods).map Prod.snd).sum := by
  unfold Observability.countRestarts restartCounts
  rw [List.map_flatMap, List.flatMap_def, List.sum_flatten, List.map_map]
  refine congrArg List.sum (List.map_congr_left fun pod _ => ?_)
  show _ = ((pod.containers.map _).map Prod.snd).sum
  rw [List.map_map]
  rfl

/-! ### Samples -/

/-- A run of `collectDeploymentHealthSample` has read these pods, and has stored this sample. -/
def Collects (ws deploymentId : String) (pods : List EvidenceService.DeploymentPodSummary)
    (data : Observability.HealthSampleData) : Prop :=
  ∃ own, (Observability.collectDeploymentHealthSample ws deploymentId).Reaches own (ret ()) ∧
    (∃ kubernetesNamespace name labels status events,
      (⟨.call (.readCluster ws kubernetesNamespace name labels), .ok (status, pods, events)⟩ :
        Exchange _ _ Observability.ObservabilityError) ∈ own) ∧
    ⟨.call (.createSample ws data), .ok ()⟩ ∈ own

theorem collects_iff {ws deploymentId : String} {pods : List EvidenceService.DeploymentPodSummary}
    {data : Observability.HealthSampleData} :
    Collects ws deploymentId pods data ↔ ∃ deployment collectedAt status events,
      data = Observability.sampleOf deployment collectedAt status pods events := by
  constructor
  · rintro ⟨own, hreaches, ⟨kubernetesNamespace, name, labels, status, events, hread⟩, hcreate⟩
    rw [Observability.collectDeploymentHealthSample_eq] at hreaches
    obtain ⟨found, rest, hown, hfound⟩ := reaches_perform_ret hreaches
    cases found with
    | none => cases (reaches_throw hfound).2
    | some deployment =>
      obtain ⟨collectedAt, rest', hrest, hclock⟩ := reaches_perform_ret hfound
      obtain ⟨⟨status', pods', events'⟩, rest'', hrest', hsample⟩ := reaches_perform_ret hclock
      cases hsample with
      | @next _ _ r own' _ hend =>
        cases r with
        | error e => cases (reaches_throw hend).2
        | ok stored =>
          -- the four calls of the run, and which of them the two exchanges are
          obtain ⟨rfl, -⟩ := reaches_ret hend
          rw [hown, hrest, hrest'] at hread hcreate
          simp only [List.mem_cons, List.not_mem_nil, or_false] at hread hcreate
          have hpods : pods = pods' := by
            obtain h | h | h | h := hread
            · cases h
            · cases h
            · cases h
              rfl
            · cases h
          subst hpods
          obtain h | h | h | h := hcreate
          · cases h
          · cases h
          · cases h
          · cases h
            exact ⟨deployment, collectedAt, status', events', rfl⟩
  · rintro ⟨deployment, collectedAt, status, events, rfl⟩
    rw [Collects, Observability.collectDeploymentHealthSample_eq]
    have hstored : ∀ sample, (Observability.ask (.createSample ws sample)).Reaches
        [⟨.call (.createSample ws sample), .ok ()⟩] (ret ()) := fun sample => .next (.start _)
    refine ⟨_, .perform (a := some deployment) (.perform (a := collectedAt)
      (.perform (a := (status, pods, events)) (hstored _))),
      ⟨deployment.«namespace», deployment.kubernetesDeployment,
        buildManagedLabels deployment.workspaceId deployment.appId deployment.id, status, events,
        ?_⟩,
      ?_⟩
    · exact List.mem_cons_of_mem _ (List.mem_cons_of_mem _ List.mem_cons_self)
    · exact List.mem_cons_of_mem _ (List.mem_cons_of_mem _
        (List.mem_cons_of_mem _ List.mem_cons_self))

/-- A deployment that runs. -/
def watchedDeployment (ws id : String) : Deployment where
  id := id
  workspaceId := ws
  appId := "shop"
  buildId := none
  «namespace» := "shop"
  image := "shop:1"
  replicas := 1
  desiredReplicas := 1
  lastNonZeroReplicas := some 1
  port := 80
  status := .running
  kubernetesDeployment := "shop"
  kubernetesService := "shop"
  kubernetesConfigMap := none
  kubernetesFileConfigMap := none
  kubernetesSecret := none
  kubernetesSecretFiles := none
  publicHostname := none
  stoppedAt := none
  lastRestartedAt := none
  deletedAt := none
  runtimeConfigs := []

/-- The row of a stored sample, as the incident service reads it. -/
def sampleRow (ws id : String) (data : Observability.HealthSampleData) :
    Incidents.HealthSample where
  id := id
  workspaceId := ws
  collectedAt := data.collectedAt
  deploymentId := data.deploymentId
  status := data.status
  desiredReplicas := data.desiredReplicas
  readyReplicas := data.readyReplicas
  availableReplicas := data.availableReplicas
  podCount := data.podCount
  warningEventCount := data.warningEventCount
  restartCount := data.restartCount

/-! ### Signals -/

/-- The rule is among the signals exactly if the count has grown. -/
theorem mem_ruleKeys_iff (latest previous : Incidents.HealthSample) :
    "container-restarts-increased" ∈
        (Incidents.buildSignals latest (some previous)).map Incidents.IncidentSignal.ruleKey ↔
      previous.restartCount < latest.restartCount := by
  have hhealth : ∀ status : String,
      "container-restarts-increased" ≠ s!"health-status-{status}" := by
    intro status h
    have h' := congrArg (fun text : String => text.toList.head?) h
    rw [String.toList_append] at h'
    exact absurd h' (by simp [toString])
  unfold Incidents.buildSignals
  simp only [List.map_append, List.mem_append]
  constructor
  · rintro (((h | h) | h) | h)
    · split at h <;> simp at h
    · split at h <;> simp at h
    · by_contra hle
      simp [hle] at h
    · split at h
      · exact absurd (List.mem_singleton.mp h) (hhealth _)
      · simp at h
  · intro h
    left
    right
    simp [h]

/-- Whenever a container of both lists has restarted between two samples, the rule is among
the signals of the samples. -/
def SignalsRestarts (ws deploymentId : String)
    (before after : List EvidenceService.DeploymentPodSummary) : Prop :=
  ∀ previous latest previousId latestId, Collects ws deploymentId before previous →
    Collects ws deploymentId after latest → Restarted before after →
    "container-restarts-increased" ∈ (Incidents.buildSignals (sampleRow ws latestId latest)
      (some (sampleRow ws previousId previous))).map Incidents.IncidentSignal.ruleKey

/-- **A restart is signalled exactly if the restarts gained outnumber those lost.** -/
theorem restart_signalled_iff (ws deploymentId : String)
    (before after : List EvidenceService.DeploymentPodSummary) :
    SignalsRestarts ws deploymentId before after ↔
      (Restarted before after →
        Tally.lost (restartCounts before) (restartCounts after) <
          Tally.gained (restartCounts before) (restartCounts after)) := by
  have hrule : ∀ d d' t t' status status' events events' previousId latestId,
      "container-restarts-increased" ∈ (Incidents.buildSignals
          (sampleRow ws latestId (Observability.sampleOf d' t' status' after events'))
          (some (sampleRow ws previousId (Observability.sampleOf d t status before events)))).map
            Incidents.IncidentSignal.ruleKey ↔
      Tally.lost (restartCounts before) (restartCounts after) <
        Tally.gained (restartCounts before) (restartCounts after) := by
    intros
    rw [mem_ruleKeys_iff, ← Tally.sum_lt_sum_iff, ← countRestarts_eq, ← countRestarts_eq]
    show (Observability.countRestarts before : ℤ) < Observability.countRestarts after ↔ _
    exact Nat.cast_lt
  constructor
  · intro hsignals hrestarted
    have hcollects : ∀ pods, Collects ws deploymentId pods (Observability.sampleOf
        (watchedDeployment ws deploymentId) 0 ⟨1, 1, 1, 1, 0, []⟩ pods []) :=
      fun pods => collects_iff.mpr ⟨_, _, _, _, rfl⟩
    exact (hrule ..).mp (hsignals _ _ "previous" "latest" (hcollects _) (hcollects _) hrestarted)
  · intro hcounts previous latest previousId latestId hprevious hlatest hrestarted
    obtain ⟨_, _, _, _, rfl⟩ := collects_iff.mp hprevious
    obtain ⟨_, _, _, _, rfl⟩ := collects_iff.mp hlatest
    exact (hrule ..).mpr (hcounts hrestarted)

/-- A pod with one container. -/
def webPod (name : String) (restartCount : ℕ) : EvidenceService.DeploymentPodSummary :=
  ⟨name, some "Running", none, none, [⟨"web", true, restartCount⟩]⟩

/-- A pod has gone whose container had restarted five times, and the container of another has
restarted. -/
theorem restart_hidden :
    ¬ ∀ ws deploymentId before after, SignalsRestarts ws deploymentId before after := by
  intro h
  have hcollects : ∀ pods, Collects "w" "1" pods
      (Observability.sampleOf (watchedDeployment "w" "1") 0 ⟨1, 1, 1, 1, 0, []⟩ pods []) :=
    fun pods => collects_iff.mpr ⟨_, _, _, _, rfl⟩
  have hrestarted : Restarted [webPod "a" 5, webPod "b" 0] [webPod "b" 1] :=
    ⟨(("b", "web"), 0), by simp [restartCounts, webPod], (("b", "web"), 1),
      by simp [restartCounts, webPod], rfl, Nat.zero_lt_one⟩
  have hsignal := h "w" "1" _ _ _ _ "previous" "latest" (hcollects _) (hcollects _) hrestarted
  rw [mem_ruleKeys_iff] at hsignal
  -- the sums are five, and then one
  exact absurd hsignal (by decide)

end NexCause
