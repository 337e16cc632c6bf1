/-
NexCause/EvidenceWindow.lean

Evidence and the window of its incident.

Events carry the window as a label only: no request and no step after it
compares the time of an event with the window.  The logs of pods are asked for
by the length of the window, counted back from the time of the call.  So what
is reported lies in the window, and nothing of it is missed, exactly where the
cluster happens to hold no other events and no lines that are newer than the
end or older than that (`evidence_inside_iff`).
-/
import NexCause.LogLines

namespace NexCause

open Program

/-! ### What is reported -/

/-- The time lies in the window. -/
def ScopedContext.Contains (s : ScopedContext) (t : Go.Time) : Prop := s.start ≤ t ∧ t ≤ s.stop

instance (s : ScopedContext) (t : Go.Time) : Decidable (s.Contains t) :=
  inferInstanceAs (Decidable (_ ∧ _))

variable (b : Backend) (cfg : Config) (s : ScopedContext)

/-- The events that are counted, of which the first are returned. -/
def Backend.countedEvents : List K8sEvent :=
  if cfg.kubernetes then
    (b.events.toOption.getD []).filter
      (KubernetesAdapter.selectsEvent s.context.scope.deploymentName (b.pods.toOption.getD []))
  else []

/-- The pods whose logs are read: none where Loki answers. -/
def Backend.podsRead : List K8sPod :=
  match b.entriesInWindow cfg s with
  | .ok _ => []
  | .error _ => (b.fallbackPods cfg).toOption.getD []

/-- The lines that are read from a pod's log, each with the line of the log that
it is; the text of an error is none. -/
def Backend.origins (pod : K8sPod) : List (Option PodLogLine × (String × List Char)) :=
  match b.podLines pod.name with
  | .ok lines =>
      (linesSince b.now (KubernetesAdapter.sinceSeconds (s.stop - s.start))
        (lastLines cfg.maxLogLines lines)).map
        fun l => (some l, (pod.name, Go.trimSpace (stampedLine b.stamp l)))
  | .error err => (podLogLines ⟨pod.name, ("error: " ++ err).toList⟩).map fun p => (none, p)

/-- The lines that are returned. -/
def Backend.returned : List (Option PodLogLine × (String × List Char)) :=
  ((b.podsRead cfg s).flatMap (b.origins cfg s)).take cfg.maxLogLines.toNat

/-- The evidence lies inside the window: every event that is returned or
counted, and every line with a time that is returned; and of the last lines of
the pods' logs none that lies in it is missed. -/
structure Backend.EvidenceInside : Prop where
  events : ∀ e ∈ b.countedEvents cfg s, s.Contains (Preprocess.eventTime e)
  lines : ∀ l, some l ∈ (b.returned cfg s).map Prod.fst → s.Contains l.time
  missed : ∀ pod ∈ b.podsRead cfg s, ∀ lines, b.podLines pod.name = .ok lines →
    ∀ l ∈ lastLines cfg.maxLogLines lines, s.Contains l.time →
      some l ∈ (b.origins cfg s pod).map Prod.fst

/-- What the cluster has to hold for that: no event of the deployment outside
the window; no line after the end of the window among those returned, nor one
before its start if the window is empty; and no line of the window that is
older, at the call, than the window is long. -/
structure Backend.NothingOutside : Prop where
  events : cfg.kubernetes = true → ∀ events, b.events = .ok events → ∀ e ∈ events,
    KubernetesAdapter.selectsEvent s.context.scope.deploymentName (b.pods.toOption.getD []) e = true →
      s.Contains (Preprocess.eventTime e)
  newer : ∀ l, some l ∈ (b.returned cfg s).map Prod.fst →
    l.time ≤ s.stop ∧ (s.stop ≤ s.start → s.start ≤ l.time)
  older : ∀ pod ∈ b.podsRead cfg s, ∀ lines, b.podLines pod.name = .ok lines →
    ∀ l ∈ lastLines cfg.maxLogLines lines, s.Contains l.time →
      b.now - max Go.second (s.stop - s.start) < l.time

variable {b cfg s}

/-! ### Events -/

/-- A bundle that returns and counts events: each sample is one of them, and
their number is the count. -/
structure Bundle.Counts (bundle : Bundle) (events : List K8sEvent) : Prop where
  samples : ∀ sample ∈ bundle.samples, ∃ e ∈ events, sample = .event e
  stats : ∀ n, ("eventCount", n) ∈ bundle.stats → n = Float64.ofInt events.length

theorem events_counts (limit : ℤ) (events : List K8sEvent) :
    (Preprocess.events s.context.scope s.start s.stop events limit).Counts events := by
  have hperm := List.perm_insertionSort
    (fun a b => Preprocess.eventTime a ≤ Preprocess.eventTime b) events
  constructor
  · intro sample hsample
    have hmem : sample ∈ (events.insertionSort fun a b =>
        Preprocess.eventTime a ≤ Preprocess.eventTime b).map Sample.event := by
      change sample ∈ (trimAny _ _).1 at hsample
      unfold trimAny at hsample
      split at hsample
      · exact hsample
      · exact List.mem_of_mem_take hsample
    obtain ⟨e, he, rfl⟩ := List.mem_map.mp hmem
    exact ⟨e, hperm.mem_iff.mp he, rfl⟩
  · intro n hn
    change ("eventCount", n) ∈ [("eventCount", _), ("warningEventCount", _)] at hn
    simp only [List.mem_cons, Prod.mk.injEq, List.not_mem_nil, or_false, true_and] at hn
    rcases hn with hn | hn
    · rw [hn, hperm.length_eq]
    · exact absurd hn.1 (by decide)

theorem getEvents_counts :
    ∃ bundle, (Services.getEvents cfg s).eval b.answer = .ok bundle ∧
      bundle.Counts (b.countedEvents cfg s) := by
  have hnone : ∀ bundle : Bundle, bundle.samples = [] → bundle.stats = [] →
      bundle.Counts (b.countedEvents cfg s) := by
    intro bundle hsamples hstats
    constructor
    · simp [hsamples]
    · simp [hstats]
  unfold Services.getEvents collectFromCluster
  split
  · rename_i hcluster
    cases h : b.events with
    | error e =>
      have hp := events_eval (b := b) s.context.scope
      rw [h] at hp
      exact ⟨_, collect_eval_error hp, hnone _ rfl rfl⟩
    | ok events =>
      have hp := events_eval (b := b) s.context.scope
      rw [h] at hp
      refine ⟨_, collect_eval_ok hp, ?_⟩
      unfold Backend.countedEvents
      rw [if_pos hcluster, h]
      exact events_counts _ _
  · exact ⟨_, rfl, hnone _ rfl rfl⟩

/-! ### Lines -/

theorem origins_lines (pod : K8sPod) :
    (b.origins cfg s pod).map Prod.snd =
      podLogLines (b.podLog (s.stop - s.start) cfg.maxLogLines pod) := by
  unfold Backend.origins Backend.podLog
  cases b.podLines pod.name with
  | error err => simp
  | ok lines =>
    unfold podLogLines
    rw [visibleLines_logText, List.map_map, List.map_map]
    rfl

/-- What the bundle returns of the pods' logs. -/
theorem getLogs_returned {order : MapOrder} {err : String}
    (hs : s.context.constraints.maxLogLines = cfg.maxLogLines)
    (hloki : b.entriesInWindow cfg s = .error err) :
    ∃ bundle, (Services.getLogs cfg order s).eval b.answer = .ok bundle ∧
      bundle.samples = (b.returned cfg s).map fun p => logSample p.2 := by
  unfold Backend.returned Backend.podsRead
  rw [hloki]
  dsimp only
  cases hpods : b.fallbackPods cfg with
  | error err' =>
    -- without pods the logs have an error, and no lines
    have hnone : ∃ e, (Services.collectLogs cfg order s).eval b.answer = .error e :=
      collectLogs_none hloki hpods
    obtain ⟨e, he⟩ := hnone
    refine ⟨_, collect_eval_error he, ?_⟩
    simp [withError, newBundle, Except.toOption]
  | ok pods =>
    refine ⟨_, collect_eval_ok (collectLogs_pods hloki hpods), ?_⟩
    rw [hs, Preprocess.returned_samples]
    show (Preprocess.logLines cfg.maxLogLines
      (pods.map (b.podLog (s.stop - s.start) cfg.maxLogLines))).lines = _
    -- the lines of the pods, each with where it was read
    have hread : (pods.map (b.podLog (s.stop - s.start) cfg.maxLogLines)).flatMap podLogLines =
        (pods.flatMap (b.origins cfg s)).map Prod.snd := by
      rw [List.flatMap_map, List.map_flatMap]
      congr 1
      funext pod
      exact (origins_lines pod).symm
    rw [(logLines_eq _ _).1, hread, ← List.map_take, List.map_map]
    rfl

/-- The seconds of the window, counted in its unit. -/
theorem sinceSeconds_mul (hstart : Go.second ∣ s.start) (hstop : Go.second ∣ s.stop) :
    KubernetesAdapter.sinceSeconds (s.stop - s.start) * Go.second = max Go.second (s.stop - s.start) := by
  obtain ⟨n, hn⟩ := Int.dvd_sub hstop hstart
  have hdiv : (s.stop - s.start).tdiv Go.second = n := by
    rw [hn, Int.mul_tdiv_cancel_left n (by decide)]
  unfold KubernetesAdapter.sinceSeconds
  rw [hdiv, hn]
  unfold Go.second
  split <;> omega

theorem mem_origins {pod : K8sPod} {l : PodLogLine} :
    some l ∈ (b.origins cfg s pod).map Prod.fst ↔ ∃ lines, b.podLines pod.name = .ok lines ∧
      l ∈ lastLines cfg.maxLogLines lines ∧
        b.now - KubernetesAdapter.sinceSeconds (s.stop - s.start) * Go.second < l.time := by
  unfold Backend.origins
  cases b.podLines pod.name with
  | error err => simp
  | ok lines => simp [linesSince]

/-- A line that is returned is newer than the window is long. -/
theorem returned_newer {l : PodLogLine} (h : some l ∈ (b.returned cfg s).map Prod.fst) :
    b.now - KubernetesAdapter.sinceSeconds (s.stop - s.start) * Go.second < l.time := by
  obtain ⟨p, hp, hl⟩ := List.mem_map.mp h
  have hmem : p ∈ (b.podsRead cfg s).flatMap (b.origins cfg s) := List.mem_of_mem_take hp
  obtain ⟨pod, -, hpod⟩ := List.mem_flatMap.mp hmem
  have horigin : some l ∈ (b.origins cfg s pod).map Prod.fst := List.mem_map.mpr ⟨p, hpod, hl⟩
  obtain ⟨lines, -, -, hnewer⟩ := mem_origins.mp horigin
  exact hnewer

/-! ### Inside the window -/

theorem evidenceInside_iff (hnow : s.stop ≤ b.now) (hstart : Go.second ∣ s.start)
    (hstop : Go.second ∣ s.stop) : b.EvidenceInside cfg s ↔ b.NothingOutside cfg s := by
  have hsince := sinceSeconds_mul hstart hstop
  constructor
  · intro h
    refine ⟨?_, ?_, ?_⟩
    · intro hcluster events hevents e he hselected
      apply h.events
      unfold Backend.countedEvents
      rw [if_pos hcluster, hevents]
      exact List.mem_filter.mpr ⟨he, hselected⟩
    · intro l hl
      have hinside := h.lines l hl
      exact ⟨hinside.2, fun _ => hinside.1⟩
    · intro pod hpod lines hlines l hl hinside
      obtain ⟨_, -, -, hnewer⟩ := mem_origins.mp (h.missed pod hpod lines hlines l hl hinside)
      rw [← hsince]
      exact hnewer
  · intro h
    refine ⟨?_, ?_, ?_⟩
    · intro e he
      unfold Backend.countedEvents at he
      split at he
      · rename_i hcluster
        obtain ⟨he, hselected⟩ := List.mem_filter.mp he
        cases hevents : b.events with
        | error err =>
          rw [hevents] at he
          cases he
        | ok events =>
          rw [hevents] at he
          exact h.events hcluster events hevents e he hselected
      · cases he
    · intro l hl
      obtain ⟨hend, hempty⟩ := h.newer l hl
      refine ⟨?_, hend⟩
      rcases Int.lt_or_le s.start s.stop with hlt | hle
      · -- a line so new is after the start, as the window ends at the call at the latest
        have hnewer := returned_newer hl
        have hlength : Go.second ≤ s.stop - s.start :=
          Int.le_of_dvd (by omega) (Int.dvd_sub hstop hstart)
        rw [hsince, max_eq_right hlength] at hnewer
        linarith
      · exact hempty hle
    · intro pod hpod lines hlines l hl hinside
      apply mem_origins.mpr
      refine ⟨lines, hlines, hl, ?_⟩
      rw [hsince]
      exact h.older pod hpod lines hlines l hl hinside

/-- **Evidence inside the window.**  For every context, every content of the
cluster and every time of the call: `get_kubernetes_events` returns and counts
the counted events, `get_logs` without Loki's answer returns the returned lines,
and these lie in the window, with no line of it missed, exactly where the
cluster holds nothing outside. -/
theorem evidence_inside_iff (order : MapOrder) (claims : Claims)
    {arguments : List (String × Json String)} {req : EvidenceRequest}
    (hreq : evidenceRequest arguments = .ok req)
    (hs : (scopedContext cfg (some claims) req).eval b.answer = .ok s) :
    (∃ bundle, (Registry.call cfg order (some claims) (Tool.name .kubernetesEvents)
        arguments).eval b.answer = .ok (.bundle bundle) ∧ bundle.Counts (b.countedEvents cfg s)) ∧
    (∃ bundle, (Registry.call cfg order (some claims) (Tool.name .logs)
        arguments).eval b.answer = .ok (.bundle bundle) ∧
      ∀ err, b.entriesInWindow cfg s = .error err →
        bundle.samples = (b.returned cfg s).map fun p => logSample p.2) ∧
    (b.EvidenceInside cfg s ↔ b.NothingOutside cfg s) := by
  refine ⟨?_, ?_, ?_⟩
  · -- the events are counted as they come
    obtain ⟨bundle, hbundle, hcounts⟩ := getEvents_counts (b := b) (s := s)
    refine ⟨bundle, ?_, hcounts⟩
    rw [call_eval hreq hs]
    exact Prog.eval_bind_ok hbundle
  · rw [call_eval hreq hs]
    -- the lines of the pods are read when Loki fails
    cases hloki : b.entriesInWindow cfg s with
    | ok entries =>
      refine ⟨_, Prog.eval_bind_ok (collect_eval_ok (collectLogs_loki hloki)), ?_⟩
      intro err h
      cases h
    | error err =>
      have hlines := (scopedContext_constraints hs).1
      obtain ⟨bundle, hbundle, hsamples⟩ := getLogs_returned hlines hloki
      exact ⟨bundle, Prog.eval_bind_ok hbundle, fun _ _ => hsamples⟩
  · obtain ⟨hnow, hstart, hstop⟩ := scopedContext_window hs
    exact evidenceInside_iff hnow hstart hstop

/-- An event of the day before. -/
def staleEvent : K8sEvent where
  name := "app.1"
  type := "Warning"
  reason := "BackOff"
  message := "Back-off restarting failed container"
  involvedKind := "Deployment"
  involvedName := "app"
  firstTimestamp := none
  lastTimestamp := some (-86400 * Go.second)
  eventTime := none
  count := 1

/-- A line of the window, and one long after it. -/
def lineInside : PodLogLine := ⟨10 * Go.second, "connection lost".toList, by decide⟩

def lineAfter : PodLogLine := ⟨3000 * Go.second, "all is well".toList, by decide⟩

def staleBackend : Backend :=
  { sampleBackend with
    events := .ok [staleEvent]
    pods := .ok [⟨"app-0", "Running", "", none, []⟩]
    podLines := fun _ => .ok [lineInside, lineAfter] }

def staleContext : ScopedContext := sampleContext defaultConfig staleBackend.now

theorem staleContext_eval (claims : Claims) :
    (scopedContext defaultConfig (some claims) ⟨"run", "incident"⟩).eval staleBackend.answer =
      .ok staleContext := sampleContext_eval rfl rfl rfl rfl

theorem evidence_inside_iff_sample :
    (∃ bundle, (Registry.call defaultConfig .insertion (some ⟨"workspace", "run", "incident"⟩)
        (Tool.name .kubernetesEvents) sampleArguments).eval staleBackend.answer =
        .ok (.bundle bundle) ∧ bundle.Counts (staleBackend.countedEvents defaultConfig staleContext)) ∧
    (staleBackend.EvidenceInside defaultConfig staleContext ↔
      staleBackend.NothingOutside defaultConfig staleContext) := by
  have h := evidence_inside_iff .insertion ⟨"workspace", "run", "incident"⟩ sampleArguments_request
    (staleContext_eval _)
  exact ⟨h.1, h.2.2⟩

/-- An hour after the incident, with a window of ten minutes before it and two
after: the event of the day before is returned, the log is that of the minutes
before the call, and the line of the window is missed. -/
theorem evidence_outside :
    (∃ bundle, (Registry.call defaultConfig .insertion (some ⟨"workspace", "run", "incident"⟩)
        (Tool.name .kubernetesEvents) sampleArguments).eval staleBackend.answer =
        .ok (.bundle bundle) ∧ Sample.event staleEvent ∈ bundle.samples) ∧
    ¬ staleContext.Contains (Preprocess.eventTime staleEvent) ∧
    some lineAfter ∈ (staleBackend.returned defaultConfig staleContext).map Prod.fst ∧
    ¬ staleContext.Contains lineAfter.time ∧
    lineInside ∈ lastLines defaultConfig.maxLogLines [lineInside, lineAfter] ∧
    staleContext.Contains lineInside.time ∧
    some lineInside ∉
      (staleBackend.origins defaultConfig staleContext ⟨"app-0", "Running", "", none, []⟩).map Prod.fst := by
  refine ⟨?_, by decide, ?_, by decide, ?_, by decide, ?_⟩
  · have hp : (KubernetesAdapter.events staleContext.context.scope.«namespace»
        staleContext.context.scope.deploymentName staleContext.context.scope.appId
        staleContext.context.scope.deploymentId).eval staleBackend.answer = .ok [staleEvent] := by
      rw [events_eval]
      rfl
    rw [call_eval sampleArguments_request (staleContext_eval _)]
    refine ⟨_, Prog.eval_bind_ok (collect_eval_ok hp), ?_⟩
    exact List.mem_singleton.mpr rfl
  · exact List.mem_singleton.mpr rfl
  · exact List.mem_cons_self
  · intro h
    obtain ⟨_, _, _, hnewer⟩ := mem_origins.mp h
    revert hnewer
    decide

end NexCause
