/-
NexCause/Truncation.lean

The truncated flag of the evidence bundles.

A limit is applied twice, by the backend and while preprocessing, with one
number.  The second stage sees only what the first has let through: it notes a
cut of its own and never one of the backend's.  So the flag is honest for the
pods and the events, whose backend is asked without a limit, and otherwise
exactly where the backend cut nothing or more lines arrived than the limit
(`truncated_honest_iff`).
-/
import Mathlib.Data.List.Perm.Basic
import NexCause.LogLines

/-! ### Two cuts -/

namespace Cuts

variable {α : Type*}

/-- Of the records `held`, those in `arrived` pass the first cut, and the first
`n` of them the second, which notes whether there were more.  The note says
whether anything is missing exactly if the first cut took nothing or the
second took something. -/
theorem noted_iff {arrived cut held : List α} (hperm : (arrived ++ cut).Perm held) (n : ℕ) :
    (n < arrived.length ↔ ¬ (arrived.take n).Perm held) ↔ n < arrived.length ∨ cut = [] := by
  have hlength : arrived.length + cut.length = held.length := by
    rw [← List.length_append]
    exact hperm.length_eq
  rcases Nat.lt_or_ge n arrived.length with hlt | hge
  · -- more arrived than the limit: something is missing, and it is noted
    have hmissing : ¬ (arrived.take n).Perm held := by
      intro h
      have := h.length_eq
      rw [List.length_take] at this
      omega
    exact iff_of_true (iff_of_true hlt hmissing) (.inl hlt)
  · rw [List.take_of_length_le hge]
    have hnot : ¬ n < arrived.length := by omega
    constructor
    · intro h
      right
      have hall : arrived.Perm held := by
        by_contra hne
        exact hnot (h.mpr hne)
      have := hall.length_eq
      exact List.length_eq_zero_iff.mp (by omega)
    · rintro (h | rfl)
      · exact absurd h hnot
      · rw [List.append_nil] at hperm
        exact iff_of_false hnot (not_not.mpr hperm)

end Cuts

namespace NexCause

open Program Json

/-! ### Records and limits -/

/-- Of the tools, those with a limit on their records. -/
def limitedTools : List Tool :=
  [.logs, .pods, .kubernetesEvents, .traces, .healthSamples, .recentChanges]

variable (b : Backend) (cfg : Config) (s : ScopedContext)

/-- The log of a pod as the bundle has it, of the last lines or of all. -/
def Backend.readLines (tail : List PodLogLine → List PodLogLine) (pod : K8sPod) :
    List (String × List Char) :=
  match b.podLines pod.name with
  | .ok lines =>
      (linesSince b.now (KubernetesAdapter.sinceSeconds (s.stop - s.start)) (tail lines)).map
        fun l => (pod.name, Go.trimSpace (stampedLine b.stamp l))
  | .error err => podLogLines ⟨pod.name, ("error: " ++ err).toList⟩

/-- What a tool would report if there were no limits, or why it reports
nothing. -/
def Backend.held : Tool → Except String (List Sample)
  | .pods => if cfg.kubernetes then b.pods.map (·.map Sample.pod) else .error ""
  | .kubernetesEvents =>
      if cfg.kubernetes then
        b.events.map fun events =>
          (events.filter (KubernetesAdapter.selectsEvent s.context.scope.deploymentName
            (b.pods.toOption.getD []))).map Sample.event
      else .error ""
  | .traces =>
      if cfg.tempoURL = "" then .error ""
      else b.traces.map fun traces =>
        (windowTraces (s.start / Go.second) (s.stop / Go.second) traces).map Sample.trace
  | .healthSamples =>
      b.healthSamples.map fun rows =>
        (windowRows HealthSample.collectedAt s.start s.stop rows).map Sample.health
  | .recentChanges =>
      b.changes.map fun rows =>
        (windowRows RecentChange.changedAt s.start s.stop rows).map Sample.change
  | .logs =>
      match b.entriesInWindow cfg s with
      | .ok entries =>
          .ok ((entries.flatMap (entryLines s.context.scope.deploymentName)).map logSample)
      | .error _ =>
          (b.fallbackPods cfg).map fun pods => (pods.flatMap (b.readLines s id)).map logSample
  | _ => .error ""

/-- The flag of a bundle says whether records that are held are missing from
it; a bundle of an error is not truncated. -/
def Bundle.Honest (bundle : Bundle) : Except String (List Sample) → Prop
  | .ok held => bundle.truncated = true ↔ ¬ bundle.samples.Perm held
  | .error _ => bundle.truncated = false

/-- Where the flag can be trusted: the backend's limit cuts no record, or, for
logs, more lines than the limit arrive from what it leaves. -/
def Backend.LimitsNoticed : Tool → Prop
  | .traces =>
      ∀ traces, cfg.tempoURL ≠ "" → b.traces = .ok traces →
        (windowTraces (s.start / Go.second) (s.stop / Go.second) traces).length ≤ cfg.maxSpans
  | .healthSamples =>
      ∀ rows, b.healthSamples = .ok rows →
        (windowRows HealthSample.collectedAt s.start s.stop rows).length ≤ cfg.maxSamples
  | .recentChanges =>
      ∀ rows, b.changes = .ok rows →
        (windowRows RecentChange.changedAt s.start s.stop rows).length ≤ cfg.maxSamples
  | .logs =>
      match b.entriesInWindow cfg s with
      | .ok entries =>
          cfg.maxLogLines.toNat < ((entries.take cfg.maxLogLines.toNat).flatMap
              (entryLines s.context.scope.deploymentName)).length ∨
            (entries.drop cfg.maxLogLines.toNat).flatMap
              (entryLines s.context.scope.deploymentName) = []
      | .error _ =>
          ∀ pods, b.fallbackPods cfg = .ok pods →
            cfg.maxLogLines.toNat < (pods.flatMap (b.readLines s (lastLines cfg.maxLogLines))).length ∨
              ∀ pod ∈ pods, ∀ lines, b.podLines pod.name = .ok lines →
                linesSince b.now (KubernetesAdapter.sinceSeconds (s.stop - s.start))
                  (lines.take (lines.length - cfg.maxLogLines.toNat)) = []
  | _ => True

variable {b cfg s}

/-! ### What the second stage notes -/

theorem trimAny_eq {α : Type} {limit : ℤ} (hlimit : 0 < limit) (items : List α) :
    trimAny items limit = (items.take limit.toNat, decide (limit.toNat < items.length)) := by
  unfold trimAny
  split
  · rename_i h
    have hle : items.length ≤ limit.toNat := by omega
    rw [List.take_of_length_le hle]
    simp [Nat.not_lt.mpr hle]
  · rename_i h
    have hlt : limit.toNat < items.length := by omega
    simp [hlt]

/-- A bundle that a second cut made of what passed the first. -/
structure Bundle.CutFrom (bundle : Bundle) (limit : ℕ) (arrived : List Sample) : Prop where
  samples : bundle.samples = arrived.take limit
  truncated : bundle.truncated = decide (limit < arrived.length)

/-- The flag of such a bundle is honest exactly if the first cut took nothing or
the second took something. -/
theorem Bundle.CutFrom.honest_iff {bundle : Bundle} {limit : ℕ} {arrived cut held : List Sample}
    (h : bundle.CutFrom limit arrived) (hperm : (arrived ++ cut).Perm held) :
    bundle.Honest (.ok held) ↔ limit < arrived.length ∨ cut = [] := by
  unfold Honest
  rw [h.samples, h.truncated, decide_eq_true_iff]
  exact Cuts.noted_iff hperm limit

theorem withError_honest (source : Source) (err e : String) :
    (withError source s err).Honest (.error e) := rfl

/-- What a query with a limit leaves of the rows. -/
theorem take_honest_iff {bundle : Bundle} {limit : ℤ} (hlimit : 0 < limit) {α : Type}
    {rows : List α} {f : α → Sample} (h : bundle.CutFrom limit.toNat ((rows.take limit.toNat).map f)) :
    bundle.Honest (.ok (rows.map f)) ↔ rows.length ≤ limit := by
  have hperm : ((rows.take limit.toNat).map f ++ (rows.drop limit.toNat).map f).Perm (rows.map f) := by
    rw [← List.map_append, List.take_append_drop]
  rw [h.honest_iff hperm, List.length_map, List.length_take, List.map_eq_nil_iff,
    List.drop_eq_nil_iff]
  omega

/-- What a request without a limit leaves. -/
theorem all_honest {bundle : Bundle} {limit : ℕ} {arrived held : List Sample}
    (h : bundle.CutFrom limit arrived) (hperm : arrived.Perm held) : bundle.Honest (.ok held) := by
  have hall : (arrived ++ []).Perm held := by
    rw [List.append_nil]
    exact hperm
  rw [h.honest_iff hall]
  exact .inr rfl

/-! ### Records of the cluster -/

/-- What a tool reports from the cluster, if it reports the error of every
call that fails. -/
theorem collectFromCluster_reported {α : Type} {p : EvidenceProg α} {bundle : α → Bundle}
    {held : Except String (List Sample)} {outcome : Except String α}
    (hp : p.eval b.answer = outcome)
    (hok : cfg.kubernetes = true → ∀ a, outcome = .ok a → (bundle a).Honest held)
    (herr : cfg.kubernetes = true → ∀ e, outcome = .error e → ∃ e', held = .error e')
    (hnone : cfg.kubernetes = false → ∃ e', held = .error e') :
    ∃ reported, (collectFromCluster cfg s p bundle).eval b.answer = .ok reported ∧
      reported.Honest held := by
  unfold collectFromCluster
  split
  · rename_i hcluster
    cases outcome with
    | ok a => exact ⟨_, collect_eval_ok hp, hok hcluster a rfl⟩
    | error e =>
      obtain ⟨e', rfl⟩ := herr hcluster e rfl
      exact ⟨_, collect_eval_error hp, withError_honest _ _ _⟩
  · rename_i hcluster
    obtain ⟨e', rfl⟩ := hnone (by simpa using hcluster)
    exact ⟨_, rfl, rfl⟩

/-- **Pods** are asked for without a limit. -/
theorem pods_reported (hlimit : 0 < s.context.constraints.maxSamples) :
    ∃ bundle, (Services.getPods cfg s).eval b.answer = .ok bundle ∧
      bundle.Honest (b.held cfg s .pods) := by
  have hp : (KubernetesAdapter.pods s.context.scope.«namespace» s.context.scope.appId
      s.context.scope.deploymentId).eval b.answer = b.pods := Prog.eval_perform _
  have hheld : cfg.kubernetes = true → b.held cfg s .pods = b.pods.map (·.map Sample.pod) :=
    fun hcluster => if_pos hcluster
  apply collectFromCluster_reported hp
  · intro hcluster pods hpods
    have hcut : (Preprocess.pods s.context.scope s.start s.stop pods
        s.context.constraints.maxSamples).CutFrom s.context.constraints.maxSamples.toNat
        (pods.map Sample.pod) := by
      constructor
      · show (trimAny _ _).1 = _
        rw [trimAny_eq hlimit]
      · show (trimAny _ _).2 = _
        rw [trimAny_eq hlimit]
    rw [hheld hcluster, hpods]
    exact all_honest hcut (List.Perm.refl _)
  · intro hcluster e he
    rw [hheld hcluster, he]
    exact ⟨e, rfl⟩
  · intro hcluster
    exact ⟨"", if_neg (by simp [hcluster])⟩

/-- **Events** are asked for without a limit, and sorted. -/
theorem events_reported (hlimit : 0 < s.context.constraints.maxSamples) :
    ∃ bundle, (Services.getEvents cfg s).eval b.answer = .ok bundle ∧
      bundle.Honest (b.held cfg s .kubernetesEvents) := by
  have hheld : cfg.kubernetes = true → b.held cfg s .kubernetesEvents =
      b.events.map fun events => (events.filter (KubernetesAdapter.selectsEvent
        s.context.scope.deploymentName (b.pods.toOption.getD []))).map Sample.event :=
    fun hcluster => if_pos hcluster
  apply collectFromCluster_reported (events_eval s.context.scope)
  · intro hcluster found hfound
    -- the backend has no limit: the one that cuts is the one that notes it
    have hcut : (Preprocess.events s.context.scope s.start s.stop found
        s.context.constraints.maxSamples).CutFrom s.context.constraints.maxSamples.toNat
        ((found.insertionSort fun a b => Preprocess.eventTime a ≤ Preprocess.eventTime b).map
          Sample.event) := by
      constructor
      · show (trimAny _ _).1 = _
        rw [trimAny_eq hlimit]
      · show (trimAny _ _).2 = _
        rw [trimAny_eq hlimit, List.length_map]
    rw [hheld hcluster]
    cases h : b.events with
    | error e =>
      rw [h] at hfound
      cases hfound
    | ok events =>
      rw [h] at hfound
      obtain rfl := Except.ok.inj hfound
      exact all_honest hcut ((List.perm_insertionSort _ _).map _)
  · intro hcluster e he
    rw [hheld hcluster]
    cases h : b.events with
    | ok events =>
      rw [h] at he
      cases he
    | error e' => exact ⟨e', rfl⟩
  · intro hcluster
    exact ⟨"", if_neg (by simp [hcluster])⟩

/-! ### Records behind a limit -/

/-- What a tool reports of the rows that a query with a limit returns. -/
theorem collect_reported {α β : Type} {source : Source} {p : EvidenceProg (List α)}
    {bundle : List α → Bundle} {rows : Except String (List β)} {window : List β → List α}
    {f : α → Sample} {limit : ℤ} (hlimit : 0 < limit)
    (hp : p.eval b.answer = rows.map fun rows => (window rows).take limit.toNat)
    (hcut : ∀ found, (bundle found).CutFrom limit.toNat (found.map f)) :
    ∃ reported, (collect source s p bundle).eval b.answer = .ok reported ∧
      (reported.Honest (rows.map fun rows => (window rows).map f) ↔
        ∀ found, rows = .ok found → (window found).length ≤ limit) := by
  cases rows with
  | error e =>
    refine ⟨_, collect_eval_error hp, ?_⟩
    apply iff_of_true (withError_honest _ _ _)
    intro found h
    cases h
  | ok found =>
    refine ⟨_, collect_eval_ok hp, ?_⟩
    show (bundle ((window found).take limit.toNat)).Honest (.ok ((window found).map f)) ↔ _
    rw [take_honest_iff hlimit (hcut _)]
    constructor
    · intro h _ hfound
      rw [← Except.ok.inj hfound]
      exact h
    · intro h
      exact h found rfl

/-- A bundle whose samples are trimmed, and nothing else is. -/
theorem trimAny_cutFrom {bundle : Bundle} {limit : ℤ} {samples : List Sample} (hlimit : 0 < limit)
    (h : (bundle.samples, bundle.truncated) = trimAny samples limit) :
    bundle.CutFrom limit.toNat samples := by
  rw [trimAny_eq hlimit] at h
  exact ⟨congrArg Prod.fst h, congrArg Prod.snd h⟩

/-- **Traces** are searched for with the limit. -/
theorem traces_reported (hlimit : 0 < cfg.maxSpans)
    (hs : s.context.constraints.maxSpans = cfg.maxSpans) :
    ∃ bundle, (Services.getTraces cfg s).eval b.answer = .ok bundle ∧
      (bundle.Honest (b.held cfg s .traces) ↔ b.LimitsNoticed cfg s .traces) := by
  by_cases hurl : cfg.tempoURL = ""
  · -- without a URL nothing is asked, and an error is reported
    have hp : (TempoAdapter.queryDeploymentTraces cfg s.context.scope.serviceName s.start
        s.stop).eval b.answer = .error "tempo url is not configured" := by
      unfold TempoAdapter.queryDeploymentTraces
      rw [if_pos hurl]
      rfl
    have hheld : b.held cfg s .traces = .error "" := if_pos hurl
    refine ⟨_, collect_eval_error hp, ?_⟩
    rw [hheld]
    apply iff_of_true (withError_honest _ _ _)
    intro traces hne
    exact absurd hurl hne
  · -- the limit is sent, and the same one cuts what arrives
    have hp : (TempoAdapter.queryDeploymentTraces cfg s.context.scope.serviceName s.start
        s.stop).eval b.answer = b.traces.map fun traces =>
          (windowTraces (s.start / Go.second) (s.stop / Go.second) traces).take
            cfg.maxSpans.toNat := by
      have hsearch : TempoAdapter.queryDeploymentTraces cfg s.context.scope.serviceName s.start s.stop =
          TempoAdapter.search s.context.scope.serviceName (s.start / Go.second) (s.stop / Go.second)
            cfg.maxSpans := if_neg hurl
      rw [hsearch]
      exact Prog.eval_perform _
    have hheld : b.held cfg s .traces = b.traces.map fun traces =>
        (windowTraces (s.start / Go.second) (s.stop / Go.second) traces).map Sample.trace :=
      if_neg hurl
    have hcut : ∀ found, (Preprocess.traces s.context.scope s.start s.stop found
        s.context.constraints.maxSpans).CutFrom cfg.maxSpans.toNat (found.map Sample.trace) := by
      intro found
      rw [hs]
      exact trimAny_cutFrom hlimit rfl
    obtain ⟨reported, hreported, hiff⟩ := collect_reported hlimit hp hcut
    refine ⟨reported, hreported, ?_⟩
    rw [hheld, hiff]
    constructor
    · intro h traces _ htraces
      exact h traces htraces
    · intro h traces htraces
      exact h traces hurl htraces

/-- The rows that the store returns, if the request has claims. -/
theorem tenantTx_eval {claims : Claims} {c : EvidenceCall} :
    (PostgresStore.tenantTx (some claims) >>= fun _ => Prog.perform c : EvidenceProg c.Result).eval
      b.answer = b.answer c := by
  have htx : (PostgresStore.tenantTx (some claims)).eval b.answer = .ok () := Prog.eval_perform _
  rw [Prog.eval_bind_ok htx]
  exact Prog.eval_perform _

/-- **Health samples** are selected with the limit. -/
theorem healthSamples_reported {claims : Claims} (hlimit : 0 < cfg.maxSamples)
    (hs : s.context.constraints.maxSamples = cfg.maxSamples) :
    ∃ bundle, (Services.getHealthSamples (some claims) s).eval b.answer = .ok bundle ∧
      (bundle.Honest (b.held cfg s .healthSamples) ↔ b.LimitsNoticed cfg s .healthSamples) := by
  have hcut : ∀ found, (Preprocess.healthSamples s.context.scope s.start s.stop found
      s.context.constraints.maxSamples).CutFrom cfg.maxSamples.toNat (found.map Sample.health) := by
    intro found
    rw [hs]
    apply trimAny_cutFrom hlimit
    unfold Preprocess.healthSamples
    dsimp only
    split <;> rfl
  have hp : (PostgresStore.listHealthSamples (some claims) s.context.scope.deploymentId s.start s.stop
      s.context.constraints.maxSamples).eval b.answer = b.healthSamples.map fun rows =>
        (windowRows HealthSample.collectedAt s.start s.stop rows).take cfg.maxSamples.toNat := by
    rw [← hs]
    exact tenantTx_eval
  exact collect_reported hlimit hp hcut

/-- **Recent changes** are selected with the limit. -/
theorem recentChanges_reported {claims : Claims} (hlimit : 0 < cfg.maxSamples)
    (hs : s.context.constraints.maxSamples = cfg.maxSamples) :
    ∃ bundle, (Services.getRecentChanges (some claims) s).eval b.answer = .ok bundle ∧
      (bundle.Honest (b.held cfg s .recentChanges) ↔ b.LimitsNoticed cfg s .recentChanges) := by
  have hcut : ∀ found, (Preprocess.recentChanges s.context.scope s.start s.stop found
      s.context.constraints.maxSamples).CutFrom cfg.maxSamples.toNat (found.map Sample.change) := by
    intro found
    rw [hs]
    exact trimAny_cutFrom hlimit rfl
  have hp : (PostgresStore.listRecentChanges (some claims) s.context.scope.deploymentId s.start s.stop
      s.context.constraints.maxSamples).eval b.answer = b.changes.map fun rows =>
        (windowRows RecentChange.changedAt s.start s.stop rows).take cfg.maxSamples.toNat := by
    rw [← hs]
    exact tenantTx_eval
  exact collect_reported hlimit hp hcut

/-! ### Logs -/

/-- A log bundle, by the lines of its logs. -/
theorem logs_cutFrom (order : MapOrder) (logs : List PodLog) (maxLines : ℤ) :
    (Preprocess.logsBundle order s.context.scope s.start s.stop logs maxLines).returned.CutFrom
      maxLines.toNat ((logs.flatMap podLogLines).map logSample) := by
  obtain ⟨hlines, htruncated⟩ := logLines_eq maxLines logs
  constructor
  · rw [Preprocess.returned_samples]
    show (Preprocess.logLines maxLines logs).lines = _
    rw [hlines, List.map_take]
  · rw [Preprocess.returned_truncated]
    show (Preprocess.logLines maxLines logs).truncated = _
    rw [htruncated, List.length_map]

/-- The lines of a pod's log that the bundle is made of. -/
theorem podLog_lines (pod : K8sPod) (tailLines : ℤ) :
    podLogLines (b.podLog (s.stop - s.start) tailLines pod) =
      b.readLines s (lastLines tailLines) pod := by
  unfold Backend.podLog Backend.readLines
  cases b.podLines pod.name with
  | error err => rfl
  | ok lines =>
    unfold podLogLines
    rw [visibleLines_logText, List.map_map]
    rfl

/-- The lines of a pod's log before the last ones. -/
def Backend.linesBefore (b : Backend) (s : ScopedContext) (tailLines : ℤ) (pod : K8sPod) :
    List (String × List Char) :=
  match b.podLines pod.name with
  | .ok lines =>
      (linesSince b.now (KubernetesAdapter.sinceSeconds (s.stop - s.start))
        (lines.take (lines.length - tailLines.toNat))).map
        fun l => (pod.name, Go.trimSpace (stampedLine b.stamp l))
  | .error _ => []

theorem linesBefore_eq_nil_iff {tailLines : ℤ} {pod : K8sPod} :
    b.linesBefore s tailLines pod = [] ↔ ∀ lines, b.podLines pod.name = .ok lines →
      linesSince b.now (KubernetesAdapter.sinceSeconds (s.stop - s.start))
        (lines.take (lines.length - tailLines.toNat)) = [] := by
  unfold Backend.linesBefore
  cases b.podLines pod.name with
  | error err => simp
  | ok lines => simp

/-- A pod's lines are the last ones and those before them. -/
theorem readLines_perm (tailLines : ℤ) (pod : K8sPod) :
    (b.readLines s (lastLines tailLines) pod ++ b.linesBefore s tailLines pod).Perm
      (b.readLines s id pod) := by
  unfold Backend.readLines Backend.linesBefore
  cases b.podLines pod.name with
  | error err =>
    dsimp only
    rw [List.append_nil]
  | ok lines =>
    dsimp only
    rw [← List.map_append]
    apply List.Perm.map
    apply List.perm_append_comm.trans
    unfold linesSince lastLines
    rw [← List.filter_append, List.take_append_drop]
    exact List.Perm.refl _

theorem readLines_flatMap_perm (tailLines : ℤ) (pods : List K8sPod) :
    (pods.flatMap (b.readLines s (lastLines tailLines)) ++
      pods.flatMap (b.linesBefore s tailLines)).Perm (pods.flatMap (b.readLines s id)) := by
  apply (List.flatMap_append_perm pods _ _).trans
  apply List.Perm.flatMap_left
  intro pod _
  exact readLines_perm tailLines pod

/-- **Logs** come from Loki or from the pods, each time with a limit. -/
theorem logs_reported {order : MapOrder} (hs : s.context.constraints.maxLogLines = cfg.maxLogLines) :
    ∃ bundle, (Services.getLogs cfg order s).eval b.answer = .ok bundle ∧
      (bundle.Honest (b.held cfg s .logs) ↔ b.LimitsNoticed cfg s .logs) := by
  unfold Backend.held Backend.LimitsNoticed
  dsimp only
  cases hloki : b.entriesInWindow cfg s with
  | ok entries =>
    dsimp only
    refine ⟨_, collect_eval_ok (collectLogs_loki hloki), ?_⟩
    rw [hs]
    -- what arrives are the lines of the first entries, in the order of the pods
    have harrived := parseLokiLogs_lines order s.context.scope.deploymentName
      (entries.take cfg.maxLogLines.toNat)
    have hperm : (((LogBackendAdapter.parseLokiLogs order s.context.scope.deploymentName
        (toStreams (entries.take cfg.maxLogLines.toNat))).flatMap podLogLines).map logSample ++
        ((entries.drop cfg.maxLogLines.toNat).flatMap
          (entryLines s.context.scope.deploymentName)).map logSample).Perm
        ((entries.flatMap (entryLines s.context.scope.deploymentName)).map logSample) := by
      rw [← List.map_append]
      apply List.Perm.map
      apply (harrived.append_right _).trans
      rw [← List.flatMap_append, List.take_append_drop]
    rw [(logs_cutFrom _ _ _).honest_iff hperm, List.length_map, harrived.length_eq,
      List.map_eq_nil_iff]
  | error err =>
    dsimp only
    cases hpods : b.fallbackPods cfg with
    | error err' =>
      have hnone : ∃ e, (Services.collectLogs cfg order s).eval b.answer = .error e :=
        collectLogs_none hloki hpods
      obtain ⟨e, he⟩ := hnone
      refine ⟨_, collect_eval_error he, ?_⟩
      apply iff_of_true (withError_honest _ _ _)
      intro pods h
      cases h
    | ok pods =>
      refine ⟨_, collect_eval_ok (collectLogs_pods hloki hpods), ?_⟩
      rw [hs]
      have harrived : (pods.map (b.podLog (s.stop - s.start) cfg.maxLogLines)).flatMap podLogLines =
          pods.flatMap (b.readLines s (lastLines cfg.maxLogLines)) := by
        rw [List.flatMap_map]
        congr 1
        funext pod
        exact podLog_lines pod cfg.maxLogLines
      have hperm : (((pods.map (b.podLog (s.stop - s.start) cfg.maxLogLines)).flatMap
          podLogLines).map logSample ++
          (pods.flatMap (b.linesBefore s cfg.maxLogLines)).map logSample).Perm
          ((pods.flatMap (b.readLines s id)).map logSample) := by
        rw [harrived, ← List.map_append]
        exact (readLines_flatMap_perm cfg.maxLogLines pods).map _
      show Bundle.Honest _ (.ok _) ↔ _
      rw [(logs_cutFrom _ _ _).honest_iff hperm, List.length_map, harrived, List.map_eq_nil_iff,
        List.flatMap_eq_nil_iff]
      constructor
      · intro h found hfound
        rw [← Except.ok.inj hfound]
        apply h.imp_right
        intro hcut pod hpod
        exact linesBefore_eq_nil_iff.mp (hcut pod hpod)
      · intro h
        apply (h pods rfl).imp_right
        intro hcut pod hpod
        exact linesBefore_eq_nil_iff.mpr (hcut pod hpod)

/-! ### The flag of a call -/

/-- **The truncated flag.**  Of the tools with a limit, called with arguments
that name a run, every bundle's flag says whether records are missing exactly
where the backend's own cut is noticed. -/
theorem truncated_honest_iff (order : MapOrder) (claims : Claims)
    (hlimits : 0 < cfg.maxLogLines ∧ 0 < cfg.maxSamples ∧ 0 < cfg.maxSpans) {tool : Tool}
    (htool : tool ∈ limitedTools) {arguments : List (String × Json String)} {req : EvidenceRequest}
    (hreq : evidenceRequest arguments = .ok req)
    (hs : (scopedContext cfg (some claims) req).eval b.answer = .ok s) :
    ∃ bundle, (Registry.call cfg order (some claims) tool.name arguments).eval b.answer =
        .ok (.bundle bundle) ∧
      (bundle.Honest (b.held cfg s tool) ↔ b.LimitsNoticed cfg s tool) := by
  obtain ⟨hlogs, hsamples, hspans⟩ := scopedContext_constraints hs
  rw [call_eval hreq hs]
  -- each tool wraps the bundle of its service
  have hlift : ∀ {p : EvidenceProg Bundle} {Q : Bundle → Prop},
      (∃ bundle, p.eval b.answer = .ok bundle ∧ Q bundle) →
      ∃ bundle, (p >>= fun bundle => Prog.ret (ToolResult.bundle bundle)).eval b.answer =
        .ok (.bundle bundle) ∧ Q bundle := by
    intro p Q h
    obtain ⟨bundle, hbundle, hq⟩ := h
    exact ⟨bundle, Prog.eval_bind_ok hbundle, hq⟩
  have hpositive : 0 < s.context.constraints.maxSamples := by
    rw [hsamples]
    exact hlimits.2.1
  unfold limitedTools at htool
  simp only [List.mem_cons, List.not_mem_nil, or_false] at htool
  -- logs, traces and the rows of the database are cut before they are counted
  rcases htool with rfl | rfl | rfl | rfl | rfl | rfl
  · exact hlift (logs_reported hlogs)
  · apply hlift
    apply (pods_reported hpositive).imp
    intro bundle h
    exact ⟨h.1, iff_of_true h.2 True.intro⟩
  · apply hlift
    apply (events_reported hpositive).imp
    intro bundle h
    exact ⟨h.1, iff_of_true h.2 True.intro⟩
  · exact hlift (traces_reported hlimits.2.2 hspans)
  · exact hlift (healthSamples_reported hlimits.2.1 hsamples)
  · exact hlift (recentChanges_reported hlimits.2.1 hsamples)

/-- One sample is reported at most, and there are two. -/
def cutConfig : Config := { defaultConfig with maxSamples := 1 }

def cutBackend : Backend :=
  { sampleBackend with
    healthSamples := .ok
      [⟨"first", "healthy", 1, 1, 0, 0, 0⟩, ⟨"second", "degraded", 1, 0, 2, 3, Go.second⟩] }

def cutContext : ScopedContext := sampleContext cutConfig cutBackend.now

theorem cutContext_eval (claims : Claims) :
    (scopedContext cutConfig (some claims) ⟨"run", "incident"⟩).eval cutBackend.answer =
      .ok cutContext := sampleContext_eval rfl rfl rfl rfl

theorem truncated_honest_iff_sample :
    ∃ bundle, (Registry.call cutConfig .insertion (some ⟨"workspace", "run", "incident"⟩)
        (Tool.name .healthSamples) sampleArguments).eval cutBackend.answer = .ok (.bundle bundle) ∧
      (bundle.Honest (cutBackend.held cutConfig cutContext .healthSamples) ↔
        cutBackend.LimitsNoticed cutConfig cutContext .healthSamples) :=
  truncated_honest_iff .insertion ⟨"workspace", "run", "incident"⟩ (by decide) (by decide)
    sampleArguments_request (cutContext_eval _)

/-- The query returns one of the two samples, which is no more than the limit:
the bundle lacks a sample, and its flag is not set. -/
theorem cut_not_noticed :
    ∃ bundle, (Registry.call cutConfig .insertion (some ⟨"workspace", "run", "incident"⟩)
        (Tool.name .healthSamples) sampleArguments).eval cutBackend.answer = .ok (.bundle bundle) ∧
      ¬ bundle.Honest (cutBackend.held cutConfig cutContext .healthSamples) := by
  have hreported : ∃ bundle, (Services.getHealthSamples (some ⟨"workspace", "run", "incident"⟩)
      cutContext).eval cutBackend.answer = .ok bundle ∧
      (bundle.Honest (cutBackend.held cutConfig cutContext .healthSamples) ↔
        cutBackend.LimitsNoticed cutConfig cutContext .healthSamples) :=
    healthSamples_reported (by decide) rfl
  obtain ⟨bundle, hbundle, hiff⟩ := hreported
  refine ⟨bundle, ?_, ?_⟩
  · rw [call_eval sampleArguments_request (cutContext_eval _)]
    exact Prog.eval_bind_ok hbundle
  · rw [hiff]
    intro h
    have hle := h _ rfl
    revert hle
    decide

end NexCause
