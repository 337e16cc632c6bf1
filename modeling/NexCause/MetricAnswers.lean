/-
NexCause/MetricAnswers.lean

The body of an answer to `get_metrics`, whatever Prometheus returns.

The values of a series come out of `strconv.ParseFloat`, which reads `NaN` and
`+Inf`, and out of sums that may overflow.  `encoding/json` encodes no such
number, and no time outside the years 0 to 9999; `writeJSON` has sent the status
by then and drops the error.  So a body is written exactly if no series holds
such a number, adds up to one, or is reported with such a time
(`metrics_answer_iff`).
-/
import Mathlib.Data.List.GetD
import NexCause.Backends

namespace NexCause

open Program Float64 Preprocess

/-! ### Encoding -/

/-- A time is encoded in the years 0 to 9999. -/
def timeEncodes (t : Go.Time) : Bool := Go.isJsonYear (Go.formatRFC3339 t)

def MetricPoint.encodes (p : MetricPoint) : Bool := Go.isJsonYear p.timestamp && p.value.isFinite

/-- What is encoded of the samples: texts, integers and finite numbers are, so
that only times and the values of series can fail. -/
def Sample.encodes : Sample → Bool
  | .event e => [e.firstTimestamp, e.lastTimestamp, e.eventTime].all fun t => (t.map timeEncodes).getD true
  | .series s => s.values.all MetricPoint.encodes
  | .health h => timeEncodes h.collectedAt
  | .change c => timeEncodes c.changedAt
  | _ => true

def Bundle.encodes (b : Bundle) : Bool :=
  (b.signals.all fun s => s.attributes.all fun a => a.2.isFinite) &&
    b.samples.all Sample.encodes && b.stats.all fun p => p.2.isFinite

def RpcResponse.encodes (r : RpcResponse) : Bool :=
  match r.result with
  | some (.call (.bundle bundle)) => bundle.encodes
  | _ => true

/-- `writeJSON`: the body that is written after the status, if any. -/
def writeJSON (r : HttpResponse) : Option RpcResponse :=
  if r.body.encodes then some r.body else none

/-! ### Series -/

/-- The series of a query, or one that tells why there is none. -/
def Backend.series (b : Backend) (name : String) : MetricSeries :=
  match b.metrics name >>= PrometheusAdapter.seriesPoints with
  | .ok (values, labels) => { name, labels, values }
  | .error err => { name, labels := [("error", err)], values := [] }

variable {b : Backend} {cfg : Config} {order : MapOrder} {claims : Claims}

theorem querySeries_eval («namespace» deploymentName : String) (start stop : Go.Time) (name : String) :
    (PrometheusAdapter.querySeries «namespace» deploymentName start stop name).eval b.answer =
      .ok (b.series name) := by
  have hanswer : (Prog.perform (EvidenceCall.queryRange name «namespace» deploymentName
      (start / Go.second) (stop / Go.second)) : EvidenceProg (Json String)).eval b.answer =
      b.metrics name := Prog.eval_perform _
  unfold PrometheusAdapter.querySeries Backend.series
  cases hbody : b.metrics name with
  | error err =>
    rw [hbody] at hanswer
    apply (Prog.eval_tryCatch_error (Prog.eval_bind_error hanswer)).trans
    rfl
  | ok body =>
    rw [hbody] at hanswer
    show _ = Except.ok (match PrometheusAdapter.seriesPoints body with
      | .ok (values, labels) => _
      | .error err => _)
    cases hpoints : PrometheusAdapter.seriesPoints body with
    | error err =>
      apply (Prog.eval_tryCatch_error (e := err) ?_).trans rfl
      rw [Prog.eval_bind_ok hanswer, hpoints]
      rfl
    | ok points =>
      apply Prog.eval_tryCatch_ok
      rw [Prog.eval_bind_ok hanswer, hpoints]
      rfl

theorem queryAll_eval («namespace» deploymentName : String) (start stop : Go.Time)
    (names : List String) :
    (PrometheusAdapter.queryAll «namespace» deploymentName start stop names).eval b.answer =
      .ok (names.map b.series) := by
  induction names with
  | nil => rfl
  | cons name names ih =>
    apply (Prog.eval_bind_ok (querySeries_eval «namespace» deploymentName start stop name)).trans
    exact Prog.eval_bind_ok ih

/-! ### Statistics -/

/-- The values add up, from the smallest on, within the range of finite numbers. -/
def MetricSeries.SumFinite (item : MetricSeries) : Prop :=
  ((sort (item.values.map MetricPoint.value)).foldl add zero).isFinite = true

instance (item : MetricSeries) : Decidable item.SumFinite := inferInstanceAs (Decidable (_ = true))

/-- They are finite then. -/
theorem MetricSeries.SumFinite.values {item : MetricSeries} (h : item.SumFinite) :
    ∀ p ∈ item.values, p.value.isFinite = true := by
  intro p hp
  have hsorted := (isFinite_foldl_add h).2
  exact hsorted p.value (mem_sort.mpr (List.mem_map_of_mem hp))

/-- Each of the statistics is finite exactly if the sum is. -/
theorem calculateStats_isFinite {values : List Float64} (hne : values ≠ []) :
    ((calculateStats values).min.isFinite ∧ (calculateStats values).max.isFinite ∧
      (calculateStats values).avg.isFinite ∧ (calculateStats values).p95.isFinite) ↔
      ((sort values).foldl add zero).isFinite := by
  have hlength : 0 < (sort values).length := by
    rw [length_sort]
    exact List.length_pos_iff.mpr hne
  have havg : (calculateStats values).avg.isFinite = ((sort values).foldl add zero).isFinite :=
    isFinite_divNat hlength _
  constructor
  · intro h
    rw [← havg]
    exact h.2.2.1
  · intro h
    -- the other three are among the values
    have hmem := (isFinite_foldl_add h).2
    have hsorted : sort values ≠ [] := List.length_pos_iff.mp hlength
    refine ⟨?_, ?_, havg.trans h, ?_⟩
    · apply hmem
      show (sort values).headD zero ∈ sort values
      obtain ⟨x, xs, hx⟩ := List.exists_cons_of_ne_nil hsorted
      rw [hx]
      exact List.mem_cons_self
    · apply hmem
      show (sort values).getLastD zero ∈ sort values
      rw [List.getLastD_eq_getLast?, List.getLast?_eq_some_getLast hsorted]
      exact List.getLast_mem hsorted
    · apply hmem
      show percentile (sort values) Preprocess.p95 ∈ sort values
      unfold percentile
      rw [if_neg (Nat.pos_iff_ne_zero.mp hlength)]
      dsimp only
      rw [List.getD_eq_getElem _ _ (by omega)]
      exact List.getElem_mem _

/-- A series has statistics exactly if it has a value. -/
theorem seriesStats_eq (item : MetricSeries) :
    seriesStats item =
      if item.values = [] then none else some (calculateStats (item.values.map MetricPoint.value)) := by
  unfold seriesStats
  simp

/-! ### The bundle -/

/-- The series that have values, up to the limit: the samples of the bundle. -/
def keptSeries (series : List MetricSeries) (limit : ℤ) : List MetricSeries :=
  (trimAny (series.filter fun item => item.values ≠ []) limit).1

theorem metrics_samples (scope : Scope) (start stop : Go.Time) (series : List MetricSeries) (limit : ℤ) :
    (metrics scope start stop series limit).samples = (keptSeries series limit).map Sample.series := by
  have hfound : (series.filterMap fun item => (seriesStats item).map fun s => (item, s)).map
      (fun f => Sample.series f.1) = (series.filter fun item => item.values ≠ []).map Sample.series := by
    induction series with
    | nil => rfl
    | cons item series ih =>
      by_cases hvalues : item.values = [] <;> simp_all [seriesStats_eq]
  unfold keptSeries
  show (trimAny _ limit).1 = _
  rw [hfound]
  unfold trimAny
  rw [List.length_map]
  split
  · rfl
  · exact List.map_take.symm

theorem mem_found {series : List MetricSeries} {f : MetricSeries × MetricStats} :
    f ∈ series.filterMap (fun item => (seriesStats item).map fun s => (item, s)) ↔
      f.1 ∈ series ∧ f.1.values ≠ [] ∧ f.2 = calculateStats (f.1.values.map MetricPoint.value) := by
  rw [List.mem_filterMap]
  constructor
  · rintro ⟨item, hitem, h⟩
    rw [seriesStats_eq] at h
    split at h
    · cases h
    · rename_i hvalues
      obtain rfl := Option.some.inj h
      exact ⟨hitem, hvalues, rfl⟩
  · rintro ⟨hitem, hvalues, hstats⟩
    refine ⟨f.1, hitem, ?_⟩
    rw [seriesStats_eq, if_neg hvalues, ← hstats]
    rfl

/-- The numbers of the statistics and the signals are finite exactly if every
series adds up to a finite number. -/
theorem metrics_numbers_iff (scope : Scope) (start stop : Go.Time) (series : List MetricSeries)
    (limit : ℤ) :
    ((∀ s ∈ (metrics scope start stop series limit).signals, ∀ a ∈ s.attributes, a.2.isFinite) ∧
      ∀ p ∈ (metrics scope start stop series limit).stats, p.2.isFinite) ↔
      ∀ item ∈ series, item.SumFinite := by
  have hstats : (metrics scope start stop series limit).stats =
      (series.filterMap fun item => (seriesStats item).map fun s => (item, s)).flatMap fun f =>
        [(f.1.name ++ ".min", f.2.min), (f.1.name ++ ".max", f.2.max),
         (f.1.name ++ ".avg", f.2.avg), (f.1.name ++ ".p95", f.2.p95)] := rfl
  have hsignals : (metrics scope start stop series limit).signals =
      ((series.filterMap fun item => (seriesStats item).map fun s => (item, s)).filter
        fun f => isSpike f.2).map fun f =>
          { name := "metric_spike", severity := "warning", value := .text f.1.name
            attributes := [("max", f.2.max), ("avg", f.2.avg)] } := rfl
  rw [hstats, hsignals]
  constructor
  · rintro ⟨-, h⟩ item hitem
    by_cases hvalues : item.values = []
    · -- without values there are no statistics, and the sum is zero
      unfold MetricSeries.SumFinite
      rw [hvalues]
      rfl
    · have hne : item.values.map MetricPoint.value ≠ [] := by simpa using hvalues
      have hmem : (item, calculateStats (item.values.map MetricPoint.value)) ∈
          series.filterMap fun item => (seriesStats item).map fun s => (item, s) :=
        mem_found.mpr ⟨hitem, hvalues, rfl⟩
      apply (calculateStats_isFinite hne).mp
      have hentry : ∀ p ∈ [(item.name ++ ".min", (calculateStats (item.values.map MetricPoint.value)).min),
          (item.name ++ ".max", (calculateStats (item.values.map MetricPoint.value)).max),
          (item.name ++ ".avg", (calculateStats (item.values.map MetricPoint.value)).avg),
          (item.name ++ ".p95", (calculateStats (item.values.map MetricPoint.value)).p95)],
          p.2.isFinite := by
        intro p hp
        exact h p (List.mem_flatMap.mpr ⟨_, hmem, hp⟩)
      simpa using hentry
  · intro h
    -- whatever is reported of a series is finite if its sum is
    have hfinite : ∀ f ∈ series.filterMap fun item => (seriesStats item).map fun s => (item, s),
        f.2.min.isFinite ∧ f.2.max.isFinite ∧ f.2.avg.isFinite ∧ f.2.p95.isFinite := by
      intro f hf
      obtain ⟨hitem, hvalues, hf⟩ := mem_found.mp hf
      have hne : f.1.values.map MetricPoint.value ≠ [] := by simpa using hvalues
      rw [hf]
      exact (calculateStats_isFinite hne).mpr (h f.1 hitem)
    constructor
    · intro s hs a ha
      obtain ⟨f, hf, rfl⟩ := List.mem_map.mp hs
      obtain ⟨-, hmax, havg, -⟩ := hfinite f (List.mem_of_mem_filter hf)
      simp only [List.mem_cons, List.not_mem_nil, or_false] at ha
      rcases ha with rfl | rfl
      · exact hmax
      · exact havg
    · intro p hp
      obtain ⟨f, hf, hp⟩ := List.mem_flatMap.mp hp
      obtain ⟨hmin, hmax, havg, hp95⟩ := hfinite f hf
      simp only [List.mem_cons, List.not_mem_nil, or_false] at hp
      rcases hp with rfl | rfl | rfl | rfl
      · exact hmin
      · exact hmax
      · exact havg
      · exact hp95

theorem mem_keptSeries {series : List MetricSeries} {limit : ℤ} {item : MetricSeries}
    (h : item ∈ keptSeries series limit) : item ∈ series := by
  unfold keptSeries trimAny at h
  split at h
  · exact List.mem_of_mem_filter h
  · exact List.mem_of_mem_filter (List.mem_of_mem_take h)

/-- **The bundle is encoded** exactly if the values of every series add up to a
finite number and the times of the reported ones can be written. -/
theorem metrics_encodes_iff (scope : Scope) (start stop : Go.Time) (series : List MetricSeries)
    (limit : ℤ) :
    (metrics scope start stop series limit).encodes = true ↔
      (∀ item ∈ series, item.SumFinite) ∧
        ∀ item ∈ keptSeries series limit, ∀ p ∈ item.values, Go.isJsonYear p.timestamp = true := by
  have hparts : (metrics scope start stop series limit).encodes = true ↔
      ((∀ s ∈ (metrics scope start stop series limit).signals, ∀ a ∈ s.attributes, a.2.isFinite) ∧
        ∀ p ∈ (metrics scope start stop series limit).stats, p.2.isFinite) ∧
      ∀ sample ∈ (metrics scope start stop series limit).samples, sample.encodes := by
    unfold Bundle.encodes
    simp only [Bool.and_eq_true, List.all_eq_true]
    tauto
  rw [hparts, metrics_numbers_iff, metrics_samples]
  apply and_congr_right
  -- the numbers are finite; what is left is the years of the samples
  intro hsums
  constructor
  · intro h item hitem p hp
    have hsample := h (.series item) (List.mem_map_of_mem hitem)
    have hpoint : p.encodes = true := List.all_eq_true.mp hsample p hp
    unfold MetricPoint.encodes at hpoint
    exact (Bool.and_eq_true_iff.mp hpoint).1
  · intro h sample hsample
    obtain ⟨item, hitem, rfl⟩ := List.mem_map.mp hsample
    apply List.all_eq_true.mpr
    intro p hp
    unfold MetricPoint.encodes
    have hvalue := (hsums item (mem_keptSeries hitem)).values p hp
    rw [h item hitem p hp, hvalue]
    rfl

/-! ### The answer -/

/-- The series of a call, in the order in which the map of queries is walked. -/
def Backend.allSeries (b : Backend) (order : MapOrder) : List MetricSeries :=
  (order.order PrometheusAdapter.metricNames).map b.series

/-- What Prometheus has to return for a body to be written: series whose values
add up to finite numbers, and times that can be written in those reported.  A
call that fails before it asks Prometheus has a body in any case. -/
def Backend.MetricsEncode (b : Backend) (cfg : Config) (order : MapOrder) (claims : Claims)
    (params : CallParams) : Prop :=
  ∀ req s, evidenceRequest params.arguments = .ok req →
    (scopedContext cfg (some claims) req).eval b.answer = .ok s → cfg.prometheusURL ≠ "" →
      (∀ name ∈ PrometheusAdapter.metricNames, (b.series name).SumFinite) ∧
        ∀ item ∈ keptSeries (b.allSeries order) cfg.maxSamples, ∀ p ∈ item.values,
          Go.isJsonYear p.timestamp = true

/-- A response has a body, which holds the error of the call or the bundle that
was computed. -/
def Answered (b : Backend) (cfg : Config) (order : MapOrder) (claims : Claims) (params : CallParams)
    (response : HttpResponse) : Prop :=
  ∃ written, writeJSON response = some written ∧
    ((∃ error, written.error = some error ∧ written.result = none) ∨
      ∃ bundle, written.error = none ∧ written.result = some (.call (.bundle bundle)) ∧
        (Registry.call cfg order (some claims) params.name params.arguments).eval b.answer =
          .ok (.bundle bundle))

/-- The bundle of a call. -/
theorem getMetrics_eval (order : MapOrder) {s : ScopedContext}
    (hs : s.context.constraints.maxSamples = cfg.maxSamples) :
    ∃ bundle, (Services.getMetrics cfg order s).eval b.answer = .ok bundle ∧
      (bundle.encodes = true ↔ (cfg.prometheusURL ≠ "" →
        (∀ name ∈ PrometheusAdapter.metricNames, (b.series name).SumFinite) ∧
          ∀ item ∈ keptSeries (b.allSeries order) cfg.maxSamples, ∀ p ∈ item.values,
            Go.isJsonYear p.timestamp = true)) := by
  -- without a URL an error stands in the bundle, and every text is encoded
  by_cases hurl : cfg.prometheusURL = ""
  · have hp : (PrometheusAdapter.queryDeploymentMetrics cfg order s.context.scope.«namespace»
        s.context.scope.deploymentName s.start s.stop).eval b.answer =
        .error "prometheus url is not configured" := by
      unfold PrometheusAdapter.queryDeploymentMetrics
      rw [if_pos hurl]
      rfl
    refine ⟨_, collect_eval_error hp, ?_⟩
    apply iff_of_true
    · rfl
    · intro hne
      exact absurd hurl hne
  · have hp : (PrometheusAdapter.queryDeploymentMetrics cfg order s.context.scope.«namespace»
        s.context.scope.deploymentName s.start s.stop).eval b.answer = .ok (b.allSeries order) := by
      unfold PrometheusAdapter.queryDeploymentMetrics
      rw [if_neg hurl]
      exact queryAll_eval _ _ _ _ _
    refine ⟨_, collect_eval_ok hp, ?_⟩
    rw [metrics_encodes_iff, hs]
    -- a map has its names in any order
    have hnames : (∀ item ∈ b.allSeries order, item.SumFinite) ↔
        ∀ name ∈ PrometheusAdapter.metricNames, (b.series name).SumFinite := by
      unfold Backend.allSeries
      rw [List.forall_mem_map]
      exact forall_congr' fun name => imp_congr_left (order.perm _).mem_iff
    rw [hnames]
    exact ⟨fun h _ => h, fun h => h hurl⟩

/-- The response to a call in the scope of its claims, by what the tool does. -/
theorem serveHTTP_eval {body : Option (Json String)} {req : RpcRequest} {params : CallParams}
    (hbody : body.map decodeRequest = some (.ok req)) (hmethod : req.method = "tools/call")
    (hparams : decodeParams req.params = .ok params) (hscope : params.InScope claims) :
    (serveHTTP cfg order (some claims) body).eval b.answer =
      .ok ⟨200, rpcResponse req.id
        (match (Registry.call cfg order (some claims) params.name params.arguments).eval b.answer with
        | .ok result => .ok (.call result)
        | .error err => .error ⟨-32000, err⟩)⟩ := by
  -- an error of the tool is an error of JSON-RPC, and status 200
  have hcall : (toolsCall cfg order (some claims) req).eval b.answer =
      .ok (match (Registry.call cfg order (some claims) params.name params.arguments).eval b.answer with
        | .ok result => .ok (.call result)
        | .error err => .error ⟨-32000, err⟩) := by
    unfold toolsCall
    rw [hparams]
    dsimp only
    rw [if_pos hscope]
    cases h : (Registry.call cfg order (some claims) params.name params.arguments).eval b.answer with
    | ok result =>
      apply Prog.eval_tryCatch_ok
      exact Prog.eval_bind_ok h
    | error err =>
      apply (Prog.eval_tryCatch_error (Prog.eval_bind_error h)).trans
      rfl
  -- the method is the call of a tool
  have hdispatch : dispatch cfg order (some claims) req = toolsCall cfg order (some claims) req := by
    unfold dispatch
    rw [hmethod]
    rfl
  unfold serveHTTP
  rw [hbody]
  dsimp only [Option.getD_some]
  rw [hdispatch, Prog.eval_bind_ok hcall]
  rfl

/-- A call that fails has a body with its error. -/
theorem answered_error {params : CallParams} {id : Json String} {err : String} :
    Answered b cfg order claims params ⟨200, rpcResponse id (.error ⟨-32000, err⟩)⟩ :=
  ⟨rpcResponse id (.error ⟨-32000, err⟩), rfl, .inl ⟨_, rfl, rfl⟩⟩

/-- A call that reports a bundle has a body exactly if the bundle is encoded. -/
theorem answered_bundle_iff {params : CallParams} {id : Json String} {bundle : Bundle}
    (hcall : (Registry.call cfg order (some claims) params.name params.arguments).eval b.answer =
      .ok (.bundle bundle)) :
    Answered b cfg order claims params ⟨200, rpcResponse id (.ok (.call (.bundle bundle)))⟩ ↔
      bundle.encodes = true := by
  constructor
  · rintro ⟨written, hwritten, -⟩
    unfold writeJSON at hwritten
    split at hwritten
    · rename_i h
      exact h
    · cases hwritten
  · intro h
    exact ⟨_, if_pos h, .inr ⟨bundle, rfl, rfl, hcall⟩⟩

/-- **The answer of `get_metrics`.**  Whatever Prometheus returns, an
authenticated call is answered with a status, and its body is one with an error
or with the computed bundle exactly if the series add up to finite numbers and
the reported times can be written; otherwise there is no body. -/
theorem metrics_answer_iff (order : MapOrder) (claims : Claims) {body : Option (Json String)}
    {req : RpcRequest} {params : CallParams} (hbody : body.map decodeRequest = some (.ok req))
    (hmethod : req.method = "tools/call") (hparams : decodeParams req.params = .ok params)
    (hname : params.name = Tool.name .metrics) (hscope : params.InScope claims) :
    ∃ response, (serveHTTP cfg order (some claims) body).eval b.answer = .ok response ∧
      (Answered b cfg order claims params response ↔ b.MetricsEncode cfg order claims params) := by
  refine ⟨_, serveHTTP_eval hbody hmethod hparams hscope, ?_⟩
  -- a call that fails before the bundle is answered, and the condition says nothing of it
  have hfail : ∀ err, (Registry.call cfg order (some claims) params.name params.arguments).eval
      b.answer = .error err → (∀ req s, evidenceRequest params.arguments = .ok req →
        (scopedContext cfg (some claims) req).eval b.answer ≠ .ok s) →
      (Answered b cfg order claims params ⟨200, rpcResponse req.id
        (match (Registry.call cfg order (some claims) params.name params.arguments).eval b.answer with
        | .ok result => .ok (.call result)
        | .error err => .error ⟨-32000, err⟩)⟩ ↔ b.MetricsEncode cfg order claims params) := by
    intro err hcall hnone
    rw [hcall]
    apply iff_of_true answered_error
    intro req s hreq hs
    exact absurd hs (hnone req s hreq)
  cases hreq : evidenceRequest params.arguments with
  | error err =>
    apply hfail err
    · unfold Registry.call
      rw [hname, find_tool, hreq]
      rfl
    · intro req' s hreq'
      rw [hreq] at hreq'
      cases hreq'
  | ok request =>
    cases hs : (scopedContext cfg (some claims) request).eval b.answer with
    | error err =>
      apply hfail err
      · unfold Registry.call
        rw [hname, find_tool, hreq]
        dsimp only
        rw [Prog.ofExcept_ok_bind]
        exact Prog.eval_bind_error hs
      · intro req' s hreq'
        rw [hreq] at hreq'
        obtain rfl := Except.ok.inj hreq'
        rw [hs]
        intro h
        cases h
    | ok s =>
      -- now there is a bundle, and the answer stands or falls with its numbers
      obtain ⟨bundle, hbundle, hencodes⟩ := getMetrics_eval (b := b) order
        (scopedContext_constraints hs).2.1
      have hcall : (Registry.call cfg order (some claims) params.name params.arguments).eval
          b.answer = .ok (.bundle bundle) := by
        rw [hname, call_eval hreq hs]
        exact Prog.eval_bind_ok hbundle
      rw [hcall]
      dsimp only
      rw [answered_bundle_iff hcall, hencodes]
      constructor
      · intro h req' s' hreq' hs'
        exact h
      · intro h
        exact h request s hreq hs

/-- The answer of Prometheus for a quotient by zero. -/
def nanBody : Json String :=
  .object [("status", .string "success"), ("data", .object [("resultType", .string "matrix"),
    ("result", .array [.object [("metric", .object []),
      ("values", .array [.array [.number "60", .string "NaN"]])]])])]

def nanBackend : Backend := { sampleBackend with metrics := fun _ => .ok nanBody }

def prometheusConfig : Config := { defaultConfig with prometheusURL := "http://prometheus:9090" }

/-- A request for the metrics of the sample run. -/
def metricsRequest : Json String :=
  .object [("jsonrpc", .string "2.0"), ("id", .string "1"), ("method", .string "tools/call"),
    ("params", .object [("name", .string "get_metrics"), ("arguments", .object sampleArguments)])]

def metricsParams : CallParams := ⟨"get_metrics", sampleArguments⟩

def metricsCall : RpcRequest :=
  ⟨"2.0", .string "1", "tools/call",
    some (.object [("name", .string "get_metrics"), ("arguments", .object sampleArguments)])⟩

theorem metricsRequest_decoded : (some metricsRequest).map decodeRequest = some (.ok metricsCall) := by
  rfl

theorem metricsCall_params : decodeParams metricsCall.params = .ok metricsParams := by
  rfl

/-- The series of that answer has no finite sum. -/
theorem nanBackend_sum : ¬ (nanBackend.series "http_requests_error_rate").SumFinite := by
  decide +kernel

theorem metrics_answer_iff_sample :
    ∃ response, (serveHTTP prometheusConfig .insertion (some ⟨"workspace", "run", "incident"⟩)
        (some metricsRequest)).eval nanBackend.answer = .ok response ∧
      (Answered nanBackend prometheusConfig .insertion ⟨"workspace", "run", "incident"⟩ metricsParams
          response ↔
        nanBackend.MetricsEncode prometheusConfig .insertion ⟨"workspace", "run", "incident"⟩
          metricsParams) :=
  metrics_answer_iff .insertion ⟨"workspace", "run", "incident"⟩ metricsRequest_decoded rfl
    metricsCall_params rfl (by decide)

/-- Prometheus answers with `NaN`: the call is answered with the status 200 and
no body. -/
theorem nan_not_answered :
    ∃ response, (serveHTTP prometheusConfig .insertion (some ⟨"workspace", "run", "incident"⟩)
        (some metricsRequest)).eval nanBackend.answer = .ok response ∧
      response.status = 200 ∧ writeJSON response = none := by
  have hcontext : (scopedContext prometheusConfig (some ⟨"workspace", "run", "incident"⟩)
      ⟨"run", "incident"⟩).eval nanBackend.answer =
      .ok (sampleContext prometheusConfig nanBackend.now) := sampleContext_eval rfl rfl rfl rfl
  obtain ⟨bundle, hbundle, hencodes⟩ := getMetrics_eval (b := nanBackend) .insertion
    (scopedContext_constraints hcontext).2.1
  have hcall : (Registry.call prometheusConfig .insertion (some ⟨"workspace", "run", "incident"⟩)
      metricsParams.name metricsParams.arguments).eval nanBackend.answer = .ok (.bundle bundle) := by
    show (Registry.call prometheusConfig .insertion _ (Tool.name .metrics) sampleArguments).eval _ = _
    rw [call_eval sampleArguments_request hcontext]
    exact Prog.eval_bind_ok hbundle
  refine ⟨_, serveHTTP_eval metricsRequest_decoded rfl metricsCall_params (by decide), rfl, ?_⟩
  rw [hcall]
  apply if_neg
  intro h
  have hsums := (hencodes.mp h (by decide)).1
  exact nanBackend_sum (hsums "http_requests_error_rate" (by decide))

end NexCause
