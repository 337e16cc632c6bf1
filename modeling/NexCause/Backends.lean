/-
NexCause/Backends.lean

What the backends of the evidence server hold for the deployment of a run, and
how they answer its calls: PostgreSQL with a window, an order and a `LIMIT`,
Loki and Tempo with a window and a limit, the API server with the lines of a
pod that are newer than a number of seconds, of the last lines of its log.

Main results: the context of a call is that of the run's record at the time of
the call (`scopedContext_ok`), with the limits of the configuration and a window
that is past, and a call of a tool is its evidence in that context
(`call_eval`).
-/
import NexCause.EvidenceServer

namespace NexCause

open Program Json

/-! ### What they hold -/

/-- A line of a pod's log. -/
structure PodLogLine where
  time : Go.Time
  text : List Char
  oneLine : '\n' ∉ text

/-- The text of a time before a line of a pod's log: one line, with something
to see in it. -/
structure TimeStamp where
  text : Go.Time → List Char
  oneLine : ∀ t, '\n' ∉ text t
  visible : ∀ t, ∃ c ∈ text t, ¬ Go.isSpace c

/-- An entry of Loki. -/
structure LogEntry where
  time : Go.Time
  labels : List (String × String)
  text : List Char
  deriving DecidableEq, Repr

/-- The time of a call, and for each call what there is or why it fails.  A
trace comes with its time in seconds. -/
structure Backend where
  now : Go.Time
  stamp : TimeStamp
  record : Except String RCAContextRecord
  deploymentStatus : Except String K8sDeploymentStatus
  pods : Except String (List K8sPod)
  events : Except String (List K8sEvent)
  podLines : String → Except String (List PodLogLine)
  logEntries : Except String (List LogEntry)
  metrics : String → Except String (Json String)
  traces : Except String (List (ℤ × TraceSummary))
  healthSamples : Except String (List HealthSample)
  storedConfigs : Except String (List StoredConfig)
  changes : Except String (List RecentChange)

/-! ### How they answer -/

/-- The rows of a window, newest first. -/
def windowRows {α : Type} (time : α → Go.Time) (start stop : Go.Time) (rows : List α) : List α :=
  (rows.filter fun r => start ≤ time r ∧ time r ≤ stop).insertionSort fun a b => time b ≤ time a

/-- The entries of a window, which ends before `stop`. -/
def windowEntries (start stop : Go.Time) (entries : List LogEntry) : List LogEntry :=
  entries.filter fun e => start ≤ e.time ∧ e.time < stop

/-- Put an entry into its stream. -/
def addEntry (e : LogEntry) : List LokiStream → List LokiStream
  | [] => [⟨e.labels, [[(toString e.time).toList, e.text]]⟩]
  | s :: streams =>
      if s.stream = e.labels then
        { s with values := s.values ++ [[(toString e.time).toList, e.text]] } :: streams
      else s :: addEntry e streams

/-- The streams of a list of entries. -/
def toStreams (entries : List LogEntry) : List LokiStream :=
  entries.foldl (fun streams e => addEntry e streams) []

/-- The traces of a window. -/
def windowTraces (start stop : ℤ) (traces : List (ℤ × TraceSummary)) : List TraceSummary :=
  (traces.filter fun t => start ≤ t.1 ∧ t.1 ≤ stop).map Prod.snd

/-- The lines newer than `sinceSeconds` before `now`. -/
def linesSince (now : Go.Time) (sinceSeconds : ℤ) (lines : List PodLogLine) : List PodLogLine :=
  lines.filter fun l => now - sinceSeconds * Go.second < l.time

/-- The last lines of a log. -/
def lastLines (tailLines : ℤ) (lines : List PodLogLine) : List PodLogLine :=
  lines.drop (lines.length - tailLines.toNat)

/-- A line with its time before it. -/
def stampedLine (stamp : TimeStamp) (l : PodLogLine) : List Char := stamp.text l.time ++ ' ' :: l.text

/-- The text of a log. -/
def logText (stamp : TimeStamp) (lines : List PodLogLine) : List Char :=
  lines.flatMap fun l => stampedLine stamp l ++ ['\n']

def Backend.answer (b : Backend) : (c : EvidenceCall) → Except String c.Result
  | .now => .ok b.now
  | .tenantTx _ => .ok ()
  | .contextRecord _ _ => b.record
  | .healthSamples _ start stop limit =>
      b.healthSamples.map fun rows =>
        (windowRows HealthSample.collectedAt start stop rows).take limit.toNat
  | .storedConfigs _ => b.storedConfigs
  | .recentChanges _ start stop limit =>
      b.changes.map fun rows => (windowRows RecentChange.changedAt start stop rows).take limit.toNat
  | .deploymentStatus _ _ => b.deploymentStatus
  | .pods _ _ _ => b.pods
  | .events _ => b.events
  | .podLog _ podName tailLines sinceSeconds =>
      (b.podLines podName).map fun lines =>
        logText b.stamp (linesSince b.now sinceSeconds (lastLines tailLines lines))
  | .queryLogs _ _ start stop limit =>
      b.logEntries.map fun entries => toStreams ((windowEntries start stop entries).take limit.toNat)
  | .queryRange metric _ _ _ _ => b.metrics metric
  | .searchTraces _ start stop limit =>
      b.traces.map fun traces => (windowTraces start stop traces).take limit.toNat

/-! ### Calls of tools -/

variable {cfg : Config} {order : MapOrder} {claims : Claims} {b : Backend}

/-- Where a context comes from. -/
theorem scopedContext_ok {req : EvidenceRequest} {s : ScopedContext}
    (h : (scopedContext cfg (some claims) req).eval b.answer = .ok s) :
    ∃ record, b.record = .ok record ∧ s.context = buildContext cfg record b.now ∧
      s.context.windowTimes = .ok (s.start, s.stop) := by
  unfold scopedContext at h
  split at h
  · cases h
  · rw [Prog.eval_bind] at h
    obtain ⟨record, hrecord, h⟩ := except_bind_ok h
    have hanswer : (PostgresStore.getRCAContextRecord (some claims) (trimmed req.runId)
        (trimmed req.incidentId)).eval b.answer = b.record := by
      have htx : (PostgresStore.tenantTx (some claims)).eval b.answer = .ok () := Prog.eval_perform _
      apply (Prog.eval_bind_ok htx).trans
      exact Prog.eval_perform _
    split at h
    · cases h
    · rw [Prog.eval_bind] at h
      obtain ⟨now, hnow, h⟩ := except_bind_ok h
      have hnow' : b.now = now := Except.ok.inj ((Prog.eval_perform _).symm.trans hnow)
      subst hnow'
      rw [Prog.eval_bind] at h
      obtain ⟨window, hwindow, h⟩ := except_bind_ok h
      obtain rfl := Except.ok.inj h
      refine ⟨record, hanswer.symm.trans hrecord, rfl, ?_⟩
      rw [Prog.eval_ofExcept] at hwindow
      exact hwindow

/-- The limits of a context are those of the configuration. -/
theorem scopedContext_constraints {req : EvidenceRequest} {s : ScopedContext}
    (h : (scopedContext cfg (some claims) req).eval b.answer = .ok s) :
    s.context.constraints.maxLogLines = cfg.maxLogLines ∧
      s.context.constraints.maxSamples = cfg.maxSamples ∧
      s.context.constraints.maxSpans = cfg.maxSpans := by
  obtain ⟨record, -, hcontext, -⟩ := scopedContext_ok h
  rw [hcontext]
  exact ⟨rfl, rfl, rfl⟩

/-- The window of a context is one of whole seconds, and ends at the call at the
latest. -/
theorem scopedContext_window {req : EvidenceRequest} {s : ScopedContext}
    (h : (scopedContext cfg (some claims) req).eval b.answer = .ok s) :
    s.stop ≤ b.now ∧ Go.second ∣ s.start ∧ Go.second ∣ s.stop := by
  obtain ⟨record, -, hcontext, hwindow⟩ := scopedContext_ok h
  rw [hcontext] at hwindow
  unfold RCAContext.windowTimes at hwindow
  obtain ⟨start, hstart, hwindow⟩ := except_bind_ok hwindow
  obtain ⟨stop, hstop, hwindow⟩ := except_bind_ok hwindow
  obtain ⟨rfl, rfl⟩ := Prod.mk.inj (Except.ok.inj hwindow)
  have hend : s.stop = (buildContext cfg record b.now).window.windowEnd * Go.second :=
    Go.parseRFC3339_ok hstop
  refine ⟨?_, ?_, ?_⟩
  · -- the end is the whole second of the call or of an earlier time
    rw [hend]
    have hfloor : ∀ requested : Go.Time,
        (if b.now < requested then b.now else requested) / Go.second * Go.second ≤ b.now := by
      intro requested
      apply (Int.ediv_mul_le _ (by decide)).trans
      split
      · exact le_refl _
      · rename_i hnot
        exact not_lt.mp hnot
    exact hfloor _
  · exact Dvd.intro_left _ (Go.parseRFC3339_ok hstart).symm
  · exact Dvd.intro_left _ hend.symm

/-- The context of a run that is found. -/
theorem scopedContext_eval {req : EvidenceRequest} {record : RCAContextRecord} {start stop : Go.Time}
    (hrun : trimmed req.runId ≠ "") (hincident : trimmed req.incidentId ≠ "")
    (hrecord : b.record = .ok record) (hid : record.run.id ≠ "")
    (hwindow : (buildContext cfg record b.now).windowTimes = .ok (start, stop)) :
    (scopedContext cfg (some claims) req).eval b.answer =
      .ok ⟨buildContext cfg record b.now, start, stop⟩ := by
  have hanswer : (PostgresStore.getRCAContextRecord (some claims) (trimmed req.runId)
      (trimmed req.incidentId)).eval b.answer = .ok record := by
    have htx : (PostgresStore.tenantTx (some claims)).eval b.answer = .ok () := Prog.eval_perform _
    apply (Prog.eval_bind_ok htx).trans
    exact (Prog.eval_perform _).trans hrecord
  have hnow : (Prog.perform EvidenceCall.now : EvidenceProg Go.Time).eval b.answer = .ok b.now :=
    Prog.eval_perform _
  unfold scopedContext
  rw [if_neg (by simp [hrun, hincident]), Prog.eval_bind_ok hanswer, if_neg hid,
    Prog.eval_bind_ok hnow]
  dsimp only
  rw [hwindow]
  rfl

theorem find_tool (tool : Tool) : (Tool.all.find? fun t => t.name = tool.name) = some tool := by
  cases tool <;> decide

/-- A call of a tool is its evidence in the context of the request. -/
theorem call_eval {tool : Tool} {arguments : List (String × Json String)} {req : EvidenceRequest}
    {s : ScopedContext} (hreq : evidenceRequest arguments = .ok req)
    (hs : (scopedContext cfg (some claims) req).eval b.answer = .ok s) :
    (Registry.call cfg order (some claims) tool.name arguments).eval b.answer =
      (tool.evidence cfg order (some claims) s).eval b.answer := by
  unfold Registry.call
  rw [find_tool tool, hreq]
  dsimp only
  rw [Prog.ofExcept_ok_bind]
  exact Prog.eval_bind_ok hs

/-- What a collection reports of what it collected. -/
theorem collect_eval_ok {α : Type} {source : Source} {s : ScopedContext} {p : EvidenceProg α}
    {bundle : α → Bundle} {a : α} (h : p.eval b.answer = .ok a) :
    (collect source s p bundle).eval b.answer = .ok (bundle a) := by
  apply Prog.eval_tryCatch_ok
  rw [Prog.eval_bind_ok h]
  rfl

/-- What a collection reports of an error. -/
theorem collect_eval_error {α : Type} {source : Source} {s : ScopedContext} {p : EvidenceProg α}
    {bundle : α → Bundle} {err : String} (h : p.eval b.answer = .error err) :
    (collect source s p bundle).eval b.answer = .ok (withError source s err) := by
  unfold collect
  rw [Prog.eval_tryCatch_error (Prog.eval_bind_error h)]
  rfl

/-- The events that the adapter returns. -/
theorem events_eval (scope : Scope) :
    (KubernetesAdapter.events scope.«namespace» scope.deploymentName scope.appId
      scope.deploymentId).eval b.answer =
      b.events.map fun events =>
        events.filter
          (KubernetesAdapter.selectsEvent scope.deploymentName (b.pods.toOption.getD [])) := by
  have hpods : ((KubernetesAdapter.pods scope.«namespace» scope.appId scope.deploymentId).tryCatch
      fun _ => Prog.ret []).eval b.answer = .ok (b.pods.toOption.getD []) := by
    have hanswer : (KubernetesAdapter.pods scope.«namespace» scope.appId
        scope.deploymentId).eval b.answer = b.pods := Prog.eval_perform _
    cases h : b.pods with
    | ok pods =>
      apply Prog.eval_tryCatch_ok
      rw [hanswer, h]
      rfl
    | error e =>
      rw [Prog.eval_tryCatch_error (hanswer.trans h)]
      rfl
  unfold KubernetesAdapter.events
  rw [Prog.eval_bind_ok hpods, Prog.eval_bind, Prog.eval_perform]
  show (b.events >>= _) = _
  cases b.events <;> rfl

/-! ### One run -/

/-- The last digit of a number. -/
def lastDigit (n : ℤ) : Char := Nat.digitChar (n % 10).toNat

theorem lastDigit_ne (n : ℤ) : '\n' ≠ lastDigit n := by
  have hdigit : ∀ m < 10, '\n' ≠ Nat.digitChar m := by decide
  apply hdigit
  have := Int.emod_lt_of_pos n (show (0 : ℤ) < 10 by decide)
  omega

/-- The minutes and seconds of the first hour of 1970. -/
def sampleStamp : TimeStamp where
  text t :=
    "1970-01-01T00:".toList ++
      [lastDigit (t / Go.minute / 10), lastDigit (t / Go.minute), ':',
        lastDigit (t / Go.second % 60 / 10), lastDigit (t / Go.second % 60), 'Z']
  oneLine := by
    intro t
    simp only [List.mem_append, List.mem_cons, List.not_mem_nil, or_false, not_or]
    exact ⟨by decide, lastDigit_ne _, lastDigit_ne _, by decide, lastDigit_ne _, lastDigit_ne _,
      by decide⟩
  visible := by
    intro t
    exact ⟨'Z', by simp, by decide⟩

/-- A run of a deployment, whose incident was opened then. -/
def sampleRecord : RCAContextRecord where
  run := ⟨"run", "auto", 0⟩
  incident := ⟨"incident", "warning", none, "title", none, 0, none⟩
  deployment := ⟨"deployment", "namespace", "image", "running", "app", "app", none⟩
  app := ⟨"app", "app", "App"⟩
  latestHealthSampleCollectedAt := none

/-- The backends of that deployment without any evidence, an hour later. -/
def sampleBackend : Backend where
  now := 3600 * Go.second
  stamp := sampleStamp
  record := .ok sampleRecord
  deploymentStatus := .error "not found"
  pods := .ok []
  events := .ok []
  podLines _ := .error "not found"
  logEntries := .ok []
  metrics _ := .error "not found"
  traces := .ok []
  healthSamples := .ok []
  storedConfigs := .ok []
  changes := .ok []

def sampleArguments : List (String × Json String) :=
  [("runId", .string "run"), ("incidentId", .string "incident")]

theorem sampleArguments_request : evidenceRequest sampleArguments = .ok ⟨"run", "incident"⟩ := by
  decide

/-- Its context, with the default window. -/
def sampleContext (cfg : Config) (now : Go.Time) : ScopedContext :=
  ⟨buildContext cfg sampleRecord now, -600 * Go.second, 120 * Go.second⟩

theorem sampleContext_eval (hcfg : cfg.defaultLookback = 10 * Go.minute)
    (hahead : cfg.defaultLookahead = 2 * Go.minute) (hrecord : b.record = .ok sampleRecord)
    (hnow : b.now = 3600 * Go.second) :
    (scopedContext cfg (some claims) ⟨"run", "incident"⟩).eval b.answer =
      .ok (sampleContext cfg b.now) := by
  apply scopedContext_eval
  · unfold trimmed
    decide
  · unfold trimmed
    decide
  · exact hrecord
  · decide
  · unfold buildContext RCAContext.windowTimes
    rw [hcfg, hahead, hnow]
    rfl

end NexCause
