/-
NexCause/LogLines.lean

The lines that the log bundle is made of.

`Preprocess.logs` splits texts into lines, trims them and drops blank ones;
what remains, up to the limit, is the bundle (`logLines_eq`).  The lines of
Loki's answer are those of its entries, whatever the streams and the order of
the pods (`parseLokiLogs_lines`); the lines of a pod's log are its lines with
their times (`visibleLines_logText`).  The logs come from Loki, or else from the
pods (`collectLogs_loki`, `collectLogs_pods`).
-/
import NexCause.Backends

namespace NexCause

open Preprocess Program

/-! ### Lines of a text -/

/-- The lines of a text that are not blank, trimmed. -/
def visibleLines (text : List Char) : List (List Char) :=
  ((text.splitOn '\n').map Go.trimSpace).filter (· ≠ [])

/-- The lines of a pod's log, with the pod. -/
def podLogLines (log : PodLog) : List (String × List Char) :=
  (visibleLines log.logs).map fun line => (log.podName, line)

/-- What the bundle holds of a line. -/
def logSample (p : String × List Char) : Sample :=
  .log p.1 (redact p.2) (classifyLogLine (redact p.2))

@[simp] theorem visibleLines_nil : visibleLines [] = [] := rfl

theorem visibleLines_append (a b : List Char) :
    visibleLines (a ++ '\n' :: b) = visibleLines a ++ visibleLines b := by
  unfold visibleLines
  rw [List.splitOn_eq_splitOnP, List.splitOn_eq_splitOnP, List.splitOn_eq_splitOnP,
    List.splitOnP_append_cons a b (by simp), List.map_append, List.filter_append]

/-- One line, if it is not blank. -/
theorem visibleLines_oneLine {line : List Char} (h : '\n' ∉ line) :
    visibleLines line = [Go.trimSpace line].filter (· ≠ []) := by
  have hbreak : ∀ c ∈ line, (c == '\n') = false := fun c hc =>
    beq_false_of_ne fun heq => h (heq ▸ hc)
  unfold visibleLines
  rw [List.splitOn_eq_singleton_of_beq_eq_false hbreak]
  rfl

/-- Lines that are joined come apart again. -/
theorem visibleLines_intercalate (ls : List (List Char)) :
    visibleLines (['\n'].intercalate ls) = ls.flatMap visibleLines := by
  induction ls with
  | nil => rfl
  | cons l ls ih =>
    cases ls with
    | nil => simp
    | cons l' ls =>
      have hjoin : ['\n'].intercalate (l :: l' :: ls) =
          l ++ '\n' :: ['\n'].intercalate (l' :: ls) := by
        simp [List.intercalate_cons_cons]
      rw [hjoin, visibleLines_append, ih]
      rfl

/-! ### The bundle of a list of logs -/

/-- The state of the loop after the lines `ls`. -/
def Preprocess.LogState.After (maxLines : ℤ) (ls : List (String × List Char)) (s : LogState) : Prop :=
  s.lines = (ls.take maxLines.toNat).map logSample ∧
    s.truncated = decide (maxLines.toNat < ls.length)

/-- One line: a blank one changes nothing, another one comes after the rest. -/
theorem Preprocess.LogState.After.logLine {maxLines : ℤ} {ls : List (String × List Char)} {s : LogState}
    (h : s.After maxLines ls) (podName : String) (line : List Char) :
    (logLine maxLines podName s line).After maxLines
      (ls ++ ([Go.trimSpace line].filter (· ≠ [])).map fun l => (podName, l)) := by
  obtain ⟨hlines, htruncated⟩ := h
  have hlength : s.lines.length = min maxLines.toNat ls.length := by
    rw [hlines, List.length_map, List.length_take]
  unfold Preprocess.logLine
  dsimp only
  by_cases hblank : Go.trimSpace line = []
  · rw [if_pos hblank]
    simp [hblank, After, hlines, htruncated]
  · rw [if_neg hblank]
    have hfilter : [Go.trimSpace line].filter (· ≠ []) = [Go.trimSpace line] := by
      simp [hblank]
    rw [hfilter]
    by_cases hfull : maxLines ≤ s.lines.length
    · -- the limit is reached: the line is only noted
      have hle : maxLines.toNat ≤ ls.length := by omega
      rw [if_pos hfull]
      constructor
      · rw [List.take_append_of_le_length hle]
        exact hlines
      · simp
        omega
    · have hlt : ls.length < maxLines.toNat := by omega
      rw [if_neg hfull]
      constructor
      · rw [List.take_of_length_le (by simp; omega), List.map_append]
        rw [List.take_of_length_le (by omega)] at hlines
        show s.lines ++ _ = _
        rw [hlines]
        rfl
      · show s.truncated = _
        rw [htruncated]
        simp
        omega

theorem Preprocess.LogState.After.foldl {maxLines : ℤ} {ls : List (String × List Char)} {s : LogState}
    (h : s.After maxLines ls) (podName : String) (lines : List (List Char)) :
    (lines.foldl (Preprocess.logLine maxLines podName) s).After maxLines
      (ls ++ ((lines.map Go.trimSpace).filter (· ≠ [])).map fun l => (podName, l)) := by
  induction lines generalizing ls s with
  | nil => simpa using h
  | cons line lines ih =>
    have hstep := ih (h.logLine podName line)
    have happ : (((line :: lines).map Go.trimSpace).filter (· ≠ [])) =
        [Go.trimSpace line].filter (· ≠ []) ++ (lines.map Go.trimSpace).filter (· ≠ []) := by
      rw [← List.filter_append]
      rfl
    rw [happ, List.map_append, ← List.append_assoc]
    exact hstep

/-- **The log bundle** holds the first lines, and is truncated if there are
more. -/
theorem logLines_eq (maxLines : ℤ) (logs : List PodLog) :
    (logLines maxLines logs).After maxLines (logs.flatMap podLogLines) := by
  have hrun : ∀ {ls : List (String × List Char)} {s : LogState}, s.After maxLines ls →
      (logs.foldl (fun s log =>
        (log.logs.splitOn '\n').foldl (Preprocess.logLine maxLines log.podName) s) s).After maxLines
        (ls ++ logs.flatMap podLogLines) := by
    induction logs with
    | nil =>
      intro ls s h
      simpa using h
    | cons log logs ih =>
      intro ls s h
      have hstep := ih (h.foldl log.podName (log.logs.splitOn '\n'))
      rw [List.flatMap_cons, ← List.append_assoc]
      exact hstep
  have hstart : Preprocess.LogState.After maxLines [] {} := ⟨by simp, by simp⟩
  exact hrun hstart

/-! ### Loki -/

/-- The lines of an entry, with its pod. -/
def entryLines (fallbackName : String) (e : LogEntry) : List (String × List Char) :=
  (visibleLines e.text).map fun line => (LogBackendAdapter.podName fallbackName e.labels, line)

/-- The lines of a stream, with its pod. -/
def streamLines (fallbackName : String) (s : LokiStream) : List (String × List Char) :=
  ((LogBackendAdapter.entryTexts s.values).flatMap visibleLines).map fun line =>
    (LogBackendAdapter.podName fallbackName s.stream, line)

/-- The lines that were gathered for a pod. -/
def gatheredLines (p : String × List (List Char)) : List (String × List Char) :=
  (p.2.flatMap visibleLines).map fun line => (p.1, line)

theorem addEntry_lines (fallbackName : String) (e : LogEntry) (streams : List LokiStream) :
    ((addEntry e streams).flatMap (streamLines fallbackName)).Perm
      (streams.flatMap (streamLines fallbackName) ++ entryLines fallbackName e) := by
  induction streams with
  | nil => simp [addEntry, streamLines, entryLines, LogBackendAdapter.entryTexts]
  | cons s streams ih =>
    unfold addEntry
    split
    · rename_i hlabels
      have hstream : streamLines fallbackName
          { s with values := s.values ++ [[(toString e.time).toList, e.text]] } =
          streamLines fallbackName s ++ entryLines fallbackName e := by
        simp [streamLines, entryLines, LogBackendAdapter.entryTexts, hlabels]
      rw [List.flatMap_cons, List.flatMap_cons, hstream, List.append_assoc, List.append_assoc]
      exact List.Perm.append_left _ List.perm_append_comm
    · rw [List.flatMap_cons, List.flatMap_cons, List.append_assoc]
      exact ih.append_left _

theorem toStreams_lines (fallbackName : String) (entries : List LogEntry) :
    ((toStreams entries).flatMap (streamLines fallbackName)).Perm
      (entries.flatMap (entryLines fallbackName)) := by
  have hrun : ∀ streams : List LokiStream,
      ((entries.foldl (fun streams e => addEntry e streams) streams).flatMap
        (streamLines fallbackName)).Perm
        (streams.flatMap (streamLines fallbackName) ++
          entries.flatMap (entryLines fallbackName)) := by
    induction entries with
    | nil =>
      intro streams
      simp
    | cons e entries ih =>
      intro streams
      refine (ih (addEntry e streams)).trans ?_
      rw [List.flatMap_cons, ← List.append_assoc]
      exact (addEntry_lines fallbackName e streams).append_right _
  exact hrun []

theorem addLines_lines (podName : String) (lines : List (List Char))
    (byPod : List (String × List (List Char))) :
    ((LogBackendAdapter.addLines podName lines byPod).flatMap gatheredLines).Perm
      (byPod.flatMap gatheredLines ++ gatheredLines (podName, lines)) := by
  induction byPod with
  | nil =>
    unfold LogBackendAdapter.addLines
    split
    · rename_i hnil
      simp [gatheredLines, hnil]
    · simp
  | cons p byPod ih =>
    obtain ⟨name, found⟩ := p
    unfold LogBackendAdapter.addLines
    split
    · rename_i hname
      have hfound : gatheredLines (name, found ++ lines) =
          gatheredLines (name, found) ++ gatheredLines (podName, lines) := by
        simp [gatheredLines, hname]
      rw [List.flatMap_cons, List.flatMap_cons, hfound, List.append_assoc, List.append_assoc]
      exact List.Perm.append_left _ List.perm_append_comm
    · rw [List.flatMap_cons, List.flatMap_cons, List.append_assoc]
      exact ih.append_left _

theorem logsByPod_lines (fallbackName : String) (streams : List LokiStream) :
    ((LogBackendAdapter.logsByPod fallbackName streams).flatMap gatheredLines).Perm
      (streams.flatMap (streamLines fallbackName)) := by
  have hrun : ∀ byPod : List (String × List (List Char)),
      ((streams.foldl (fun byPod s => LogBackendAdapter.addLines
        (LogBackendAdapter.podName fallbackName s.stream) (LogBackendAdapter.entryTexts s.values)
        byPod) byPod).flatMap gatheredLines).Perm
        (byPod.flatMap gatheredLines ++ streams.flatMap (streamLines fallbackName)) := by
    induction streams with
    | nil =>
      intro byPod
      simp
    | cons s streams ih =>
      intro byPod
      refine (ih _).trans ?_
      rw [List.flatMap_cons, ← List.append_assoc]
      exact (addLines_lines _ _ byPod).append_right _
  exact hrun []

/-- The logs that are made of Loki's answer hold the lines of its entries, in
some order. -/
theorem parseLokiLogs_lines (order : MapOrder) (fallbackName : String) (entries : List LogEntry) :
    ((LogBackendAdapter.parseLokiLogs order fallbackName (toStreams entries)).flatMap
      podLogLines).Perm (entries.flatMap (entryLines fallbackName)) := by
  have hlogs : (LogBackendAdapter.parseLokiLogs order fallbackName (toStreams entries)).flatMap
      podLogLines =
      (order.order (LogBackendAdapter.logsByPod fallbackName (toStreams entries))).flatMap
        gatheredLines := by
    unfold LogBackendAdapter.parseLokiLogs
    split
    · rename_i hnil
      rw [hnil]
      rfl
    · rw [List.flatMap_map]
      congr 1
      funext p
      show podLogLines ⟨p.1, ['\n'].intercalate p.2⟩ = gatheredLines p
      unfold podLogLines gatheredLines
      rw [visibleLines_intercalate]
  rw [hlogs]
  refine ((order.perm _).flatMap_right _).trans ?_
  exact (logsByPod_lines fallbackName _).trans (toStreams_lines fallbackName entries)

/-! ### Pods -/

/-- The lines of a pod's log, as the bundle has them. -/
theorem visibleLines_logText (stamp : TimeStamp) (lines : List PodLogLine) :
    visibleLines (logText stamp lines) =
      lines.map fun l => Go.trimSpace (stampedLine stamp l) := by
  induction lines with
  | nil => rfl
  | cons l lines ih =>
    have hone : visibleLines (stampedLine stamp l) = [Go.trimSpace (stampedLine stamp l)] := by
      have hline : '\n' ∉ stampedLine stamp l := by
        intro hc
        unfold stampedLine at hc
        rcases List.mem_append.mp hc with hc | hc
        · exact stamp.oneLine l.time hc
        · rcases List.mem_cons.mp hc with hc | hc
          · exact absurd hc (by decide)
          · exact l.oneLine hc
      have hvisible : Go.trimSpace (stampedLine stamp l) ≠ [] := by
        obtain ⟨c, hc, hspace⟩ := stamp.visible l.time
        exact Go.trimSpace_ne_nil (List.mem_append_left _ hc) hspace
      rw [visibleLines_oneLine hline]
      simp [hvisible]
    have htext : logText stamp (l :: lines) = stampedLine stamp l ++ '\n' :: logText stamp lines := by
      simp [logText]
    rw [htext, visibleLines_append, hone, ih]
    rfl

variable {b : Backend}

/-- The log of a pod as the adapter reads it: the last lines, as far as they are
new enough, or one line that tells why there are none. -/
def Backend.podLog (b : Backend) (since : Go.Time) (tailLines : ℤ) (pod : K8sPod) : PodLog :=
  match b.podLines pod.name with
  | .ok lines =>
      ⟨pod.name, logText b.stamp
        (linesSince b.now (KubernetesAdapter.sinceSeconds since) (lastLines tailLines lines))⟩
  | .error err => ⟨pod.name, ("error: " ++ err).toList⟩

theorem podLog_eval («namespace» : String) (since : Go.Time) (tailLines : ℤ) (pod : K8sPod) :
    (KubernetesAdapter.podLog «namespace» since tailLines pod).eval b.answer =
      .ok (b.podLog since tailLines pod) := by
  unfold KubernetesAdapter.podLog Backend.podLog
  cases h : b.podLines pod.name with
  | ok lines =>
    have hanswer : (Prog.perform (EvidenceCall.podLog «namespace» pod.name tailLines
        (KubernetesAdapter.sinceSeconds since)) : EvidenceProg (List Char)).eval b.answer =
        .ok (logText b.stamp
          (linesSince b.now (KubernetesAdapter.sinceSeconds since) (lastLines tailLines lines))) := by
      apply (Prog.eval_perform _).trans
      show (b.podLines pod.name).map _ = _
      rw [h]
      rfl
    apply Prog.eval_tryCatch_ok
    exact Prog.eval_bind_ok hanswer
  | error err =>
    have hanswer : (Prog.perform (EvidenceCall.podLog «namespace» pod.name tailLines
        (KubernetesAdapter.sinceSeconds since)) : EvidenceProg (List Char)).eval b.answer =
        .error err := by
      apply (Prog.eval_perform _).trans
      show (b.podLines pod.name).map _ = _
      rw [h]
      rfl
    apply (Prog.eval_tryCatch_error (Prog.eval_bind_error hanswer)).trans
    rfl

theorem podLogs_eval («namespace» : String) (since : Go.Time) (tailLines : ℤ) (pods : List K8sPod) :
    (KubernetesAdapter.podLogs «namespace» since tailLines pods).eval b.answer =
      .ok (pods.map (b.podLog since tailLines)) := by
  induction pods with
  | nil => rfl
  | cons pod pods ih =>
    apply (Prog.eval_bind_ok (podLog_eval «namespace» since tailLines pod)).trans
    exact Prog.eval_bind_ok ih

/-! ### Where the logs come from -/

/-- The entries of Loki in the window. -/
def Backend.entriesInWindow (b : Backend) (cfg : Config) (s : ScopedContext) :
    Except String (List LogEntry) :=
  if cfg.logBackendURL = "" then .error "log backend url is not configured"
  else b.logEntries.map (windowEntries s.start s.stop)

/-- The pods whose logs are read when Loki has none to give. -/
def Backend.fallbackPods (b : Backend) (cfg : Config) : Except String (List K8sPod) :=
  if cfg.kubernetes then b.pods else .error "kubernetes adapter is not configured"

variable {cfg : Config} {order : MapOrder} {s : ScopedContext}

theorem queryLogs_eval (limit : ℤ) :
    (LogBackendAdapter.queryLogs cfg order s.context.scope.«namespace» s.context.scope.deploymentName
      s.start s.stop limit).eval b.answer =
      (b.entriesInWindow cfg s).map fun entries => LogBackendAdapter.parseLokiLogs order
        s.context.scope.deploymentName (toStreams (entries.take limit.toNat)) := by
  unfold LogBackendAdapter.queryLogs Backend.entriesInWindow
  split
  · rfl
  · apply (Prog.eval_bind _ _).trans
    rw [Prog.eval_perform]
    show (b.logEntries.map _ >>= _) = _
    cases b.logEntries <;> rfl

/-- Loki's logs, where it answers. -/
theorem collectLogs_loki {entries : List LogEntry} (h : b.entriesInWindow cfg s = .ok entries) :
    (Services.collectLogs cfg order s).eval b.answer =
      .ok (LogBackendAdapter.parseLokiLogs order s.context.scope.deploymentName
        (toStreams (entries.take s.context.constraints.maxLogLines.toNat))) := by
  apply Prog.eval_tryCatch_ok
  rw [queryLogs_eval, h]
  rfl

/-- Where it does not, it is up to the cluster. -/
theorem collectLogs_fallback {err : String} (h : b.entriesInWindow cfg s = .error err) :
    (Services.collectLogs cfg order s).eval b.answer =
      (if cfg.kubernetes then
        KubernetesAdapter.logs s.context.scope.«namespace» s.context.scope.appId
          s.context.scope.deploymentId (s.stop - s.start) s.context.constraints.maxLogLines
      else Prog.throw err : EvidenceProg (List PodLog)).eval b.answer := by
  have hloki : (LogBackendAdapter.queryLogs cfg order s.context.scope.«namespace»
      s.context.scope.deploymentName s.start s.stop
      s.context.constraints.maxLogLines).eval b.answer = .error err := by
    rw [queryLogs_eval, h]
    rfl
  unfold Services.collectLogs
  exact Prog.eval_tryCatch_error hloki

/-- The logs of the pods. -/
theorem collectLogs_pods {err : String} {pods : List K8sPod}
    (h : b.entriesInWindow cfg s = .error err) (hpods : b.fallbackPods cfg = .ok pods) :
    (Services.collectLogs cfg order s).eval b.answer =
      .ok (pods.map (b.podLog (s.stop - s.start) s.context.constraints.maxLogLines)) := by
  rw [collectLogs_fallback h]
  unfold Backend.fallbackPods at hpods
  split at hpods
  · rename_i hcluster
    rw [if_pos hcluster]
    have hfound : (KubernetesAdapter.pods s.context.scope.«namespace» s.context.scope.appId
        s.context.scope.deploymentId).eval b.answer = .ok pods := (Prog.eval_perform _).trans hpods
    unfold KubernetesAdapter.logs
    rw [Prog.eval_bind_ok hfound]
    exact podLogs_eval _ _ _ _
  · cases hpods

/-- No logs, where neither does. -/
theorem collectLogs_none {err err' : String} (h : b.entriesInWindow cfg s = .error err)
    (hpods : b.fallbackPods cfg = .error err') :
    ∃ e, (Services.collectLogs cfg order s).eval b.answer = .error e := by
  rw [collectLogs_fallback h]
  unfold Backend.fallbackPods at hpods
  split at hpods
  · rename_i hcluster
    rw [if_pos hcluster]
    have hfound : (KubernetesAdapter.pods s.context.scope.«namespace» s.context.scope.appId
        s.context.scope.deploymentId).eval b.answer = .error err' := (Prog.eval_perform _).trans hpods
    exact ⟨err', Prog.eval_bind_error hfound⟩
  · rename_i hcluster
    rw [if_neg hcluster]
    exact ⟨err, rfl⟩

end NexCause
