/-
NexCause/HiddenValues.lean

What redaction and sanitizing take out reaches nobody.

Two worlds show the same if they differ only in what a log line loses by its
redaction and in what a runtime config loses by its sanitizing (`Shows`), such
as the values of credentials (`showsText_of_credentials`).  The evidence server
answers alike in both (`serveHTTP_shows`).

Main result: an investigation cannot tell such worlds apart
(`investigation_shows`): its requests, its prompts for the language model, and
the report or the error in the end are the same.
-/
import NexCause.Investigations
import NexCause.LogLines
import NexCause.RedactionScan

namespace NexCause

open Json Program Preprocess LogBackendAdapter

/-! ### What an answer shows -/

/-- The lines that the evidence server makes of a text. -/
def redactedLines (text : List Char) : List (List Char) := (visibleLines text).map redact

/-- Texts with the same lines after redaction. -/
def ShowsText (a b : List Char) : Prop := redactedLines a = redactedLines b

def PodLog.Shows (a b : PodLog) : Prop := a.podName = b.podName ∧ ShowsText a.logs b.logs

def LokiStream.Shows (a b : LokiStream) : Prop :=
  a.stream = b.stream ∧ List.Forall₂ ShowsText (entryTexts a.values) (entryTexts b.values)

def StoredConfig.Shows (a b : StoredConfig) : Prop :=
  a.id = b.id ∧ a.type = b.type ∧
    sanitizeRuntimeConfig storedNumbers a.type a.data =
      sanitizeRuntimeConfig storedNumbers b.type b.data

/-- Two results of a call show the same. -/
def EvidenceCall.Shows : (c : EvidenceCall) → c.Result → c.Result → Prop
  | .podLog _ _ _ _, a, b => ShowsText a b
  | .queryLogs _ _ _ _ _, a, b => List.Forall₂ LokiStream.Shows a b
  | .storedConfigs _, a, b => List.Forall₂ StoredConfig.Shows a b
  | _, a, b => a = b

/-- A call whose results show everything. -/
def EvidenceCall.Public : EvidenceCall → Prop
  | .podLog _ _ _ _ => False
  | .queryLogs _ _ _ _ _ => False
  | .storedConfigs _ => False
  | _ => True

/-- The backends show the same. -/
def Shows (answer answer' : (c : EvidenceCall) → Except String c.Result) : Prop :=
  ∀ c, Both c.Shows (answer c) (answer' c)

/-- The order of a map does not depend on its values. -/
def MapOrder.Blind (order : MapOrder) : Prop :=
  ∀ {α β : Type} (f : α → β) (entries : List α),
    order.order (entries.map f) = (order.order entries).map f

/-- Texts joined by line breaks show the lines of each. -/
theorem redactedLines_intercalate (ls : List (List Char)) :
    redactedLines (['\n'].intercalate ls) = ls.flatMap redactedLines := by
  unfold redactedLines
  rw [visibleLines_intercalate, List.map_flatMap]

/-- Entries that show the same, put together. -/
theorem showsText_intercalate {ls ls' : List (List Char)} (h : List.Forall₂ ShowsText ls ls') :
    ShowsText (['\n'].intercalate ls) (['\n'].intercalate ls') := by
  unfold ShowsText
  rw [redactedLines_intercalate, redactedLines_intercalate]
  induction h with
  | nil => rfl
  | cons hl _ ih =>
    rw [List.flatMap_cons, List.flatMap_cons, ih]
    congr 1

/-! ### Credentials -/

/-- Two segments of a line, which may differ in the value of a credential. -/
inductive Segment.Same : Segment → Segment → Prop
  | kept (c : Char) : Same (.kept c) (.kept c)
  | keyed (key value value' : List Char) : Same (.keyed key value) (.keyed key value')
  | bearer (anchor token equals token' equals' : List Char) :
      Same (.bearer anchor token equals) (.bearer anchor token' equals')
  | bearerKeyed (anchor token value token' value' : List Char) :
      Same (.bearerKeyed anchor token value) (.bearerKeyed anchor token' value')

/-- Two lines that differ only in the values of their credentials. -/
def SameLine (a b : List Char) : Prop :=
  ∃ ss ss', goDialect.Scan ss ∧ goDialect.Scan ss' ∧
    a = ss.flatMap Segment.text ∧ b = ss'.flatMap Segment.text ∧ List.Forall₂ Segment.Same ss ss'

/-- Lines that differ in hidden values only are redacted to the same line. -/
theorem redact_sameLine {a b : List Char} (h : SameLine a b) : redact a = redact b := by
  obtain ⟨ss, ss', hscan, hscan', rfl, rfl, hsame⟩ := h
  rw [redact_eq, redact_eq, Dialect.redact_scan hscan, Dialect.redact_scan hscan']
  clear hscan hscan'
  induction hsame with
  | nil => rfl
  | cons hs _ ih =>
    rw [List.flatMap_cons, List.flatMap_cons, ih]
    cases hs <;> rfl

/-- Texts whose lines differ only in the values of credentials show the same. -/
theorem showsText_of_credentials {a b : List Char}
    (h : List.Forall₂ SameLine (visibleLines a) (visibleLines b)) : ShowsText a b := by
  unfold ShowsText redactedLines
  generalize visibleLines a = ls at h ⊢
  generalize visibleLines b = ls' at h ⊢
  induction h with
  | nil => rfl
  | cons hl _ ih => rw [List.map_cons, List.map_cons, ih, redact_sameLine hl]

/-! ### The logs of Loki -/

/-- The lines of a pod show the same. -/
def ShowsLines (a b : String × List (List Char)) : Prop :=
  a.1 = b.1 ∧ List.Forall₂ ShowsText a.2 b.2

/-- Alike lines added to a pod leave alike pods. -/
theorem addLines_shows {podName : String} {lines lines' : List (List Char)}
    {byPod byPod' : List (String × List (List Char))} (hlines : List.Forall₂ ShowsText lines lines')
    (h : List.Forall₂ ShowsLines byPod byPod') :
    List.Forall₂ ShowsLines (addLines podName lines byPod) (addLines podName lines' byPod') := by
  induction h with
  | nil =>
    cases hlines with
    | nil => exact .nil
    | cons hl hls => exact .cons ⟨rfl, .cons hl hls⟩ .nil
  | @cons a b rest rest' hab _ ih =>
    obtain ⟨name, found⟩ := a
    obtain ⟨name', found'⟩ := b
    obtain ⟨rfl, hfound⟩ : name = name' ∧ List.Forall₂ ShowsText found found' := hab
    unfold addLines
    by_cases hname : name = podName
    · rw [if_pos hname, if_pos hname]
      exact .cons ⟨rfl, List.rel_append hfound hlines⟩ ‹_›
    · rw [if_neg hname, if_neg hname]
      exact .cons ⟨rfl, hfound⟩ ih

/-- Alike streams are sorted into alike pods. -/
theorem logsByPod_shows (fallbackName : String) {streams streams' : List LokiStream}
    (h : List.Forall₂ LokiStream.Shows streams streams') :
    List.Forall₂ ShowsLines (logsByPod fallbackName streams) (logsByPod fallbackName streams') := by
  have hrun : ∀ byPod byPod', List.Forall₂ ShowsLines byPod byPod' → List.Forall₂ ShowsLines
      (streams.foldl (fun byPod s => addLines (podName fallbackName s.stream) (entryTexts s.values)
        byPod) byPod)
      (streams'.foldl (fun byPod s => addLines (podName fallbackName s.stream)
        (entryTexts s.values) byPod) byPod') := by
    induction h with
    | nil => exact fun _ _ h => h
    | cons hs _ ih =>
      intro byPod byPod' hbyPod
      apply ih
      dsimp only
      rw [hs.1]
      exact addLines_shows hs.2 hbyPod
  exact hrun [] [] .nil

/-- Lists that are related are two sides of a list of pairs. -/
theorem exists_pairs {α : Type} {r : α → α → Prop} {as bs : List α} (h : List.Forall₂ r as bs) :
    ∃ pairs : List {p : α × α // r p.1 p.2},
      as = pairs.map (fun p => p.1.1) ∧ bs = pairs.map fun p => p.1.2 := by
  induction h with
  | nil => exact ⟨[], rfl, rfl⟩
  | @cons a b _ _ hab _ ih =>
    obtain ⟨pairs, rfl, rfl⟩ := ih
    exact ⟨⟨(a, b), hab⟩ :: pairs, rfl, rfl⟩

/-- A map that is walked through in a blind order. -/
theorem MapOrder.Blind.related {order : MapOrder} (hblind : order.Blind) {α : Type}
    {r : α → α → Prop} {as bs : List α} (h : List.Forall₂ r as bs) :
    List.Forall₂ r (order.order as) (order.order bs) := by
  obtain ⟨pairs, rfl, rfl⟩ := exists_pairs h
  rw [hblind, hblind, List.forall₂_map_left_iff, List.forall₂_map_right_iff, List.forall₂_same]
  exact fun p _ => p.2

/-- Alike answers of Loki are parsed to alike logs, in the same order of pods. -/
theorem parseLokiLogs_shows {order : MapOrder} (hblind : order.Blind) (fallbackName : String)
    {streams streams' : List LokiStream} (h : List.Forall₂ LokiStream.Shows streams streams') :
    List.Forall₂ PodLog.Shows (parseLokiLogs order fallbackName streams)
      (parseLokiLogs order fallbackName streams') := by
  unfold parseLokiLogs
  have hbyPod := hblind.related (logsByPod_shows fallbackName h)
  generalize order.order (logsByPod fallbackName streams) = byPod at hbyPod ⊢
  generalize order.order (logsByPod fallbackName streams') = byPod' at hbyPod ⊢
  have hmap : List.Forall₂ PodLog.Shows
      (byPod.map fun p => (⟨p.1, ['\n'].intercalate p.2⟩ : PodLog))
      (byPod'.map fun p => (⟨p.1, ['\n'].intercalate p.2⟩ : PodLog)) := by
    rw [List.forall₂_map_left_iff, List.forall₂_map_right_iff]
    exact hbyPod.imp fun p q hpq => ⟨hpq.1, showsText_intercalate hpq.2⟩
  cases hbyPod with
  | nil => exact .cons ⟨rfl, rfl⟩ .nil
  | cons _ _ => exact hmap

/-! ### The lines of a bundle -/

/-- What the loop over the lines does with a redacted line. -/
def scanRedacted (maxLines : ℤ) (podName : String) (s : LogScan) (redacted : List Char) : LogScan :=
  if maxLines ≤ s.lines.length then { s with truncated := true }
  else
    let cls := classifyLogLine redacted
    { lines := s.lines ++ [.log podName redacted cls]
      errorCount := s.errorCount + if cls = .error then 1 else 0
      stackTraceCount := s.stackTraceCount + if isStackTrace redacted then 1 else 0
      truncated := s.truncated
      patterns := countPattern (normalizeLogPattern redacted) s.patterns }

/-- A line is redacted before anything else is done with it. -/
theorem scanLine_eq (maxLines : ℤ) (podName : String) (s : LogScan) (line : List Char) :
    scanLine maxLines podName s line =
      if Go.trimSpace line = [] then s
      else scanRedacted maxLines podName s (redact (Go.trimSpace line)) := rfl

/-- The scan of a text reads its redacted lines only. -/
theorem foldl_scanLine (maxLines : ℤ) (podName : String) (text : List Char) (s : LogScan) :
    (text.splitOn '\n').foldl (scanLine maxLines podName) s =
      (redactedLines text).foldl (scanRedacted maxLines podName) s := by
  unfold redactedLines visibleLines
  induction text.splitOn '\n' generalizing s with
  | nil => rfl
  | cons line lines ih =>
    rw [List.foldl_cons, ih, scanLine_eq, List.map_cons]
    by_cases hblank : Go.trimSpace line = []
    · simp [hblank]
    · simp [hblank]

/-- Alike logs are scanned to the same samples and counts. -/
theorem scanLogs_shows (maxLines : ℤ) {logs logs' : List PodLog}
    (h : List.Forall₂ PodLog.Shows logs logs') :
    scanLogs maxLines logs = scanLogs maxLines logs' := by
  unfold scanLogs
  generalize ({} : LogScan) = s
  induction h generalizing s with
  | nil => rfl
  | cons hlog _ ih =>
    obtain ⟨hname, htext⟩ := hlog
    rw [List.foldl_cons, List.foldl_cons, foldl_scanLine, foldl_scanLine, hname, htext]
    exact ih _

/-- The bundle of some logs is that of what they show, and so are its patterns. -/
theorem logsBundle_shows (order : MapOrder) (scope : Scope) (start stop : Go.Time) (maxLines : ℤ)
    {logs logs' : List PodLog} (h : List.Forall₂ PodLog.Shows logs logs') :
    logsBundle order scope start stop logs maxLines =
      logsBundle order scope start stop logs' maxLines := by
  unfold logsBundle
  rw [scanLogs_shows maxLines h]

/-- Alike configurations are reported by the same keys. -/
theorem runtimeConfigs_shows (scope : Scope) (start stop : Go.Time) (limit : ℤ)
    {configs configs' : List StoredConfig} (h : List.Forall₂ StoredConfig.Shows configs configs') :
    Preprocess.runtimeConfigs scope start stop configs limit =
      Preprocess.runtimeConfigs scope start stop configs' limit := by
  have hsanitized : (configs.map fun c =>
        Sample.config c.id c.type (sanitizeRuntimeConfig storedNumbers c.type c.data)) =
      configs'.map fun c =>
        Sample.config c.id c.type (sanitizeRuntimeConfig storedNumbers c.type c.data) := by
    induction h with
    | nil => rfl
    | cons hc _ ih =>
      obtain ⟨hid, htype, hdata⟩ := hc
      rw [List.map_cons, List.map_cons, ih, hid, hdata, htype]
  unfold Preprocess.runtimeConfigs
  rw [hsanitized, h.length_eq]

/-! ### Evidence -/

variable {answer answer' : (c : EvidenceCall) → Except String c.Result} {cfg : Config}
  {order : MapOrder} {ctx : Option Claims}

/-- Public calls have the same answers. -/
theorem Shows.eq (h : Shows answer answer') (c : EvidenceCall) (hc : c.Public) :
    answer c = answer' c := by
  have hboth := h c
  cases c with
  | podLog => exact hc.elim
  | queryLogs => exact hc.elim
  | storedConfigs => exact hc.elim
  | _ => exact hboth.eq

/-- A program of public calls has the same outcome over alike backends. -/
theorem Shows.eval_eq (h : Shows answer answer') {α : Type} {p : EvidenceProg α}
    (hp : p.Calls EvidenceCall.Public) : p.eval answer = p.eval answer' :=
  Prog.eval_congr hp h.eq

theorem Shows.perform (h : Shows answer answer') (c : EvidenceCall) :
    Both c.Shows ((Prog.perform c : EvidenceProg c.Result).eval answer)
      ((Prog.perform c : EvidenceProg c.Result).eval answer') := by
  rw [Prog.eval_perform, Prog.eval_perform]
  exact h c

/-- A collection whose bundle is that of what has been collected. -/
theorem collect_shows {α : Type} {V : α → α → Prop} {source : Source} {s : ScopedContext}
    {p : EvidenceProg α} {bundle : α → Bundle} (hp : Both V (p.eval answer) (p.eval answer'))
    (hbundle : ∀ a b, V a b → bundle a = bundle b) :
    (collect source s p bundle).eval answer = (collect source s p bundle).eval answer' := by
  have hboth : Both Eq ((collect source s p bundle).eval answer)
      ((collect source s p bundle).eval answer') := by
    apply Prog.both_tryCatch
    · exact Prog.both_bind hp hbundle
    · exact fun _ => rfl
  exact hboth.eq

/-- The logs of the pods are collected alike, or fail alike. -/
theorem podLogs_shows (h : Shows answer answer') («namespace» : String) (since : Go.Time)
    (tailLines : ℤ) (pods : List K8sPod) :
    Both (List.Forall₂ PodLog.Shows)
      ((KubernetesAdapter.podLogs «namespace» since tailLines pods).eval answer)
      ((KubernetesAdapter.podLogs «namespace» since tailLines pods).eval answer') := by
  induction pods with
  | nil => exact .nil
  | cons pod pods ih =>
    have hlog : Both PodLog.Shows
        ((KubernetesAdapter.podLog «namespace» since tailLines pod).eval answer)
        ((KubernetesAdapter.podLog «namespace» since tailLines pod).eval answer') := by
      apply Prog.both_tryCatch
      · apply Prog.both_bind (V := ShowsText)
        · exact h.perform (.podLog «namespace» pod.name tailLines _)
        · exact fun a b hab => ⟨rfl, hab⟩
      · exact fun _ => ⟨rfl, rfl⟩
    apply Prog.both_bind hlog
    intro a b hab
    apply Prog.both_bind ih
    exact fun as bs habs => .cons hab habs

/-- So are the logs of either backend. -/
theorem collectLogs_shows (hblind : order.Blind) (h : Shows answer answer') (s : ScopedContext) :
    Both (List.Forall₂ PodLog.Shows) ((Services.collectLogs cfg order s).eval answer)
      ((Services.collectLogs cfg order s).eval answer') := by
  apply Prog.both_tryCatch
  · unfold queryLogs
    by_cases hurl : cfg.logBackendURL = ""
    · rw [if_pos hurl]
      exact rfl
    · rw [if_neg hurl]
      apply Prog.both_bind (V := List.Forall₂ LokiStream.Shows)
      · exact h.perform (.queryLogs _ _ _ _ _)
      · exact fun a b hab => parseLokiLogs_shows hblind _ hab
  · intro err
    by_cases hcluster : cfg.kubernetes = true
    · rw [if_pos hcluster]
      apply Prog.both_bind (V := Eq)
      · have hpods := h.eval_eq (p := KubernetesAdapter.pods s.context.scope.«namespace»
          s.context.scope.appId s.context.scope.deploymentId) (Prog.calls_perform.mpr trivial)
        rw [hpods]
        exact .refl _
      · rintro pods _ rfl
        exact podLogs_shows h _ _ _ pods
    · rw [if_neg hcluster]
      exact rfl

theorem pods_public («namespace» appId deploymentId : String) :
    (KubernetesAdapter.pods «namespace» appId deploymentId).Calls EvidenceCall.Public :=
  Prog.calls_perform.mpr trivial

theorem tenantTx_public (ctx : Option Claims) :
    (PostgresStore.tenantTx ctx).Calls EvidenceCall.Public := by
  cases ctx with
  | none => trivial
  | some claims => exact Prog.calls_perform.mpr trivial

/-- A query of the store in its transaction. -/
theorem storeQuery_public (ctx : Option Claims) (call : EvidenceCall) (hcall : call.Public) :
    (PostgresStore.tenantTx ctx >>= fun _ =>
      (Prog.perform call : EvidenceProg call.Result)).Calls EvidenceCall.Public :=
  (tenantTx_public ctx).bind fun _ => Prog.calls_perform.mpr hcall

theorem queryAll_public («namespace» deploymentName : String) (start stop : Go.Time)
    (names : List String) :
    (PrometheusAdapter.queryAll «namespace» deploymentName start stop names).Calls
      EvidenceCall.Public := by
  induction names with
  | nil => trivial
  | cons name names ih =>
    apply Prog.Calls.bind
    · have hseries :
          (PrometheusAdapter.querySeries «namespace» deploymentName start stop name).Calls
            EvidenceCall.Public := by
        apply Prog.Calls.tryCatch
        · apply Prog.Calls.bind
          · exact Prog.calls_perform.mpr trivial
          · intro body
            exact Prog.calls_ofExcept.bind fun _ => trivial
        · intro err
          trivial
      exact hseries
    · intro series
      exact ih.bind fun _ => trivial

/-- **The tools** give the same, one case for each tool. -/
theorem evidence_shows (hblind : order.Blind) (h : Shows answer answer') (s : ScopedContext)
    (tool : Tool) :
    (tool.evidence cfg order ctx s).eval answer = (tool.evidence cfg order ctx s).eval answer' := by
  have hbundle : ∀ {p : EvidenceProg Bundle}, p.eval answer = p.eval answer' →
      (p >>= fun b => Prog.ret (ToolResult.bundle b)).eval answer =
        (p >>= fun b => Prog.ret (ToolResult.bundle b)).eval answer' := by
    intro p hp
    rw [Prog.eval_bind, Prog.eval_bind, hp]
    rfl
  cases tool with
  | rcaContext => rfl
  -- what these tools ask for is the same in both worlds
  | deploymentStatus =>
    exact hbundle (h.eval_eq (collectFromCluster_calls (Prog.calls_perform.mpr trivial)))
  | pods => exact hbundle (h.eval_eq (collectFromCluster_calls (pods_public _ _ _)))
  | kubernetesEvents =>
    apply hbundle
    apply h.eval_eq
    apply collectFromCluster_calls
    apply Prog.Calls.bind
    · exact (pods_public _ _ _).tryCatch fun _ => trivial
    · intro found
      exact Prog.Calls.bind (Prog.calls_perform.mpr trivial) fun _ => trivial
  -- what is collected differs, but not in what it shows
  | logs =>
    apply hbundle
    apply collect_shows (collectLogs_shows hblind h s)
    intro a b hab
    rw [logsBundle_shows _ _ _ _ _ hab]
  | metrics =>
    apply hbundle
    apply h.eval_eq
    apply collect_calls
    unfold PrometheusAdapter.queryDeploymentMetrics
    split
    · trivial
    · exact queryAll_public _ _ _ _ _
  | traces =>
    apply hbundle
    apply h.eval_eq
    apply collect_calls
    unfold TempoAdapter.queryDeploymentTraces
    split
    · trivial
    · exact Prog.calls_perform.mpr trivial
  | healthSamples =>
    apply hbundle
    apply h.eval_eq
    exact collect_calls (storeQuery_public ctx (.healthSamples _ _ _ _) trivial)
  -- nor do the stored configs, once they are sanitized
  | runtimeConfigs =>
    apply hbundle
    apply collect_shows (V := List.Forall₂ StoredConfig.Shows)
    · apply Prog.both_bind (V := Eq)
      · rw [h.eval_eq (tenantTx_public ctx)]
        exact .refl _
      · rintro _ _ -
        exact h.perform (.storedConfigs _)
    · exact fun a b hab => runtimeConfigs_shows _ _ _ _ hab
  | recentChanges =>
    apply hbundle
    apply h.eval_eq
    exact collect_calls (storeQuery_public ctx (.recentChanges _ _ _ _) trivial)

/-- The scope is read from the record alone. -/
theorem scopedContext_public (ctx : Option Claims) (req : EvidenceRequest) :
    (scopedContext cfg ctx req).Calls EvidenceCall.Public := by
  unfold scopedContext
  split
  · trivial
  · apply Prog.Calls.bind
    · exact storeQuery_public ctx (.contextRecord _ _) trivial
    · intro record
      split
      · trivial
      · apply Prog.Calls.bind
        · exact Prog.calls_perform.mpr trivial
        · intro now
          exact Prog.calls_ofExcept.bind fun _ => trivial

/-! ### Requests -/

/-- A tool answers the same over alike backends. -/
theorem call_shows (hblind : order.Blind) (h : Shows answer answer') (name : String)
    (arguments : List (String × Json String)) :
    (Registry.call cfg order ctx name arguments).eval answer =
      (Registry.call cfg order ctx name arguments).eval answer' := by
  unfold Registry.call
  cases Tool.all.find? fun tool => tool.name = name with
  | none => rfl
  | some tool =>
    cases evidenceRequest arguments with
    | error message => rfl
    | ok req =>
      show ((scopedContext cfg ctx req >>= fun s => tool.evidence cfg order ctx s).eval answer) =
        (scopedContext cfg ctx req >>= fun s => tool.evidence cfg order ctx s).eval answer'
      rw [Prog.eval_bind, Prog.eval_bind, h.eval_eq (scopedContext_public ctx req)]
      congr 1
      funext s
      exact evidence_shows hblind h s tool

theorem dispatch_shows (hblind : order.Blind) (h : Shows answer answer') (req : RpcRequest) :
    (dispatch cfg order ctx req).eval answer = (dispatch cfg order ctx req).eval answer' := by
  have hcall : (toolsCall cfg order ctx req).eval answer =
      (toolsCall cfg order ctx req).eval answer' := by
    unfold toolsCall
    cases decodeParams req.params with
    | error message => rfl
    | ok params =>
      cases ctx with
      | none => rfl
      | some claims =>
        dsimp only
        split
        · apply Both.eq
          apply Prog.both_tryCatch
          · apply Prog.both_bind (V := Eq)
            · rw [call_shows hblind h]
              exact .refl _
            · rintro result _ rfl
              exact rfl
          · exact fun _ => rfl
        · rfl
  unfold dispatch
  split
  · rfl
  · split
    · rfl
    · split
      · exact hcall
      · rfl

/-- **The evidence server** answers a request alike. -/
theorem serveHTTP_shows (hblind : order.Blind) (h : Shows answer answer')
    (body : Option (Json String)) :
    (serveHTTP cfg order ctx body).eval answer = (serveHTTP cfg order ctx body).eval answer' := by
  unfold serveHTTP
  split
  · rfl
  · rw [Prog.eval_bind, Prog.eval_bind, dispatch_shows hblind h]
    rfl

/-! ### Investigations -/

/-- The surroundings of a step show the same. -/
structure Surroundings.Shows (x x' : Surroundings) : Prop where
  failure : x.failure = x'.failure
  now : x.now = x'.now
  answers : NexCause.Shows x.answers x'.answers
  id : x.id = x'.id
  text : x.text = x'.text

namespace RcaAgent

variable {w : Wire} {secret : String}

/-- So does the server, to every call of the agent. -/
theorem overHttp_shows (hblind : order.Blind) {x x' : Surroundings} (h : x.Shows x')
    (c : GraphCall String) (s : Unit) :
    overHttp w secret cfg order c x s = overHttp w secret cfg order c x' s := by
  cases c with
  | invoke message =>
    show (x.text, s) = (x'.text, s)
    rw [h.text]
  | post token method params =>
    show (exchange w secret cfg order token method params x, s) =
      (exchange w secret cfg order token method params x', s)
    have hserve : ∀ ctx body, (serveHTTP cfg order ctx body).eval x.answers =
        (serveHTTP cfg order ctx body).eval x'.answers :=
      fun _ _ => serveHTTP_shows hblind h.answers _
    unfold exchange
    rw [h.failure, h.now, h.id]
    simp only [hserve]

/-- **An investigation cannot tell** two worlds apart that show the same, the counts
of patterns among its evidence included; and texts show the same if they differ
only in the values of credentials. -/
theorem investigation_shows [Python.Reading String] (w : Wire) (secret : String) (cfg : Config)
    (order : MapOrder) (started : ℤ) (job : RunJob) (hasModel : Bool) (generatedAt : String)
    (env env' : ℕ → Surroundings) (hblind : order.Blind) (h : ∀ n, (env n).Shows (env' n)) :
    (runGraph secret hasModel started generatedAt job).run (overHttp w secret cfg order) env () =
      (runGraph secret hasModel started generatedAt job).run (overHttp w secret cfg order) env' () ∧
    (∀ scope start stop maxLines logs logs', List.Forall₂ PodLog.Shows logs logs' →
      logsBundle order scope start stop logs maxLines =
        logsBundle order scope start stop logs' maxLines) ∧
    ∀ a b, List.Forall₂ SameLine (visibleLines a) (visibleLines b) → ShowsText a b := by
  refine ⟨?_, ?_, ?_⟩
  · exact Prog.run_congr fun n c s => overHttp_shows hblind (h n) c s
  · exact fun scope start stop maxLines _ _ hlogs => logsBundle_shows order scope start stop _ hlogs
  · exact fun _ _ => showsText_of_credentials

/-- The backends of a deployment that logs its password. -/
def careless (password : String) : (c : EvidenceCall) → Except String c.Result
  | .queryLogs _ _ _ _ _ =>
      .ok [⟨[("pod", "app-1")], [["0".toList, ("login failed, password=" ++ password).toList]]⟩]
  | c => answersOf sampleBackend c

/-- Two backends whose logs differ in a password are alike. -/
theorem careless_shows : NexCause.Shows (careless "hunter2") (careless "swordfish") := by
  intro c
  cases c with
  | queryLogs =>
    have htext : ShowsText ("login failed, password=" ++ "hunter2").toList
        ("login failed, password=" ++ "swordfish").toList := by
      unfold ShowsText
      decide +kernel
    exact .cons ⟨rfl, .cons htext .nil⟩ .nil
  | podLog => exact rfl
  | storedConfigs => exact .nil
  | _ => exact .refl _

def carelessSurroundings (password : String) : Surroundings where
  now := 1000
  answers := careless password
  id := 1
  text := .error (.transport "no model")
  idFits := sampleSurroundings.idFits
  found h _ := answersOf_found h

theorem carelessSurroundings_shows :
    (carelessSurroundings "hunter2").Shows (carelessSurroundings "swordfish") where
  failure := rfl
  now := rfl
  answers := careless_shows
  id := rfl
  text := rfl

theorem investigation_shows_sample :
    (runGraph sampleSecret false 950 "now" sampleJob).run (overHttp sampleWire sampleSecret
        { defaultConfig with logBackendURL := "http://loki" } MapOrder.insertion)
        (fun _ => carelessSurroundings "hunter2") () =
      (runGraph sampleSecret false 950 "now" sampleJob).run (overHttp sampleWire sampleSecret
        { defaultConfig with logBackendURL := "http://loki" } MapOrder.insertion)
        (fun _ => carelessSurroundings "swordfish") () :=
  (investigation_shows sampleWire sampleSecret { defaultConfig with logBackendURL := "http://loki" }
    MapOrder.insertion 950 sampleJob false "now" _ _ (fun _ _ => rfl)
    fun _ => carelessSurroundings_shows).1

end RcaAgent

end NexCause
