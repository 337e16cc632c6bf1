/-
NexCause/PodLogs.lean

The logs of the pods in an answer of Loki: `parseLokiLogs` gathers the lines of
the streams by pod, stream after stream, and drops their times.

Main result: there is one log for each pod, with its lines in order of time,
exactly if each pod has an entry and its lines read in order as the streams come
(`parsed_logs_iff`).  Lines that differ read so exactly if the streams of the pod
follow one another in time (`inOrder_iff_follow`).
-/
import NexCause.Adapters
import NexCause.Grammars
import NexCause.Selections

namespace NexCause.LogBackendAdapter

open Selection

/-! ### What an answer holds -/

/-- The lines of an entry, several if its text has line breaks, with its time in
nanoseconds; a value that is not a pair is no entry. -/
def timedLines : List (List Char) → List (ℕ × List Char)
  | [timestamp, text] =>
      (text.splitOn '\n').map fun line => (Nat.ofDigitChars 10 timestamp 0, line)
  | _ => []

def streamPod (fallbackName : String) (s : LokiStream) : String := podName fallbackName s.stream

/-- The lines of a pod, stream after stream. -/
def podLines (fallbackName : String) (streams : List LokiStream) (name : String) :
    List (ℕ × List Char) :=
  (streams.filter (streamPod fallbackName · = name)).flatMap (·.values.flatMap timedLines)

/-- The entries of a stream come in ascending order. -/
def Ascending (s : LokiStream) : Prop :=
  (s.values.flatMap timedLines).Pairwise fun a b => a.1 ≤ b.1

/-- The pods of an answer; one without streams falls back as well. -/
def resolvedNames (fallbackName : String) (streams : List LokiStream) : List String :=
  if streams = [] then [fallbackName] else (streams.map (streamPod fallbackName)).dedup

def HasEntry (fallbackName : String) (streams : List LokiStream) (name : String) : Prop :=
  ∃ s ∈ streams, streamPod fallbackName s = name ∧ ∃ value ∈ s.values, value.length = 2

/-- There is one log for each pod, and it lists the lines of the pod in order of time. -/
structure ListsByTime (fallbackName : String) (streams : List LokiStream) (logs : List PodLog) :
    Prop where
  names : (logs.map PodLog.podName).Perm (resolvedNames fallbackName streams)
  lines : ∀ log ∈ logs, ∃ listed : List (ℕ × List Char),
    listed.Perm (podLines fallbackName streams log.podName) ∧
    listed.Pairwise (fun a b => a.1 ≤ b.1) ∧
    log.logs = ['\n'].intercalate (listed.map Prod.snd)

/-- The lines read in order as they stand. -/
def InOrder (lines : List (ℕ × List Char)) : Prop := ReadsByTime Prod.fst Prod.snd lines

/-! ### Gathering -/

def podTexts (fallbackName : String) (streams : List LokiStream) (name : String) :
    List (List Char) :=
  (streams.filter (streamPod fallbackName · = name)).flatMap (entryTexts ·.values)

/-- The lines that were gathered for a pod. -/
def linesOf (name : String) (byPod : List (String × List (List Char))) : List (List Char) :=
  (byPod.filter (·.1 = name)).flatMap Prod.snd

/-- Each pod was gathered once, with the texts it has, which are some. -/
structure Gathered (texts : String → List (List Char)) (byPod : List (String × List (List Char))) :
    Prop where
  nodup : (byPod.map Prod.fst).Nodup
  nonempty : ∀ e ∈ byPod, e.2 ≠ []
  lines : ∀ name, linesOf name byPod = texts name

variable {pod name : String} {new : List (List Char)} {byPod : List (String × List (List Char))}

theorem linesOf_eq_nil (h : name ∉ byPod.map Prod.fst) : linesOf name byPod = [] := by
  have hnone : byPod.filter (·.1 = name) = [] := by
    rw [List.filter_eq_nil_iff]
    intro e he hname
    exact h (List.mem_map.mpr ⟨e, he, of_decide_eq_true hname⟩)
  unfold linesOf
  rw [hnone, List.flatMap_nil]

theorem linesOf_cons (e : String × List (List Char)) :
    linesOf name (e :: byPod) = (if e.1 = name then e.2 else []) ++ linesOf name byPod := by
  unfold linesOf
  by_cases hname : e.1 = name
  · simp [hname]
  · simp [hname]

theorem mem_names_addLines (h : name ∈ (addLines pod new byPod).map Prod.fst) :
    name = pod ∨ name ∈ byPod.map Prod.fst := by
  induction byPod with
  | nil =>
    unfold addLines at h
    split at h
    · exact absurd h List.not_mem_nil
    · exact .inl (List.mem_singleton.mp h)
  | cons e rest ih =>
    unfold addLines at h
    split at h
    · exact .inr h
    · rw [List.map_cons, List.mem_cons] at h
      rcases h with rfl | h
      · exact .inr List.mem_cons_self
      · exact (ih h).imp_right (List.mem_cons_of_mem _)

theorem nodup_addLines (h : (byPod.map Prod.fst).Nodup) :
    ((addLines pod new byPod).map Prod.fst).Nodup := by
  induction byPod with
  | nil =>
    unfold addLines
    split
    · exact List.nodup_nil
    · exact List.nodup_singleton _
  | cons e rest ih =>
    obtain ⟨hnew, hrest⟩ := List.nodup_cons.mp h
    unfold addLines
    split
    · exact h
    · rename_i hne
      refine List.nodup_cons.mpr ⟨fun hmem => ?_, ih hrest⟩
      rcases mem_names_addLines hmem with heq | hmem
      · exact hne heq
      · exact hnew hmem

theorem nonempty_addLines (h : ∀ e ∈ byPod, e.2 ≠ []) :
    ∀ e ∈ addLines pod new byPod, e.2 ≠ [] := by
  induction byPod with
  | nil =>
    unfold addLines
    split
    · exact h
    · rename_i hnew
      intro e he
      rwa [List.mem_singleton.mp he]
  | cons e rest ih =>
    obtain ⟨he, hrest⟩ := List.forall_mem_cons.mp h
    unfold addLines
    split
    · exact List.forall_mem_cons.mpr ⟨fun hnil => he (List.append_eq_nil_iff.mp hnil).1, hrest⟩
    · exact List.forall_mem_cons.mpr ⟨he, ih hrest⟩

/-- The new lines come behind those of their pod. -/
theorem linesOf_addLines (h : (byPod.map Prod.fst).Nodup) :
    linesOf name (addLines pod new byPod) =
      linesOf name byPod ++ if pod = name then new else [] := by
  induction byPod with
  | nil =>
    unfold addLines
    split
    · rename_i hnew
      simp [hnew]
    · rw [linesOf_cons]
      exact List.append_nil _
  | cons e rest ih =>
    obtain ⟨hnew, hrest⟩ := List.nodup_cons.mp h
    unfold addLines
    split
    · rename_i hpod
      rw [linesOf_cons, linesOf_cons]
      by_cases hname : e.1 = name
      · -- no entry behind has the name
        have hnone : linesOf name rest = [] := linesOf_eq_nil (hname ▸ hnew)
        simp [hname, hpod.symm.trans hname, hnone]
      · have hne : pod ≠ name := fun heq => hname (hpod.trans heq)
        simp [hname, hne]
    · rw [linesOf_cons, linesOf_cons, ih hrest, List.append_assoc]

theorem Gathered.addLines {texts : String → List (List Char)} (h : Gathered texts byPod)
    (pod : String) (new : List (List Char)) :
    Gathered (fun name => texts name ++ if pod = name then new else [])
      (LogBackendAdapter.addLines pod new byPod) where
  nodup := nodup_addLines h.nodup
  nonempty := nonempty_addLines h.nonempty
  lines name := by rw [linesOf_addLines h.nodup, h.lines]

/-- What was gathered of the streams. -/
theorem logsByPod_gathered (fallbackName : String) (streams : List LokiStream) :
    Gathered (podTexts fallbackName streams) (logsByPod fallbackName streams) := by
  -- induction on the streams, for what was gathered before
  have hrun : ∀ (texts : String → List (List Char)) (byPod : List (String × List (List Char))),
      Gathered texts byPod →
      Gathered (fun name => texts name ++ podTexts fallbackName streams name)
        (streams.foldl (fun byPod s => LogBackendAdapter.addLines (podName fallbackName s.stream)
          (entryTexts s.values) byPod) byPod) := by
    induction streams with
    | nil =>
      intro texts byPod h
      have htexts : (fun name => texts name ++ podTexts fallbackName [] name) = texts := by
        funext name
        exact List.append_nil _
      rw [htexts]
      exact h
    | cons s streams ih =>
      intro texts byPod h
      have hstep := ih _ _ (h.addLines (podName fallbackName s.stream) (entryTexts s.values))
      have htexts : (fun name => texts name ++ podTexts fallbackName (s :: streams) name) =
          fun name => (texts name ++ if podName fallbackName s.stream = name then
            entryTexts s.values else []) ++ podTexts fallbackName streams name := by
        funext name
        unfold podTexts streamPod
        -- the stream is of this pod, or of another
        by_cases hname : podName fallbackName s.stream = name
        · simp [hname]
        · simp [hname]
      rw [htexts]
      exact hstep
  have hempty : Gathered (fun _ => []) [] :=
    ⟨List.nodup_nil, fun _ he => absurd he List.not_mem_nil, fun _ => rfl⟩
  exact hrun _ _ hempty

theorem Gathered.mem_iff {texts : String → List (List Char)} (h : Gathered texts byPod)
    {lines : List (List Char)} : (name, lines) ∈ byPod ↔ lines = texts name ∧ lines ≠ [] := by
  have heq : ∀ ls, (name, ls) ∈ byPod → linesOf name byPod = ls := by
    intro ls hmem
    have hall : byPod.filter (·.1 = name) = [(name, ls)] := by
      obtain ⟨before, after, rfl⟩ := List.append_of_mem hmem
      have hnodup := h.nodup
      rw [List.map_append, List.map_cons, List.nodup_append, List.nodup_cons] at hnodup
      obtain ⟨-, ⟨hafter, -⟩, hbefore⟩ := hnodup
      have hnone : ∀ es : List (String × List (List Char)), (∀ e ∈ es, e.1 ≠ name) →
          es.filter (·.1 = name) = [] := by
        intro es hes
        rw [List.filter_eq_nil_iff]
        exact fun e he => by simpa using hes e he
      rw [List.filter_append, List.filter_cons_of_pos (by simp), hnone before, hnone after]
      · rfl
      · intro e he hname
        exact hafter (List.mem_map.mpr ⟨e, he, hname⟩)
      · intro e he
        exact hbefore e.1 (List.mem_map_of_mem he) name List.mem_cons_self
    unfold linesOf
    rw [hall, List.flatMap_singleton]
  constructor
  · intro hmem
    exact ⟨(heq lines hmem).symm.trans (h.lines name), h.nonempty _ hmem⟩
  · rintro ⟨rfl, hne⟩
    -- some lines were gathered, so the pod is there
    rw [← h.lines name] at hne
    have hpod : name ∈ byPod.map Prod.fst := by
      by_contra habsent
      exact hne (linesOf_eq_nil habsent)
    obtain ⟨⟨_, ls⟩, hmem, rfl⟩ := List.mem_map.mp hpod
    rw [← h.lines, heq ls hmem]
    exact hmem

/-! ### The logs -/

section Logs

variable {order : MapOrder} {fallbackName : String} {streams : List LokiStream} {log : PodLog}

theorem podTexts_ne_nil_iff :
    podTexts fallbackName streams name ≠ [] ↔ HasEntry fallbackName streams name := by
  have htexts : ∀ values : List (List (List Char)),
      (∃ text, text ∈ entryTexts values) ↔ ∃ value ∈ values, value.length = 2 := by
    intro values
    constructor
    · rintro ⟨text, htext⟩
      obtain ⟨value, hvalue, hsome⟩ := List.mem_filterMap.mp htext
      split at hsome
      · exact ⟨value, hvalue, ‹_›⟩
      · exact absurd hsome (Option.some_ne_none text).symm
    · rintro ⟨value, hvalue, hlength⟩
      have hlt : 1 < value.length := by omega
      refine ⟨value[1], List.mem_filterMap.mpr ⟨value, hvalue, ?_⟩⟩
      rw [if_pos hlength, List.getElem?_eq_getElem]
  constructor
  · intro hne
    obtain ⟨text, htext⟩ := List.exists_mem_of_ne_nil _ hne
    obtain ⟨s, hs, htext⟩ := List.mem_flatMap.mp htext
    obtain ⟨hs, hname⟩ := List.mem_filter.mp hs
    exact ⟨s, hs, of_decide_eq_true hname, (htexts s.values).mp ⟨text, htext⟩⟩
  · rintro ⟨s, hs, hname, hvalue⟩ hnil
    obtain ⟨text, htext⟩ := (htexts s.values).mpr hvalue
    have hmem : text ∈ podTexts fallbackName streams name :=
      List.mem_flatMap.mpr ⟨s, List.mem_filter.mpr ⟨hs, decide_eq_true hname⟩, htext⟩
    rw [hnil] at hmem
    exact List.not_mem_nil hmem

theorem mem_names_logsByPod :
    name ∈ (logsByPod fallbackName streams).map Prod.fst ↔ HasEntry fallbackName streams name := by
  have hgathered := logsByPod_gathered fallbackName streams
  rw [← podTexts_ne_nil_iff]
  constructor
  · intro hname
    obtain ⟨⟨_, lines⟩, hmem, rfl⟩ := List.mem_map.mp hname
    obtain ⟨rfl, hne⟩ := hgathered.mem_iff.mp hmem
    exact hne
  · intro hne
    exact List.mem_map.mpr ⟨_, hgathered.mem_iff.mpr ⟨rfl, hne⟩, rfl⟩

/-- Without well-formed entries there is one log, and it is empty. -/
theorem parseLokiLogs_of_nil (h : logsByPod fallbackName streams = []) :
    parseLokiLogs order fallbackName streams = [⟨fallbackName, []⟩] := by
  have hnil : order.order ([] : List (String × List (List Char))) = [] := (order.perm []).eq_nil
  unfold parseLokiLogs
  rw [h, hnil]

theorem parseLokiLogs_of_ne_nil (h : logsByPod fallbackName streams ≠ []) :
    parseLokiLogs order fallbackName streams =
      (order.order (logsByPod fallbackName streams)).map fun e =>
        ⟨e.1, ['\n'].intercalate e.2⟩ := by
  unfold parseLokiLogs
  split
  · rename_i hnil
    have hperm := order.perm (logsByPod fallbackName streams)
    rw [hnil] at hperm
    exact absurd hperm.symm.eq_nil h
  · rfl

/-- The text of a log: the lines of its pod, stream after stream. -/
theorem log_text (h : log ∈ parseLokiLogs order fallbackName streams) :
    log.logs = ['\n'].intercalate (podTexts fallbackName streams log.podName) := by
  by_cases hnil : logsByPod fallbackName streams = []
  · rw [parseLokiLogs_of_nil hnil, List.mem_singleton] at h
    have hnone : podTexts fallbackName streams fallbackName = [] := by
      have hlines := (logsByPod_gathered fallbackName streams).lines fallbackName
      rw [hnil] at hlines
      exact hlines.symm
    rw [h, hnone]
    rfl
  · rw [parseLokiLogs_of_ne_nil hnil, List.mem_map] at h
    obtain ⟨⟨name, lines⟩, hmem, rfl⟩ := h
    obtain ⟨rfl, -⟩ := (logsByPod_gathered fallbackName streams).mem_iff.mp
      ((order.perm _).mem_iff.mp hmem)
    rfl

/-- The names of the logs: the pods with an entry, or the name to fall back on. -/
theorem log_names :
    ((parseLokiLogs order fallbackName streams).map PodLog.podName).Perm
      (if logsByPod fallbackName streams = [] then [fallbackName]
        else (logsByPod fallbackName streams).map Prod.fst) := by
  split
  · rename_i hnil
    rw [parseLokiLogs_of_nil hnil]
    exact .refl _
  · rename_i hne
    rw [parseLokiLogs_of_ne_nil hne, List.map_map]
    exact (order.perm _).map Prod.fst

/-- **The pods that have a log.** -/
theorem log_names_iff :
    ((parseLokiLogs order fallbackName streams).map PodLog.podName).Perm
        (resolvedNames fallbackName streams) ↔
      (∀ s ∈ streams, HasEntry fallbackName streams (streamPod fallbackName s)) ∨
        ∀ s ∈ streams, streamPod fallbackName s = fallbackName := by
  rw [log_names.congr_left]
  have hpods : ∀ name, HasEntry fallbackName streams name →
      name ∈ streams.map (streamPod fallbackName) := by
    rintro name ⟨s, hs, rfl, -⟩
    exact List.mem_map_of_mem hs
  by_cases hstreams : streams = []
  · subst hstreams
    exact iff_of_true (.refl _) (.inl fun _ hs => absurd hs List.not_mem_nil)
  · unfold resolvedNames
    rw [if_neg hstreams]
    split
    · rename_i hnil
      have hnone : ∀ name, ¬HasEntry fallbackName streams name := by
        intro name hentry
        have hmem := mem_names_logsByPod.mpr hentry
        rw [hnil] at hmem
        exact List.not_mem_nil hmem
      rw [List.perm_ext_iff_of_nodup (List.nodup_singleton _) (List.nodup_dedup _)]
      obtain ⟨s₀, hs₀⟩ := List.exists_mem_of_ne_nil _ hstreams
      constructor
      · intro hsame
        right
        intro s hs
        exact List.mem_singleton.mp
          ((hsame _).mpr (List.mem_dedup.mpr (List.mem_map_of_mem hs)))
      · rintro (hall | hall) name
        · exact absurd (hall s₀ hs₀) (hnone _)
        · rw [List.mem_singleton, List.mem_dedup, List.mem_map]
          constructor
          · rintro rfl
            exact ⟨s₀, hs₀, hall s₀ hs₀⟩
          · rintro ⟨s, hs, rfl⟩
            exact hall s hs
    · rename_i hne
      rw [List.perm_ext_iff_of_nodup (logsByPod_gathered fallbackName streams).nodup
        (List.nodup_dedup _)]
      constructor
      · intro hsame
        left
        intro s hs
        exact mem_names_logsByPod.mp ((hsame _).mpr (List.mem_dedup.mpr (List.mem_map_of_mem hs)))
      · intro hall name
        rw [mem_names_logsByPod, List.mem_dedup]
        refine ⟨hpods name, fun hname => ?_⟩
        obtain ⟨s, hs, rfl⟩ := List.mem_map.mp hname
        rcases hall with hall | hall
        · exact hall s hs
        · -- some pod has an entry, and all are the name to fall back on
          obtain ⟨e, he⟩ := List.exists_mem_of_ne_nil _ hne
          have hentry := mem_names_logsByPod.mp (List.mem_map_of_mem he)
          obtain ⟨t, ht, hpod⟩ := List.mem_map.mp (hpods _ hentry)
          have hsame : e.1 = streamPod fallbackName s :=
            hpod.symm.trans ((hall t ht).trans (hall s hs).symm)
          rwa [hsame] at hentry

/-! ### The order of the lines -/

theorem map_timedLines (values : List (List (List Char))) :
    (values.flatMap timedLines).map Prod.snd = (entryTexts values).flatMap (·.splitOn '\n') := by
  induction values with
  | nil => rfl
  | cons value values ih =>
    have hvalue : (timedLines value).map Prod.snd =
        (entryTexts [value]).flatMap (·.splitOn '\n') := by
      unfold timedLines
      split
      · simp [entryTexts]
      · rename_i hpair
        have hlength : value.length ≠ 2 := by
          intro hlength
          obtain ⟨timestamp, text, rfl⟩ := List.length_eq_two.mp hlength
          exact hpair timestamp text rfl
        simp [entryTexts, hlength]
    have hcons : entryTexts (value :: values) = entryTexts [value] ++ entryTexts values :=
      List.filterMap_append (l := [value])
    rw [List.flatMap_cons, List.map_append, hvalue, ih, hcons, List.flatMap_append]

theorem map_podLines (fallbackName : String) (streams : List LokiStream) (name : String) :
    (podLines fallbackName streams name).map Prod.snd =
      (podTexts fallbackName streams name).flatMap (·.splitOn '\n') := by
  unfold podLines podTexts
  rw [List.map_flatMap, List.flatMap_assoc]
  congr 1
  funext s
  exact map_timedLines s.values

/-- Lines without line breaks are determined by their join, if it is known how
many there are. -/
theorem intercalate_inj {a b : List (List Char)} (ha : ∀ l ∈ a, '\n' ∉ l) (hb : ∀ l ∈ b, '\n' ∉ l)
    (hlength : a.length = b.length) (h : ['\n'].intercalate a = ['\n'].intercalate b) : a = b := by
  by_cases hnil : a = []
  · subst hnil
    exact (List.length_eq_zero_iff.mp hlength.symm).symm
  · have hnil' : b ≠ [] := by
      rintro rfl
      exact hnil (List.length_eq_zero_iff.mp hlength)
    rw [← List.splitOn_intercalate '\n' ha hnil, h, List.splitOn_intercalate '\n' hb hnil']

/-- **The text of a pod lists its lines in order of time.** -/
theorem lists_iff_inOrder :
    (∃ listed : List (ℕ × List Char), listed.Perm (podLines fallbackName streams name) ∧
        listed.Pairwise (fun a b => a.1 ≤ b.1) ∧
        ['\n'].intercalate (podTexts fallbackName streams name) =
          ['\n'].intercalate (listed.map Prod.snd)) ↔
      InOrder (podLines fallbackName streams name) := by
  have htext : ['\n'].intercalate (podTexts fallbackName streams name) =
      ['\n'].intercalate ((podLines fallbackName streams name).map Prod.snd) := by
    rw [map_podLines, Grammar.intercalate_flatMap_splitOn]
  have hbreaks : ∀ l ∈ (podLines fallbackName streams name).map Prod.snd, '\n' ∉ l := by
    intro l hl
    rw [map_podLines] at hl
    obtain ⟨text, -, hl⟩ := List.mem_flatMap.mp hl
    exact Grammar.not_mem_of_mem_splitOn hl
  unfold InOrder
  rw [← exists_sorted_iff, htext]
  refine exists_congr fun listed => and_congr_right fun hperm => and_congr_right fun _ => ?_
  have hrows := hperm.map Prod.snd
  constructor
  · intro h
    exact (intercalate_inj hbreaks (fun l hl => hbreaks l (hrows.mem_iff.mp hl))
      hrows.length_eq.symm h).symm
  · intro h
    rw [h]

/-- Streams that follow one another in time are read in order; if the lines
differ, only these are. -/
theorem inOrder_iff_follow (hascending : ∀ s ∈ streams, Ascending s)
    (hdiffer : ((podLines fallbackName streams name).map Prod.snd).Nodup) :
    InOrder (podLines fallbackName streams name) ↔
      (streams.filter (streamPod fallbackName · = name)).Pairwise fun s t =>
        ∀ a ∈ s.values.flatMap timedLines, ∀ b ∈ t.values.flatMap timedLines, a.1 ≤ b.1 := by
  unfold InOrder podLines at *
  rw [readsByTime_iff_sorted hdiffer, List.pairwise_flatMap]
  exact and_iff_right fun s hs => hascending s (List.mem_of_mem_filter hs)

/-- **One log for each pod, in order of time.** -/
theorem parsed_logs_iff (order : MapOrder) (fallbackName : String) (streams : List LokiStream) :
    ListsByTime fallbackName streams (parseLokiLogs order fallbackName streams) ↔
      ((∀ s ∈ streams, HasEntry fallbackName streams (streamPod fallbackName s)) ∨
        ∀ s ∈ streams, streamPod fallbackName s = fallbackName) ∧
      ∀ s ∈ streams, InOrder (podLines fallbackName streams (streamPod fallbackName s)) := by
  constructor
  · rintro ⟨hnames, hlines⟩
    refine ⟨log_names_iff.mp hnames, fun s hs => ?_⟩
    have hresolved : streamPod fallbackName s ∈ resolvedNames fallbackName streams := by
      unfold resolvedNames
      rw [if_neg (List.ne_nil_of_mem hs), List.mem_dedup]
      exact List.mem_map_of_mem hs
    obtain ⟨log, hlog, hpod⟩ := List.mem_map.mp (hnames.mem_iff.mpr hresolved)
    obtain ⟨listed, hperm, hsorted, htext⟩ := hlines log hlog
    rw [log_text hlog, hpod] at htext
    rw [hpod] at hperm
    exact lists_iff_inOrder.mp ⟨listed, hperm, hsorted, htext⟩
  · rintro ⟨hpods, horder⟩
    refine ⟨log_names_iff.mpr hpods, fun log hlog => ?_⟩
    rw [log_text hlog]
    apply lists_iff_inOrder.mpr
    by_cases hstream : ∃ s ∈ streams, streamPod fallbackName s = log.podName
    · obtain ⟨s, hs, hpod⟩ := hstream
      rw [← hpod]
      exact horder s hs
    · -- no stream is of this pod
      have hnone : podLines fallbackName streams log.podName = [] := by
        unfold podLines
        rw [List.filter_eq_nil_iff.mpr fun s hs hpod => hstream ⟨s, hs, of_decide_eq_true hpod⟩]
        rfl
      rw [hnone]
      exact .refl _

/-- Two streams of one pod that interleave: the lines are not in order. -/
theorem interleaved_streams :
    ¬∀ (order : MapOrder) (fallbackName : String) (streams : List LokiStream),
      (∀ s ∈ streams, Ascending s) →
        ListsByTime fallbackName streams (parseLokiLogs order fallbackName streams) := by
  intro h
  have hlists := h MapOrder.insertion "api"
    [⟨[("k8s_pod_name", "api-1"), ("level", "info")],
        [["1".toList, "GET /".toList], ["3".toList, "exit".toList]]⟩,
      ⟨[("k8s_pod_name", "api-1"), ("level", "error")], [["2".toList, "panic".toList]]⟩]
    (by unfold Ascending; decide)
  obtain ⟨log, hlog, hpod⟩ := List.mem_map.mp
    (hlists.names.mem_iff.mpr (show "api-1" ∈ resolvedNames "api" _ by decide))
  obtain ⟨listed, hperm, hsorted, htext⟩ := hlists.lines log hlog
  rw [log_text hlog, hpod] at htext
  rw [hpod] at hperm
  have horder := lists_iff_inOrder.mp ⟨listed, hperm, hsorted, htext⟩
  unfold InOrder at horder
  revert horder
  decide

end Logs

end NexCause.LogBackendAdapter
