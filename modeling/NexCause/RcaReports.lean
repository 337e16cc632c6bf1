/-
NexCause/RcaReports.lean

What the RCA agent makes of its findings (`agents/synthesis.py`): a hypothesis,
a verdict on it, and the report.

The hypothesis takes its cause from the first finding that suspects one, and its
evidence from the first texts of all findings; the report explains the cause by
the first three of them.

Main results: the report is coherent with the findings (`report_coherent`).  The
explanation has a text of the finding that named the cause exactly if that
finding has none, or less than three texts come before it, or by coincidence
(`report_grounded_iff`).
-/
import NexCause.RcaGraph

namespace NexCause.RcaAgent

open Program Prog

variable {ν : Type}

/-! ### From the findings to the report -/

/-- The causes that the findings suspect. -/
def suspected (findings : List (AgentFinding ν)) : List String :=
  findings.flatMap AgentFinding.suspectedCauses

/-- The texts of the findings. -/
def foundTexts (findings : List (AgentFinding ν)) : List String :=
  findings.flatMap AgentFinding.findings

/-- `build_hypotheses`, `verify` and `write_report`.  The context is handed on to
each of them, and none reads it. -/
def synthesize (runId incidentId generatedAt : String) (findings : List (AgentFinding ν)) :
    RCAReport ν :=
  let hypotheses := buildHypotheses findings
  writeReport runId incidentId generatedAt findings hypotheses (verify hypotheses)

/-- `RootCause()` -/
def emptyRootCause : RootCause := ⟨none, none, .low, ""⟩

/-- The hypothesis of a suspected cause. -/
def suspicion (cause : String) (texts : List String) : Hypothesis where
  title := "Possible " ++ cause.map fun c => if c = '_' then ' ' else c
  category := cause
  supportingEvidence := texts.take 5
  contradictingEvidence := []
  confidence := .medium

variable {findings : List (AgentFinding ν)} {cause : String} {causes : List String}
  {runId incidentId generatedAt : String}

theorem buildHypotheses_of_cons (h : suspected findings = cause :: causes) :
    buildHypotheses findings = [suspicion cause (foundTexts findings)] := by
  unfold suspected at h
  unfold buildHypotheses
  rw [h]
  rfl

/-- Without a suspected cause, or without a text, no hypothesis is approved. -/
theorem approvedHypothesis_none (h : suspected findings = [] ∨ foundTexts findings = []) :
    approvedHypothesis (buildHypotheses findings) (verify (buildHypotheses findings)) = none := by
  cases hcauses : suspected findings with
  | nil =>
    unfold suspected at hcauses
    unfold buildHypotheses
    rw [hcauses]
    simp only [verify, approvedHypothesis]
    split <;> rfl
  | cons cause causes =>
    have htexts : foundTexts findings = [] := by simpa [hcauses] using h
    rw [buildHypotheses_of_cons hcauses, htexts]
    rfl

/-- With both it is the one of the first cause. -/
theorem approvedHypothesis_some (h : suspected findings = cause :: causes)
    (htexts : foundTexts findings ≠ []) :
    approvedHypothesis (buildHypotheses findings) (verify (buildHypotheses findings)) =
      some (suspicion cause (foundTexts findings)) := by
  rw [buildHypotheses_of_cons h]
  have hevidence : (suspicion cause (foundTexts findings)).supportingEvidence ≠ [] := by
    show (foundTexts findings).take 5 ≠ []
    simpa using htexts
  have hverify : verify [suspicion cause (foundTexts findings)] = ⟨.approved, [], [], []⟩ := by
    show ite _ _ _ = _
    rw [if_neg hevidence]
    rfl
  rw [hverify]
  rfl

/-! ### Coherence -/

/-- The report says what the findings say. -/
structure Coherent (findings : List (AgentFinding ν)) (report : RCAReport ν) : Prop where
  status : report.status = .rootCauseIdentified ↔
    (∃ finding ∈ findings, finding.suspectedCauses ≠ []) ∧ ∃ finding ∈ findings, finding.findings ≠ []
  identified : report.status = .rootCauseIdentified →
    (∃ cause, (suspected findings).head? = some cause ∧ report.rootCause.category = some cause) ∧
      report.rootCause.confidence = .medium
  inconclusive : report.status ≠ .rootCauseIdentified →
    report.rootCause = emptyRootCause ∧ report.rootCause.confidence = .low
  evidenceUsed : report.evidenceUsed = findings.flatMap AgentFinding.evidence
  toolCallSummary : report.toolCallSummary = findings.map fun finding =>
    { agent := finding.agent, evidenceSources := finding.evidence.map EvidenceReference.source }
  recommends : report.recommendations ≠ []
  followUps : findings.flatMap AgentFinding.recommendedFollowUps <+: report.recommendations

theorem suspected_ne_nil :
    suspected findings ≠ [] ↔ ∃ finding ∈ findings, finding.suspectedCauses ≠ [] := by
  simp [suspected]

theorem foundTexts_ne_nil :
    foundTexts findings ≠ [] ↔ ∃ finding ∈ findings, finding.findings ≠ [] := by
  simp [foundTexts]

/-- The root cause that is reported. -/
structure Reports (report : RCAReport ν) (cause : String) (texts : List String) : Prop where
  status : report.status = .rootCauseIdentified
  hypotheses : report.hypotheses = [suspicion cause texts]
  category : report.rootCause.category = some cause
  confidence : report.rootCause.confidence = .medium
  explanation : report.rootCause.explanation = "; ".intercalate (texts.take 3)

/-- A root cause is reported, if an agent suspects one and there is a text. -/
theorem synthesize_some (h : suspected findings = cause :: causes)
    (htexts : foundTexts findings ≠ []) :
    Reports (synthesize runId incidentId generatedAt findings) cause (foundTexts findings) := by
  have htake : ((suspicion cause (foundTexts findings)).supportingEvidence).take 3 =
      (foundTexts findings).take 3 := by
    show ((foundTexts findings).take 5).take 3 = _
    rw [List.take_take]
    rfl
  have happroved := approvedHypothesis_some h htexts
  unfold synthesize writeReport
  exact {
    status := by simp only [happroved, Option.isSome_some, if_true]
    hypotheses := buildHypotheses_of_cons h
    category := by simp only [happroved, suspicion]
    confidence := by simp only [happroved, suspicion]
    explanation := by simp only [happroved, htake] }

/-- None is, if not. -/
theorem synthesize_none (h : suspected findings = [] ∨ foundTexts findings = []) :
    (synthesize runId incidentId generatedAt findings).status = .inconclusive ∧
      (synthesize runId incidentId generatedAt findings).rootCause = emptyRootCause := by
  unfold synthesize writeReport
  simp only [approvedHypothesis_none h]
  exact ⟨rfl, rfl⟩

/-- The recommendations start with those of the findings, and there is one. -/
theorem buildRecommendations_spec (findings : List (AgentFinding ν)) (status : ReportStatus) :
    buildRecommendations findings status ≠ [] ∧
      findings.flatMap AgentFinding.recommendedFollowUps <+: buildRecommendations findings status := by
  unfold buildRecommendations
  by_cases h : findings.flatMap AgentFinding.recommendedFollowUps = []
  · rw [h]
    cases status <;> exact ⟨List.cons_ne_nil _ _, List.nil_prefix⟩
  · simp only [if_pos h]
    exact ⟨h, List.prefix_rfl⟩

/-- **The report is coherent** with its findings. -/
theorem report_coherent (runId incidentId generatedAt : String) (findings : List (AgentFinding ν)) :
    Coherent findings (synthesize runId incidentId generatedAt findings) := by
  let report := synthesize runId incidentId generatedAt findings
  obtain ⟨hrecommends, hfollowUps⟩ := buildRecommendations_spec findings report.status
  by_cases h : suspected findings ≠ [] ∧ foundTexts findings ≠ []
  · obtain ⟨cause, causes, hcauses⟩ := List.exists_cons_of_ne_nil h.1
    have hreport : Reports report cause _ := synthesize_some hcauses h.2
    exact {
      status := iff_of_true hreport.status ⟨suspected_ne_nil.mp h.1, foundTexts_ne_nil.mp h.2⟩
      identified := fun _ => ⟨⟨cause, by rw [hcauses]; rfl, hreport.category⟩, hreport.confidence⟩
      inconclusive := fun hne => absurd hreport.status hne
      evidenceUsed := rfl
      toolCallSummary := rfl
      recommends := hrecommends
      followUps := hfollowUps }
  · have hnil : suspected findings = [] ∨ foundTexts findings = [] := by
      by_contra hne
      exact h (not_or.mp hne)
    have hreport : report.status = _ ∧ report.rootCause = _ := synthesize_none hnil
    obtain ⟨hstatus, hroot⟩ := hreport
    have hnot : report.status ≠ .rootCauseIdentified := by
      rw [hstatus]
      exact nofun
    exact {
      status := iff_of_false hnot fun hsome =>
        h ⟨suspected_ne_nil.mpr hsome.1, foundTexts_ne_nil.mpr hsome.2⟩
      identified := fun hidentified => absurd hidentified hnot
      inconclusive := fun _ => ⟨hroot, congrArg RootCause.confidence hroot⟩
      evidenceUsed := rfl
      toolCallSummary := rfl
      recommends := hrecommends
      followUps := hfollowUps }

/-! ### Grounds -/

/-- A root cause rests on a text of the finding that named it. -/
def Grounded (findings : List (AgentFinding ν)) (report : RCAReport ν) : Prop :=
  report.status = .rootCauseIdentified → ∀ category finding,
    report.rootCause.category = some category →
    findings.find? (fun finding => category ∈ finding.suspectedCauses) = some finding →
    finding.findings ≠ [] →
      ∃ text ∈ finding.findings,
        (∃ hypothesis, report.hypotheses = [hypothesis] ∧ text ∈ hypothesis.supportingEvidence) ∧
          text.toList <:+: report.rootCause.explanation.toList

/-- The findings up to the first one that suspects a cause. -/
structure Names (findings earlier : List (AgentFinding ν)) (finding : AgentFinding ν)
    (later : List (AgentFinding ν)) : Prop where
  split : findings = earlier ++ finding :: later
  before : ∀ f ∈ earlier, f.suspectedCauses = []
  suspects : finding.suspectedCauses ≠ []

/-- Less than three texts come before those of the finding, or else one of them
is among the first five and happens to stand within the first three. -/
def Reaches (earlier : List (AgentFinding ν)) (finding : AgentFinding ν) : Prop :=
  (foundTexts earlier).length < 3 ∨
    ∃ text ∈ finding.findings, text ∈ (foundTexts earlier ++ finding.findings).take 5 ∧
      text.toList <:+: ("; ".intercalate ((foundTexts earlier).take 3)).toList

section Names

variable {earlier later : List (AgentFinding ν)} {finding : AgentFinding ν}

theorem exists_names (h : suspected findings ≠ []) :
    ∃ earlier finding later, Names findings earlier finding later := by
  induction findings with
  | nil => exact absurd rfl h
  | cons f findings ih =>
    by_cases hf : f.suspectedCauses = []
    · have hrest : suspected findings ≠ [] := by
        intro hnil
        apply h
        show f.suspectedCauses ++ suspected findings = []
        rw [hf, hnil]
        rfl
      obtain ⟨earlier, finding, later, hsplit, hbefore, hsuspects⟩ := ih hrest
      refine ⟨f :: earlier, finding, later, by rw [hsplit]; rfl, ?_, hsuspects⟩
      intro g hg
      rcases List.mem_cons.mp hg with rfl | hg
      · exact hf
      · exact hbefore g hg
    · exact ⟨[], f, findings, rfl, nofun, hf⟩

theorem Names.suspected_eq (h : Names findings earlier finding later) :
    suspected findings = finding.suspectedCauses ++ suspected later := by
  have hnil : suspected earlier = [] := List.flatMap_eq_nil_iff.mpr h.before
  rw [h.split]
  unfold suspected at hnil ⊢
  rw [List.flatMap_append, hnil, List.flatMap_cons]
  rfl

theorem Names.foundTexts_eq (h : Names findings earlier finding later) :
    foundTexts findings = foundTexts earlier ++ (finding.findings ++ foundTexts later) := by
  rw [h.split]
  unfold foundTexts
  rw [List.flatMap_append, List.flatMap_cons]

/-- The finding is the one that is found by its cause. -/
theorem Names.find (h : Names findings earlier finding later) {cause : String}
    (hcause : cause ∈ finding.suspectedCauses) :
    findings.find? (fun finding => cause ∈ finding.suspectedCauses) = some finding := by
  rw [h.split, List.find?_append]
  have hnone : earlier.find? (fun finding => cause ∈ finding.suspectedCauses) = none := by
    rw [List.find?_eq_none]
    intro f hf
    simp [h.before f hf]
  simp [hnone, hcause]

end Names

/-- What is among the first `n` of `l ++ xs` is among the first `n` of more. -/
theorem mem_take_append_iff {α : Type} {l xs ys : List α} {x : α} {n : ℕ} (hx : x ∈ xs) :
    x ∈ (l ++ (xs ++ ys)).take n ↔ x ∈ (l ++ xs).take n := by
  rw [← List.append_assoc, List.take_append, List.mem_append]
  constructor
  · rintro (h | h)
    · exact h
    · -- the list goes on behind `xs`, so all of `xs` is among the first
      have hlong : (l ++ xs).length ≤ n := by
        by_contra hlt
        rw [Nat.sub_eq_zero_of_le (by omega)] at h
        cases h
      rw [List.take_of_length_le hlong]
      exact List.mem_append_right _ hx
  · exact .inl

theorem infix_intercalate {text separator : List Char} {texts : List (List Char)}
    (h : text ∈ texts) : text <:+: separator.intercalate texts := by
  induction texts with
  | nil => cases h
  | cons t texts ih =>
    by_cases htexts : texts = []
    · subst htexts
      rw [List.mem_singleton.mp h, List.intercalate_singleton]
    · rw [List.intercalate_cons_of_ne_nil htexts]
      rcases List.mem_cons.mp h with rfl | h
      · rw [List.append_assoc]
        exact (List.prefix_append text _).isInfix
      · exact (ih h).trans (List.suffix_append _ _).isInfix

/-- The text is quoted in the explanation that is made of the texts. -/
theorem infix_explanation {text separator : String} {texts : List String} (h : text ∈ texts) :
    text.toList <:+: (separator.intercalate texts).toList := by
  rw [String.toList_intercalate]
  exact infix_intercalate (List.mem_map_of_mem h)

section Names

variable {earlier later : List (AgentFinding ν)} {finding : AgentFinding ν}

/-- What a grounded report says of the finding that named the cause. -/
theorem Names.grounded_iff (h : Names findings earlier finding later) :
    Grounded findings (synthesize runId incidentId generatedAt findings) ↔ (finding.findings ≠ [] →
      ∃ text ∈ finding.findings, text ∈ (foundTexts findings).take 5 ∧
        text.toList <:+: ("; ".intercalate ((foundTexts findings).take 3)).toList) := by
  obtain ⟨cause, causes, hcauses⟩ := List.exists_cons_of_ne_nil h.suspects
  have hsuspected : suspected findings = cause :: (causes ++ suspected later) := by
    rw [h.suspected_eq, hcauses]
    rfl
  have hcause : cause ∈ finding.suspectedCauses := by
    rw [hcauses]
    exact List.mem_cons_self
  let report := synthesize runId incidentId generatedAt findings
  constructor
  · -- the one hypothesis of the report quotes a text of the finding
    intro hgrounded htexts
    have hfound : foundTexts findings ≠ [] := by
      rw [h.foundTexts_eq]
      simp [htexts]
    have hreport : Reports report cause _ := synthesize_some hsuspected hfound
    obtain ⟨text, htext, ⟨hypothesis, hone, hmem⟩, hin⟩ := hgrounded hreport.status cause finding
      hreport.category (h.find hcause) htexts
    obtain rfl := List.singleton_inj.mp (hreport.hypotheses.symm.trans hone)
    exact ⟨text, htext, hmem, hreport.explanation ▸ hin⟩
  · intro hreaches hstatus category finding' hcategory hfind htexts
    -- a report of nothing found names no cause
    have hfound : foundTexts findings ≠ [] := by
      intro hnil
      have hnone : report.status = _ ∧ report.rootCause = _ := synthesize_none (.inr hnil)
      rw [hnone.1] at hstatus
      cases hstatus
    have hreport : Reports report cause _ := synthesize_some hsuspected hfound
    obtain rfl := Option.some.inj (hreport.category.symm.trans hcategory)
    obtain rfl := Option.some.inj ((h.find hcause).symm.trans hfind)
    obtain ⟨text, htext, hmem, hin⟩ := hreaches htexts
    exact ⟨text, htext, ⟨_, hreport.hypotheses, hmem⟩, hreport.explanation ▸ hin⟩

/-- A text of the finding gets into the report. -/
theorem Names.reaches_iff (h : Names findings earlier finding later)
    (htexts : finding.findings ≠ []) :
    (∃ text ∈ finding.findings, text ∈ (foundTexts findings).take 5 ∧
      text.toList <:+: ("; ".intercalate ((foundTexts findings).take 3)).toList) ↔
      Reaches earlier finding := by
  rw [h.foundTexts_eq]
  by_cases hfew : (foundTexts earlier).length < 3
  · -- its first text is among the first three
    obtain ⟨text, texts, hfirst⟩ := List.exists_cons_of_ne_nil htexts
    have htake : ∀ n, 3 ≤ n →
        text ∈ (foundTexts earlier ++ (finding.findings ++ foundTexts later)).take n := by
      intro n hn
      rw [List.take_append, hfirst]
      apply List.mem_append_right
      have hroom : n - (foundTexts earlier).length = n - (foundTexts earlier).length - 1 + 1 := by
        omega
      rw [hroom]
      exact List.mem_cons_self
    refine iff_of_true ⟨text, ?_, htake 5 (by decide), infix_explanation (htake 3 le_rfl)⟩
      (.inl hfew)
    rw [hfirst]
    exact List.mem_cons_self
  · -- the first three are others' texts
    have htake : (foundTexts earlier ++ (finding.findings ++ foundTexts later)).take 3 =
        (foundTexts earlier).take 3 := List.take_append_of_le_length (by omega)
    rw [htake]
    constructor
    · rintro ⟨text, htext, hmem, hin⟩
      exact .inr ⟨text, htext, (mem_take_append_iff htext).mp hmem, hin⟩
    · rintro (hless | ⟨text, htext, hmem, hin⟩)
      · exact absurd hless hfew
      · exact ⟨text, htext, (mem_take_append_iff htext).mpr hmem, hin⟩

end Names

/-- **The grounds of a root cause**: the report has a text of the finding that
named the cause exactly if that finding has none, or one of its texts reaches it. -/
theorem report_grounded_iff (runId incidentId generatedAt : String)
    (findings : List (AgentFinding ν)) :
    Grounded findings (synthesize runId incidentId generatedAt findings) ↔
      ∀ earlier finding later, Names findings earlier finding later → finding.findings ≠ [] →
        Reaches earlier finding := by
  constructor
  · intro hgrounded earlier finding later h htexts
    exact (h.reaches_iff htexts).mp (h.grounded_iff.mp hgrounded htexts)
  · intro hreaches
    by_cases hnone : suspected findings = []
    · -- nothing is suspected, and no root cause reported
      intro hstatus
      let report := synthesize runId incidentId generatedAt findings
      have hreport : report.status = _ ∧ report.rootCause = _ := synthesize_none (.inl hnone)
      rw [hreport.1] at hstatus
      cases hstatus
    · obtain ⟨earlier, finding, later, h⟩ := exists_names hnone
      apply h.grounded_iff.mpr
      intro htexts
      exact (h.reaches_iff htexts).mpr (hreaches _ _ _ h htexts)

/-- A finding with one text. -/
def oneText (agent text : String) (causes : List String) : AgentFinding ℕ where
  agent := agent
  findings := [text]
  suspectedCauses := causes
  ruledOut := []
  recommendedFollowUps := []
  confidence := if causes = [] then .low else .medium
  evidence := []

/-- Three agents that suspect nothing, and the one that names the cause. -/
def silentFindings : List (AgentFinding ℕ) :=
  [oneText "kubernetes_investigator" "The rollout is healthy." [],
   oneText "changes_config_investigator" "Nothing has changed." [],
   oneText "logs_investigator" "The logs show no errors." []]

def namingFinding : AgentFinding ℕ :=
  oneText "metrics_traces_investigator" "Latency has tripled." ["slow_traces_present"]

/-- The explanation of the root cause is what the three others say. -/
theorem last_not_grounded : ¬ Grounded (silentFindings ++ [namingFinding])
    (synthesize "run-1" "inc-1" "" (silentFindings ++ [namingFinding])) := by
  have hnames : Names (silentFindings ++ [namingFinding]) silentFindings namingFinding [] :=
    ⟨rfl, by simp [silentFindings, oneText], by simp [namingFinding, oneText]⟩
  have hreaches : ¬ Reaches silentFindings namingFinding := by
    rintro (hfew | ⟨text, htext, -, hin⟩)
    · exact absurd hfew (by decide)
    · -- no one of the others writes an `L`
      obtain rfl := List.mem_singleton.mp htext
      have hletter := hin.subset (a := 'L') (by simp)
      rw [String.toList_intercalate] at hletter
      exact absurd hletter (by decide)
  intro h
  exact hreaches ((hnames.reaches_iff (List.cons_ne_nil _ _)).mp
    (hnames.grounded_iff.mp h (List.cons_ne_nil _ _)))

/-! ### Runs -/

section Runs

variable [Python.Reading ν]

omit [Python.Reading ν] in
theorem returns_expect {α : Type} {P : α → Prop} {a : Option α} (h : ∀ b, a = some b → P b) :
    (expect a : GraphProg ν α).Returns P := by
  cases a with
  | none => trivial
  | some b => exact h b rfl

omit [Python.Reading ν] in
/-- What comes after a program decides what is returned. -/
theorem returns_after {α β : Type} {P : β → Prop} {p : GraphProg ν α} {f : α → GraphProg ν β}
    (h : ∀ a, (f a).Returns P) : (p >>= f).Returns P :=
  (Returns.of_forall (P := fun _ => True) (fun _ => trivial) p).bind fun a _ => h a

/-- A finding of an agent has one text. -/
theorem findingFromEvidence_text {agent summary : String} {evidence : List (Json ν)}
    {finding : AgentFinding ν} (h : findingFromEvidence agent summary evidence = some finding) :
    finding.findings = [summary] := by
  unfold findingFromEvidence at h
  obtain ⟨references, -, h⟩ := Option.bind_eq_some_iff.mp h
  obtain ⟨signals, -, h⟩ := Option.bind_eq_some_iff.mp h
  obtain ⟨causes, -, h⟩ := Option.bind_eq_some_iff.mp h
  obtain rfl := Option.some.inj h
  rfl

/-- The findings of agents: one each, with one text. -/
def OneText (findings : List (AgentFinding ν)) : Prop :=
  ∀ finding ∈ findings, finding.findings.length = 1

theorem Investigator.run_returns (investigator : Investigator) (token : BearerToken)
    (hasModel : Bool) (context : Json ν) (task : String) :
    (investigator.run token hasModel context task).Returns fun finding =>
      finding.findings.length = 1 := by
  apply returns_after
  intro evidence
  apply returns_after
  intro summary
  apply returns_expect
  intro finding hfinding
  rw [findingFromEvidence_text hfinding]
  rfl

theorem runSpecialists_returns (token : BearerToken) (hasModel : Bool) (context : Json ν)
    (investigators : List Investigator) :
    (runSpecialists token hasModel context investigators).Returns
      fun findings => findings.length = investigators.length ∧ OneText findings := by
  induction investigators with
  | nil => exact ⟨rfl, nofun⟩
  | cons investigator investigators ih =>
    apply returns_after
    intro task
    apply (investigator.run_returns token hasModel context task).bind
    intro finding hfinding
    apply ih.bind
    rintro findings ⟨hlength, hone⟩
    exact ⟨congrArg (· + 1) hlength, List.forall_mem_cons.mpr ⟨hfinding, hone⟩⟩

/-- A run returns the report on the findings of four agents, with one text each. -/
theorem runGraph_returns (secret : String) (hasModel : Bool) (now : ℤ) (generatedAt : String)
    (job : RunJob) :
    (runGraph secret hasModel now generatedAt job : GraphProg ν (RCAReport ν)).Returns fun report =>
      ∃ findings, findings.length = 4 ∧ OneText findings ∧
        report = synthesize job.runId job.incidentId generatedAt findings := by
  apply returns_after
  intro _
  apply returns_after
  intro _
  apply returns_after
  intro context
  apply (returns_expect fun selected h => selectSpecialists_some h).bind
  intro selected hselected
  apply (runSpecialists_returns _ _ _ _).bind
  rintro findings ⟨hlength, hone⟩
  have hfour : (buildInvestigators selected).length = 4 := by
    rcases hselected with rfl | rfl <;> decide
  exact ⟨findings, hlength.trans hfour, hone, rfl⟩

omit [Python.Reading ν] in
theorem OneText.length_foundTexts (h : OneText findings) :
    (foundTexts findings).length = findings.length := by
  unfold foundTexts
  rw [List.length_flatMap, List.map_congr_left h]
  simp

omit [Python.Reading ν] in
/-- If one of the first three agents suspects a cause, the report is grounded. -/
theorem OneText.grounded (h : OneText findings)
    (hthree : ∃ finding ∈ findings.take 3, finding.suspectedCauses ≠ []) :
    Grounded findings (synthesize runId incidentId generatedAt findings) := by
  obtain ⟨suspicious, hmem, hsuspects⟩ := hthree
  obtain ⟨earlier, finding, later, hnames⟩ := exists_names
    (suspected_ne_nil.mpr ⟨suspicious, List.mem_of_mem_take hmem, hsuspects⟩)
  have hfew : earlier.length < 3 := by
    by_contra hlong
    rw [hnames.split, List.take_append_of_le_length (by omega)] at hmem
    exact hsuspects (hnames.before _ (List.mem_of_mem_take hmem))
  have hearlier : OneText earlier := fun f hf => h f (hnames.split ▸ List.mem_append_left _ hf)
  rw [← hearlier.length_foundTexts] at hfew
  exact hnames.grounded_iff.mpr fun htexts => (hnames.reaches_iff htexts).mpr (.inl hfew)

/-- A run's report is grounded, unless only the last of the four agents suspects
a cause. -/
theorem runGraph_grounded (secret : String) (hasModel : Bool) (now : ℤ) (generatedAt : String)
    (job : RunJob) :
    (runGraph secret hasModel now generatedAt job : GraphProg ν (RCAReport ν)).Returns fun report =>
      (∃ finding ∈ report.agentContributions.take 3, finding.suspectedCauses ≠ []) →
        Grounded report.agentContributions report := by
  apply Returns.mono (runGraph_returns secret hasModel now generatedAt job)
  rintro report ⟨findings, -, hone, rfl⟩
  exact hone.grounded

end Runs

end NexCause.RcaAgent
