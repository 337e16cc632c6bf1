/-
NexCause/TokenLifetime.lean

Does the token of an investigation outlive it?  `RCAGraphRunner.run` signs one
token at its start, valid for two minutes, and sends it with each of its
requests; the evidence server compares its `exp` with the time at which the
request arrives.  Nothing renews the token, and nothing bounds the run: twelve
requests and four calls of the language model may take thirty seconds each.

The requests of a run are in time if and only if the steps before the last of
them are fast enough (`token_outlives_run_iff`).
-/
import Mathlib.Algebra.BigOperators.Group.Finset.Basic
import Mathlib.Algebra.Order.BigOperators.Group.Finset
import NexCause.RcaGraph

namespace NexCause.RcaAgent

open Program Prog

/-! ### Time -/

/-- One step as the environment has it, in milliseconds, with its answer if the
server takes the token. -/
structure Pace (ν : Type) where
  /-- what goes before it -/
  pause : ℕ
  /-- from the sending of a request until the server looks at its token -/
  latency : ℕ
  /-- the whole of the request, or of the call of the model -/
  duration : ℕ
  latency_le : latency ≤ duration
  response : Except GraphError (HttpResponse ν)
  text : Except GraphError String

/-- The same answer, without any delay. -/
def Pace.instant {ν : Type} (pace : Pace ν) : Pace ν :=
  { pace with pause := 0, latency := 0, duration := 0, latency_le := Nat.le_refl 0 }

/-- A request: when it was sent, and when the server looked at its token. -/
structure SentRequest where
  sent : ℤ
  checked : ℤ
  sent_le : sent ≤ checked

/-- The request is sent and checked before that moment. -/
def SentRequest.Before (r : SentRequest) (moment : ℤ) : Prop := r.sent < moment ∧ r.checked < moment

structure Clock where
  now : ℤ
  requests : List SentRequest

variable {ν : Type}

/-- The evidence server behind its middleware, and the language model. -/
def serveGraph (secret : String) :
    Service (GraphCall ν) GraphCall.Result GraphError (Pace ν) Clock
  | .post token _ _, pace, s =>
      let sent := s.now + pace.pause
      let checked := sent + pace.latency
      let answer : Except GraphError (HttpResponse ν) :=
        match pace.response with
        | .error e => .error e
        | .ok response =>
            match ServiceAuth.middleware secret (checked / 1000) (.bearer token) with
            | .ok _ => .ok response
            | .error e => .ok ⟨e.status, none⟩
      (answer,
        { now := sent + pace.duration
          requests := s.requests ++ [⟨sent, checked, by omega⟩] })
  | .invoke _, pace, s => (pace.text, { s with now := s.now + pace.pause + pace.duration })

/-- When the token of a run that starts at `start` expires: it counts in whole seconds. -/
def expiry (start : ℤ) : ℤ := (start / 1000 + 120) * 1000

/-- How long after the start the server looks at the token of step `k`. -/
def checkedAfter (env : ℕ → Pace ν) (k : ℕ) : ℕ :=
  ∑ i ∈ Finset.range k, ((env i).pause + (env i).duration) + (env k).pause + (env k).latency

/-- The place of the last request among the steps. -/
def lastRequest : List Bool → ℕ
  | [] => 0
  | _ :: kinds => if true ∈ kinds then lastRequest kinds + 1 else 0

/-! ### Steps -/

theorem checkedAfter_zero (env : ℕ → Pace ν) : checkedAfter env 0 = (env 0).pause + (env 0).latency := by
  simp [checkedAfter]

/-- The first step and the others. -/
theorem checkedAfter_succ (env : ℕ → Pace ν) (k : ℕ) :
    checkedAfter env (k + 1) =
      (env 0).pause + (env 0).duration + checkedAfter (fun n => env (n + 1)) k := by
  unfold checkedAfter
  rw [Finset.sum_range_succ']
  dsimp only
  omega

/-- Later requests are looked at later. -/
theorem checkedAfter_mono (env : ℕ → Pace ν) {j k : ℕ} (h : j ≤ k) :
    checkedAfter env j ≤ checkedAfter env k := by
  rcases Nat.eq_or_lt_of_le h with rfl | hlt
  · exact Nat.le_refl _
  have hlatency := (env j).latency_le
  have hsum : ∑ i ∈ Finset.range (j + 1), ((env i).pause + (env i).duration) ≤
      ∑ i ∈ Finset.range k, ((env i).pause + (env i).duration) := by
    apply Finset.sum_le_sum_of_subset
    intro i hi
    rw [Finset.mem_range] at hi ⊢
    omega
  rw [Finset.sum_range_succ] at hsum
  unfold checkedAfter
  omega

/-- The last request is one, and none comes after it. -/
theorem lastRequest_spec {kinds : List Bool} (h : true ∈ kinds) :
    kinds[lastRequest kinds]? = some true ∧ ∀ k, kinds[k]? = some true → k ≤ lastRequest kinds := by
  induction kinds with
  | nil => cases h
  | cons kind kinds ih =>
    unfold lastRequest
    by_cases hlater : true ∈ kinds
    · rw [if_pos hlater]
      obtain ⟨hlast, hnone⟩ := ih hlater
      refine ⟨hlast, fun k hk => ?_⟩
      cases k with
      | zero => exact Nat.zero_le _
      | succ k => exact Nat.succ_le_succ (hnone k hk)
    · rw [if_neg hlater]
      rcases List.mem_cons.mp h with rfl | hmem
      · refine ⟨rfl, fun k hk => ?_⟩
        cases k with
        | zero => exact Nat.le_refl _
        | succ k =>
          have hk' : kinds[k]? = some true := hk
          exact absurd (List.mem_of_getElem? hk') hlater
      · exact absurd hmem hlater

/-! ### Requests in time -/

/-- Until it expires the token is taken as it was at first. -/
theorem middleware_until {secret : String} {job : RunJob} {start now : ℤ}
    (hnow : now < expiry start) :
    ServiceAuth.middleware secret (now / 1000) (.bearer (mintToken secret (start / 1000) job)) =
      ServiceAuth.middleware secret (start / 1000) (.bearer (mintToken secret (start / 1000) job)) := by
  have hexp : now / 1000 < start / 1000 + 120 := by
    unfold expiry at hnow
    omega
  have hfirst : start / 1000 < start / 1000 + 120 := by omega
  have hparse : ServiceAuth.parseToken secret (now / 1000) (mintToken secret (start / 1000) job) =
      ServiceAuth.parseToken secret (start / 1000) (mintToken secret (start / 1000) job) := by
    simp [ServiceAuth.parseToken, mintToken, hexp, hfirst]
  unfold ServiceAuth.middleware
  simp only [hparse]

/-- What the server answers while the token is valid does not depend on the time. -/
theorem serveGraph_until {secret : String} {job : RunJob} {start : ℤ} {pace : Pace ν}
    {method : String} {params : Option (Json ν)} {s s₀ : Clock}
    (hs : s.now + pace.pause + pace.latency < expiry start) (hs₀ : s₀.now = start) :
    (serveGraph secret (.post (mintToken secret (start / 1000) job) method params) pace s).1 =
      (serveGraph secret (.post (mintToken secret (start / 1000) job) method params) pace.instant
        s₀).1 := by
  have hinstant : s₀.now + ((0 : ℕ) : ℤ) + ((0 : ℕ) : ℤ) = start := by
    rw [hs₀]
    omega
  simp only [serveGraph, Pace.instant, middleware_until hs, hinstant]

/-- Requests are not taken back. -/
theorem requests_grow {α : Type} (secret : String) (p : GraphProg ν α) (env : ℕ → Pace ν) (s : Clock)
    {r : SentRequest} (h : r ∈ s.requests) :
    r ∈ (p.run (serveGraph secret) env s).state.requests := by
  induction p generalizing env s with
  | ret a => exact h
  | throw e => exact h
  | call c k ih =>
    apply ih
    cases c with
    | post token method params => exact List.mem_append_left _ h
    | invoke message => exact h

/-- **The requests of a program** that sends the token of `start` are in time
if and only if those are that it would make without any delay. -/
theorem requests_before_iff {α : Type} {secret : String} {job : RunJob} {start : ℤ}
    {p : GraphProg ν α} (hp : p.Calls (GraphCall.Carries (mintToken secret (start / 1000) job)))
    (env : ℕ → Pace ν) {s s₀ : Clock} (hs : start ≤ s.now) (hs₀ : s₀.now = start) :
    (∀ r ∈ (p.run (serveGraph secret) env s).state.requests, r.Before (expiry start)) ↔
      (∀ r ∈ s.requests, r.Before (expiry start)) ∧
      ∀ k, ((p.run (serveGraph secret) (fun n => (env n).instant) s₀).calls.map GraphCall.isPost)[k]? =
        some true → s.now + checkedAfter env k < expiry start := by
  induction p generalizing env s s₀ with
  | ret a =>
    constructor
    · exact fun h => ⟨h, fun k hk => nomatch hk⟩
    · exact fun h => h.1
  | throw e =>
    constructor
    · exact fun h => ⟨h, fun k hk => nomatch hk⟩
    · exact fun h => h.1
  | call c k ih =>
    -- the first step, and the others after the same answer
    have hindex : ∀ (kind : Bool) (kinds : List Bool) (P : ℕ → Prop),
        (∀ k, (kind :: kinds)[k]? = some true → P k) ↔
          (kind = true → P 0) ∧ ∀ k, kinds[k]? = some true → P (k + 1) := by
      intro kind kinds P
      constructor
      · exact fun h => ⟨fun hkind => h 0 (by rw [hkind]; rfl), fun k hk => h (k + 1) hk⟩
      · rintro ⟨hzero, hsucc⟩ k hk
        cases k with
        | zero => exact hzero (Option.some.inj hk)
        | succ k => exact hsucc k hk
    have hnow : ∀ k, s.now + (checkedAfter env (k + 1) : ℤ) =
        s.now + (env 0).pause + (env 0).duration + checkedAfter (fun n => env (n + 1)) k := by
      intro k
      rw [checkedAfter_succ]
      omega
    show (∀ r ∈ ((k (serveGraph secret c (env 0) s).1).run (serveGraph secret)
        (fun n => env (n + 1)) (serveGraph secret c (env 0) s).2).state.requests, _) ↔
      _ ∧ ∀ j, (List.map GraphCall.isPost (c :: ((k (serveGraph secret c (env 0).instant s₀).1).run
        (serveGraph secret) (fun n => (env (n + 1)).instant)
          (serveGraph secret c (env 0).instant s₀).2).calls))[j]? = some true → _
    rw [List.map_cons, hindex]
    simp only [hnow]
    have hlater : start ≤ (serveGraph secret c (env 0) s).2.now := by
      cases c <;> (simp only [serveGraph]; omega)
    have hstart : (serveGraph secret c (env 0).instant s₀).2.now = start := by
      cases c <;> (simp only [serveGraph, Pace.instant]; omega)
    cases c with
    | invoke message =>
      refine (ih _ (hp.2 _) (fun n => env (n + 1)) hlater hstart).trans ?_
      exact and_congr Iff.rfl ⟨fun h => ⟨(nomatch ·), h⟩, fun h => h.2⟩
    | post token method params =>
      obtain rfl : token = mintToken secret (start / 1000) job := hp.1
      by_cases hlt : s.now + (env 0).pause + (env 0).latency < expiry start
      · -- the answer is the same, and this request is in time
        rw [← serveGraph_until hlt hs₀]
        refine (ih _ (hp.2 _) (fun n => env (n + 1)) hlater hstart).trans ?_
        have hfirst : s.now + (checkedAfter env 0 : ℤ) < expiry start := by
          rw [checkedAfter_zero]
          omega
        constructor
        · rintro ⟨hsent, hrest⟩
          exact ⟨fun r hr => hsent r (List.mem_append_left _ hr), fun _ => hfirst, hrest⟩
        · rintro ⟨hsent, -, hrest⟩
          refine ⟨fun r hr => ?_, hrest⟩
          rcases List.mem_append.mp hr with hr | hr
          · exact hsent r hr
          · rw [List.mem_singleton.mp hr]
            exact ⟨by show s.now + _ < _; omega, hlt⟩
      · -- this request is late
        constructor
        · intro h
          have hthis := h _ (requests_grow secret _ _ _
            (List.mem_append_right _ (List.mem_singleton.mpr rfl)))
          exact absurd hthis.2 hlt
        · rintro ⟨-, hfirst, -⟩
          have hchecked := hfirst rfl
          rw [checkedAfter_zero] at hchecked
          omega

/-! ### The requests of an investigation -/

variable [Python.Reading ν]

/-- The investigation that starts at `start`. -/
def investigate (secret : String) (hasModel : Bool) (generatedAt : String) (job : RunJob)
    (env : ℕ → Pace ν) (start : ℤ) : Ended (GraphCall ν) GraphError (RCAReport ν) Clock :=
  (runGraph secret hasModel (start / 1000) generatedAt job).run (serveGraph secret) env ⟨start, []⟩

/-- The steps that the investigation makes if each of them is answered at once. -/
def promptSteps (secret : String) (hasModel : Bool) (generatedAt : String) (job : RunJob)
    (env : ℕ → Pace ν) (start : ℤ) : List Bool :=
  (investigate secret hasModel generatedAt job (fun n => (env n).instant) start).calls.map
    GraphCall.isPost

/-- **The token outlives the investigation** if and only if the pauses, the
requests and the calls of the model before the last request, with the way of
that request to the server, fit into the two minutes of the token, less the
fraction of a second that its `exp` leaves out. -/
theorem token_outlives_run_iff (secret : String) (hasModel : Bool) (generatedAt : String)
    (job : RunJob) (env : ℕ → Pace ν) (start : ℤ) :
    (∀ r ∈ (investigate secret hasModel generatedAt job env start).state.requests,
        r.Before (expiry start)) ↔
      (checkedAfter env (lastRequest (promptSteps secret hasModel generatedAt job env start)) : ℤ) <
        120000 - start % 1000 := by
  have hfirst : true ∈ promptSteps secret hasModel generatedAt job env start := by
    apply List.mem_map.mpr
    exact ⟨.post (mintToken secret (start / 1000) job) "initialize" none, List.mem_cons_self, rfl⟩
  obtain ⟨hlast, hnone⟩ := lastRequest_spec hfirst
  have hexpiry : ∀ n : ℕ, start + (n : ℤ) < expiry start ↔ (n : ℤ) < 120000 - start % 1000 := by
    intro n
    unfold expiry
    omega
  have hclock : (Clock.mk start []).now = start := rfl
  have hcarries := runGraph_carries (ν := ν) secret hasModel (start / 1000) generatedAt job
  apply (requests_before_iff hcarries env (Int.le_refl start) hclock).trans
  constructor
  · rintro ⟨-, hsteps⟩
    exact (hexpiry _).mp (hsteps _ hlast)
  · intro hlt
    refine ⟨fun r hr => absurd hr List.not_mem_nil, fun k hk => ?_⟩
    have hmono := checkedAfter_mono env (hnone k hk)
    apply (hexpiry _).mpr
    omega

instance : Python.Reading ℤ where
  isZero n := n = 0
  print
    | .null => "None"
    | .bool b => if b then "True" else "False"
    | .number n => toString n
    | _ => ""

/-- An evidence server that takes thirty seconds for each request. -/
def slowServer (k : ℕ) : Pace ℤ where
  pause := 0
  latency := 0
  duration := 30000
  latency_le := Nat.zero_le _
  response := .ok
    { status := 200
      body := some (.object [("jsonrpc", .string "2.0"), ("result",
        match k with
        | 0 => .object []
        | 1 => .object [("tools", .array (requiredMcpTools.map fun name =>
            .object [("name", .string name)]))]
        | 2 => .object [("structuredContent", .object
            [("run", .object [("id", .string "run-1")]),
              ("incident", .object [("id", .string "incident-1"), ("ruleKey", .string "pod_restarts"),
                ("summary", .string "Pods restart")])])]
        | _ => .object [("structuredContent", .object
            [("source", .string "kubernetes"), ("summary", .string "2 of 3 pods are ready"),
              ("signals", .array []), ("stats", .object [])])])]) }
  text := .error (.transport "timeout")

/-- Thirty seconds for each request are too long: the fifth one is sent when the
token has expired, and refused. -/
theorem fifth_request_is_late :
    let run := investigate "0123456789abcdef0123456789abcdef" false "2025-08-01T00:00:00Z"
      ⟨"workspace-1", "run-1", "incident-1"⟩ slowServer 1754000000000
    (∀ k, (slowServer k).duration ≤ 30000) ∧
      (∃ r ∈ run.state.requests, ¬r.sent < expiry 1754000000000) ∧
      run.outcome.map (fun _ => ()) = .error (.httpStatus 401) := by
  refine ⟨fun k => Nat.le_refl _, ?_⟩
  decide +kernel

/-- The last request of an investigation that comes to a report is its
fifteenth step with a model, and its twelfth without. -/
theorem last_request_of_report {secret : String} {hasModel : Bool} {generatedAt : String}
    {job : RunJob} {env : ℕ → Pace ν} {start : ℤ} {report : RCAReport ν}
    (h : (investigate secret hasModel generatedAt job (fun n => (env n).instant) start).outcome =
      .ok report) :
    lastRequest (promptSteps secret hasModel generatedAt job env start) =
      if hasModel then 14 else 11 := by
  have hsteps := (runGraph_emits secret hasModel (start / 1000) generatedAt job).run h
  unfold promptSteps investigate
  rcases hsteps with hsteps | hsteps
  · rw [hsteps]
    cases hasModel <;> decide
  · rw [hsteps]
    cases hasModel <;> decide

end NexCause.RcaAgent
