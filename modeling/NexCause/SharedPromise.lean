/-
NexCause/SharedPromise.lean

A promise that is kept: `this.promise ??= f()`.

Whoever asks for the promise first starts `f`; all others, then or later, await
that one.  A caller is an `async` function that awaits the promise, any number
of times, and calls of its own (`Shared`).  Callers begin at any time and
overlap; `f` goes on step by step beside them.

Main results: all answers that callers get are one (`SharedRun.answers_agree`);
callers that begin after a failure get no other answer than that failure
(`SharedRun.recovers_iff`).
-/
import NexCause.Program
import NexCause.Transition

namespace Program

open Prog Transition

/-- What a caller awaits: the promise, or a call of its own. -/
inductive Shared (C : Type)
  | promise
  | own (c : C)
  deriving DecidableEq, Repr

/-- The promise is one of an `A`. -/
abbrev Shared.Result {C : Type} (A : Type) (R : C → Type) : Shared C → Type
  | .promise => A
  | .own c => R c

variable {ρ C A : Type} {R : C → Type} {ε α χ : Type}

/-- What a finished program has ended with. -/
def Prog.settled : Prog C R ε α → Option (Except ε α)
  | ret a => some (.ok a)
  | throw e => some (.error e)
  | call _ _ => none

theorem Prog.settled_error {p : Prog C R ε α} {e : ε} :
    p.settled = some (.error e) ↔ p = throw e := by
  cases p with
  | ret a => simp [settled]
  | throw e' => simp [settled]
  | call c k => simp [settled]

theorem Prog.raised_iff_throw {p : Prog C R ε α} : p.Raised ↔ ∃ e, p = throw e := by
  cases p with
  | ret a => simp [Raised]
  | throw e => simp [Raised]
  | call c k => simp [Raised]

/-- A caller: its request, what is left of it, the promise that it awaits, and the answers that it has
got from one. -/
structure Caller (ρ C : Type) (R : C → Type) (ε A α : Type) where
  request : ρ
  prog : Prog (Shared C) (Shared.Result A R) ε α
  awaits : Option ℕ
  answers : List (Except ε A)

/-- The variable with the promise, what is left of all that were started, and the callers. -/
structure SharedRun (ρ C : Type) (R : C → Type) (ε A α : Type) where
  promise : Option ℕ
  started : List (Prog C R ε A)
  callers : List (Caller ρ C R ε A α)

/-- What can happen next. -/
inductive Turn (ρ χ : Type)
  /-- a caller begins -/
  | begins (q : ρ)
  /-- a caller goes on to its next await -/
  | goes (i : ℕ) (x : χ)
  /-- the function of a promise goes on -/
  | works (k : ℕ) (x : χ)
  /-- a caller goes on with the promise that it awaits -/
  | resumes (i : ℕ)
  deriving DecidableEq, Repr

namespace SharedRun

/-- Nobody has asked for the promise. -/
def initial : SharedRun ρ C R ε A α := ⟨none, [], []⟩

/-- Some promise was rejected. -/
def Failed (s : SharedRun ρ C R ε A α) : Prop := ∃ p ∈ s.started, p.Raised

variable (program : ρ → Prog (Shared C) (Shared.Result A R) ε α) (make : Prog C R ε A)
  (serve : (c : C) → χ → Except ε (R c))

/-- `this.promise ??= make()`: the promise, and the state with it. -/
def demand (s : SharedRun ρ C R ε A α) : ℕ × SharedRun ρ C R ε A α :=
  match s.promise with
  | some k => (k, s)
  | none => (s.started.length,
      { s with promise := some s.started.length, started := s.started ++ [make] })

/-- One turn. -/
def step (s : SharedRun ρ C R ε A α) : Turn ρ χ → Option (SharedRun ρ C R ε A α)
  | .begins q => some { s with callers := s.callers ++ [⟨q, program q, none, []⟩] }
  | .goes i x =>
      match s.callers[i]? with
      | some ⟨q, call .promise k, none, answers⟩ =>
          let (promise, t) := s.demand make
          some { t with callers := t.callers.set i ⟨q, call .promise k, some promise, answers⟩ }
      | some ⟨q, call (.own c) k, none, answers⟩ =>
          some { s with callers := s.callers.set i ⟨q, k (serve c x), none, answers⟩ }
      | _ => none
  | .works k x =>
      match s.started[k]? with
      | some (call c f) => some { s with started := s.started.set k (f (serve c x)) }
      | _ => none
  | .resumes i =>
      match s.callers[i]? with
      | some ⟨q, call .promise k, some promise, answers⟩ =>
          (s.started[promise]?.bind Prog.settled).map fun r =>
            { s with callers := s.callers.set i ⟨q, k r, none, answers ++ [r]⟩ }
      | _ => none

variable {program make serve} {s t : SharedRun ρ C R ε A α} {l : Turn ρ χ}

/-- The kinds of turns. -/
inductive Turned (program : ρ → Prog (Shared C) (Shared.Result A R) ε α) (make : Prog C R ε A)
    (serve : (c : C) → χ → Except ε (R c)) (s : SharedRun ρ C R ε A α) :
    Turn ρ χ → SharedRun ρ C R ε A α → Prop
  | begins (q : ρ) :
      Turned program make serve s (.begins q)
        { s with callers := s.callers ++ [⟨q, program q, none, []⟩] }
  | asks {i : ℕ} {x : χ} {q : ρ} {k : Except ε A → Prog (Shared C) (Shared.Result A R) ε α}
      {answers : List (Except ε A)}
      (hi : s.callers[i]? = some ⟨q, call .promise k, none, answers⟩) :
      Turned program make serve s (.goes i x)
        { (s.demand make).2 with
          callers := s.callers.set i ⟨q, call .promise k, some (s.demand make).1, answers⟩ }
  | calls {i : ℕ} {x : χ} {q : ρ} {c : C}
      {k : Except ε (R c) → Prog (Shared C) (Shared.Result A R) ε α} {answers : List (Except ε A)}
      (hi : s.callers[i]? = some ⟨q, call (.own c) k, none, answers⟩) :
      Turned program make serve s (.goes i x)
        { s with callers := s.callers.set i ⟨q, k (serve c x), none, answers⟩ }
  | works {k : ℕ} {x : χ} {c : C} {f : Except ε (R c) → Prog C R ε A}
      (hk : s.started[k]? = some (call c f)) :
      Turned program make serve s (.works k x)
        { s with started := s.started.set k (f (serve c x)) }
  | resumes {i promise : ℕ} {q : ρ} {k : Except ε A → Prog (Shared C) (Shared.Result A R) ε α}
      {answers : List (Except ε A)} {p : Prog C R ε A} {r : Except ε A}
      (hi : s.callers[i]? = some ⟨q, call .promise k, some promise, answers⟩)
      (hp : s.started[promise]? = some p) (hr : p.settled = some r) :
      Turned program make serve s (.resumes i)
        { s with callers := s.callers.set i ⟨q, k r, none, answers ++ [r]⟩ }

theorem demand_callers (s : SharedRun ρ C R ε A α) : (s.demand make).2.callers = s.callers := by
  unfold demand
  split
  · rfl
  · rfl

theorem step_some (h : step program make serve s l = some t) : Turned program make serve s l t := by
  cases l with
  | begins q =>
    obtain rfl := Option.some.inj h
    exact .begins q
  | goes i x =>
    unfold step at h
    dsimp only at h
    split at h
    · -- its next call asks for the shared promise
      rename_i hi
      obtain rfl := Option.some.inj h
      rw [demand_callers]
      exact .asks hi
    · rename_i hi
      obtain rfl := Option.some.inj h
      exact .calls hi
    · cases h
  | works k x =>
    unfold step at h
    dsimp only at h
    split at h
    · rename_i hk
      obtain rfl := Option.some.inj h
      exact .works hk
    · cases h
  | resumes i =>
    unfold step at h
    dsimp only at h
    split at h
    · -- it is one of its own
      rename_i hi
      obtain ⟨r, hr, rfl⟩ := Option.map_eq_some_iff.mp h
      obtain ⟨p, hp, hsettled⟩ := Option.bind_eq_some_iff.mp hr
      exact .resumes hi hp hsettled
    · cases h

/-! ### One promise -/

/-- There is one promise at most, everyone who waits waits for it, and every answer is what it was
settled with. -/
structure One (s : SharedRun ρ C R ε A α) : Prop where
  kept : (s.promise = none ∧ s.started = []) ∨ ∃ p, s.promise = some 0 ∧ s.started = [p]
  awaits : ∀ c ∈ s.callers, ∀ k, c.awaits = some k → k = 0
  answers : ∀ c ∈ s.callers, ∀ r ∈ c.answers, ∃ p, s.started = [p] ∧ p.settled = some r

theorem one_initial : One (initial : SharedRun ρ C R ε A α) where
  kept := .inl ⟨rfl, rfl⟩
  awaits _ hc := nomatch hc
  answers _ hc := nomatch hc

/-- The promise that is demanded is the one. -/
theorem One.demand (h : One s) (make : Prog C R ε A) :
    (s.demand make).1 = 0 ∧ ∃ p, (s.demand make).2.promise = some 0 ∧
      (s.demand make).2.started = [p] ∧ ∀ p', s.started = [p'] → p = p' := by
  unfold SharedRun.demand
  obtain ⟨hpromise, hstarted⟩ | ⟨p, hpromise, hstarted⟩ := h.kept
  · rw [hpromise]
    dsimp only
    rw [hstarted]
    refine ⟨rfl, make, rfl, rfl, fun p' hp' => ?_⟩
    cases hp'
  · rw [hpromise]
    refine ⟨rfl, p, hpromise, hstarted, fun p' hp' => ?_⟩
    rw [hstarted] at hp'
    exact List.singleton_inj.mp hp'

/-- **One turn** keeps it one promise. -/
theorem One.step (h : One s) (hstep : Turned program make serve s l t) : One t := by
  cases hstep with
  | begins q =>
    refine ⟨h.kept, fun c hc k hk => ?_, fun c hc r hr => ?_⟩
    · rcases List.mem_append.mp hc with hold | hnew
      · exact h.awaits c hold k hk
      · obtain rfl := List.mem_singleton.mp hnew
        cases hk
    · rcases List.mem_append.mp hc with hold | hnew
      · exact h.answers c hold r hr
      · obtain rfl := List.mem_singleton.mp hnew
        cases hr
  | @asks i x q k answers hi =>
    obtain ⟨hzero, p, hpromise, hstarted, hsame⟩ := h.demand make
    have hmem := List.mem_of_getElem? hi
    refine ⟨.inr ⟨p, hpromise, hstarted⟩, fun c hc k' hk' => ?_, fun c hc r hr => ?_⟩
    · rcases List.mem_or_eq_of_mem_set hc with hold | rfl
      · exact h.awaits c hold k' hk'
      · exact (Option.some.inj hk').symm.trans hzero
    · have hold : ∃ c' ∈ s.callers, r ∈ c'.answers := by
        rcases List.mem_or_eq_of_mem_set hc with hold | rfl
        · exact ⟨c, hold, hr⟩
        · exact ⟨_, hmem, hr⟩
      obtain ⟨c', hc', hr'⟩ := hold
      obtain ⟨p', hp', hsettled⟩ := h.answers c' hc' r hr'
      obtain rfl := hsame p' hp'
      exact ⟨p, hstarted, hsettled⟩
  | @calls i x q c k answers hi =>
    have hmem := List.mem_of_getElem? hi
    refine ⟨h.kept, fun c' hc k' hk' => ?_, fun c' hc r hr => ?_⟩
    · rcases List.mem_or_eq_of_mem_set hc with hold | rfl
      · exact h.awaits c' hold k' hk'
      · cases hk'
    · rcases List.mem_or_eq_of_mem_set hc with hold | rfl
      · exact h.answers c' hold r hr
      · exact h.answers _ hmem r hr
  | @works k x c f hk =>
    obtain ⟨-, hstarted⟩ | ⟨p, hpromise, hstarted⟩ := h.kept
    · rw [hstarted] at hk
      cases hk
    · rw [hstarted] at hk
      obtain rfl := List.mem_singleton.mp (List.mem_of_getElem? hk)
      have hzero : k = 0 := by
        have hlt := (List.getElem?_eq_some_iff.mp hk).1
        simpa using hlt
      subst hzero
      refine ⟨.inr ⟨f (serve c x), hpromise, ?_⟩, h.awaits, fun c' hc r hr => ?_⟩
      · show s.started.set 0 _ = _
        rw [hstarted]
        rfl
      · -- a promise that has answered somebody works no more
        obtain ⟨p, hp, hsettled⟩ := h.answers c' hc r hr
        rw [hstarted] at hp
        obtain rfl := List.singleton_inj.mp hp
        cases hsettled
  | @resumes i promise q k answers p r hi hp hr =>
    have hmem := List.mem_of_getElem? hi
    have hzero := h.awaits _ hmem promise rfl
    subst hzero
    refine ⟨h.kept, fun c hc k' hk' => ?_, fun c hc r' hr' => ?_⟩
    · rcases List.mem_or_eq_of_mem_set hc with hold | rfl
      · exact h.awaits c hold k' hk'
      · cases hk'
    · rcases List.mem_or_eq_of_mem_set hc with hold | rfl
      · exact h.answers c hold r' hr'
      · rcases List.mem_append.mp hr' with hold | hnew
        · exact h.answers _ hmem r' hold
        · obtain rfl := List.mem_singleton.mp hnew
          obtain ⟨-, hstarted⟩ | ⟨p', -, hstarted⟩ := h.kept
          · rw [hstarted] at hp
            cases hp
          · rw [hstarted] at hp
            obtain rfl := Option.some.inj hp
            exact ⟨p', hstarted, hr⟩

/-- **A run** keeps it one promise. -/
theorem one_run {ls : List (Turn ρ χ)} (hs : One s)
    (hrun : exec (step program make serve) s ls = some t) : One t := by
  have hkeep : ∀ s l t, One s → True → SharedRun.step program make serve s l = some t → One t :=
    fun s l t hs _ hstep => hs.step (step_some hstep)
  exact exec_invariant hkeep hs (along_true _ _) hrun

/-- All answers are one. -/
theorem One.answers_agree (h : One s) {c c' : Caller ρ C R ε A α} (hc : c ∈ s.callers)
    (hc' : c' ∈ s.callers) {r r' : Except ε A} (hr : r ∈ c.answers) (hr' : r' ∈ c'.answers) :
    r = r' := by
  obtain ⟨p, hp, hsettled⟩ := h.answers c hc r hr
  obtain ⟨p', hp', hsettled'⟩ := h.answers c' hc' r' hr'
  obtain rfl := List.singleton_inj.mp (hp.symm.trans hp')
  exact Option.some.inj (hsettled.symm.trans hsettled')

/-- What was rejected stays rejected. -/
theorem failed_step (hstep : Turned program make serve s l t) {k : ℕ} {e : ε}
    (h : s.started[k]? = some (throw e)) : t.started[k]? = some (throw e) := by
  cases hstep with
  | begins q => exact h
  | asks hi =>
    unfold SharedRun.demand
    split
    · exact h
    · rw [List.getElem?_append_left (List.getElem?_eq_some_iff.mp h).1]
      exact h
  | calls hi => exact h
  | @works k' x c f hk =>
    rw [List.getElem?_set_ne]
    · exact h
    · rintro rfl
      rw [hk] at h
      cases h
  | resumes hi hp hr => exact h

/-! ### Callers that need the promise -/

/-- The function first awaits the promise, and raises if that was rejected. -/
def Needs (p : Prog (Shared C) (Shared.Result A R) ε α) : Prop :=
  ∃ k, p = call .promise k ∧ ∀ e, (k (.error e)).Raised

/-- What comes after does not help. -/
theorem Needs.bind {β : Type} {p : Prog (Shared C) (Shared.Result A R) ε α} (h : Needs p)
    (f : α → Prog (Shared C) (Shared.Result A R) ε β) : Needs (p >>= f) := by
  obtain ⟨k, rfl, hraises⟩ := h
  refine ⟨fun r => k r >>= f, rfl, fun e => ?_⟩
  obtain ⟨e', he⟩ := raised_iff_throw.mp (hraises e)
  show (k (.error e) >>= f).Raised
  rw [he]
  trivial

/-- A handler that throws does not help either. -/
theorem Needs.tryCatch {p : Prog (Shared C) (Shared.Result A R) ε α} (h : Needs p)
    {handler : ε → Prog (Shared C) (Shared.Result A R) ε α} (hhandler : ∀ e, (handler e).Raised) :
    Needs (p.tryCatch handler) := by
  obtain ⟨k, rfl, hraises⟩ := h
  refine ⟨fun r => (k r).tryCatch handler, rfl, fun e => ?_⟩
  obtain ⟨e', he⟩ := raised_iff_throw.mp (hraises e)
  show ((k (.error e)).tryCatch handler).Raised
  rw [he]
  exact hhandler e'

/-- A caller that has got no answer has done nothing yet; without a good one it has raised. -/
def Begun (program : ρ → Prog (Shared C) (Shared.Result A R) ε α) (s : SharedRun ρ C R ε A α) : Prop :=
  ∀ c ∈ s.callers, (c.answers = [] ∧ c.prog = program c.request) ∨
    (∃ a, Except.ok a ∈ c.answers) ∨ c.prog.Raised

theorem Begun.step (h : Begun program s) (hneeds : ∀ q, Needs (program q))
    (hstep : Turned program make serve s l t) : Begun program t := by
  have hset : ∀ {i : ℕ} {c' : Caller ρ C R ε A α}, ((c'.answers = [] ∧ c'.prog = program c'.request) ∨
      (∃ a, Except.ok a ∈ c'.answers) ∨ c'.prog.Raised) → ∀ c ∈ s.callers.set i c',
        (c.answers = [] ∧ c.prog = program c.request) ∨ (∃ a, Except.ok a ∈ c.answers) ∨
          c.prog.Raised := by
    intro i c' hc' c hc
    rcases List.mem_or_eq_of_mem_set hc with hold | rfl
    · exact h c hold
    · exact hc'
  cases hstep with
  | begins q =>
    intro c hc
    rcases List.mem_append.mp hc with hold | hnew
    · exact h c hold
    · obtain rfl := List.mem_singleton.mp hnew
      exact .inl ⟨rfl, rfl⟩
  | asks hi =>
    apply hset
    have hold := h _ (List.mem_of_getElem? hi)
    exact hold
  -- a caller that goes on has had an answer: without one it only waits
  | @calls i x q c k answers hi =>
    apply hset
    rcases h _ (List.mem_of_getElem? hi) with ⟨-, hprog⟩ | hgood | hraised
    · obtain ⟨k', hk', -⟩ := hneeds q
      rw [hk'] at hprog
      cases hprog
    · exact .inr (.inl hgood)
    · exact hraised.elim
  | works hk => exact h
  -- the promise is settled: its value is an answer, its error is raised
  | @resumes i promise q k answers p r hi hp hr =>
    apply hset
    rcases h _ (List.mem_of_getElem? hi) with ⟨hnone, hprog⟩ | ⟨a, ha⟩ | hraised
    · cases r with
      | ok a => exact .inr (.inl ⟨a, List.mem_append_right _ List.mem_cons_self⟩)
      | error e =>
        obtain ⟨k', hk', hraises⟩ := hneeds q
        rw [hk'] at hprog
        obtain rfl : k = k' := by
          injection hprog
        exact .inr (.inr (hraises e))
    · exact .inr (.inl ⟨a, List.mem_append_left _ ha⟩)
    · exact hraised.elim

/-- A caller that has got an error has raised. -/
theorem raised_of_error (hneeds : ∀ q, Needs (program q)) {ls : List (Turn ρ χ)}
    (hrun : exec (step program make serve) initial ls = some s) {c : Caller ρ C R ε A α}
    (hc : c ∈ s.callers) {e : ε} (he : Except.error e ∈ c.answers) : c.prog.Raised := by
  have hkeep : ∀ s l t, Begun program s → True → SharedRun.step program make serve s l = some t →
      Begun program t := fun s l t hs _ hstep => hs.step hneeds (step_some hstep)
  have hbegun : Begun program (initial : SharedRun ρ C R ε A α) := fun c hc => nomatch hc
  rcases exec_invariant hkeep hbegun (along_true _ _) hrun c hc with ⟨hnone, -⟩ | ⟨a, ha⟩ | hraised
  · rw [hnone] at he
    cases he
  · cases (one_run one_initial hrun).answers_agree hc hc ha he
  · exact hraised

/-! ### After a failure -/

/-- The callers that are there from the `n`-th on have got no error. -/
def Recovered (n : ℕ) (t : SharedRun ρ C R ε A α) : Prop :=
  ∀ i c, n ≤ i → t.callers[i]? = some c → ∀ r ∈ c.answers, ∃ a, r = .ok a

/-- The callers that are there from the `n`-th on have got no answer. -/
def Unanswered (n : ℕ) (t : SharedRun ρ C R ε A α) : Prop :=
  ∀ i c, n ≤ i → t.callers[i]? = some c → c.answers = []

/-- **A failure is kept.**  Once nothing fails any more, the callers that begin from then on get no
error exactly if nothing has failed before, or none of them gets as far as an answer. -/
theorem recovers_iff {ls ls' : List (Turn ρ χ)}
    (hbefore : exec (step program make serve) initial ls = some s)
    (hafter : exec (step program make serve) s ls' = some t)
    (hworks : ∀ (k : ℕ) (e : ε), t.started[k]? = some (throw e) → s.started[k]? = some (throw e)) :
    Recovered s.callers.length t ↔ ¬ s.Failed ∨ Unanswered s.callers.length t := by
  have hone := one_run one_initial hbefore
  have hone' := one_run hone hafter
  constructor
  · intro hrecovered
    by_contra hnot
    obtain ⟨hfailed, hanswered⟩ := not_or.mp hnot
    obtain ⟨p, hp, hraised⟩ := not_not.mp hfailed
    obtain ⟨e, rfl⟩ := raised_iff_throw.mp hraised
    unfold Unanswered at hanswered
    push Not at hanswered
    obtain ⟨i, c, hge, hc, hne⟩ := hanswered
    obtain ⟨r, hr⟩ := List.exists_mem_of_ne_nil _ hne
    obtain ⟨p', hp', hsettled⟩ := hone'.answers c (List.mem_of_getElem? hc) r hr
    obtain ⟨k, hk⟩ := List.mem_iff_getElem?.mp hp
    -- the failure is still there
    have hkeep : ∀ s l t, s.started[k]? = some (Prog.throw e : Prog C R ε A) → True →
        SharedRun.step program make serve s l = some t → t.started[k]? = some (throw e) :=
      fun s l t hs _ hstep => failed_step (step_some hstep) hs
    have hlast := exec_invariant hkeep hk (along_true _ _) hafter
    rw [hp'] at hlast
    obtain rfl := List.mem_singleton.mp (List.mem_of_getElem? hlast)
    obtain ⟨a, rfl⟩ := hrecovered i c hge hc r hr
    cases hsettled
  · rintro (hfine | hnone) i c hge hc r hr
    · obtain ⟨p, hp, hsettled⟩ := hone'.answers c (List.mem_of_getElem? hc) r hr
      cases r with
      | ok a => exact ⟨a, rfl⟩
      | error e =>
        obtain rfl := settled_error.mp hsettled
        have hzero : t.started[0]? = some (Prog.throw e) := by
          rw [hp]
          rfl
        exact absurd ⟨_, List.mem_of_getElem? (hworks 0 e hzero), trivial⟩ hfine
    · rw [hnone i c hge hc] at hr
      cases hr

end SharedRun

end Program
