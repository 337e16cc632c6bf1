/-
NexCause/RelyGuarantee.lean

Programs that share a state, on terms: an invariant that every step keeps, and
a relation that says what a step may do to the state.

Between two calls of a program the others may have made any number of steps.
So what it has learned is worth something only if it is stable, that is, if no
step on these terms makes it false.  A program that asks for nothing but what
is on the terms, given what it has learned, meets the contract `Terms.contract`.

Main result: in a pool of such programs, beside an environment that moves on
the same terms, the invariant always holds, and what a program has established
when it ends still holds, if it is stable (`Terms.upheld`).
-/
import NexCause.Interleaving

namespace Program

open Prog Transition

variable {C : Type} {R : C → Type} {ε α β σ χ ρ η : Type}

/-- What every step keeps, and what it may do. -/
structure Terms (σ : Type) where
  keeps : σ → Prop
  allows : σ → σ → Prop
  refl : ∀ s, allows s s
  trans : ∀ s t u, allows s t → allows t u → allows s u

namespace Terms

variable (T : Terms σ) (serve : Service C R ε χ σ)

/-- A step on the terms. -/
structure Step (s t : σ) : Prop where
  keeps : T.keeps t
  allows : T.allows s t

/-- No step makes it false. -/
def Stable (P : σ → Prop) : Prop := ∀ s t, P s → T.Step s t → P t

/-- Whatever the others do before it, the call is a step on the terms. -/
def contract : Contract C R ε σ where
  pre c s := ∀ t x, (s = t ∨ T.Step s t) → T.keeps t → T.Step t (serve c x t).2
  post c s r u := ∃ t x, (s = t ∨ T.Step s t) ∧ T.keeps t ∧ serve c x t = (r, u) ∧ T.Step t u

variable {T serve}

theorem Step.trans {s t u : σ} (h : T.Step s t) (h' : T.Step t u) : T.Step s u :=
  ⟨h'.keeps, T.trans s t u h.allows h'.allows⟩

theorem Stable.and {P Q : σ → Prop} (hP : T.Stable P) (hQ : T.Stable Q) :
    T.Stable fun s => P s ∧ Q s :=
  fun s t h hst => ⟨hP s t h.1 hst, hQ s t h.2 hst⟩

theorem stable_const (P : Prop) : T.Stable fun _ => P := fun _ _ h _ => h

theorem Stable.later {P : σ → Prop} (hP : T.Stable P) {s t : σ} (hs : P s)
    (h : s = t ∨ T.Step s t) : P t := by
  rcases h with rfl | h
  · exact hs
  · exact hP s t hs h

/-! ### Rules -/

section Rules

variable {c : C} {s : σ} {P : σ → Prop}

/-- One call: it is asked and answered in some later state, in which `P` still holds. -/
theorem perform_meets {Q : Except ε (R c) → σ → Prop} (hP : T.Stable P) (hs : P s)
    (hpre : ∀ t x, P t → T.keeps t → T.Step t (serve c x t).2)
    (hpost : ∀ t x, P t → T.keeps t → Q (serve c x t).1 (serve c x t).2) :
    (perform c : Prog C R ε (R c)).Meets (T.contract serve) Q s := by
  apply meets_perform.mpr
  refine ⟨fun t x hst ht => hpre t x (hP.later hs hst) ht, ?_⟩
  rintro r u ⟨t, x, hst, ht, hserve, -⟩
  have hQ := hpost t x (hP.later hs hst) ht
  rw [hserve] at hQ
  exact hQ

/-- A program whose calls are on the terms wherever `P` holds. -/
theorem calls_meet {A : C → Prop} {p : Prog C R ε α} (hp : p.Calls A) (hP : T.Stable P) (hs : P s)
    (hpre : ∀ c, A c → ∀ t x, P t → T.keeps t → T.Step t (serve c x t).2) :
    p.Meets (T.contract serve) (fun _ t => P t) s := by
  induction p generalizing s with
  | ret a => exact hs
  | throw e => exact hs
  | call c k ih =>
    refine ⟨fun t x hst ht => hpre c hp.1 t x (hP.later hs hst) ht, ?_⟩
    rintro r u ⟨t, x, hst, -, -, hu⟩
    exact ih r (hp.2 r) (hP t u (hP.later hs hst) hu)

/-- What was stable before a program still holds after it. -/
theorem meets_frame {p : Prog C R ε α} {Q : Except ε α → σ → Prop}
    (h : p.Meets (T.contract serve) Q s) (hP : T.Stable P) (hs : P s) :
    p.Meets (T.contract serve) (fun r t => P t ∧ Q r t) s := by
  induction p generalizing s with
  | ret a => exact ⟨hs, h⟩
  | throw e => exact ⟨hs, h⟩
  | call c k ih =>
    refine ⟨h.1, ?_⟩
    rintro r u ⟨t, x, hst, ht, hserve, hu⟩
    exact ih r (h.2 r u ⟨t, x, hst, ht, hserve, hu⟩) (hP t u (hP.later hs hst) hu)

end Rules

/-! ### Pools beside an environment -/

/-- A program makes a call, or the environment moves. -/
def beside (serve : Service C R ε χ σ) (move : η → σ → Option σ) (s : Pool ρ C R ε α σ) :
    (ℕ × χ) ⊕ η → Option (Pool ρ C R ε α σ)
  | .inl l => s.step serve l
  | .inr e => (move e s.state).map fun t => { s with state := t }

/-- Each program was on the terms in a state that lies behind. -/
def OnTerms (T : Terms σ) (serve : Service C R ε χ σ) (Q : ρ → Except ε α → σ → Prop)
    (s : Pool ρ C R ε α σ) : Prop :=
  T.keeps s.state ∧ ∀ (i : ℕ) (q : ρ) (p : Prog C R ε α), s.tasks[i]? = some (q, p) →
    ∃ t, (t = s.state ∨ T.Step t s.state) ∧ p.Meets (T.contract serve) (Q q) t

variable {Q : ρ → Except ε α → σ → Prop} {move : η → σ → Option σ} {s t : Pool ρ C R ε α σ}

theorem later_trans {s t u : σ} (h : s = t ∨ T.Step s t) (h' : T.Step t u) : T.Step s u := by
  rcases h with rfl | h
  · exact h'
  · exact h.trans h'

/-- A call. -/
theorem OnTerms.call {l : ℕ × χ} (h : OnTerms T serve Q s) (hstep : s.step serve l = some t) :
    OnTerms T serve Q t ∧ T.Step s.state t.state := by
  obtain ⟨q, c, k, hq, rfl⟩ := Pool.step_some hstep
  obtain ⟨hkeeps, htasks⟩ := h
  obtain ⟨u, hu, hmeets⟩ := htasks l.1 q (Prog.call c k) hq
  have hcall : T.Step s.state (serve c l.2 s.state).2 := hmeets.1 s.state l.2 hu hkeeps
  refine ⟨⟨hcall.keeps, fun i q' p hi => ?_⟩, hcall⟩
  obtain ⟨rfl, heq⟩ | ⟨-, hi⟩ := Pool.getElem?_set_cases hi
  · obtain ⟨rfl, rfl⟩ := Prod.mk.inj heq
    exact ⟨_, .inl rfl, hmeets.answer ⟨s.state, l.2, hu, hkeeps, rfl, hcall⟩⟩
  · obtain ⟨v, hv, hmeets'⟩ := htasks i q' p hi
    exact ⟨v, .inr (later_trans hv hcall), hmeets'⟩

/-- A move of the environment. -/
theorem OnTerms.moved {u : σ} (h : OnTerms T serve Q s) (hmove : T.Step s.state u) :
    OnTerms T serve Q { s with state := u } := by
  refine ⟨hmove.keeps, fun i q p hi => ?_⟩
  obtain ⟨v, hv, hmeets⟩ := h.2 i q p hi
  exact ⟨v, .inr (later_trans hv hmove), hmeets⟩

/-- **Programs on terms.**  In every reachable state the invariant holds, what has happened is
allowed, and what a program that has ended is to have established was so at some time before. -/
theorem upheld {w : σ} {tasks : List (ρ × Prog C R ε α)} {ls : List ((ℕ × χ) ⊕ η)} (hw : T.keeps w)
    (htasks : ∀ task ∈ tasks, task.2.Meets (T.contract serve) (Q task.1) w)
    (hmove : ∀ e u v, T.keeps u → move e u = some v → T.Step u v)
    (hrun : exec (beside serve move) (Pool.start w tasks) ls = some t) :
    T.keeps t.state ∧ T.allows w t.state ∧
      ∀ (i : ℕ) (q : ρ) (p : Prog C R ε α), t.tasks[i]? = some (q, p) →
        ∃ u, (u = t.state ∨ T.Step u t.state) ∧ p.Meets (T.contract serve) (Q q) u := by
  have hstart : OnTerms T serve Q (Pool.start w tasks) ∧ T.allows w (Pool.start w tasks).state :=
    ⟨⟨hw, fun i q p hi => ⟨w, .inl rfl, htasks (q, p) (List.mem_of_getElem? hi)⟩⟩, T.refl w⟩
  have hkeep : ∀ (u : Pool ρ C R ε α σ) l v, (OnTerms T serve Q u ∧ T.allows w u.state) → True →
      beside serve move u l = some v → OnTerms T serve Q v ∧ T.allows w v.state := by
    rintro u l v ⟨hu, hallows⟩ - hstep
    cases l with
    | inl l =>
      obtain ⟨hv, hcall⟩ := hu.call hstep
      exact ⟨hv, T.trans _ _ _ hallows hcall.allows⟩
    | inr e =>
      obtain ⟨v', hv', rfl⟩ := Option.map_eq_some_iff.mp hstep
      have hstep' := hmove e u.state v' hu.1 hv'
      exact ⟨hu.moved hstep', T.trans _ _ _ hallows hstep'.allows⟩
  obtain ⟨hend, hallows⟩ := exec_invariant hkeep hstart (along_true _ _) hrun
  exact ⟨hend.1, hallows, hend.2⟩

end Terms

end Program
