/-
NexCause/Transition.lean

Runs of a labelled step function.  A system is given by
`step : σ → ℓ → Option σ`: the successor of a state under a label, when the
label is enabled there.  A schedule is a list of labels, and `exec` replays
it, so that a run is a value one can compute as well as reason about.

Two notions carry the results of the other modules:

* `Along step C s ls` — every step of the run from `s` under `ls` meets the
  condition `C`, a predicate on the state *before* the step and its label;
* `exec_invariant`, `exec_relation` — what one step preserves (or relates),
  a whole run preserves (or relates), for runs whose steps all meet `C`.

Nothing here knows which system is run.
-/
import Mathlib.Data.List.Basic

namespace Transition

variable {σ ℓ β : Type*} (step : σ → ℓ → Option σ)

/-! ### Runs -/

/-- Replay a schedule from a state; `none` if some label is not enabled. -/
def exec : σ → List ℓ → Option σ
  | s, [] => some s
  | s, l :: ls => (step s l).bind fun t => exec t ls

/-- Every step of the run from `s` under the schedule meets `C`. -/
def Along (C : σ → ℓ → Prop) : σ → List ℓ → Prop
  | _, [] => True
  | s, l :: ls => C s l ∧ ∀ t, step s l = some t → Along C t ls

@[simp] theorem exec_nil (s : σ) : exec step s [] = some s := rfl

@[simp] theorem exec_cons (s : σ) (l : ℓ) (ls : List ℓ) :
    exec step s (l :: ls) = (step s l).bind fun t => exec step t ls := rfl

@[simp] theorem along_nil (C : σ → ℓ → Prop) (s : σ) : Along step C s [] := trivial

variable {step}

theorem exec_cons_some {s u : σ} {l : ℓ} {ls : List ℓ}
    (h : exec step s (l :: ls) = some u) :
    ∃ t, step s l = some t ∧ exec step t ls = some u := by
  rw [exec_cons, Option.bind_eq_some_iff] at h
  exact h

theorem exec_append (s : σ) (ls ls' : List ℓ) :
    exec step s (ls ++ ls') = (exec step s ls).bind fun t => exec step t ls' := by
  induction ls generalizing s with
  | nil => rfl
  | cons l ls ih =>
    rw [List.cons_append, exec_cons, exec_cons]
    cases step s l with
    | none => rfl
    | some t => exact ih t

/-- Two states of a run that has been computed, by what is seen of them. -/
theorem exec_parts {α γ : Type*} {f : σ → α} {g : σ → γ} {s : σ} {ls ls' : List ℓ} {a : α} {b : γ}
    (hfirst : (exec step s ls).map f = some a) (hwhole : (exec step s (ls ++ ls')).map g = some b) :
    ∃ t u, exec step s ls = some t ∧ exec step t ls' = some u ∧ f t = a ∧ g u = b := by
  obtain ⟨t, ht, hf⟩ := Option.map_eq_some_iff.mp hfirst
  rw [exec_append, ht, Option.bind_some] at hwhole
  obtain ⟨u, hu, hg⟩ := Option.map_eq_some_iff.mp hwhole
  exact ⟨t, u, ht, hu, hf, hg⟩

theorem along_true (s : σ) (ls : List ℓ) : Along step (fun _ _ => True) s ls := by
  induction ls generalizing s with
  | nil => trivial
  | cons l ls ih => exact ⟨trivial, fun t _ => ih t⟩

/-- A condition on the labels alone. -/
theorem along_of_forall {C : ℓ → Prop} {s : σ} {ls : List ℓ} (h : ∀ l ∈ ls, C l) :
    Along step (fun _ l => C l) s ls := by
  induction ls generalizing s with
  | nil => trivial
  | cons l ls ih =>
    exact ⟨h l List.mem_cons_self, fun t _ => ih fun l' hl' => h l' (List.mem_cons_of_mem _ hl')⟩

/-- A condition that the labels meet in every state. -/
theorem along_everywhere {C : σ → ℓ → Prop} {s : σ} {ls : List ℓ} (h : ∀ l ∈ ls, ∀ s, C s l) :
    Along step C s ls := by
  induction ls generalizing s with
  | nil => trivial
  | cons l ls ih =>
    exact ⟨h l List.mem_cons_self s, fun t _ => ih fun l' hl' => h l' (List.mem_cons_of_mem _ hl')⟩

theorem Along.and {C C' : σ → ℓ → Prop} {s : σ} {ls : List ℓ} (h : Along step C s ls)
    (h' : Along step C' s ls) : Along step (fun s l => C s l ∧ C' s l) s ls := by
  induction ls generalizing s with
  | nil => trivial
  | cons l ls ih => exact ⟨⟨h.1, h'.1⟩, fun t ht => ih (h.2 t ht) (h'.2 t ht)⟩

/-- A schedule that starts with an enabled label. -/
theorem along_cons_iff {C : σ → ℓ → Prop} {s t : σ} {l : ℓ} {ls : List ℓ}
    (h : step s l = some t) : Along step C s (l :: ls) ↔ C s l ∧ Along step C t ls := by
  constructor
  · exact fun ⟨hC, hrest⟩ => ⟨hC, hrest t h⟩
  · rintro ⟨hC, hrest⟩
    refine ⟨hC, fun u hu => ?_⟩
    obtain rfl := Option.some.inj (h.symm.trans hu)
    exact hrest

/-- The parts of a run meet what the whole run meets. -/
theorem along_append {C : σ → ℓ → Prop} {s t : σ} {ls ls' : List ℓ}
    (h : Along step C s (ls ++ ls')) (hrun : exec step s ls = some t) :
    Along step C s ls ∧ Along step C t ls' := by
  induction ls generalizing s with
  | nil =>
    obtain rfl := Option.some.inj hrun
    exact ⟨trivial, h⟩
  | cons l ls ih =>
    obtain ⟨u, hu, hrest⟩ := exec_cons_some hrun
    obtain ⟨hfirst, hlast⟩ := ih (h.2 u hu) hrest
    exact ⟨(along_cons_iff hu).mpr ⟨h.1, hfirst⟩, hlast⟩

/-- Whether the steps of a run meet a decidable condition can be computed. -/
instance decidableAlong {C : σ → ℓ → Prop} [∀ s l, Decidable (C s l)] :
    (s : σ) → (ls : List ℓ) → Decidable (Along step C s ls)
  | _, [] => .isTrue trivial
  | s, l :: ls =>
      match h : step s l with
      | none =>
          decidable_of_iff (C s l) ⟨fun hC => ⟨hC, fun _ ht => by cases h.symm.trans ht⟩, And.left⟩
      | some t =>
          have : Decidable (Along step C t ls) := decidableAlong t ls
          decidable_of_iff (C s l ∧ Along step C t ls) (along_cons_iff h).symm

/-! ### Induction over runs -/

/-- **Invariant rule.**  What every step that meets `C` preserves holds at the
end of every run whose steps all meet `C`. -/
theorem exec_invariant {C : σ → ℓ → Prop} {I : σ → Prop}
    (hstep : ∀ s l t, I s → C s l → step s l = some t → I t)
    {s t : σ} {ls : List ℓ} (hs : I s) (hC : Along step C s ls)
    (hrun : exec step s ls = some t) : I t := by
  induction ls generalizing s with
  | nil => exact Option.some.inj hrun ▸ hs
  | cons l ls ih =>
    obtain ⟨u, hu, hrest⟩ := exec_cons_some hrun
    exact ih (hstep s l u hs hC.1 hu) (hC.2 u hu) hrest

/-- **Relation rule.**  If under the invariant `I` every step relates its end
points by a reflexive and transitive `R`, so does every run. -/
theorem exec_relation {C : σ → ℓ → Prop} {I : σ → Prop} {R : σ → σ → Prop}
    (hrefl : ∀ s, R s s) (htrans : ∀ s t u, R s t → R t u → R s u)
    (hstep : ∀ s l t, I s → C s l → step s l = some t → I t ∧ R s t)
    {s t : σ} {ls : List ℓ} (hs : I s) (hC : Along step C s ls)
    (hrun : exec step s ls = some t) : R s t := by
  induction ls generalizing s with
  | nil => exact Option.some.inj hrun ▸ hrefl s
  | cons l ls ih =>
    obtain ⟨u, hu, hrest⟩ := exec_cons_some hrun
    obtain ⟨hI, hR⟩ := hstep s l u hs hC.1 hu
    exact htrans s u t hR (ih hI (hC.2 u hu) hrest)

/-! ### What holds in every state of a run -/

variable (step) in
/-- Every state of the run from `s` under the schedule, the last one included, satisfies `I`. -/
def Always (I : σ → Prop) : σ → List ℓ → Prop
  | s, [] => I s
  | s, l :: ls => I s ∧ ∀ t, step s l = some t → Always I t ls

/-- If `C` says exactly which steps keep `I`, under an invariant `J` of all steps, then the runs
all of whose steps meet `C` are exactly the runs in which `I` always holds. -/
theorem along_iff_always {C : σ → ℓ → Prop} {I J : σ → Prop}
    (hstep : ∀ s l t, J s → I s → step s l = some t → J t ∧ (I t ↔ C s l)) {s t : σ} {ls : List ℓ}
    (hJ : J s) (hI : I s) (hrun : exec step s ls = some t) :
    Along step C s ls ↔ Always step I s ls := by
  induction ls generalizing s with
  | nil => exact ⟨fun _ => hI, fun _ => trivial⟩
  | cons l ls ih =>
    obtain ⟨u, hu, hrest⟩ := exec_cons_some hrun
    obtain ⟨hJu, hiff⟩ := hstep s l u hJ hI hu
    rw [along_cons_iff hu]
    constructor
    · rintro ⟨hC, halong⟩
      refine ⟨hI, fun v hv => ?_⟩
      obtain rfl := Option.some.inj (hu.symm.trans hv)
      exact (ih hJu (hiff.mpr hC) hrest).mp halong
    · rintro ⟨-, halways⟩
      have hrun' := halways u hu
      have hIu : I u := by
        cases ls with
        | nil => exact hrun'
        | cons l' ls' => exact hrun'.1
      exact ⟨hiff.mp hIu, (ih hJu hIu hrest).mpr hrun'⟩

/-! ### Runs that are observed -/

/-- The system with a record `γ` of its run: `note` writes down what it sees of each step. -/
def observed {γ : Type*} (step : σ → ℓ → Option σ) (note : σ → ℓ → γ → γ) :
    σ × γ → ℓ → Option (σ × γ) :=
  fun x l => (step x.1 l).map fun t => (t, note x.1 l x.2)

theorem observed_some {γ : Type*} {note : σ → ℓ → γ → γ} {s t : σ} {g g' : γ} {l : ℓ}
    (h : observed step note (s, g) l = some (t, g')) : step s l = some t ∧ g' = note s l g := by
  obtain ⟨u, hu, heq⟩ := Option.map_eq_some_iff.mp h
  obtain ⟨rfl, rfl⟩ := Prod.mk.inj heq
  exact ⟨hu, rfl⟩

/-- Observing a system changes none of its runs. -/
theorem exec_observed {γ : Type*} (note : σ → ℓ → γ → γ) (s : σ) (g : γ) (ls : List ℓ) :
    (exec (observed step note) (s, g) ls).map Prod.fst = exec step s ls := by
  induction ls generalizing s g with
  | nil => rfl
  | cons l ls ih =>
    rw [exec_cons, exec_cons, observed]
    cases step s l with
    | none => rfl
    | some t => exact ih t (note s l g)

/-- A system whose every step is a step of another one, under a condition the step meets: its
runs are runs of the other one, along the condition. -/
theorem exec_map {ℓ' : Type*} {step' : σ → ℓ' → Option σ} {f : ℓ' → ℓ} {C : σ → ℓ → Prop}
    (h : ∀ s l t, step' s l = some t → step s (f l) = some t ∧ C s (f l)) {s t : σ} {ls : List ℓ'}
    (hrun : exec step' s ls = some t) :
    exec step s (ls.map f) = some t ∧ Along step C s (ls.map f) := by
  induction ls generalizing s with
  | nil => exact ⟨hrun, trivial⟩
  | cons l ls ih =>
    obtain ⟨u, hu, hrest⟩ := exec_cons_some hrun
    obtain ⟨hstep, hC⟩ := h s l u hu
    obtain ⟨hexec, halong⟩ := ih hrest
    rw [List.map_cons, exec_cons, hstep, along_cons_iff hstep]
    exact ⟨hexec, hC, halong⟩

end Transition
