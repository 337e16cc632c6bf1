/-
NexCause/Gates.lean

Flags that let in one function at a time: a function asks to enter, is let in
if the flag of its gate is down, which puts the flag up, and takes it down when
it leaves.

Main results: where every function that was let in leaves before it ends, a
flag is up exactly while some function is inside, and no two are inside at once
(`Gate.barred_run`); the step that ends such a function leaves the flag down
(`Gate.Barred.down`).
-/
import Mathlib.Data.List.Induction
import NexCause.Promises

namespace Program

open Prog Transition

/-- What a call asks of a gate. -/
inductive Ask (I : Type)
  | enter (i : I)
  | leave (i : I)

/-- Where a function is. -/
inductive Phase (I : Type)
  | fresh
  | inside (i : I)
  | over

/-- Where a function is that has asked, and was let in or not. -/
def Phase.after {I : Type} (g : Phase I) : Option (Ask I) → Bool → Phase I
  | none, _ => g
  | some (.enter i), true => .inside i
  | some (.enter _), false => .over
  | some (.leave _), _ => .over

/-- Where a function has to be to ask. -/
def Phase.MayAsk {I : Type} (g : Phase I) : Option (Ask I) → Prop
  | none => g ≠ .over
  | some (.enter _) => g = .fresh
  | some (.leave i) => g = .inside i

variable {I Q C : Type} {R : C → Type} {ε α β σ χ : Type}

/-- Which calls ask to enter or to leave, and which answers let in. -/
structure Gate (I C : Type) (R : C → Type) (ε : Type) where
  wants : C → Option (Ask I)
  admits : (c : C) → Except ε (R c) → Bool

namespace Gate

variable (G : Gate I C R ε)

/-- Where a function is after one more answer. -/
def track (g : Phase I) : Exchange (Await Q C) (Await.Result R) ε → Phase I
  | ⟨.all _, _⟩ => g
  | ⟨.call c, r⟩ => g.after (G.wants c) (G.admits c r)

/-- A function enters once, leaves the gate that it has entered, and then does no more. -/
def policy : Policy Q C R ε (Phase I) where
  valid _ := True
  first := .fresh
  track := G.track
  allowed _ := True
  pre
    | .all _, g => g ≠ .over
    | .call c, g => g.MayAsk (G.wants c)

/-- A function that has ended is not inside. -/
def Outside (_ : Q) (_ : Except ε Unit) (g : Phase I) : Prop := ∀ i, g ≠ .inside i

theorem outside_over (q : Q) (r : Except ε Unit) : Outside (I := I) q r .over := fun _ => nofun

/-- The functions follow the policy. -/
def Followed (program : Q → Async Q C R ε Unit) : Prop :=
  ∀ q, (program q).Meets G.policy.contract (Outside q) .fresh

/-- The service puts the flags up and takes them down. -/
structure Guards (serve : Service C R ε χ σ) (up : I → σ → Prop) : Prop where
  enter : ∀ c i x w, G.wants c = some (.enter i) → G.admits c (serve c x w).1 = true →
    ¬ up i w ∧ ∀ j, up j (serve c x w).2 ↔ up j w ∨ j = i
  refuse : ∀ c i x w, G.wants c = some (.enter i) → G.admits c (serve c x w).1 = false →
    ∀ j, up j (serve c x w).2 ↔ up j w
  leave : ∀ c i x w, G.wants c = some (.leave i) → ∀ j, up j (serve c x w).2 ↔ up j w ∧ j ≠ i
  other : ∀ c x w, G.wants c = none → ∀ j, up j (serve c x w).2 ↔ up j w

/-- A service that has the flags that are up in a list. -/
structure Lists [DecidableEq I] (serve : Service C R ε χ σ) (flags : σ → List I) : Prop where
  enter : ∀ c i x w, G.wants c = some (.enter i) →
    G.admits c (serve c x w).1 = decide (i ∉ flags w) ∧
      flags (serve c x w).2 = if i ∈ flags w then flags w else i :: flags w
  leave : ∀ c i x w, G.wants c = some (.leave i) →
    flags (serve c x w).2 = (flags w).filter (· ≠ i)
  other : ∀ c x w, G.wants c = none → flags (serve c x w).2 = flags w

/-- Fiber `r` was let in at gate `i`, and has not ended. -/
def Inside (s : Fibers Q C R ε σ) (r : ℕ) (i : I) : Prop :=
  ∃ f, s.At r f ∧ ¬ f.prog.Finished ∧ ∃ c answer, (r, ⟨.call c, answer⟩) ∈ s.trace ∧
    G.wants c = some (.enter i) ∧ G.admits c answer = true

/-- The flags are up exactly while a function is inside, and no two are inside at once. -/
structure Barred (up : I → σ → Prop) (s : Fibers Q C R ε σ) : Prop where
  up_iff : ∀ i, up i s.state ↔ ∃ r, G.policy.phase s r = .inside i
  one : ∀ i r r', G.policy.phase s r = .inside i → G.policy.phase s r' = .inside i → r = r'

variable {G} {program : Q → Async Q C R ε Unit} {serve : Service C R ε χ σ} {up : I → σ → Prop}
  {s t : Fibers Q C R ε σ}

theorem Lists.guards [DecidableEq I] {flags : σ → List I} (h : G.Lists serve flags) :
    G.Guards serve fun i w => i ∈ flags w where
  enter c i x w hwants hadmits := by
    obtain ⟨hanswer, hflags⟩ := h.enter c i x w hwants
    have hdown : i ∉ flags w := of_decide_eq_true (hanswer.symm.trans hadmits)
    rw [if_neg hdown] at hflags
    refine ⟨hdown, fun j => ?_⟩
    rw [hflags, List.mem_cons]
    exact or_comm
  refuse c i x w hwants hadmits j := by
    obtain ⟨hanswer, hflags⟩ := h.enter c i x w hwants
    have hup : i ∈ flags w := not_not.mp (of_decide_eq_false (hanswer.symm.trans hadmits))
    rw [hflags, if_pos hup]
  leave c i x w hwants j := by
    rw [h.leave c i x w hwants, List.mem_filter, decide_eq_true_eq]
  other c x w hwants j := by
    rw [h.other c x w hwants]

/-! ### Calls that ask for nothing -/

/-- The call asks for nothing. -/
def Quiet (G : Gate I C R ε) : Await Q C → Prop
  | .all _ => True
  | .call c => G.wants c = none

/-- A function that asks for nothing stays where it is. -/
theorem meets_of_quiet {p : Async Q C R ε α} (hp : p.Calls G.Quiet) {g : Phase I} (hg : g ≠ .over) :
    G.policy.Keeps g p := by
  apply hp.keeps (I := fun g' => g' = g) _ rfl
  rintro c g' hc rfl
  cases c with
  | all qs =>
    refine ⟨hg, ?_⟩
    rintro r _ ⟨-, rfl⟩
    rfl
  | call c =>
    have hc : G.wants c = none := hc
    constructor
    · show g'.MayAsk (G.wants c)
      rw [hc]
      exact hg
    · rintro r _ ⟨-, rfl⟩
      show g'.after (G.wants c) (G.admits c r) = g'
      rw [hc]
      rfl

/-! ### Where a function is -/

/-- The functions follow the policy in every state. -/
theorem lawful (h : G.Followed program) :
    G.policy.Lawful program serve Outside fun _ => True where
  meets q _ := h q
  starts _ _ _ _ _ := trivial
  awaits _ _ := trivial
  serves _ _ _ _ _ _ := ⟨trivial, trivial⟩

/-- A function that is inside was let in. -/
theorem entered_of_inside {i : I} {own : List (Exchange (Await Q C) (Await.Result R) ε)}
    (h : own.foldl G.track .fresh = .inside i) :
    ∃ c answer, ⟨.call c, answer⟩ ∈ own ∧ G.wants c = some (.enter i) ∧ G.admits c answer = true := by
  induction own using List.reverseRecOn with
  | nil => cases h
  | append_singleton own e ih =>
    rw [List.foldl_append] at h
    have hbefore : own.foldl G.track .fresh = .inside i →
        ∃ c answer, ⟨.call c, answer⟩ ∈ own ++ [e] ∧ G.wants c = some (.enter i) ∧
          G.admits c answer = true := by
      intro hi
      obtain ⟨c, answer, hmem, hwants, hadmits⟩ := ih hi
      exact ⟨c, answer, List.mem_append_left _ hmem, hwants, hadmits⟩
    obtain ⟨c, r⟩ := e
    cases c with
    -- waiting for others moves no phase
    | all qs => exact hbefore h
    | call c =>
      replace h : (own.foldl G.track .fresh).after (G.wants c) (G.admits c r) = .inside i := h
      cases hwants : G.wants c with
      -- a call that is not at a gate moves none either
      | none =>
        rw [hwants] at h
        exact hbefore h
      | some ask =>
        rw [hwants] at h
        cases ask with
        | leave j => cases h
        | enter j =>
          cases hadmits : G.admits c r with
          | false =>
            rw [hadmits] at h
            cases h
          | true =>
            rw [hadmits] at h
            -- the last call is the one that entered
            obtain rfl := Phase.inside.inj h
            exact ⟨c, r, List.mem_append_right _ (List.mem_singleton.mpr rfl), hwants, hadmits⟩

/-- A record, up to one of its entries. -/
theorem reaches_split {p q : Async Q C R ε α}
    {own own' : List (Exchange (Await Q C) (Await.Result R) ε)}
    {e : Exchange (Await Q C) (Await.Result R) ε} (h : p.Reaches (own ++ e :: own') q) :
    ∃ k, p.Reaches own (call e.call k) ∧ (k e.answer).Reaches own' q := by
  induction own generalizing p with
  | nil =>
    cases h with
    | next h => exact ⟨_, .start _, h⟩
  | cons e' own ih =>
    cases h with
    | next h =>
      obtain ⟨k, hk, hrest⟩ := ih h
      exact ⟨k, .next hk, hrest⟩

/-- A function that is inside stays there until it leaves, and then does no more. -/
theorem stays_inside {p q : Async Q C R ε α} {post : Except ε α → Phase I → Prop} {i : I}
    {g : Phase I} {own : List (Exchange (Await Q C) (Await.Result R) ε)} (h : p.Reaches own q)
    (hp : p.Meets G.policy.contract post g) (hg : g = .inside i ∨ g = .over) :
    own.foldl G.track g = .inside i ∨ own.foldl G.track g = .over := by
  induction h generalizing g with
  | start p => exact hg
  | @next c k r own q h ih =>
    apply ih (hp.2 r (G.track g ⟨c, r⟩) ⟨trivial, rfl⟩)
    cases c with
    | all qs => exact hg
    | call c =>
      have hpre : g.MayAsk (G.wants c) := hp.1
      show g.after (G.wants c) (G.admits c r) = _ ∨ g.after (G.wants c) (G.admits c r) = _
      cases hwants : G.wants c with
      | none => exact hg
      | some ask =>
        rw [hwants] at hpre
        cases ask with
        | leave j => exact .inr rfl
        | enter j =>
          obtain rfl : g = .fresh := hpre
          rcases hg with hg | hg <;> cases hg

/-- A fiber is inside exactly if it was let in and has not ended. -/
theorem phase_iff (serve : Service C R ε χ σ) (hfollowed : G.Followed program)
    (h : G.policy.Kept program (fun _ => True) s) {r : ℕ} {i : I} :
    G.policy.phase s r = .inside i ↔ G.Inside s r i := by
  have hlaw : G.policy.Lawful program serve Outside fun _ => True := lawful hfollowed
  constructor
  · intro hinside
    by_cases hr : r < s.fibers.length
    · have hf : s.At r s.fibers[r] := List.getElem?_eq_getElem hr
      refine ⟨_, hf, fun hfinished => ?_, ?_⟩
      · have hmeets := h.meets hlaw hf
        rw [hinside] at hmeets
        cases hprog : (s.fibers[r]).prog with
        | ret a =>
          rw [hprog] at hmeets
          exact hmeets i rfl
        | throw e =>
          rw [hprog] at hmeets
          exact hmeets i rfl
        | call c k =>
          rw [hprog] at hfinished
          exact hfinished
      · obtain ⟨c, answer, hmem, hasked⟩ := entered_of_inside hinside
        exact ⟨c, answer, mem_ownTrace.mp hmem, hasked⟩
    · rw [Policy.phase_new h.formed (Nat.le_of_not_lt hr)] at hinside
      cases hinside
  · rintro ⟨f, hf, hunfinished, c, answer, hmem, hwants, hadmits⟩
    obtain ⟨own, own', hown⟩ := List.append_of_mem (mem_ownTrace.mpr hmem)
    have hleft := h.formed.left r f hf
    rw [hown] at hleft
    obtain ⟨k, hbefore, hafter⟩ := reaches_split hleft
    -- it was fresh when it asked, and is inside since it was let in
    have hmeets : (call (.call c) k : Async Q C R ε Unit).Meets G.policy.contract
        (Outside f.request) (own.foldl G.track .fresh) := by
      apply (hfollowed f.request).reaches (A := fun _ => True) _ hbefore fun _ _ => trivial
      exact fun _ _ _ _ => ⟨trivial, rfl⟩
    have hpre : (own.foldl G.track .fresh).MayAsk (G.wants c) := hmeets.1
    rw [hwants] at hpre
    have hfresh : own.foldl G.track .fresh = .fresh := hpre
    have htrack : G.track .fresh (⟨.call c, answer⟩ : Exchange (Await Q C) (Await.Result R) ε) =
        .inside i := by
      show Phase.after .fresh (G.wants c) (G.admits c answer) = _
      rw [hwants, hadmits]
      rfl
    have hin := hmeets.2 answer (.inside i) ⟨trivial, (hfresh ▸ htrack).symm⟩
    have hphase : G.policy.phase s r = own'.foldl G.track (.inside i) := by
      show (ownTrace s.trace r).foldl G.track .fresh = _
      rw [hown, List.foldl_append, hfresh, List.foldl_cons, htrack]
    rw [hphase]
    rcases stays_inside hafter hin (.inl rfl) with hinside | hover
    · exact hinside
    · -- one that has left has no call to make
      have hnow := h.meets hlaw hf
      rw [hphase, hover] at hnow
      cases hprog : f.prog with
      | ret a =>
        rw [hprog] at hunfinished
        exact absurd trivial hunfinished
      | throw e =>
        rw [hprog] at hunfinished
        exact absurd trivial hunfinished
      | call c' k' =>
        rw [hprog] at hnow
        cases c' with
        | all qs => exact absurd rfl hnow.1
        | call c' =>
          have hpre : Phase.over.MayAsk (G.wants c') := hnow.1
          cases hwants' : G.wants c' with
          | none =>
            rw [hwants'] at hpre
            exact absurd rfl hpre
          | some ask =>
            rw [hwants'] at hpre
            cases ask with
            | enter j => cases hpre
            | leave j => cases hpre

/-! ### Flags -/

/-- The other functions stay where they are. -/
theorem phase_others {l : ℕ} {x : χ} (hformed : s.Formed program)
    (hstep : Fibers.Stepped program serve s l x t) {j : ℕ} (hne : j ≠ l) :
    G.policy.phase t j = G.policy.phase s j := by
  rcases Policy.stepped_others hstep hformed hne with ⟨-, hphase⟩ | ⟨hnew, hphase⟩
  · exact hphase
  · rw [hphase, Policy.phase_new hformed hnew]

/-- The flags of some functions, by where these are. -/
structure Flags (up : I → Prop) (phase : ℕ → Phase I) : Prop where
  up_iff : ∀ i, up i ↔ ∃ r, phase r = .inside i
  one : ∀ i r r', phase r = .inside i → phase r' = .inside i → r = r'

section Flags

variable {flag flag' : I → Prop} {phase phase' : ℕ → Phase I} {l : ℕ} {i : I}

/-- Where nobody has moved and no flag has changed, nothing is to be shown. -/
theorem Flags.same (h : Flags flag phase) (hphase : ∀ r, phase' r = phase r)
    (hup : ∀ j, flag' j ↔ flag j) : Flags flag' phase' := by
  obtain rfl : phase' = phase := funext hphase
  exact ⟨fun j => (hup j).trans (h.up_iff j), h.one⟩

/-- A function that is not let in. -/
theorem Flags.refused (h : Flags flag phase) (hothers : ∀ r, r ≠ l → phase' r = phase r)
    (hfresh : phase l = .fresh) (hover : phase' l = .over) (hup : ∀ j, flag' j ↔ flag j) :
    Flags flag' phase' := by
  have hinside : ∀ r j, phase' r = .inside j ↔ phase r = .inside j := by
    intro r j
    by_cases hrl : r = l
    · subst hrl
      rw [hfresh, hover]
      exact iff_of_false nofun nofun
    · rw [hothers r hrl]
  refine ⟨fun j => ?_, fun j r r' hr hr' => ?_⟩
  · rw [hup, h.up_iff]
    simp only [hinside]
  · exact h.one j r r' ((hinside r j).mp hr) ((hinside r' j).mp hr')

/-- A function that is let in, where the flag was down. -/
theorem Flags.entered (h : Flags flag phase) (hothers : ∀ r, r ≠ l → phase' r = phase r)
    (hfresh : phase l = .fresh) (hin : phase' l = .inside i) (hdown : ¬ flag i)
    (hup : ∀ j, flag' j ↔ flag j ∨ j = i) : Flags flag' phase' := by
  have hinside : ∀ r j, phase' r = .inside j ↔ phase r = .inside j ∨ r = l ∧ j = i := by
    intro r j
    by_cases hrl : r = l
    · subst hrl
      rw [hfresh, hin]
      constructor
      · intro hsame
        exact .inr ⟨rfl, (Phase.inside.inj hsame).symm⟩
      · rintro (hfresh' | ⟨-, rfl⟩)
        · cases hfresh'
        · rfl
    · rw [hothers r hrl]
      simp [hrl]
  -- nobody else is at this gate, since its flag was down
  have hnobody : ∀ r, phase r ≠ .inside i := fun r hr => hdown ((h.up_iff i).mpr ⟨r, hr⟩)
  refine ⟨fun j => ?_, fun j r r' hr hr' => ?_⟩
  · rw [hup j, h.up_iff]
    simp only [hinside]
    constructor
    · rintro (⟨r, hr⟩ | rfl)
      · exact ⟨r, .inl hr⟩
      · exact ⟨l, .inr ⟨rfl, rfl⟩⟩
    · rintro ⟨r, hr | ⟨-, rfl⟩⟩
      · exact .inl ⟨r, hr⟩
      · exact .inr rfl
  · rcases (hinside r j).mp hr with hr | ⟨rfl, rfl⟩
    · rcases (hinside r' j).mp hr' with hr' | ⟨rfl, rfl⟩
      · exact h.one j r r' hr hr'
      · exact absurd hr (hnobody r)
    · rcases (hinside r' j).mp hr' with hr' | ⟨rfl, -⟩
      · exact absurd hr' (hnobody r')
      · rfl

/-- A function that leaves. -/
theorem Flags.left (h : Flags flag phase) (hothers : ∀ r, r ≠ l → phase' r = phase r)
    (hold : phase l = .inside i) (hover : phase' l = .over) (hup : ∀ j, flag' j ↔ flag j ∧ j ≠ i) :
    Flags flag' phase' := by
  have hinside : ∀ r j, phase' r = .inside j ↔ phase r = .inside j ∧ j ≠ i := by
    intro r j
    by_cases hrl : r = l
    · subst hrl
      rw [hold, hover]
      refine iff_of_false nofun ?_
      rintro ⟨hsame, hne⟩
      exact hne (Phase.inside.inj hsame).symm
    · rw [hothers r hrl]
      refine ⟨fun hr => ⟨hr, ?_⟩, And.left⟩
      rintro rfl
      exact hrl (h.one j r l hr hold)
  refine ⟨fun j => ?_, fun j r r' hr hr' => ?_⟩
  · rw [hup j, h.up_iff]
    simp only [hinside, exists_and_right]
  · exact h.one j r r' ((hinside r j).mp hr).1 ((hinside r' j).mp hr').1

end Flags

/-- **One step** keeps the flags. -/
theorem Barred.step (h : G.Barred up s) (hguards : G.Guards serve up)
    (hfollowed : G.Followed program) (hkept : G.policy.Kept program (fun _ => True) s) {l : ℕ} {x : χ}
    (hstep : Fibers.Stepped program serve s l x t) : G.Barred up t := by
  have hlaw : G.policy.Lawful program serve Outside fun _ => True := lawful hfollowed
  have hothers : ∀ j, j ≠ l → G.policy.phase t j = G.policy.phase s j :=
    fun j hne => phase_others hkept.formed hstep hne
  have hphases : G.policy.phase t l = G.policy.phase s l →
      ∀ j, G.policy.phase t j = G.policy.phase s j := by
    intro hself j
    by_cases hj : j = l
    · rw [hj, hself]
    · exact hothers j hj
  have hflags : Flags (fun i => up i s.state) (G.policy.phase s) := ⟨h.up_iff, h.one⟩
  have hnew : Flags (fun i => up i t.state) (G.policy.phase t) := by
    -- the step asks the gate for something, or does not touch it
    rcases Policy.stepped_state G.policy hstep with ⟨c, hnext, hstate, hself⟩ | ⟨hstate, hself⟩
    · have hpre : (G.policy.phase s l).MayAsk (G.wants c) := hkept.pre hlaw hnext
      replace hself : G.policy.phase t l =
          (G.policy.phase s l).after (G.wants c) (G.admits c (serve c x s.state).1) := hself
      rw [hstate]
      cases hwants : G.wants c with
      | none =>
        rw [hwants] at hself
        exact hflags.same (hphases hself) (hguards.other c x s.state hwants)
      | some ask =>
        rw [hwants] at hself hpre
        cases ask with
        | enter i =>
          cases hadmits : G.admits c (serve c x s.state).1 with
          -- it is not let in, and the flag stays up
          | false =>
            rw [hadmits] at hself
            exact hflags.refused hothers hpre hself (hguards.refuse c i x s.state hwants hadmits)
          -- it is let in, where nobody was
          | true =>
            rw [hadmits] at hself
            obtain ⟨hdown, hup⟩ := hguards.enter c i x s.state hwants hadmits
            exact hflags.entered hothers hpre hself hdown hup
        | leave i =>
          exact hflags.left hothers hpre hself (hguards.leave c i x s.state hwants)
    · have hstay : G.policy.phase t l = G.policy.phase s l := by
        rcases hself with ⟨qs, -, hself⟩ | ⟨qs, r, hself⟩
        · exact hself
        · exact hself
      rw [hstate]
      exact hflags.same (hphases hstay) fun _ => Iff.rfl
  exact ⟨hnew.up_iff, hnew.one⟩

theorem barred_start (w : σ) (requests : List Q) (hdown : ∀ i, ¬ up i w) :
    G.Barred up (Fibers.start program w requests) := by
  have hfresh : ∀ r, G.policy.phase (Fibers.start program w requests) r = .fresh := fun _ => rfl
  refine ⟨fun i => ⟨fun hup => absurd hup (hdown i), ?_⟩, fun i r r' hr => ?_⟩
  · rintro ⟨r, hr⟩
    cases (hfresh r).symm.trans hr
  · cases (hfresh r).symm.trans hr

/-- **In every run** the flags are up exactly while a function is inside. -/
theorem barred_run (hguards : G.Guards serve up) (hfollowed : G.Followed program) {w : σ}
    (hdown : ∀ i, ¬ up i w) {requests : List Q} {ls : List (ℕ × χ)}
    (hrun : exec (Fibers.step program serve) (Fibers.start program w requests) ls = some t) :
    G.policy.Kept program (fun _ => True) t ∧ G.Barred up t := by
  have hlaw : G.policy.Lawful program serve Outside fun _ => True := lawful hfollowed
  have hkeep : ∀ (s : Fibers Q C R ε σ) l t,
      (G.policy.Kept program (fun _ => True) s ∧ G.Barred up s) → True →
      Fibers.step program serve s l = some t →
      G.policy.Kept program (fun _ => True) t ∧ G.Barred up t := by
    rintro s l t ⟨hkept, hbarred⟩ - hstep
    have hstepped := Fibers.step_some hstep
    exact ⟨hkept.step hlaw hstepped, hbarred.step hguards hfollowed hkept hstepped⟩
  refine exec_invariant hkeep ⟨?_, barred_start w requests hdown⟩ (along_true _ _) hrun
  exact Policy.kept_start w trivial fun _ _ => trivial

/-- The step with which a function that was inside ends leaves the flag down. -/
theorem Barred.down (h : G.Barred up s) (hguards : G.Guards serve up)
    (hfollowed : G.Followed program) (hkept : G.policy.Kept program (fun _ => True) s) {l : ℕ} {x : χ}
    (hstep : Fibers.Stepped program serve s l x t) {r : ℕ} {i : I} (hinside : G.Inside s r i)
    (hended : ¬ G.Inside t r i) : ¬ up i t.state := by
  have hlaw : G.policy.Lawful program serve Outside fun _ => True := lawful hfollowed
  have hkept' := hkept.step hlaw hstep
  have ht := h.step hguards hfollowed hkept hstep
  rw [← phase_iff serve hfollowed hkept] at hinside
  rw [← phase_iff serve hfollowed hkept'] at hended
  rw [ht.up_iff]
  rintro ⟨r', hr'⟩
  have hothers : ∀ j, j ≠ l → G.policy.phase t j = G.policy.phase s j :=
    fun j hne => phase_others hkept.formed hstep hne
  obtain rfl : r = l := by
    by_contra hne
    rw [hothers r hne] at hended
    exact hended hinside
  have hne : r' ≠ r := by
    rintro rfl
    exact hended hr'
  rw [hothers r' hne] at hr'
  exact hne (h.one i r' r hr' hinside)

end Gate

end Program
