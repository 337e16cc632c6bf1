/-
NexCause/SessionLineage.lean

The sessions that descend from one login, in any interleaving of organization
switches and logouts.

`createSession` puts the new row and deletes the old one in one transaction, but
`deleteMany` does not say whether there was an old one.  So two switches of one
session leave two successors (`switched_twice`), and a switch brings back a
session that has been logged out.  Where every replacement finds the row that it
replaces, and every logout the row that it deletes, one login has at most one
session (`one_session`).
-/
import NexCause.AuthService
import NexCause.SessionLifetime

namespace NexCause

open Program Prog Transition

/-! ### Lineages -/

abbrev AuthExchange : Type := Exchange AuthCall AuthCall.Result AuthError

/-- The session that was replaced, and the one in its place. -/
def replaced : AuthExchange → Option (String × String)
  | ⟨.session (.createAndDelete data old), .ok _⟩ => some (old, data.idHash)
  | _ => none

/-- A successor is one more session of the login. -/
def succeed (known : List String) (e : AuthExchange) : List String :=
  match replaced e with
  | some (old, new) => if old ∈ known then known ++ [new] else known
  | none => known

/-- The sessions of a login: its own, and those that have replaced one of them. -/
def lineage (root : String) (trace : AuthTrace) : List String :=
  trace.foldl (fun known e => succeed known e.2) [root]

theorem lineage_append (root : String) (trace : AuthTrace) (i : ℕ) (e : AuthExchange) :
    lineage root (trace ++ [(i, e)]) = succeed (lineage root trace) e := by
  unfold lineage
  rw [List.foldl_append]
  rfl

theorem succeed_of_none {known : List String} {e : AuthExchange} (h : replaced e = none) :
    succeed known e = known := by
  unfold succeed
  rw [h]

theorem mem_succeed {known : List String} {e : AuthExchange} {old new k : String}
    (h : replaced e = some (old, new)) :
    k ∈ succeed known e ↔ k ∈ known ∨ (old ∈ known ∧ k = new) := by
  unfold succeed
  rw [h]
  show k ∈ (if old ∈ known then known ++ [new] else known) ↔ _
  by_cases hold : old ∈ known
  · rw [if_pos hold, List.mem_append, List.mem_singleton]
    simp [hold]
  · rw [if_neg hold]
    simp [hold]

/-- The sessions among these that have not expired. -/
def SessionWorld.live (s : SessionWorld) (known : List String) : List AuthSession :=
  s.sessions.filter fun row => decide (row.idHash ∈ known) && !row.expired s.now

/-- A logout of one of these sessions has returned. -/
def LoggedOut (tasks : List (AuthRequest × AuthAction AuthResponse)) (known : List String) : Prop :=
  ∃ principal response, (.logout principal, .ret response) ∈ tasks ∧ principal.sessionIdHash ∈ known

/-- One login has at most one live session, and none once it has been logged out. -/
structure OneSession (root : String) (x : AuthPool × AuthTrace) : Prop where
  atMostOne : (x.1.state.live (lineage root x.2)).length ≤ 1
  loggedOut : LoggedOut x.1.tasks (lineage root x.2) → x.1.state.live (lineage root x.2) = []

/-! ### What a call does to the keys -/

/-- The keys after a call. -/
inductive KeyChange (keys : List String) : AuthExchange → List String → Prop
  | fewer {e : AuthExchange} {keys' : List String} (h : keys'.Sublist keys) (hnot : replaced e = none)
      (hgone : ∀ idHash a, e = ⟨.session (.deleteMany idHash), .ok a⟩ → idHash ∉ keys') :
      KeyChange keys e keys'
  | created {data : AuthSessionData} {a : Unit} (h : data.idHash ∉ keys) :
      KeyChange keys ⟨.session (.create data), .ok a⟩ (keys ++ [data.idHash])
  | replaced {data : AuthSessionData} {old : String} {a : Unit} (h : data.idHash ∉ keys) :
      KeyChange keys ⟨.session (.createAndDelete data old), .ok a⟩
        ((keys ++ [data.idHash]).filter (· ≠ old))

theorem keys_deleteMany (s : SessionWorld) (cond : AuthSession → Bool) :
    (s.deleteMany cond).keys.Sublist s.keys := List.filter_sublist.map _

theorem keys_deleteMany_key (s : SessionWorld) (idHash : String) :
    (s.deleteMany (·.idHash = idHash)).keys = s.keys.filter (· ≠ idHash) := by
  unfold SessionWorld.keys SessionWorld.deleteMany
  rw [List.filter_map]
  congr 1
  apply List.filter_congr
  intro row _
  exact (decide_not ..).symm

theorem keys_patch (s : SessionWorld) (idHash : String) (data : AuthSessionPatch) :
    (s.patch idHash data).keys = s.keys := by
  unfold SessionWorld.keys SessionWorld.patch
  rw [List.map_map]
  apply List.map_congr_left
  intro row _
  show (if row.idHash = idHash then row.patch data else row).idHash = row.idHash
  split
  · rfl
  · rfl

/-- A call that fails changes no key. -/
theorem keyChange_error {keys : List String} (c : AuthCall) (e : AuthError) :
    KeyChange keys ⟨c, .error e⟩ keys := by
  apply KeyChange.fewer (List.Sublist.refl _)
  · unfold replaced
    split
    · rename_i heq
      cases heq
    · rfl
  · intro idHash a heq
    cases heq

/-- A call that leaves the keys, and is no deletion of one. -/
theorem keyChange_same {keys : List String} {e : AuthExchange} (hnot : replaced e = none)
    (hother : ∀ idHash a, e ≠ ⟨.session (.deleteMany idHash), .ok a⟩) : KeyChange keys e keys :=
  .fewer (List.Sublist.refl _) hnot fun idHash a heq => absurd heq (hother idHash a)

/-- The keys after any call. -/
theorem keyChange_answer (c : AuthCall) (x : AuthChoice) (s : SessionWorld) :
    KeyChange s.keys ⟨c, (serveAuth c x s).1⟩ (serveAuth c x s).2.keys := by
  unfold serveAuth
  cases hfault : x.fault with
  | some e => exact keyChange_error c e
  | none =>
    show KeyChange s.keys ⟨c, (x.answer { s with now := s.now + x.session.elapsed } c).1⟩
      (x.answer { s with now := s.now + x.session.elapsed } c).2.keys
    have hkeys : SessionWorld.keys { s with now := s.now + x.session.elapsed } = s.keys := rfl
    generalize { s with now := s.now + x.session.elapsed } = u at hkeys
    rw [← hkeys]
    cases c with
    | session c =>
      show KeyChange u.keys ⟨.session c, (u.answer x.session c).1.mapError AuthError.prisma⟩
        (u.answer x.session c).2.keys
      cases c with
      -- a creation finds the key taken, or adds it
      | create data =>
        obtain hfails | ⟨hnot, hok⟩ := create_cases u data
        · have hanswer : u.answer x.session (.create data) = (.error .uniqueConstraint, u) := hfails
          rw [hanswer]
          exact keyChange_error _ _
        · have hanswer : u.answer x.session (.create data) =
              (.ok (), { u with sessions := u.sessions ++ [{ data with lastSeenAt := u.now }] }) := hok
          rw [hanswer]
          show KeyChange _ _ (List.map _ (u.sessions ++ [_]))
          rw [List.map_append]
          exact .created hnot
      -- and with it the old row goes, in the same transaction
      | createAndDelete data old =>
        obtain hfails | ⟨hnot, hok⟩ := create_cases u data
        · have hanswer : u.answer x.session (.createAndDelete data old) =
              (.error .uniqueConstraint, u) := by rw [SessionWorld.answer, hfails]
          rw [hanswer]
          exact keyChange_error _ _
        · have hanswer : u.answer x.session (.createAndDelete data old) =
              (.ok (), SessionWorld.deleteMany
                { u with sessions := u.sessions ++ [{ data with lastSeenAt := u.now }] }
                (·.idHash = old)) := by rw [SessionWorld.answer, hok]
          rw [hanswer]
          show KeyChange _ _ (SessionWorld.deleteMany _ _).keys
          rw [keys_deleteMany_key]
          show KeyChange _ _ (List.filter _ (List.map _ (u.sessions ++ [_])))
          rw [List.map_append]
          exact .replaced hnot
      -- an update keeps the keys
      | update idHash data =>
        obtain hfails | ⟨-, hok⟩ := onRow_cases u idHash (·.patch idHash data)
        · have hanswer : u.answer x.session (.update idHash data) = (.error .recordNotFound, u) := hfails
          rw [hanswer]
          exact keyChange_error _ _
        · have hanswer : u.answer x.session (.update idHash data) = (.ok (), u.patch idHash data) := hok
          rw [hanswer, keys_patch]
          exact keyChange_same rfl fun _ _ h => by cases h
      -- a deletion of a row that is gone fails
      | delete idHash =>
        obtain hfails | ⟨-, hok⟩ := onRow_cases u idHash (·.deleteMany (·.idHash = idHash))
        · have hanswer : u.answer x.session (.delete idHash) = (.error .recordNotFound, u) := hfails
          rw [hanswer]
          exact keyChange_error _ _
        · have hanswer : u.answer x.session (.delete idHash) =
              (.ok (), u.deleteMany (·.idHash = idHash)) := hok
          rw [hanswer]
          exact .fewer (keys_deleteMany _ _) rfl fun _ _ h => by cases h
      -- this one does not, and the key is gone behind it
      | deleteMany idHash =>
        apply KeyChange.fewer (keys_deleteMany _ _) rfl
        intro idHash' a heq
        have hcall := congrArg Exchange.call heq
        obtain rfl := SessionCall.deleteMany.inj (AuthCall.session.inj hcall)
        show idHash ∉ (u.deleteMany (·.idHash = idHash)).keys
        rw [keys_deleteMany_key]
        simp
      | deleteExpired now => exact .fewer (keys_deleteMany _ _) rfl fun _ _ h => by cases h
      | now => exact keyChange_same rfl fun _ _ h => by cases h
      | randomToken => exact keyChange_same rfl fun _ _ h => by cases h
      | findUnique idHash => exact keyChange_same rfl fun _ _ h => by cases h
    | _ => exact keyChange_same rfl fun _ _ h => by cases h

/-! ### One step -/

/-- A new session has not been one of the login, and nobody has logged it out. -/
def IsNew (root : String) (trace : AuthTrace) (idHash : String) : Prop :=
  idHash ∉ lineage root trace ∧ ∀ e ∈ trace, e.2.call ≠ .session (.deleteMany idHash)

instance (root : String) (trace : AuthTrace) (idHash : String) : Decidable (IsNew root trace idHash) :=
  inferInstanceAs (Decidable (_ ∧ _))

/-- What the call that is made finds: a replacement of a session of the login finds its row, and a
logout of one finds its row too, or no row of the login. -/
def CallFinds (root : String) (keys : List String) (trace : AuthTrace) : AuthCall → Prop
  | .session (.create data) => IsNew root trace data.idHash
  | .session (.createAndDelete data old) =>
      IsNew root trace data.idHash ∧ (old ∈ lineage root trace → old ∈ keys)
  | .session (.deleteMany idHash) =>
      idHash ∈ lineage root trace → idHash ∈ keys ∨ ∀ k ∈ lineage root trace, k ∉ keys
  | _ => True

instance (root : String) (keys : List String) (trace : AuthTrace) :
    (c : AuthCall) → Decidable (CallFinds root keys trace c)
  | .session (.create _) => inferInstanceAs (Decidable (IsNew _ _ _))
  | .session (.createAndDelete _ _) => inferInstanceAs (Decidable (_ ∧ _))
  | .session (.deleteMany _) => inferInstanceAs (Decidable (_ → _))
  | .session .now => .isTrue trivial
  | .session .randomToken => .isTrue trivial
  | .session (.findUnique _) => .isTrue trivial
  | .session (.update _ _) => .isTrue trivial
  | .session (.delete _) => .isTrue trivial
  | .session (.deleteExpired _) => .isTrue trivial
  | .revokeTokens _ _ => .isTrue trivial
  | .refresh _ => .isTrue trivial
  | .switchOrganization _ _ _ => .isTrue trivial
  | .resolveIdentity _ => .isTrue trivial
  | .audit _ _ _ _ => .isTrue trivial
  | .logoutUrl _ => .isTrue trivial

/-- The step finds what it needs. -/
def StepFinds (root : String) (x : AuthPool × AuthTrace) (l : ℕ × AuthChoice) : Prop :=
  ∀ c ∈ (x.1.next l.1).map Prod.snd, CallFinds root x.1.state.keys x.2 c

instance (root : String) (x : AuthPool × AuthTrace) (l : ℕ × AuthChoice) :
    Decidable (StepFinds root x l) :=
  inferInstanceAs (Decidable (∀ c ∈ (x.1.next l.1).map Prod.snd, _))

/-- The login has at most one row, and none once one of its sessions has been deleted. -/
structure OneRow (root : String) (keys : List String) (trace : AuthTrace) : Prop where
  nodup : keys.Nodup
  one : ∀ k ∈ lineage root trace, ∀ k' ∈ lineage root trace, k ∈ keys → k' ∈ keys → k = k'
  deleted : ∀ i idHash a, (i, ⟨.session (.deleteMany idHash), .ok a⟩) ∈ trace →
    idHash ∈ lineage root trace → ∀ k ∈ lineage root trace, k ∉ keys

section Step

variable {root : String} {keys keys' : List String} {trace : AuthTrace} {e : AuthExchange} {i : ℕ}

theorem mem_trace_concat {j : ℕ} {e' : AuthExchange} (h : (j, e') ∈ trace ++ [(i, e)]) :
    (j, e') ∈ trace ∨ e' = e := by
  rcases List.mem_append.mp h with h | h
  · exact .inl h
  · exact .inr (Prod.mk.inj (List.mem_singleton.mp h)).2

/-- Fewer keys. -/
theorem OneRow.fewer (h : OneRow root keys trace) (hkeys : keys'.Sublist keys)
    (hnot : replaced e = none)
    (hgone : ∀ idHash a, e = ⟨.session (.deleteMany idHash), .ok a⟩ → idHash ∉ keys')
    (hfinds : CallFinds root keys trace e.call) : OneRow root keys' (trace ++ [(i, e)]) := by
  have hlineage : lineage root (trace ++ [(i, e)]) = lineage root trace := by
    rw [lineage_append, succeed_of_none hnot]
  refine ⟨h.nodup.sublist hkeys, ?_, ?_⟩
  · rw [hlineage]
    exact fun k hk k' hk' hin hin' => h.one k hk k' hk' (hkeys.subset hin) (hkeys.subset hin')
  · rw [hlineage]
    intro j idHash a hmem hroot k hk hin
    obtain hmem | rfl := mem_trace_concat hmem
    · exact h.deleted j idHash a hmem hroot k hk (hkeys.subset hin)
    · -- the deletion of the only row, or there was none
      rcases hfinds hroot with hfound | hnone
      · have heq := h.one k hk idHash hroot (hkeys.subset hin) hfound
        exact hgone idHash a rfl (heq ▸ hin)
      · exact hnone k hk (hkeys.subset hin)

/-- A session of its own. -/
theorem OneRow.created (h : OneRow root keys trace) {new : String} (hnot : new ∉ keys)
    (hreplaced : replaced e = none) (hcall : ∀ idHash a, e ≠ ⟨.session (.deleteMany idHash), .ok a⟩)
    (hnew : new ∉ lineage root trace) : OneRow root (keys ++ [new]) (trace ++ [(i, e)]) := by
  have hlineage : lineage root (trace ++ [(i, e)]) = lineage root trace := by
    rw [lineage_append, succeed_of_none hreplaced]
  have hold : ∀ k ∈ lineage root trace, k ∈ keys ++ [new] → k ∈ keys := by
    intro k hk hin
    rcases List.mem_append.mp hin with hin | hin
    · exact hin
    · exact absurd (List.mem_singleton.mp hin ▸ hk) hnew
  refine ⟨?_, ?_, ?_⟩
  · rw [← List.concat_eq_append]
    exact h.nodup.concat hnot
  · rw [hlineage]
    exact fun k hk k' hk' hin hin' => h.one k hk k' hk' (hold k hk hin) (hold k' hk' hin')
  · rw [hlineage]
    intro j idHash a hmem hroot k hk hin
    obtain hmem | rfl := mem_trace_concat hmem
    · exact h.deleted j idHash a hmem hroot k hk (hold k hk hin)
    · exact hcall idHash a rfl

/-- A session in the place of one that is there. -/
theorem OneRow.replaced (h : OneRow root keys trace) {old new : String} (hnot : new ∉ keys)
    (hreplaced : replaced e = some (old, new))
    (hcall : ∀ idHash a, e ≠ ⟨.session (.deleteMany idHash), .ok a⟩) (hnew : IsNew root trace new)
    (hold : old ∈ lineage root trace → old ∈ keys) :
    OneRow root ((keys ++ [new]).filter (· ≠ old)) (trace ++ [(i, e)]) := by
  have hmem_lineage : ∀ k, k ∈ lineage root (trace ++ [(i, e)]) ↔
      k ∈ lineage root trace ∨ (old ∈ lineage root trace ∧ k = new) := by
    intro k
    rw [lineage_append, mem_succeed hreplaced]
  have hmem_keys : ∀ k, k ∈ (keys ++ [new]).filter (· ≠ old) ↔ (k ∈ keys ∨ k = new) ∧ k ≠ old := by
    intro k
    rw [List.mem_filter, List.mem_append, List.mem_singleton, decide_eq_true_eq]
  -- where the login is concerned, its only row is the new one
  have honly : old ∈ lineage root trace → ∀ k ∈ lineage root (trace ++ [(i, e)]),
      k ∈ (keys ++ [new]).filter (· ≠ old) → k = new := by
    intro hroot k hk hin
    obtain ⟨hin, hne⟩ := (hmem_keys k).mp hin
    rcases (hmem_lineage k).mp hk with hk | ⟨-, rfl⟩
    · rcases hin with hin | rfl
      · exact absurd (h.one k hk old hroot hin (hold hroot)) hne
      · rfl
    · rfl
  have hkept : old ∉ lineage root trace → ∀ k ∈ lineage root (trace ++ [(i, e)]),
      k ∈ (keys ++ [new]).filter (· ≠ old) → k ∈ lineage root trace ∧ k ∈ keys := by
    intro hother k hk hin
    obtain ⟨hin, -⟩ := (hmem_keys k).mp hin
    rcases (hmem_lineage k).mp hk with hk | ⟨hroot, -⟩
    · rcases hin with hin | rfl
      · exact ⟨hk, hin⟩
      · exact absurd hk hnew.1
    · exact absurd hroot hother
  refine ⟨?_, ?_, ?_⟩
  · rw [← List.concat_eq_append]
    exact (h.nodup.concat hnot).filter _
  · intro k hk k' hk' hin hin'
    by_cases hroot : old ∈ lineage root trace
    · rw [honly hroot k hk hin, honly hroot k' hk' hin']
    · obtain ⟨hk, hin⟩ := hkept hroot k hk hin
      obtain ⟨hk', hin'⟩ := hkept hroot k' hk' hin'
      exact h.one k hk k' hk' hin hin'
  · intro j idHash a hmem hdeleted k hk hin
    obtain hmem | rfl := mem_trace_concat hmem
    · have hbefore : idHash ∈ lineage root trace := by
        rcases (hmem_lineage idHash).mp hdeleted with hbefore | ⟨-, rfl⟩
        · exact hbefore
        · exact absurd rfl (hnew.2 _ hmem)
      by_cases hroot : old ∈ lineage root trace
      · exact h.deleted j idHash a hmem hbefore old hroot (hold hroot)
      · obtain ⟨hk, hin⟩ := hkept hroot k hk hin
        exact h.deleted j idHash a hmem hbefore k hk hin
    · exact hcall idHash a rfl

/-- **One call** that finds what it needs. -/
theorem OneRow.step (h : OneRow root keys trace) (hchange : KeyChange keys e keys')
    (hfinds : CallFinds root keys trace e.call) : OneRow root keys' (trace ++ [(i, e)]) := by
  cases hchange with
  | fewer hkeys hnot hgone => exact h.fewer hkeys hnot hgone hfinds
  | created hnot => exact h.created hnot rfl (fun _ _ heq => by cases heq) hfinds.1
  | replaced hnot => exact h.replaced hnot rfl (fun _ _ heq => by cases heq) hfinds.1 hfinds.2

end Step

/-! ### Runs -/

section Runs

variable {crypto : AuthCrypto} {config : SessionConfig} {s₀ : SessionWorld}
  {requests : List AuthRequest} {root : String}

theorem oneRow_start (hkeys : s₀.keys.Nodup) : OneRow root s₀.keys [] := by
  refine ⟨hkeys, ?_, fun i idHash a hmem => absurd hmem List.not_mem_nil⟩
  intro k hk k' hk' _ _
  rw [List.mem_singleton.mp hk, List.mem_singleton.mp hk']

/-- A run whose steps find what they need. -/
theorem oneRow_of_run (hkeys : s₀.keys.Nodup) {ls : List (ℕ × AuthChoice)} {x : AuthPool × AuthTrace}
    (hrun : exec (Pool.traced serveAuth) (startAuth crypto config s₀ requests, []) ls = some x)
    (hfinds : Along (Pool.traced serveAuth) (StepFinds root) (startAuth crypto config s₀ requests, [])
      ls) : OneRow root x.1.state.keys x.2 := by
  have hstep : ∀ (x : AuthPool × AuthTrace) l y, OneRow root x.1.state.keys x.2 → StepFinds root x l →
      Pool.traced serveAuth x l = some y → OneRow root y.1.state.keys y.2 := by
    rintro ⟨s, trace⟩ l ⟨t, trace'⟩ h hl hstep
    obtain ⟨q, c, k, hq, hstate, -, rfl⟩ := Pool.traced_some hstep
    have hnext : s.next l.1 = some (q, c) := Pool.next_some.mpr ⟨k, hq⟩
    show OneRow root t.state.keys (trace ++ [_])
    rw [hstate]
    apply h.step (keyChange_answer c l.2 s.state)
    apply hl
    show c ∈ (s.next l.1).map Prod.snd
    rw [hnext]
    rfl
  exact exec_invariant hstep (oneRow_start hkeys) hfinds hrun

/-- A logout that has returned has deleted the session. -/
theorem logout_returned {principal : AuthPrincipal} {own : List AuthExchange} {url : String}
    (h : (logout crypto principal).Reaches own (.ret url)) :
    ⟨.session (.deleteMany principal.sessionIdHash), .ok ()⟩ ∈ own := by
  unfold logout getStored destroy at h
  rw [onSessions_askSession, onSessions_askSession] at h
  obtain ⟨stored, own₁, rfl, h₁⟩ := reaches_perform_ret h
  obtain ⟨a, own₂, own₃, rfl, -, h₂⟩ := reaches_bind_ret h₁
  obtain ⟨a, own₄, rfl, -⟩ := reaches_perform_ret h₂
  exact List.mem_cons_of_mem _ (List.mem_append_right _ List.mem_cons_self)

theorem length_le_one_of_nodup {α : Type} {xs : List α} (h : xs.Nodup)
    (hsame : ∀ a ∈ xs, ∀ b ∈ xs, a = b) : xs.length ≤ 1 := by
  cases xs with
  | nil => exact Nat.zero_le _
  | cons a xs =>
    cases xs with
    | nil => exact Nat.le_refl _
    | cons b xs =>
      have hab := hsame a List.mem_cons_self b (List.mem_cons_of_mem _ List.mem_cons_self)
      exact absurd (hab ▸ List.mem_cons_self) (List.nodup_cons.mp h).1

/-- What the rows of a login are, its sessions are. -/
theorem OneRow.live_length {s : SessionWorld} {trace : AuthTrace} (h : OneRow root s.keys trace) :
    (s.live (lineage root trace)).length ≤ 1 := by
  have hkeys : ((s.live (lineage root trace)).map (·.idHash)).Nodup :=
    h.nodup.sublist (List.filter_sublist.map _)
  have hmem : ∀ k ∈ (s.live (lineage root trace)).map (·.idHash),
      k ∈ lineage root trace ∧ k ∈ s.keys := by
    intro k hk
    obtain ⟨row, hrow, rfl⟩ := List.mem_map.mp hk
    obtain ⟨hrow, hlive⟩ := List.mem_filter.mp hrow
    rw [Bool.and_eq_true, decide_eq_true_eq] at hlive
    exact ⟨hlive.1, List.mem_map_of_mem hrow⟩
  rw [← List.length_map (·.idHash)]
  apply length_le_one_of_nodup hkeys
  intro k hk k' hk'
  obtain ⟨hk, hin⟩ := hmem k hk
  obtain ⟨hk', hin'⟩ := hmem k' hk'
  exact h.one k hk k' hk' hin hin'

/-- **One session.**  In a run in which every replacement finds the row that it
replaces, and every logout the row that it deletes or none of the login, the
login has at most one live session, and none once a logout has returned. -/
theorem one_session (hkeys : s₀.keys.Nodup) {ls : List (ℕ × AuthChoice)} {x : AuthPool × AuthTrace}
    (hrun : exec (Pool.traced serveAuth) (startAuth crypto config s₀ requests, []) ls = some x)
    (hfinds : Along (Pool.traced serveAuth) (StepFinds root) (startAuth crypto config s₀ requests, [])
      ls) : OneSession root x := by
  have hrows := oneRow_of_run hkeys hrun hfinds
  refine ⟨hrows.live_length, ?_⟩
  rintro ⟨principal, response, htask, hroot⟩
  -- what the logout has done
  obtain ⟨i, hi⟩ := List.mem_iff_getElem?.mp htask
  obtain ⟨p, hp, hreach⟩ := (Pool.traced_sound hrun).left i _ _ hi
  obtain ⟨request, -, heq⟩ := Option.map_eq_some_iff.mp (List.getElem?_map .. ▸ hp)
  obtain ⟨rfl, rfl⟩ := Prod.mk.inj heq
  obtain ⟨url, hreach, -⟩ := reaches_map_ret hreach
  have hdeleted := hrows.deleted i _ _ (mem_ownTrace.mp (logout_returned hreach)) hroot
  apply List.filter_eq_nil_iff.mpr
  intro row hrow hlive
  rw [Bool.and_eq_true, decide_eq_true_eq] at hlive
  exact hdeleted row.idHash hlive.1 (List.mem_map_of_mem hrow)

end Runs

/-! ### Runs of two requests -/

/-- Two random tokens, and the SHA-256 hash on them and on the cookie; what is encrypted is marked. -/
def switchCrypto : AuthCrypto where
  hash s :=
    if s = sampleCookie then "xpBrSsZUfx8cqjAJkG4fm09ihHMiFAwGfc-wLlQgIdw"
    else if s = "k3Ytq0fXo9m1bJwDZC7RxU5LhVaP2nEiG8sTdM4yQwA" then
      "v3YR2uQJYlT81M3E8ilwlOWDfmb7iXQwyd4AowjVeEI"
    else if s = "Qw7uV1zLr5KxNc0BtY9PjH3mDfSgA6eIoR2lU8aXkTs" then
      "d83xPBWCBnobbjMkVIDEVnEdY_W7JmHoJdc03deXCk0"
    else s
  encrypt s := s
  decrypt s := some s

/-- The session of a login, with an access token. -/
def loginSession : AuthSession :=
  ⟨⟨switchCrypto.hash sampleCookie, "user-a", "workspace-a", "organization-a", ["Viewer"],
    ["deployments:read"], sampleCsrfToken, some "access-a", none, none, none, 1800000, 28800000⟩, 0⟩

def loginPrincipal : AuthPrincipal := toPrincipal loginSession ⟨"subject-a", "active"⟩

/-- The next call of request `i`, for which the token is drawn. -/
def switchTurn (token : String) (i : ℕ) : ℕ × AuthChoice :=
  (i, ⟨none, ⟨1, token, ⟨"subject-a", "active"⟩, 0⟩, ⟨none, none, none, none⟩,
    (⟨"access-b", none, none, none⟩,
      ⟨"subject-a", "organization-b", "organization-b", none, none, ["Viewer"], ["deployments:read"]⟩),
    ("workspace-b", "user-a"), "https://idp/logout"⟩)

/-- Two switches of one session, turn by turn. -/
def twoSwitches : List (ℕ × AuthChoice) :=
  (List.range 8).flatMap fun _ =>
    [switchTurn "k3Ytq0fXo9m1bJwDZC7RxU5LhVaP2nEiG8sTdM4yQwA" 0,
      switchTurn "Qw7uV1zLr5KxNc0BtY9PjH3mDfSgA6eIoR2lU8aXkTs" 1]

/-- Both find the session, both replace it, and two sessions are left. -/
theorem switched_twice :
    ∃ x, exec (Pool.traced serveAuth)
        (startAuth switchCrypto sampleSessionConfig ⟨0, [loginSession]⟩
          [.switchOrganization loginPrincipal "organization-b",
            .switchOrganization loginPrincipal "organization-b"], []) twoSwitches = some x ∧
      ¬ OneSession loginSession.idHash x := by
  obtain ⟨x, hrun, hx⟩ := (Option.any_eq_true ..).mp
    (show (exec (Pool.traced serveAuth)
        (startAuth switchCrypto sampleSessionConfig ⟨0, [loginSession]⟩
          [.switchOrganization loginPrincipal "organization-b",
            .switchOrganization loginPrincipal "organization-b"], []) twoSwitches).any
      (fun x => decide (¬ (x.1.state.live (lineage loginSession.idHash x.2)).length ≤ 1)) = true by
      decide +kernel)
  exact ⟨x, hrun, fun h => of_decide_eq_true hx h.atMostOne⟩

/-- The principal of the successor. -/
def successorPrincipal : AuthPrincipal :=
  { loginPrincipal with
    sessionIdHash := switchCrypto.hash "k3Ytq0fXo9m1bJwDZC7RxU5LhVaP2nEiG8sTdM4yQwA" }

/-- A switch, and then a logout of the successor. -/
theorem switched_and_logged_out :
    ∃ x, exec (Pool.traced serveAuth)
        (startAuth switchCrypto sampleSessionConfig ⟨0, [loginSession]⟩
          [.switchOrganization loginPrincipal "organization-b", .logout successorPrincipal], [])
        ((List.replicate 8 0 ++ List.replicate 5 1).map
          (switchTurn "k3Ytq0fXo9m1bJwDZC7RxU5LhVaP2nEiG8sTdM4yQwA")) = some x ∧
      OneSession loginSession.idHash x := by
  obtain ⟨x, hrun⟩ := Option.isSome_iff_exists.mp
    (show (exec (Pool.traced serveAuth)
        (startAuth switchCrypto sampleSessionConfig ⟨0, [loginSession]⟩
          [.switchOrganization loginPrincipal "organization-b", .logout successorPrincipal], [])
        ((List.replicate 8 0 ++ List.replicate 5 1).map
          (switchTurn "k3Ytq0fXo9m1bJwDZC7RxU5LhVaP2nEiG8sTdM4yQwA"))).isSome = true by decide +kernel)
  exact ⟨x, hrun, one_session (by decide) hrun (by decide +kernel)⟩

end NexCause
