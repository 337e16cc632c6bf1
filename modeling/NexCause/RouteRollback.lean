/-
NexCause/RouteRollback.lean

The rollback of `enableApplicationRouting`: when the creation of a route fails,
the routes of both names are deleted, whoever created them, up to the first
deletion that fails.  A call that fails has been refused, or it has had its
effect and lost its answer: a creation that fails may have made its route, and
a deletion that fails may have taken it away.

Main result: the routes of the namespace are as before when the call throws, and
have the two generated ones in addition when it returns, exactly if what was
there and the failing calls let the rollback undo no more and no less than was
done (`routes_all_or_nothing_iff`).
-/
import NexCause.DeploymentHistory

namespace NexCause

open Program

/-! ### Routes -/

def DeployImageInput.routeKey (input : DeployImageInput) : ObjectKey :=
  ⟨.httpRoute, input.«namespace», input.names.httpRouteName⟩

def DeployImageInput.redirectKey (input : DeployImageInput) : ObjectKey :=
  ⟨.httpRoute, input.«namespace», input.names.httpRedirectRouteName⟩

/-- The routes that are made for an input. -/
def generatedRoutes (input : DeployImageInput) : List (ObjectKey × Manifest) :=
  match input.routing with
  | none => []
  | some routing =>
    [(input.routeKey, buildApplicationRouteManifest input routing),
     (input.redirectKey, buildApplicationRedirectRouteManifest input routing)]

/-- An HTTPRoute of the namespace. -/
def IsRouteIn («namespace» : String) (key : ObjectKey) : Prop :=
  key.kind = .httpRoute ∧ key.«namespace» = «namespace»

/-- The routes of the namespace are the same. -/
def RoutesKept (input : DeployImageInput) (w t : World) : Prop :=
  ∀ key, IsRouteIn input.«namespace» key → t.cluster.objects key = w.cluster.objects key

/-- The generated routes are new, and the others are the same. -/
structure RoutesAdded (input : DeployImageInput) (w t : World) : Prop where
  fresh : ∀ entry ∈ generatedRoutes input, w.cluster.objects entry.1 = none
  created : ∀ entry ∈ generatedRoutes input,
    ∃ revision, t.cluster.objects entry.1 = some ⟨revision, entry.2⟩
  others : ∀ key, IsRouteIn input.«namespace» key → key ∉ (generatedRoutes input).map Prod.fst →
    t.cluster.objects key = w.cluster.objects key

/-- How a call of `enableApplicationRouting` is to end. -/
def AllOrNothing (input : DeployImageInput) (env : ℕ → Environment) (w : World) : Prop :=
  (∀ e, ((enableApplicationRouting input).run serve env w).outcome = .error e →
      RoutesKept input w ((enableApplicationRouting input).run serve env w).state) ∧
    (((enableApplicationRouting input).run serve env w).outcome = .ok () →
      RoutesAdded input w ((enableApplicationRouting input).run serve env w).state)

/-! ### Single calls -/

/-- The environment fails the `n`-th call. -/
def Fails (env : ℕ → Environment) (n : ℕ) : Prop := (env n).kubernetesFault.isSome = true

instance (env : ℕ → Environment) (n : ℕ) : Decidable (Fails env n) :=
  inferInstanceAs (Decidable (_ = true))

/-- The environment fails the `n`-th call before it has had its effect. -/
def Refused (env : ℕ → Environment) (n : ℕ) : Prop :=
  Fails env n ∧ (env n).tookEffect = false

instance (env : ℕ → Environment) (n : ℕ) : Decidable (Refused env n) :=
  inferInstanceAs (Decidable (_ ∧ _))

def World.created (w : World) (key : ObjectKey) (m : Manifest) : World :=
  { w with cluster := w.cluster.put key m }

/-- A creation fails by a fault, or because the name is taken; under a free name
it may have made its object all the same. -/
theorem serve_create (key : ObjectKey) (m : Manifest) (env : ℕ → Environment) (n : ℕ) (w : World) :
    (¬Fails env n ∧ w.cluster.objects key = none ∧
        serve (.kubernetes (.create key none m)) (env n) w = (.ok (), w.created key m)) ∨
      ((Fails env n ∨ (w.cluster.objects key).isSome = true) ∧
        ∃ e, serve (.kubernetes (.create key none m)) (env n) w = (.error e,
          if Refused env n ∨ (w.cluster.objects key).isSome = true then w
          else w.created key m)) := by
  cases hfault : (env n).kubernetesFault with
  | some fault =>
    have hfails : Fails env n := by simp [Fails, hfault]
    refine .inr ⟨.inl hfails, fault.1, ?_⟩
    rw [serve_kubernetesFault hfault]
    -- the call fails, before its effect or after it
    cases htook : (env n).tookEffect with
    | false => rw [if_neg Bool.false_ne_true, if_pos (.inl ⟨hfails, htook⟩)]
    | true =>
      have hanswer : ¬Refused env n := by simp [Refused, htook]
      rw [if_pos rfl]
      cases ho : w.cluster.objects key with
      | none =>
        rw [if_neg (by simp [hanswer])]
        simp only [Cluster.serve, ho]
        rfl
      | some o =>
        rw [if_pos (.inr rfl)]
        simp only [Cluster.serve, ho]
  | none =>
    -- it does not fail by itself, but may find the name taken
    have hfails : ¬Fails env n := by simp [Fails, hfault]
    cases ho : w.cluster.objects key with
    | none =>
      refine .inl ⟨hfails, rfl, ?_⟩
      rw [serve_kubernetesHealthy hfault]
      simp only [Cluster.serve, ho]
      rfl
    | some o =>
      refine .inr ⟨.inr rfl, .kubernetes 409 "AlreadyExists", ?_⟩
      rw [serve_kubernetesHealthy hfault, if_pos (.inr rfl)]
      simp only [Cluster.serve, ho]
      rfl

/-! ### Endings -/

/-- How a run ends, whatever its calls were. -/
structure EndsWith (p : Action Unit) (env : ℕ → Environment) (w : World)
    (r : Except ApiError Unit) (t : World) : Prop where
  outcome : (p.run serve env w).outcome = r
  state : (p.run serve env w).state = t

theorem EndsWith.call {c : Call} {k : Except ApiError c.Result → Action Unit}
    {env : ℕ → Environment} {w t u : World} {answer : Except ApiError c.Result}
    {r : Except ApiError Unit} (hserve : serve c (env 0) w = (answer, t))
    (hrest : EndsWith (k answer) (fun n => env (n + 1)) t r u) :
    EndsWith (.call c k) env w r u := by
  have hrun := Prog.run_call (k := k) hserve
  exact ⟨by rw [hrun]; exact hrest.outcome, by rw [hrun]; exact hrest.state⟩

section Deletions

variable {key : ObjectKey} {p : Action Unit} {env : ℕ → Environment} {w t : World}
  {r : Except ApiError Unit}

theorem EndsWith.deletion (hfault : (env 0).kubernetesFault = none)
    (hrest : EndsWith p (fun n => env (n + 1)) (w.swept [key]) r t) :
    EndsWith (deleteIfExists key >>= fun _ => p) env w r t := by
  have hrun := deleteIfExists_run key env w
  rw [hfault] at hrun
  have hbind := Prog.run_bind_ok (f := fun _ => p) hrun
  exact ⟨by rw [hbind]; exact hrest.outcome, by rw [hbind]; exact hrest.state⟩

theorem EndsWith.undeleted {fault : Fault} (hfault : (env 0).kubernetesFault = some fault) :
    EndsWith (deleteIfExists key >>= fun _ => p) env w (.error fault.1)
      (if (env 0).tookEffect then w.swept [key] else w) := by
  have hrun := deleteIfExists_run key env w
  rw [hfault] at hrun
  have hbind := Prog.run_bind_error (f := fun _ => p) hrun
  exact ⟨by rw [hbind], by rw [hbind]⟩

end Deletions

/-- What two deletions in a row take away, up to the first that fails. -/
def sweptKeys (env : ℕ → Environment) (first second : ObjectKey) : List ObjectKey :=
  if Refused env 0 then [] else if Fails env 0 ∨ Refused env 1 then [first] else [first, second]

/-- What `enableApplicationRouting` does when a creation fails. -/
def rollback (input : DeployImageInput) (error : ApiError) : Action Unit := do
  deleteHttpRoute input.«namespace» input.names.httpRedirectRouteName
  deleteHttpRoute input.«namespace» input.names.httpRouteName
  .throw error

/-- The rollback throws, and has taken away what its deletions could. -/
theorem rollback_ends (input : DeployImageInput) (error : ApiError) (env : ℕ → Environment)
    (w : World) :
    ∃ e, EndsWith (rollback input error) env w (.error e)
      (w.swept (sweptKeys env input.redirectKey input.routeKey)) := by
  rw [sweptKeys]
  cases h0 : (env 0).kubernetesFault with
  -- the first deletion fails, and ends the rollback
  | some fault =>
    have hfails : Fails env 0 := by simp [Fails, h0]
    have hends : ∃ e, EndsWith (rollback input error) env w (.error e) _ := ⟨_, .undeleted h0⟩
    cases htook : (env 0).tookEffect with
    | false =>
      rw [if_pos ⟨hfails, htook⟩, World.swept_nil]
      rwa [htook, if_neg (by simp)] at hends
    | true =>
      rw [if_neg (by simp [Refused, htook]), if_pos (.inl hfails)]
      rwa [htook, if_pos rfl] at hends
  -- the first deletion succeeds: the redirect is gone
  | none =>
    have hfails : ¬Fails env 0 := by simp [Fails, h0]
    rw [if_neg fun h => hfails h.1]
    cases h1 : (env 1).kubernetesFault with
    -- the second fails
    | some fault =>
      have hfails' : Fails env 1 := by simp [Fails, h1]
      have hends : ∃ e, EndsWith (rollback input error) env w (.error e) _ :=
        ⟨_, .deletion h0 (.undeleted h1)⟩
      cases htook : (env 1).tookEffect with
      | false =>
        rw [if_pos (.inr ⟨hfails', htook⟩)]
        rwa [htook, if_neg (by simp)] at hends
      | true =>
        rw [if_neg (by simp [Refused, hfails, htook]), ← World.swept_cons]
        rwa [htook, if_pos rfl] at hends
    | none =>
      rw [if_neg (by simp [Refused, Fails, h0, h1]), ← World.swept_cons]
      exact ⟨error, .deletion h0 (.deletion h1 ⟨rfl, rfl⟩)⟩

/-! ### The whole call -/

def DeployImageInput.namespaceKey (input : DeployImageInput) : ObjectKey :=
  ⟨.ns, "", input.«namespace»⟩

/-- The routes of these names are new, and the others are the same. -/
structure Made (input : DeployImageInput) (w u : World) (made : List ObjectKey) : Prop where
  fresh : ∀ key ∈ made, IsRouteIn input.«namespace» key ∧ w.cluster.objects key = none
  there : ∀ key ∈ made, (u.cluster.objects key).isSome = true
  others : ∀ key, IsRouteIn input.«namespace» key → key ∉ made →
    u.cluster.objects key = w.cluster.objects key

/-- The creation of the main route fails. -/
def RouteFails (input : DeployImageInput) (env : ℕ → Environment) (w : World) : Prop :=
  Fails env 1 ∨ (w.cluster.objects input.routeKey).isSome = true

/-- The creation of the redirect route fails. -/
def RedirectFails (input : DeployImageInput) (env : ℕ → Environment) (w : World) : Prop :=
  Fails env 2 ∨ input.redirectKey = input.routeKey ∨
    (w.cluster.objects input.redirectKey).isSome = true

instance (input : DeployImageInput) (env : ℕ → Environment) (w : World) :
    Decidable (RouteFails input env w) := inferInstanceAs (Decidable (_ ∨ _))

instance (input : DeployImageInput) (env : ℕ → Environment) (w : World) :
    Decidable (RedirectFails input env w) := inferInstanceAs (Decidable (_ ∨ _))

/-- The ways in which a call with routing ends. -/
inductive RoutingRun (input : DeployImageInput) (routing : ApplicationRoutingInput)
    (env : ℕ → Environment) (w : World) : Except ApiError Unit → World → Prop
  | unpatched (e : ApiError) (u : World)
      (hpatch : Fails env 0 ∨ w.cluster.objects input.namespaceKey = none)
      (hmade : Made input w u []) : RoutingRun input routing env w (.error e) u
  | unrouted (e : ApiError) (o : Object) (u : World) (made : List ObjectKey)
      (hpatch : ¬Fails env 0) (ho : w.cluster.objects input.namespaceKey = some o)
      (hroute : RouteFails input env w) (hmade : Made input w u made)
      (hmem : ∀ key, key ∈ made ↔ key = input.routeKey ∧ ¬Refused env 1 ∧
        w.cluster.objects input.routeKey = none) :
      RoutingRun input routing env w (.error e)
        (u.swept (sweptKeys (fun n => env (n + 2)) input.redirectKey input.routeKey))
  | unredirected (e : ApiError) (o : Object) (u : World) (made : List ObjectKey)
      (hpatch : ¬Fails env 0) (ho : w.cluster.objects input.namespaceKey = some o)
      (hroute : ¬RouteFails input env w) (hredirect : RedirectFails input env w)
      (hmade : Made input w u made) (hmem : input.routeKey ∈ made)
      (hsub : ∀ key ∈ made, key = input.routeKey ∨ key = input.redirectKey) :
      RoutingRun input routing env w (.error e)
        (u.swept (sweptKeys (fun n => env (n + 3)) input.redirectKey input.routeKey))
  | routed (o : Object) (u : World) (hpatch : ¬Fails env 0)
      (ho : w.cluster.objects input.namespaceKey = some o)
      (hroute : ¬RouteFails input env w) (hredirect : ¬RedirectFails input env w)
      (hmade : Made input w u []) :
      RoutingRun input routing env w (.ok ())
        ((u.created input.routeKey (buildApplicationRouteManifest input routing)).created
          input.redirectKey (buildApplicationRedirectRouteManifest input routing))

theorem routeKey_isRouteIn (input : DeployImageInput) : IsRouteIn input.«namespace» input.routeKey :=
  ⟨rfl, rfl⟩

theorem redirectKey_isRouteIn (input : DeployImageInput) :
    IsRouteIn input.«namespace» input.redirectKey := ⟨rfl, rfl⟩

/-- A creation under a free name makes one route more. -/
theorem Made.created {input : DeployImageInput} {w u : World} {made : List ObjectKey}
    (h : Made input w u made) {key : ObjectKey} (hin : IsRouteIn input.«namespace» key)
    (hnot : key ∉ made) (hfree : u.cluster.objects key = none) (m : Manifest) :
    Made input w (u.created key m) (key :: made) := by
  constructor
  · intro key' hkey'
    rcases List.mem_cons.mp hkey' with rfl | hkey'
    · exact ⟨hin, (h.others _ hin hnot).symm.trans hfree⟩
    · exact h.fresh key' hkey'
  · intro key' hkey'
    by_cases heq : key' = key
    · subst heq
      simp [World.created]
    · rw [World.created, Cluster.put_objects_of_ne _ _ heq]
      exact h.there key' ((List.mem_cons.mp hkey').resolve_left heq)
  · intro key' hin' hkey'
    obtain ⟨hne, hnot'⟩ := not_or.mp (List.mem_cons.not.mp hkey')
    rw [World.created, Cluster.put_objects_of_ne _ _ hne]
    exact h.others key' hin' hnot'

/-- The label on the namespace is no route, whether it is set or not. -/
theorem label_served (input : DeployImageInput) (routing : ApplicationRoutingInput)
    (env : ℕ → Environment) (w : World) :
    (∃ e u, serve (.kubernetes (.patch input.namespaceKey
          (.label routing.namespaceLabelKey routing.namespaceLabelValue))) (env 0) w =
          (.error e, u) ∧
        (Fails env 0 ∨ w.cluster.objects input.namespaceKey = none) ∧ Made input w u []) ∨
      ∃ o u, serve (.kubernetes (.patch input.namespaceKey
          (.label routing.namespaceLabelKey routing.namespaceLabelValue))) (env 0) w =
          (.ok (), u) ∧
        ¬Fails env 0 ∧ w.cluster.objects input.namespaceKey = some o ∧ Made input w u [] := by
  have hunmade : Made input w w [] := ⟨nofun, nofun, fun _ _ _ => rfl⟩
  have hpatched : ∀ o p, Made input w (w.patched input.namespaceKey o p) [] := by
    refine fun o p => ⟨nofun, nofun, fun key hin _ => Cluster.put_objects_of_ne _ _ ?_⟩
    rintro rfl
    cases hin.1
  cases h0 : (env 0).kubernetesFault with
  | some fault =>
    refine .inl ⟨fault.1, _, serve_kubernetesFault h0 w, .inl (by simp [Fails, h0]), ?_⟩
    split
    · cases ho : w.cluster.objects input.namespaceKey with
      | none =>
        simp only [Cluster.serve, ho]
        exact hunmade
      | some o =>
        simp only [Cluster.serve, ho]
        exact hpatched o _
    · exact hunmade
  | none =>
    rw [serve_kubernetesHealthy h0]
    -- the label is set exactly if there is a namespace
    cases ho : w.cluster.objects input.namespaceKey with
    | none =>
      simp only [Cluster.serve, ho]
      exact .inl ⟨_, _, rfl, .inr trivial, hunmade⟩
    | some o =>
      simp only [Cluster.serve, ho]
      exact .inr ⟨o, _, rfl, by simp [Fails, h0], rfl, hpatched o _⟩

/-- The creation of a route makes it, or fails; and then it may have made it. -/
theorem Made.served {input : DeployImageInput} {w u : World} {made : List ObjectKey}
    (h : Made input w u made) {key : ObjectKey} (hin : IsRouteIn input.«namespace» key)
    (m : Manifest) (env : ℕ → Environment) (n : ℕ) :
    (¬Fails env n ∧ u.cluster.objects key = none ∧
        serve (.kubernetes (.create key none m)) (env n) u = (.ok (), u.created key m) ∧
        Made input w (u.created key m) (key :: made)) ∨
      ((Fails env n ∨ (u.cluster.objects key).isSome = true) ∧
        ∃ e t now, serve (.kubernetes (.create key none m)) (env n) u = (.error e, t) ∧
          Made input w t now ∧ ∀ key', key' ∈ now ↔
            key' ∈ made ∨ key' = key ∧ ¬Refused env n ∧ u.cluster.objects key = none) := by
  have hcreated : u.cluster.objects key = none → Made input w (u.created key m) (key :: made) := by
    intro hfree
    refine h.created hin (fun hmem => ?_) hfree m
    have hthere := h.there key hmem
    rw [hfree] at hthere
    cases hthere
  rcases serve_create key m env n u with ⟨hfails, hfree, hserve⟩ | ⟨hfails, e, hserve⟩
  · exact .inl ⟨hfails, hfree, hserve, hcreated hfree⟩
  · refine .inr ⟨hfails, e, ?_⟩
    by_cases hunmade : Refused env n ∨ (u.cluster.objects key).isSome = true
    · rw [if_pos hunmade] at hserve
      refine ⟨_, made, hserve, h, fun key' => ?_⟩
      have hnone : ¬(¬Refused env n ∧ u.cluster.objects key = none) := by
        rintro ⟨hrefused, hnone⟩
        rw [hnone] at hunmade
        exact hunmade.elim hrefused nofun
      simp [hnone]
    · -- its answer is lost, and the route is there
      rw [if_neg hunmade] at hserve
      obtain ⟨hrefused, htaken⟩ := not_or.mp hunmade
      have hfree : u.cluster.objects key = none := by simpa using htaken
      refine ⟨_, key :: made, hserve, hcreated hfree, fun key' => ?_⟩
      simp [hrefused, hfree, or_comm]

theorem routing_run {input : DeployImageInput} {routing : ApplicationRoutingInput}
    (hrouting : input.routing = some routing) (env : ℕ → Environment) (w : World) :
    ∃ r t, EndsWith (enableApplicationRouting input) env w r t ∧
      RoutingRun input routing env w r t := by
  unfold enableApplicationRouting
  rw [hrouting]
  rcases label_served input routing env w with
    ⟨e, u, hserve, hpatch, hmade⟩ | ⟨o, u, hserve, hpatch, ho, hmade⟩
  · exact ⟨_, _, .call hserve ⟨rfl, rfl⟩, .unpatched e u hpatch hmade⟩
  · have hsame := hmade.others _ (routeKey_isRouteIn input) List.not_mem_nil
    rcases hmade.served (routeKey_isRouteIn input) (buildApplicationRouteManifest input routing)
      env 1 with ⟨h1, hfree, hcreate, hmade'⟩ | ⟨hfails, e, t, now, hcreate, hmade', hmem⟩
    · have hroute : ¬RouteFails input env w := by simp [RouteFails, h1, ← hsame, hfree]
      -- the second creation finds the first one's route under the same name
      have hredirected : ((u.created input.routeKey
          (buildApplicationRouteManifest input routing)).cluster.objects
            input.redirectKey).isSome = true ↔
          input.redirectKey = input.routeKey ∨
            (w.cluster.objects input.redirectKey).isSome = true := by
        by_cases hkeys : input.redirectKey = input.routeKey
        · simp [World.created, hkeys]
        · rw [← hmade.others _ (redirectKey_isRouteIn input) List.not_mem_nil]
          simp [World.created, hkeys]
      rcases hmade'.served (redirectKey_isRouteIn input)
        (buildApplicationRedirectRouteManifest input routing) env 2 with
        ⟨h2, hfree', hcreate', -⟩ | ⟨hfails', e, t, now, hcreate', hmade'', hmem⟩
      · refine ⟨_, _, .call hserve (.call hcreate (.call hcreate' ⟨rfl, rfl⟩)),
          .routed o u hpatch ho hroute ?_ hmade⟩
        rw [RedirectFails, ← hredirected, hfree']
        simp [h2]
      · have hredirect : RedirectFails input env w := by
          rw [RedirectFails, ← hredirected]
          exact hfails'
        obtain ⟨e', hends⟩ := rollback_ends input e (fun n => env (n + 3)) t
        refine ⟨_, _, .call hserve (.call hcreate (.call hcreate' hends)),
          .unredirected e' o t now hpatch ho hroute hredirect hmade'' ?_ fun key hkey => ?_⟩
        · exact (hmem _).mpr (.inl List.mem_cons_self)
        · exact ((hmem key).mp hkey).imp List.mem_singleton.mp And.left
    · have hroute : RouteFails input env w := by
        rw [RouteFails, ← hsame]
        exact hfails
      obtain ⟨e', hends⟩ := rollback_ends input e (fun n => env (n + 2)) t
      refine ⟨_, _, .call hserve (.call hcreate hends),
        .unrouted e' o t now hpatch ho hroute hmade' fun key => ?_⟩
      rw [hmem, hsame]
      simp

/-! ### What is left -/

/-- Deletions keep the routes exactly if they take away what was made, and there
was nothing else to take away. -/
theorem routesKept_swept_iff {input : DeployImageInput} {w u : World} {made keys : List ObjectKey}
    (hmade : Made input w u made) (hkeys : ∀ key ∈ keys, IsRouteIn input.«namespace» key) :
    RoutesKept input w (u.swept keys) ↔
      (∀ key ∈ keys, w.cluster.objects key = none) ∧ ∀ key ∈ made, key ∈ keys := by
  constructor
  · intro h
    refine ⟨fun key hkey => ?_, fun key hkey => ?_⟩
    · have hkept := h key (hkeys key hkey)
      rw [World.swept_objects, if_pos hkey] at hkept
      exact hkept.symm
    · by_contra hnot
      obtain ⟨hin, hfree⟩ := hmade.fresh key hkey
      have hkept := h key hin
      have hthere := hmade.there key hkey
      rw [World.swept_objects, if_neg hnot, hfree] at hkept
      rw [hkept] at hthere
      cases hthere
  · rintro ⟨hnone, hmem⟩ key hin
    rw [World.swept_objects]
    split
    next hkey => exact (hnone key hkey).symm
    next hkey => exact hmade.others key hin fun h => hkey (hmem key h)

theorem sweptKeys_isRouteIn (input : DeployImageInput) (env : ℕ → Environment) :
    ∀ key ∈ sweptKeys env input.redirectKey input.routeKey, IsRouteIn input.«namespace» key := by
  intro key hkey
  rw [sweptKeys] at hkey
  split_ifs at hkey
  · cases hkey
  · rw [List.mem_singleton.mp hkey]
    exact redirectKey_isRouteIn input
  · rcases List.mem_pair.mp hkey with rfl | rfl
    exacts [redirectKey_isRouteIn input, routeKey_isRouteIn input]

/-- The rollback that begins with call `n` takes the main route away. -/
def Unroutes (input : DeployImageInput) (env : ℕ → Environment) (n : ℕ) : Prop :=
  (input.redirectKey = input.routeKey ∧ ¬Refused env n) ∨ (¬Fails env n ∧ ¬Refused env (n + 1))

/-- What the rollback takes away, with its first deletion at call `n`. -/
theorem mem_sweptKeys {input : DeployImageInput} (env : ℕ → Environment) (n : ℕ) (key : ObjectKey) :
    key ∈ sweptKeys (fun i => env (i + n)) input.redirectKey input.routeKey ↔
      (key = input.redirectKey ∧ ¬Refused env n) ∨ (key = input.routeKey ∧ Unroutes input env n) := by
  have hall : ∀ env : ℕ → Environment,
      key ∈ sweptKeys env input.redirectKey input.routeKey ↔
        (key = input.redirectKey ∧ ¬Refused env 0) ∨
          (key = input.routeKey ∧ Unroutes input env 0) := by
    intro env
    rw [sweptKeys, Unroutes]
    split_ifs with h0 h1
    · -- the first deletion is refused, so there is no second
      have hfails : Fails env 0 := h0.1
      simp [h0, hfails]
    · have hsecond : ¬(¬Fails env 0 ∧ ¬Refused env (0 + 1)) := by tauto
      simp only [List.mem_singleton, h0, hsecond, not_false_eq_true, and_true, or_false]
      constructor
      · exact .inl
      · rintro (h | ⟨h, hkeys⟩)
        exacts [h, h.trans hkeys.symm]
    · have hsecond : ¬Fails env 0 ∧ ¬Refused env (0 + 1) := not_or.mp h1
      simp [h0, hsecond]
  rw [hall]
  simp [Unroutes, Refused, Fails, Nat.add_comm 1 n]

theorem Unroutes.not_refused {input : DeployImageInput} {env : ℕ → Environment} {n : ℕ}
    (h : Unroutes input env n) : ¬Refused env n := by
  rcases h with ⟨-, h⟩ | ⟨h, -⟩
  exacts [h, fun hrefused => h hrefused.1]

/-- The deletions keep the routes exactly if what they take away was not there,
and what was made is among it. -/
theorem undoes_iff {input : DeployImageInput} {env : ℕ → Environment} {n : ℕ} {w u : World}
    {made : List ObjectKey} (hmade : Made input w u made)
    (hsub : ∀ key ∈ made, key = input.routeKey ∨ key = input.redirectKey) :
    RoutesKept input w
        (u.swept (sweptKeys (fun i => env (i + n)) input.redirectKey input.routeKey)) ↔
      (Refused env n ∨ w.cluster.objects input.redirectKey = none) ∧
        (Unroutes input env n → w.cluster.objects input.routeKey = none) ∧
        (input.routeKey ∈ made → Unroutes input env n) ∧
        (input.redirectKey ∈ made → ¬Refused env n) := by
  have hunroutes : input.redirectKey = input.routeKey → ¬Refused env n → Unroutes input env n :=
    fun hkeys h => .inl ⟨hkeys, h⟩
  have hroute : input.routeKey ∈ sweptKeys (fun i => env (i + n)) input.redirectKey
      input.routeKey ↔ Unroutes input env n := by
    rw [mem_sweptKeys]
    exact ⟨fun h => h.elim (fun h => hunroutes h.1.symm h.2) And.right, fun h => .inr ⟨rfl, h⟩⟩
  have hredirect : input.redirectKey ∈ sweptKeys (fun i => env (i + n)) input.redirectKey
      input.routeKey ↔ ¬Refused env n := by
    rw [mem_sweptKeys]
    exact ⟨fun h => h.elim And.right fun h => h.2.not_refused, fun h => .inl ⟨rfl, h⟩⟩
  -- what is swept was not there before, and what was made is swept
  rw [routesKept_swept_iff hmade (sweptKeys_isRouteIn input _)]
  constructor
  · rintro ⟨hnone, hmem⟩
    refine ⟨?_, fun h => hnone _ (hroute.mpr h), fun h => hroute.mp (hmem _ h),
      fun h => hredirect.mp (hmem _ h)⟩
    -- a refused deletion sweeps nothing
    by_cases h : Refused env n
    · exact .inl h
    · exact .inr (hnone _ (hredirect.mpr h))
  · rintro ⟨hfree, hfree', hmem, hmem'⟩
    refine ⟨fun key hkey => ?_, fun key hkey => ?_⟩
    · -- a swept key is one of the two
      rcases (mem_sweptKeys env n key).mp hkey with ⟨rfl, h⟩ | ⟨rfl, h⟩
      · exact hfree.resolve_left h
      · exact hfree' h
    · rcases hsub key hkey with rfl | rfl
      · exact hroute.mpr (hmem hkey)
      · exact hredirect.mpr (hmem' hkey)

/-- The rollback, when there is one, undoes what was done and nothing else. -/
def UndoesExactly (input : DeployImageInput) (env : ℕ → Environment) (w : World) : Prop :=
  input.routing = none ∨ Fails env 0 ∨ w.cluster.objects input.namespaceKey = none ∨
    if RouteFails input env w then
      -- the first creation fails; under a free name it has made the main route unless refused
      (Refused env 2 ∨ w.cluster.objects input.redirectKey = none) ∧
        if w.cluster.objects input.routeKey = none then Refused env 1 ∨ Unroutes input env 2
        else ¬Unroutes input env 2
    else if RedirectFails input env w then
      -- the second creation fails, and the main route has to go again
      Unroutes input env 3 ∧
        (input.redirectKey = input.routeKey ∨ w.cluster.objects input.redirectKey = none)
    else True

/-- **Routing is all or nothing exactly if the rollback undoes what was done.** -/
theorem routes_all_or_nothing_iff (input : DeployImageInput) (env : ℕ → Environment) (w : World) :
    AllOrNothing input env w ↔ UndoesExactly input env w := by
  cases hrouting : input.routing with
  | none =>
    refine iff_of_true ⟨?_, fun _ => ?_⟩ (.inl hrouting)
    · intro e h
      rw [enableApplicationRouting, hrouting] at h
      cases h
    · rw [enableApplicationRouting, hrouting]
      exact ⟨by simp [generatedRoutes, hrouting], by simp [generatedRoutes, hrouting],
        fun _ _ _ => rfl⟩
  | some routing =>
    obtain ⟨r, t, ⟨houtcome, hstate⟩, hrun⟩ := routing_run hrouting env w
    have hthrows : ∀ e, r = .error e → (AllOrNothing input env w ↔ RoutesKept input w t) := by
      rintro e rfl
      rw [AllOrNothing, houtcome, hstate]
      simp
    rw [UndoesExactly, hrouting]
    cases hrun with
    | unpatched e u hpatch hmade =>
      rw [hthrows e rfl]
      exact iff_of_true (fun key hin => hmade.others key hin List.not_mem_nil) (.inr (by tauto))
    | unrouted e o u made hpatch ho hroute hmade hmem =>
      rw [hthrows e rfl, undoes_iff hmade fun key hkey => .inl ((hmem key).mp hkey).1,
        if_pos hroute, ho]
      simp only [reduceCtorEq, hpatch, false_or, hmem, true_and]
      -- the redirect route was not made, unless it is the main one
      have hrefused : Unroutes input env 2 → ¬Refused env 2 := Unroutes.not_refused
      split_ifs with hfree
      · simp only [hfree, and_true, implies_true, true_and]
        refine and_congr_right fun _ => ⟨fun h => ?_, fun h => ⟨?_, ?_⟩⟩
        · exact Classical.or_iff_not_imp_left.mpr h.1
        · exact fun hmakes => h.resolve_left hmakes
        · exact fun hmakes => hrefused (h.resolve_left hmakes.2)
      · simp [hfree]
    | unredirected e o u made hpatch ho hroute hredirect hmade hmem hsub =>
      have hfree : w.cluster.objects input.routeKey = none := by simpa using (not_or.mp hroute).2
      rw [hthrows e rfl, undoes_iff hmade hsub, if_neg hroute, if_pos hredirect, ho]
      simp only [reduceCtorEq, hpatch, false_or, hmem, hfree, implies_true, true_and, forall_const]
      constructor
      · rintro ⟨hnone, hgoes, -⟩
        exact ⟨hgoes, .inr (hnone.resolve_left hgoes.not_refused)⟩
      · rintro ⟨hgoes, hkeys⟩
        refine ⟨.inr (hkeys.elim (fun h => ?_) id), hgoes, fun _ => hgoes.not_refused⟩
        rw [h]
        exact hfree
    | routed o u hpatch ho hroute hredirect hmade =>
      have hfree : w.cluster.objects input.routeKey = none := by simpa using (not_or.mp hroute).2
      obtain ⟨-, hkeys, hnone⟩ : ¬Fails env 2 ∧ input.redirectKey ≠ input.routeKey ∧
          w.cluster.objects input.redirectKey = none := by simpa [RedirectFails] using hredirect
      refine iff_of_true ⟨by simp [houtcome], fun _ => ?_⟩ ?_
      · rw [hstate]
        refine ⟨?_, ?_, ?_⟩
        · simp [generatedRoutes, hrouting, hfree, hnone]
        · simp [generatedRoutes, hrouting, World.created, hkeys.symm]
        · intro key hin hother
          simp only [generatedRoutes, hrouting, List.map_cons, List.map_nil, List.mem_cons,
            List.not_mem_nil, or_false, not_or] at hother
          rw [World.created, Cluster.put_objects_of_ne _ _ hother.2, World.created,
            Cluster.put_objects_of_ne _ _ hother.1]
          exact hmade.others key hin List.not_mem_nil
      · rw [if_neg hroute, if_neg hredirect]
        tauto

/-! ### A route of the same name -/

def shopRouting : DeployImageInput where
  «namespace» := "ns"
  names := resourceNamesOf "shop-1a2b3c4d"
  image := "shop:1"
  port := 80
  replicas := 1
  env := []
  secrets := []
  files := ⟨[], []⟩
  secretFiles := ⟨[], []⟩
  labels := []
  routing := some ⟨"shop-1a2b3c4d.apps.example", "gateway", "edge", "public", "true"⟩

/-- The namespace, and a redirect route of the name that another one is to get. -/
def redirectedWorld : World where
  apps := []
  builds := []
  workspaces := []
  deployments := fun _ => none
  cluster :=
    { objects := fun key =>
        if key = shopRouting.namespaceKey then some ⟨1, .ns []⟩
        else if key = shopRouting.redirectKey then
          some ⟨2, .httpRoute [] ⟨"edge", "infra", "http", "shop.example", .redirect "https" 308⟩⟩
        else none
      revision := 2 }

theorem rollback_deletes_foreign_route :
    ¬∀ (input : DeployImageInput) (env : ℕ → Environment) (w : World), AllOrNothing input env w := by
  intro h
  have hkept := (h shopRouting (fun _ => healthy) redirectedWorld).1
    (.kubernetes 409 "AlreadyExists") (by decide +kernel) shopRouting.redirectKey ⟨rfl, rfl⟩
  revert hkept
  decide +kernel

end NexCause
