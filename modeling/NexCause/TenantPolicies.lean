/-
NexCause/TenantPolicies.lean

Do the policies of a tenant precede its workloads?  `deployImage`,
`createBuildJob` and `createBuildpackJob` all begin with `ensureNamespace`, which
writes the three policies one after another; only then come the calls that
create or replace the tenant's objects.

A call may fail at any point, with any error, and may have taken effect all the
same.  Whatever fails: at every call that writes an object of a tenant its
policies are there, and if one of them has not been written, or the gateway is
not configured, there is no such call and the program throws
(`policies_precede_workloads`).
-/
import NexCause.BuildJobs
import NexCause.DeploymentPrograms

namespace NexCause

open Program Prog

/-! ### The cluster and its failures -/

/-- What happens at a call: it may fail, before or after it has taken effect. -/
structure Disturbance where
  failure : Option (ApiError × Bool)
  status : DeploymentConditions

/-- The cluster, when calls may fail. -/
def serveDisturbed : Service Call Call.Result ApiError Disturbance Cluster
  | .kubernetes op, x, c =>
      match x.failure with
      | none => c.serve op x.status
      | some (error, tookEffect) =>
          (.error error, if tookEffect then (c.serve op x.status).2 else c)
  | _, _, c => (.error (.error "not a call of Kubernetes"), c)

/-- The three entry points. -/
inductive WorkloadRequest
  | deployImage (input : DeployImageInput)
  | createBuildJob (input : CreateBuildJobInput)
  | createBuildpackJob (input : CreateBuildpackJobInput)

def WorkloadRequest.program (config : ServiceConfig) : WorkloadRequest → Action Unit
  | .deployImage input => NexCause.deployImage config input
  | .createBuildJob input => NexCause.createBuildJob config input
  | .createBuildpackJob input => NexCause.createBuildpackJob config input

def WorkloadRequest.namespace : WorkloadRequest → String
  | .deployImage input => input.«namespace»
  | .createBuildJob input => input.«namespace»
  | .createBuildpackJob input => input.«namespace»

/-- The objects that a tenant's workload consists of. -/
def Kind.IsWorkload : Kind → Bool
  | .ns => false
  | .networkPolicy => false
  | _ => true

/-- The object that a call creates or replaces. -/
def Call.writes : Call → Option (ObjectKey × Manifest)
  | .kubernetes (.create key _ m) => some (key, m)
  | .kubernetes (.replace key _ m) => some (key, m)
  | _ => none

abbrev KubernetesStep : Type := Step Call Call.Result ApiError Cluster

/-- The policies that the configuration asks for. -/
def ServiceConfig.tenantPolicies (config : ServiceConfig) : List (String × NetworkPolicySpec) :=
  buildTenantNetworkPolicyManifests config.applicationGatewayName config.applicationGatewayNamespace

/-- The policies are in the namespace, with the specs of the builder. -/
def Cluster.HoldsPolicies (c : Cluster) (config : ServiceConfig) («namespace» : String) : Prop :=
  ∀ policy ∈ config.tenantPolicies, ∃ resourceVersion,
    c.objects ⟨.networkPolicy, «namespace», policy.1⟩ =
      some ⟨resourceVersion, .networkPolicy policy.2⟩

/-- The step is one that writes a workload, and it finds and leaves the policies. -/
def KubernetesStep.Guarded (config : ServiceConfig) (step : KubernetesStep) : Prop :=
  ∀ key m, step.call.writes = some (key, m) → key.kind.IsWorkload = true →
    step.before.HoldsPolicies config key.«namespace» ∧
      step.after.HoldsPolicies config key.«namespace»

/-- The step has written the object. -/
def KubernetesStep.Wrote (step : KubernetesStep) (key : ObjectKey) (m : Manifest) : Prop :=
  step.call.writes = some (key, m) ∧ ∃ a, step.answer = .ok a

/-! ### What a call does -/

theorem writes_key {op : ClusterOp} {key : ObjectKey} {m : Manifest}
    (h : (Call.kubernetes op).writes = some (key, m)) : key = op.key := by
  cases op with
  | create key' resourceVersion m' => exact (Prod.mk.inj (Option.some.inj h)).1.symm
  | replace key' resourceVersion m' => exact (Prod.mk.inj (Option.some.inj h)).1.symm
  | read key' => cases h
  | delete key' => cases h
  | patch key' p => cases h

theorem serveDisturbed_frame {c : Call} {x : Disturbance} {s : Cluster} {S : ObjectKey → Prop}
    (hc : c.On S) {key : ObjectKey} (hkey : ¬ S key) :
    (serveDisturbed c x s).2.objects key = s.objects key := by
  obtain ⟨op, rfl, hop⟩ := hc
  have hne : key ≠ op.key := fun h => hkey (h ▸ hop)
  obtain ⟨failure, status⟩ := x
  cases failure with
  | none => exact Cluster.serve_objects_of_ne hne
  | some failure =>
    obtain ⟨error, tookEffect⟩ := failure
    cases tookEffect with
    | true => exact Cluster.serve_objects_of_ne hne
    | false => rfl

/-- A creation or a replacement that returns has written the object. -/
theorem serveDisturbed_wrote {op : ClusterOp} {x : Disturbance} {s : Cluster} {key : ObjectKey}
    {m : Manifest} (hop : (Call.kubernetes op).writes = some (key, m)) {a : op.Result}
    (h : (serveDisturbed (.kubernetes op) x s).1 = .ok a) :
    ∃ resourceVersion, (serveDisturbed (.kubernetes op) x s).2.objects key =
      some ⟨resourceVersion, m⟩ := by
  obtain ⟨failure, status⟩ := x
  cases failure with
  | some failure => cases h
  | none =>
    cases op with
    -- these write no manifest
    | read key' => cases hop
    | delete key' => cases hop
    | patch key' p => cases hop
    -- a creation answers only if the name was free
    | create key' resourceVersion m' =>
      obtain ⟨rfl, rfl⟩ := Prod.mk.inj (Option.some.inj hop)
      refine ⟨s.revision + 1, ?_⟩
      simp only [serveDisturbed, Cluster.serve] at h ⊢
      split at h
      · cases h
      · exact s.put_objects_self key' m'
      · cases h
    -- a replacement, only for the version it has read
    | replace key' resourceVersion m' =>
      obtain ⟨rfl, rfl⟩ := Prod.mk.inj (Option.some.inj hop)
      refine ⟨s.revision + 1, ?_⟩
      simp only [serveDisturbed, Cluster.serve] at h ⊢
      split at h
      · cases h
      · split at h
        · rename_i hversion
          rw [if_pos hversion]
          exact s.put_objects_self key' m'
        · cases h

/-! ### One policy -/

abbrev Logged : Type := Cluster × List KubernetesStep

/-- The object has been written, and is there. -/
def Written (key : ObjectKey) (m : Manifest) (s : Logged) : Prop :=
  (∃ resourceVersion, s.1.objects key = some ⟨resourceVersion, m⟩) ∧
    ∃ step ∈ s.2, KubernetesStep.Wrote step key m

/-- The calls since `s` are on objects in `S`, and the others are what they were. -/
def Within (S : ObjectKey → Prop) (s t : Logged) : Prop :=
  (∃ new, t.2 = s.2 ++ new ∧ ∀ step ∈ new, step.call.On S) ∧
    ∀ key, ¬ S key → t.1.objects key = s.1.objects key

section Meets

variable {α : Type} {S : ObjectKey → Prop} {s : Logged}

theorem Within.refl (S : ObjectKey → Prop) (s : Logged) : Within S s s :=
  ⟨⟨[], (List.append_nil _).symm, fun _ h => absurd h List.not_mem_nil⟩, fun _ _ => rfl⟩

theorem Within.step {t u : Logged} (h : Within S s t) {c : Call} (hc : c.On S)
    {r : Except ApiError c.Result} (hpost : (Contract.logging serveDisturbed).post c t r u) :
    Within S s u := by
  obtain ⟨⟨new, hnew, hon⟩, hframe⟩ := h
  obtain ⟨x, hserve, hlog⟩ := hpost
  refine ⟨⟨new ++ [⟨c, t.1, r, u.1⟩], ?_, fun step hstep => ?_⟩, fun key hkey => ?_⟩
  · rw [hlog, hnew, List.append_assoc]
  · rcases List.mem_append.mp hstep with hstep | hstep
    · exact hon step hstep
    · rw [List.mem_singleton.mp hstep]
      exact hc
  · have hone := serveDisturbed_frame (x := x) (s := t.1) hc hkey
    rw [hserve] at hone
    exact hone.trans (hframe key hkey)

/-- A program stays within the objects that its calls are on. -/
theorem within_meets {p : Action α} (hp : p.Calls (Call.On S)) :
    p.Meets (Contract.logging serveDisturbed) (fun _ t => Within S s t) s :=
  hp.keeps (fun _ _ hc ht => ⟨trivial, fun _ _ hpost => ht.step hc hpost⟩) (Within.refl S s)

theorem true_meets (p : Action α) :
    p.Meets (Contract.logging serveDisturbed) (fun _ _ => True) s := by
  have hcalls : p.Calls fun _ => True := by
    induction p with
    | ret a => trivial
    | throw e => trivial
    | call c k ih => exact ⟨trivial, ih⟩
  exact hcalls.keeps (fun _ _ _ _ => ⟨trivial, fun _ _ _ => trivial⟩) trivial

/-- A call that writes an object, if it returns, has written it. -/
theorem write_meets {op : ClusterOp} {key : ObjectKey} {m : Manifest}
    (hop : (Call.kubernetes op).writes = some (key, m)) :
    (perform (Call.kubernetes op) : Action op.Result).Meets (Contract.logging serveDisturbed)
      (fun r t => ∀ a, r = .ok a → Written key m t) s := by
  apply meets_perform.mpr
  refine ⟨trivial, ?_⟩
  rintro r t ⟨x, hserve, hlog⟩ a rfl
  have hwrote := serveDisturbed_wrote (x := x) (s := s.1) (a := a) hop (by rw [hserve])
  rw [hserve] at hwrote
  refine ⟨hwrote, ⟨.kubernetes op, s.1, .ok a, t.1⟩, ?_, hop, a, rfl⟩
  rw [hlog]
  exact List.mem_append_right _ (List.mem_singleton.mpr rfl)

theorem create_written (key : ObjectKey) (resourceVersion : Option ℕ) (m : Manifest) :
    (createObject key resourceVersion m).Meets (Contract.logging serveDisturbed)
      (fun r t => r = .ok () → Written key m t) s := by
  have hwrites : (Call.kubernetes (.create key resourceVersion m)).writes = some (key, m) := rfl
  exact (write_meets hwrites).mono fun _ _ h hr => h () hr

theorem replace_written (key : ObjectKey) (resourceVersion : ℕ) (m : Manifest) :
    (replaceObject key resourceVersion m).Meets (Contract.logging serveDisturbed)
      (fun r t => r = .ok () → Written key m t) s := by
  have hwrites : (Call.kubernetes (.replace key resourceVersion m)).writes = some (key, m) := rfl
  exact (write_meets hwrites).mono fun _ _ h hr => h () hr

/-- An upsert that returns has written its object. -/
theorem upsert_written (key : ObjectKey) (m : Manifest) :
    (upsert key m fun _ => m).Meets (Contract.logging serveDisturbed)
      (fun r t => r = .ok () → Written key m t) s := by
  apply (true_meets (s := s) _).bind
  · intro existing t _
    cases existing with
    | none => exact create_written key none m
    | some object =>
      apply (replace_written key object.resourceVersion m).tryCatch
      · exact fun a u h => h
      · -- the object is not there any more: it is created
        intro error u _
        unfold onNotFound
        split
        · exact create_written key (some object.resourceVersion) m
        · exact fun hr => nomatch hr
  · exact fun error t _ hr => nomatch hr

/-- What stands is what it was, where nothing is written. -/
theorem Written.within {key : ObjectKey} {m : Manifest} {t : Logged} (h : Written key m s)
    (hwithin : Within S s t) (hkey : ¬ S key) : Written key m t := by
  obtain ⟨⟨new, hnew, -⟩, hframe⟩ := hwithin
  obtain ⟨hobject, step, hstep, hwrote⟩ := h
  rw [Written, hframe key hkey, hnew]
  exact ⟨hobject, step, List.mem_append_left _ hstep, hwrote⟩

theorem upsertPolicies_on {«namespace» : String} {policies : List (String × NetworkPolicySpec)}
    (h : ∀ policy ∈ policies, S ⟨.networkPolicy, «namespace», policy.1⟩) :
    (policies.forM (upsertNetworkPolicy «namespace»)).Calls (Call.On S) := by
  induction policies with
  | nil => trivial
  | cons policy policies ih =>
    apply (upsert_on (h policy List.mem_cons_self) _ _).bind
    exact fun _ => ih fun other hother => h other (List.mem_cons_of_mem _ hother)

/-- The loop over the policies. -/
theorem upsertPolicies_written («namespace» : String) {policies : List (String × NetworkPolicySpec)}
    (hnames : (policies.map Prod.fst).Nodup) :
    (policies.forM (upsertNetworkPolicy «namespace»)).Meets (Contract.logging serveDisturbed)
      (fun r t => r = .ok () → ∀ policy ∈ policies,
        Written ⟨.networkPolicy, «namespace», policy.1⟩ (.networkPolicy policy.2) t) s := by
  induction policies generalizing s with
  | nil => exact fun _ policy hpolicy => absurd hpolicy List.not_mem_nil
  | cons policy policies ih =>
    obtain ⟨hfresh, hnames⟩ := List.nodup_cons.mp hnames
    apply (upsert_written ⟨.networkPolicy, «namespace», policy.1⟩ (.networkPolicy policy.2)).bind
    · intro _ t hwritten
      -- the other upserts are on other policies
      have hothers : (policies.forM (upsertNetworkPolicy «namespace»)).Calls
          (Call.On fun key => key ≠ ⟨.networkPolicy, «namespace», policy.1⟩) := by
        apply upsertPolicies_on
        rintro other hother heq
        exact hfresh (List.mem_map.mpr ⟨other, hother, (ObjectKey.mk.inj heq).2.2⟩)
      apply ((ih hnames (s := t)).and (within_meets hothers)).mono
      rintro r u ⟨hrest, hwithin⟩ hr other hother
      rcases List.mem_cons.mp hother with rfl | hother
      · exact (hwritten rfl).within hwithin (not_not_intro rfl)
      · exact hrest hr other hother
    · exact fun error t _ hr => nomatch hr

/-- The gateway is configured. -/
def ServiceConfig.NamesGateway (config : ServiceConfig) : Prop :=
  config.applicationGatewayName ≠ "" ∧ config.applicationGatewayNamespace ≠ ""

/-- All policies have been written. -/
def PoliciesWritten (config : ServiceConfig) («namespace» : String) (s : Logged) : Prop :=
  ∀ policy ∈ config.tenantPolicies,
    Written ⟨.networkPolicy, «namespace», policy.1⟩ (.networkPolicy policy.2) s

theorem PoliciesWritten.holds {config : ServiceConfig} {«namespace» : String}
    (h : PoliciesWritten config «namespace» s) : s.1.HoldsPolicies config «namespace» :=
  fun policy hpolicy => (h policy hpolicy).1

/-- The namespace and its policies: nothing else is touched, and when
`ensureNamespace` returns, the policies have been written. -/
theorem ensureNamespace_meets {config : ServiceConfig}
    (henabled : config.tenantNetworkPolicyEnabled = true) («namespace» : String) (labels : Entries) :
    (ensureNamespace config «namespace» labels).Meets (Contract.logging serveDisturbed)
      (fun r t => Within (fun key => key.kind = .ns ∨ key.kind = .networkPolicy) s t ∧
        (r = .ok () → config.NamesGateway ∧ PoliciesWritten config «namespace» t)) s := by
  apply (within_meets (ensureNamespace_on config «namespace» labels)).and
  apply (true_meets (s := s) _).bind
  · intro _ t _
    rw [if_pos henabled]
    unfold reconcileTenantNetworkPolicies
    split
    · exact fun hr => nomatch hr
    · rename_i hgateway
      have hnames : (config.tenantPolicies.map Prod.fst).Nodup := by
        show ["default-deny-ingress", "allow-same-namespace", "allow-shared-gateway"].Nodup
        decide
      apply (upsertPolicies_written «namespace» hnames).tryCatch
      · exact fun _ u h _ => ⟨not_or.mp hgateway, h rfl⟩
      · exact fun error u _ hr => nomatch hr
  · exact fun error t _ hr => nomatch hr

end Meets

/-! ### The three programs -/

/-- An object of a workload in the namespace, or the namespace itself. -/
def InWorkload («namespace» : String) (key : ObjectKey) : Prop :=
  key.kind ≠ .networkPolicy ∧ (key.kind.IsWorkload = true → key.«namespace» = «namespace»)

theorem inWorkload (kind : Kind) («namespace» name : String) (h : kind ≠ .networkPolicy) :
    InWorkload «namespace» ⟨kind, «namespace», name⟩ := ⟨h, fun _ => rfl⟩

theorem inWorkload_ns («namespace» name : String) : InWorkload «namespace» ⟨.ns, "", name⟩ := by
  simp [InWorkload, Kind.IsWorkload]

/-- After `ensureNamespace` every program leaves policies alone, and what it
writes is in its namespace. -/
theorem WorkloadRequest.program_eq (config : ServiceConfig) (q : WorkloadRequest) :
    ∃ labels rest, q.program config = (ensureNamespace config q.namespace labels >>= fun _ => rest) ∧
      rest.Calls (Call.On (InWorkload q.namespace)) := by
  cases q with
  | createBuildJob input =>
    refine ⟨input.labels, createObject _ none (buildBuildJobManifest input), rfl, ?_⟩
    exact on_perform (inWorkload _ _ _ (by decide))
  | createBuildpackJob input =>
    refine ⟨input.labels, createObject _ none (buildBuildpackJobManifest input), rfl, ?_⟩
    exact on_perform (inWorkload _ _ _ (by decide))
  -- the objects, and the routes if there are any, all in the namespace
  | deployImage input =>
    refine ⟨input.labels, _, rfl, ?_⟩
    apply (upsert_on (inWorkload _ _ _ (by decide)) _ _).bind
    intro _
    apply (upsertOptional_on fun _ _ => (inWorkload _ _ _ (by decide))).bind
    intro _
    apply (upsertOptional_on fun _ _ => (inWorkload _ _ _ (by decide))).bind
    intro _
    apply (upsertOptional_on fun _ _ => (inWorkload _ _ _ (by decide))).bind
    intro _
    apply (upsert_on (inWorkload _ _ _ (by decide)) _ _).bind
    intro _
    apply (upsert_on (inWorkload _ _ _ (by decide)) _ _).bind
    intro _
    split
    · unfold enableApplicationRouting
      split
      · trivial
      · apply (on_perform (inWorkload_ns _ _)).bind
        intro _
        apply Calls.tryCatch
        · apply (on_perform (inWorkload .httpRoute _ _ (by decide))).bind
          exact fun _ => on_perform (inWorkload .httpRoute _ _ (by decide))
        · intro error
          apply (deleteIfExists_on (inWorkload _ _ _ (by decide))).bind
          intro _
          exact (deleteIfExists_on (inWorkload _ _ _ (by decide))).bind fun _ => trivial
    · trivial

/-- What a program guarantees of its outcome and its steps. -/
def PoliciesFirst (config : ServiceConfig) («namespace» : String) (r : Except ApiError Unit)
    (steps : List KubernetesStep) : Prop :=
  (∀ step ∈ steps, KubernetesStep.Guarded config step) ∧
    ((config.NamesGateway ∧ ∀ policy ∈ config.tenantPolicies, ∃ step ∈ steps,
        KubernetesStep.Wrote step ⟨.networkPolicy, «namespace», policy.1⟩ (.networkPolicy policy.2)) ∨
      (∀ step ∈ steps, ∀ key m, step.call.writes = some (key, m) → key.kind.IsWorkload = false) ∧
        ∃ e, r = .error e)

/-- A step of the second part finds and leaves the policies. -/
theorem guarded_of_on {config : ServiceConfig} {«namespace» : String} (step : KubernetesStep)
    {x : Disturbance} (hstep : serveDisturbed step.call x step.before = (step.answer, step.after))
    (hon : step.call.On (InWorkload «namespace»))
    (hpolicies : step.before.HoldsPolicies config «namespace») :
    step.after.HoldsPolicies config «namespace» ∧ KubernetesStep.Guarded config step := by
  have hafter : step.after.HoldsPolicies config «namespace» := by
    intro policy hpolicy
    have hkey : ¬ InWorkload «namespace» ⟨.networkPolicy, «namespace», policy.1⟩ := fun h => h.1 rfl
    have hframe := serveDisturbed_frame (x := x) (s := step.before) hon hkey
    rw [hstep] at hframe
    rw [hframe]
    exact hpolicies policy hpolicy
  refine ⟨hafter, fun key m hwrites hworkload => ?_⟩
  obtain ⟨op, hcall, hkey⟩ := hon
  rw [hcall] at hwrites
  rw [writes_key hwrites] at hworkload ⊢
  rw [hkey.2 hworkload]
  exact ⟨hpolicies, hafter⟩

theorem program_policiesFirst {config : ServiceConfig}
    (henabled : config.tenantNetworkPolicyEnabled = true) (q : WorkloadRequest) (c : Cluster) :
    (q.program config).Meets (Contract.logging serveDisturbed)
      (fun r t => PoliciesFirst config q.namespace r t.2) (c, []) := by
  obtain ⟨labels, rest, hprogram, hrest⟩ := q.program_eq config
  -- the first part writes no workload
  have hfirst : ∀ t : Logged, Within (fun key => key.kind = .ns ∨ key.kind = .networkPolicy) (c, []) t →
      ∀ step ∈ t.2, ∀ key m, step.call.writes = some (key, m) → key.kind.IsWorkload = false := by
    rintro t ⟨⟨new, hnew, hon⟩, -⟩ step hstep key m hwrites
    rw [hnew] at hstep
    obtain ⟨op, hcall, hkind⟩ := hon step hstep
    rw [hcall] at hwrites
    rw [writes_key hwrites]
    rcases hkind with hkind | hkind <;> rw [hkind] <;> rfl
  have hunguarded : ∀ t : Logged,
      (∀ step ∈ t.2, ∀ key m, step.call.writes = some (key, m) → key.kind.IsWorkload = false) →
      ∀ step ∈ t.2, KubernetesStep.Guarded config step := by
    intro t ht step hstep key m hwrites hworkload
    rw [ht step hstep key m hwrites] at hworkload
    cases hworkload
  rw [hprogram]
  apply (ensureNamespace_meets henabled q.namespace labels).bind
  · rintro _ t ⟨hwithin, hok⟩
    obtain ⟨hgateway, hwritten⟩ := hok rfl
    -- the policies stay, and the log grows
    have hkeep := hrest.keeps (K := Contract.logging serveDisturbed) (s := t)
      (I := fun u => u.1.HoldsPolicies config q.namespace ∧
        (∀ step ∈ u.2, KubernetesStep.Guarded config step) ∧ ∃ new, u.2 = t.2 ++ new) ?_
      ⟨hwritten.holds, hunguarded t (hfirst t hwithin), [], (List.append_nil _).symm⟩
    · apply hkeep.mono
      rintro r u ⟨-, hguarded, new, hnew⟩
      refine ⟨hguarded, Or.inl ⟨hgateway, fun policy hpolicy => ?_⟩⟩
      obtain ⟨-, step, hstep, hwrote⟩ := hwritten policy hpolicy
      rw [hnew]
      exact ⟨step, List.mem_append_left _ hstep, hwrote⟩
    · rintro call u hcall ⟨hpolicies, hguarded, new, hnew⟩
      refine ⟨trivial, ?_⟩
      rintro r v ⟨x, hserve, hlog⟩
      obtain ⟨hafter, hstep⟩ := guarded_of_on ⟨call, u.1, r, v.1⟩ hserve hcall hpolicies
      refine ⟨hafter, fun step hmem => ?_, new ++ [⟨call, u.1, r, v.1⟩], ?_⟩
      · rw [hlog] at hmem
        rcases List.mem_append.mp hmem with hmem | hmem
        · exact hguarded step hmem
        · rw [List.mem_singleton.mp hmem]
          exact hstep
      · rw [hlog, hnew, List.append_assoc]
  · rintro e t ⟨hwithin, -⟩
    exact ⟨hunguarded t (hfirst t hwithin), Or.inr ⟨hfirst t hwithin, e, rfl⟩⟩

/-- **Policies first.**  With policies for tenants, whichever calls fail: at
every call that creates or replaces an object of a workload, the policies are in
its namespace, with the specs of the builder; and if the gateway is not
configured, or a policy was not written, there is no such call and the program
throws. -/
theorem policies_precede_workloads {config : ServiceConfig}
    (henabled : config.tenantNetworkPolicyEnabled = true) (q : WorkloadRequest)
    (env : ℕ → Disturbance) (c : Cluster) :
    let steps := (q.program config).steps serveDisturbed env c
    (∀ step ∈ steps, ∀ key m, step.call.writes = some (key, m) → key.kind.IsWorkload = true →
      step.before.HoldsPolicies config key.«namespace» ∧
        step.after.HoldsPolicies config key.«namespace») ∧
    ((config.applicationGatewayName = "" ∨ config.applicationGatewayNamespace = "" ∨
        ∃ policy ∈ config.tenantPolicies, ∀ step ∈ steps,
          ¬ KubernetesStep.Wrote step ⟨.networkPolicy, q.namespace, policy.1⟩
            (.networkPolicy policy.2)) →
      (∀ step ∈ steps, ∀ key m, step.call.writes = some (key, m) → key.kind.IsWorkload = false) ∧
        ∃ e, ((q.program config).run serveDisturbed env c).outcome = .error e) := by
  intro steps
  have hfirst := run_logging (program_policiesFirst henabled q c) env
  rw [List.nil_append] at hfirst
  obtain ⟨hguarded, hwritten⟩ := hfirst
  refine ⟨hguarded, fun hfails => ?_⟩
  rcases hwritten with ⟨⟨hname, hnamespace⟩, hwritten⟩ | hnone
  · rcases hfails with h | h | ⟨policy, hpolicy, hunwritten⟩
    · exact absurd h hname
    · exact absurd h hnamespace
    · obtain ⟨step, hstep, hwrote⟩ := hwritten policy hpolicy
      exact absurd hwrote (hunwritten step hstep)
  · exact hnone

/-- A build of the app `shop`. -/
def shopBuild : CreateBuildJobInput where
  «namespace» := "rca-w-1"
  jobName := "shop-build-0a1b2c3d"
  labels := buildJobLabels "workspace-1" "app-1" "0a1b2c3d-1"
  repoUrl := "https://example.org/shop.git"
  branch := "main"
  buildContext := "."
  dockerfilePath := "Dockerfile"
  clusterImage := "registry/shop:0a1b2c3d-1"

/-- Without the name of a gateway no build starts. -/
theorem no_gateway_no_build :
    let config :=
      { sampleConfig with tenantNetworkPolicyEnabled := true, applicationGatewayName := "" }
    ∃ e, (((WorkloadRequest.createBuildJob shopBuild).program config).run serveDisturbed
      (fun _ => ⟨none, ⟨0, 0, 0, 0, []⟩⟩) ⟨fun _ => none, 0⟩).outcome = .error e :=
  ((policies_precede_workloads rfl _ _ _).2 (Or.inl rfl)).2

end NexCause
