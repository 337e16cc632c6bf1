/-
NexCause/NetworkPolicies.lean

What do the three policies of a tenant let in?  A NetworkPolicy is read as
Kubernetes reads it: a pod that no policy of its namespace selects accepts every
connection; a pod that some policy selects accepts those for which a selecting
policy has a rule with a peer that matches the source.

A pod of a deployment accepts the connections from its own namespace and, if it
was deployed with routing, those from the shared gateway
(`ingress_exactly_as_intended`).
-/
import NexCause.LabelSelectors

namespace NexCause

/-! ### The semantics of policies -/

/-- A pod, as policies see it. -/
structure NetworkPod where
  «namespace» : String
  labels : Entries
  deriving DecidableEq, Repr

/-- The labels of a namespace; the API server sets the one with its name. -/
def Cluster.namespaceLabels (c : Cluster) (name : String) : Entries :=
  ("kubernetes.io/metadata.name", name) ::
    match c.objects ⟨.ns, "", name⟩ with
    | some ⟨_, .ns labels⟩ => labels
    | _ => []

/-- The policy is in the namespace. -/
def Cluster.HasPolicy (c : Cluster) («namespace» : String) (policy : NetworkPolicySpec) : Prop :=
  ∃ name resourceVersion, c.objects ⟨.networkPolicy, «namespace», name⟩ =
    some ⟨resourceVersion, .networkPolicy policy⟩

/-- The policy is about the pod. -/
def NetworkPolicySpec.Selects (policy : NetworkPolicySpec) (pod : NetworkPod) : Prop :=
  matchesLabels policy.podSelector pod.labels = true

/-- The peer of a policy matches the source: without a selector for
namespaces it means the policy's own. -/
def NetworkPolicyPeer.Matches (peer : NetworkPolicyPeer) (c : Cluster) («namespace» : String)
    (source : NetworkPod) : Prop :=
  (match peer.namespaceSelector with
    | none => source.«namespace» = «namespace»
    | some selector => matchesLabels selector (c.namespaceLabels source.«namespace») = true) ∧
  matchesLabels peer.podSelector source.labels = true

/-- One of the policy's rules lets the source in; a rule without peers lets
every source in. -/
def NetworkPolicySpec.LetsIn (policy : NetworkPolicySpec) (c : Cluster) («namespace» : String)
    (source : NetworkPod) : Prop :=
  ∃ rule ∈ policy.ingress, rule = [] ∨ ∃ peer ∈ rule, peer.Matches c «namespace» source

/-- The pod accepts connections from the source. -/
def Cluster.AcceptsIngress (c : Cluster) (target source : NetworkPod) : Prop :=
  (∃ policy, c.HasPolicy target.«namespace» policy ∧ policy.Selects target) →
    ∃ policy, c.HasPolicy target.«namespace» policy ∧ policy.Selects target ∧
      policy.LetsIn c target.«namespace» source

/-- The policies of the namespace are the three of the tenant. -/
def Cluster.HoldsTenantPolicies (c : Cluster) (gatewayName gatewayNamespace : String)
    («namespace» : String) : Prop :=
  ∀ policy, c.HasPolicy «namespace» policy ↔
    policy ∈ (buildTenantNetworkPolicyManifests gatewayName gatewayNamespace).map Prod.snd

/-! ### What the three policies let in -/

section TenantPolicies

variable {c : Cluster} {gatewayName gatewayNamespace tenant : String} {source : NetworkPod}

theorem matchesLabels_nil (labels : Entries) : matchesLabels [] labels = true := rfl

theorem matchesLabels_singleton {k v : String} {labels : Entries} :
    matchesLabels [(k, v)] labels = true ↔ labels.lookup k = some v := by
  simp [matchesLabels]

/-- The API server has labelled the gateway's namespace, and no other, with its name. -/
theorem lookup_namespaceLabels {name gateway : String} :
    (c.namespaceLabels name).lookup "kubernetes.io/metadata.name" = some gateway ↔ name = gateway := by
  rw [Cluster.namespaceLabels, List.lookup_cons_self, Option.some_inj]

theorem allowSameNamespace_letsIn :
    NetworkPolicySpec.LetsIn ⟨[], [[⟨none, []⟩]]⟩ c tenant source ↔ source.«namespace» = tenant := by
  simp [NetworkPolicySpec.LetsIn, NetworkPolicyPeer.Matches, matchesLabels_nil]

theorem allowSharedGateway_letsIn {selector : Entries} :
    NetworkPolicySpec.LetsIn ⟨selector,
        [[⟨some [("kubernetes.io/metadata.name", gatewayNamespace)],
           [("gateway.networking.k8s.io/gateway-name", gatewayName)]⟩]]⟩ c tenant source ↔
      source.«namespace» = gatewayNamespace ∧
        source.labels.lookup "gateway.networking.k8s.io/gateway-name" = some gatewayName := by
  simp [NetworkPolicySpec.LetsIn, NetworkPolicyPeer.Matches, matchesLabels_singleton,
    lookup_namespaceLabels]

end TenantPolicies

/-- Only the pods that were deployed with routing have the label of public ones. -/
theorem ManagedDeployment.public_iff (d : ManagedDeployment) {pod : Entries}
    (h : MakesPod (deploymentManifest d.input) pod) :
    pod.lookup PUBLIC_APPLICATION_LABEL = some "true" ↔ d.input.routing.isSome = true := by
  obtain ⟨templateHash, hlookup⟩ := d.pod_lookup h
  rw [hlookup]
  cases d.input.routing <;> simp [PUBLIC_APPLICATION_LABEL, buildManagedLabels, lookup_cons_ite]

/-- **Ingress.**  In a namespace with the policies of a tenant, a pod of a
deployment accepts a connection if and only if it comes from the same namespace,
or the deployment has routing and it comes from a pod of the gateway. -/
theorem ingress_exactly_as_intended {c : Cluster} {gatewayName gatewayNamespace : String}
    {target : NetworkPod}
    (hpolicies : c.HoldsTenantPolicies gatewayName gatewayNamespace target.«namespace»)
    (d : ManagedDeployment) (hpod : MakesPod (deploymentManifest d.input) target.labels)
    (source : NetworkPod) :
    c.AcceptsIngress target source ↔
      source.«namespace» = target.«namespace» ∨
        d.input.routing.isSome = true ∧ source.«namespace» = gatewayNamespace ∧
          source.labels.lookup "gateway.networking.k8s.io/gateway-name" = some gatewayName := by
  -- the first policy selects every pod and lets nothing in
  have hdeny : c.HasPolicy target.«namespace» ⟨[], []⟩ :=
    (hpolicies _).mpr (by simp [buildTenantNetworkPolicyManifests])
  have hselected : ∃ policy, c.HasPolicy target.«namespace» policy ∧ policy.Selects target :=
    ⟨_, hdeny, matchesLabels_nil _⟩
  have hpublic : NetworkPolicySpec.Selects ⟨[(PUBLIC_APPLICATION_LABEL, "true")],
      [[⟨some [("kubernetes.io/metadata.name", gatewayNamespace)],
         [("gateway.networking.k8s.io/gateway-name", gatewayName)]⟩]]⟩ target ↔
      d.input.routing.isSome = true := by
    rw [NetworkPolicySpec.Selects, matchesLabels_singleton]
    exact d.public_iff hpod
  constructor
  · intro h
    obtain ⟨policy, hpolicy, hselects, hlets⟩ := h hselected
    have hmem := (hpolicies policy).mp hpolicy
    simp only [buildTenantNetworkPolicyManifests, List.map_cons, List.map_nil, List.mem_cons,
      List.not_mem_nil, or_false] at hmem
    rcases hmem with rfl | rfl | rfl
    · obtain ⟨rule, hrule, -⟩ := hlets
      cases hrule
    · exact Or.inl (allowSameNamespace_letsIn.mp hlets)
    · exact Or.inr ⟨hpublic.mp hselects, allowSharedGateway_letsIn.mp hlets⟩
  · rintro (hsame | ⟨hrouting, hgateway⟩) -
    · refine ⟨⟨[], [[⟨none, []⟩]]⟩, (hpolicies _).mpr ?_, matchesLabels_nil _,
        allowSameNamespace_letsIn.mpr hsame⟩
      simp [buildTenantNetworkPolicyManifests]
    · refine ⟨_, (hpolicies _).mpr ?_, hpublic.mpr hrouting,
        allowSharedGateway_letsIn.mpr hgateway⟩
      simp [buildTenantNetworkPolicyManifests]

/-- A cluster with the policies of one tenant, and nothing else. -/
def tenantCluster (gatewayName gatewayNamespace tenant : String) : Cluster where
  objects key :=
    if key.kind = .networkPolicy ∧ key.«namespace» = tenant then
      ((buildTenantNetworkPolicyManifests gatewayName gatewayNamespace).lookup key.name).map
        fun policy => ⟨1, .networkPolicy policy⟩
    else none
  revision := 3

theorem tenantCluster_objects (gatewayName gatewayNamespace tenant name : String) :
    (tenantCluster gatewayName gatewayNamespace tenant).objects ⟨.networkPolicy, tenant, name⟩ =
      ((buildTenantNetworkPolicyManifests gatewayName gatewayNamespace).lookup name).map
        fun policy => ⟨1, .networkPolicy policy⟩ := if_pos ⟨rfl, rfl⟩

theorem tenantCluster_holds (gatewayName gatewayNamespace tenant : String) :
    (tenantCluster gatewayName gatewayNamespace tenant).HoldsTenantPolicies gatewayName
      gatewayNamespace tenant := by
  intro policy
  have hnames : ∀ name, (buildTenantNetworkPolicyManifests gatewayName gatewayNamespace).lookup name =
      some policy → policy ∈ (buildTenantNetworkPolicyManifests gatewayName gatewayNamespace).map
        Prod.snd := by
    intro name h
    obtain ⟨before, after, heq, -⟩ := List.lookup_eq_some_iff.mp h
    rw [heq]
    simp
  constructor
  · rintro ⟨name, resourceVersion, h⟩
    rw [tenantCluster_objects] at h
    obtain ⟨found, hfound, heq⟩ := Option.map_eq_some_iff.mp h
    obtain rfl : found = policy := by injection heq with _ hmanifest; injection hmanifest
    exact hnames name hfound
  · intro h
    obtain ⟨⟨name, found⟩, hmem, rfl⟩ := List.mem_map.mp h
    refine ⟨name, 1, ?_⟩
    rw [tenantCluster_objects]
    simp only [buildTenantNetworkPolicyManifests, List.mem_cons, List.not_mem_nil, or_false] at hmem
    rcases hmem with h | h | h <;> obtain ⟨rfl, rfl⟩ := Prod.mk.inj h <;> rfl

/-- The gateway reaches a public pod of the app `shop`. -/
theorem gateway_reaches_shop :
    (tenantCluster "gateway" "gateways" "rca-w-1").AcceptsIngress
      ⟨"rca-w-1", (deploymentManifest (shopDeployment "0a1b2c3d-1").input).podSelector.getD [] ++
        [("pod-template-hash", "5d8f7c")]⟩
      ⟨"gateways", [("gateway.networking.k8s.io/gateway-name", "gateway")]⟩ := by
  have hpod : MakesPod (deploymentManifest (shopDeployment "0a1b2c3d-1").input)
      ((deploymentManifest (shopDeployment "0a1b2c3d-1").input).podSelector.getD [] ++
        [("pod-template-hash", "5d8f7c")]) := MakesPod.deployment "5d8f7c" (by decide)
  exact (ingress_exactly_as_intended (tenantCluster_holds "gateway" "gateways" "rca-w-1")
    (shopDeployment "0a1b2c3d-1") hpod _).mpr (Or.inr ⟨rfl, rfl, rfl⟩)

end NexCause
