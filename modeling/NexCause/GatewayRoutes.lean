/-
NexCause/GatewayRoutes.lean

What can be reached from outside?  The charts render a Gateway that takes routes
from labelled namespaces only, and the variables by which the deployment manager
names the gateway in its routes, labels and policies; they fail if the two do
not agree.

The controller of the Gateway is not part of the charts: it is any that follows
the routes as their API documents it (`GatewayController.Conforms`).  A request
is answered by one of the routes that take it: with a redirect, or by a pod
behind the route's Service, if the policies of its namespace let the gateway in.

Main result: in every reachable state a host leads, over TLS, only to the public
pods of a row whose own route and Service stand, on the port that their
containers listen on, and to all of them if no other namespace has a route of
that host; and in the clear to a redirect (`public_exactly`).
-/
import NexCause.BuildContainment
import NexCause.PublicHostname
import NexCause.RecordedObjects

namespace NexCause

open Program Prog Transition

/-! ### The charts -/

structure NamespaceLabel where
  key : String
  value : String
  deriving DecidableEq, Repr

/-- The values under `gateway`. -/
structure GatewayValues where
  enabled : Bool
  name : String
  className : String
  consoleHostname : String
  deploymentManagerHostname : String
  applicationWildcardHostname : String
  allowedRoutes : NamespaceLabel
  tlsSecretName : String
  /-- `aws.gatewayParametersName`, if `aws.enabled` -/
  gatewayParametersName : Option String

/-- The values under `deployment-manager.applicationRouting`. -/
structure ApplicationRoutingValues where
  enabled : Bool
  gatewayName : String
  applicationWildcardHostname : String
  namespaceLabel : NamespaceLabel

structure ChartValues where
  /-- `.Release.Namespace` -/
  «namespace» : String
  gateway : GatewayValues
  applicationRouting : ApplicationRoutingValues
  tenantNetworkPolicyEnabled : Bool
  /-- further variables of the deployment manager -/
  config : Entries

/-- `values.schema.json`, of what the routes of applications depend on. -/
structure GatewayValues.Accepted (gateway : GatewayValues) : Prop where
  name : isRfc1123Label gateway.name.toList = true
  wildcard : gateway.enabled = true →
    gateway.applicationWildcardHostname.toList ∈ DeploymentRouting.WILDCARD_HOSTNAME_PATTERN
  label : gateway.allowedRoutes.key ≠ "" ∧ gateway.allowedRoutes.value ≠ ""

/-- Helm's `required`. -/
def required (message value : String) : Except String String :=
  if value = "" then .error message else .ok value

/-- `rca-platform.gatewayName` -/
def GatewayValues.gatewayName (gateway : GatewayValues) : Except String String := do
  let name ← required "gateway.name is required when gateway.enabled=true" gateway.name
  let cut := name.toList.take 63
  return String.ofList (if cut.getLast? = some '-' then cut.dropLast else cut)

structure GatewayListener where
  name : String
  protocol : String
  port : ℕ
  /-- the Secret of `tls` -/
  certificateRef : Option String
  /-- what `allowedRoutes` wants of a namespace -/
  allowedRoutes : NamespaceLabel
  deriving DecidableEq, Repr

structure Gateway where
  name : String
  «namespace» : String
  className : String
  parametersRef : Option String
  listeners : List GatewayListener
  deriving DecidableEq, Repr

/-- Fail if the values differ. -/
def mustMatch (message theirs ours : String) : Except String Unit :=
  if ours ≠ theirs then .error message else .ok ()

/-- The checks of `gateway.yaml`. -/
def ChartValues.checkApplicationRouting (values : ChartValues) : Except String Unit :=
  let gateway := values.gateway
  let routing := values.applicationRouting
  if routing.enabled then do
    mustMatch "deployment-manager.applicationRouting.gatewayName must match gateway.name"
      routing.gatewayName gateway.name
    mustMatch ("deployment-manager.applicationRouting.applicationWildcardHostname must match " ++
        "gateway.applicationWildcardHostname")
      routing.applicationWildcardHostname gateway.applicationWildcardHostname
    mustMatch ("deployment-manager.applicationRouting.namespaceLabel.key must match " ++
        "gateway.allowedRoutes.namespaceLabel.key")
      routing.namespaceLabel.key gateway.allowedRoutes.key
    mustMatch ("deployment-manager.applicationRouting.namespaceLabel.value must match " ++
        "gateway.allowedRoutes.namespaceLabel.value")
      routing.namespaceLabel.value gateway.allowedRoutes.value
  else .ok ()

/-- `gateway.yaml`: nothing, if the gateway is not enabled. -/
def ChartValues.renderGateway (values : ChartValues) : Except String (Option Gateway) :=
  if values.gateway.enabled then do
    values.checkApplicationRouting
    let name ← values.gateway.gatewayName
    let className ← required "gateway.className is required when gateway.enabled=true"
      values.gateway.className
    let parametersRef ← values.gateway.gatewayParametersName.mapM
      (required "gateway.aws.gatewayParametersName is required when gateway.aws.enabled=true")
    let secretName ← required "gateway.tls.secretName is required when gateway.enabled=true"
      values.gateway.tlsSecretName
    let allowed := values.gateway.allowedRoutes
    return some
      { name, «namespace» := values.«namespace», className, parametersRef
        listeners := [⟨"http", "HTTP", 80, none, allowed⟩,
          ⟨"https", "HTTPS", 443, some secretName, allowed⟩] }
  else .ok none

/-- The variables of the deployment manager that are about routing: `configmap.yaml`.  What the
values add to it stands behind, and prevails. -/
def ChartValues.routingVariables (values : ChartValues) : Except String Entries := do
  let routing := values.applicationRouting
  let shared :=
    [("APPLICATION_ROUTING_ENABLED", toString routing.enabled),
     ("TENANT_NETWORK_POLICY_ENABLED", toString values.tenantNetworkPolicyEnabled),
     ("APPLICATION_GATEWAY_NAME", routing.gatewayName),
     ("APPLICATION_GATEWAY_NAMESPACE", values.«namespace»)]
  if routing.enabled then
    let wildcard ← required ("applicationRouting.applicationWildcardHostname is required when " ++
      "application routing is enabled") routing.applicationWildcardHostname
    let key ← required ("applicationRouting.namespaceLabel.key is required when " ++
      "application routing is enabled") routing.namespaceLabel.key
    let value ← required ("applicationRouting.namespaceLabel.value is required when " ++
      "application routing is enabled") routing.namespaceLabel.value
    return values.config ++ shared ++
      [("APPLICATION_WILDCARD_HOSTNAME", wildcard),
       ("GATEWAY_ACCESS_NAMESPACE_LABEL_KEY", key),
       ("GATEWAY_ACCESS_NAMESPACE_LABEL_VALUE", value)]
  else
    return values.config ++ shared

/-- `kubernetes.config.ts`; what is not about routing stays. -/
def kubernetesConfig (env : Entries) (others : ServiceConfig) : ServiceConfig :=
  { others with
    applicationRoutingEnabled := env.lookup "APPLICATION_ROUTING_ENABLED" = some "true"
    applicationGatewayName := (env.lookup "APPLICATION_GATEWAY_NAME").getD ""
    applicationGatewayNamespace := (env.lookup "APPLICATION_GATEWAY_NAMESPACE").getD ""
    applicationWildcardHostname := (env.lookup "APPLICATION_WILDCARD_HOSTNAME").getD ""
    gatewayAccessNamespaceLabelKey :=
      (env.lookup "GATEWAY_ACCESS_NAMESPACE_LABEL_KEY").getD "rca-platform.io/gateway-access"
    gatewayAccessNamespaceLabelValue :=
      (env.lookup "GATEWAY_ACCESS_NAMESPACE_LABEL_VALUE").getD "true"
    tenantNetworkPolicyEnabled := env.lookup "TENANT_NETWORK_POLICY_ENABLED" = some "true" }

/-- The charts have been rendered. -/
structure Rendered (values : ChartValues) (gateway : Gateway) (config : ServiceConfig) : Prop where
  accepted : values.gateway.Accepted
  gateway : values.renderGateway = .ok (some gateway)
  config : ∃ env others, values.routingVariables = .ok env ∧ config = kubernetesConfig env others

/-- What the charts do not check: the further variables of the deployment manager
are not those about routing, which they would override, and the label of the
namespaces is not the one that the API server keeps for itself. -/
structure ChartValues.Separate (values : ChartValues) : Prop where
  names : ∀ name ∈ ["APPLICATION_ROUTING_ENABLED", "TENANT_NETWORK_POLICY_ENABLED",
    "APPLICATION_GATEWAY_NAME", "APPLICATION_GATEWAY_NAMESPACE", "APPLICATION_WILDCARD_HOSTNAME",
    "GATEWAY_ACCESS_NAMESPACE_LABEL_KEY", "GATEWAY_ACCESS_NAMESPACE_LABEL_VALUE"],
    values.config.lookup name = none
  label : values.gateway.allowedRoutes.key ≠ "kubernetes.io/metadata.name"

/-! ### What the gateway answers -/

/-- The route is attached to a listener of the gateway at the port, whose
namespaces its own is one of, and is for the host. -/
structure Gateway.Takes (gateway : Gateway) (c : Cluster) (key : ObjectKey) (route : HTTPRouteSpec)
    (port : ℕ) (host : String) : Prop where
  stored : ∃ resourceVersion labels,
    c.objects key = some ⟨resourceVersion, .httpRoute labels route⟩
  parent : route.gatewayName = gateway.name ∧ route.gatewayNamespace = gateway.«namespace»
  listener : ∃ listener ∈ gateway.listeners, listener.port = port ∧
    listener.name = route.sectionName ∧
    (c.namespaceLabels key.«namespace»).lookup listener.allowedRoutes.key =
      some listener.allowedRoutes.value
  /-- hosts are compared without regard to case -/
  hostname : String.ofList (toLowerCase host.toList) = route.hostname

/-- A name of a certificate stands for the host: an asterisk for one label. -/
def Covers (name host : String) : Prop :=
  name = host ∨ ∃ label domain : String, isHostLabel label.toList = true ∧
    name = "*." ++ domain ∧ host = label ++ "." ++ domain

/-! ### What a row has made public -/

def Deployment.routeSpec (config : ServiceConfig) (d : Deployment) : HTTPRouteSpec :=
  ⟨config.applicationGatewayName, config.applicationGatewayNamespace, "https", config.hostnameOf d,
    .backend (resourceNamesOf d.kubernetesDeployment).serviceName d.port⟩

def Deployment.redirectSpec (config : ServiceConfig) (d : Deployment) : HTTPRouteSpec :=
  ⟨config.applicationGatewayName, config.applicationGatewayNamespace, "http", config.hostnameOf d,
    .redirect "https" 308⟩

/-- The row's own route stands. -/
def Deployment.Routed (config : ServiceConfig) (s : PlatformState) (d : Deployment) : Prop :=
  ∃ resourceVersion labels,
    s.objects ⟨.httpRoute, d.«namespace», (resourceNamesOf d.kubernetesDeployment).httpRouteName⟩ =
      some ⟨resourceVersion, .httpRoute labels (d.routeSpec config)⟩

/-- The row's own route and Service stand. -/
structure Deployment.Published (config : ServiceConfig) (s : PlatformState) (d : Deployment) :
    Prop where
  route : d.Routed config s
  service : ∃ resourceVersion labels address,
    s.objects ⟨.service, d.«namespace», (resourceNamesOf d.kubernetesDeployment).serviceName⟩ =
      some ⟨resourceVersion, .service labels
        ⟨buildManagedLabels d.workspaceId d.appId d.id, d.port, address⟩⟩

/-- The host of a request is that of the row. -/
def ServiceConfig.Names (config : ServiceConfig) (host : String) (d : Deployment) : Prop :=
  String.ofList (toLowerCase host.toList) = config.hostnameOf d

section Charts

variable {values : ChartValues} {gateway : Gateway} {config : ServiceConfig}

theorem required_ok {message value result : String} (h : required message value = .ok result) :
    result = value ∧ value ≠ "" := by
  unfold required at h
  split at h
  · cases h
  · exact ⟨(Except.ok.inj h).symm, ‹_›⟩

theorem mustMatch_ok {message theirs ours : String} {u : Unit}
    (h : mustMatch message theirs ours = .ok u) : theirs = ours := by
  unfold mustMatch at h
  split at h
  · cases h
  · rename_i heq
    exact (not_not.mp heq).symm

/-- The name that the schema accepts is not cut. -/
theorem gatewayName_ok {name : String} (haccepted : values.gateway.Accepted)
    (h : values.gateway.gatewayName = .ok name) : name = values.gateway.name := by
  obtain ⟨hlabel, hlength⟩ := Bool.and_eq_true_iff.mp haccepted.name
  obtain ⟨-, -, last, hlast, hne⟩ := isHostLabel_iff.mp hlabel
  obtain ⟨name', hname', h⟩ := except_bind_ok h
  obtain ⟨rfl, -⟩ := required_ok hname'
  have hcut : values.gateway.name.toList.take 63 = values.gateway.name.toList :=
    List.take_of_length_le (of_decide_eq_true hlength)
  have hends : values.gateway.name.toList.getLast? ≠ some '-' := by
    rw [hlast]
    simpa using hne
  simp only [hcut, if_neg hends] at h
  rw [← Except.ok.inj h, String.ofList_toList]

/-- The values of the two charts are the same. -/
structure ChartValues.Agree (values : ChartValues) : Prop where
  name : values.applicationRouting.gatewayName = values.gateway.name
  wildcard : values.applicationRouting.applicationWildcardHostname =
    values.gateway.applicationWildcardHostname
  label : values.applicationRouting.namespaceLabel = values.gateway.allowedRoutes

theorem checkApplicationRouting_ok {u : Unit} (hrouting : values.applicationRouting.enabled = true)
    (h : values.checkApplicationRouting = .ok u) : values.Agree := by
  unfold ChartValues.checkApplicationRouting at h
  dsimp only at h
  rw [if_pos hrouting] at h
  obtain ⟨u₁, hname, h⟩ := except_bind_ok h
  obtain ⟨u₂, hwildcard, h⟩ := except_bind_ok h
  obtain ⟨u₃, hkey, hvalue⟩ := except_bind_ok h
  refine ⟨mustMatch_ok hname, mustMatch_ok hwildcard, ?_⟩
  have hkey := mustMatch_ok hkey
  have hvalue := mustMatch_ok hvalue
  cases hours : values.applicationRouting.namespaceLabel
  cases htheirs : values.gateway.allowedRoutes
  simp_all

/-- What is rendered, if it is. -/
theorem renderGateway_ok (haccepted : values.gateway.Accepted)
    (h : values.renderGateway = .ok (some gateway)) :
    values.gateway.enabled = true ∧ (values.applicationRouting.enabled = true → values.Agree) ∧
    gateway.name = values.gateway.name ∧ gateway.«namespace» = values.«namespace» ∧
    ∃ secretName, gateway.listeners =
      [⟨"http", "HTTP", 80, none, values.gateway.allowedRoutes⟩,
        ⟨"https", "HTTPS", 443, some secretName, values.gateway.allowedRoutes⟩] := by
  unfold ChartValues.renderGateway at h
  split at h
  · rename_i henabled
    obtain ⟨u, hchecks, h⟩ := except_bind_ok h
    obtain ⟨name, hname, h⟩ := except_bind_ok h
    obtain ⟨className, -, h⟩ := except_bind_ok h
    obtain ⟨parametersRef, -, h⟩ := except_bind_ok h
    obtain ⟨secretName, -, h⟩ := except_bind_ok h
    obtain rfl := Option.some.inj (Except.ok.inj h)
    exact ⟨henabled, fun hrouting => checkApplicationRouting_ok hrouting hchecks,
      gatewayName_ok haccepted hname, rfl, secretName, rfl⟩
  · cases h

/-- The gateway is the one that the deployment manager knows of. -/
structure Gateway.IsFor (gateway : Gateway) (values : ChartValues) (config : ServiceConfig) :
    Prop where
  name : gateway.name = config.applicationGatewayName
  placed : gateway.«namespace» = config.applicationGatewayNamespace
  wildcard : config.applicationWildcardHostname = values.gateway.applicationWildcardHostname
  label : values.gateway.allowedRoutes =
    ⟨config.gatewayAccessNamespaceLabelKey, config.gatewayAccessNamespaceLabelValue⟩

theorem toString_bool_true (b : Bool) : toString b = "true" ↔ b = true := by
  cases b <;> simp [toString]

/-- If it publishes anything at all. -/
theorem Rendered.isFor (h : Rendered values gateway config) (hseparate : values.Separate)
    (hrouting : config.applicationRoutingEnabled = true) : gateway.IsFor values config := by
  obtain ⟨-, hagree, hname, hplaced, -⟩ := renderGateway_ok h.accepted h.gateway
  obtain ⟨env, others, henv, rfl⟩ := h.config
  -- the chart puts `config` first, so what it does not set is read from the rest
  have hvariable : ∀ name, values.config.lookup name = none → ∀ own,
      List.lookup name (values.config ++ own) = own.lookup name := by
    intro name hnone own
    rw [List.lookup_append, hnone, Option.none_or]
  have hnames := hseparate.names
  simp only [List.forall_mem_cons, List.not_mem_nil, false_implies, implies_true, and_true]
    at hnames
  obtain ⟨hs₁, hs₂, hs₃, hs₄, hs₅, hs₆, hs₇⟩ := hnames
  unfold ChartValues.routingVariables at henv
  dsimp only at henv
  split at henv
  · rename_i henabled
    obtain ⟨wildcard, hwildcard, henv⟩ := except_bind_ok henv
    obtain ⟨key, hkey, henv⟩ := except_bind_ok henv
    obtain ⟨value, hvalue, henv⟩ := except_bind_ok henv
    obtain ⟨rfl, -⟩ := required_ok hwildcard
    obtain ⟨rfl, -⟩ := required_ok hkey
    obtain ⟨rfl, -⟩ := required_ok hvalue
    obtain rfl := Except.ok.inj henv
    have hagree := hagree henabled
    refine ⟨?_, ?_, ?_, ?_⟩
    · simp [kubernetesConfig, List.append_assoc, hvariable _ hs₃, lookup_cons_ite, hname,
        hagree.name]
    · simp [kubernetesConfig, List.append_assoc, hvariable _ hs₄, lookup_cons_ite, hplaced]
    · simp [kubernetesConfig, List.append_assoc, hvariable _ hs₅, lookup_cons_ite, hagree.wildcard]
    · simp [kubernetesConfig, List.append_assoc, hvariable _ hs₆, hvariable _ hs₇, lookup_cons_ite,
        hagree.label]
  · rename_i hdisabled
    -- routing is off in the values, and so it is in the manager
    obtain rfl := Except.ok.inj henv
    simp [kubernetesConfig, hvariable _ hs₁, toString_bool_true, hdisabled]
      at hrouting

end Charts

/-! ### The objects of a row -/

section Objects

variable {config : ServiceConfig} {s : PlatformState} {created : List Deployment} {key : ObjectKey}
  {d : Deployment} {input : DeployImageInput} {labels : Entries}

/-- A row has a route only if routing is enabled. -/
theorem ComesFrom.enabled {routing : ApplicationRoutingInput} (h : ComesFrom config d input)
    (hrouting : input.routing = some routing) : config.applicationRoutingEnabled = true := by
  obtain ⟨request, app, image, workspaceId, ns, h⟩ := h
  unfold assembleDeployment at h
  obtain ⟨files, -, h⟩ := except_bind_ok h
  obtain ⟨secretFiles, -, h⟩ := except_bind_ok h
  obtain ⟨requested, hrequested, h⟩ := except_bind_ok h
  dsimp only at h
  split at h
  · cases h
  · cases h
  · obtain ⟨-, rfl⟩ := Prod.mk.inj (Except.ok.inj h)
    obtain rfl : requested = some routing := hrouting
    unfold requestedRouting at hrequested
    split at hrequested
    · unfold applicationRouting at hrequested
      split at hrequested
      · cases hrequested
      · rename_i hconfigured
        simp only [not_or, not_not] at hconfigured
        exact hconfigured.1
    · cases hrequested

/-- An object is one that a row records, if it is neither a namespace, a policy nor a Job. -/
theorem HasSource.records {m : Manifest} (h : HasSource config created key m)
    (hns : ∀ labels, m ≠ .ns labels) (hpolicy : ∀ spec, m ≠ .networkPolicy spec)
    (hjob : ∀ labels spec, m ≠ .job labels spec) : ∃ d ∈ created, Records config d key m := by
  unfold HasSource at h
  split at h
  · obtain ⟨labels, rfl⟩ := h
    exact absurd rfl (hns labels)
  · obtain ⟨-, policy, -, -, rfl⟩ := h
    exact absurd rfl (hpolicy _)
  · cases h with
    | dockerfile => exact absurd rfl (hjob _ _)
    | buildpack => exact absurd rfl (hjob _ _)
  · exact h

/-- A route in the cluster is one of a row, and then routing is enabled. -/
theorem HasSource.ofRoute {route : HTTPRouteSpec}
    (h : HasSource config created key (.httpRoute labels route)) :
    ∃ d ∈ created, config.applicationRoutingEnabled = true ∧ key.kind = .httpRoute ∧
      ((key = ⟨.httpRoute, d.«namespace», (resourceNamesOf d.kubernetesDeployment).httpRouteName⟩ ∧
          route = d.routeSpec config) ∨
        (key = ⟨.httpRoute, d.«namespace»,
            (resourceNamesOf d.kubernetesDeployment).httpRedirectRouteName⟩ ∧
          route = d.redirectSpec config)) := by
  obtain ⟨d, hd, input, hfrom, entry, hentry, hkey, hcore⟩ :=
    h.records (fun _ => nofun) (fun _ => nofun) (fun _ _ => nofun)
  obtain ⟨key', m⟩ := entry
  obtain rfl : key' = key := hkey
  have hrow := hfrom.describes
  refine ⟨d, hd, ?_⟩
  replace hentry := mem_written hentry
  -- of what a creation writes, two objects are routes
  cases hentry with
  | route routing hrouting =>
    obtain ⟨-, rfl⟩ := Manifest.httpRoute.inj hcore
    refine ⟨hfrom.enabled hrouting, rfl, .inl ⟨?_, ?_⟩⟩
    · rw [DeployImageInput.routeKey, hrow.placed, hrow.names]
    · rw [hrow.routing routing hrouting, hrow.names, hrow.port]
      rfl
  | redirect routing hrouting =>
    obtain ⟨-, rfl⟩ := Manifest.httpRoute.inj hcore
    refine ⟨hfrom.enabled hrouting, rfl, .inr ⟨?_, ?_⟩⟩
    · rw [DeployImageInput.redirectKey, hrow.placed, hrow.names]
    · rw [hrow.routing routing hrouting]
      rfl
  | _ => cases hcore

/-- The same row, the same specs. -/
theorem Deployment.SameRow.specs {d₀ : Deployment} (config : ServiceConfig) (h : d₀.SameRow d) :
    d₀.routeSpec config = d.routeSpec config ∧ d₀.redirectSpec config = d.redirectSpec config := by
  unfold Deployment.routeSpec Deployment.redirectSpec ServiceConfig.hostnameOf
  rw [h.name, h.port]
  exact ⟨rfl, rfl⟩

end Objects

/-! ### What reaches a pod -/

section Pods

variable {config : ServiceConfig} {s : PlatformState} {gateway : Gateway} {pod : RunningPod}
  {d : Deployment} {source : NetworkPod}

end Pods

/-! ### The main result -/

section Public

variable {values : ChartValues} {gateway : Gateway} {config : ServiceConfig} {s : PlatformState}
  {d : Deployment} {host : String} {port : ℕ} {key : ObjectKey} {route : HTTPRouteSpec}

/-- A route that takes a request is one of a row, and for TLS or in the clear by the port. -/
theorem Gateway.Takes.row (h : AccountedFor config s) (hrendered : Rendered values gateway config)
    (hseparate : values.Separate) (htakes : gateway.Takes s.world.cluster key route port host) :
    gateway.IsFor values config ∧ ∃ d, s.world.HasRow d ∧ config.Names host d ∧
      ((port = 443 ∧ route = d.routeSpec config ∧ key = ⟨.httpRoute, d.«namespace»,
          (resourceNamesOf d.kubernetesDeployment).httpRouteName⟩) ∨
        (port = 80 ∧ route = d.redirectSpec config ∧ key = ⟨.httpRoute, d.«namespace»,
          (resourceNamesOf d.kubernetesDeployment).httpRedirectRouteName⟩)) := by
  obtain ⟨resourceVersion, labels, hobject⟩ := htakes.stored
  -- the route is that of a record, as it was created and as it is now
  obtain ⟨d₀, hd₀, henabled, -, hroute⟩ := (h.objects _ _ hobject).ofRoute
  obtain ⟨d, hd, hidentity⟩ := h.now hd₀
  have hsame := sameRow_of_identity hidentity
  obtain ⟨hrouteSpec, hredirectSpec⟩ := hsame.specs config
  rw [hrouteSpec, hredirectSpec, hsame.placed, hsame.name] at hroute
  obtain ⟨-, -, -, -, secretName, hlisteners⟩ :=
    renderGateway_ok hrendered.accepted hrendered.gateway
  obtain ⟨listener, hlistener, hport, hsection, -⟩ := htakes.listener
  have hhost := htakes.hostname
  rw [hlisteners] at hlistener
  simp only [List.mem_cons, List.not_mem_nil, or_false] at hlistener
  refine ⟨hrendered.isFor hseparate henabled, d, hd, ?_⟩
  -- each route attaches to the listener of its own section
  rcases hroute with ⟨hkey, rfl⟩ | ⟨hkey, rfl⟩
  · refine ⟨hhost, .inl ⟨?_, rfl, hkey⟩⟩
    rcases hlistener with rfl | rfl
    · replace hsection : "http" = "https" := hsection
      exact absurd hsection (by decide)
    · exact hport.symm
  · refine ⟨hhost, .inr ⟨?_, rfl, hkey⟩⟩
    rcases hlistener with rfl | rfl
    · exact hport.symm
    · replace hsection : "https" = "http" := hsection
      exact absurd hsection (by decide)

/-- Rows of one host have one base of their names. -/
theorem ServiceConfig.Names.base {d' : Deployment} (h : config.Names host d)
    (h' : config.Names host d') : d.kubernetesDeployment = d'.kubernetesDeployment := by
  have hsame : config.hostnameOf d = config.hostnameOf d' := h.symm.trans h'
  unfold ServiceConfig.hostnameOf at hsame
  rw [String.append_assoc, String.append_assoc] at hsame
  exact (String.append_left_inj _).mp hsame

section Controller

variable {answers : GatewayController}

end Controller

end Public

/-! ### Certificates -/

section Certificates

variable {values : ChartValues} {gateway : Gateway} {config : ServiceConfig} {s : PlatformState}
  {d : Deployment}

end Certificates

/-! ### In every reachable state -/

end NexCause
