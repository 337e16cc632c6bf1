/-
NexCause/KubernetesService.lean

`KubernetesService` of the deployment manager (`kubernetes.service.ts` and its
manifest builders): the names of a deployment's objects, and the programs that
create, update and delete them.

The upserts of the source differ in their object and manifest only: `upsert`
is their common body, and each keeps its own definition as an instance of it.
-/
import NexCause.Platform

namespace NexCause

open Program

/-- What `ConfigService` returns, with the defaults of the source. -/
structure ServiceConfig where
  tenantNetworkPolicyEnabled : Bool
  applicationRoutingEnabled : Bool
  applicationGatewayName : String
  applicationGatewayNamespace : String
  applicationWildcardHostname : String
  gatewayAccessNamespaceLabelKey : String
  gatewayAccessNamespaceLabelValue : String
  observabilityEnabled : Bool
  otelExporterOtlpEndpoint : String
  otelExporterOtlpProtocol : String
  deriving DecidableEq, Repr

/-! ### Names -/

/-- `[a-z0-9-]` -/
def isDnsChar (c : Char) : Bool := c.isLower || c.isDigit || c = '-'

/-- Replace every run of dashes by one. -/
def collapseDashes : List Char → List Char
  | [] => []
  | [c] => [c]
  | c :: d :: s => if c = '-' ∧ d = '-' then collapseDashes (d :: s) else c :: collapseDashes (d :: s)

/-- Drop the dashes at both ends. -/
def trimDashes (s : List Char) : List Char :=
  ((s.dropWhile (· = '-')).reverse.dropWhile (· = '-')).reverse

/-- Lower case, with dashes for what a name cannot hold, cut to 45 characters. -/
def toDnsSafeName (value : String) : List Char :=
  (collapseDashes (trimDashes
    ((toLowerCase value.toList).map fun c => if isDnsChar c then c else '-'))).take 45

/-- The names of the objects of a deployment. -/
structure KubernetesResourceNames where
  deploymentName : String
  serviceName : String
  configMapName : String
  fileConfigMapName : Option String
  secretName : Option String
  secretFileSecretName : Option String
  httpRouteName : String
  httpRedirectRouteName : String
  deriving DecidableEq, Repr

/-- The segment of a name that comes from the app, and the one from the id. -/
def baseName (appName deploymentId : String) : String :=
  let appSegment := (toDnsSafeName appName).take 32
  let deploymentSegment := toLowerCase (deploymentId.toList.take 8)
  String.ofList ((if appSegment = [] then "app".toList else appSegment) ++ '-' :: deploymentSegment)

/-- The names built on a base. -/
def resourceNamesOf (base : String) : KubernetesResourceNames where
  deploymentName := base
  serviceName := base ++ "-svc"
  configMapName := base ++ "-env"
  fileConfigMapName := some (base ++ "-files")
  secretName := some (base ++ "-secret")
  secretFileSecretName := some (base ++ "-secret-files")
  httpRouteName := base ++ "-route"
  httpRedirectRouteName := base ++ "-redirect"

def buildResourceNames (appName deploymentId : String) : KubernetesResourceNames :=
  resourceNamesOf (baseName appName deploymentId)

/-- What is written on every object of a deployment. -/
def buildManagedLabels (workspaceId appId deploymentId : String) : Entries :=
  [("app.kubernetes.io/managed-by", "deployment-manager-service"),
   ("rca-platform/workspace-id", workspaceId),
   ("rca-platform/app-id", appId),
   ("rca-platform/deployment-id", deploymentId)]

/-! ### Inputs -/

/-- The contents of some files under made up keys, and the path of each key. -/
structure FileConfigMap where
  data : Entries
  items : List FileItem
  deriving DecidableEq, Repr

/-- The public hostname, and the gateway that is to serve it. -/
structure ApplicationRoutingInput where
  hostname : String
  gatewayName : String
  gatewayNamespace : String
  namespaceLabelKey : String
  namespaceLabelValue : String
  deriving DecidableEq, Repr

/-- What `deployImage` is given. -/
structure DeployImageInput where
  «namespace» : String
  names : KubernetesResourceNames
  image : String
  port : ℕ
  replicas : ℕ
  env : Entries
  secrets : Entries
  files : FileConfigMap
  secretFiles : FileConfigMap
  labels : Entries
  routing : Option ApplicationRoutingInput
  deriving DecidableEq, Repr

/-! ### Builders -/

/-- The label that the policy of the gateway asks for. -/
def PUBLIC_APPLICATION_LABEL : String := "rca-platform.io/public"

def buildApplicationPodLabels (labels : Entries) (publiclyExposed : Bool) : Entries :=
  if publiclyExposed then Entries.set labels PUBLIC_APPLICATION_LABEL "true" else labels

/-- The three policies, with their names. -/
def buildTenantNetworkPolicyManifests (gatewayName gatewayNamespace : String) :
    List (String × NetworkPolicySpec) :=
  [("default-deny-ingress", ⟨[], []⟩),
   ("allow-same-namespace", ⟨[], [[⟨none, []⟩]]⟩),
   ("allow-shared-gateway",
     ⟨[(PUBLIC_APPLICATION_LABEL, "true")],
      [[⟨some [("kubernetes.io/metadata.name", gatewayNamespace)],
         [("gateway.networking.k8s.io/gateway-name", gatewayName)]⟩]]⟩)]

/-- A volume of files, and where it is mounted. -/
structure FileVolumeInput where
  name : String
  mountPath : String
  items : List FileItem
  deriving DecidableEq, Repr

structure BuildDeploymentManifestInput where
  image : String
  port : ℕ
  replicas : ℕ
  labels : Entries
  configMapName : Option String
  secretName : Option String
  configFileConfigMapName : Option String
  secretFileSecretName : Option String
  configFileVolume : Option FileVolumeInput
  secretFileVolume : Option FileVolumeInput
  deriving DecidableEq, Repr

/-- The containers take their environment from the ConfigMap and the Secret by name. -/
def buildDeploymentManifest (i : BuildDeploymentManifestInput) : Manifest :=
  let configMapRefs := (truthy i.configMapName).toList.map EnvFromSource.configMapRef
  -- an empty name is no name
  let secretRefs := (truthy i.secretName).toList.map EnvFromSource.secretRef
  let configFiles :=
    match i.configFileVolume, truthy i.configFileConfigMapName with
    | some v, some name => [(v, VolumeSource.configMap name v.items)]
    | _, _ => []
  let secretFiles :=
    match i.secretFileVolume, truthy i.secretFileSecretName with
    | some v, some name => [(v, VolumeSource.secret name v.items)]
    | _, _ => []
  .deployment i.labels
    { replicas := i.replicas
      matchLabels := i.labels
      templateLabels := i.labels
      restartedAt := none
      image := i.image
      containerPort := i.port
      envFrom := configMapRefs ++ secretRefs
      volumes := (configFiles ++ secretFiles).map fun v => ⟨v.1.name, v.2⟩
      volumeMounts := (configFiles ++ secretFiles).map fun v => ⟨v.1.name, v.1.mountPath⟩ }

/-- The Service selects the pods by all of their labels. -/
def buildServiceManifest (labels : Entries) (port : ℕ) (address : ServiceAddress) : Manifest :=
  .service labels ⟨labels, port, address⟩

/-- The route of the hostname on the https listener. -/
def buildApplicationRouteManifest (input : DeployImageInput) (routing : ApplicationRoutingInput) :
    Manifest :=
  .httpRoute input.labels
    ⟨routing.gatewayName, routing.gatewayNamespace, "https", routing.hostname,
     .backend input.names.serviceName input.port⟩

/-- The route of the hostname on the http listener, which redirects. -/
def buildApplicationRedirectRouteManifest (input : DeployImageInput)
    (routing : ApplicationRoutingInput) : Manifest :=
  .httpRoute input.labels
    ⟨routing.gatewayName, routing.gatewayNamespace, "http", routing.hostname, .redirect "https" 308⟩

/-! ### The common bodies -/

/-- Continue only when the error is a 404. -/
def onNotFound {α : Type} (p : Action α) (error : ApiError) : Action α :=
  if error.isKubernetesNotFound then p else .throw error

/-- Read the object; replace it under the resource version just read, or create
it when either call says that it is not there.  The resource version is written
into the manifest before the replacement, so a creation after a replacement
still carries it. -/
def upsert (key : ObjectKey) (fresh : Manifest) (replacing : Object → Manifest) : Action Unit := do
  let existing ← ((readObject key >>= fun body => pure (some body.object)) : Action _).tryCatch
    (onNotFound (pure none))
  match existing with
  | none => createObject key none fresh
  | some object =>
      -- the object may have gone since it was read
      (replaceObject key object.resourceVersion (replacing object)).tryCatch
        (onNotFound (createObject key (some object.resourceVersion) (replacing object)))

/-- `deleteIfExists` -/
def deleteIfExists (key : ObjectKey) : Action Unit :=
  (deleteObject key).tryCatch (onNotFound (pure ()))

/-- An optional object: without content it is deleted, with content upserted.
`missingName` is the error when there is content but no name. -/
def upsertOptional (kind : Kind) («namespace» : String) (name : Option String) (isEmpty : Bool)
    (m : Manifest) (missingName : String) : Action Unit :=
  if isEmpty then
    match truthy name with
    | some name => deleteIfExists ⟨kind, «namespace», name⟩
    | none => pure ()
  else
    match truthy name with
    | some name => upsert ⟨kind, «namespace», name⟩ m fun _ => m
    | none => .throw (.error missingName)

/-! ### Namespace and policies -/

/-- The `message` of an error. -/
def ApiError.message : ApiError → String
  | .kubernetes _ m => m
  | .database m => m
  | .badRequest m => m
  | .unauthorized m => m
  | .forbidden m => m
  | .notFound m => m
  | .serviceUnavailable m => m
  | .error m => m

def upsertNetworkPolicy («namespace» : String) (policy : String × NetworkPolicySpec) :
    Action Unit :=
  upsert ⟨.networkPolicy, «namespace», policy.1⟩ (.networkPolicy policy.2)
    fun _ => .networkPolicy policy.2

/-- Write the three policies again; an error names the namespace. -/
def reconcileTenantNetworkPolicies (config : ServiceConfig) («namespace» : String) :
    Action Unit :=
  if config.applicationGatewayName = "" ∨ config.applicationGatewayNamespace = "" then
    .throw (.error "Tenant NetworkPolicy requires an application Gateway name and namespace")
  else
    ((buildTenantNetworkPolicyManifests config.applicationGatewayName
      config.applicationGatewayNamespace).forM (upsertNetworkPolicy «namespace»)).tryCatch
      fun error => .throw (.error ("Failed to reconcile tenant NetworkPolicies in namespace "
        ++ «namespace» ++ ": " ++ error.message))

/-- The labels `ensureNamespace` takes over. -/
def namespaceLabels (labels : Entries) : Entries :=
  ["app.kubernetes.io/managed-by", "rca-platform/workspace-id"].filterMap fun k =>
    (labels.lookup k).map fun v => (k, v)

/-- Create the namespace if it is missing; its policies are written each time. -/
def ensureNamespace (config : ServiceConfig) («namespace» : String) (labels : Entries) :
    Action Unit := do
  let key : ObjectKey := ⟨.ns, "", «namespace»⟩
  ((readObject key >>= fun _ => pure ()) : Action Unit).tryCatch
    (onNotFound (createObject key none (.ns (namespaceLabels labels))))
  if config.tenantNetworkPolicyEnabled then
    reconcileTenantNetworkPolicies config «namespace»

/-! ### The objects of a deployment -/

def upsertConfigMap (input : DeployImageInput) : Action Unit :=
  upsert ⟨.configMap, input.«namespace», input.names.configMapName⟩
    (.configMap input.labels input.env) fun _ => .configMap input.labels input.env

def upsertFileConfigMap (input : DeployImageInput) : Action Unit :=
  upsertOptional .configMap input.«namespace» input.names.fileConfigMapName
    (input.files.items.length = 0) (.configMap input.labels input.files.data)
    "File config was provided without a Kubernetes ConfigMap name"

def upsertSecret (input : DeployImageInput) : Action Unit :=
  upsertOptional .secret input.«namespace» input.names.secretName
    (input.secrets.length = 0) (.secret input.labels input.secrets)
    "Secret data was provided without a Kubernetes Secret name"

def upsertSecretFiles (input : DeployImageInput) : Action Unit :=
  upsertOptional .secret input.«namespace» input.names.secretFileSecretName
    (input.secretFiles.items.length = 0) (.secret input.labels input.secretFiles.data)
    "Secret files were provided without a Kubernetes Secret name"

/-- The manifest of `upsertDeployment`. -/
def deploymentManifest (input : DeployImageInput) : Manifest :=
  buildDeploymentManifest
    { image := input.image
      port := input.port
      replicas := input.replicas
      labels := buildApplicationPodLabels input.labels input.routing.isSome
      configMapName := some input.names.configMapName
      secretName := if input.secrets.length > 0 then input.names.secretName else none
      configFileConfigMapName :=
        if input.files.items.length > 0 then input.names.fileConfigMapName else none
      secretFileSecretName :=
        if input.secretFiles.items.length > 0 then input.names.secretFileSecretName else none
      configFileVolume :=
        if input.files.items.length > 0 then
          some ⟨"config-files", "/app/config", input.files.items⟩
        else none
      secretFileVolume :=
        if input.secretFiles.items.length > 0 then
          some ⟨"secret-files", "/app/secrets", input.secretFiles.items⟩
        else none }

def upsertDeployment (input : DeployImageInput) : Action Unit :=
  upsert ⟨.deployment, input.«namespace», input.names.deploymentName⟩
    (deploymentManifest input) fun _ => deploymentManifest input

/-- The address fields of an existing Service. -/
def Object.serviceAddress (o : Object) : ServiceAddress :=
  match o.manifest with
  | .service _ spec => spec.address
  | _ => ⟨none, none, none, none⟩

/-- An existing Service keeps its address. -/
def upsertService (input : DeployImageInput) : Action Unit :=
  upsert ⟨.service, input.«namespace», input.names.serviceName⟩
    (buildServiceManifest input.labels input.port ⟨none, none, none, none⟩)
    fun existing => buildServiceManifest input.labels input.port existing.serviceAddress

/-! ### Routes -/

def createHttpRoute («namespace» name : String) (route : Manifest) : Action Unit :=
  createObject ⟨.httpRoute, «namespace», name⟩ none route

def deleteHttpRoute («namespace» name : String) : Action Unit :=
  deleteIfExists ⟨.httpRoute, «namespace», name⟩

/-- Let the namespace in at the gateway and create both routes, or neither. -/
def enableApplicationRouting (input : DeployImageInput) : Action Unit :=
  match input.routing with
  | none => pure ()
  | some routing => do
      patchObject ⟨.ns, "", input.«namespace»⟩
        (.label routing.namespaceLabelKey routing.namespaceLabelValue)
      (do
        createHttpRoute input.«namespace» input.names.httpRouteName
          (buildApplicationRouteManifest input routing)
        createHttpRoute input.«namespace» input.names.httpRedirectRouteName
          (buildApplicationRedirectRouteManifest input routing) : Action Unit).tryCatch
        -- what has been created is deleted again, and the error goes on
        fun error => do
          deleteHttpRoute input.«namespace» input.names.httpRedirectRouteName
          deleteHttpRoute input.«namespace» input.names.httpRouteName
          .throw error

/-! ### The operations of the service -/

/-- The namespace and its policies come first, and the routes last. -/
def deployImage (config : ServiceConfig) (input : DeployImageInput) : Action Unit := do
  ensureNamespace config input.«namespace» input.labels
  upsertConfigMap input
  upsertFileConfigMap input
  upsertSecret input
  upsertSecretFiles input
  upsertDeployment input
  upsertService input
  if input.routing.isSome then
    enableApplicationRouting input

/-- What `getDeploymentStatus` returns. -/
structure LiveStatus where
  desiredReplicas : ℕ
  readyReplicas : ℕ
  availableReplicas : ℕ
  updatedReplicas : ℕ
  unavailableReplicas : ℕ
  conditions : Entries
  deriving DecidableEq, Repr

/-- A Deployment without a size counts as one of size 0. -/
def getDeploymentStatus («namespace» deploymentName : String) : Action LiveStatus := do
  let body ← readObject ⟨.deployment, «namespace», deploymentName⟩
  return {
    desiredReplicas := body.object.specReplicas.getD 0
    readyReplicas := body.status.readyReplicas
    availableReplicas := body.status.availableReplicas
    updatedReplicas := body.status.updatedReplicas
    unavailableReplicas := body.status.unavailableReplicas
    conditions := body.status.conditions }

def scaleDeployment («namespace» deploymentName : String) (replicas : ℕ) : Action Unit :=
  patchObject ⟨.deployment, «namespace», deploymentName⟩ (.replicas replicas)

/-- `restartDeployment`, at the instant `restartedAt`. -/
def restartDeployment («namespace» deploymentName : String) (restartedAt : ℕ) : Action ℕ := do
  patchObject ⟨.deployment, «namespace», deploymentName⟩ (.restartedAt restartedAt)
  return restartedAt

/-- Delete an object whose name may be absent. -/
def deleteOptional (kind : Kind) («namespace» : String) (name : Option String) : Action Unit :=
  match truthy name with
  | some name => deleteIfExists ⟨kind, «namespace», name⟩
  | none => pure ()

/-- Delete what there may be of a deployment, one object after the other. -/
def deleteDeploymentResources («namespace» : String) (names : KubernetesResourceNames)
    (deleteRoutes : Bool) : Action Unit := do
  if deleteRoutes then
    deleteHttpRoute «namespace» names.httpRedirectRouteName
    deleteHttpRoute «namespace» names.httpRouteName
  deleteIfExists ⟨.deployment, «namespace», names.deploymentName⟩
  deleteIfExists ⟨.service, «namespace», names.serviceName⟩
  deleteIfExists ⟨.configMap, «namespace», names.configMapName⟩
  deleteOptional .configMap «namespace» names.fileConfigMapName
  deleteOptional .secret «namespace» names.secretName
  deleteOptional .secret «namespace» names.secretFileSecretName

end NexCause
