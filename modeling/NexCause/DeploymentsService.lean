/-
NexCause/DeploymentsService.lean

`DeploymentsService` of the deployment manager (`deployments.service.ts` and
`deployment-routing.ts`): the programs behind the requests on a deployment.

Each operation is read the record, call the cluster, update the record by id.
What the environment chooses in a request (the generated id, the clock) is an
argument of the program.
-/
import Mathlib.Data.List.Infix
import NexCause.KubernetesService

namespace NexCause

open Program

/-! ### Requests -/

/-- `CreateDeploymentDto`. -/
structure CreateDeploymentDto where
  image : Option String
  buildId : Option String
  port : Option ℕ
  replicas : Option ℕ
  expose : Option Bool
  env : Option Entries
  secrets : Option Entries
  files : Option Entries
  secretFiles : Option Entries
  deriving DecidableEq, Repr

/-- A request to create a deployment: its tenant context, its path and body,
and the id that `randomUUID` returns for it. -/
structure CreateRequest where
  workspaceId : Option String
  scopes : List String
  appId : String
  deploymentId : String
  dto : CreateDeploymentDto
  deriving DecidableEq, Repr

/-! ### Files and records -/

def validateRelativeFilePath (path : String) : Except ApiError Unit :=
  if path.toList.head? = some '/' ∨ ['.', '.'] <:+: path.toList then
    .error (.badRequest "File config paths must be relative and cannot contain ..")
  else if trim path.toList = [] then
    .error (.badRequest "File config paths cannot be empty")
  else .ok ()

/-- `normalizeFileConfig`: the entries as given, and as a ConfigMap or Secret
with one numbered key for each path. -/
def normalizeFileConfig (files : Entries) : Except ApiError (Entries × FileConfigMap) := do
  files.forM fun file => validateRelativeFilePath file.1
  let numbered := files.zipIdx.map fun (file, index) => (file, "file-" ++ toString index)
  return (files,
    { data := numbered.map fun (file, key) => (key, file.2)
      items := numbered.map fun (file, key) => ⟨key, file.1⟩ })

def buildRuntimeConfigRecords (env secrets files secretFiles : Entries) : List RuntimeConfig :=
  (if env.length > 0 then [⟨.env, .values env⟩] else []) ++
  (if secrets.length > 0 ∨ secretFiles.length > 0 then
    [⟨.secret, .secretKeys secrets.keys secretFiles.keys⟩] else []) ++
  (if files.length > 0 then [⟨.file, .values files⟩] else [])

/-- `redactSecretRuntimeConfig`: the names, never the values. -/
def redactSecretRuntimeConfig : RuntimeConfigData → RuntimeConfigData
  | .values _ => .secretKeys [] []
  | .secretKeys envKeys filePaths => .secretKeys envKeys filePaths
  | .legacySecret env files => .secretKeys env.keys files.keys

/-- A deployment as the API returns it. -/
structure SanitizedDeployment where
  deployment : Deployment
  publicUrl : Option String
  deriving DecidableEq, Repr

def sanitizeDeployment (d : Deployment) : SanitizedDeployment where
  deployment :=
    { d with
      runtimeConfigs := d.runtimeConfigs.map fun c =>
        if c.type = .secret then { c with data := redactSecretRuntimeConfig c.data } else c }
  publicUrl := (truthy d.publicHostname).map fun hostname => "https://" ++ hostname

/-! ### Routing -/

/-- A label of a host name: `[a-z0-9](?:[-a-z0-9]*[a-z0-9])?`. -/
def isHostLabel (s : List Char) : Bool :=
  s.all isDnsChar && s.head?.any (· ≠ '-') && s.getLast?.any (· ≠ '-')

/-- `WILDCARD_HOSTNAME_PATTERN`: an asterisk, then two labels or more. -/
def isWildcardHostname (s : List Char) : Bool :=
  match s with
  | '*' :: '.' :: rest =>
      let labels := rest.splitOn '.'
      decide (2 ≤ labels.length) && labels.all isHostLabel
  | _ => false

/-- `buildPublicHostname`, with `none` for the error it throws. -/
def buildPublicHostname (appName deploymentId wildcardHostname : String) : Option String :=
  let wildcard := toLowerCase (trim wildcardHostname.toList)
  if isWildcardHostname wildcard then
    some (baseName appName deploymentId ++ "." ++ String.ofList (wildcard.drop 2))
  else none

def applicationRouting (config : ServiceConfig) (appName deploymentId : String) :
    Except ApiError ApplicationRoutingInput :=
  if ¬ config.applicationRoutingEnabled ∨ config.applicationGatewayName = "" ∨
      config.applicationGatewayNamespace = "" ∨ config.applicationWildcardHostname = "" ∨
      config.gatewayAccessNamespaceLabelKey = "" ∨ config.gatewayAccessNamespaceLabelValue = "" then
    .error (.serviceUnavailable "Public application routing is not configured")
  else
    match buildPublicHostname appName deploymentId config.applicationWildcardHostname with
    | none =>
        .error (.serviceUnavailable "Public application routing is not configured correctly")
    | some hostname =>
        .ok { hostname
              gatewayName := config.applicationGatewayName
              gatewayNamespace := config.applicationGatewayNamespace
              namespaceLabelKey := config.gatewayAccessNamespaceLabelKey
              namespaceLabelValue := config.gatewayAccessNamespaceLabelValue }

/-- `buildTelemetryEnv` of the observability service. -/
def buildTelemetryEnv (config : ServiceConfig)
    (appId appName deploymentId deploymentName kubernetesNamespace : String) : Entries :=
  if config.observabilityEnabled then
    [("OTEL_SERVICE_NAME", appName),
     ("OTEL_EXPORTER_OTLP_ENDPOINT", config.otelExporterOtlpEndpoint),
     ("OTEL_EXPORTER_OTLP_PROTOCOL", config.otelExporterOtlpProtocol),
     ("OTEL_RESOURCE_ATTRIBUTES", ",".intercalate
       ["service.namespace=" ++ kubernetesNamespace,
        "app.id=" ++ appId,
        "deployment.id=" ++ deploymentId,
        "deployment.name=" ++ deploymentName,
        "app.kubernetes.io/managed-by=deployment-manager-service"])]
  else []

/-! ### Create -/

/-- Throw what the computation throws. -/
def liftExcept {α : Type} (r : Except ApiError α) : Action α := Prog.ofExcept r

def requirePermissions (scopes permissions : List String) : Except ApiError Unit :=
  if permissions.all scopes.contains then .ok ()
  else .error (.forbidden "The required permission is missing")

/-- `requireWorkspaceId` of the tenant context. -/
def requireWorkspaceId (workspaceId : Option String) : Except ApiError String :=
  match truthy workspaceId with
  | some id => .ok id
  | none => .error (.unauthorized "A workspace context is required")

def findAppOrThrow (id : String) : Action App := do
  match ← findApp id with
  | some app => return app
  | none => .throw (.notFound ("App " ++ id ++ " was not found"))

def workspaceNamespace (workspaceId : String) : Action String := do
  match ← findWorkspace workspaceId with
  | some workspace => return workspace.kubernetesNamespace
  | none => .throw (.notFound "Workspace was not found")

/-- The image of a build of the app. -/
def buildImage (appId buildId : String) : Option Build → Except ApiError String
  | none => .error (.notFound ("Build " ++ buildId ++ " was not found"))
  | some build =>
      if build.appId ≠ appId then .error (.badRequest "Build does not belong to this app")
      else if build.status ≠ .succeeded then
        .error (.badRequest "Build must be succeeded before deployment")
      else
        match truthy build.image with
        | none => .error (.badRequest "Build has no deployable image")
        | some image => .ok image

def resolveDeploymentImage (appId : String) (dto : CreateDeploymentDto) : Action String :=
  match truthy dto.image, truthy dto.buildId with
  | some _, some _ => .throw (.badRequest "Provide either image or buildId, not both")
  | none, none => .throw (.badRequest "Either image or buildId is required")
  | some image, none => pure image
  | none, some buildId => do
      let build ← findBuild buildId
      liftExcept (buildImage appId buildId build)

/-- The routing of a deployment that asks to be exposed. -/
def requestedRouting (config : ServiceConfig) (request : CreateRequest) (app : App) :
    Except ApiError (Option ApplicationRoutingInput) :=
  if request.dto.expose.getD false then
    (applicationRouting config app.name request.deploymentId).map some
  else .ok none

/-- The part of `create` that comes after its reads and before its writes: the
row to insert, and what to deploy. -/
def assembleDeployment (config : ServiceConfig) (request : CreateRequest) (app : App)
    (image workspaceId «namespace» : String) : Except ApiError (Deployment × DeployImageInput) := do
  let dto := request.dto
  let port := dto.port <|> app.defaultPort
  let replicas := dto.replicas.getD 1
  let secrets := dto.secrets.getD []
  let files ← normalizeFileConfig (dto.files.getD [])
  let secretFiles ← normalizeFileConfig (dto.secretFiles.getD [])
  let names := buildResourceNames app.name request.deploymentId
  let labels := buildManagedLabels workspaceId app.id request.deploymentId
  let routing ← requestedRouting config request app
  let env := Entries.merge (dto.env.getD [])
    (buildTelemetryEnv config app.id app.name request.deploymentId names.deploymentName «namespace»)
  let runtimeConfigRecords := buildRuntimeConfigRecords env secrets files.1 secretFiles.1
  match port with
  | none | some 0 =>
      throw (.badRequest "Deployment port is required when the app has no default port")
  | some port =>
      return ({
        id := request.deploymentId
        workspaceId
        appId := app.id
        buildId := dto.buildId
        «namespace»
        image
        replicas
        desiredReplicas := replicas
        lastNonZeroReplicas := if replicas > 0 then some replicas else none
        port
        status := .creating
        kubernetesDeployment := names.deploymentName
        kubernetesService := names.serviceName
        kubernetesConfigMap := some names.configMapName
        kubernetesFileConfigMap := names.fileConfigMapName
        kubernetesSecret := names.secretName
        kubernetesSecretFiles := names.secretFileSecretName
        publicHostname := routing.map ApplicationRoutingInput.hostname
        stoppedAt := none
        lastRestartedAt := none
        deletedAt := none
        runtimeConfigs := runtimeConfigRecords },
        { «namespace», names, image, port, replicas, env, secrets, files := files.2
          secretFiles := secretFiles.2, labels, routing })

/-- `create` from the app to its insertion. -/
def planForApp (config : ServiceConfig) (request : CreateRequest) (app : App) :
    Action (Deployment × DeployImageInput) := do
  let image ← resolveDeploymentImage request.appId request.dto
  let workspaceId ← liftExcept (requireWorkspaceId request.workspaceId)
  let «namespace» ← workspaceNamespace workspaceId
  liftExcept (assembleDeployment config request app image workspaceId «namespace»)

/-- `create` up to its insertion. -/
def planDeployment (config : ServiceConfig) (request : CreateRequest) :
    Action (Deployment × DeployImageInput) := do
  if (request.dto.secrets.getD []).length > 0 ∨ (request.dto.secretFiles.getD []).length > 0 then
    liftExcept (requirePermissions request.scopes ["secrets:write"])
  let app ← findAppOrThrow request.appId
  planForApp config request app

/-- `DeploymentsService.create`. -/
def DeploymentsService.create (config : ServiceConfig) (request : CreateRequest) :
    Action SanitizedDeployment := do
  let (data, input) ← planDeployment config request
  let deployment ← createDeployment data
  (deployImage config input).tryCatch fun error => do
    let _ ← updateDeployment deployment.id { status := some .failed }
    .throw error
  return sanitizeDeployment deployment

/-! ### The operations on a record -/

def findOneOrThrow (id : String) : Action Deployment := do
  match ← findDeployment id with
  | some deployment => return deployment
  | none => .throw (.notFound ("Deployment " ++ id ++ " was not found"))

/-- What `getStatus` returns. -/
inductive StatusResponse
  | deleted (deploymentId : String) (desiredReplicas : ℕ)
  | live (deploymentId : String) (status : DeploymentStatus) (liveStatus : LiveStatus)
  deriving DecidableEq, Repr

/-- The status `getStatus` returns for a live deployment. -/
def nextStatus (stored : DeploymentStatus) (live : LiveStatus) : DeploymentStatus :=
  if live.readyReplicas ≥ live.desiredReplicas ∧ live.desiredReplicas > 0 then .running else stored

/-- The part of `getStatus` that comes after its read of the record. -/
def statusOf (deployment : Deployment) : Action StatusResponse :=
  if deployment.status = .deleted then
    return .deleted deployment.id deployment.desiredReplicas
  else do
    let liveStatus ← getDeploymentStatus deployment.«namespace» deployment.kubernetesDeployment
    let status := nextStatus deployment.status liveStatus
    if status ≠ deployment.status then
      let _ ← updateDeployment deployment.id { status := some status }
    return .live deployment.id status liveStatus

def DeploymentsService.getStatus (id : String) : Action StatusResponse := do
  let deployment ← findOneOrThrow id
  statusOf deployment

/-- What the update of `scale` writes. -/
def scaleUpdate (replicas now : ℕ) (deployment : Deployment) : DeploymentUpdate :=
  { replicas := some replicas
    desiredReplicas := some replicas
    lastNonZeroReplicas := some
      (if replicas > 0 then some replicas else deployment.lastNonZeroReplicas)
    status := some (if replicas = 0 then .stopped else .creating)
    stoppedAt := some (if replicas = 0 then some now else none) }

def DeploymentsService.scale (id : String) (replicas now : ℕ) : Action Deployment := do
  let deployment ← findOneOrThrow id
  scaleDeployment deployment.«namespace» deployment.kubernetesDeployment replicas
  updateDeployment id (scaleUpdate replicas now deployment)

/-- What the update of `stop` writes. -/
def stopUpdate (now : ℕ) (deployment : Deployment) : DeploymentUpdate :=
  { replicas := some 0
    desiredReplicas := some 0
    lastNonZeroReplicas := some
      (if deployment.replicas > 0 then some deployment.replicas
       else deployment.lastNonZeroReplicas)
    status := some .stopped
    stoppedAt := some (some now) }

def DeploymentsService.stop (id : String) (now : ℕ) : Action Deployment := do
  let deployment ← findOneOrThrow id
  scaleDeployment deployment.«namespace» deployment.kubernetesDeployment 0
  updateDeployment id (stopUpdate now deployment)

/-- The count `start` restores when the request names none. -/
def startReplicas (requested : Option ℕ) (deployment : Deployment) : ℕ :=
  (requested <|> deployment.lastNonZeroReplicas).getD
    (if deployment.desiredReplicas > 0 then deployment.desiredReplicas else 1)

/-- What the update of `start` writes. -/
def startUpdate (replicas : ℕ) : DeploymentUpdate :=
  { replicas := some replicas
    desiredReplicas := some replicas
    lastNonZeroReplicas := some (some replicas)
    status := some .creating
    stoppedAt := some none }

def DeploymentsService.start (id : String) (requested : Option ℕ) : Action Deployment := do
  let deployment ← findOneOrThrow id
  let replicas := startReplicas requested deployment
  scaleDeployment deployment.«namespace» deployment.kubernetesDeployment replicas
  updateDeployment id (startUpdate replicas)

def DeploymentsService.restart (id : String) (now : ℕ) : Action Deployment := do
  let deployment ← findOneOrThrow id
  let restartedAt ←
    restartDeployment deployment.«namespace» deployment.kubernetesDeployment now
  updateDeployment id { status := some .creating, lastRestartedAt := some (some restartedAt) }

def deploymentToResourceNames (deployment : Deployment) :
    Except ApiError KubernetesResourceNames :=
  match truthy deployment.kubernetesConfigMap with
  | none => .error (.badRequest "Deployment has no Kubernetes ConfigMap name")
  | some configMapName =>
      .ok { deploymentName := deployment.kubernetesDeployment
            serviceName := deployment.kubernetesService
            configMapName
            fileConfigMapName := deployment.kubernetesFileConfigMap
            secretName := deployment.kubernetesSecret
            secretFileSecretName := deployment.kubernetesSecretFiles
            httpRouteName := deployment.kubernetesDeployment ++ "-route"
            httpRedirectRouteName := deployment.kubernetesDeployment ++ "-redirect" }

/-- What the update of `delete` writes. -/
def deletedUpdate (now : ℕ) : DeploymentUpdate :=
  { status := some .deleted, deletedAt := some (some now), publicHostname := some none }

def DeploymentsService.delete (id : String) (now : ℕ) : Action SanitizedDeployment := do
  let deployment ← findOneOrThrow id
  let names ← liftExcept (deploymentToResourceNames deployment)
  deleteDeploymentResources deployment.«namespace» names (truthy deployment.publicHostname).isSome
  let deleted ← updateDeployment id (deletedUpdate now)
  return sanitizeDeployment deleted

/-! ### All requests -/

/-- A request on the deployment `id`; `now` is the clock when it reads it. -/
inductive Request
  | create (request : CreateRequest)
  | getStatus
  | scale (replicas now : ℕ)
  | stop (now : ℕ)
  | start (requested : Option ℕ)
  | restart (now : ℕ)
  | delete (now : ℕ)
  deriving DecidableEq, Repr

inductive Response
  | deployment (d : Deployment)
  | sanitized (d : SanitizedDeployment)
  | status (s : StatusResponse)
  deriving DecidableEq, Repr

/-- The program of a request on the deployment `id`; a creation is one whose
generated id is `id`. -/
def Request.program (config : ServiceConfig) (id : String) : Request → Action Response
  | .create request => do
      return .sanitized (← DeploymentsService.create config { request with deploymentId := id })
  | .getStatus => do return .status (← DeploymentsService.getStatus id)
  | .scale replicas now => do return .deployment (← DeploymentsService.scale id replicas now)
  | .stop now => do return .deployment (← DeploymentsService.stop id now)
  | .start requested => do return .deployment (← DeploymentsService.start id requested)
  | .restart now => do return .deployment (← DeploymentsService.restart id now)
  | .delete now => do return .sanitized (← DeploymentsService.delete id now)

end NexCause
