/-
NexCause/BuildJobs.lean

The Jobs that build images: their names and labels, the two manifest builders
(`build-job-manifest.builder.ts`, `buildpack-job-manifest.builder.ts`), and the
programs of `KubernetesService` that create them.
-/
import NexCause.KubernetesService

namespace NexCause

open Program

/-! ### Names and labels -/

/-- The first 32 characters of the app's name and the first eight of the build's id. -/
def buildJobName (appName buildId : String) : String :=
  let appSegment := (toDnsSafeName appName).take 32
  let buildSegment := toLowerCase (buildId.toList.take 8)
  String.ofList ((if appSegment = [] then "app".toList else appSegment) ++ "-build-".toList ++
    buildSegment)

/-- What is written on everything that belongs to a build. -/
def buildJobLabels (workspaceId appId buildId : String) : Entries :=
  [("app.kubernetes.io/managed-by", "deployment-manager-service"),
   ("rca-platform/workspace-id", workspaceId),
   ("rca-platform/app-id", appId),
   ("rca-platform/build-id", buildId)]

/-! ### Inputs -/

/-- What `createBuildJob` is given. -/
structure CreateBuildJobInput where
  «namespace» : String
  jobName : String
  labels : Entries
  repoUrl : String
  branch : String
  buildContext : String
  dockerfilePath : String
  clusterImage : String
  deriving DecidableEq, Repr

/-- What `createBuildpackJob` is given; there is no Dockerfile, but a builder. -/
structure CreateBuildpackJobInput where
  «namespace» : String
  jobName : String
  labels : Entries
  repoUrl : String
  branch : String
  buildContext : String
  clusterImage : String
  builderImage : String
  runnerImage : String
  insecureRegistry : String
  deriving DecidableEq, Repr

/-! ### Paths -/

/-- Without the slashes at both ends. -/
def trimPath (path : String) : String :=
  let trimmed := ((path.toList.dropWhile (· = '/')).reverse.dropWhile (· = '/')).reverse
  if trimmed = [] then "." else String.ofList trimmed

/-- What stands before the last slash. -/
def getDirectoryName (path : String) : String :=
  let normalized := (trimPath path).toList
  let directory := ((normalized.reverse.dropWhile (· ≠ '/')).drop 1).reverse
  if directory = [] then "." else String.ofList directory

/-- What stands after the last slash. -/
def getBaseName (path : String) : String :=
  String.ofList ((trimPath path).toList.reverse.takeWhile (· ≠ '/')).reverse

/-! ### Manifests -/

/-- What the two builders have in common: a Job that clones the repository
and then runs one privileged container. -/
def buildJobManifest (labels : Entries) (branch repoUrl image script : String) : Manifest :=
  .job labels
    -- a build that fails is not tried again
    { backoffLimit := 0
      templateLabels := labels
      restartPolicy := "Never"
      -- both containers work in it
      volumes := ["workspace"]
      initContainers :=
        [{ name := "clone-repo"
           image := "alpine/git:2.45.2"
           privileged := false
           command := []
           args := ["clone", "--depth", "1", "--branch", branch, repoUrl, "/workspace/repo"]
           volumeMounts := [("workspace", "/workspace")] }]
      containers :=
        [{ name := "build-and-push"
           image
           privileged := true
           command := ["/bin/sh", "-c"]
           args := [script]
           volumeMounts := [("workspace", "/workspace")] }] }

/-- The image is built from a Dockerfile. The paths and the image go into the script as
they are. -/
def buildBuildJobManifest (input : CreateBuildJobInput) : Manifest :=
  buildJobManifest input.labels input.branch input.repoUrl "moby/buildkit:buildx-stable-1"
    ("\n".intercalate
      ["set -eu",
       " ".intercalate
        ["buildctl-daemonless.sh build",
         "--frontend dockerfile.v0",
         "--local context=/workspace/repo/" ++ trimPath input.buildContext,
         "--local dockerfile=/workspace/repo/" ++ trimPath (getDirectoryName input.dockerfilePath),
         "--opt filename=" ++ getBaseName input.dockerfilePath,
         "--output type=image,name=" ++ input.clusterImage ++ ",push=true,registry.insecure=true"]])

/-- The image is built by a buildpack, in a Docker daemon of its own. -/
def buildBuildpackJobManifest (input : CreateBuildpackJobInput) : Manifest :=
  buildJobManifest input.labels input.branch input.repoUrl input.runnerImage
    ("\n".intercalate
      ["set -eu",
       " ".intercalate
        ["dockerd-entrypoint.sh dockerd",
         "--host=unix:///var/run/docker.sock",
         "--insecure-registry=" ++ input.insecureRegistry,
         "> /tmp/dockerd.log 2>&1 &"],
       "for i in $(seq 1 60); do docker info >/dev/null 2>&1 && break; sleep 1; done",
       "docker info",
       "pack build " ++ input.clusterImage ++ " --path /workspace/repo/" ++
        trimPath input.buildContext ++ " --builder " ++ input.builderImage ++ " --network host",
       "docker push " ++ input.clusterImage])

/-! ### The programs -/

/-- Only the creation of the Job can find its name taken. -/
def createBuildJob (config : ServiceConfig) (input : CreateBuildJobInput) : Action Unit := do
  ensureNamespace config input.«namespace» input.labels
  createObject ⟨.job, input.«namespace», input.jobName⟩ none (buildBuildJobManifest input)

def createBuildpackJob (config : ServiceConfig) (input : CreateBuildpackJobInput) : Action Unit := do
  ensureNamespace config input.«namespace» input.labels
  createObject ⟨.job, input.«namespace», input.jobName⟩ none (buildBuildpackJobManifest input)

end NexCause
