/-
NexCause/BuildInputs.lean

What a user's strings become in the script of a build Job: the part of
`BuildsService.create` that makes the Job out of the request, the app and the
configuration (`builds.service.ts`), and what the shell reads in the script.

The scripts are put together from text.  Apart from slashes at its ends, a
`buildContext` or a `dockerfilePath` is in the text as it was sent; so it may
end its word and go on with commands of its own, or lead out of the repository.

Main results: scripts whose strings have no character with a meaning to the
shell are read as the intended commands (`lex_buildctl`, `parse_buildctl`,
`lex_pack`, `parse_pack`).
-/
import NexCause.BuildJobs
import NexCause.ResourceNames
import NexCause.ShellGrammar
import NexCause.PathResolution

namespace NexCause

open Program Shell

/-! ### `BuildsService.create` -/

/-- `AppSourceType` of the database schema. -/
inductive AppSourceType
  | image | git
  deriving DecidableEq, Repr

/-- `BuildStrategy` of the database schema. -/
inductive BuildStrategy
  | dockerfile | buildpack
  deriving DecidableEq, Repr

structure CreateBuildDto where
  strategy : Option BuildStrategy
  branch : Option String
  buildContext : Option String
  dockerfilePath : Option String
  deriving DecidableEq, Repr

/-- The app, as far as builds read it. -/
structure SourceApp where
  id : String
  name : String
  sourceType : AppSourceType
  repoUrl : Option String
  branch : Option String
  buildContext : Option String
  dockerfilePath : Option String
  deriving DecidableEq, Repr

/-- What `configService.get` returns. -/
structure RegistryConfig where
  localRegistryCluster : Option String
  buildpackBuilderImage : Option String
  buildpackRunnerImage : Option String
  deriving DecidableEq, Repr

/-- `[a-z0-9._-]` -/
def isRepositoryChar (c : Char) : Bool := isDnsChar c || c = '.' || c = '_'

def toImageRepository (appName : String) : List Char :=
  let repository := (collapseDashes (trimDashes
    ((toLowerCase appName.toList).map fun c => if isRepositoryChar c then c else '-'))).take 80
  if repository = [] then "app".toList else repository

/-- The Job that is created for a build. -/
inductive BuildJob
  | buildpack (input : CreateBuildpackJobInput)
  | dockerfile (input : CreateBuildJobInput)
  deriving DecidableEq, Repr

def registryOf (config : RegistryConfig) : String :=
  config.localRegistryCluster.getD "kind-registry:5000"

def builderOf (config : RegistryConfig) : String :=
  config.buildpackBuilderImage.getD "gcr.io/buildpacks/builder"

def strategyOf (dto : CreateBuildDto) : BuildStrategy := dto.strategy.getD .dockerfile

def buildContextOf (app : SourceApp) (dto : CreateBuildDto) : String :=
  (dto.buildContext <|> app.buildContext).getD "."

def dockerfilePathOf (app : SourceApp) (dto : CreateBuildDto) : String :=
  (dto.dockerfilePath <|> app.dockerfilePath).getD "Dockerfile"

/-- The image, as the cluster names it. -/
def clusterImageOf (config : RegistryConfig) (appName : String) (buildId : DeploymentId) : String :=
  registryOf config ++ "/" ++ String.ofList (toImageRepository appName) ++ ":" ++ buildId.text

/-- The Job for an app whose repository is known. -/
def jobFor (config : RegistryConfig) (app : SourceApp) (createBuildDto : CreateBuildDto)
    (workspaceId «namespace» : String) (buildId : DeploymentId) (repoUrl : String) : BuildJob :=
  match strategyOf createBuildDto with
  | .buildpack => .buildpack
      { «namespace»
        jobName := buildJobName app.name buildId.text
        labels := buildJobLabels workspaceId app.id buildId.text
        repoUrl
        branch := (createBuildDto.branch <|> app.branch).getD "main"
        buildContext := buildContextOf app createBuildDto
        clusterImage := clusterImageOf config app.name buildId
        builderImage := builderOf config
        runnerImage := config.buildpackRunnerImage.getD
          "ghcr.io/venumigihansa/nexcause-buildpack-runner:0.1.3"
        insecureRegistry := registryOf config }
  | .dockerfile => .dockerfile
      { «namespace»
        jobName := buildJobName app.name buildId.text
        labels := buildJobLabels workspaceId app.id buildId.text
        repoUrl
        branch := (createBuildDto.branch <|> app.branch).getD "main"
        buildContext := buildContextOf app createBuildDto
        dockerfilePath := dockerfilePathOf app createBuildDto
        clusterImage := clusterImageOf config app.name buildId }

/-- `create`, up to the Job that it asks Kubernetes for. -/
def createdJob (config : RegistryConfig) (app : SourceApp) (createBuildDto : CreateBuildDto)
    (workspaceId «namespace» : String) (buildId : DeploymentId) : Except String BuildJob :=
  if app.sourceType ≠ .git then .error "Builds can only be created for git apps"
  else
    match truthy app.repoUrl with
    | none => .error "Git apps must have a repoUrl before building"
    | some repoUrl => .ok (jobFor config app createBuildDto workspaceId «namespace» buildId repoUrl)

/-! ### What the script should be -/

def BuildJob.manifest : BuildJob → Manifest
  | .buildpack input => buildBuildpackJobManifest input
  | .dockerfile input => buildBuildJobManifest input

/-- The script that the container of a Job gives to `/bin/sh -c`. -/
def Manifest.script : Manifest → Option String
  | .job _ spec =>
    match spec.containers with
    | [container] => if container.command = ["/bin/sh", "-c"] then container.args.head? else none
    | _ => none
  | _ => none

def texts (words : List String) : List (List Char) := words.map String.toList

/-- The words of the call of `buildctl`. -/
def buildctlWords (contextPath directoryPath fileName image : List Char) : List (List Char) :=
  texts ["buildctl-daemonless.sh", "build", "--frontend", "dockerfile.v0", "--local"] ++
    ["context=".toList ++ contextPath, "--local".toList, "dockerfile=".toList ++ directoryPath,
     "--opt".toList, "filename=".toList ++ fileName, "--output".toList,
     "type=image,name=".toList ++ image ++ ",push=true,registry.insecure=true".toList]

/-- The words that start the daemon. -/
def dockerdWords (registry : List Char) : List (List Char) :=
  texts ["dockerd-entrypoint.sh", "dockerd", "--host=unix:///var/run/docker.sock"] ++
    ["--insecure-registry=".toList ++ registry]

def packWords (image appPath builder : List Char) : List (List Char) :=
  texts ["pack", "build"] ++ [image, "--path".toList, appPath, "--builder".toList, builder] ++
    texts ["--network", "host"]

/-- `> path 2>&1` -/
def redirected (path : String) : List Redirect :=
  [⟨none, ['>'], plainWord path.toList⟩, ⟨some (plainWord ['2']), ['>', '&'], plainWord ['1']⟩]

def sixtyTimes : Word := ("$(seq 1 60)".toList).map (·, .expanded)

/-- Wait until the daemon answers. -/
def awaitCommand : Command :=
  .forEach (plainWord ['i']) [sixtyTimes]
    (.sequence
      (.and (.simple ((texts ["docker", "info"]).map plainWord) (redirected "/dev/null"))
        (call (texts ["break"])))
      (call (texts ["sleep", "1"])))

/-- A directory or file of the repository, as the scripts name it. -/
def inRepository (path : String) : List Char := "/workspace/repo/".toList ++ path.toList

/-- The commands that the script of a Job is to be, one after the other. -/
def BuildJob.commands : BuildJob → Command
  | .dockerfile input =>
    .sequence (call (texts ["set", "-eu"]))
      (call (buildctlWords (inRepository (trimPath input.buildContext))
        (inRepository (trimPath (getDirectoryName input.dockerfilePath)))
        (getBaseName input.dockerfilePath).toList input.clusterImage.toList))
  | .buildpack input =>
    .sequence (call (texts ["set", "-eu"]))
      (.sequence
        (.background (.simple ((dockerdWords input.insecureRegistry.toList).map plainWord)
          (redirected "/tmp/dockerd.log")))
        (.sequence awaitCommand
          (.sequence (call (texts ["docker", "info"]))
            (.sequence
              (call (packWords input.clusterImage.toList (inRepository (trimPath input.buildContext))
                input.builderImage.toList))
              (call (texts ["docker", "push"] ++ [input.clusterImage.toList]))))))

/-- The local directories and files that the commands name. -/
def BuildJob.localPaths : BuildJob → List (List Char)
  | .dockerfile input =>
    let directory := inRepository (trimPath (getDirectoryName input.dockerfilePath))
    [inRepository (trimPath input.buildContext), directory,
     directory ++ '/' :: (getBaseName input.dockerfilePath).toList]
  | .buildpack input => [inRepository (trimPath input.buildContext)]

/-- `/workspace/repo`, the innermost directory first. -/
def repository : List Path.Segment := ["repo".toList, "workspace".toList]

/-- The shell reads the intended commands and no others, with the strings of
the user within their words, and these name nothing outside the repository. -/
def BuildJob.Contained (job : BuildJob) : Prop :=
  (job.manifest.script >>= fun script => readProgram script.toList) = some job.commands ∧
    ∀ path ∈ job.localPaths, repository <:+ Path.resolve [] (Path.parts path)

/-! ### The script of a `dockerfile` build -/

/-- The script up to the path of the context. -/
def buildctlHead : List Char :=
  "set -eu".toList ++ '\n' :: ("buildctl-daemonless.sh build".toList ++ ' ' ::
    ("--frontend dockerfile.v0".toList ++ ' ' :: "--local context=/workspace/repo/".toList))

/-- How the two lines of the script are put together. -/
theorem join_buildctl (a b c d e f g h context directory fileName image : String) :
    ("\n".intercalate [a, " ".intercalate
        [b, c, d ++ context, e ++ directory, f ++ fileName, g ++ image ++ h]]).toList =
      (a.toList ++ '\n' :: (b.toList ++ ' ' :: (c.toList ++ ' ' :: d.toList))) ++
        (context.toList ++ ' ' :: (e.toList ++ (directory.toList ++ ' ' ::
          (f.toList ++ (fileName.toList ++ ' ' :: (g.toList ++ (image.toList ++ h.toList))))))) := by
  simp

theorem buildctl_script (input : CreateBuildJobInput) :
    (BuildJob.dockerfile input).manifest.script.map String.toList =
      some (buildctlHead ++ ((trimPath input.buildContext).toList ++ ' ' ::
        ("--local dockerfile=/workspace/repo/".toList ++
          ((trimPath (getDirectoryName input.dockerfilePath)).toList ++ ' ' ::
            ("--opt filename=".toList ++ ((getBaseName input.dockerfilePath).toList ++ ' ' ::
              ("--output type=image,name=".toList ++
                (input.clusterImage.toList ++ ",push=true,registry.insecure=true".toList)))))))) :=
  congrArg some (join_buildctl _ _ _ _ _ _ _ _ _ _ _ _)

theorem lex_buildctl {context directory fileName image : List Char}
    (hcontext : ∀ c ∈ context, isOrdinary c = true)
    (hdirectory : ∀ c ∈ directory, isOrdinary c = true)
    (hfile : ∀ c ∈ fileName, isOrdinary c = true) (himage : ∀ c ∈ image, isOrdinary c = true) :
    lex (buildctlHead ++ (context ++ ' ' :: ("--local dockerfile=/workspace/repo/".toList ++
        (directory ++ ' ' :: ("--opt filename=".toList ++
          (fileName ++ ' ' :: ("--output type=image,name=".toList ++
            (image ++ ",push=true,registry.insecure=true".toList)))))))) =
      some (textTokens (texts ["set", "-eu"]) ++ .newline ::
        textTokens (buildctlWords ("/workspace/repo/".toList ++ context)
          ("/workspace/repo/".toList ++ directory) fileName image)) := by
  -- the fixed parts of the line are read once and for all
  have hhead : feedAll ⟨[], .between, false⟩ buildctlHead =
      ⟨(textTokens (texts ["set", "-eu"]) ++ .newline :: textTokens
        (texts ["buildctl-daemonless.sh", "build", "--frontend", "dockerfile.v0", "--local"])).reverse,
        .word (plainWord ("context=".toList ++ "/workspace/repo/".toList)).reverse [] .none,
        false⟩ := by
    decide +kernel
  have hlocal : feedAll ⟨[], .between, false⟩ "--local dockerfile=/workspace/repo/".toList =
      ⟨[.word (plainWord "--local".toList)],
        .word (plainWord ("dockerfile=".toList ++ "/workspace/repo/".toList)).reverse [] .none,
        false⟩ := by
    decide +kernel
  have hopt : feedAll ⟨[], .between, false⟩ "--opt filename=".toList =
      ⟨[.word (plainWord "--opt".toList)],
        .word (plainWord "filename=".toList).reverse [] .none, false⟩ := by
    decide +kernel
  have houtput : feedAll ⟨[], .between, false⟩ "--output type=image,name=".toList =
      ⟨[.word (plainWord "--output".toList)],
        .word (plainWord "type=image,name=".toList).reverse [] .none, false⟩ := by
    decide +kernel
  have hpush : ∀ c ∈ ",push=true,registry.insecure=true".toList, isOrdinary c = true :=
    forall_mem_of_all (by decide)
  have hlast : ∀ c ∈ image ++ ",push=true,registry.insecure=true".toList, isOrdinary c = true :=
    fun c hc => (List.mem_append.mp hc).elim (himage c) (hpush c)
  -- and between them the strings, each up to its blank
  rw [lex, feedAll_append, hhead,
    feedAll_splice _ (by simp) hcontext hlocal, LexState.after,
    feedAll_splice _ (by simp) hdirectory hopt, LexState.after,
    feedAll_splice _ (by simp) hfile houtput, LexState.after,
    feedAll_word _ (by simp) hlast, finish_word, ← List.append_assoc _ image,
    List.append_assoc _ _ context,
    List.append_assoc _ _ directory]
  rfl

theorem parse_buildctl (context directory fileName image : List Char) :
    parse (textTokens (texts ["set", "-eu"]) ++ .newline ::
        textTokens (buildctlWords context directory fileName image)) =
      some (.sequence (call (texts ["set", "-eu"]))
        (call (buildctlWords context directory fileName image))) := by
  refine parse_of_readList rfl fun fuel => ?_
  rw [readList_line (fuel + 29) (by decide) rfl rfl, readList_call (fuel + 28) rfl]
  rfl

/-! ### The script of a `buildpack` build -/

/-- The script up to the address of the registry. -/
def dockerdHead : List Char :=
  "set -eu".toList ++ '\n' :: ("dockerd-entrypoint.sh dockerd".toList ++ ' ' ::
    ("--host=unix:///var/run/docker.sock".toList ++ ' ' :: "--insecure-registry=".toList))

/-- The script from there to the image. -/
def awaitText : List Char :=
  "> /tmp/dockerd.log 2>&1 &".toList ++ '\n' ::
    ("for i in $(seq 1 60); do docker info >/dev/null 2>&1 && break; sleep 1; done".toList ++ '\n' ::
      ("docker info".toList ++ '\n' :: "pack build ".toList))

/-- How the lines of the script are put together. -/
theorem join_pack (a b c d e f g h i j k l registry image context builder : String)
    {path build last : List Char} (hi : i.toList = ' ' :: path) (hj : j.toList = ' ' :: build)
    (hk : k.toList = ' ' :: last) :
    ("\n".intercalate [a, " ".intercalate [b, c, d ++ registry, e], f, g,
        h ++ image ++ i ++ context ++ j ++ builder ++ k, l ++ image]).toList =
      (a.toList ++ '\n' :: (b.toList ++ ' ' :: (c.toList ++ ' ' :: d.toList))) ++
        (registry.toList ++ ' ' ::
          ((e.toList ++ '\n' :: (f.toList ++ '\n' :: (g.toList ++ '\n' :: h.toList))) ++
            (image.toList ++ ' ' :: (path ++ (context.toList ++ ' ' ::
              (build ++ (builder.toList ++ ' ' ::
                ((last ++ '\n' :: l.toList) ++ image.toList)))))))) := by
  simp [hi, hj, hk]

theorem pack_script (input : CreateBuildpackJobInput) :
    (BuildJob.buildpack input).manifest.script.map String.toList =
      some (dockerdHead ++ (input.insecureRegistry.toList ++ ' ' ::
        (awaitText ++ (input.clusterImage.toList ++ ' ' ::
          ("--path /workspace/repo/".toList ++ ((trimPath input.buildContext).toList ++ ' ' ::
            ("--builder ".toList ++ (input.builderImage.toList ++ ' ' ::
              (("--network host".toList ++ '\n' :: "docker push ".toList) ++
                input.clusterImage.toList))))))))) := by
  have hpath : " --path /workspace/repo/".toList = ' ' :: "--path /workspace/repo/".toList := by
    decide +kernel
  have hbuild : " --builder ".toList = ' ' :: "--builder ".toList := by decide +kernel
  have hlast : " --network host".toList = ' ' :: "--network host".toList := by decide +kernel
  exact congrArg some (join_pack _ _ _ _ _ _ _ _ _ _ _ _ _ _ _ _ hpath hbuild hlast)

/-- The tokens of the loop, and what follows them. -/
def loopTokens (rest : List Token) : List Token :=
  keyword ['f', 'o', 'r'] :: .word (plainWord ['i']) :: keyword ['i', 'n'] ::
    ([sixtyTimes].map .word ++ .operator [';'] :: keyword ['d', 'o'] ::
      (textTokens (texts ["docker", "info"]) ++
        ((redirected "/dev/null").flatMap Redirect.tokens ++ .operator ['&', '&'] ::
          (textTokens (texts ["break"]) ++ .operator [';'] ::
            (textTokens (texts ["sleep", "1"]) ++ .operator [';'] ::
              keyword ['d', 'o', 'n', 'e'] :: rest)))))

/-- The tokens from the redirections of the daemon to the call of `pack`. -/
def awaitTokens (rest : List Token) : List Token :=
  (redirected "/tmp/dockerd.log").flatMap Redirect.tokens ++ .operator ['&'] :: .newline ::
    loopTokens (.newline :: (textTokens (texts ["docker", "info"]) ++ .newline :: rest))

theorem awaitTokens_append (rest more : List Token) :
    awaitTokens rest ++ more = awaitTokens (rest ++ more) := by
  simp only [awaitTokens, loopTokens, List.append_assoc, List.cons_append]

theorem lex_pack {registry image context builder : List Char}
    (hregistry : ∀ c ∈ registry, isOrdinary c = true) (himage : isArgument image = true)
    (hcontext : ∀ c ∈ context, isOrdinary c = true) (hbuilder : isArgument builder = true) :
    lex (dockerdHead ++ (registry ++ ' ' :: (awaitText ++ (image ++ ' ' ::
        ("--path /workspace/repo/".toList ++ (context ++ ' ' :: ("--builder ".toList ++
          (builder ++ ' ' :: (("--network host".toList ++ '\n' :: "docker push ".toList) ++
            image))))))))) =
      some (textTokens (texts ["set", "-eu"]) ++ .newline :: (textTokens (dockerdWords registry) ++
        awaitTokens (textTokens (packWords image ("/workspace/repo/".toList ++ context) builder) ++
          .newline :: textTokens (texts ["docker", "push"] ++ [image])))) := by
  -- the fixed parts of the script, and between them the strings
  have hhead : feedAll ⟨[], .between, false⟩ dockerdHead =
      ⟨(textTokens (texts ["set", "-eu"]) ++ .newline :: textTokens
        (texts ["dockerd-entrypoint.sh", "dockerd", "--host=unix:///var/run/docker.sock"])).reverse,
        .word (plainWord "--insecure-registry=".toList).reverse [] .none, false⟩ := by
    decide +kernel
  have hawait : feedAll ⟨[], .between, false⟩ awaitText =
      ⟨(awaitTokens (textTokens (texts ["pack", "build"]))).reverse, .between, false⟩ := by
    decide +kernel
  have hpath : feedAll ⟨[], .between, false⟩ "--path /workspace/repo/".toList =
      ⟨[.word (plainWord "--path".toList)],
        .word (plainWord "/workspace/repo/".toList).reverse [] .none, false⟩ := by
    decide +kernel
  have hbuild : feedAll ⟨[], .between, false⟩ "--builder ".toList =
      ⟨[.word (plainWord "--builder".toList)], .between, false⟩ := by
    decide +kernel
  have hpush : feedAll ⟨[], .between, false⟩
      ("--network host".toList ++ '\n' :: "docker push ".toList) =
      ⟨(textTokens (texts ["--network", "host"]) ++ .newline ::
        textTokens (texts ["docker", "push"])).reverse, .between, false⟩ := by
    decide +kernel
  rw [lex, feedAll_append, hhead,
    feedAll_splice _ (by simp) hregistry hawait, LexState.after,
    feedAll_own _ himage hpath, LexState.after,
    feedAll_splice _ (by simp) hcontext hbuild, LexState.after,
    feedAll_own _ hbuilder hpush, LexState.after,
    feedAll_argument _ himage, finish_word]
  simp [textTokens, dockerdWords, packWords, texts, awaitTokens_append]

theorem readCommand_loop (fuel : ℕ) (rest : List Token) :
    readCommand (fuel + 6) (loopTokens rest) = some (awaitCommand, rest) := by
  have hdocker := readCommand_simple (fuel + 1) ["info".toList] (redirected "/dev/null")
    (show isCommandName "docker".toList = true by decide) (by simp [redirected, isRedirection])
    (show simpleEnds (.operator ['&', '&'] :: (textTokens (texts ["break"]) ++ .operator [';'] ::
      (textTokens (texts ["sleep", "1"]) ++ .operator [';'] ::
        keyword ['d', 'o', 'n', 'e'] :: rest))) = true from rfl)
  have hbreak : readCommand (fuel + 1) (textTokens (texts ["break"]) ++ .operator [';'] ::
      (textTokens (texts ["sleep", "1"]) ++ .operator [';'] :: keyword ['d', 'o', 'n', 'e'] :: rest)) =
      some (call (texts ["break"]), .operator [';'] :: (textTokens (texts ["sleep", "1"]) ++
        .operator [';'] :: keyword ['d', 'o', 'n', 'e'] :: rest)) :=
    readCommand_call fuel (by decide) rfl
  have hsleep : readCommand (fuel + 1) (textTokens (texts ["sleep", "1"]) ++ .operator [';'] ::
      keyword ['d', 'o', 'n', 'e'] :: rest) =
      some (call (texts ["sleep", "1"]), .operator [';'] :: keyword ['d', 'o', 'n', 'e'] :: rest) :=
    readCommand_call fuel (by decide) rfl
  refine readCommand_forEach _ _ ?_
  have hbody := readList_next (readFirst_and hdocker hbreak rfl) rfl rfl
  have hlast := readList_closed (readFirst_command hsleep rfl) rfl rfl
  exact hbody.trans (congrArg (Option.map _) hlast)

theorem parse_pack (registry image context builder : List Char) :
    parse (textTokens (texts ["set", "-eu"]) ++ .newline :: (textTokens (dockerdWords registry) ++
        awaitTokens (textTokens (packWords image context builder) ++
          .newline :: textTokens (texts ["docker", "push"] ++ [image])))) =
      some (.sequence (call (texts ["set", "-eu"]))
        (.sequence
          (.background (.simple ((dockerdWords registry).map plainWord)
            (redirected "/tmp/dockerd.log")))
          (.sequence awaitCommand
            (.sequence (call (texts ["docker", "info"]))
              (.sequence (call (packWords image context builder))
                (call (texts ["docker", "push"] ++ [image]))))))) := by
  refine parse_of_readList rfl fun fuel => ?_
  -- from the last line to the first one
  have hpush : readList (fuel + 27) (textTokens (texts ["docker", "push"] ++ [image])) =
      some (call (texts ["docker", "push"] ++ [image]), []) := readList_call (fuel + 24) rfl
  have hpack : readList (fuel + 28) (textTokens (packWords image context builder) ++
      .newline :: textTokens (texts ["docker", "push"] ++ [image])) = _ :=
    readList_line (fuel + 25) rfl rfl rfl
  rw [hpush] at hpack
  have hinfo : readList (fuel + 29) (textTokens (texts ["docker", "info"]) ++ .newline ::
      (textTokens (packWords image context builder) ++
        .newline :: textTokens (texts ["docker", "push"] ++ [image]))) = _ :=
    readList_line (fuel + 26) rfl rfl rfl
  rw [hpack] at hinfo
  have hloop := readList_next (readFirst_command (readCommand_loop (fuel + 22) (.newline ::
    (textTokens (texts ["docker", "info"]) ++ .newline ::
      (textTokens (packWords image context builder) ++
        .newline :: textTokens (texts ["docker", "push"] ++ [image]))))) rfl) rfl rfl
  have hdaemon := readList_next (readFirst_command (readCommand_simple (fuel + 28)
    ((dockerdWords registry).tail) (redirected "/tmp/dockerd.log")
    (show isCommandName "dockerd-entrypoint.sh".toList = true by decide)
    (by simp [redirected, isRedirection])
    (show simpleEnds (.operator ['&'] :: .newline :: loopTokens (.newline ::
      (textTokens (texts ["docker", "info"]) ++ .newline ::
        (textTokens (packWords image context builder) ++
          .newline :: textTokens (texts ["docker", "push"] ++ [image]))))) = true from rfl))
    rfl) rfl rfl
  have hset := readList_line (fuel + 29) (show (texts ["set", "-eu"]).head?.any isCommandName = true
    by decide) (show listEnds (textTokens (dockerdWords registry) ++
      awaitTokens (textTokens (packWords image context builder) ++
        .newline :: textTokens (texts ["docker", "push"] ++ [image]))) = false from rfl) rfl
  refine hset.trans (congrArg (Option.map _) (hdaemon.trans (congrArg (Option.map _)
    (hloop.trans (congrArg (Option.map _) hinfo)))))

end NexCause
