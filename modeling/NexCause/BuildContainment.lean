/-
NexCause/BuildContainment.lean

When the strings of a build stay where they belong: within their words of the
script, and within the directory of the repository.

Main result: `build_inputs_contained_iff`.
-/
import Mathlib.Data.List.TakeWhile
import NexCause.BuildInputs

namespace NexCause

open Program Shell

/-! ### Paths without the slashes at their ends -/

/-- What `trimPath` leaves of a path, before its default. -/
def withoutSlashes (path : List Char) : List Char :=
  ((path.dropWhile (· = '/')).reverse.dropWhile (· = '/')).reverse

/-- A path of slashes only becomes a dot. -/
theorem trimPath_toList (path : String) :
    (trimPath path).toList =
      if withoutSlashes path.toList = [] then ['.'] else withoutSlashes path.toList := by
  show String.toList (if withoutSlashes path.toList = [] then "." else
    String.ofList (withoutSlashes path.toList)) = _
  split
  next => rfl
  next => exact String.toList_ofList

theorem takeWhile_slashes (s : List Char) :
    ∃ n, s.takeWhile (· = '/') = List.replicate n '/' :=
  ⟨_, List.eq_replicate_of_mem fun c hc => by simpa using List.mem_takeWhile_imp hc⟩

/-- Nothing but slashes is taken away. -/
theorem withoutSlashes_spec (path : List Char) :
    ∃ m n, path = List.replicate m '/' ++ (withoutSlashes path ++ List.replicate n '/') := by
  obtain ⟨m, hm⟩ := takeWhile_slashes path
  obtain ⟨n, hn⟩ := takeWhile_slashes (path.dropWhile (· = '/')).reverse
  have hback : withoutSlashes path ++ List.replicate n '/' = path.dropWhile (· = '/') := by
    have h := congrArg List.reverse
      (List.takeWhile_append_dropWhile (p := (· = '/')) (l := (path.dropWhile (· = '/')).reverse))
    rwa [hn, List.reverse_append, List.reverse_replicate, List.reverse_reverse] at h
  exact ⟨m, n, by rw [hback, ← hm, List.takeWhile_append_dropWhile]⟩

/-- No slash is left at the end. -/
theorem withoutSlashes_last {path : List Char} (h : withoutSlashes path ≠ []) :
    (withoutSlashes path).getLast h ≠ '/' := by
  have hne : (path.dropWhile (· = '/')).reverse.dropWhile (· = '/') ≠ [] := by
    simpa [withoutSlashes] using h
  have hhead := List.head_dropWhile_not (· = '/') hne
  simpa [withoutSlashes] using hhead

/-- The slashes at the ends of a path are no segments. -/
theorem parts_withoutSlashes (path : List Char) :
    Path.parts (withoutSlashes path) = Path.parts path := by
  obtain ⟨m, n, hpath⟩ := withoutSlashes_spec path
  have hlead : ∀ k s, Path.parts (List.replicate k '/' ++ s) = Path.parts s := by
    intro k s
    induction k with
    | zero => rfl
    | succ k ih => rw [List.replicate_succ, List.cons_append, Path.parts_slash, ih]
  conv_rhs => rw [hpath, hlead, Path.parts_slashes]

/-- `trimPath` takes away slashes and adds at most a dot. -/
theorem forall_trimPath {P : Char → Prop} (hdot : P '.') (hslash : P '/') (path : String) :
    (∀ c ∈ (trimPath path).toList, P c) ↔ ∀ c ∈ path.toList, P c := by
  have hwithout : (∀ c ∈ withoutSlashes path.toList, P c) ↔ ∀ c ∈ path.toList, P c := by
    obtain ⟨m, n, hpath⟩ := withoutSlashes_spec path.toList
    constructor
    · intro h c hc
      rw [hpath] at hc
      simp only [List.mem_append, List.mem_replicate] at hc
      rcases hc with ⟨-, rfl⟩ | hc | ⟨-, rfl⟩
      exacts [hslash, h c hc, hslash]
    · intro h c hc
      refine h c ?_
      rw [hpath]
      exact List.mem_append_right _ (List.mem_append_left _ hc)
  rw [← hwithout, trimPath_toList]
  split
  -- nothing is left, and the dot stands for it
  next h => simp [h, hdot]
  next => exact Iff.rfl

/-- A path is followed part after part. -/
theorem climb_append (path rest : List Path.Segment) :
    Path.climb (path ++ rest) = rest.foldl Path.Climb.enter (Path.climb path) := List.foldl_append

/-- `trimPath` leads to the same place. -/
theorem climb_trimPath (path : String) :
    Path.climb (Path.parts (trimPath path).toList) = Path.climb (Path.parts path.toList) := by
  rw [trimPath_toList]
  split
  next h =>
    rw [← parts_withoutSlashes path.toList, h]
    rfl
  next => rw [parts_withoutSlashes]

/-! ### Directory and name -/

/-- What `trimPath` returns does not end in a slash. -/
theorem trimPath_last (path : String) :
    ∃ front c, (trimPath path).toList = front ++ [c] ∧ c ≠ '/' := by
  rw [trimPath_toList]
  split
  next => exact ⟨[], '.', rfl, by decide⟩
  next h => exact ⟨_, _, (List.dropLast_append_getLast h).symm, withoutSlashes_last h⟩

/-- The base name is a single segment. -/
theorem getBaseName_spec (path : String) :
    (getBaseName path).toList ≠ [] ∧ '/' ∉ (getBaseName path).toList := by
  obtain ⟨front, c, htrim, hc⟩ := trimPath_last path
  have hbase : (getBaseName path).toList =
      ((trimPath path).toList.reverse.takeWhile (· ≠ '/')).reverse := String.toList_ofList
  rw [hbase]
  constructor
  · rw [htrim, List.reverse_append]
    simp [hc]
  · intro h
    have hmem := List.mem_takeWhile_imp (List.mem_reverse.mp h)
    simp at hmem

/-- A path is a base name, or a directory and a base name in it. -/
theorem trimPath_split (path : String) :
    ((trimPath path).toList = (getBaseName path).toList ∧ getDirectoryName path = ".") ∨
      ∃ directory, (trimPath path).toList = directory ++ '/' :: (getBaseName path).toList ∧
        getDirectoryName path = if directory = [] then "." else String.ofList directory := by
  have hbase : (getBaseName path).toList =
      ((trimPath path).toList.reverse.takeWhile (· ≠ '/')).reverse := String.toList_ofList
  have hsplit := List.takeWhile_append_dropWhile (p := (· ≠ '/'))
    (l := (trimPath path).toList.reverse)
  cases hdrop : (trimPath path).toList.reverse.dropWhile (· ≠ '/') with
  -- no slash: the path is its base name
  | nil =>
    left
    rw [hdrop, List.append_nil] at hsplit
    refine ⟨by rw [hbase, hsplit, List.reverse_reverse], ?_⟩
    rw [getDirectoryName]
    simp only [hdrop]
    rfl
  -- the last slash parts the two
  | cons c rest =>
    right
    have hc : c = '/' := by
      have hhead := List.head_dropWhile_not (· ≠ '/') (show _ ≠ [] by rw [hdrop]; simp)
      simp only [hdrop, List.head_cons] at hhead
      simpa using hhead
    rw [hdrop, hc] at hsplit
    refine ⟨rest.reverse, ?_, ?_⟩
    · have h := congrArg List.reverse hsplit.symm
      rw [List.reverse_reverse] at h
      rw [h, hbase, List.reverse_append, List.reverse_cons, List.append_assoc]
      rfl
    · rw [getDirectoryName]
      simp only [hdrop, List.drop_succ_cons, List.drop_zero]

/-- The path of a file, from the two options that name it. -/
theorem climb_file (path : String) :
    Path.climb (Path.parts (trimPath (getDirectoryName path)).toList ++
        Path.parts (getBaseName path).toList) =
      Path.climb (Path.parts path.toList) := by
  obtain ⟨hne, hslash⟩ := getBaseName_spec path
  rw [climb_append, climb_trimPath, ← climb_trimPath path]
  rcases trimPath_split path with ⟨htrim, hdir⟩ | ⟨directory, htrim, hdir⟩
  · rw [hdir, htrim]
    rfl
  · rw [hdir, htrim, Path.parts_append, climb_append]
    split
    next h => rw [h]; rfl
    next => rw [String.toList_ofList]

/-- The directory of a file is the path without its last segment. -/
theorem climb_directory (path : String) :
    Path.climb (Path.parts (trimPath (getDirectoryName path)).toList) =
      Path.climb (Path.parts path.toList).dropLast := by
  obtain ⟨hne, hslash⟩ := getBaseName_spec path
  rw [climb_trimPath]
  by_cases hempty : withoutSlashes path.toList = []
  · -- A path of slashes alone has no segment, and `.` in its stead.
    have hparts : Path.parts path.toList = [] := by rw [← parts_withoutSlashes, hempty]; rfl
    have htrim : trimPath path = "." := by
      rw [← String.toList_inj, trimPath_toList, if_pos hempty]
      rfl
    rw [hparts, getDirectoryName, htrim]
    decide +kernel
  · have hparts : Path.parts path.toList = Path.parts (trimPath path).toList := by
      rw [trimPath_toList, if_neg hempty, parts_withoutSlashes]
    rw [hparts]
    rcases trimPath_split path with ⟨htrim, hdir⟩ | ⟨directory, htrim, hdir⟩
    · rw [hdir, htrim, Path.parts_name hne hslash]
      rfl
    · rw [hdir, htrim, Path.parts_append, Path.parts_name hne hslash, List.dropLast_concat]
      split
      next h => rw [h]; rfl
      next => rw [String.toList_ofList]

/-- The characters of both are those of the path. -/
theorem forall_file {P : Char → Prop} (hdot : P '.') (hslash : P '/') (path : String) :
    ((∀ c ∈ (trimPath (getDirectoryName path)).toList, P c) ∧
        ∀ c ∈ (getBaseName path).toList, P c) ↔ ∀ c ∈ path.toList, P c := by
  rw [forall_trimPath hdot hslash, ← forall_trimPath hdot hslash path]
  rcases trimPath_split path with ⟨htrim, hdir⟩ | ⟨directory, htrim, hdir⟩
  · rw [hdir, htrim]
    simp [hdot]
  · rw [hdir, htrim]
    split
    next h => simp [h, hdot, hslash]
    next => simp [hslash, or_imp, forall_and]

/-! ### Within the words -/

/-- **The script of a `dockerfile` build is read as intended exactly if its
strings have ordinary characters only.** -/
theorem reads_dockerfile_iff (input : CreateBuildJobInput) :
    ((BuildJob.dockerfile input).manifest.script >>= fun script => readProgram script.toList) =
        some (BuildJob.dockerfile input).commands ↔
      (∀ c ∈ input.buildContext.toList, isOrdinary c = true) ∧
        (∀ c ∈ input.dockerfilePath.toList, isOrdinary c = true) ∧
          ∀ c ∈ input.clusterImage.toList, isOrdinary c = true := by
  rw [← forall_trimPath (by decide) (by decide) input.buildContext,
    ← forall_file (by decide) (by decide) input.dockerfilePath]
  obtain ⟨script, hscript, htext⟩ := Option.map_eq_some_iff.mp (buildctl_script input)
  rw [hscript]
  show readProgram script.toList = _ ↔ _
  constructor
  · intro h
    have hword : ∀ w ∈ buildctlWords (inRepository (trimPath input.buildContext))
        (inRepository (trimPath (getDirectoryName input.dockerfilePath)))
        (getBaseName input.dockerfilePath).toList input.clusterImage.toList,
        ∀ c ∈ w, isOrdinary c = true := by
      intro w hw
      refine ordinary_of_sound (readProgram_sound h _ (List.mem_append_right _ ?_))
      rw [call_words]
      exact List.mem_map_of_mem hw
    -- the options with a string of the request in them
    have hcontext := hword ("context=".toList ++ inRepository (trimPath input.buildContext))
      (by simp [buildctlWords])
    have hdirectory := hword ("dockerfile=".toList ++
      inRepository (trimPath (getDirectoryName input.dockerfilePath))) (by simp [buildctlWords])
    have hfile := hword ("filename=".toList ++ (getBaseName input.dockerfilePath).toList)
      (by simp [buildctlWords])
    have himage := hword ("type=image,name=".toList ++ input.clusterImage.toList ++
      ",push=true,registry.insecure=true".toList) (by simp [buildctlWords])
    refine ⟨fun c hc => hcontext c ?_, ⟨fun c hc => hdirectory c ?_, fun c hc => hfile c ?_⟩,
      fun c hc => himage c ?_⟩
    · exact List.mem_append_right _ (List.mem_append_right _ hc)
    · exact List.mem_append_right _ (List.mem_append_right _ hc)
    · exact List.mem_append_right _ hc
    · exact List.mem_append_left _ (List.mem_append_right _ hc)
  · rintro ⟨hcontext, ⟨hdirectory, hfile⟩, himage⟩
    rw [readProgram, htext, lex_buildctl hcontext hdirectory hfile himage]
    exact parse_buildctl _ _ _ _

/-- The same of a `buildpack` build, where two of the strings are words of their own. -/
theorem reads_buildpack_iff (input : CreateBuildpackJobInput) :
    ((BuildJob.buildpack input).manifest.script >>= fun script => readProgram script.toList) =
        some (BuildJob.buildpack input).commands ↔
      (∀ c ∈ input.buildContext.toList, isOrdinary c = true) ∧
        (∀ c ∈ input.insecureRegistry.toList, isOrdinary c = true) ∧
          isArgument input.clusterImage.toList = true ∧
            isArgument input.builderImage.toList = true := by
  rw [← forall_trimPath (by decide) (by decide) input.buildContext]
  obtain ⟨script, hscript, htext⟩ := Option.map_eq_some_iff.mp (pack_script input)
  rw [hscript]
  show readProgram script.toList = _ ↔ _
  constructor
  · intro h
    -- the words are those of a sound reading, and each input stands in one
    have hsound := readProgram_sound h
    have hregistry : Word.Sound (plainWord ("--insecure-registry=".toList ++
        input.insecureRegistry.toList)) := by
      refine hsound _ (List.mem_append_right _ (List.mem_append_left _ (List.mem_append_left _ ?_)))
      exact List.mem_map_of_mem (by simp [dockerdWords])
    have hpack : ∀ w ∈ packWords input.clusterImage.toList
        (inRepository (trimPath input.buildContext)) input.builderImage.toList,
        Word.Sound (plainWord w) := by
      intro w hw
      refine hsound _ (List.mem_append_right _ (List.mem_append_right _ (List.mem_append_right _
        (List.mem_append_right _ (List.mem_append_left _ ?_)))))
      rw [call_words]
      exact List.mem_map_of_mem hw
    refine ⟨fun c hc => ?_, fun c hc => ?_, isArgument_of_sound (hpack _ (by simp [packWords])),
      isArgument_of_sound (hpack _ (by simp [packWords]))⟩
    · exact ordinary_of_sound (hpack (inRepository (trimPath input.buildContext))
        (by simp [packWords])) c (List.mem_append_right _ hc)
    · exact ordinary_of_sound hregistry c (List.mem_append_right _ hc)
  · -- ordinary texts are read as they were written
    rintro ⟨hcontext, hregistry, himage, hbuilder⟩
    rw [readProgram, htext, lex_pack hregistry himage hcontext hbuilder]
    exact parse_pack _ _ _ _

/-! ### Within the repository -/

theorem parts_under (directory path : List Char) :
    Path.parts (directory ++ ['/'] ++ path) = Path.parts directory ++ Path.parts path := by
  rw [List.append_assoc, List.singleton_append, Path.parts_append]

/-- A path in the repository has the segments of the repository before its own. -/
theorem parts_inRepository (path : String) :
    Path.parts (inRepository path) = repository.reverse ++ Path.parts path.toList := by
  have htext : "/workspace/repo/".toList = "/workspace/repo".toList ++ ['/'] := by decide +kernel
  have hparts : Path.parts "/workspace/repo".toList = repository.reverse := by decide +kernel
  calc Path.parts (inRepository path)
      = Path.parts ("/workspace/repo".toList ++ ['/'] ++ path.toList) :=
        congrArg (fun text => Path.parts (text ++ path.toList)) htext
    _ = Path.parts "/workspace/repo".toList ++ Path.parts path.toList := parts_under _ _
    _ = repository.reverse ++ Path.parts path.toList :=
        congrArg (fun segments => segments ++ Path.parts path.toList) hparts

/-- A path that is followed from the repository. -/
theorem below_repository_iff (path : List Path.Segment) :
    repository <:+ Path.resolve [] (repository.reverse ++ path) ↔
      (Path.climb path).Returns repository := by
  have hresolve : Path.resolve [] (repository.reverse ++ path) = Path.resolve repository path :=
    List.foldl_append
  rw [hresolve, Path.resolve_below_iff]

/-- A path of a request does not leave the repository for good. -/
def StaysInside (path : List Path.Segment) : Prop := (Path.climb path).Returns repository

instance (path : List Path.Segment) : Decidable (StaysInside path) :=
  inferInstanceAs (Decidable ((Path.climb path).Returns repository))

/-- The context lies in the repository exactly if its path stays inside. -/
theorem context_below_iff (path : String) :
    repository <:+ Path.resolve [] (Path.parts (inRepository (trimPath path))) ↔
      StaysInside (Path.parts path.toList) := by
  rw [parts_inRepository, below_repository_iff, climb_trimPath, StaysInside]

/-- So does the directory of the Dockerfile, -/
theorem directory_below_iff (path : String) :
    repository <:+ Path.resolve []
        (Path.parts (inRepository (trimPath (getDirectoryName path)))) ↔
      StaysInside (Path.parts path.toList).dropLast := by
  rw [parts_inRepository, below_repository_iff, climb_directory, StaysInside]

/-- and the Dockerfile itself. -/
theorem file_below_iff (path : String) :
    repository <:+ Path.resolve [] (Path.parts
        (inRepository (trimPath (getDirectoryName path)) ++ '/' :: (getBaseName path).toList)) ↔
      StaysInside (Path.parts path.toList) := by
  rw [Path.parts_append, parts_inRepository, List.append_assoc, below_repository_iff, climb_file,
    StaysInside]

/-- What the script of a Dockerfile build needs of its strings. -/
theorem contained_dockerfile_iff (input : CreateBuildJobInput) :
    (BuildJob.dockerfile input).Contained ↔
      ((∀ c ∈ input.buildContext.toList, isOrdinary c = true) ∧
        (∀ c ∈ input.dockerfilePath.toList, isOrdinary c = true) ∧
          ∀ c ∈ input.clusterImage.toList, isOrdinary c = true) ∧
        StaysInside (Path.parts input.buildContext.toList) ∧
          StaysInside (Path.parts input.dockerfilePath.toList).dropLast ∧
            StaysInside (Path.parts input.dockerfilePath.toList) := by
  rw [BuildJob.Contained, reads_dockerfile_iff, BuildJob.localPaths, List.forall_mem_cons,
    List.forall_mem_cons, List.forall_mem_singleton, context_below_iff, directory_below_iff,
    file_below_iff]

/-- What the script of a buildpack build needs; the builder and the image stand alone as
arguments. -/
theorem contained_buildpack_iff (input : CreateBuildpackJobInput) :
    (BuildJob.buildpack input).Contained ↔
      ((∀ c ∈ input.buildContext.toList, isOrdinary c = true) ∧
        (∀ c ∈ input.insecureRegistry.toList, isOrdinary c = true) ∧
          isArgument input.clusterImage.toList = true ∧
            isArgument input.builderImage.toList = true) ∧
        StaysInside (Path.parts input.buildContext.toList) := by
  rw [BuildJob.Contained, reads_buildpack_iff, BuildJob.localPaths, List.forall_mem_singleton,
    context_below_iff]

/-! ### Image names -/

theorem isOrdinary_of_isRepositoryChar {c : Char} (h : isRepositoryChar c = true) :
    isOrdinary c = true := by
  have hlt : c.toNat < 128 := by
    simp only [isRepositoryChar, isDnsChar, Bool.or_eq_true, decide_eq_true_eq] at h
    rcases h with ((((h | h) | rfl) | rfl) | rfl)
    · exact toNat_lt_of_isAlphanum (by simp [isAlphanum_eq, h])
    · exact toNat_lt_of_isAlphanum (by simp [isAlphanum_eq, h])
    all_goals decide
  exact forall_ascii (P := fun c => isRepositoryChar c = true → isOrdinary c = true)
    (by decide +kernel) hlt h

/-- Whatever the name of the app, only such characters are left of it. -/
theorem isRepositoryChar_of_mem {appName : String} :
    ∀ c ∈ toImageRepository appName, isRepositoryChar c = true := by
  intro c hc
  rw [toImageRepository] at hc
  split at hc
  · have happ : ∀ c ∈ "app".toList, isRepositoryChar c = true := forall_mem_of_all (by decide)
    exact happ c hc
  · have hmem := mem_trimDashes (mem_collapseDashes (List.mem_of_mem_take hc))
    obtain ⟨d, -, rfl⟩ := List.mem_map.mp hmem
    split
    · assumption
    · rfl

theorem mem_intercalate {sep : List Char} {groups : List (List Char)} {c : Char}
    (h : c ∈ sep.intercalate groups) : c ∈ sep ∨ ∃ group ∈ groups, c ∈ group := by
  induction groups with
  | nil => simp at h
  | cons group groups ih =>
    cases groups with
    | nil => exact .inr ⟨group, List.mem_cons_self, by simpa using h⟩
    | cons group' groups =>
      rw [List.intercalate_cons_cons, List.mem_append, List.mem_append] at h
      rcases h with (h | h) | h
      · exact .inr ⟨group, List.mem_cons_self, h⟩
      · exact .inl h
      · rcases ih h with h | ⟨g, hg, hc⟩
        · exact .inl h
        · exact .inr ⟨g, List.mem_cons_of_mem _ hg, hc⟩

/-- An id has digits, letters and dashes. -/
theorem DeploymentId.ordinary (id : DeploymentId) : ∀ c ∈ id.text.toList, isOrdinary c = true := by
  intro c hc
  have hjoin : ['-'].intercalate (id.text.toList.splitOn '-') = id.text.toList :=
    List.intercalate_splitOn _
  rw [← hjoin] at hc
  rcases mem_intercalate hc with hc | ⟨group, hgroup, hc⟩
  · rw [List.mem_singleton.mp hc]
    decide
  · have hhex := id.digits group hgroup c hc
    exact forall_ascii (P := fun c => isHexDigit c = true → isOrdinary c = true)
      (by decide +kernel) (isHexDigit_lt hhex) hhex

/-- What comes after the address of the registry. -/
def imageTail (appName : String) (buildId : DeploymentId) : List Char :=
  toImageRepository appName ++ ':' :: buildId.text.toList

/-- The app's name and the build's id bring nothing that the shell takes for more than
itself. -/
theorem imageTail_ordinary (appName : String) (buildId : DeploymentId) :
    ∀ c ∈ imageTail appName buildId, isOrdinary c = true := by
  intro c hc
  rcases List.mem_append.mp hc with hc | hc
  · exact isOrdinary_of_isRepositoryChar (isRepositoryChar_of_mem c hc)
  · rcases List.mem_cons.mp hc with rfl | hc
    · decide
    · exact buildId.ordinary c hc

/-- Ordinary characters make no difference at the end of an argument. -/
theorem isArgument_append {text more : List Char} (hne : text ≠ [])
    (hmore : ∀ c ∈ more, isOrdinary c = true) : isArgument (text ++ more) = isArgument text := by
  cases text with
  | nil => contradiction
  | cons c text =>
    have hall : more.all isOrdinary = true := List.all_eq_true.mpr hmore
    simp [isArgument, hall]

/-! ### The inputs of a build -/

theorem clusterImage_toList (config : RegistryConfig) (appName : String) (buildId : DeploymentId) :
    (clusterImageOf config appName buildId).toList =
      (registryOf config).toList ++ ['/'] ++ imageTail appName buildId := by
  simp [clusterImageOf, imageTail]

/-- Every string is put into the script as itself, and every path stays in the repository. -/
def InputsContained (config : RegistryConfig) (app : SourceApp) (dto : CreateBuildDto) : Prop :=
  (∀ c ∈ (buildContextOf app dto).toList, isOrdinary c = true) ∧
    StaysInside (Path.parts (buildContextOf app dto).toList) ∧
      match strategyOf dto with
      | .dockerfile =>
        (∀ c ∈ (registryOf config).toList, isOrdinary c = true) ∧
          (∀ c ∈ (dockerfilePathOf app dto).toList, isOrdinary c = true) ∧
            StaysInside (Path.parts (dockerfilePathOf app dto).toList).dropLast ∧
              StaysInside (Path.parts (dockerfilePathOf app dto).toList)
      | .buildpack =>
        isArgument ((registryOf config).toList ++ ['/']) = true ∧
          isArgument (builderOf config).toList = true

/-- The address of the registry is all that matters of the image. -/
theorem clusterImage_ordinary_iff (config : RegistryConfig) (appName : String)
    (buildId : DeploymentId) :
    (∀ c ∈ (clusterImageOf config appName buildId).toList, isOrdinary c = true) ↔
      ∀ c ∈ (registryOf config).toList, isOrdinary c = true := by
  rw [clusterImage_toList]
  constructor
  · exact fun h c hc => h c (List.mem_append_left _ (List.mem_append_left _ hc))
  · intro h c hc
    rcases List.mem_append.mp hc with hc | hc
    · rcases List.mem_append.mp hc with hc | hc
      · exact h c hc
      · rw [List.mem_singleton.mp hc]
        decide
    · exact imageTail_ordinary appName buildId c hc

theorem clusterImage_argument (config : RegistryConfig) (appName : String)
    (buildId : DeploymentId) :
    isArgument (clusterImageOf config appName buildId).toList =
      isArgument ((registryOf config).toList ++ ['/']) := by
  rw [clusterImage_toList]
  exact isArgument_append (by simp) (imageTail_ordinary appName buildId)

/-- The characters of an argument are ordinary. -/
theorem argument_ordinary {text more : List Char} (h : isArgument (text ++ more) = true) :
    ∀ c ∈ text, isOrdinary c = true := by
  intro c hc
  cases text with
  | nil => cases hc
  | cons d text =>
    simp only [List.cons_append, isArgument, Bool.and_eq_true, List.all_eq_true] at h
    rcases List.mem_cons.mp hc with rfl | hc
    · exact beginsWord_ordinary h.1
    · exact h.2 c (List.mem_append_left _ hc)

/-- The Job of a build with a repository. -/
theorem jobFor_contained_iff (config : RegistryConfig) (app : SourceApp)
    (createBuildDto : CreateBuildDto) (workspaceId «namespace» : String) (buildId : DeploymentId)
    (repoUrl : String) :
    (jobFor config app createBuildDto workspaceId «namespace» buildId repoUrl).Contained ↔
      InputsContained config app createBuildDto := by
  rw [jobFor, InputsContained]
  cases strategyOf createBuildDto with
  -- in a list of options the image is a part of a word
  | dockerfile =>
    rw [contained_dockerfile_iff, clusterImage_ordinary_iff]
    tauto
  -- here it is a word, which may not begin a comment or a home directory
  | buildpack =>
    rw [contained_buildpack_iff, clusterImage_argument]
    constructor
    · rintro ⟨⟨hcontext, -, himage, hbuilder⟩, hinside⟩
      exact ⟨hcontext, hinside, himage, hbuilder⟩
    · rintro ⟨hcontext, hinside, himage, hbuilder⟩
      exact ⟨⟨hcontext, argument_ordinary himage, himage, hbuilder⟩, hinside⟩

/-- **A build keeps its strings where they belong exactly if its inputs do.** -/
theorem build_inputs_contained_iff (config : RegistryConfig) (app : SourceApp)
    (createBuildDto : CreateBuildDto) (workspaceId «namespace» : String) (buildId : DeploymentId) :
    (∀ job, createdJob config app createBuildDto workspaceId «namespace» buildId = .ok job →
        job.Contained) ↔
      (app.sourceType = .git → (truthy app.repoUrl).isSome = true →
        InputsContained config app createBuildDto) := by
  rw [createdJob]
  cases app.sourceType with
  -- an app that is an image is not built
  | image => simp
  | git =>
    cases truthy app.repoUrl with
    -- nor one without a repository
    | none => simp
    | some repoUrl =>
      simpa using jobFor_contained_iff config app createBuildDto workspaceId «namespace» buildId repoUrl

/-! ### A context that ends its command -/

def shopApp : SourceApp where
  id := "app-1"
  name := "shop"
  sourceType := .git
  repoUrl := some "https://git.example/shop"
  branch := none
  buildContext := none
  dockerfilePath := none

def defaultRegistry : RegistryConfig := ⟨none, none, none⟩

def shopBuildId : DeploymentId where
  text := "3f2a77c1-3a45-4b8a-9c1d-2f0e5a6b7c8d"
  groups := by decide
  digits := forall_mem_mem_of_all (by decide)

/-- The request's context ends the call of `buildctl` and empties the machine. -/
def hostileContext : CreateBuildDto := ⟨none, none, some "; rm -rf / #", none⟩

/-- The context of a request can hold commands of its own. -/
theorem build_context_runs_commands :
    ¬∀ (config : RegistryConfig) (app : SourceApp) (createBuildDto : CreateBuildDto)
      (workspaceId «namespace» : String) (buildId : DeploymentId) (job : BuildJob),
      createdJob config app createBuildDto workspaceId «namespace» buildId = .ok job →
        job.Contained := by
  intro h
  have hjob := h defaultRegistry shopApp hostileContext "ws-1" "ws-1" shopBuildId _ rfl
  have hreads := ((jobFor_contained_iff defaultRegistry shopApp hostileContext "ws-1" "ws-1"
    shopBuildId "https://git.example/shop").mp hjob).1
  have hblank := hreads ' ' (by decide)
  cases hblank

end NexCause
