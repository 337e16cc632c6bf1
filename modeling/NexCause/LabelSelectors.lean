/-
NexCause/LabelSelectors.lean

Which pods does a selector pick out?  Four selectors are built for a deployment:
`matchLabels` of its Deployment, the `selector` of its Service, the text of
`toLabelSelector` with which the deployment manager lists its pods, and the one
with which the evidence server lists them (`adapters/kubernetes.go`).

Each of them picks all pods that the Deployment's manifest makes, routed or not,
and no pod of another deployment or of a build Job (`selectors_pick_out_deployment`).
The first two are sets of labels, the other two texts that the API server reads
with `parseSelector`.
-/
import NexCause.BuildJobs

namespace NexCause

/-! ### Selectors of Kubernetes -/

/-- The pod has every label of the selector. -/
def matchesLabels (selector labels : Entries) : Bool :=
  selector.all fun label => labels.lookup label.1 = some label.2

/-- The value of a label: at most 63 characters, letters and digits at both
ends, and between them also `-`, `_` and `.`. -/
def isLabelValue (value : List Char) : Bool :=
  value.length ≤ 63 && value.all (fun c => c.isAlphanum || c = '-' || c = '_' || c = '.') &&
    value.head?.all Char.isAlphanum && value.getLast?.all Char.isAlphanum

/-- The API server admits an object only with values like that. -/
def admitted (labels : Entries) : Bool := labels.all fun label => isLabelValue label.2.toList

/-- One requirement of a selector, `key=value`. -/
def parseRequirement (text : List Char) : Option (String × String) :=
  match text.splitOn '=' with
  | [key, value] => if isLabelValue value then some (String.ofList key, String.ofList value) else none
  | _ => none

/-- A selector as the API server reads it: requirements with commas between
them.  Of the other forms of a requirement the services use none. -/
def parseSelector (text : List Char) : Option Entries := (text.splitOn ',').mapM parseRequirement

/-- Select by a text; one that cannot be read selects nothing. -/
def matchesSelector (text : List Char) (labels : Entries) : Bool :=
  (parseSelector text).any fun selector => matchesLabels selector labels

/-- The labels of a pod that a Deployment makes, with the one that its
controller adds. -/
def DeploymentSpec.podLabels (spec : DeploymentSpec) (templateHash : String) : Entries :=
  Entries.set spec.templateLabels "pod-template-hash" templateHash

/-- The labels of a pod that a Job makes, with those that its controller adds. -/
def JobSpec.podLabels (spec : JobSpec) (uid jobName : String) : Entries :=
  Entries.merge spec.templateLabels
    [("batch.kubernetes.io/controller-uid", uid), ("batch.kubernetes.io/job-name", jobName),
     ("controller-uid", uid), ("job-name", jobName)]

/-! ### Lookup in labels -/

theorem lookup_cons_ite (es : Entries) (k v k' : String) :
    List.lookup k' ((k, v) :: es) = if k' = k then some v else List.lookup k' es := by
  by_cases h : k' = k
  · simp [h]
  · have hbeq : (k' == k) = false := beq_false_of_ne h
    simp [List.lookup_cons, hbeq, h]

/-- Replacing a value where its key is. -/
theorem lookup_replace (es : Entries) (k v k' : String) :
    List.lookup k' (es.map fun e => if e.1 = k then (k, v) else e) =
      if k' = k then (List.lookup k' es).map fun _ => v else List.lookup k' es := by
  induction es with
  | nil => simp
  | cons e es ih =>
    obtain ⟨key, value⟩ := e
    rw [List.map_cons, lookup_cons_ite]
    by_cases hkey : key = k
    · subst hkey
      rw [if_pos rfl, lookup_cons_ite, ih]
      by_cases hk' : k' = key <;> simp [hk']
    · rw [if_neg hkey, lookup_cons_ite, ih]
      by_cases hk' : k' = key
      · simp [hk', hkey]
      · simp [hk']

/-- What a label is after that one, or another, has been set. -/
theorem lookup_set (es : Entries) (k v k' : String) :
    List.lookup k' (Entries.set es k v) = if k' = k then some v else List.lookup k' es := by
  have hany : es.any (fun e => e.1 = k) = (List.lookup k es).isSome := by
    rw [Bool.eq_iff_iff, List.any_eq_true, List.lookup_isSome_iff]
    simp only [decide_eq_true_eq, beq_iff_eq]
    exact exists_congr fun e => and_congr_right fun _ => eq_comm
  unfold Entries.set
  rw [hany]
  by_cases hk' : k' = k
  · subst hk'
    cases hlookup : List.lookup k' es with
    | some value => simp [lookup_replace, hlookup]
    | none => simp [List.lookup_append, hlookup]
  · have hbeq : (k' == k) = false := beq_false_of_ne hk'
    split
    · rw [lookup_replace, if_neg hk']
    · simp [List.lookup_append, List.lookup_cons, hbeq]

/-- The pod has a label of the selector. -/
theorem matchesLabels_iff {selector labels : Entries} :
    matchesLabels selector labels = true ↔ ∀ k v, (k, v) ∈ selector → labels.lookup k = some v := by
  simp [matchesLabels]

/-! ### Selectors as texts -/

/-- Neither a comma nor an equals sign is in the text. -/
def Plain (text : String) : Prop := ',' ∉ text.toList ∧ '=' ∉ text.toList

instance (text : String) : Decidable (Plain text) := by unfold Plain; infer_instance

/-- `toLabelSelector` -/
def toLabelSelector (labels : Entries) : List Char :=
  [','].intercalate (labels.map fun label => label.1.toList ++ '=' :: label.2.toList)

/-- The selector of `KubernetesAdapter.Pods`, before it is escaped for the URL. -/
def KubernetesAdapter.podSelector (appID deploymentID : String) : List Char :=
  "app.kubernetes.io/managed-by".toList ++ '=' :: "deployment-manager-service".toList ++
    ',' :: "rca-platform/app-id".toList ++ '=' :: appID.toList ++
    ',' :: "rca-platform/deployment-id".toList ++ '=' :: deploymentID.toList

theorem KubernetesAdapter.podSelector_eq (appID deploymentID : String) :
    KubernetesAdapter.podSelector appID deploymentID =
      toLabelSelector [("app.kubernetes.io/managed-by", "deployment-manager-service"),
        ("rca-platform/app-id", appID), ("rca-platform/deployment-id", deploymentID)] := by
  unfold KubernetesAdapter.podSelector toLabelSelector
  generalize "app.kubernetes.io/managed-by" = managedBy, "deployment-manager-service" = manager,
    "rca-platform/app-id" = appKey, "rca-platform/deployment-id" = deploymentKey
  simp [List.intercalate]

theorem parseRequirement_plain {k v : String} (hk : Plain k) (hv : Plain v) :
    parseRequirement (k.toList ++ '=' :: v.toList) =
      if isLabelValue v.toList then some (k, v) else none := by
  have hpieces : ∀ piece ∈ [k.toList, v.toList], '=' ∉ piece := by
    intro piece hpiece
    rcases List.mem_pair.mp hpiece with rfl | rfl
    · exact hk.2
    · exact hv.2
  have hsplit : (k.toList ++ '=' :: v.toList).splitOn '=' = [k.toList, v.toList] := by
    have h := List.splitOn_intercalate '=' hpieces (List.cons_ne_nil _ _)
    simpa [List.intercalate] using h
  rw [parseRequirement, hsplit]
  simp

/-- The API server reads the text of labels as those labels, if their values
are admitted. -/
theorem parseSelector_toLabelSelector {labels : Entries} (hne : labels ≠ [])
    (hplain : ∀ label ∈ labels, Plain label.1 ∧ Plain label.2) :
    parseSelector (toLabelSelector labels) = if admitted labels then some labels else none := by
  have hpieces : ∀ piece ∈ labels.map fun label => label.1.toList ++ '=' :: label.2.toList,
      ',' ∉ piece := by
    intro piece hpiece
    obtain ⟨label, hlabel, rfl⟩ := List.mem_map.mp hpiece
    obtain ⟨hk, hv⟩ := hplain label hlabel
    simp [hk.1, hv.1]
  have hmap : labels.map (fun label => label.1.toList ++ '=' :: label.2.toList) ≠ [] := by
    simpa using hne
  rw [parseSelector, toLabelSelector, List.splitOn_intercalate _ hpieces hmap]
  clear hne hpieces hmap
  induction labels with
  | nil => rfl
  | cons label labels ih =>
    obtain ⟨hk, hv⟩ := hplain label List.mem_cons_self
    have hrest := ih fun l hl => hplain l (List.mem_cons_of_mem _ hl)
    rw [List.map_cons, List.mapM_cons, parseRequirement_plain hk hv, hrest]
    show _ = if (isLabelValue label.2.toList && admitted labels) = true then _ else _
    cases isLabelValue label.2.toList <;> cases admitted labels <;> rfl

/-- What the text of labels selects. -/
theorem matchesSelector_toLabelSelector {selector : Entries} (hne : selector ≠ [])
    (hplain : ∀ label ∈ selector, Plain label.1 ∧ Plain label.2) (labels : Entries) :
    matchesSelector (toLabelSelector selector) labels =
      (admitted selector && matchesLabels selector labels) := by
  rw [matchesSelector, parseSelector_toLabelSelector hne hplain]
  cases admitted selector <;> rfl

/-! ### The pods of a manifest -/

/-- A pod with these labels can come from the manifest: its controller makes
it, and the API server admits it. -/
inductive MakesPod : Manifest → Entries → Prop
  | deployment {labels : Entries} {spec : DeploymentSpec} (templateHash : String)
      (h : admitted (spec.podLabels templateHash) = true) :
      MakesPod (.deployment labels spec) (spec.podLabels templateHash)
  | job {labels : Entries} {spec : JobSpec} (uid jobName : String)
      (h : admitted (spec.podLabels uid jobName) = true) :
      MakesPod (.job labels spec) (spec.podLabels uid jobName)

/-- The labels that a Deployment or a Service selects by. -/
def Manifest.podSelector : Manifest → Option Entries
  | .deployment _ spec => some spec.matchLabels
  | .service _ spec => some spec.selector
  | _ => none

theorem MakesPod.admitted {manifest : Manifest} {pod : Entries} (h : MakesPod manifest pod) :
    admitted pod = true := by
  cases h with
  | deployment templateHash h => exact h
  | job uid jobName h => exact h

/-- A deployment with the labels of its ids, as `create` hands it over. -/
structure ManagedDeployment where
  workspaceId : String
  appId : String
  id : String
  input : DeployImageInput
  labels : input.labels = buildManagedLabels workspaceId appId id

/-- A Job of `createBuildJob` or of `createBuildpackJob`. -/
inductive IsBuildJob : Manifest → Prop
  | dockerfile {input : CreateBuildJobInput} {workspaceId appId buildId : String}
      (h : input.labels = buildJobLabels workspaceId appId buildId) :
      IsBuildJob (buildBuildJobManifest input)
  | buildpack {input : CreateBuildpackJobInput} {workspaceId appId buildId : String}
      (h : input.labels = buildJobLabels workspaceId appId buildId) :
      IsBuildJob (buildBuildpackJobManifest input)

/-- What the labels of a pod of the deployment are. -/
theorem ManagedDeployment.pod_lookup (d : ManagedDeployment) {pod : Entries}
    (h : MakesPod (deploymentManifest d.input) pod) :
    ∃ templateHash, ∀ k, pod.lookup k =
      if k = "pod-template-hash" then some templateHash
      else if d.input.routing.isSome = true ∧ k = PUBLIC_APPLICATION_LABEL then some "true"
      else (buildManagedLabels d.workspaceId d.appId d.id).lookup k := by
  generalize hmanifest : deploymentManifest d.input = manifest at h
  cases h with
  | job uid jobName h => cases hmanifest
  | deployment templateHash h =>
    obtain ⟨-, rfl⟩ := Manifest.deployment.inj hmanifest
    refine ⟨templateHash, fun k => ?_⟩
    rw [DeploymentSpec.podLabels, lookup_set]
    congr 1
    show List.lookup k (buildApplicationPodLabels d.input.labels d.input.routing.isSome) = _
    rw [d.labels, buildApplicationPodLabels]
    cases d.input.routing with
    | none => simp
    | some routing => simp [lookup_set]

/-- A pod of a build Job has no label with the id of a deployment. -/
theorem buildJob_pod_lookup {manifest : Manifest} {pod : Entries} (hjob : IsBuildJob manifest)
    (h : MakesPod manifest pod) : pod.lookup "rca-platform/deployment-id" = none := by
  have hlabels : ∀ (workspaceId appId buildId uid jobName : String),
      List.lookup "rca-platform/deployment-id"
        (Entries.merge (buildJobLabels workspaceId appId buildId)
          [("batch.kubernetes.io/controller-uid", uid), ("batch.kubernetes.io/job-name", jobName),
           ("controller-uid", uid), ("job-name", jobName)]) = none := by
    intro workspaceId appId buildId uid jobName
    simp [Entries.merge, lookup_set, buildJobLabels]
  generalize hpod : pod = labels at h
  cases hjob with
  | dockerfile hinput =>
    cases h with
    | job uid jobName h =>
      rw [JobSpec.podLabels, hinput]
      exact hlabels _ _ _ _ _
  | buildpack hinput =>
    cases h with
    | job uid jobName h =>
      rw [JobSpec.podLabels, hinput]
      exact hlabels _ _ _ _ _

/-! ### The four selectors -/

inductive DeploymentSelector
  | matchLabels
  | service
  | listDeploymentPods
  | adapterPods
  deriving DecidableEq, Repr

/-- The API server reads the selector from a text. -/
def DeploymentSelector.IsText : DeploymentSelector → Prop
  | .matchLabels => False
  | .service => False
  | .listDeploymentPods => True
  | .adapterPods => True

/-- The selector picks a pod with these labels. -/
def ManagedDeployment.selects (d : ManagedDeployment) (pod : Entries) : DeploymentSelector → Bool
  | .matchLabels => (deploymentManifest d.input).podSelector.any (matchesLabels · pod)
  | .service =>
      (buildServiceManifest d.input.labels d.input.port ⟨none, none, none, none⟩).podSelector.any
        (matchesLabels · pod)
  | .listDeploymentPods =>
      matchesSelector (toLabelSelector (buildManagedLabels d.workspaceId d.appId d.id)) pod
  | .adapterPods => matchesSelector (KubernetesAdapter.podSelector d.appId d.id) pod

/-- The labels that a selector asks for. -/
def ManagedDeployment.requires (d : ManagedDeployment) : DeploymentSelector → Entries
  | .matchLabels => buildApplicationPodLabels d.input.labels d.input.routing.isSome
  | .service => d.input.labels
  | .listDeploymentPods => buildManagedLabels d.workspaceId d.appId d.id
  | .adapterPods =>
      [("app.kubernetes.io/managed-by", "deployment-manager-service"),
        ("rca-platform/app-id", d.appId), ("rca-platform/deployment-id", d.id)]

section Requires

variable {d : ManagedDeployment} {pod : Entries}

theorem ManagedDeployment.selects_eq_true_iff (hworkspace : Plain d.workspaceId)
    (happ : Plain d.appId) (hid : Plain d.id) (s : DeploymentSelector) :
    d.selects pod s = true ↔
      (s.IsText → admitted (d.requires s) = true) ∧ matchesLabels (d.requires s) pod = true := by
  have hconstants : Plain "app.kubernetes.io/managed-by" ∧ Plain "deployment-manager-service" ∧
      Plain "rca-platform/workspace-id" ∧ Plain "rca-platform/app-id" ∧
      Plain "rca-platform/deployment-id" := by decide
  obtain ⟨hmanagedBy, hmanager, hworkspaceKey, happKey, hidKey⟩ := hconstants
  cases s with
  | matchLabels => exact (and_iff_right (fun h => h.elim)).symm
  | service => exact (and_iff_right (fun h => h.elim)).symm
  | listDeploymentPods =>
    have hplain : ∀ label ∈ buildManagedLabels d.workspaceId d.appId d.id,
        Plain label.1 ∧ Plain label.2 := by
      simp [buildManagedLabels, *]
    have hne : buildManagedLabels d.workspaceId d.appId d.id ≠ [] := List.cons_ne_nil _ _
    show matchesSelector _ pod = true ↔ _
    rw [matchesSelector_toLabelSelector hne hplain, Bool.and_eq_true]
    exact and_congr_left' ⟨fun h _ => h, fun h => h trivial⟩
  | adapterPods =>
    have hplain : ∀ label ∈ d.requires .adapterPods, Plain label.1 ∧ Plain label.2 := by
      simp [ManagedDeployment.requires, *]
    show matchesSelector _ pod = true ↔ _
    rw [KubernetesAdapter.podSelector_eq,
      matchesSelector_toLabelSelector (List.cons_ne_nil _ _) hplain, Bool.and_eq_true]
    exact and_congr_left' ⟨fun h _ => h, fun h => h trivial⟩

/-- Every selector asks for the id of the deployment. -/
theorem ManagedDeployment.id_mem_requires (s : DeploymentSelector) :
    ("rca-platform/deployment-id", d.id) ∈ d.requires s := by
  have hid : ("rca-platform/deployment-id", d.id) ∈ buildManagedLabels d.workspaceId d.appId d.id := by
    simp [buildManagedLabels]
  cases s with
  | matchLabels =>
    show _ ∈ buildApplicationPodLabels d.input.labels d.input.routing.isSome
    rw [d.labels, buildApplicationPodLabels]
    split
    · -- the label that is set is another one
      simp [Entries.set, buildManagedLabels, PUBLIC_APPLICATION_LABEL]
    · exact hid
  | service =>
    show _ ∈ d.input.labels
    rw [d.labels]
    exact hid
  | listDeploymentPods => exact hid
  | adapterPods => simp [requires]

/-- The pods of the deployment have whatever a selector asks for. -/
theorem ManagedDeployment.requires_of_pod (hpod : MakesPod (deploymentManifest d.input) pod)
    (s : DeploymentSelector) : matchesLabels (d.requires s) pod = true := by
  obtain ⟨templateHash, hlookup⟩ := d.pod_lookup hpod
  have hmanaged : matchesLabels (buildManagedLabels d.workspaceId d.appId d.id) pod = true := by
    simp [matchesLabels, buildManagedLabels, hlookup, lookup_cons_ite, PUBLIC_APPLICATION_LABEL]
  cases s with
  | service =>
    show matchesLabels d.input.labels pod = true
    rw [d.labels]
    exact hmanaged
  | listDeploymentPods => exact hmanaged
  | adapterPods =>
    simp [matchesLabels, requires, buildManagedLabels, hlookup, lookup_cons_ite,
      PUBLIC_APPLICATION_LABEL]
  | matchLabels =>
    show matchesLabels (buildApplicationPodLabels d.input.labels d.input.routing.isSome) pod = true
    rw [d.labels, buildApplicationPodLabels]
    split
    · rename_i hrouted
      simp [matchesLabels, Entries.set, buildManagedLabels, hlookup, hrouted, lookup_cons_ite,
        PUBLIC_APPLICATION_LABEL]
    · exact hmanaged

/-- The labels that such a pod has are admitted. -/
theorem admitted_of_matches {selector : Entries} (hpod : admitted pod = true)
    (hmatches : matchesLabels selector pod = true) : admitted selector = true := by
  apply List.all_eq_true.mpr
  intro label hlabel
  have hlookup := matchesLabels_iff.mp hmatches label.1 label.2 hlabel
  obtain ⟨before, after, rfl, -⟩ := List.lookup_eq_some_iff.mp hlookup
  exact List.all_eq_true.mp hpod label (List.mem_append_right _ List.mem_cons_self)

end Requires

/-- **Selectors.**  Each of the four selectors built for a deployment picks
every pod that its Deployment makes, no pod of a deployment with another id,
and no pod of a build Job. -/
theorem selectors_pick_out_deployment (first second : ManagedDeployment) (hne : first.id ≠ second.id)
    (hworkspace : Plain first.workspaceId) (happ : Plain first.appId) (hid : Plain first.id)
    (s : DeploymentSelector) :
    (∀ pod, MakesPod (deploymentManifest first.input) pod → first.selects pod s = true) ∧
    (∀ pod, MakesPod (deploymentManifest second.input) pod → first.selects pod s = false) ∧
    ∀ job pod, IsBuildJob job → MakesPod job pod → first.selects pod s = false := by
  have hiff : ∀ pod : Entries, first.selects pod s = true ↔
      (s.IsText → admitted (first.requires s) = true) ∧
        matchesLabels (first.requires s) pod = true := fun _ =>
    ManagedDeployment.selects_eq_true_iff hworkspace happ hid s
  have hother : ∀ pod : Entries, pod.lookup "rca-platform/deployment-id" ≠ some first.id →
      first.selects pod s = false := by
    intro pod hlookup
    rw [Bool.eq_false_iff, Ne, hiff]
    exact fun h => hlookup (matchesLabels_iff.mp h.2 _ _ (ManagedDeployment.id_mem_requires s))
  refine ⟨fun pod hpod => ?_, fun pod hpod => hother pod ?_, fun job pod hjob hpod => hother pod ?_⟩
  · have hmatches := ManagedDeployment.requires_of_pod hpod s
    exact (hiff pod).mpr ⟨fun _ => admitted_of_matches hpod.admitted hmatches, hmatches⟩
  · obtain ⟨templateHash, hlookup⟩ := second.pod_lookup hpod
    rw [hlookup]
    simpa [buildManagedLabels, lookup_cons_ite, PUBLIC_APPLICATION_LABEL] using Ne.symm hne
  · rw [buildJob_pod_lookup hjob hpod]
    simp

/-- A deployment of the app `shop`, with a public address. -/
def shopDeployment (id : String) : ManagedDeployment where
  workspaceId := "workspace-1"
  appId := "app-1"
  id := id
  input :=
    { «namespace» := "rca-w-1"
      names := buildResourceNames "shop" id
      image := "registry/shop:1"
      port := 8080
      replicas := 2
      env := []
      secrets := []
      files := ⟨[], []⟩
      secretFiles := ⟨[], []⟩
      labels := buildManagedLabels "workspace-1" "app-1" id
      routing := some ⟨"shop.example.org", "gateway", "gateways", "access", "allowed"⟩ }
  labels := rfl

/-- Two deployments whose objects have the same names, and one selector. -/
theorem selectors_tell_same_names_apart :
    ((shopDeployment "0a1b2c3d-1").selects
      ((deploymentManifest (shopDeployment "0a1b2c3d-1").input).podSelector.getD [] ++
        [("pod-template-hash", "5d8f7c")]) .adapterPods = true) ∧
    (shopDeployment "0a1b2c3d-1").selects
      ((deploymentManifest (shopDeployment "0a1b2c3d-2").input).podSelector.getD [] ++
        [("pod-template-hash", "5d8f7c")]) .adapterPods = false := by
  have hselects := selectors_pick_out_deployment (shopDeployment "0a1b2c3d-1")
    (shopDeployment "0a1b2c3d-2") (by decide) (by decide) (by decide) (by decide) .adapterPods
  constructor
  · exact hselects.1 _ (MakesPod.deployment "5d8f7c" (by decide))
  · exact hselects.2.1 _ (MakesPod.deployment "5d8f7c" (by decide))

end NexCause
