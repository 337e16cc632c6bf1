/-
NexCause/ResourceNames.lean

Do two deployments of a workspace share objects?  The objects of a deployment
go by names that `buildResourceNames` builds from a base: the app's segment, a
hyphen and the first eight characters of the id.  The suffixes keep the objects
of one kind apart, and the last eight characters of a base are those of the id,
so two bases are the same exactly if both of their segments are.

Main result: no call of a deployment or of its deletion is on an object of
another deployment, unless the two have the same segments; then they have the
same objects (`separate_iff`).
-/
import NexCause.DeleteRetry
import NexCause.EventAttribution

namespace NexCause

open Program

/-! ### Ids -/

def isHexDigit (c : Char) : Bool := c.isDigit || ('a' ≤ c && c ≤ 'f') || ('A' ≤ c && c ≤ 'F')

/-- A UUID, as `randomUUID` makes them. -/
structure DeploymentId where
  text : String
  groups : (text.toList.splitOn '-').map List.length = [8, 4, 4, 4, 12]
  digits : ∀ group ∈ text.toList.splitOn '-', ∀ c ∈ group, isHexDigit c = true

theorem isHexDigit_lt {c : Char} (h : isHexDigit c = true) : c.toNat < 128 := by
  simp only [isHexDigit, Char.isDigit, Bool.or_eq_true, Bool.and_eq_true, decide_eq_true_eq] at h
  rcases h with (⟨-, h⟩ | ⟨-, h⟩) | ⟨-, h⟩
  · exact Nat.lt_of_le_of_lt h (by decide)
  · exact Nat.lt_of_le_of_lt h (by decide)
  · exact Nat.lt_of_le_of_lt h (by decide)

theorem lowerCaseChar_hex {c : Char} (h : isHexDigit c = true) : lowerCaseChar c = [c.toLower] := by
  have hlt := isHexDigit_lt h
  unfold lowerCaseChar
  rw [if_neg, if_neg]
  · rintro rfl
    exact absurd hlt (by decide)
  · rintro rfl
    exact absurd hlt (by decide)

/-- The first eight characters of an id are digits. -/
theorem DeploymentId.take_eight (id : DeploymentId) :
    ∃ group, id.text.toList.take 8 = group ∧ group.length = 8 ∧ ∀ c ∈ group, isHexDigit c = true := by
  have hgroups := id.groups
  have hdigits := id.digits
  have htext : ['-'].intercalate (id.text.toList.splitOn '-') = id.text.toList :=
    List.intercalate_splitOn _
  generalize id.text.toList.splitOn '-' = parts at hgroups hdigits htext
  cases parts with
  | nil => cases hgroups
  | cons group rest =>
    rw [List.map_cons, List.cons.injEq] at hgroups
    refine ⟨group, ?_, hgroups.1, hdigits group List.mem_cons_self⟩
    cases rest with
    | nil => cases hgroups.2
    | cons group' rest =>
      rw [List.intercalate_cons_cons] at htext
      rw [← htext, List.append_assoc, ← hgroups.1, List.take_left]

/-- The segment of the id has as many characters for every id. -/
theorem DeploymentId.length_segment (id : DeploymentId) : (deploymentSegment id.text).length = 8 := by
  obtain ⟨group, htake, hlength, hdigits⟩ := id.take_eight
  unfold deploymentSegment toLowerCase
  rw [htake, ← hlength, List.length_flatMap]
  have hone : ∀ c ∈ group, (lowerCaseChar c).length = 1 := by
    intro c hc
    rw [lowerCaseChar_hex (hdigits c hc)]
    rfl
  rw [List.map_congr_left hone, List.map_const']
  simp

/-! ### Bases -/

theorem baseName_toList (appName deploymentId : String) :
    (baseName appName deploymentId).toList =
      appSegment appName ++ '-' :: deploymentSegment deploymentId := String.toList_ofList

/-- Two bases are the same exactly if their segments are. -/
theorem baseName_eq_iff {appName appName' : String} {id id' : DeploymentId} :
    baseName appName id.text = baseName appName' id'.text ↔
      appSegment appName = appSegment appName' ∧
        deploymentSegment id.text = deploymentSegment id'.text := by
  rw [← String.toList_inj, baseName_toList, baseName_toList]
  constructor
  · intro h
    have hlength : ('-' :: deploymentSegment id.text).length =
        ('-' :: deploymentSegment id'.text).length := by
      rw [List.length_cons, List.length_cons, id.length_segment, id'.length_segment]
    obtain ⟨happ, hid⟩ := List.append_inj' h hlength
    exact ⟨happ, (List.cons.inj hid).2⟩
  · rintro ⟨happ, hid⟩
    rw [happ, hid]

/-! ### Objects -/

/-- The objects that go by the names, in a namespace. -/
def KubernetesResourceNames.objects («namespace» : String) (names : KubernetesResourceNames) :
    List ObjectKey :=
  [⟨.configMap, «namespace», names.configMapName⟩] ++
  names.fileConfigMapName.toList.map (fun name => ⟨.configMap, «namespace», name⟩) ++
  names.secretName.toList.map (fun name => ⟨.secret, «namespace», name⟩) ++
  names.secretFileSecretName.toList.map (fun name => ⟨.secret, «namespace», name⟩) ++
  [⟨.deployment, «namespace», names.deploymentName⟩, ⟨.service, «namespace», names.serviceName⟩,
   ⟨.httpRoute, «namespace», names.httpRouteName⟩,
   ⟨.httpRoute, «namespace», names.httpRedirectRouteName⟩]

/-- Suffixes of one length keep their bases. -/
theorem base_eq_of_append {base base' suffix suffix' : String}
    (hlength : suffix.toList.length = suffix'.toList.length) (h : base ++ suffix = base' ++ suffix') :
    base = base' := by
  rw [← String.toList_inj, String.toList_append, String.toList_append] at h
  exact String.toList_inj.mp (List.append_inj' h hlength).1

/-- Suffixes that end differently. -/
theorem append_ne_append {base base' suffix suffix' : String}
    (hlast : suffix.toList.getLast? ≠ suffix'.toList.getLast?) (hne : suffix.toList ≠ [])
    (hne' : suffix'.toList ≠ []) : base ++ suffix ≠ base' ++ suffix' := by
  intro h
  rw [← String.toList_inj, String.toList_append, String.toList_append] at h
  apply hlast
  rw [← List.getLast?_append_of_ne_nil _ hne, h, List.getLast?_append_of_ne_nil _ hne']

/-- An object belongs to one base. -/
theorem base_eq_of_mem {kubernetesNamespace base base' : String} {key : ObjectKey}
    (h : key ∈ deploymentObjects kubernetesNamespace base)
    (h' : key ∈ deploymentObjects kubernetesNamespace base') : base = base' := by
  have hfiles : base ++ "-env" ≠ base' ++ "-files" := append_ne_append (by decide) (by decide) (by decide)
  have hfiles' : base ++ "-files" ≠ base' ++ "-env" :=
    append_ne_append (by decide) (by decide) (by decide)
  have hsecret : base ++ "-secret" ≠ base' ++ "-secret-files" :=
    append_ne_append (by decide) (by decide) (by decide)
  have hsecret' : base ++ "-secret-files" ≠ base' ++ "-secret" :=
    append_ne_append (by decide) (by decide) (by decide)
  have hroute : base ++ "-route" ≠ base' ++ "-redirect" :=
    append_ne_append (by decide) (by decide) (by decide)
  have hroute' : base ++ "-redirect" ≠ base' ++ "-route" :=
    append_ne_append (by decide) (by decide) (by decide)
  simp only [deploymentObjects, List.mem_cons, List.not_mem_nil, or_false] at h
  rcases h with rfl | rfl | rfl | rfl | rfl | rfl | rfl | rfl <;>
    simp only [deploymentObjects, List.mem_cons, List.not_mem_nil, or_false, ObjectKey.mk.injEq,
      reduceCtorEq, false_and, true_and, false_or] at h'
  · exact h'.elim (base_eq_of_append rfl) fun h => absurd h hfiles
  · exact h'.elim (fun h => absurd h hfiles') (base_eq_of_append rfl)
  · exact h'.elim (base_eq_of_append rfl) fun h => absurd h hsecret
  · exact h'.elim (fun h => absurd h hsecret') (base_eq_of_append rfl)
  · exact h'
  · exact base_eq_of_append rfl h'
  · exact h'.elim (base_eq_of_append rfl) fun h => absurd h hroute
  · exact h'.elim (fun h => absurd h hroute') (base_eq_of_append rfl)

/-! ### Deployments -/

/-- A deployment, by the name of its app and its id. -/
structure AppDeployment where
  appName : String
  id : DeploymentId

namespace AppDeployment

def names (d : AppDeployment) : KubernetesResourceNames := buildResourceNames d.appName d.id.text

/-- The objects of the deployment, in the namespace of its workspace. -/
def objects (d : AppDeployment) («namespace» : String) : List ObjectKey := d.names.objects «namespace»

/-- The segments of the two deployments are the same. -/
def SameSegments (a b : AppDeployment) : Prop :=
  appSegment a.appName = appSegment b.appName ∧ deploymentSegment a.id.text = deploymentSegment b.id.text

/-- The two deployments have no object in common; and whatever the API server answers, neither the
deployment of the first with its rollback nor its deletion is ever about an object of the second. -/
structure Separate (config : ServiceConfig) («namespace» : String) (a b : AppDeployment) : Prop where
  objects : ∀ key ∈ a.objects «namespace», key ∉ b.objects «namespace»
  deployed : ∀ input : DeployImageInput, input.«namespace» = «namespace» → input.names = a.names →
    (deployImage config input).Calls (Call.On fun key => key ∉ b.objects «namespace»)
  deleted : ∀ deleteRoutes, (deleteDeploymentResources «namespace» a.names deleteRoutes).Calls
    (Call.On fun key => key ∉ b.objects «namespace»)

end AppDeployment

theorem Naming.owned {n : Naming} {key : ObjectKey} (h : n.Owns key) :
    key ∈ deploymentObjects n.kubernetesNamespace n.base := by
  replace h : key ∈ n.deletionOrder := h
  simp only [deletionOrder] at h
  split at h
  · simp only [deploymentObjects, List.cons_append, List.nil_append, List.mem_cons] at h ⊢
    tauto
  · simp only [deploymentObjects, List.nil_append, List.mem_cons] at h ⊢
    tauto

/-- **Two deployments** are separate exactly if one of their segments differs. -/
theorem separate_iff (config : ServiceConfig) (kubernetesNamespace : String) (a b : AppDeployment) :
    AppDeployment.Separate config kubernetesNamespace a b ↔ ¬ a.SameSegments b := by
  constructor
  · intro h hsame
    have hnames : a.names = b.names := congrArg resourceNamesOf (baseName_eq_iff.mpr hsame)
    have hmem : (⟨.deployment, kubernetesNamespace, a.names.deploymentName⟩ : ObjectKey) ∈
        a.objects kubernetesNamespace := by
      simp [AppDeployment.objects, KubernetesResourceNames.objects]
    refine h.objects _ hmem ?_
    rw [AppDeployment.objects, ← hnames]
    exact hmem
  · intro hne
    have hbase : baseName a.appName a.id.text ≠ baseName b.appName b.id.text :=
      fun h => hne (baseName_eq_iff.mp h)
    have hobjects : ∀ key ∈ a.objects kubernetesNamespace, key ∉ b.objects kubernetesNamespace :=
      fun key h h' => hbase (base_eq_of_mem h h')
    refine ⟨hobjects, fun input hns hnames => ?_, fun deleteRoutes => ?_⟩
    · -- what the deployment touches is its own, or of a kind of which a deployment has no object
      have hshared : ∀ key ∈ b.objects kubernetesNamespace,
          key.kind ≠ .ns ∧ key.kind ≠ .networkPolicy := by
        intro key hkey
        replace hkey : key ∈ deploymentObjects kubernetesNamespace (baseName b.appName b.id.text) := hkey
        simp only [deploymentObjects, List.mem_cons, List.not_mem_nil, or_false] at hkey
        rcases hkey with rfl | rfl | rfl | rfl | rfl | rfl | rfl | rfl <;> simp
      let n : Naming := ⟨kubernetesNamespace, baseName a.appName a.id.text, input.routing.isSome⟩
      have hof : n.Names input := ⟨hns, hnames, rfl⟩
      apply (deployImage_touches config hof).mono
      intro c
      apply Call.On.mono
      rintro key (howns | hkind | hkind) hb
      · exact hobjects key (Naming.owned howns) hb
      · exact (hshared key hb).1 hkind
      · exact (hshared key hb).2 hkind
    · let n : Naming := ⟨kubernetesNamespace, baseName a.appName a.id.text, deleteRoutes⟩
      have hprogram : deleteDeploymentResources kubernetesNamespace a.names deleteRoutes =
          n.deletionOrder.forM deleteIfExists := deleteDeploymentResources_eq n
      rw [hprogram]
      have hall : ∀ keys : List ObjectKey, (∀ key ∈ keys, key ∉ b.objects kubernetesNamespace) →
          (keys.forM deleteIfExists : Action Unit).Calls
            (Call.On fun key => key ∉ b.objects kubernetesNamespace) := by
        intro keys hkeys
        induction keys with
        | nil => trivial
        | cons key keys ih =>
          obtain ⟨hkey, hrest⟩ := List.forall_mem_cons.mp hkeys
          exact (deleteIfExists_on hkey).bind fun _ => ih hrest
      apply hall
      exact fun key howns => hobjects key (Naming.owned howns)

/-- Two ids of one app that begin alike: every object of the one is an object of the other. -/
theorem same_prefix_shares : ∃ a b : AppDeployment, a.id.text ≠ b.id.text ∧ a.appName = b.appName ∧
    ∀ kubernetesNamespace, a.objects kubernetesNamespace = b.objects kubernetesNamespace ∧
      ∀ config, ¬ AppDeployment.Separate config kubernetesNamespace a b := by
  let a : AppDeployment := ⟨"shop", "3b241101-e2bb-4255-8caf-4136c566a962", by decide,
    forall_mem_mem_of_all (by decide)⟩
  let b : AppDeployment := ⟨"shop", "3b241101-5f0d-4c1e-9a3b-7d1f0a526e0b", by decide,
    forall_mem_mem_of_all (by decide)⟩
  have hsegments : deploymentSegment a.id.text = deploymentSegment b.id.text := by decide
  have hnames : a.names = b.names :=
    congrArg resourceNamesOf (baseName_eq_iff.mpr ⟨rfl, hsegments⟩)
  have hobjects : ∀ kubernetesNamespace, a.objects kubernetesNamespace = b.objects kubernetesNamespace :=
    fun kubernetesNamespace => congrArg (KubernetesResourceNames.objects kubernetesNamespace) hnames
  refine ⟨a, b, by decide, rfl, fun kubernetesNamespace => ⟨hobjects kubernetesNamespace, ?_⟩⟩
  intro config h
  have hmem : (⟨.configMap, kubernetesNamespace, a.names.configMapName⟩ : ObjectKey) ∈
      a.objects kubernetesNamespace := List.mem_cons_self
  exact h.objects _ hmem (hobjects kubernetesNamespace ▸ hmem)

end NexCause
