/-
NexCause/DeployedObjects.lean

What `deployImage` leaves in the cluster when it returns and nobody else
writes: the configuration, the secrets and the files of the request, in objects
to which the Deployment refers.

Each upsert establishes one object and leaves the others alone
(`Establishes`), and the objects of a deployment are distinct, so what one
upsert has established the next ones keep (`Establishes.seq`).  A file goes
into a ConfigMap or a Secret under a numbered key, and an item of the volume
gives it its path back (`readNumbered`).

Main result: `deployImage_realises`.
-/
import Mathlib.Data.List.Nodup
import NexCause.LabelSelectors
import NexCause.ResourceNames

namespace NexCause

open Program Prog

/-! ### What a program establishes -/

/-- When the program returns, `P` holds of the objects in `S`; and it leaves the others alone. -/
structure Establishes {α : Type} (p : Action α) (S : ObjectKey → Prop)
    (P : (ObjectKey → Option Object) → Prop) : Prop where
  meets : ∀ w : World, p.Meets (Service.contract serve fun _ _ => True)
    (fun r t => (∀ a, r = .ok a → P t.cluster.objects) ∧
      ∀ key, ¬ S key → t.cluster.objects key = w.cluster.objects key) w
  depends : ∀ o o' : ObjectKey → Option Object, (∀ key, S key → o key = o' key) → P o → P o'

section Establishes

variable {α β : Type} {p : Action α} {q : α → Action β} {S S' : ObjectKey → Prop}
  {P Q : (ObjectKey → Option Object) → Prop}

theorem establishes_throw (e : ApiError) (hP : ∀ o o' : ObjectKey → Option Object,
    (∀ key, S key → o key = o' key) → P o → P o') : Establishes (Prog.throw e : Action α) S P where
  meets _ := by
    refine ⟨fun _ ha => ?_, fun _ _ => rfl⟩
    cases ha
  depends := hP

/-- A program with calls on objects in `S` leaves the others alone. -/
theorem establishes_of_calls (hp : p.Calls (Call.On S)) : Establishes p S fun _ => True where
  meets _ := (on_meets hp).mono fun _ _ h => ⟨fun _ _ => trivial, h.2⟩
  depends _ _ _ _ := trivial

/-- A program whose last part establishes `P`. -/
theorem Establishes.after [hα : Nonempty α] (hp : p.Calls (Call.On S'))
    (hq : ∀ a, Establishes (q a) S P) (hsub : ∀ key, S key → S' key) :
    Establishes (p >>= q) S' P where
  meets w := by
    apply (on_meets hp).bind
    · rintro a t ⟨-, hframe⟩
      apply ((hq a).meets t).mono
      rintro r u ⟨hr, hframe'⟩
      refine ⟨hr, fun key hkey => ?_⟩
      exact (hframe' key fun h => hkey (hsub key h)).trans (hframe key hkey)
    · rintro e t ⟨-, hframe⟩
      refine ⟨fun a ha => ?_, hframe⟩
      cases ha
  depends o o' h := by
    obtain ⟨a⟩ := hα
    exact (hq a).depends o o' fun key hkey => h key (hsub key hkey)

/-- Two programs on different objects. -/
theorem Establishes.seq {p : Action Unit} {q : Action Unit} (hp : Establishes p S P)
    (hq : Establishes q S' Q) (hdisjoint : ∀ key, S key → ¬ S' key) :
    Establishes (p >>= fun _ => q) (fun key => S key ∨ S' key) fun o => P o ∧ Q o where
  meets w := by
    apply (hp.meets w).bind
    · rintro ⟨⟩ t ⟨hP, hframe⟩
      apply (hq.meets t).mono
      rintro r u ⟨hQ, hframe'⟩
      refine ⟨fun a ha => ⟨?_, hQ a ha⟩, fun key hkey => ?_⟩
      · -- the second program has not touched what the first one has established
        apply hp.depends _ _ _ (hP () rfl)
        exact fun key hkey => (hframe' key (hdisjoint key hkey)).symm
      · rw [not_or] at hkey
        exact (hframe' key hkey.2).trans (hframe key hkey.1)
    · rintro e t ⟨-, hframe⟩
      refine ⟨fun a ha => ?_, fun key hkey => hframe key fun h => hkey (.inl h)⟩
      cases ha
  depends o o' h hPQ :=
    ⟨hp.depends o o' (fun key hkey => h key (.inl hkey)) hPQ.1,
      hq.depends o o' (fun key hkey => h key (.inr hkey)) hPQ.2⟩

theorem Establishes.weaken (hp : Establishes p S P) (hsub : ∀ key, S key → S' key) :
    Establishes p S' P where
  meets w := by
    apply (hp.meets w).mono
    exact fun r t h => ⟨h.1, fun key hkey => h.2 key fun hS => hkey (hsub key hS)⟩
  depends o o' h := hp.depends o o' fun key hkey => h key (hsub key hkey)

/-- A program whose first part may be on other objects. -/
theorem Establishes.onto {p : Action Unit} {q : Action Unit} (hp : p.Calls (Call.On S'))
    (hq : Establishes q S P) :
    Establishes (p >>= fun _ => q) (fun key => S' key ∨ S key) P := by
  have hp' : p.Calls (Call.On fun key => S' key ∨ S key) :=
    hp.mono fun c => Call.On.mono fun key => Or.inl
  have hq' : Establishes q (fun key => S' key ∨ S key) P := hq.weaken fun key => Or.inr
  exact Establishes.after hp' (fun _ => hq') fun _ h => h

theorem Establishes.congr (hp : Establishes p S P) (hPQ : ∀ o, P o ↔ Q o) : Establishes p S Q := by
  obtain rfl : P = Q := funext fun o => propext (hPQ o)
  exact hp

theorem Establishes.tryCatch {handler : ApiError → Action α} (hp : Establishes p S P)
    (hhandler : ∀ e, Establishes (handler e) S P) : Establishes (p.tryCatch handler) S P where
  meets w := by
    apply (hp.meets w).tryCatch
    · exact fun a t h => h
    · rintro e t ⟨-, hframe⟩
      apply ((hhandler e).meets t).mono
      exact fun r u h => ⟨h.1, fun key hkey => (h.2 key hkey).trans (hframe key hkey)⟩
  depends := hp.depends

theorem Establishes.onNotFound (hp : Establishes p S P) (e : ApiError) :
    Establishes (onNotFound p e) S P := by
  unfold NexCause.onNotFound
  split
  · exact hp
  · exact establishes_throw e hp.depends

end Establishes

/-- The object is there, with this manifest. -/
def Stored (key : ObjectKey) (m : Manifest) (o : ObjectKey → Option Object) : Prop :=
  ∃ resourceVersion, o key = some ⟨resourceVersion, m⟩

theorem stored_depends {key : ObjectKey} {m : Manifest} (o o' : ObjectKey → Option Object)
    (h : ∀ key', key' = key → o key' = o' key') (hs : Stored key m o) : Stored key m o' := by
  obtain ⟨resourceVersion, hs⟩ := hs
  exact ⟨resourceVersion, (h key rfl).symm.trans hs⟩

/-- A call to the cluster, by what its answer tells. -/
theorem establishes_perform (op : ClusterOp) {P : (ObjectKey → Option Object) → Prop}
    (hP : ∀ (c : Cluster) status a, (c.serve op status).1 = .ok a → P (c.serve op status).2.objects)
    (hdepends : ∀ o o' : ObjectKey → Option Object, (∀ key, key = op.key → o key = o' key) →
      P o → P o') :
    Establishes (Prog.perform (Call.kubernetes op) : Action op.Result) (· = op.key) P where
  meets w := by
    refine Prog.meets_perform.mpr ⟨trivial, fun r t hpost => ?_⟩
    obtain ⟨e, rfl, rfl⟩ | ⟨status, hr, rfl⟩ := post_kubernetes hpost
    · refine ⟨fun a ha => ?_, fun _ _ => rfl⟩
      cases ha
    · refine ⟨fun a ha => ?_, fun key hkey => Cluster.serve_objects_of_ne hkey⟩
      -- an answer that arrives tells what was done
      rcases hr with rfl | ⟨e, rfl⟩
      · exact hP _ _ a ha
      · cases ha
  depends := hdepends

theorem createObject_establishes (key : ObjectKey) (resourceVersion : Option ℕ) (m : Manifest) :
    Establishes (createObject key resourceVersion m) (· = key) (Stored key m) := by
  refine establishes_perform (.create key resourceVersion m) ?_ stored_depends
  intro c status a h
  simp only [Cluster.serve] at h ⊢
  split at h
  · cases h
  · exact ⟨_, c.put_objects_self key m⟩
  · cases h

theorem replaceObject_establishes (key : ObjectKey) (resourceVersion : ℕ) (m : Manifest) :
    Establishes (replaceObject key resourceVersion m) (· = key) (Stored key m) := by
  refine establishes_perform (.replace key resourceVersion m) ?_ stored_depends
  intro c status a h
  simp only [Cluster.serve] at h ⊢
  split at h
  · cases h
  · split at h
    · rename_i hversion
      rw [if_pos hversion]
      exact ⟨_, c.put_objects_self key m⟩
    · cases h

theorem upsert_establishes (key : ObjectKey) (m : Manifest) :
    Establishes (upsert key m fun _ => m) (· = key) (Stored key m) := by
  have hread : (readObject key >>= fun body => pure (some body.object) : Action _).Calls
      (Call.On (· = key)) := (on_perform (S := (· = key)) rfl).bind fun _ => trivial
  refine Establishes.after (hread.tryCatch fun _ => onNotFound_calls (p := pure none) trivial _) ?_
    fun _ h => h
  intro existing
  cases existing with
  | none => exact createObject_establishes key none m
  | some object =>
    apply (replaceObject_establishes key object.resourceVersion m).tryCatch
    exact fun e => (createObject_establishes key (some object.resourceVersion) m).onNotFound e

/-- A deletion that finds nothing is one that has nothing to do. -/
theorem deleteIfExists_establishes (key : ObjectKey) :
    Establishes (deleteIfExists key) (· = key) fun o => o key = none where
  meets w := by
    apply Prog.meets_tryCatch.mpr
    refine Prog.meets_perform.mpr ⟨trivial, fun r t hpost => ?_⟩
    obtain ⟨x, -, hserve⟩ := hpost
    have hothers : ∀ key', key' ≠ key →
        (w.cluster.serve (.delete key) x.status).2.objects key' = w.cluster.objects key' :=
      fun key' hne => Cluster.serve_objects_of_ne hne
    cases hfault : x.kubernetesFault with
    | some fault =>
      -- a fault is no 404, whether or not the object has gone
      rw [serve_kubernetesFault hfault] at hserve
      obtain ⟨rfl, rfl⟩ := Prod.mk.inj hserve
      show (onNotFound (pure ()) fault.1).Meets _ _ _
      unfold onNotFound
      rw [if_neg (by simp [fault.2])]
      refine ⟨fun _ ha => ?_, fun key' hne => ?_⟩
      · cases ha
      · split
        · exact hothers key' hne
        · rfl
    | none =>
      rw [serve_kubernetesHealthy hfault] at hserve
      obtain ⟨rfl, rfl⟩ := Prod.mk.inj hserve
      cases hkey : w.cluster.objects key with
      | none =>
        simp only [Cluster.serve, hkey]
        exact ⟨fun _ _ => hkey, fun _ _ => rfl⟩
      | some o =>
        simp only [Cluster.serve, hkey]
        refine ⟨fun _ _ => w.cluster.remove_objects_self key, fun key' hne => ?_⟩
        exact w.cluster.remove_objects_of_ne hne
  depends o o' h hnone := (h key rfl).symm.trans hnone

/-- The object of a map: there, with this manifest, unless the map is empty. -/
def Provided (key : ObjectKey) (isEmpty : Bool) (m : Manifest) (o : ObjectKey → Option Object) : Prop :=
  if isEmpty then o key = none else Stored key m o

theorem upsertOptional_establishes {kind : Kind} {kubernetesNamespace name missing : String}
    (hname : name ≠ "") (isEmpty : Bool) (m : Manifest) :
    Establishes (upsertOptional kind kubernetesNamespace (some name) isEmpty m missing)
      (· = ⟨kind, kubernetesNamespace, name⟩) (Provided ⟨kind, kubernetesNamespace, name⟩ isEmpty m) := by
  have htruthy : truthy (some name) = some name := by simp [truthy, hname]
  unfold upsertOptional
  simp only [htruthy]
  cases isEmpty with
  | true => exact deleteIfExists_establishes _
  | false => exact upsert_establishes _ m

/-! ### The objects of a deployment -/

section Deploy

variable {input : DeployImageInput} {base : String}

/-- What `deployImage` establishes. -/
structure DeployedObjects (input : DeployImageInput) (base : String)
    (o : ObjectKey → Option Object) : Prop where
  env : Stored ⟨.configMap, input.«namespace», base ++ "-env"⟩ (.configMap input.labels input.env) o
  files : Provided ⟨.configMap, input.«namespace», base ++ "-files"⟩ (input.files.items.length = 0)
    (.configMap input.labels input.files.data) o
  secret : Provided ⟨.secret, input.«namespace», base ++ "-secret"⟩ (input.secrets.length = 0)
    (.secret input.labels input.secrets) o
  secretFiles : Provided ⟨.secret, input.«namespace», base ++ "-secret-files"⟩
    (input.secretFiles.items.length = 0) (.secret input.labels input.secretFiles.data) o
  deployment : Stored ⟨.deployment, input.«namespace», base⟩ (deploymentManifest input) o

/-- What comes after the Deployment leaves the objects before it alone. -/
theorem afterDeployment_calls (input : DeployImageInput) :
    ((do
      upsertService input
      if input.routing.isSome then
        enableApplicationRouting input) : Action Unit).Calls
      (Call.On fun key => key.kind ∈ [.service, .ns, .httpRoute]) := by
  have hservice : (upsertService input).Calls
      (Call.On fun key => key.kind ∈ [.service, .ns, .httpRoute]) :=
    upsert_on (by simp) _ _
  apply hservice.bind
  intro _
  split
  · have hroute : ∀ name, (deleteHttpRoute input.«namespace» name).Calls
        (Call.On fun key => key.kind ∈ [.service, .ns, .httpRoute]) :=
      fun name => deleteIfExists_on (by simp)
    unfold enableApplicationRouting
    split
    · trivial
    · apply Calls.bind
      · exact on_perform (by simp [ClusterOp.key])
      · intro _
        apply Calls.tryCatch
        · exact Calls.bind (on_perform (by simp [ClusterOp.key])) fun _ =>
            on_perform (by simp [ClusterOp.key])
        · exact fun e => (hroute _).bind fun _ => (hroute _).bind fun _ => trivial
  · trivial

/-- **Deployment.**  When `deployImage` returns, its objects are those of the input. -/
theorem deployImage_establishes (config : ServiceConfig) (hnames : input.names = resourceNamesOf base) :
    ∃ S, Establishes (deployImage config input) S (DeployedObjects input base) := by
  have hne : ∀ suffix, suffix ≠ "" → base ++ suffix ≠ "" :=
    fun suffix h hempty => h (String.append_eq_empty_iff.mp hempty).2
  have henv : Establishes (upsertConfigMap input) (· = ⟨.configMap, input.«namespace», base ++ "-env"⟩)
      (Stored ⟨.configMap, input.«namespace», base ++ "-env"⟩ (.configMap input.labels input.env)) := by
    unfold upsertConfigMap
    rw [hnames]
    exact upsert_establishes _ _
  have hfiles : Establishes (upsertFileConfigMap input)
      (· = ⟨.configMap, input.«namespace», base ++ "-files"⟩)
      (Provided ⟨.configMap, input.«namespace», base ++ "-files"⟩ (input.files.items.length = 0)
        (.configMap input.labels input.files.data)) := by
    unfold upsertFileConfigMap
    rw [hnames]
    exact upsertOptional_establishes (hne _ (by decide)) _ _
  have hsecret : Establishes (upsertSecret input)
      (· = ⟨.secret, input.«namespace», base ++ "-secret"⟩)
      (Provided ⟨.secret, input.«namespace», base ++ "-secret"⟩ (input.secrets.length = 0)
        (.secret input.labels input.secrets)) := by
    unfold upsertSecret
    rw [hnames]
    exact upsertOptional_establishes (hne _ (by decide)) _ _
  have hsecretFiles : Establishes (upsertSecretFiles input)
      (· = ⟨.secret, input.«namespace», base ++ "-secret-files"⟩)
      (Provided ⟨.secret, input.«namespace», base ++ "-secret-files"⟩ (input.secretFiles.items.length = 0)
        (.secret input.labels input.secretFiles.data)) := by
    unfold upsertSecretFiles
    rw [hnames]
    exact upsertOptional_establishes (hne _ (by decide)) _ _
  have hdeployment : Establishes (upsertDeployment input)
      (· = ⟨.deployment, input.«namespace», base⟩)
      (Stored ⟨.deployment, input.«namespace», base⟩ (deploymentManifest input)) := by
    unfold upsertDeployment
    rw [hnames]
    exact upsert_establishes _ _
  -- the last part works on other kinds, and the suffixes keep the names of one kind apart
  have hall := henv.seq (hfiles.seq (hsecret.seq (hsecretFiles.seq
    (hdeployment.seq (establishes_of_calls (afterDeployment_calls input)) ?_) ?_) ?_) ?_) ?_
  · have hdeploy := hall.onto (ensureNamespace_on config input.«namespace» input.labels)
    refine ⟨_, hdeploy.congr fun o => ?_⟩
    constructor
    · rintro ⟨h₁, h₂, h₃, h₄, h₅, -⟩
      exact ⟨h₁, h₂, h₃, h₄, h₅⟩
    · rintro ⟨h₁, h₂, h₃, h₄, h₅⟩
      exact ⟨h₁, h₂, h₃, h₄, h₅, trivial⟩
  · rintro key rfl h
    simp at h
  · rintro key rfl h
    simp at h
  · rintro key rfl h
    simp [String.append_right_inj] at h
  · rintro key rfl h
    simp at h
  · rintro key rfl h
    simp [String.append_right_inj] at h

end Deploy

/-! ### Numbered files -/

/-- The files of a request as the data of a ConfigMap or Secret. -/
def numberedData (files : Entries) : Entries :=
  files.zipIdx.map fun (file, index) => ("file-" ++ toString index, file.2)

/-- The items that give the numbered files their paths back. -/
def numberedItems (files : Entries) : List FileItem :=
  files.zipIdx.map fun (file, index) => ⟨"file-" ++ toString index, file.1⟩

theorem numberedItems_keys (files : Entries) :
    (numberedItems files).map FileItem.key = (numberedData files).keys := by
  simp [numberedItems, numberedData, Entries.keys, Function.comp_def]

theorem numberedItems_paths (files : Entries) :
    (numberedItems files).map FileItem.path = files.keys := by
  rw [numberedItems, List.map_map, Entries.keys]
  show files.zipIdx.map (Prod.fst ∘ Prod.fst) = _
  rw [← List.map_map, List.zipIdx_map_fst]

theorem numberedItems_eq_nil {files : Entries} : numberedItems files = [] ↔ files = [] := by
  simp [numberedItems]

/-- The digits of a number give it back. -/
theorem toString_nat_inj {m n : ℕ} (h : toString m = toString n) : m = n := by
  have hdigits : Nat.toDigits 10 m = Nat.toDigits 10 n := by
    rw [← Nat.toList_repr, ← Nat.toList_repr]
    exact congrArg String.toList h
  rw [← Nat.ofDigitChars_toDigits (n := m) (b := 10) (by decide) (by decide), hdigits,
    Nat.ofDigitChars_toDigits (by decide) (by decide)]

/-- The number of a file finds its content. -/
theorem lookup_numbered (files : Entries) (start index : ℕ) :
    ((files.zipIdx start).map fun (file, index) => ("file-" ++ toString index, file.2)).lookup
      ("file-" ++ toString (start + index)) = files[index]?.map Prod.snd := by
  induction files generalizing start index with
  | nil => rfl
  | cons file files ih =>
    rw [List.zipIdx_cons, List.map_cons, List.lookup_cons]
    cases index with
    | zero => simp
    | succ index =>
      have hne : ("file-" ++ toString (start + (index + 1)) == "file-" ++ toString start) = false := by
        rw [beq_eq_false_iff_ne, Ne, String.append_right_inj]
        intro h
        have hnat := toString_nat_inj h
        omega
      simp only [hne]
      have hnext : start + (index + 1) = start + 1 + index := by omega
      rw [List.getElem?_cons_succ, ← ih (start + 1) index, hnext]

theorem mapM_some {α β : Type} {f : α → Option β} {g : α → β} {xs : List α}
    (h : ∀ x ∈ xs, f x = some (g x)) : xs.mapM f = some (xs.map g) := by
  induction xs with
  | nil => rfl
  | cons x xs ih =>
    obtain ⟨hx, hxs⟩ := List.forall_mem_cons.mp h
    rw [List.mapM_cons, hx, ih hxs]
    rfl

/-- Reading the items gives the files back. -/
theorem readNumbered (files : Entries) :
    (numberedItems files).mapM (fun item =>
      ((numberedData files).lookup item.key).map fun content => (item.path, content)) = some files := by
  have hread : ∀ item ∈ files.zipIdx, ((numberedData files).lookup ("file-" ++ toString item.2)).map
      (fun content => (item.1.1, content)) = some item.1 := by
    rintro ⟨file, index⟩ hmem
    have hlookup := lookup_numbered files 0 index
    rw [Nat.zero_add, List.mk_mem_zipIdx_iff_getElem?.mp hmem] at hlookup
    rw [numberedData, hlookup]
    rfl
  rw [numberedItems, List.mapM_map]
  have hall := mapM_some (f := fun item : (String × String) × ℕ =>
    ((numberedData files).lookup ("file-" ++ toString item.2)).map
      fun content => (item.1.1, content)) (g := Prod.fst) hread
  rw [List.zipIdx_map_fst] at hall
  exact hall

/-- A path that `validateRelativeFilePath` accepts. -/
def IsRelativePath (path : String) : Prop :=
  path.toList.head? ≠ some '/' ∧ ¬ ['.', '.'] <:+: path.toList

theorem validateRelativeFilePath_ok {path : String} (h : validateRelativeFilePath path = .ok ()) :
    IsRelativePath path := by
  unfold validateRelativeFilePath at h
  split at h
  · cases h
  · rename_i hvalid
    exact not_or.mp hvalid

/-- What `normalizeFileConfig` returns. -/
theorem normalizeFileConfig_ok {files raw : Entries} {config : FileConfigMap}
    (h : normalizeFileConfig files = .ok (raw, config)) :
    raw = files ∧ config = ⟨numberedData files, numberedItems files⟩ ∧
      ∀ path ∈ files.keys, IsRelativePath path := by
  unfold normalizeFileConfig at h
  obtain ⟨⟨⟩, hvalid, h⟩ := except_bind_ok h
  obtain ⟨rfl, rfl⟩ := Prod.mk.inj (Except.ok.inj h)
  refine ⟨rfl, ?_, ?_⟩
  · simp [numberedData, numberedItems, Function.comp_def]
  · have hall : ∀ es : Entries, es.forM (fun file => validateRelativeFilePath file.1) = .ok () →
        ∀ path ∈ es.keys, IsRelativePath path := by
      intro es hes
      induction es with
      | nil => exact List.forall_mem_nil _
      | cons file es ih =>
        obtain ⟨⟨⟩, hfile, hrest⟩ := except_bind_ok hes
        exact List.forall_mem_cons.mpr ⟨validateRelativeFilePath_ok hfile, ih hrest⟩
    exact hall files hvalid

/-! ### What the cluster holds -/

/-- The data of a ConfigMap or Secret. -/
def Object.data (o : Object) : Option Entries :=
  match o.manifest with
  | .configMap _ data => some data
  | .secret _ stringData => some stringData
  | _ => none

def EnvFromSource.key («namespace» : String) : EnvFromSource → ObjectKey
  | .configMapRef name => ⟨.configMap, «namespace», name⟩
  | .secretRef name => ⟨.secret, «namespace», name⟩

def VolumeSource.key («namespace» : String) : VolumeSource → ObjectKey
  | .configMap name _ => ⟨.configMap, «namespace», name⟩
  | .secret name _ => ⟨.secret, «namespace», name⟩

def VolumeSource.items : VolumeSource → List FileItem
  | .configMap _ items => items
  | .secret _ items => items

section Objects

variable (o : ObjectKey → Option Object) («namespace» : String)

/-- The data of the ConfigMap or Secret at a key. -/
def dataAt (key : ObjectKey) : Option Entries := (o key).bind Object.data

/-- The files of a volume: each item's path with the content of its key. -/
def readVolume (source : VolumeSource) : Option Entries := do
  let data ← dataAt o (source.key «namespace»)
  source.items.mapM fun item => (data.lookup item.key).map fun content => (item.path, content)

/-- What a container finds where its volumes are mounted. -/
def mountedFiles (spec : DeploymentSpec) : Option (List (String × Entries)) :=
  spec.volumeMounts.mapM fun mount => do
    let volume ← spec.volumes.find? (·.name = mount.name)
    let files ← readVolume o «namespace» volume.source
    return (mount.mountPath, files)

/-- The object of a map is there exactly if the map is not empty, and then holds the map. -/
def Holds (key : ObjectKey) (data : Entries) : Prop :=
  (data = [] → o key = none) ∧ (data ≠ [] → dataAt o key = some data)

/-- The references of a Deployment, and the files that it mounts. -/
structure Runnable (spec : DeploymentSpec) (files secretFiles : Entries) : Prop where
  envFrom : ∀ source ∈ spec.envFrom, (dataAt o (source.key «namespace»)).isSome
  volumes : ∀ volume ∈ spec.volumes, ∃ data, dataAt o (volume.source.key «namespace») = some data ∧
    ∀ item ∈ volume.source.items, item.key ∈ data.keys
  mounted : mountedFiles o «namespace» spec = some
    ((if files = [] then [] else [("/app/config", files)]) ++
      if secretFiles = [] then [] else [("/app/secrets", secretFiles)])
  paths : ∀ volume ∈ spec.volumes, (volume.source.items.map FileItem.path).Nodup ∧
    ∀ item ∈ volume.source.items, IsRelativePath item.path

/-- The cluster holds what a request asks for. -/
structure Realises (names : KubernetesResourceNames) (env telemetry secrets files secretFiles : Entries) :
    Prop where
  configured : ∃ data, dataAt o ⟨.configMap, «namespace», names.configMapName⟩ = some data ∧
    ∀ k, data.lookup k = (telemetry.lookup k).or (env.lookup k)
  secret : ∀ name, names.secretName = some name → Holds o ⟨.secret, «namespace», name⟩ secrets
  mountedFiles : ∀ name, names.fileConfigMapName = some name →
    Holds o ⟨.configMap, «namespace», name⟩ (numberedData files)
  mountedSecrets : ∀ name, names.secretFileSecretName = some name →
    Holds o ⟨.secret, «namespace», name⟩ (numberedData secretFiles)
  deployment : ∃ labels spec, Stored ⟨.deployment, «namespace», names.deploymentName⟩
    (.deployment labels spec) o ∧ Runnable o «namespace» spec files secretFiles

end Objects

/-- `{ ...a, ...b }` has the value of `b`, and that of `a` where `b` has none. -/
theorem lookup_merge {a b : Entries} (hb : (Entries.keys b).Nodup) (k : String) :
    (Entries.merge a b).lookup k = (b.lookup k).or (a.lookup k) := by
  induction b generalizing a with
  | nil => rfl
  | cons e b ih =>
    obtain ⟨hnot, hb⟩ := List.nodup_cons.mp hb
    show (Entries.merge (Entries.set a e.1 e.2) b).lookup k = _
    rw [ih hb, lookup_set, List.lookup_cons]
    by_cases hk : k = e.1
    · have hnone : b.lookup k = none := by
        apply List.lookup_eq_none_iff.mpr
        intro p hp
        rw [hk]
        have hmem : p.1 ∈ Entries.keys b := List.mem_map_of_mem hp
        apply bne_iff_ne.mpr
        rintro heq
        exact hnot (heq ▸ hmem)
      rw [hnone, if_pos hk, hk, BEq.rfl]
      rfl
    · rw [if_neg hk, beq_eq_false_iff_ne.mpr hk]

theorem buildTelemetryEnv_keys (config : ServiceConfig)
    (appId appName deploymentId deploymentName kubernetesNamespace : String) :
    (buildTelemetryEnv config appId appName deploymentId deploymentName
      kubernetesNamespace).keys.Nodup := by
  unfold buildTelemetryEnv
  split
  · simp [Entries.keys]
  · exact List.nodup_nil

section Realises

variable {input : DeployImageInput} {base : String} {files secretFiles : Entries}
  {o : ObjectKey → Option Object}

/-- The Deployment refers to what is not empty. -/
theorem deploymentManifest_spec (hnames : input.names = resourceNamesOf base)
    (hfiles : input.files = ⟨numberedData files, numberedItems files⟩)
    (hsecretFiles : input.secretFiles = ⟨numberedData secretFiles, numberedItems secretFiles⟩) :
    ∃ labels spec, deploymentManifest input = .deployment labels spec ∧
      spec.envFrom = .configMapRef (base ++ "-env") ::
        (if input.secrets = [] then [] else [.secretRef (base ++ "-secret")]) ∧
      spec.volumes =
        (if files = [] then []
          else [⟨"config-files", .configMap (base ++ "-files") (numberedItems files)⟩]) ++
        (if secretFiles = [] then []
          else [⟨"secret-files", .secret (base ++ "-secret-files") (numberedItems secretFiles)⟩]) ∧
      spec.volumeMounts =
        (if files = [] then [] else [⟨"config-files", "/app/config"⟩]) ++
        (if secretFiles = [] then [] else [⟨"secret-files", "/app/secrets"⟩]) := by
  have hlength : ∀ es : Entries, 0 < (numberedItems es).length ↔ es ≠ [] := by
    intro es
    rw [List.length_pos_iff, Ne, numberedItems_eq_nil]
  -- a generated name is never empty
  have htruthy : ∀ suffix, suffix ≠ "" → truthy (some (base ++ suffix)) = some (base ++ suffix) :=
    fun suffix h => truthy_append h
  have hnone : truthy none = none := rfl
  refine ⟨_, _, rfl, ?_, ?_, ?_⟩
  · -- the environment
    rw [hnames]
    simp only [resourceNamesOf, htruthy "-env" (by decide), gt_iff_lt, List.length_pos_iff]
    by_cases hsecrets : input.secrets = []
    · simp [hsecrets, hnone]
    · simp [hsecrets, htruthy "-secret" (by decide)]
  · -- the volumes, and where they are mounted
    rw [hnames, hfiles, hsecretFiles]
    simp only [resourceNamesOf, gt_iff_lt, hlength]
    by_cases hf : files = [] <;> by_cases hs : secretFiles = [] <;>
      simp [hf, hs, htruthy "-files" (by decide), htruthy "-secret-files" (by decide), hnone]
  · rw [hnames, hfiles, hsecretFiles]
    simp only [resourceNamesOf, gt_iff_lt, hlength]
    by_cases hf : files = [] <;> by_cases hs : secretFiles = [] <;>
      simp [hf, hs, htruthy "-files" (by decide), htruthy "-secret-files" (by decide), hnone]

theorem dataAt_stored {key : ObjectKey} {m : Manifest} {data : Entries} (h : Stored key m o)
    (hm : ∀ rv, Object.data ⟨rv, m⟩ = some data) : dataAt o key = some data := by
  obtain ⟨rv, h⟩ := h
  rw [dataAt, h]
  exact hm rv

/-- An object that is kept holds its map. -/
theorem Provided.holds {key : ObjectKey} {isEmpty : Bool} {m : Manifest}
    (h : Provided key isEmpty m o) (data : Entries) (hempty : isEmpty = true ↔ data = [])
    (hm : ∀ rv, Object.data ⟨rv, m⟩ = some data) : Holds o key data := by
  unfold Provided at h
  constructor
  · intro hdata
    rw [if_pos (hempty.mpr hdata)] at h
    exact h
  · intro hdata
    rw [if_neg fun hisEmpty => hdata (hempty.mp hisEmpty)] at h
    exact dataAt_stored h hm

theorem numberedData_eq_nil {files : Entries} : numberedData files = [] ↔ files = [] := by
  simp [numberedData]

/-- A volume over numbered files is there, and gives the files back. -/
theorem volume_of_holds (source : VolumeSource) {kubernetesNamespace : String} (hne : files ≠ [])
    (hitems : source.items = numberedItems files)
    (h : Holds o (source.key kubernetesNamespace) (numberedData files)) :
    (∃ data, dataAt o (source.key kubernetesNamespace) = some data ∧
      ∀ item ∈ source.items, item.key ∈ data.keys) ∧
    readVolume o kubernetesNamespace source = some files := by
  have hdata := h.2 fun hnil => hne (numberedData_eq_nil.mp hnil)
  refine ⟨⟨_, hdata, fun item hitem => ?_⟩, ?_⟩
  · rw [← numberedItems_keys, ← hitems]
    exact List.mem_map_of_mem hitem
  · unfold readVolume
    rw [hdata, hitems]
    exact readNumbered files

/-- The paths of the items are those of the files. -/
theorem item_paths (hdistinct : files.keys.Nodup) (hpaths : ∀ path ∈ files.keys, IsRelativePath path) :
    ((numberedItems files).map FileItem.path).Nodup ∧
      ∀ item ∈ numberedItems files, IsRelativePath item.path := by
  rw [numberedItems_paths]
  refine ⟨hdistinct, fun item hitem => hpaths _ ?_⟩
  rw [← numberedItems_paths]
  exact List.mem_map_of_mem hitem

/-- What a creation hands to `deployImage`. -/
structure Assembled (config : ServiceConfig) (request : CreateRequest) (app : App)
    («namespace» : String) (input : DeployImageInput) : Prop where
  placed : input.«namespace» = «namespace»
  names : input.names = buildResourceNames app.name request.deploymentId
  env : input.env = Entries.merge (request.dto.env.getD [])
    (buildTelemetryEnv config app.id app.name request.deploymentId input.names.deploymentName
      «namespace»)
  secrets : input.secrets = request.dto.secrets.getD []
  files : input.files = ⟨numberedData (request.dto.files.getD []),
    numberedItems (request.dto.files.getD [])⟩
  secretFiles : input.secretFiles = ⟨numberedData (request.dto.secretFiles.getD []),
    numberedItems (request.dto.secretFiles.getD [])⟩
  paths : ∀ path ∈ Entries.keys (request.dto.files.getD []), IsRelativePath path
  secretPaths : ∀ path ∈ Entries.keys (request.dto.secretFiles.getD []), IsRelativePath path

theorem assembled {config : ServiceConfig} {request : CreateRequest} {app : App}
    {image workspaceId kubernetesNamespace : String} {data : Deployment}
    (h : assembleDeployment config request app image workspaceId kubernetesNamespace =
      .ok (data, input)) : Assembled config request app kubernetesNamespace input := by
  unfold assembleDeployment at h
  obtain ⟨⟨raw, fileConfig⟩, hfiles, h⟩ := except_bind_ok h
  obtain ⟨⟨secretRaw, secretFileConfig⟩, hsecretFiles, h⟩ := except_bind_ok h
  obtain ⟨routing, -, h⟩ := except_bind_ok h
  obtain ⟨-, rfl, hpaths⟩ := normalizeFileConfig_ok hfiles
  obtain ⟨-, rfl, hsecretPaths⟩ := normalizeFileConfig_ok hsecretFiles
  dsimp only at h
  split at h
  · cases h
  · cases h
  · obtain ⟨-, rfl⟩ := Prod.mk.inj (Except.ok.inj h)
    exact ⟨rfl, rfl, rfl, rfl, rfl, rfl, hpaths, hsecretPaths⟩

/-- The references of the Deployment lead to what the objects hold. -/
theorem runnable {spec : DeploymentSpec} {kubernetesNamespace : String} {secrets : Entries}
    (henv : (dataAt o ⟨.configMap, kubernetesNamespace, base ++ "-env"⟩).isSome)
    (hsecret : Holds o ⟨.secret, kubernetesNamespace, base ++ "-secret"⟩ secrets)
    (hfiles : Holds o ⟨.configMap, kubernetesNamespace, base ++ "-files"⟩ (numberedData files))
    (hsecretFiles : Holds o ⟨.secret, kubernetesNamespace, base ++ "-secret-files"⟩
      (numberedData secretFiles))
    (hpaths : files.keys.Nodup ∧ ∀ path ∈ files.keys, IsRelativePath path)
    (hsecretPaths : secretFiles.keys.Nodup ∧ ∀ path ∈ secretFiles.keys, IsRelativePath path)
    (henvFrom : spec.envFrom = .configMapRef (base ++ "-env") ::
      (if secrets = [] then [] else [.secretRef (base ++ "-secret")]))
    (hvolumes : spec.volumes =
      (if files = [] then []
        else [⟨"config-files", .configMap (base ++ "-files") (numberedItems files)⟩]) ++
      (if secretFiles = [] then []
        else [⟨"secret-files", .secret (base ++ "-secret-files") (numberedItems secretFiles)⟩]))
    (hmounts : spec.volumeMounts =
      (if files = [] then [] else [⟨"config-files", "/app/config"⟩]) ++
      (if secretFiles = [] then [] else [⟨"secret-files", "/app/secrets"⟩])) :
    Runnable o kubernetesNamespace spec files secretFiles := by
  have hconfig : files ≠ [] → _ := fun hne => volume_of_holds
    (.configMap (base ++ "-files") (numberedItems files)) hne rfl hfiles
  have hsecrets : secretFiles ≠ [] → _ := fun hne => volume_of_holds
    (.secret (base ++ "-secret-files") (numberedItems secretFiles)) hne rfl hsecretFiles
  -- a volume is one of the two
  have hcases : ∀ volume ∈ spec.volumes,
      (files ≠ [] ∧ volume = ⟨"config-files", .configMap (base ++ "-files") (numberedItems files)⟩) ∨
      secretFiles ≠ [] ∧
        volume = ⟨"secret-files", .secret (base ++ "-secret-files") (numberedItems secretFiles)⟩ := by
    intro volume hmem
    rw [hvolumes] at hmem
    rcases List.mem_append.mp hmem with hmem | hmem
    · left
      split at hmem
      · cases hmem
      · exact ⟨‹_›, List.mem_singleton.mp hmem⟩
    · right
      split at hmem
      · cases hmem
      · exact ⟨‹_›, List.mem_singleton.mp hmem⟩
  refine ⟨fun source hmem => ?_, fun volume hmem => ?_, ?_, fun volume hmem => ?_⟩
  · rw [henvFrom] at hmem
    rcases List.mem_cons.mp hmem with rfl | hmem
    · exact henv
    · split at hmem
      · cases hmem
      · rename_i hne
        obtain rfl := List.mem_singleton.mp hmem
        show (dataAt o ⟨.secret, kubernetesNamespace, base ++ "-secret"⟩).isSome
        rw [hsecret.2 hne]
        rfl
  · rcases hcases volume hmem with ⟨hne, rfl⟩ | ⟨hne, rfl⟩
    · exact (hconfig hne).1
    · exact (hsecrets hne).1
  · unfold mountedFiles
    rw [hvolumes, hmounts]
    by_cases hf : files = []
    · by_cases hs : secretFiles = []
      · simp [hf, hs]
      · simp [hf, hs, (hsecrets hs).2]
    · by_cases hs : secretFiles = []
      · simp [hf, hs, (hconfig hf).2]
      · simp [hf, hs, (hconfig hf).2, (hsecrets hs).2]
  · rcases hcases volume hmem with ⟨hne, rfl⟩ | ⟨hne, rfl⟩
    · exact item_paths hpaths.1 hpaths.2
    · exact item_paths hsecretPaths.1 hsecretPaths.2

end Realises

/-- **A deployment that returns realises its request.**  Whatever was in the cluster before, and whatever
else was asked of it in between, but written by nobody else. -/
theorem deployImage_realises {config : ServiceConfig} {request : CreateRequest} {app : App}
    {image workspaceId kubernetesNamespace : String} {data : Deployment} {input : DeployImageInput}
    (hfiles : (Entries.keys (request.dto.files.getD [])).Nodup)
    (hsecretFiles : (Entries.keys (request.dto.secretFiles.getD [])).Nodup)
    (hplan : assembleDeployment config request app image workspaceId kubernetesNamespace =
      .ok (data, input)) {env : ℕ → Environment} {w : World} {u : Unit}
    (hreturns : ((deployImage config input).run serve env w).outcome = .ok u) :
    Realises ((deployImage config input).run serve env w).state.cluster.objects kubernetesNamespace
      (buildResourceNames app.name request.deploymentId) (request.dto.env.getD [])
      (buildTelemetryEnv config app.id app.name request.deploymentId
        (buildResourceNames app.name request.deploymentId).deploymentName kubernetesNamespace)
      (request.dto.secrets.getD []) (request.dto.files.getD []) (request.dto.secretFiles.getD []) := by
  obtain ⟨hns, hnames, henv, hsecrets, hfileConfig, hsecretConfig, hpaths, hsecretPaths⟩ :=
    assembled hplan
  obtain ⟨S, hestablishes⟩ := deployImage_establishes config hnames
  have hobjects := (run_of_meets (hestablishes.meets w) fun _ _ _ => trivial).1 u hreturns
  obtain ⟨hEnv, hFiles, hSecret, hSecretFiles, hDeployment⟩ := hobjects
  rw [hns] at hEnv hFiles hSecret hSecretFiles hDeployment
  -- what each object holds after the run
  have hconfigured := dataAt_stored hEnv fun _ => rfl
  have hholdsSecret := hSecret.holds (request.dto.secrets.getD [])
    (by simp [hsecrets]) fun _ => by rw [hsecrets]; rfl
  have hholdsFiles := hFiles.holds (numberedData (request.dto.files.getD []))
    (by simp [hfileConfig, numberedItems_eq_nil, numberedData_eq_nil]) fun _ => by
      rw [hfileConfig]
      rfl
  have hholdsSecretFiles := hSecretFiles.holds (numberedData (request.dto.secretFiles.getD []))
    (by simp [hsecretConfig, numberedItems_eq_nil, numberedData_eq_nil]) fun _ => by
      rw [hsecretConfig]
      rfl
  -- what the Deployment takes of them
  obtain ⟨labels, spec, hspec, henvFrom, hvolumes, hmounts⟩ :=
    deploymentManifest_spec hnames hfileConfig hsecretConfig
  refine ⟨⟨_, hconfigured, fun k => ?_⟩, ?_, ?_, ?_, labels, spec, hspec ▸ hDeployment, ?_⟩
  · rw [henv, hnames]
    exact lookup_merge (buildTelemetryEnv_keys ..) k
  · rintro name hname
    obtain rfl := Option.some.inj hname
    exact hholdsSecret
  · rintro name hname
    obtain rfl := Option.some.inj hname
    exact hholdsFiles
  · rintro name hname
    obtain rfl := Option.some.inj hname
    exact hholdsSecretFiles
  · rw [hsecrets] at henvFrom
    apply runnable _ hholdsSecret hholdsFiles hholdsSecretFiles ⟨hfiles, hpaths⟩
      ⟨hsecretFiles, hsecretPaths⟩ henvFrom hvolumes hmounts
    rw [hconfigured]
    rfl

/-- A request with a variable, a secret and a file. -/
def configuredRequest : CreateRequest :=
  { sampleRequest with
    dto := { sampleRequest.dto with
      env := some [("MODE", "live")]
      secrets := some [("KEY", "s3cret")]
      files := some [("conf/app.yml", "a: 1")] } }

/-- Into an empty cluster. -/
theorem configuredRequest_realised : ∃ data input,
    assembleDeployment sampleConfig configuredRequest ⟨"a", "a", some 80⟩ "i" "w" "ns" =
      .ok (data, input) ∧
    Realises ((deployImage sampleConfig input).run serve (fun _ => healthy)
        sampleEmptyWorld).state.cluster.objects "ns" (buildResourceNames "a" "1") [("MODE", "live")]
      [] [("KEY", "s3cret")] [("conf/app.yml", "a: 1")] [] :=
  ⟨_, _, rfl, deployImage_realises (by decide) (by decide) (rfl : assembleDeployment sampleConfig
    configuredRequest ⟨"a", "a", some 80⟩ "i" "w" "ns" = _) rfl⟩

end NexCause
