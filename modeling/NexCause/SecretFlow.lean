/-
NexCause/SecretFlow.lean

The values of secrets reach the Secret objects of the cluster and nothing else.

Two things are alike if they differ in the values of secrets only, not in
their keys.  Requests that are alike are served by programs that make the same
calls but for the contents of Secret objects, get the same answers but for
those of reads of such objects, and use of these only what is alike.

  * `serve_alike`        the platform answers such calls alike
  * `deployImage_alike`  deploying differs in the contents of Secrets only
  * `request_alike`      every request on a deployment
-/
import NexCause.Coupling
import NexCause.DeploymentPrograms
import NexCause.ManagerEvidence

namespace NexCause

open Program EvidenceService

/-! ### Alike but for the values of secrets -/

/-- The same manifest, or two of a Secret with the same keys. -/
def Manifest.Alike : Manifest → Manifest → Prop
  | .secret labels data, .secret labels' data' => labels = labels' ∧ data.keys = data'.keys
  | m, m' => m = m'

/-- The same version, and manifests that are alike. -/
structure Object.Alike (o o' : Object) : Prop where
  resourceVersion : o.resourceVersion = o'.resourceVersion
  manifest : o.manifest.Alike o'.manifest

/-- The same keys, with objects that are alike under each. -/
structure Cluster.Alike (c c' : Cluster) : Prop where
  revision : c.revision = c'.revision
  objects : ∀ key, Option.Rel Object.Alike (c.objects key) (c'.objects key)

/-- The same tables, beside clusters that are alike. -/
def World.Alike (w w' : World) : Prop :=
  ∃ cluster', w' = { w with cluster := cluster' } ∧ w.cluster.Alike cluster'

/-- The same but for worlds that are alike. -/
def ManagerState.Alike (s s' : ManagerState) : Prop :=
  ∃ world', s' = { s with world := world' } ∧ s.world.Alike world'

/-- Two requests to create a deployment that name the same secrets and secret
files, and are otherwise the same. -/
def CreateDeploymentDto.Alike (dto dto' : CreateDeploymentDto) : Prop :=
  ∃ secrets' secretFiles', dto' = { dto with secrets := secrets', secretFiles := secretFiles' } ∧
    secrets'.map Entries.keys = dto.secrets.map Entries.keys ∧
    secretFiles'.map Entries.keys = dto.secretFiles.map Entries.keys

/-- The same request but for the body, whose bodies are alike. -/
def CreateRequest.Alike (request request' : CreateRequest) : Prop :=
  ∃ dto', request' = { request with dto := dto' } ∧ request.dto.Alike dto'

/-- The same files, but for their contents. -/
structure FileConfigMap.Alike (f f' : FileConfigMap) : Prop where
  keys : f'.data.keys = f.data.keys
  items : f'.items = f.items

/-- What is deployed for two such requests. -/
def DeployImageInput.Alike (input input' : DeployImageInput) : Prop :=
  ∃ secrets' secretFiles', input' = { input with secrets := secrets', secretFiles := secretFiles' } ∧
    secrets'.keys = input.secrets.keys ∧ input.secretFiles.Alike secretFiles'

/-! ### Calls and answers -/

/-- The same call, or two that store manifests that are alike. -/
inductive Call.Alike : Call → Call → Prop
  | same (c : Call) : Alike c c
  | create (key : ObjectKey) (resourceVersion : Option ℕ) {m m' : Manifest} (h : m.Alike m') :
      Alike (.kubernetes (.create key resourceVersion m)) (.kubernetes (.create key resourceVersion m'))
  | replace (key : ObjectKey) (resourceVersion : ℕ) {m m' : Manifest} (h : m.Alike m') :
      Alike (.kubernetes (.replace key resourceVersion m)) (.kubernetes (.replace key resourceVersion m'))

/-- What a read returns of objects that are alike; their conditions are the same. -/
structure ReadBody.Alike (b b' : ReadBody) : Prop where
  object : b.object.Alike b'.object
  status : b.status = b'.status

/-- The same answer, or two of a read whose objects are alike. -/
inductive Call.AnswersAlike :
    (c c' : Call) → Except ApiError c.Result → Except ApiError c'.Result → Prop
  | same (c : Call) (r : Except ApiError c.Result) : AnswersAlike c c r r
  | read (key : ObjectKey) {r r' : Except ApiError ReadBody} (h : Both ReadBody.Alike r r') :
      AnswersAlike (.kubernetes (.read key)) (.kubernetes (.read key)) r r'
  | create (key : ObjectKey) (resourceVersion : Option ℕ) (m m' : Manifest) (r : Except ApiError Unit) :
      AnswersAlike (.kubernetes (.create key resourceVersion m))
        (.kubernetes (.create key resourceVersion m')) r r
  | replace (key : ObjectKey) (resourceVersion : ℕ) (m m' : Manifest) (r : Except ApiError Unit) :
      AnswersAlike (.kubernetes (.replace key resourceVersion m))
        (.kubernetes (.replace key resourceVersion m')) r r

/-- Calls and answers of two runs that are alike. -/
def secretCoupling : Coupling Call Call.Result ApiError where
  call := Call.Alike
  answer := Call.AnswersAlike

/-- Both calls can fail alike. -/
theorem Call.Alike.error {c c' : Call} (h : c.Alike c') (e : ApiError) :
    AnswersAlike c c' (.error e) (.error e) := by
  cases h with
  | same => exact .same _ _
  | create => exact .create ..
  | replace => exact .replace ..

/-! ### The cluster -/

@[simp] theorem Manifest.Alike.refl (m : Manifest) : m.Alike m := by
  cases m <;> simp [Alike]

/-- Two Secrets with the same labels and the same keys. -/
theorem Manifest.Alike.secret (labels : Entries) {data data' : Entries}
    (h : data.keys = data'.keys) : (Manifest.secret labels data).Alike (.secret labels data') :=
  ⟨rfl, h⟩

/-- Manifests that are alike are equal, or both of a Secret. -/
theorem Manifest.Alike.cases {m m' : Manifest} (h : m.Alike m') :
    m = m' ∨ ∃ labels data data', m = .secret labels data ∧ m' = .secret labels data' ∧
      data.keys = data'.keys := by
  cases m with
  | secret labels data =>
    cases m' with
    | secret labels' data' =>
      obtain ⟨rfl, hkeys⟩ := h
      exact .inr ⟨labels, data, data', rfl, rfl, hkeys⟩
    | _ => cases h
  | _ => exact .inl h

/-- A merge patch leaves the contents of a Secret alone. -/
theorem Manifest.Alike.patch {m m' : Manifest} (h : m.Alike m') (p : MergePatch) :
    (m.patch p).Alike (m'.patch p) := by
  rcases h.cases with rfl | ⟨labels, data, data', rfl, rfl, hkeys⟩
  · exact .refl _
  · exact ⟨rfl, hkeys⟩

theorem Object.Alike.refl (o : Object) : o.Alike o := ⟨rfl, .refl _⟩

/-- A Secret has no size, so alike objects have the same. -/
theorem Object.Alike.specReplicas {o o' : Object} (h : o.Alike o') :
    o.specReplicas = o'.specReplicas := by
  unfold Object.specReplicas
  rcases h.manifest.cases with heq | ⟨labels, data, data', heq, heq', -⟩
  · rw [heq]
  · rw [heq, heq']

theorem Object.Alike.serviceAddress {o o' : Object} (h : o.Alike o') :
    o.serviceAddress = o'.serviceAddress := by
  unfold Object.serviceAddress
  rcases h.manifest.cases with heq | ⟨labels, data, data', heq, heq', -⟩
  · rw [heq]
  · rw [heq, heq']

theorem Cluster.Alike.refl (c : Cluster) : c.Alike c := by
  refine ⟨rfl, ?_⟩
  intro key
  cases c.objects key with
  | none => exact .none
  | some o => exact .some (.refl o)

/-- What is stored under one key is alike, and the rest is as before. -/
theorem Cluster.Alike.put {c c' : Cluster} (h : c.Alike c') (key : ObjectKey) {m m' : Manifest}
    (hm : m.Alike m') : (c.put key m).Alike (c'.put key m') := by
  have hrevision : c.revision + 1 = c'.revision + 1 := by rw [h.revision]
  refine ⟨hrevision, ?_⟩
  intro key'
  by_cases hkey : key' = key
  · -- the object that is stored
    subst hkey
    rw [Cluster.put_objects_self, Cluster.put_objects_self]
    exact .some ⟨hrevision, hm⟩
  · rw [Cluster.put_objects_of_ne _ _ hkey, Cluster.put_objects_of_ne _ _ hkey]
    exact h.objects key'

theorem Cluster.Alike.remove {c c' : Cluster} (h : c.Alike c') (key : ObjectKey) :
    (c.remove key).Alike (c'.remove key) := by
  refine ⟨h.revision, ?_⟩
  intro key'
  by_cases hkey : key' = key
  · subst hkey
    rw [Cluster.remove_objects_self, Cluster.remove_objects_self]
    exact .none
  · rw [Cluster.remove_objects_of_ne _ hkey, Cluster.remove_objects_of_ne _ hkey]
    exact h.objects key'

/-- Whether an object is there is the same on both sides. -/
theorem Cluster.Alike.lookup {c c' : Cluster} (h : c.Alike c') (key : ObjectKey) :
    (c.objects key = none ∧ c'.objects key = none) ∨
      ∃ o o', c.objects key = some o ∧ c'.objects key = some o' ∧ o.Alike o' := by
  have hobject := h.objects key
  cases ho : c.objects key with
  | none =>
    rw [ho] at hobject
    cases ho' : c'.objects key with
    | none => exact .inl ⟨rfl, rfl⟩
    | some o' =>
      rw [ho'] at hobject
      cases hobject
  | some o =>
    rw [ho] at hobject
    cases ho' : c'.objects key with
    | none =>
      rw [ho'] at hobject
      cases hobject
    | some o' =>
      rw [ho'] at hobject
      cases hobject with
      | some hoo => exact .inr ⟨o, o', rfl, rfl, hoo⟩

/-- Whether the name is taken is the same on both sides. -/
theorem Cluster.Alike.create {c c' : Cluster} (h : c.Alike c') (key : ObjectKey)
    (resourceVersion : Option ℕ) {m m' : Manifest} (hm : m.Alike m') (status : DeploymentConditions) :
    Call.AnswersAlike (.kubernetes (.create key resourceVersion m))
        (.kubernetes (.create key resourceVersion m'))
        (c.serve (.create key resourceVersion m) status).1
        (c'.serve (.create key resourceVersion m') status).1 ∧
      (c.serve (.create key resourceVersion m) status).2.Alike
        (c'.serve (.create key resourceVersion m') status).2 := by
  cases resourceVersion with
  | some version => exact ⟨.create .., h⟩
  | none =>
    rcases h.lookup key with ⟨hnone, hnone'⟩ | ⟨o, o', ho, ho', -⟩
    · simp only [Cluster.serve, hnone, hnone']
      exact ⟨.create .., h.put key hm⟩
    · simp only [Cluster.serve, ho, ho']
      exact ⟨.create .., h⟩

/-- Whether the version is the current one is the same on both sides. -/
theorem Cluster.Alike.replace {c c' : Cluster} (h : c.Alike c') (key : ObjectKey)
    (resourceVersion : ℕ) {m m' : Manifest} (hm : m.Alike m') (status : DeploymentConditions) :
    Call.AnswersAlike (.kubernetes (.replace key resourceVersion m))
        (.kubernetes (.replace key resourceVersion m'))
        (c.serve (.replace key resourceVersion m) status).1
        (c'.serve (.replace key resourceVersion m') status).1 ∧
      (c.serve (.replace key resourceVersion m) status).2.Alike
        (c'.serve (.replace key resourceVersion m') status).2 := by
  -- the object is missing on both sides, or on neither
  rcases h.lookup key with ⟨hnone, hnone'⟩ | ⟨o, o', ho, ho', hoo⟩
  · simp only [Cluster.serve, hnone, hnone']
    exact ⟨.replace .., h⟩
  · simp only [Cluster.serve, ho, ho', hoo.resourceVersion]
    split
    · exact ⟨.replace .., h.put key hm⟩
    · exact ⟨.replace .., h⟩

/-- **The cluster** answers calls that are alike alike, and stays alike. -/
theorem Cluster.Alike.serve {c c' : Cluster} (h : c.Alike c') {op op' : ClusterOp}
    (hop : Call.Alike (.kubernetes op) (.kubernetes op')) (status : DeploymentConditions) :
    Call.AnswersAlike (.kubernetes op) (.kubernetes op') (c.serve op status).1
        (c'.serve op' status).1 ∧
      (c.serve op status).2.Alike (c'.serve op' status).2 := by
  cases hop with
  | create key resourceVersion hm => exact h.create key resourceVersion hm status
  | replace key resourceVersion hm => exact h.replace key resourceVersion hm status
  | same =>
    cases op with
    | create key resourceVersion m => exact h.create key resourceVersion (.refl m) status
    | replace key resourceVersion m => exact h.replace key resourceVersion (.refl m) status
    | read key =>
      rcases h.lookup key with ⟨hnone, hnone'⟩ | ⟨o, o', ho, ho', hoo⟩
      · simp only [Cluster.serve, hnone, hnone']
        exact ⟨.same .., h⟩
      · simp only [Cluster.serve, ho, ho']
        exact ⟨.read key ⟨hoo, rfl⟩, h⟩
    -- the other calls are the same, on objects that are alike
    | delete key =>
      rcases h.lookup key with ⟨hnone, hnone'⟩ | ⟨o, o', ho, ho', -⟩
      · simp only [Cluster.serve, hnone, hnone']
        exact ⟨.same .., h⟩
      · simp only [Cluster.serve, ho, ho']
        exact ⟨.same .., h.remove key⟩
    | patch key p =>
      rcases h.lookup key with ⟨hnone, hnone'⟩ | ⟨o, o', ho, ho', hoo⟩
      · simp only [Cluster.serve, hnone, hnone']
        exact ⟨.same .., h⟩
      · simp only [Cluster.serve, ho, ho']
        exact ⟨.same .., h.put key (hoo.manifest.patch p)⟩

/-! ### The platform -/

/-- The cluster beside the tables makes no difference to a call to the database. -/
theorem serve_withCluster {c : Call} (hc : ¬ c.IsKubernetes) (x : Environment) (w : World)
    (d : Cluster) :
    serve c x { w with cluster := d } =
      ((serve c x w).1, { (serve c x w).2 with cluster := d }) := by
  cases c with
  | kubernetes op => exact absurd trivial hc
  | createDeployment data =>
    simp only [serve, World.serveDatabase]
    split
    · rfl
    · split
      · rfl
      · split <;> rfl
  | updateDeployment id data =>
    simp only [serve, World.serveDatabase]
    split
    · rfl
    · split <;> rfl
  | _ =>
    simp only [serve, World.serveDatabase]
    split <;> rfl

/-- **The platform** answers calls that are alike alike, and stays alike. -/
theorem serve_alike : secretCoupling.Serves serve World.Alike := by
  rintro c c' x w _ hcall ⟨cluster', rfl, hcluster⟩
  by_cases hkubernetes : c.IsKubernetes
  · -- both calls are to the cluster
    have hops : ∃ op op', c = .kubernetes op ∧ c' = .kubernetes op' := by
      cases hcall with
      | same =>
        cases c with
        | kubernetes op => exact ⟨op, op, rfl, rfl⟩
        | _ => exact hkubernetes.elim
      | create key resourceVersion hm => exact ⟨_, _, rfl, rfl⟩
      | replace key resourceVersion hm => exact ⟨_, _, rfl, rfl⟩
    obtain ⟨op, op', rfl, rfl⟩ := hops
    obtain ⟨hanswer, hnext⟩ := hcluster.serve hcall x.status
    simp only [serve]
    cases x.kubernetesFault with
    | some fault =>
      -- both calls have their effect, or neither has
      cases x.tookEffect with
      | false => exact ⟨hcall.error fault.1, cluster', rfl, hcluster⟩
      | true => exact ⟨hcall.error fault.1, _, rfl, hnext⟩
    | none => exact ⟨hanswer, _, rfl, hnext⟩
  · have hsame : c' = c := by
      cases hcall with
      | same => rfl
      | create key resourceVersion hm => exact absurd trivial hkubernetes
      | replace key resourceVersion hm => exact absurd trivial hkubernetes
    subst hsame
    rw [serve_withCluster hkubernetes x w cluster']
    refine ⟨.same _ _, cluster', rfl, ?_⟩
    rw [serve_cluster hkubernetes]
    exact hcluster

/-! ### Programs that do not look into objects -/

/-- The call does not read an object of the cluster. -/
def Call.Plain (c : Call) : Prop := ∀ key, c ≠ .kubernetes (.read key)

/-- Only the answers to reads can differ. -/
theorem Call.AnswersAlike.eq {c : Call} {r r' : Except ApiError c.Result} (hc : c.Plain)
    (h : AnswersAlike c c r r') : r = r' := by
  cases h with
  | same => rfl
  | read key h => exact absurd rfl (hc key)
  | create => rfl
  | replace => rfl

/-- Programs that run alike, with related results. -/
abbrev RunAlike {α : Type} (V : α → α → Prop) (p q : Action α) : Prop :=
  Prog.Coupled secretCoupling V p q

/-- A program without such a call runs alike with itself. -/
theorem plain_alike {α : Type} {p : Action α} (hp : p.Calls Call.Plain) : RunAlike Eq p p :=
  hp.coupled (fun c _ => .same c) fun _ _ _ hc h => h.eq hc

/-- One such call runs alike with itself. -/
theorem perform_alike {c : Call} (hc : c.Plain) :
    RunAlike Eq (Prog.perform c) (Prog.perform c) := plain_alike (Prog.calls_perform.mpr hc)

theorem lookup_plain {c : Call} (hc : c.IsLookup) : c.Plain := by
  rintro key rfl
  exact hc

/-- Whether an error is taken for a missing object depends on the error. -/
theorem onNotFound_alike {α : Type} {V : α → α → Prop} {p q : Action α} (h : RunAlike V p q)
    (error : ApiError) : RunAlike V (onNotFound p error) (onNotFound q error) := by
  unfold onNotFound
  split
  · exact h
  · exact .throw error

/-! ### Objects -/

/-- One call each. -/
theorem call_alike {c c' : Call} {V : c.Result → c'.Result → Prop} (h : c.Alike c')
    (hanswer : ∀ r r', Call.AnswersAlike c c' r r' → Both V r r') :
    Prog.Coupled secretCoupling V (Prog.perform c) (Prog.perform c') :=
  Prog.coupled_perform h hanswer

/-- A read is the one call whose answers may differ. -/
theorem readObject_alike (key : ObjectKey) :
    RunAlike ReadBody.Alike (readObject key) (readObject key) := by
  have hanswer : ∀ r r' : Except ApiError ReadBody,
      Call.AnswersAlike (.kubernetes (.read key)) (.kubernetes (.read key)) r r' →
        Both ReadBody.Alike r r' := by
    intro r r' hr
    cases hr with
    | read key h => exact h
    | same =>
      cases r with
      | ok body => exact ⟨.refl _, rfl⟩
      | error e => exact rfl
  exact call_alike (c := .kubernetes (.read key)) (.same _) hanswer

/-- The answer to a creation does not tell the manifests apart. -/
theorem createObject_alike (key : ObjectKey) (resourceVersion : Option ℕ) {m m' : Manifest}
    (hm : m.Alike m') :
    RunAlike Eq (createObject key resourceVersion m) (createObject key resourceVersion m') := by
  have hanswer : ∀ r r' : Except ApiError Unit,
      Call.AnswersAlike (.kubernetes (.create key resourceVersion m))
        (.kubernetes (.create key resourceVersion m')) r r' → Both Eq r r' := by
    intro r r' hr
    cases hr <;> cases r <;> exact rfl
  exact call_alike (.create key resourceVersion hm) hanswer

/-- Nor does the answer to a replacement. -/
theorem replaceObject_alike (key : ObjectKey) (resourceVersion : ℕ) {m m' : Manifest}
    (hm : m.Alike m') :
    RunAlike Eq (replaceObject key resourceVersion m) (replaceObject key resourceVersion m') := by
  have hanswer : ∀ r r' : Except ApiError Unit,
      Call.AnswersAlike (.kubernetes (.replace key resourceVersion m))
        (.kubernetes (.replace key resourceVersion m')) r r' → Both Eq r r' := by
    intro r r' hr
    cases hr <;> cases r <;> exact rfl
  exact call_alike (.replace key resourceVersion hm) hanswer

theorem deleteIfExists_alike (key : ObjectKey) :
    RunAlike Eq (deleteIfExists key) (deleteIfExists key) := by
  have hdelete : RunAlike Eq (deleteObject key) (deleteObject key) :=
    perform_alike (c := .kubernetes (.delete key)) (fun _ h => nomatch h)
  apply hdelete.tryCatch
  exact fun e => onNotFound_alike (.ret rfl) e

/-- An upsert of manifests that are alike. -/
theorem upsert_alike (key : ObjectKey) {fresh fresh' : Manifest}
    {replacing replacing' : Object → Manifest} (hfresh : fresh.Alike fresh')
    (hover : ∀ o o' : Object, o.Alike o' → (replacing o).Alike (replacing' o')) :
    RunAlike Eq (upsert key fresh replacing) (upsert key fresh' replacing') := by
  have hread : RunAlike (Option.Rel Object.Alike)
      ((readObject key >>= fun body => pure (some body.object) : Action _).tryCatch
        (onNotFound (pure none)))
      ((readObject key >>= fun body => pure (some body.object) : Action _).tryCatch
        (onNotFound (pure none))) := by
    apply Prog.Coupled.tryCatch
    · apply (readObject_alike key).bind
      intro body body' hbody
      exact .ret (.some hbody.object)
    · exact fun e => onNotFound_alike (.ret .none) e
  apply hread.bind
  intro existing existing' h
  -- the object is new, or replaced in the version that was read
  cases h with
  | none => exact createObject_alike key none hfresh
  | some ho =>
    dsimp only
    rw [ho.resourceVersion]
    apply Prog.Coupled.tryCatch
    · exact replaceObject_alike key _ (hover _ _ ho)
    · exact fun e => onNotFound_alike (createObject_alike key _ (hover _ _ ho)) e

/-- An upsert of one manifest, whatever it finds in its place. -/
theorem upsert_same_alike (key : ObjectKey) (m : Manifest) :
    RunAlike Eq (upsert key m fun _ => m) (upsert key m fun _ => m) :=
  upsert_alike key (.refl m) fun _ _ _ => .refl m

/-- An upsert that is a deletion where there is nothing to store; whether there is shows
in the keys. -/
theorem upsertOptional_alike (kind : Kind) («namespace» : String) (name : Option String)
    (isEmpty : Bool) {m m' : Manifest} (hm : m.Alike m') (missingName : String) :
    RunAlike Eq (upsertOptional kind «namespace» name isEmpty m missingName)
      (upsertOptional kind «namespace» name isEmpty m' missingName) := by
  unfold upsertOptional
  split
  · split
    · exact deleteIfExists_alike _
    · exact .ret rfl
  · split
    · exact upsert_alike _ hm fun _ _ _ => hm
    · exact .throw _

/-! ### Creations -/

/-- What is made of files depends on their contents in the contents only. -/
theorem normalizeFileConfig_alike {files files' : Entries} (h : files'.keys = files.keys) :
    Both (fun q q' => q'.1.keys = q.1.keys ∧ q.2.Alike q'.2) (normalizeFileConfig files)
      (normalizeFileConfig files') := by
  have hvalidate : ∀ es : Entries, (es.forM fun file => validateRelativeFilePath file.1) =
      es.keys.forM validateRelativeFilePath := by
    intro es
    unfold Entries.keys
    induction es with
    | nil => rfl
    | cons e es ih =>
      show (validateRelativeFilePath e.1 >>= fun _ => es.forM _) =
        validateRelativeFilePath e.1 >>= fun _ => (es.map Prod.fst).forM _
      rw [ih]
  unfold normalizeFileConfig
  rw [hvalidate files, hvalidate files', h]
  apply (Both.refl (files.keys.forM validateRelativeFilePath)).bind
  intro _ _ _
  -- each path is numbered by its place
  have hkeys : ∀ es : Entries,
      Entries.keys ((es.zipIdx.map fun p => (p.1, "file-" ++ toString p.2)).map fun p => (p.2, p.1.2)) =
        es.keys.zipIdx.map fun p => "file-" ++ toString p.2 := by
    intro es
    unfold Entries.keys
    rw [List.zipIdx_map]
    simp
  have hitems : ∀ es : Entries,
      ((es.zipIdx.map fun p => (p.1, "file-" ++ toString p.2)).map fun p => (⟨p.2, p.1.1⟩ : FileItem)) =
        es.keys.zipIdx.map fun p => ⟨"file-" ++ toString p.2, p.1⟩ := by
    intro es
    unfold Entries.keys
    rw [List.zipIdx_map]
    simp
  refine ⟨h, ?_, ?_⟩
  · exact (hkeys files').trans (h ▸ (hkeys files).symm)
  · exact (hitems files').trans (h ▸ (hitems files).symm)

/-- The records of a deployment hold the names of its secrets only. -/
theorem buildRuntimeConfigRecords_alike (env files : Entries) {secrets secrets' secretFiles
    secretFiles' : Entries} (hsecrets : secrets'.keys = secrets.keys)
    (hfiles : secretFiles'.keys = secretFiles.keys) :
    buildRuntimeConfigRecords env secrets' files secretFiles' =
      buildRuntimeConfigRecords env secrets files secretFiles := by
  have hlength : ∀ {es es' : Entries}, es'.keys = es.keys → es'.length = es.length := by
    intro es es' hkeys
    have := congrArg List.length hkeys
    simpa [Entries.keys] using this
  unfold buildRuntimeConfigRecords
  rw [hsecrets, hfiles, hlength hsecrets, hlength hfiles]

/-- The keys of an optional map, with none where it is missing. -/
theorem keys_getD_alike {es es' : Option Entries} (h : es'.map Entries.keys = es.map Entries.keys) :
    (es'.getD []).keys = (es.getD []).keys := by
  cases es with
  | none =>
    cases es' with
    | none => rfl
    | some es' => cases h
  | some es =>
    cases es' with
    | none => cases h
    | some es' => exact Option.some.inj h

/-- What is planned for two requests that are alike: the same row, and inputs
that are alike. -/
def PlansAlike (p p' : Deployment × DeployImageInput) : Prop := p.1 = p'.1 ∧ p.2.Alike p'.2

/-- The row is made of the names of the secrets, and the input of their values, too. -/
theorem assembleDeployment_alike (config : ServiceConfig) {request request' : CreateRequest}
    (h : request.Alike request') (app : App) (image workspaceId «namespace» : String) :
    Both PlansAlike (assembleDeployment config request app image workspaceId «namespace»)
      (assembleDeployment config request' app image workspaceId «namespace») := by
  obtain ⟨_, rfl, secrets', secretFiles', rfl, hsecrets, hfiles⟩ := h
  have hsecrets := keys_getD_alike hsecrets
  have hfiles := keys_getD_alike hfiles
  unfold assembleDeployment
  apply (Both.refl (normalizeFileConfig _)).bind
  rintro files _ rfl
  apply (normalizeFileConfig_alike hfiles).bind
  rintro secretFiles₁ secretFiles₂ ⟨hraw, hconfig⟩
  apply (Both.refl (requestedRouting config request app)).bind
  rintro routing _ rfl
  dsimp only
  split
  · exact rfl
  · exact rfl
  · -- the names are alike, and so the records are the same
    refine ⟨?_, _, _, rfl, hsecrets, hconfig⟩
    dsimp only
    rw [buildRuntimeConfigRecords_alike _ _ hsecrets hraw]

theorem lookup_alike {α : Type} {p : Action α} (hp : p.Calls Call.IsLookup) : RunAlike Eq p p :=
  plain_alike (hp.mono fun _ hc => lookup_plain hc)

theorem liftExcept_alike {α : Type} {V : α → α → Prop} {x y : Except ApiError α} (h : Both V x y) :
    RunAlike V (liftExcept x) (liftExcept y) := Prog.coupled_ofExcept h

/-- What is looked up for a plan does not depend on the secrets. -/
theorem planForApp_alike (config : ServiceConfig) {request request' : CreateRequest}
    (h : request.Alike request') (app : App) :
    RunAlike PlansAlike (planForApp config request app) (planForApp config request' app) := by
  have hassemble := fun image workspaceId kubernetesNamespace => liftExcept_alike
    (assembleDeployment_alike config h app image workspaceId kubernetesNamespace)
  obtain ⟨_, rfl, secrets', secretFiles', rfl, -, -⟩ := h
  apply (lookup_alike (resolveDeploymentImage_calls request.appId request.dto)).bind
  rintro image _ rfl
  apply (liftExcept_alike (Both.refl (requireWorkspaceId request.workspaceId))).bind
  rintro workspaceId _ rfl
  apply (lookup_alike (workspaceNamespace_calls workspaceId)).bind
  rintro kubernetesNamespace _ rfl
  exact hassemble image workspaceId kubernetesNamespace

/-- Planning needs a permission if there are secrets, which their names tell. -/
theorem planDeployment_alike (config : ServiceConfig) {request request' : CreateRequest}
    (h : request.Alike request') :
    RunAlike PlansAlike (planDeployment config request) (planDeployment config request') := by
  have hplan := planForApp_alike config h
  obtain ⟨_, rfl, secrets', secretFiles', rfl, hsecrets, hfiles⟩ := h
  -- whether there are secrets shows in their names
  have hlength : ∀ {es es' : Option Entries}, es'.map Entries.keys = es.map Entries.keys →
      (es'.getD []).length = (es.getD []).length := by
    intro es es' hkeys
    have := congrArg List.length (keys_getD_alike hkeys)
    simpa [Entries.keys] using this
  have happ : RunAlike PlansAlike (findAppOrThrow request.appId >>= planForApp config request)
      (findAppOrThrow request.appId >>= planForApp config
        { request with dto := { request.dto with secrets := secrets', secretFiles := secretFiles' } }) := by
    apply (lookup_alike (findAppOrThrow_calls request.appId)).bind
    rintro app _ rfl
    exact hplan app
  unfold planDeployment
  dsimp only
  rw [hlength hsecrets, hlength hfiles]
  split
  · apply (liftExcept_alike (Both.refl (requirePermissions request.scopes ["secrets:write"]))).bind
    rintro _ _ -
    exact happ
  · exact happ

/-! ### Deploying -/

/-- The Deployment names the Secrets and counts them, and does not hold them. -/
theorem deploymentManifest_alike {input input' : DeployImageInput} (h : input.Alike input') :
    deploymentManifest input' = deploymentManifest input := by
  obtain ⟨secrets', secretFiles', rfl, hsecrets, hfiles⟩ := h
  have hlength : secrets'.length = input.secrets.length := by
    have := congrArg List.length hsecrets
    simpa [Entries.keys] using this
  unfold deploymentManifest
  dsimp only
  rw [hfiles.items, hlength]

/-- The namespace and its policies have nothing to do with the secrets. -/
theorem ensureNamespace_alike (config : ServiceConfig) («namespace» : String) (labels : Entries) :
    RunAlike Eq (ensureNamespace config «namespace» labels)
      (ensureNamespace config «namespace» labels) := by
  have hread : RunAlike Eq ((readObject ⟨.ns, "", «namespace»⟩ >>= fun _ => pure ()) : Action Unit)
      (readObject ⟨.ns, "", «namespace»⟩ >>= fun _ => pure ()) := by
    apply (readObject_alike _).bind
    intro _ _ _
    exact .ret rfl
  have hpolicies : RunAlike Eq (reconcileTenantNetworkPolicies config «namespace»)
      (reconcileTenantNetworkPolicies config «namespace») := by
    unfold reconcileTenantNetworkPolicies
    split
    · exact .throw _
    · apply Prog.Coupled.tryCatch
      · apply Prog.Coupled.forM
        intro policy _
        exact upsert_same_alike _ _
      · exact fun e => .throw _
  unfold ensureNamespace
  apply (hread.tryCatch fun e => onNotFound_alike (createObject_alike _ _ (.refl _)) e).bind
  rintro _ _ -
  split
  · exact hpolicies
  · exact .ret rfl

/-- Of the Service that is there only its address is used. -/
theorem upsertService_alike (input : DeployImageInput) :
    RunAlike Eq (upsertService input) (upsertService input) := by
  apply upsert_alike _ (.refl _)
  intro o o' ho
  rw [ho.serviceAddress]
  exact .refl _

/-- The routes, and what undoes them, have nothing to do with the secrets. -/
theorem enableApplicationRouting_alike (input : DeployImageInput) :
    RunAlike Eq (enableApplicationRouting input) (enableApplicationRouting input) := by
  unfold enableApplicationRouting
  split
  · exact .ret rfl
  · have hpatch : ∀ key p, RunAlike Eq (patchObject key p) (patchObject key p) := fun key p =>
      perform_alike (c := .kubernetes (.patch key p)) fun _ h => nomatch h
    apply (hpatch _ _).bind
    rintro _ _ -
    apply Prog.Coupled.tryCatch
    · apply (createObject_alike _ none (.refl _)).bind
      rintro _ _ -
      exact createObject_alike _ none (.refl _)
    · -- the rollback after a failed creation
      intro e
      apply (deleteIfExists_alike _).bind
      rintro _ _ -
      apply (deleteIfExists_alike _).bind
      rintro _ _ -
      exact .throw e

/-- The values of the secrets go into this object. -/
theorem upsertSecret_alike {input input' : DeployImageInput} (h : input.Alike input') :
    RunAlike Eq (upsertSecret input) (upsertSecret input') := by
  obtain ⟨secrets', secretFiles', rfl, hsecrets, -⟩ := h
  have hlength : secrets'.length = input.secrets.length := by
    have := congrArg List.length hsecrets
    simpa [Entries.keys] using this
  unfold upsertSecret
  dsimp only
  rw [hlength]
  exact upsertOptional_alike _ _ _ _ (.secret _ hsecrets.symm) _

/-- The contents of the secret files go into this one. -/
theorem upsertSecretFiles_alike {input input' : DeployImageInput} (h : input.Alike input') :
    RunAlike Eq (upsertSecretFiles input) (upsertSecretFiles input') := by
  obtain ⟨secrets', secretFiles', rfl, -, hfiles⟩ := h
  unfold upsertSecretFiles
  dsimp only
  rw [hfiles.items]
  exact upsertOptional_alike _ _ _ _ (.secret _ hfiles.keys.symm) _

theorem upsertDeployment_alike {input input' : DeployImageInput} (h : input.Alike input') :
    RunAlike Eq (upsertDeployment input) (upsertDeployment input') := by
  have hmanifest := deploymentManifest_alike h
  obtain ⟨secrets', secretFiles', rfl, -, -⟩ := h
  unfold upsertDeployment
  rw [hmanifest]
  exact upsert_same_alike _ _

/-- **Deploying** two inputs that are alike: only the contents of the Secrets
differ. -/
theorem deployImage_alike (config : ServiceConfig) {input input' : DeployImageInput}
    (h : input.Alike input') : RunAlike Eq (deployImage config input) (deployImage config input') := by
  have hsecret := upsertSecret_alike h
  have hsecretFiles := upsertSecretFiles_alike h
  have hdeployment := upsertDeployment_alike h
  obtain ⟨secrets', secretFiles', rfl, -, -⟩ := h
  unfold deployImage
  apply (ensureNamespace_alike config _ _).bind
  rintro _ _ -
  apply (upsert_same_alike _ _).bind
  rintro _ _ -
  apply (upsertOptional_alike _ _ _ _ (.refl _) _).bind
  rintro _ _ -
  apply hsecret.bind
  rintro _ _ -
  apply hsecretFiles.bind
  rintro _ _ -
  apply hdeployment.bind
  rintro _ _ -
  apply (upsertService_alike input).bind
  rintro _ _ -
  dsimp only
  split
  · exact enableApplicationRouting_alike input
  · exact .ret rfl

/-! ### Requests -/

theorem update_alike (id : String) (u : DeploymentUpdate) :
    RunAlike Eq (updateDeployment id u) (updateDeployment id u) :=
  perform_alike (c := .updateDeployment id u) fun _ h => nomatch h

/-- **Creations** that are alike insert the same row and return the same. -/
theorem create_alike (config : ServiceConfig) {request request' : CreateRequest}
    (h : request.Alike request') :
    RunAlike Eq (DeploymentsService.create config request)
      (DeploymentsService.create config request') := by
  have hinsert : ∀ data, RunAlike Eq (createDeployment data) (createDeployment data) := fun data =>
    perform_alike (c := .createDeployment data) fun _ h => nomatch h
  apply (planDeployment_alike config h).bind
  rintro ⟨data, input⟩ ⟨_, input'⟩ ⟨rfl, hinput⟩
  apply (hinsert data).bind
  rintro deployment _ rfl
  -- a deployment that fails marks the row and fails
  have hdeploy := (deployImage_alike config hinput).tryCatch fun error =>
    (update_alike deployment.id { status := some .failed }).bind fun _ _ _ =>
      (.throw error : RunAlike Eq (Prog.throw error) (Prog.throw error))
  apply hdeploy.bind
  rintro _ _ -
  exact .ret rfl

theorem findOneOrThrow_alike (id : String) :
    RunAlike Eq (findOneOrThrow id) (findOneOrThrow id) := by
  apply (perform_alike (c := .findDeployment id) fun _ h => nomatch h).bind
  rintro found _ rfl
  cases found with
  | some deployment => exact .ret rfl
  | none => exact .throw _

/-- A patch that is computed from the record, and the update after it. -/
theorem patchThenUpdate_alike (id : String) (patch : Deployment → MergePatch)
    (update : Deployment → DeploymentUpdate) :
    RunAlike Eq (patchThenUpdate id patch update) (patchThenUpdate id patch update) := by
  have hpatch : ∀ key p, RunAlike Eq (patchObject key p) (patchObject key p) := fun key p =>
    perform_alike (c := .kubernetes (.patch key p)) fun _ h => nomatch h
  apply (findOneOrThrow_alike id).bind
  rintro deployment _ rfl
  apply (hpatch _ _).bind
  rintro _ _ -
  exact update_alike _ _

/-- Of the object that is read, the status has its size and its conditions. -/
theorem getDeploymentStatus_alike («namespace» deploymentName : String) :
    RunAlike Eq (getDeploymentStatus «namespace» deploymentName)
      (getDeploymentStatus «namespace» deploymentName) := by
  apply (readObject_alike _).bind
  intro body body' h
  rw [h.object.specReplicas, h.status]
  exact .ret rfl

theorem statusOf_alike (deployment : Deployment) :
    RunAlike Eq (statusOf deployment) (statusOf deployment) := by
  unfold statusOf
  split
  · exact .ret rfl
  · apply (getDeploymentStatus_alike _ _).bind
    rintro liveStatus _ rfl
    dsimp only
    split
    · apply (update_alike _ _).bind
      rintro _ _ -
      exact .ret rfl
    · exact .ret rfl

theorem deleteOptional_alike (kind : Kind) («namespace» : String) (name : Option String) :
    RunAlike Eq (deleteOptional kind «namespace» name) (deleteOptional kind «namespace» name) := by
  unfold deleteOptional
  split
  · exact deleteIfExists_alike _
  · exact .ret rfl

theorem deleteDeploymentResources_alike («namespace» : String) (names : KubernetesResourceNames)
    (deleteRoutes : Bool) :
    RunAlike Eq (deleteDeploymentResources «namespace» names deleteRoutes)
      (deleteDeploymentResources «namespace» names deleteRoutes) := by
  have hobjects : RunAlike Eq
      (deleteDeploymentResources «namespace» names false)
      (deleteDeploymentResources «namespace» names false) := by
    apply (deleteIfExists_alike _).bind
    rintro _ _ -
    apply (deleteIfExists_alike _).bind
    rintro _ _ -
    apply (deleteIfExists_alike _).bind
    rintro _ _ -
    apply (deleteOptional_alike _ _ _).bind
    rintro _ _ -
    apply (deleteOptional_alike _ _ _).bind
    rintro _ _ -
    exact deleteOptional_alike _ _ _
  cases deleteRoutes with
  | false => exact hobjects
  | true =>
    apply (deleteIfExists_alike _).bind
    rintro _ _ -
    apply (deleteIfExists_alike _).bind
    rintro _ _ -
    exact hobjects

theorem delete_alike (id : String) (now : ℕ) :
    RunAlike Eq (DeploymentsService.delete id now) (DeploymentsService.delete id now) := by
  apply (findOneOrThrow_alike id).bind
  rintro deployment _ rfl
  apply (liftExcept_alike (Both.refl (deploymentToResourceNames deployment))).bind
  rintro names _ rfl
  apply (deleteDeploymentResources_alike _ _ _).bind
  rintro _ _ -
  apply (update_alike _ _).bind
  rintro deleted _ rfl
  exact .ret rfl

/-- The same request, or two creations that are alike. -/
inductive Request.Alike : Request → Request → Prop
  | same (request : Request) : Alike request request
  | create {request request' : CreateRequest} (h : request.Alike request') :
      Alike (.create request) (.create request')

theorem CreateRequest.Alike.refl (request : CreateRequest) : request.Alike request :=
  ⟨_, rfl, _, _, rfl, rfl, rfl⟩

theorem CreateRequest.Alike.withId {request request' : CreateRequest} (h : request.Alike request')
    (id : String) :
    Alike { request with deploymentId := id } { request' with deploymentId := id } := by
  obtain ⟨dto', rfl, hdto⟩ := h
  exact ⟨dto', rfl, hdto⟩

/-- What is answered is a function of what is returned. -/
theorem respond_alike {α : Type} {p q : Action α} (h : RunAlike Eq p q) (f : α → Response) :
    RunAlike Eq (p >>= fun a => pure (f a)) (q >>= fun a => pure (f a)) := by
  apply h.bind
  rintro a _ rfl
  exact .ret rfl

theorem request_alike (config : ServiceConfig) (id : String) {request request' : Request}
    (h : request.Alike request') :
    RunAlike Eq (request.program config id) (request'.program config id) := by
  cases h with
  | create h => exact respond_alike (create_alike config (h.withId id)) .sanitized
  | same =>
    cases request with
    | create request =>
      exact respond_alike (create_alike config ((CreateRequest.Alike.refl request).withId id)) .sanitized
    | getStatus =>
      have hstatus : RunAlike Eq (DeploymentsService.getStatus id) (DeploymentsService.getStatus id) := by
        apply (findOneOrThrow_alike id).bind
        rintro deployment _ rfl
        exact statusOf_alike deployment
      exact respond_alike hstatus .status
    | scale replicas now => exact respond_alike (patchThenUpdate_alike _ _ _) .deployment
    | stop now => exact respond_alike (patchThenUpdate_alike _ _ _) .deployment
    | start requested => exact respond_alike (patchThenUpdate_alike _ _ _) .deployment
    | restart now =>
      have hrestart : RunAlike Eq (DeploymentsService.restart id now)
          (DeploymentsService.restart id now) := by
        rw [restart_eq]
        exact patchThenUpdate_alike _ _ _
      exact respond_alike hrestart .deployment
    | delete now => exact respond_alike (delete_alike id now) .sanitized

end NexCause
