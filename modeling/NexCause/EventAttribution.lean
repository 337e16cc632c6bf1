/-
NexCause/EventAttribution.lean

Does a deployment get the events and the metrics of another one?  Both services
attribute by name: an event whose object has the deployment's name, or that name
followed by a hyphen and anything, and in Prometheus the pods that match
`name-.*` (`buildQueries`, `adapters/prometheus.go`).

A name is the app's segment, a hyphen and the first characters of the id, and an
app may be called like a deployment.  So the parts of the one name between its
hyphens can be the first parts of the other, and then the two deployments share
objects.  Main result: that is the only way (`attributed_iff`).
-/
import NexCause.NamespaceObjects
import NexCause.Regex

namespace NexCause

open Program EvidenceService

/-! ### Texts and their parts -/

section Parts

variable {α : Type}

theorem intercalate_append (sep : List α) {xs ys : List (List α)} (hxs : xs ≠ []) (hys : ys ≠ []) :
    sep.intercalate (xs ++ ys) = sep.intercalate xs ++ sep ++ sep.intercalate ys := by
  induction xs with
  | nil => exact absurd rfl hxs
  | cons x xs ih =>
    cases xs with
    | nil =>
      rw [List.singleton_append, List.intercalate_cons_of_ne_nil hys, List.intercalate_singleton]
    | cons x' xs =>
      rw [List.cons_append, List.intercalate_cons_of_ne_nil (by simp), ih (List.cons_ne_nil _ _),
        List.intercalate_cons_cons]
      simp only [List.append_assoc]

variable [BEq α] [LawfulBEq α]

/-- With a separator after each of them, one text starts another exactly if its
parts are the first parts of the other. -/
theorem prefix_iff_splitOn (s : α) (xs ys : List α) :
    xs ++ [s] <+: ys ++ [s] ↔ xs.splitOn s <+: ys.splitOn s := by
  constructor
  · rintro ⟨rest, hrest⟩
    rcases List.eq_nil_or_concat rest with rfl | ⟨rest, last, rfl⟩
    · rw [List.append_nil] at hrest
      rw [List.append_cancel_right hrest]
    · -- the separator at the end of `ys` stands at the end of the rest
      rw [List.concat_eq_append, ← List.append_assoc] at hrest
      obtain ⟨hys, -⟩ := List.append_inj' hrest rfl
      rw [← hys, List.append_assoc, List.singleton_append, List.splitOn_append_cons_self]
      exact List.prefix_append _ _
  · rintro ⟨rest, hrest⟩
    have hys : ys = [s].intercalate (xs.splitOn s ++ rest) := by
      rw [hrest, List.intercalate_splitOn]
    cases rest with
    | nil =>
      rw [List.append_nil, List.intercalate_splitOn] at hys
      rw [hys]
    | cons part parts =>
      rw [intercalate_append _ (List.splitOn_ne_nil _ _) (List.cons_ne_nil _ _),
        List.intercalate_splitOn] at hys
      rw [hys, List.append_assoc]
      exact List.prefix_append _ _

end Parts

/-! ### Names -/

/-- The segment of a name that comes from the app. -/
def appSegment (appName : String) : List Char :=
  if (toDnsSafeName appName).take 32 = [] then "app".toList else (toDnsSafeName appName).take 32

/-- The segment of a name that comes from the id. -/
def deploymentSegment (deploymentId : String) : List Char := toLowerCase (deploymentId.toList.take 8)

/-- The parts of a name, between its hyphens. -/
def CreatedDeployment.nameParts (d : CreatedDeployment) : List (List Char) :=
  (appSegment d.appName).splitOn '-' ++ (deploymentSegment d.id.text).splitOn '-'

theorem CreatedDeployment.name_toList (d : CreatedDeployment) :
    d.name.toList = appSegment d.appName ++ '-' :: deploymentSegment d.id.text :=
  String.toList_ofList

theorem CreatedDeployment.nameParts_eq (d : CreatedDeployment) :
    d.nameParts = d.name.toList.splitOn '-' := by
  rw [d.name_toList, List.splitOn_append_cons_self]
  rfl

/-! ### The objects of a deployment -/

/-- The ReplicaSets and pods of the deployment of a name. -/
structure DeploymentObjects (name : String) where
  replicaSets : List String
  pods : List String
  replicaSets_named : ∀ n ∈ replicaSets, ∃ suffix, n = name ++ "-" ++ suffix
  pods_named : ∀ n ∈ pods, ∃ suffix, n = name ++ "-" ++ suffix

/-- The object is the Deployment, or one of its ReplicaSets or pods. -/
inductive DeploymentObjects.Owns {name : String} (objects : DeploymentObjects name) :
    String → String → Prop
  | deployment : objects.Owns "Deployment" name
  | replicaSet {n : String} (h : n ∈ objects.replicaSets) : objects.Owns "ReplicaSet" n
  | pod {n : String} (h : n ∈ objects.pods) : objects.Owns "Pod" n

/-- The event is about one of the objects. -/
def EventObject.IsAbout {name : String} (event : EventObject) (objects : DeploymentObjects name) :
    Prop :=
  ∃ kind involved, event.involvedKind = some kind ∧ event.involvedName = some involved ∧
    objects.Owns kind involved

/-! ### The metrics -/

/-- `podRegex` -/
def podRegex (deploymentName : String) : String := deploymentName ++ "-.*"

/-- A pattern as Prometheus reads it: a dot is any character of a line, a dot
with a star any text of a line, and the characters of names stand for
themselves. -/
def readPattern : List Char → Regex
  | [] => .empty
  | '.' :: '*' :: rest => .seq (.many (· ≠ '\n')) (readPattern rest)
  | '.' :: rest => .seq (.char (· ≠ '\n')) (readPattern rest)
  | c :: rest => .seq (.char (· = c)) (readPattern rest)

/-- The pattern matches the whole text. -/
def matchesPattern (pattern text : String) : Bool :=
  ((readPattern pattern.toList).rests text.toList).contains []

/-! ### Attribution -/

/-- In every state of their namespace, the first deployment gets no event about
an object of the second that is not its own, and its pattern matches no such
pod. -/
def Attributed (a b : CreatedDeployment) : Prop :=
  ∀ (o : NamespaceObjects) (mine : DeploymentObjects a.name) (others : DeploymentObjects b.name),
    (∀ pod ∈ o.pods, pod.labels.lookup "rca-platform/deployment-id" = some a.id.text →
      pod.name ∈ mine.pods) →
    (∀ event ∈ o.events, event.IsAbout others → ¬ event.IsAbout mine →
      (∀ summaries, (KubernetesService.listDeploymentEvents a.«namespace» a.name
          a.managedLabels).eval o.managerAnswer = .ok summaries →
        ∀ summary ∈ summaries, summary.name ≠ some event.name) ∧
      ∀ events, (KubernetesAdapter.events a.«namespace» a.name a.appId.text a.id.text).eval
          o.evidenceAnswer = .ok events →
        ∀ k8sEvent ∈ events, k8sEvent.name ≠ event.name) ∧
    ∀ pod ∈ others.pods, pod ∉ mine.pods → matchesPattern (podRegex a.name) pod = false

/-! ### The characters of names -/

/-- Neither a dot nor anything else with a meaning in a pattern. -/
def IsNameChar (c : Char) : Prop := c.isAlphanum ∨ c = '-'

theorem mem_collapseDashes {c : Char} {s : List Char} (h : c ∈ collapseDashes s) : c ∈ s := by
  induction s using collapseDashes.induct with
  | case1 => exact h
  | case2 d => exact h
  | case3 d e s hdashes ih =>
    rw [collapseDashes, if_pos hdashes] at h
    exact List.mem_cons_of_mem _ (ih h)
  | case4 d e s hdashes ih =>
    rw [collapseDashes, if_neg hdashes] at h
    rcases List.mem_cons.mp h with rfl | h
    · exact List.mem_cons_self
    · exact List.mem_cons_of_mem _ (ih h)

theorem mem_trimDashes {c : Char} {s : List Char} (h : c ∈ trimDashes s) : c ∈ s := by
  have h' := (List.dropWhile_sublist _).mem (List.mem_reverse.mp h)
  exact (List.dropWhile_sublist _).mem (List.mem_reverse.mp h')

theorem isNameChar_of_isDnsChar {c : Char} (h : isDnsChar c = true) : IsNameChar c := by
  simp only [isDnsChar, Bool.or_eq_true, decide_eq_true_eq] at h
  simp only [IsNameChar, isAlphanum_eq, Bool.or_eq_true]
  tauto

theorem isDnsChar_appSegment (appName : String) : ∀ c ∈ appSegment appName, isDnsChar c = true := by
  intro c hc
  unfold appSegment at hc
  split at hc
  · have happ : ∀ c ∈ "app".toList, isDnsChar c = true := forall_mem_of_all (by decide)
    exact happ c hc
  · -- every character that is left is one of those that were put in place of others
    have hmem := mem_trimDashes (mem_collapseDashes (List.mem_of_mem_take (List.mem_of_mem_take hc)))
    obtain ⟨d, -, rfl⟩ := List.mem_map.mp hmem
    split
    · assumption
    · rfl

theorem isNameChar_appSegment (appName : String) : ∀ c ∈ appSegment appName, IsNameChar c :=
  fun c hc => isNameChar_of_isDnsChar (isDnsChar_appSegment appName c hc)

theorem IsNameChar.toLower {c : Char} (h : IsNameChar c) : IsNameChar c.toLower := by
  have hall : ∀ n < 128, (Char.ofNat n).isAlphanum = true ∨ Char.ofNat n = '-' →
      (Char.ofNat n).toLower.isAlphanum = true ∨ (Char.ofNat n).toLower = '-' := by decide
  have hlt : c.toNat < 128 := by
    rcases h with h | rfl
    · exact toNat_lt_of_isAlphanum h
    · decide
  exact forall_ascii (P := fun c => c.isAlphanum = true ∨ c = '-' →
    c.toLower.isAlphanum = true ∨ c.toLower = '-') hall hlt h

theorem isNameChar_deploymentSegment (id : ResourceId) :
    ∀ c ∈ deploymentSegment id.text, IsNameChar c := by
  intro c hc
  obtain ⟨d, hd, hc⟩ := List.mem_flatMap.mp hc
  have hname : IsNameChar d := id.chars d (List.mem_of_mem_take hd)
  unfold lowerCaseChar at hc
  split at hc
  · rw [List.mem_singleton.mp hc]
    exact .inl rfl
  · split at hc
    · -- the dotted capital I is no character of an id
      rename_i hdotted
      subst hdotted
      rcases hname with h | h
      · exact absurd h (by decide)
      · exact absurd h (by decide)
    · rw [List.mem_singleton.mp hc]
      exact hname.toLower

theorem CreatedDeployment.isNameChar (d : CreatedDeployment) : ∀ c ∈ d.name.toList, IsNameChar c := by
  intro c hc
  rw [d.name_toList] at hc
  rcases List.mem_append.mp hc with h | h
  · exact isNameChar_appSegment _ c h
  · rcases List.mem_cons.mp h with rfl | h
    · exact .inr rfl
    · exact isNameChar_deploymentSegment _ c h

/-- The characters of a name stand for themselves in a pattern. -/
theorem rests_readPattern {name : List Char} (hname : ∀ c ∈ name, IsNameChar c)
    {pattern text left : List Char}
    (h : left ∈ (readPattern (name ++ pattern)).rests text) :
    ∃ rest, text = name ++ rest ∧ left ∈ (readPattern pattern).rests rest := by
  induction name generalizing text with
  | nil => exact ⟨text, rfl, h⟩
  | cons c name ih =>
    have hdot : c ≠ '.' := by
      rintro rfl
      rcases hname '.' List.mem_cons_self with h | h
      · exact absurd h (by decide)
      · exact absurd h (by decide)
    have hread : readPattern (c :: (name ++ pattern)) =
        .seq (.char (· = c)) (readPattern (name ++ pattern)) := by
      rw [readPattern]
      · intro rest hc _
        exact hdot hc
      · exact hdot
    rw [List.cons_append, hread, Regex.rests, List.mem_flatMap] at h
    obtain ⟨middle, hmiddle, hleft⟩ := h
    cases text with
    | nil => simp [Regex.rests] at hmiddle
    | cons d text =>
      rw [Regex.rests] at hmiddle
      split at hmiddle
      · rename_i hd
        obtain rfl := List.mem_singleton.mp hmiddle
        obtain ⟨rest, rfl, hrest⟩ := ih (fun c hc => hname c (List.mem_cons_of_mem _ hc)) hleft
        exact ⟨rest, by rw [of_decide_eq_true hd]; rfl, hrest⟩
      · cases hmiddle

/-- A pod that matches the pattern of a deployment has its name with a hyphen. -/
theorem prefix_of_matchesPattern {d : CreatedDeployment} {pod : String}
    (h : matchesPattern (podRegex d.name) pod = true) : d.name.toList ++ ['-'] <+: pod.toList := by
  have hregex : (podRegex d.name).toList = (d.name.toList ++ ['-']) ++ ".*".toList := by
    rw [podRegex, String.toList_append, List.append_assoc]
    rfl
  have hchars : ∀ c ∈ d.name.toList ++ ['-'], IsNameChar c := by
    intro c hc
    rcases List.mem_append.mp hc with h | h
    · exact d.isNameChar c h
    · exact .inr (List.mem_singleton.mp h)
  rw [matchesPattern, List.contains_iff_mem, hregex] at h
  obtain ⟨rest, hrest, -⟩ := rests_readPattern hchars h
  exact ⟨rest, hrest.symm⟩

/-! ### Which deployments share objects -/

section Pair

variable {a b : CreatedDeployment}

/-- The two names with a hyphen after each. -/
theorem CreatedDeployment.prefix_iff_nameParts :
    a.name.toList ++ ['-'] <+: b.name.toList ++ ['-'] ↔ a.nameParts <+: b.nameParts := by
  rw [prefix_iff_splitOn, a.nameParts_eq, b.nameParts_eq]

theorem toList_named {name suffix : String} :
    (name ++ "-" ++ suffix).toList = name.toList ++ ['-'] ++ suffix.toList := by
  rw [String.toList_append, String.toList_append]
  rfl

/-- An object of a deployment, with a hyphen after it. -/
theorem DeploymentObjects.prefix_of_owns {name kind involved : String}
    {objects : DeploymentObjects name} (h : objects.Owns kind involved) :
    name.toList ++ ['-'] <+: involved.toList ++ ['-'] := by
  have hnamed : ∀ n, (∃ suffix, n = name ++ "-" ++ suffix) →
      name.toList ++ ['-'] <+: n.toList ++ ['-'] := by
    rintro n ⟨suffix, rfl⟩
    rw [toList_named, List.append_assoc]
    exact List.prefix_append _ _
  cases h with
  | deployment => exact List.prefix_refl _
  | replicaSet h => exact hnamed _ (objects.replicaSets_named _ h)
  | pod h => exact hnamed _ (objects.pods_named _ h)

/-- What a deployment gets an event for, with a hyphen after it. -/
theorem prefix_of_involves {name : String} {mine : DeploymentObjects name} {pods : List PodObject}
    (hpods : ∀ pod ∈ pods, pod.name ∈ mine.pods) {event : EventObject} {involved : String}
    (hname : event.involvedName = some involved) (h : event.involves name pods = true) :
    name.toList ++ ['-'] <+: involved.toList ++ ['-'] := by
  obtain ⟨n, hn, h⟩ := EventObject.involves_iff.mp h
  obtain rfl : involved = n := Option.some.inj (hname.symm.trans hn)
  rcases h with rfl | ⟨pod, hpod, rfl⟩ | h
  · exact List.prefix_refl _
  · exact DeploymentObjects.prefix_of_owns (.pod (hpods pod hpod))
  · rw [String.toList_append] at h
    exact h.trans (List.prefix_append _ _)

/-- The pods that either service lists have the id of the deployment. -/
theorem lookup_id_of_adapterPods {o : NamespaceObjects} {pod : PodObject} (h : pod ∈ o.adapterPods a) :
    pod ∈ o.pods ∧ pod.labels.lookup "rca-platform/deployment-id" = some a.id.text := by
  obtain ⟨hpod, hmatches⟩ := List.mem_filter.mp h
  refine ⟨hpod, matchesLabels_iff.mp hmatches _ _ ?_⟩
  simp [CreatedDeployment.adapterLabels]

theorem mem_adapterPods_of_managedPods {o : NamespaceObjects} {pod : PodObject}
    (h : pod ∈ o.managedPods a) : pod ∈ o.adapterPods a := by
  rw [o.managedPods_eq] at h
  exact List.mem_of_mem_filter h

/-- Names of which neither starts the other, with a hyphen after each, keep the
deployments apart. -/
theorem attributed_of_not_prefix (hab : ¬ a.name.toList ++ ['-'] <+: b.name.toList ++ ['-'])
    (hba : ¬ b.name.toList ++ ['-'] <+: a.name.toList ++ ['-']) : Attributed a b := by
  -- a text that both names start would make one of them start the other
  have hapart : ∀ text, a.name.toList ++ ['-'] <+: text → b.name.toList ++ ['-'] <+: text → False :=
    fun text ha hb => (List.prefix_or_prefix_of_prefix ha hb).elim hab hba
  intro o mine others hmine
  have hadapter : ∀ pod ∈ o.adapterPods a, pod.name ∈ mine.pods := by
    intro pod hpod
    obtain ⟨hmem, hid⟩ := lookup_id_of_adapterPods hpod
    exact hmine pod hmem hid
  have hmanaged : ∀ pod ∈ o.managedPods a, pod.name ∈ mine.pods := fun pod hpod =>
    hadapter pod (mem_adapterPods_of_managedPods hpod)
  constructor
  · rintro event hevent ⟨kind, involved, -, hinvolved, howns⟩ -
    have hothers := DeploymentObjects.prefix_of_owns howns
    -- no event of the same name is selected: it would be this one
    have hselected : ∀ pods, (∀ pod ∈ pods, pod.name ∈ mine.pods) →
        ∀ found ∈ o.events.filter (EventObject.involves a.name pods), found.name ≠ event.name := by
      intro pods hpods found hfound hsame
      obtain ⟨hmem, hinvolves⟩ := List.mem_filter.mp hfound
      obtain rfl : found = event := List.inj_on_of_nodup_map o.events_nodup hmem hevent hsame
      exact hapart _ (prefix_of_involves hpods hinvolved hinvolves) hothers
    constructor
    · intro summaries hsummaries summary hsummary
      rw [listDeploymentEvents_eval] at hsummaries
      obtain rfl := Except.ok.inj hsummaries
      obtain ⟨e, he, rfl⟩ := List.mem_map.mp hsummary
      obtain ⟨found, hfound, rfl⟩ := List.mem_map.mp (List.mem_insertionSort _ |>.mp he)
      intro hname
      exact hselected _ hmanaged found hfound (Option.some.inj hname)
    · intro events hevents k8sEvent hk8sEvent
      rw [adapter_events_eval] at hevents
      obtain rfl := Except.ok.inj hevents
      obtain ⟨found, hfound, rfl⟩ := List.mem_map.mp hk8sEvent
      exact hselected _ hadapter found hfound
  · intro pod hpod _
    rw [Bool.eq_false_iff]
    intro hmatches
    obtain ⟨suffix, rfl⟩ := others.pods_named pod hpod
    refine hapart _ (prefix_of_matchesPattern hmatches) ?_
    rw [toList_named]
    exact List.prefix_append _ _

/-! ### Deployments that share objects -/

/-- A warning about a ReplicaSet. -/
def replicaSetEvent (replicaSet : String) : EventObject :=
  ⟨"event", some "Warning", some "FailedCreate", none, none, some "ReplicaSet", some replicaSet,
    none, none, none, none⟩

/-- A namespace with one event, and nothing else. -/
def namespaceOf (event : EventObject) : NamespaceObjects where
  deployments := fun _ => none
  pods := []
  events := [event]
  pods_nodup := List.nodup_nil
  events_nodup := List.nodup_singleton _

/-- A deployment without pods gets an event about a ReplicaSet with its name. -/
theorem not_attributed {suffix suffix' : String}
    (h : a.name ++ "-" ++ suffix = b.name ++ "-" ++ suffix') : ¬ Attributed a b := by
  intro hattributed
  let mine : DeploymentObjects a.name := ⟨[], [], by simp, by simp⟩
  let others : DeploymentObjects b.name :=
    ⟨[b.name ++ "-" ++ suffix'], [], fun n hn => ⟨suffix', List.mem_singleton.mp hn⟩, by simp⟩
  let event := replicaSetEvent (b.name ++ "-" ++ suffix')
  have hothers : event.IsAbout others := ⟨_, _, rfl, rfl, .replicaSet List.mem_cons_self⟩
  have hmine : ¬ event.IsAbout mine := by
    rintro ⟨kind, involved, hkind, -, howns⟩
    have hkind' : "ReplicaSet" = kind := Option.some.inj hkind
    cases howns with
    | deployment => exact absurd hkind' (by decide)
    | replicaSet h => exact absurd h List.not_mem_nil
    | pod h => exact absurd h List.not_mem_nil
  have hinvolves : event.involves a.name ((namespaceOf event).adapterPods a) = true := by
    refine EventObject.involves_iff.mpr ⟨_, rfl, .inr (.inr ?_)⟩
    rw [← h, toList_named, String.toList_append]
    exact List.prefix_append _ _
  obtain ⟨hevents, -⟩ := hattributed (namespaceOf event) mine others
    (fun pod hpod => absurd hpod List.not_mem_nil)
  obtain ⟨-, hgo⟩ := hevents event List.mem_cons_self hothers hmine
  have hreturned := List.mem_filter.mpr ⟨List.mem_singleton_self event, hinvolves⟩
  exact hgo _ (adapter_events_eval _ a) _ (List.mem_map_of_mem hreturned) rfl

/-- The text of both names with something behind. -/
theorem exists_suffix (h : a.name.toList ++ ['-'] <+: b.name.toList ++ ['-']) :
    ∃ suffix, a.name ++ "-" ++ suffix = b.name ++ "-" ++ "x" := by
  obtain ⟨rest, hrest⟩ := h
  refine ⟨String.ofList rest ++ "x", String.toList_inj.mp ?_⟩
  rw [toList_named, toList_named, ← hrest, String.toList_append, String.toList_ofList,
    List.append_assoc, List.append_assoc, List.append_assoc]

/-- **Attribution.**  In every state of their namespace a deployment gets no event
and no metrics of another exactly if the parts of neither name are the first
parts of the other. -/
theorem attributed_iff (a b : CreatedDeployment) :
    Attributed a b ↔ ¬ a.nameParts <+: b.nameParts ∧ ¬ b.nameParts <+: a.nameParts := by
  rw [← CreatedDeployment.prefix_iff_nameParts, ← CreatedDeployment.prefix_iff_nameParts]
  constructor
  · intro hattributed
    constructor
    · intro hprefix
      obtain ⟨suffix, h⟩ := exists_suffix hprefix
      exact not_attributed h hattributed
    · intro hprefix
      obtain ⟨suffix, h⟩ := exists_suffix hprefix
      exact not_attributed h.symm hattributed
  · rintro ⟨hab, hba⟩
    exact attributed_of_not_prefix hab hba

end Pair

/-- An app is called like the deployment of another, and that one gets the events
of its objects. -/
theorem shop_gets_events_of_api :
    ∃ a b : CreatedDeployment, a.name = "shop-1a2b3c4d" ∧ b.name = "shop-1a2b3c4d-api-9f8e7d6c" ∧
      a.id.text ≠ b.id.text ∧ a.«namespace» = b.«namespace» ∧ ¬ Attributed a b := by
  have hshop : (deploymentOf "shop" ⟨"c0ffee00-1", forall_mem_of_all (by decide), by decide⟩
      ⟨"1a2b3c4d-5e6f", forall_mem_of_all (by decide), by decide⟩).name = "shop-1a2b3c4d" := by
    decide
  have hapi : (deploymentOf "shop-1a2b3c4d-api"
      ⟨"c0ffee00-2", forall_mem_of_all (by decide), by decide⟩
      ⟨"9f8e7d6c-5b4a", forall_mem_of_all (by decide), by decide⟩).name =
        "shop-1a2b3c4d-api-9f8e7d6c" := by decide
  refine ⟨_, _, hshop, hapi, by decide, rfl, ?_⟩
  apply not_attributed
  show _ ++ "-" ++ "api-9f8e7d6c-6b7c" = _ ++ "-" ++ "6b7c"
  rw [hshop, hapi]
  decide

end NexCause
