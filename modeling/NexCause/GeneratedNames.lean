/-
NexCause/GeneratedNames.lean

Are the names that `buildResourceNames` and `buildJobName` generate names that
Kubernetes takes?  A name begins with the segment of the app, whose dashes are
trimmed, and ends with a suffix or with the segment of the id; so it is a label
of RFC 1123 whatever the app is called.  The name of a Service has to begin with
a letter as well.

Main result: all names are valid, and no object is refused for its name, exactly
if the first letter or digit of the app's name is a letter (`names_valid_iff`).
-/
import NexCause.ResourceNames
import NexCause.TenantPolicies
import NexCause.BuildJobs
import Mathlib.Data.List.DropRight

namespace NexCause

open Program

/-! ### Grammars of names -/

/-- A label of at most 63 characters. -/
def isRfc1123Label (s : List Char) : Bool := isHostLabel s && decide (s.length ≤ 63)

/-- A label that starts with a letter, as the name of a Service has to. -/
def isRfc1035Label (s : List Char) : Bool := isRfc1123Label s && s.head?.any Char.isLower

/-- A subdomain of RFC 1123: labels with dots between them. -/
def isDnsSubdomain (s : List Char) : Bool := (s.splitOn '.').all isHostLabel && decide (s.length ≤ 253)

/-- What the API server takes as the name of an object. -/
def Kind.accepts : Kind → List Char → Bool
  | .ns => isRfc1123Label
  | .service => isRfc1035Label
  | .job => isRfc1123Label
  | _ => isDnsSubdomain

/-- A label's characters, and its two ends. -/
theorem isHostLabel_iff {s : List Char} : isHostLabel s = true ↔
    (∀ c ∈ s, isDnsChar c = true) ∧ (∃ c, s.head? = some c ∧ c ≠ '-') ∧
      ∃ c, s.getLast? = some c ∧ c ≠ '-' := by
  simp [isHostLabel, Option.any_eq_true, and_assoc]

theorem dot_notMem_of_isHostLabel {s : List Char} (h : isHostLabel s = true) : '.' ∉ s :=
  fun hdot => absurd ((isHostLabel_iff.mp h).1 '.' hdot) (by decide)

/-- A label is a subdomain by itself. -/
theorem isDnsSubdomain_of_isRfc1123Label {s : List Char} (h : isRfc1123Label s = true) :
    isDnsSubdomain s = true := by
  obtain ⟨hlabel, hlength⟩ := Bool.and_eq_true_iff.mp h
  have hlength' : s.length ≤ 253 := (of_decide_eq_true hlength).trans (by decide)
  rw [isDnsSubdomain, List.splitOn_eq_singleton (dot_notMem_of_isHostLabel hlabel)]
  simp [hlabel, hlength']

/-! ### The first character of a segment -/

/-- Dashes that follow a dash are dropped, never the first character. -/
theorem head?_collapseDashes (s : List Char) : (collapseDashes s).head? = s.head? := by
  induction s using collapseDashes.induct with
  | case1 => rfl
  | case2 c => rfl
  | case3 c d s hdashes ih =>
    rw [collapseDashes, if_pos hdashes, ih, hdashes.1, hdashes.2]
    rfl
  | case4 c d s hdashes ih =>
    rw [collapseDashes, if_neg hdashes]
    rfl

theorem head?_dropWhile_dash (s : List Char) :
    (s.dropWhile (· = '-')).head? = s.find? (· ≠ '-') := by
  induction s with
  | nil => rfl
  | cons c s ih =>
    by_cases hc : c = '-'
    · simp [hc, ih]
    · simp [hc]

/-- What is left begins with the first character that is no dash. -/
theorem head?_trimDashes (s : List Char) : (trimDashes s).head? = s.find? (· ≠ '-') := by
  rw [← head?_dropWhile_dash]
  show ((s.dropWhile (· = '-')).rdropWhile (· = '-')).head? = _
  have hhead := List.head?_dropWhile_not (fun c => decide (c = '-')) s
  cases ht : s.dropWhile (· = '-') with
  | nil => rfl
  | cons c t =>
    have hc : c ≠ '-' := by simpa [ht] using hhead
    -- the dashes at the other end do not reach up to it
    have hne : (c :: t).rdropWhile (· = '-') ≠ [] := by
      intro hnil
      have hall := List.rdropWhile_eq_nil_iff.mp hnil c List.mem_cons_self
      exact hc (of_decide_eq_true hall)
    obtain ⟨rest, hrest⟩ := List.rdropWhile_prefix (fun x => decide (x = '-')) (c :: t)
    rw [← List.head?_append_of_ne_nil _ hne, hrest]

/-- `[a-z0-9]` -/
def isLetterOrDigit (c : Char) : Bool := c.isLower || c.isDigit

/-- The first letter or digit of a name, in lower case. -/
def firstLetterOrDigit (appName : String) : Option Char :=
  (toLowerCase appName.toList).find? isLetterOrDigit

theorem isDnsChar_of_isLetterOrDigit {c : Char} (h : isLetterOrDigit c = true) :
    isDnsChar c = true := by
  show (isLetterOrDigit c || _) = true
  rw [h, Bool.true_or]

theorem ne_dash_of_isLetterOrDigit {c : Char} (h : isLetterOrDigit c = true) : c ≠ '-' := by
  rintro rfl
  exact absurd h (by decide)

/-- A name starts with the first letter or digit of the application's. -/
theorem head?_toDnsSafeName (appName : String) {n : ℕ} (hn : 0 < n) :
    ((toDnsSafeName appName).take n).head? = firstLetterOrDigit appName := by
  have hfind : ((fun c => decide (c ≠ '-')) ∘ fun c => if isDnsChar c then c else '-') =
      isLetterOrDigit := by
    funext c
    show decide ((if isDnsChar c then c else '-') ≠ '-') = isLetterOrDigit c
    by_cases hc : c = '-'
    · subst hc
      rfl
    · have hsame : isDnsChar c = isLetterOrDigit c := by simp [isDnsChar, isLetterOrDigit, hc]
      rw [hsame]
      cases isLetterOrDigit c <;> simp [hc]
  rw [List.head?_take, if_neg hn.ne', toDnsSafeName, List.head?_take, if_neg (by decide),
    head?_collapseDashes, head?_trimDashes, List.find?_map, hfind, firstLetterOrDigit]
  cases hfound : (toLowerCase appName.toList).find? isLetterOrDigit with
  | none => rfl
  | some c => simp [isDnsChar_of_isLetterOrDigit (List.find?_some hfound)]

/-- A segment begins with the first letter or digit of the name, or it is `app`. -/
theorem head?_appSegment (appName : String) :
    (appSegment appName).head? = some ((firstLetterOrDigit appName).getD 'a') := by
  have hhead := head?_toDnsSafeName appName (show 0 < 32 by decide)
  unfold appSegment
  split
  next hnil =>
    rw [hnil] at hhead
    rw [← hhead]
    rfl
  next hne =>
    rw [← hhead]
    cases hs : (toDnsSafeName appName).take 32 with
    | nil => exact absurd hs hne
    | cons c t => rfl

theorem firstLetterOrDigit_ne_dash (appName : String) : (firstLetterOrDigit appName).getD 'a' ≠ '-' := by
  cases h : firstLetterOrDigit appName with
  | none => decide
  | some c => exact ne_dash_of_isLetterOrDigit (List.find?_some h)

/-- The application's part of a name is cut off. -/
theorem length_appSegment (appName : String) : (appSegment appName).length ≤ 32 := by
  unfold appSegment
  split
  · decide
  · exact (List.length_take_le _ _)

/-! ### The last characters of a segment -/

theorem isLetterOrDigit_toLower {c : Char} (h : isHexDigit c = true) :
    isLetterOrDigit c.toLower = true := by
  have hall : ∀ n < 128, isHexDigit (Char.ofNat n) = true →
      isLetterOrDigit (Char.ofNat n).toLower = true := by decide
  exact forall_ascii (P := fun c => isHexDigit c = true → isLetterOrDigit c.toLower = true) hall
    (isHexDigit_lt h) h

/-- The segment of an id is of letters and digits. -/
theorem DeploymentId.mem_segment (id : DeploymentId) :
    ∀ c ∈ deploymentSegment id.text, isLetterOrDigit c = true := by
  obtain ⟨group, htake, -, hdigits⟩ := id.take_eight
  intro c hc
  unfold deploymentSegment toLowerCase at hc
  rw [htake] at hc
  obtain ⟨d, hd, hc⟩ := List.mem_flatMap.mp hc
  rw [lowerCaseChar_hex (hdigits d hd), List.mem_singleton] at hc
  rw [hc]
  exact isLetterOrDigit_toLower (hdigits d hd)

/-! ### Names of segments -/

/-- A name of the two segments, with a text between them and one behind. -/
def segmentName (appName : String) (id : DeploymentId) (middle suffix : List Char) : List Char :=
  appSegment appName ++ middle ++ deploymentSegment id.text ++ suffix

section Names

variable (appName : String) (id : DeploymentId) {middle suffix : List Char}

/-- A generated name starts with that character, or with an `a` if there is none. -/
theorem head?_segmentName :
    (segmentName appName id middle suffix).head? = some ((firstLetterOrDigit appName).getD 'a') := by
  rw [segmentName, List.append_assoc, List.append_assoc, List.head?_append, head?_appSegment]
  rfl

/-- A generated name is a label, -/
theorem isHostLabel_segmentName (hmiddle : ∀ c ∈ middle, isDnsChar c = true)
    (hsuffix : ∀ c ∈ suffix, isDnsChar c = true) (hlast : suffix.getLast? ≠ some '-') :
    isHostLabel (segmentName appName id middle suffix) = true := by
  have hsegment : deploymentSegment id.text ≠ [] := by
    intro hnil
    have hlength := id.length_segment
    rw [hnil] at hlength
    cases hlength
  refine isHostLabel_iff.mpr ⟨?_, ⟨_, ?_, firstLetterOrDigit_ne_dash appName⟩, ?_⟩
  · intro c hc
    simp only [segmentName, List.mem_append] at hc
    -- each of the four parts has characters of a label only
    rcases hc with ((hc | hc) | hc) | hc
    · exact isDnsChar_appSegment appName c hc
    · exact hmiddle c hc
    · exact isDnsChar_of_isLetterOrDigit (id.mem_segment c hc)
    · exact hsuffix c hc
  · exact head?_segmentName appName id
  · rw [segmentName]
    cases hs : suffix.getLast? with
    -- without a suffix the name ends in the id
    | none =>
      rw [List.getLast?_eq_none_iff.mp hs, List.append_nil,
        List.getLast?_append_of_ne_nil _ hsegment, List.getLast?_eq_some_getLast hsegment]
      exact ⟨_, rfl, ne_dash_of_isLetterOrDigit (id.mem_segment _ (List.getLast_mem hsegment))⟩
    -- with one, in its last character
    | some c =>
      have hne : suffix ≠ [] := by
        rintro rfl
        cases hs
      rw [List.getLast?_append_of_ne_nil _ hne, hs]
      exact ⟨c, rfl, fun hc => hlast (by rw [hs, hc])⟩

/-- and a short one, if what is added to it is. -/
theorem isRfc1123Label_segmentName (hmiddle : ∀ c ∈ middle, isDnsChar c = true)
    (hsuffix : ∀ c ∈ suffix, isDnsChar c = true) (hlast : suffix.getLast? ≠ some '-')
    (hlength : middle.length + suffix.length ≤ 23) :
    isRfc1123Label (segmentName appName id middle suffix) = true := by
  have hshort : (segmentName appName id middle suffix).length ≤ 63 := by
    have happ := length_appSegment appName
    have hid := id.length_segment
    simp only [segmentName, List.length_append]
    omega
  rw [isRfc1123Label, isHostLabel_segmentName appName id hmiddle hsuffix hlast, Bool.true_and]
  exact decide_eq_true hshort

end Names

/-- The names, one after the other. -/
def KubernetesResourceNames.all (names : KubernetesResourceNames) : List String :=
  [names.deploymentName, names.serviceName, names.configMapName] ++ names.fileConfigMapName.toList ++
    names.secretName.toList ++ names.secretFileSecretName.toList ++
    [names.httpRouteName, names.httpRedirectRouteName]

/-- What is appended to a base. -/
def nameSuffixes : List String :=
  ["", "-svc", "-env", "-files", "-secret", "-secret-files", "-route", "-redirect"]

/-- The names of a deployment's objects have one base. -/
theorem all_buildResourceNames (appName deploymentId : String) :
    (buildResourceNames appName deploymentId).all =
      nameSuffixes.map fun suffix => baseName appName deploymentId ++ suffix := by
  show _ = (_ ++ "") :: _
  rw [String.append_empty]
  rfl

theorem nameSuffixes_valid : ∀ suffix ∈ nameSuffixes, (∀ c ∈ suffix.toList, isDnsChar c = true) ∧
    suffix.toList.getLast? ≠ some '-' ∧ suffix.toList.length ≤ 22 := by
  have hchars : ∀ text ∈ nameSuffixes.map String.toList, ∀ c ∈ text, isDnsChar c = true :=
    forall_mem_mem_of_all (by decide)
  have hends : ∀ suffix ∈ nameSuffixes, suffix.toList.getLast? ≠ some '-' ∧
      suffix.toList.length ≤ 22 := by decide
  intro suffix hsuffix
  exact ⟨hchars _ (List.mem_map_of_mem hsuffix), hends suffix hsuffix⟩

theorem toList_baseName_append (appName suffix : String) (id : DeploymentId) :
    (baseName appName id.text ++ suffix).toList = segmentName appName id ['-'] suffix.toList := by
  simp only [String.toList_append, baseName_toList, segmentName, List.append_assoc, List.cons_append,
    List.nil_append]

/-- Every generated name of an object is a label. -/
theorem isRfc1123Label_resourceNames {appName : String} {id : DeploymentId} {name : String}
    (h : name ∈ (buildResourceNames appName id.text).all) : isRfc1123Label name.toList = true := by
  rw [all_buildResourceNames] at h
  obtain ⟨suffix, hsuffix, rfl⟩ := List.mem_map.mp h
  obtain ⟨hchars, hlast, hlength⟩ := nameSuffixes_valid suffix hsuffix
  rw [toList_baseName_append]
  refine isRfc1123Label_segmentName appName id (forall_mem_of_all (by decide)) hchars hlast ?_
  rw [List.length_singleton]
  omega

/-- The name of a build's Job is a label. -/
theorem isRfc1123Label_buildJobName (appName : String) (id : DeploymentId) :
    isRfc1123Label (buildJobName appName id.text).toList = true := by
  have hname : (buildJobName appName id.text).toList =
      segmentName appName id "-build-".toList [] := by
    rw [segmentName, List.append_nil]
    exact String.toList_ofList
  rw [hname]
  exact isRfc1123Label_segmentName appName id (forall_mem_of_all (by decide))
    (fun c hc => absurd hc List.not_mem_nil) (by decide) (by decide)

/-- The first letter or digit of the name, if it has one, is a letter. -/
def StartsWithLetter (appName : String) : Prop := ∀ c ∈ firstLetterOrDigit appName, c.isLower = true

theorem isRfc1035Label_serviceName_iff (appName : String) (id : DeploymentId) :
    isRfc1035Label (buildResourceNames appName id.text).serviceName.toList = true ↔
      StartsWithLetter appName := by
  have hlabel : isRfc1123Label (buildResourceNames appName id.text).serviceName.toList = true :=
    isRfc1123Label_resourceNames (List.mem_cons_of_mem _ List.mem_cons_self)
  have hname : (buildResourceNames appName id.text).serviceName.toList =
      segmentName appName id ['-'] "-svc".toList := toList_baseName_append appName "-svc" id
  rw [isRfc1035Label, hlabel, Bool.true_and, hname, head?_segmentName, Option.any_some]
  unfold StartsWithLetter
  cases firstLetterOrDigit appName with
  | none => simp
  | some c => simp

/-! ### What a deployment creates -/

section

variable {S : ObjectKey → Prop}

/-- `ensureNamespace` is about the namespace and its policies. -/
theorem ensureNamespace_on_keys {config : ServiceConfig} {«namespace» : String} (labels : Entries)
    (hns : S ⟨.ns, "", «namespace»⟩)
    (hpolicies : ∀ policy ∈ buildTenantNetworkPolicyManifests config.applicationGatewayName
      config.applicationGatewayNamespace, S ⟨.networkPolicy, «namespace», policy.1⟩) :
    (ensureNamespace config «namespace» labels).Calls (Call.On S) := by
  have hread : (readObject ⟨.ns, "", «namespace»⟩ >>= fun _ => pure () : Action Unit).Calls
      (Call.On S) := (on_perform hns).bind fun _ => trivial
  unfold ensureNamespace
  refine (hread.tryCatch fun _ => onNotFound_calls (on_perform hns) _).bind fun _ => ?_
  split
  · unfold reconcileTenantNetworkPolicies
    split
    · trivial
    · exact (upsertPolicies_on hpolicies).tryCatch fun _ => trivial
  · trivial

/-- A deployment is about the namespace, its policies and the objects of its names. -/
theorem deployImage_on {config : ServiceConfig} {input : DeployImageInput}
    (hns : S ⟨.ns, "", input.«namespace»⟩)
    (hpolicies : ∀ policy ∈ buildTenantNetworkPolicyManifests config.applicationGatewayName
      config.applicationGatewayNamespace, S ⟨.networkPolicy, input.«namespace», policy.1⟩)
    (hobjects : ∀ key ∈ input.names.objects input.«namespace», S key) :
    (deployImage config input).Calls (Call.On S) := by
  have hworkload : input.Workload S := by
    constructor
    case deployment | service | configMap =>
      exact hobjects _ (by simp [KubernetesResourceNames.objects])
    case fileConfigMap | secret | secretFiles =>
      intro name hname
      exact hobjects _ (by simp [KubernetesResourceNames.objects, hname])
  apply deployImage_calls (ensureNamespace_on_keys _ hns hpolicies) hworkload
  apply enableApplicationRouting_calls hns
  · exact fun _ => hobjects _ (by simp [KubernetesResourceNames.objects])
  · exact fun _ => hobjects _ (by simp [KubernetesResourceNames.objects])

end

/-- A call that creates an object, other than the namespace, gives it a name that the API server takes. -/
def Call.NameAccepted (c : Call) : Prop :=
  ∀ key resourceVersion m, c = .kubernetes (.create key resourceVersion m) →
    key.kind ≠ .ns → key.kind.accepts key.name.toList = true

/-- The names of an app's deployment and build are what Kubernetes asks of names. -/
structure NamesValid (appName : String) (deploymentId buildId : DeploymentId) : Prop where
  resources : ∀ name ∈ (buildResourceNames appName deploymentId.text).all,
    name ≠ "" ∧ isRfc1123Label name.toList = true
  job : buildJobName appName buildId.text ≠ "" ∧
    isRfc1123Label (buildJobName appName buildId.text).toList = true
  service : isRfc1035Label (buildResourceNames appName deploymentId.text).serviceName.toList = true
  accepted : ∀ (config : ServiceConfig) (input : DeployImageInput),
    input.names = buildResourceNames appName deploymentId.text →
      (deployImage config input).Calls Call.NameAccepted

theorem ne_empty_of_isRfc1123Label {name : String} (h : isRfc1123Label name.toList = true) :
    name ≠ "" := by
  rintro rfl
  exact absurd h (by decide)

/-- Every object of the names goes by a label; a Service has a name of its own grammar. -/
theorem accepts_objects {appName «namespace» : String} {id : DeploymentId} {key : ObjectKey}
    (hletter : StartsWithLetter appName)
    (h : key ∈ (buildResourceNames appName id.text).objects «namespace») :
    key.kind.accepts key.name.toList = true := by
  have hlabel : ∀ {name : String}, name ∈ (buildResourceNames appName id.text).all →
      isDnsSubdomain name.toList = true :=
    fun hname => isDnsSubdomain_of_isRfc1123Label (isRfc1123Label_resourceNames hname)
  have hservice := (isRfc1035Label_serviceName_iff appName id).mpr hletter
  simp only [KubernetesResourceNames.objects, List.mem_append, List.mem_map, List.mem_cons,
    List.not_mem_nil, or_false, Option.mem_toList] at h
  rcases h with (((rfl | ⟨name, hname, rfl⟩) | ⟨name, hname, rfl⟩) | ⟨name, hname, rfl⟩) |
    rfl | rfl | rfl | rfl
  · exact hlabel (by simp [KubernetesResourceNames.all])
  · exact hlabel (by simp [KubernetesResourceNames.all, hname])
  · exact hlabel (by simp [KubernetesResourceNames.all, hname])
  · exact hlabel (by simp [KubernetesResourceNames.all, hname])
  · exact hlabel (by simp [KubernetesResourceNames.all])
  · exact hservice
  · exact hlabel (by simp [KubernetesResourceNames.all])
  · exact hlabel (by simp [KubernetesResourceNames.all])

/-- **The generated names are valid exactly if the app's name starts with a letter.** -/
theorem names_valid_iff (appName : String) (deploymentId buildId : DeploymentId) :
    NamesValid appName deploymentId buildId ↔ StartsWithLetter appName := by
  constructor
  · -- the name of the Service is the one that needs a letter
    intro h
    exact (isRfc1035Label_serviceName_iff appName deploymentId).mp h.service
  · -- the name of the Service is the one that needs a letter
    intro hletter
    refine ⟨fun name hname => ?_, ?_, ?_, fun config input hnames => ?_⟩
    · have hlabel := isRfc1123Label_resourceNames hname
      exact ⟨ne_empty_of_isRfc1123Label hlabel, hlabel⟩
    · have hlabel := isRfc1123Label_buildJobName appName buildId
      exact ⟨ne_empty_of_isRfc1123Label hlabel, hlabel⟩
    · exact (isRfc1035Label_serviceName_iff appName deploymentId).mpr hletter
    · let S : ObjectKey → Prop := fun key => key.kind ≠ .ns → key.kind.accepts key.name.toList = true
      -- the names of the policies are fixed
      have hpolicies : ∀ policy ∈ buildTenantNetworkPolicyManifests config.applicationGatewayName
          config.applicationGatewayNamespace, S ⟨.networkPolicy, input.«namespace», policy.1⟩ := by
        intro policy hpolicy _
        have hmem : policy.1 ∈ ["default-deny-ingress", "allow-same-namespace",
            "allow-shared-gateway"] := List.mem_map_of_mem (f := Prod.fst) hpolicy
        have hall : ∀ name ∈ ["default-deny-ingress", "allow-same-namespace",
            "allow-shared-gateway"], isRfc1123Label name.toList = true := by decide
        exact isDnsSubdomain_of_isRfc1123Label (hall _ hmem)
      -- every call of a deployment is on an object whose name is accepted
      have hcalls : (deployImage config input).Calls (Call.On S) := by
        refine deployImage_on (fun hkind => absurd rfl hkind) hpolicies fun key hkey _ => ?_
        rw [hnames] at hkey
        exact accepts_objects hletter hkey
      refine hcalls.mono fun c => ?_
      rintro ⟨op, rfl, hop⟩ key resourceVersion m heq hkind
      obtain rfl : op = _ := Call.kubernetes.inj heq
      exact hop hkind

/-- A name that starts with a digit. -/
theorem service_name_starts_with_digit :
    ¬∀ (appName : String) (deploymentId buildId : DeploymentId),
      NamesValid appName deploymentId buildId := by
  intro h
  let id : DeploymentId := ⟨"3b241101-e2bb-4255-8caf-4136c566a962", by decide,
    forall_mem_mem_of_all (by decide)⟩
  have hservice := (h "1shop" id id).service
  revert hservice
  decide +kernel

end NexCause
