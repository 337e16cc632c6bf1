/-
NexCause/PublicHostname.lean

`buildPublicHostname` of `deployment-routing.ts`, with its own copy of
`toDnsSafeName`: does the host name that is made public begin with the name of
the workload?  The copy does not cut at 45 characters, and both callers cut at
32 (`segment_eq`).

Main result: it throws exactly if the wildcard is not an asterisk before two
labels or more, and otherwise returns the name of the Deployment in their domain
(`hostname_matches`).
-/
import NexCause.Grammars
import NexCause.GeneratedNames

namespace NexCause

open scoped Computability

namespace DeploymentRouting

/-! ### The source -/

/-- `[a-z0-9](?:[-a-z0-9]*[a-z0-9])?` -/
def labelPattern : Language Char :=
  Grammar.oneOf isLetterOrDigit *
    Grammar.optional ((Grammar.oneOf isDnsChar)∗ * Grammar.oneOf isLetterOrDigit)

/-- `^\*\.label(?:\.label)+$` -/
def WILDCARD_HOSTNAME_PATTERN : Language Char :=
  {['*', '.']} * (labelPattern * Grammar.many1 ({['.']} * labelPattern))

theorem mem_labelPattern {s : List Char} : s ∈ labelPattern ↔ isHostLabel s = true := by
  have hletter : ∀ c, isLetterOrDigit c = true ↔ isDnsChar c = true ∧ c ≠ '-' := by
    intro c
    refine ⟨fun h => ⟨isDnsChar_of_isLetterOrDigit h, ne_dash_of_isLetterOrDigit h⟩, ?_⟩
    rintro ⟨h, hne⟩
    simpa [isDnsChar, isLetterOrDigit, hne] using h
  rw [labelPattern, Language.mem_mul, isHostLabel_iff]
  constructor
  · rintro ⟨_, ⟨first, hfirst, rfl⟩, rest, hrest, rfl⟩
    rw [hletter] at hfirst
    rcases Grammar.mem_optional.mp hrest with rfl | hrest
    · simpa using hfirst
    · obtain ⟨middle, hmiddle, _, ⟨last, hlast, rfl⟩, rfl⟩ := Language.mem_mul.mp hrest
      rw [Grammar.mem_kstar_oneOf] at hmiddle
      rw [hletter] at hlast
      refine ⟨?_, ⟨first, rfl, hfirst.2⟩, last, ?_, hlast.2⟩
      · simp only [List.mem_append, List.mem_singleton]
        rintro c (rfl | hc | rfl)
        exacts [hfirst.1, hmiddle c hc, hlast.1]
      · show ((first :: middle) ++ [last]).getLast? = some last
        exact List.getLast?_concat
  · rintro ⟨hall, ⟨first, hhead, hfirst⟩, last, hlast, hne⟩
    cases s with
    | nil => cases hhead
    | cons c s =>
      obtain rfl : c = first := Option.some.inj hhead
      obtain ⟨hc, hs⟩ := List.forall_mem_cons.mp hall
      refine ⟨[c], ⟨c, (hletter c).mpr ⟨hc, hfirst⟩, rfl⟩, s, ?_, rfl⟩
      rcases List.eq_nil_or_concat s with rfl | ⟨middle, d, rfl⟩
      · exact .inl rfl
      · -- the last character is no dash
        rw [List.concat_eq_append] at hs hlast ⊢
        obtain rfl : d = last := by
          have hconcat : ((c :: middle) ++ [d]).getLast? = some d := List.getLast?_concat
          exact Option.some.inj (hconcat.symm.trans hlast)
        refine Grammar.mem_optional.mpr (.inr (Language.append_mem_mul ?_ ?_))
        · exact Grammar.mem_kstar_oneOf.mpr fun x hx => hs x (List.mem_append_left _ hx)
        · exact ⟨d, (hletter d).mpr ⟨hs d (by simp), hne⟩, rfl⟩

/-- Two labels or more, with dots between them. -/
def IsDomain (s : List Char) : Prop :=
  ∃ labels : List (List Char), 2 ≤ labels.length ∧ (∀ label ∈ labels, isHostLabel label = true) ∧
    s = ['.'].intercalate labels

theorem mem_pattern {s : List Char} :
    s ∈ WILDCARD_HOSTNAME_PATTERN ↔ ∃ domain, IsDomain domain ∧ s = '*' :: '.' :: domain := by
  -- behind the asterisk: two labels or more
  have hdomain : ∀ domain, domain ∈ labelPattern * Grammar.many1 ({['.']} * labelPattern) ↔
      IsDomain domain := by
    intro domain
    rw [Grammar.many1, mul_assoc, ← Grammar.listOf, Language.mem_mul]
    constructor
    · rintro ⟨first, hfirst, _, ⟨_, rfl, rest, hrest, rfl⟩, rfl⟩
      obtain ⟨labels, hne, hlabels, rfl⟩ := Grammar.mem_listOf_singleton.mp hrest
      refine ⟨first :: labels, ?_, ?_, ?_⟩
      · have hpos := List.length_pos_of_ne_nil hne
        rw [List.length_cons]
        omega
      · exact List.forall_mem_cons.mpr
          ⟨mem_labelPattern.mp hfirst, fun l hl => mem_labelPattern.mp (hlabels l hl)⟩
      · rw [List.intercalate_cons_of_ne_nil hne, List.append_assoc]
    · rintro ⟨labels, hlength, hlabels, rfl⟩
      -- the pattern reads the first label apart from the others
      obtain ⟨first, rest, rfl⟩ : ∃ first rest, labels = first :: rest :=
        List.exists_cons_of_length_pos (by omega)
      have hne : rest ≠ [] := by
        rintro rfl
        rw [List.length_singleton] at hlength
        omega
      obtain ⟨hfirst, hlabels⟩ := List.forall_mem_cons.mp hlabels
      rw [List.intercalate_cons_of_ne_nil hne, List.append_assoc]
      refine ⟨first, mem_labelPattern.mpr hfirst, _, ⟨_, rfl, _, ?_, rfl⟩, rfl⟩
      exact Grammar.mem_listOf_singleton.mpr ⟨_, hne,
        fun l hl => mem_labelPattern.mpr (hlabels l hl), rfl⟩
  rw [WILDCARD_HOSTNAME_PATTERN, Language.mem_mul]
  constructor
  · rintro ⟨_, rfl, domain, h, rfl⟩
    exact ⟨domain, (hdomain domain).mp h, rfl⟩
  · rintro ⟨domain, h, rfl⟩
    exact ⟨_, rfl, domain, (hdomain domain).mpr h, rfl⟩

theorem mem_pattern_iff {s : List Char} :
    s ∈ WILDCARD_HOSTNAME_PATTERN ↔ isWildcardHostname s = true := by
  rw [mem_pattern]
  constructor
  · rintro ⟨_, ⟨labels, hlength, hlabels, rfl⟩, rfl⟩
    have hne : labels ≠ [] := by
      rintro rfl
      cases hlength
    have hsplit : (['.'].intercalate labels).splitOn '.' = labels :=
      List.splitOn_intercalate '.' (fun l hl => dot_notMem_of_isHostLabel (hlabels l hl)) hne
    simp only [isWildcardHostname, hsplit, hlength, decide_true, Bool.true_and, List.all_eq_true]
    exact hlabels
  · intro h
    unfold isWildcardHostname at h
    split at h
    next domain =>
      obtain ⟨hlength, hlabels⟩ := Bool.and_eq_true_iff.mp h
      exact ⟨domain, ⟨domain.splitOn '.', of_decide_eq_true hlength, List.all_eq_true.mp hlabels,
        (List.intercalate_splitOn _).symm⟩, rfl⟩
    next => cases h

instance : DecidablePred (· ∈ WILDCARD_HOSTNAME_PATTERN) :=
  fun _ => decidable_of_iff _ mem_pattern_iff.symm

/-- The copy of the module, without a cut. -/
def toDnsSafeName (value : String) : List Char :=
  collapseDashes (trimDashes ((toLowerCase value.toList).map fun c => if isDnsChar c then c else '-'))

def buildPublicHostname (appName deploymentId wildcardHostname : String) : Except String String :=
  let wildcard := toLowerCase (trim wildcardHostname.toList)
  if wildcard ∉ WILDCARD_HOSTNAME_PATTERN then
    .error "APPLICATION_WILDCARD_HOSTNAME must be a valid wildcard hostname"
  else
    let appSegment := (toDnsSafeName appName).take 32
    let deploymentSegment := toLowerCase (deploymentId.toList.take 8)
    .ok (String.ofList ((if appSegment = [] then "app".toList else appSegment) ++
      '-' :: deploymentSegment ++ '.' :: wildcard.drop 2))

/-! ### The name of the workload -/

/-- Both copies of the slug are cut at 32 characters. -/
theorem segment_eq (appName : String) :
    (toDnsSafeName appName).take 32 = (NexCause.toDnsSafeName appName).take 32 := by
  rw [NexCause.toDnsSafeName, List.take_take, toDnsSafeName]
  rfl

/-- What is built is the name of the workload before what stands behind the asterisk. -/
theorem buildPublicHostname_of_mem {appName deploymentId wildcardHostname : String}
    (h : toLowerCase (trim wildcardHostname.toList) ∈ WILDCARD_HOSTNAME_PATTERN) :
    buildPublicHostname appName deploymentId wildcardHostname =
      .ok (baseName appName deploymentId ++ "." ++
        String.ofList ((toLowerCase (trim wildcardHostname.toList)).drop 2)) := by
  rw [buildPublicHostname, if_neg (not_not_intro h)]
  refine congrArg Except.ok (String.toList_inj.mp ?_)
  simp only [segment_eq, String.toList_append, baseName, String.toList_ofList, List.append_assoc]
  rfl

theorem buildPublicHostname_eq (appName deploymentId wildcardHostname : String) :
    (buildPublicHostname appName deploymentId wildcardHostname).toOption =
      NexCause.buildPublicHostname appName deploymentId wildcardHostname := by
  unfold NexCause.buildPublicHostname
  by_cases h : toLowerCase (trim wildcardHostname.toList) ∈ WILDCARD_HOSTNAME_PATTERN
  · rw [buildPublicHostname_of_mem h, if_pos (mem_pattern_iff.mp h)]
    rfl
  · rw [buildPublicHostname, if_pos h, if_neg (fun hw => h (mem_pattern_iff.mpr hw))]
    rfl

/-- The host name goes by the workload: the wildcard decides whether there is one, and the
name of the Deployment is its first label. -/
structure HostnameMatches (appName : String) (id : DeploymentId) (wildcardHostname : String) :
    Prop where
  throws : (∃ message, buildPublicHostname appName id.text wildcardHostname = .error message) ↔
    ¬∃ domain, IsDomain domain ∧ toLowerCase (trim wildcardHostname.toList) = '*' :: '.' :: domain
  returns : ∀ domain, IsDomain domain →
    toLowerCase (trim wildcardHostname.toList) = '*' :: '.' :: domain →
      buildPublicHostname appName id.text wildcardHostname =
        .ok ((buildResourceNames appName id.text).deploymentName ++ "." ++ String.ofList domain)
  label : ∀ hostname, buildPublicHostname appName id.text wildcardHostname = .ok hostname →
    ∃ label, (hostname.toList.splitOn '.').head? = some label ∧ isRfc1123Label label = true ∧
      label.length ≤ 41

/-- **The public host name is the name of the workload in the domain of the wildcard.** -/
theorem hostname_matches (appName : String) (id : DeploymentId) (wildcardHostname : String) :
    HostnameMatches appName id wildcardHostname where
  -- an invalid pattern is the only thing it throws for
  throws := by
    rw [← mem_pattern]
    constructor
    · rintro ⟨message, hthrows⟩ h
      rw [buildPublicHostname_of_mem h] at hthrows
      cases hthrows
    · intro h
      exact ⟨_, if_pos h⟩
  returns := by
    intro domain hdomain hwildcard
    rw [buildPublicHostname_of_mem (mem_pattern.mpr ⟨domain, hdomain, hwildcard⟩), hwildcard]
    rfl
  label := by
    intro hostname hreturns
    have h : toLowerCase (trim wildcardHostname.toList) ∈ WILDCARD_HOSTNAME_PATTERN := by
      by_contra h
      rw [buildPublicHostname, if_pos h] at hreturns
      cases hreturns
    rw [buildPublicHostname_of_mem h] at hreturns
    obtain rfl := Except.ok.inj hreturns
    have hlabel : isRfc1123Label (baseName appName id.text).toList = true :=
      isRfc1123Label_resourceNames (List.mem_cons_self)
    -- the name has no dot, so the first label is the whole of it
    have hdot := dot_notMem_of_isHostLabel (Bool.and_eq_true_iff.mp hlabel).1
    refine ⟨(baseName appName id.text).toList, ?_, hlabel, ?_⟩
    · have hdots : ".".toList = ['.'] := rfl
      rw [String.toList_append, String.toList_append, hdots, List.append_assoc,
        List.singleton_append, List.splitOn_append_cons_self_of_not_mem hdot]
      rfl
    · have happ := length_appSegment appName
      have hid := id.length_segment
      rw [baseName_toList, List.length_append, List.length_cons]
      omega

end DeploymentRouting

end NexCause
