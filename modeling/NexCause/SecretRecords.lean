/-
NexCause/SecretRecords.lean

The secret runtime config of a deployment, as its writer leaves it and as its
three readers report it.

`buildRuntimeConfigRecords` writes the names of the secrets under `envKeys`
and `filePaths`.  The deployments service and the evidence service of the
deployment manager know this format and the older one, which holds the values
under `env` and `files`.  The evidence server (`preprocess/runtime.go`) knows
the older one only: of every written record it reports no name at all
(`written_server`), so that the three agree on the older records and on no
other (`reported_alike_iff`).
-/
import NexCause.Json
import NexCause.DeploymentPrograms

namespace NexCause

open Json Program

variable {ν : Type*}

/-! ### Readers -/

/-- The names in a secret record. -/
structure SecretKeys where
  envKeys : List String
  filePaths : List String
  deriving DecidableEq, Repr

/-- The same names on both sides. -/
def SecretKeys.Same (a b : SecretKeys) : Prop :=
  (∀ k, k ∈ a.envKeys ↔ k ∈ b.envKeys) ∧ ∀ p, p ∈ a.filePaths ↔ p ∈ b.filePaths

/-- What Go's decoder makes of a number: its text, and whether it fits a
`float64`. -/
structure GoNumbers (ν : Type*) where
  text : ν → String
  fitsFloat64 : ν → Bool

/-- What the readers make of a number; JavaScript needs its `String`. -/
structure NumberReading (ν : Type*) extends GoNumbers ν where
  toJsString : ν → String

/-- The `data` of a config that the evidence server reports. -/
inductive ReportedData (ν : Type*)
  | parseError (message : String)
  | secret (keys : SecretKeys)
  | record (fields : List (String × Json ν))

/-- Go's word for the kind of a value. -/
def kindName : Json ν → String
  | null => "null"
  | .bool _ => "bool"
  | number _ => "number"
  | string _ => "string"
  | array _ => "array"
  | object _ => "object"

/-- `json.Unmarshal` into a `map[string]any`: a number that no `float64` holds
fails it, wherever it stands. -/
def unmarshalMap (t : GoNumbers ν) : Json ν → Except String (List (String × Json ν))
  | null => .ok []
  | object fields =>
      match (numbersOfFields fields).find? fun n => !t.fitsFloat64 n with
      | some n =>
          .error ("json: cannot unmarshal number " ++ t.text n ++ " into Go value of type float64")
      | none => .ok fields
  | v =>
      .error ("json: cannot unmarshal " ++ kindName v ++
        " into Go value of type map[string]interface \x7b\x7d")

/-- `objectKeys` of the evidence server. -/
def objectKeys : Option (Json ν) → List String
  | some (object fields) => keys fields
  | _ => []

/-- The `data` of `sanitizeRuntimeConfig` of the evidence server. -/
def sanitizeRuntimeConfig (t : GoNumbers ν) (type : RuntimeConfigType) (data : Json ν) :
    ReportedData ν :=
  match unmarshalMap t data with
  | .error message => .parseError message
  | .ok record =>
      if type = .secret then
        .secret { envKeys := objectKeys (lookup "env" record)
                  filePaths := objectKeys (lookup "files" record) }
      else .record record

mutual

/-- JavaScript's `String` of a parsed value, with `none` for the error it
throws on an object whose own `toString` hides the inherited one. -/
def jsString (t : NumberReading ν) : Json ν → Option String
  | null => some "null"
  | .bool b => some (toString b)
  | number n => some (t.toJsString n)
  | string s => some s
  | array items => (jsStrings t items).map (",".intercalate ·)
  | object fields => if (lookup "toString" fields).isSome then none else some "[object Object]"

/-- The strings that `join` puts together: nothing for a null. -/
def jsStrings (t : NumberReading ν) : List (Json ν) → Option (List String)
  | [] => some []
  | null :: items => (jsStrings t items).map ("" :: ·)
  | item :: items => do return (← jsString t item) :: (← jsStrings t items)

end

/-- The names under `list`, or else the keys of the object under `map`. -/
def secretNames (t : NumberReading ν) (list map : String) (record : List (String × Json ν)) :
    Option (List String) :=
  match lookup list record with
  | some (array items) => items.mapM (jsString t)
  | _ =>
      match lookup map record with
      | some (object fields) => some (keys fields)
      | _ => some []

/-- The text that the two services of the deployment manager share. -/
def redactSecretData (t : NumberReading ν) : Json ν → Option SecretKeys
  | object record => do
      let envKeys ← secretNames t "envKeys" "env" record
      let filePaths ← secretNames t "filePaths" "files" record
      return { envKeys, filePaths }
  | _ => some { envKeys := [], filePaths := [] }

/-- `redactSecretRuntimeConfig` of `deployments.service.ts`. -/
def DeploymentsService.redactSecretRuntimeConfig (t : NumberReading ν) (data : Json ν) :
    Option SecretKeys := redactSecretData t data

/-- `redactSecretRuntimeConfig` of `evidence.service.ts`. -/
def EvidenceService.redactSecretRuntimeConfig (t : NumberReading ν) (data : Json ν) :
    Option SecretKeys := redactSecretData t data

/-! ### Records -/

/-- A string map as JSON. -/
def jsonOfEntries (es : Entries) : Json ν := object (es.map fun e => (e.1, string e.2))

/-- A runtime config as the database holds it. -/
def RuntimeConfigData.toJson : RuntimeConfigData → Json ν
  | .values entries => jsonOfEntries entries
  | .secretKeys envKeys filePaths =>
      object [("envKeys", array (envKeys.map string)), ("filePaths", array (filePaths.map string))]
  | .legacySecret env files => object [("env", jsonOfEntries env), ("files", jsonOfEntries files)]

/-- A secret record: one written for a create request, or one of the older
format, which holds the two maps and no list of names. -/
inductive SecretRecord (ν : Type*)
  | written (env secrets files secretFiles : Entries) (data : RuntimeConfigData)
      (record : ⟨.secret, data⟩ ∈ buildRuntimeConfigRecords env secrets files secretFiles)
  | legacy (fields env files : List (String × Json ν))
      (henv : lookup "env" fields = some (object env))
      (hfiles : lookup "files" fields = some (object files))
      (henvKeys : ∀ items, lookup "envKeys" fields ≠ some (array items))
      (hfilePaths : ∀ items, lookup "filePaths" fields ≠ some (array items))

/-- The JSON of the record. -/
def SecretRecord.data : SecretRecord ν → Json ν
  | .written _ _ _ _ data _ => data.toJson
  | .legacy fields _ _ _ _ _ _ => object fields

def SecretRecord.IsLegacy : SecretRecord ν → Prop
  | .written .. => False
  | .legacy .. => True

/-- The names of the request, where the record was written for one. -/
def SecretRecord.Requested : SecretRecord ν → SecretKeys → Prop
  | .written _ secrets _ secretFiles _ _, names => names.Same ⟨secrets.keys, secretFiles.keys⟩
  | .legacy .., _ => True

/-- The three readers report the same names, those of the request. -/
def SecretRecord.ReportedAlike (t : NumberReading ν) (r : SecretRecord ν) : Prop :=
  ∃ server deployments evidence,
    sanitizeRuntimeConfig t.toGoNumbers .secret r.data = .secret server ∧
    DeploymentsService.redactSecretRuntimeConfig t r.data = some deployments ∧
    EvidenceService.redactSecretRuntimeConfig t r.data = some evidence ∧
    server.Same deployments ∧ server.Same evidence ∧ r.Requested server

/-! ### What the writer leaves -/

/-- The secret record of a request holds the names of its secrets, and there is
one only if there is a name. -/
theorem mem_buildRuntimeConfigRecords {env secrets files secretFiles : Entries}
    {data : RuntimeConfigData} :
    ⟨.secret, data⟩ ∈ buildRuntimeConfigRecords env secrets files secretFiles ↔
      (secrets ≠ [] ∨ secretFiles ≠ []) ∧ data = .secretKeys secrets.keys secretFiles.keys := by
  unfold buildRuntimeConfigRecords
  have henv : (⟨.secret, data⟩ : RuntimeConfig) ∉
      if env.length > 0 then [⟨.env, .values env⟩] else [] := by
    split <;> simp
  have hfiles : (⟨.secret, data⟩ : RuntimeConfig) ∉
      if files.length > 0 then [⟨.file, .values files⟩] else [] := by
    split <;> simp
  rw [List.mem_append, List.mem_append, or_iff_left hfiles, or_iff_right henv]
  split
  · rename_i h
    simp only [List.length_pos_iff, gt_iff_lt] at h
    simp [h]
  · rename_i h
    simp only [List.length_pos_iff, gt_iff_lt] at h
    simp [h]

/-! ### What the readers report -/

theorem redactSecretData_object {t : NumberReading ν} {record : List (String × Json ν)}
    {envKeys filePaths : List String} (henv : secretNames t "envKeys" "env" record = some envKeys)
    (hfiles : secretNames t "filePaths" "files" record = some filePaths) :
    redactSecretData t (object record) = some ⟨envKeys, filePaths⟩ := by
  show (secretNames t "envKeys" "env" record).bind (fun e =>
    (secretNames t "filePaths" "files" record).bind fun f => some (⟨e, f⟩ : SecretKeys)) = _
  rw [henv, hfiles]
  rfl

theorem mapM_jsString_strings (t : NumberReading ν) (ss : List String) :
    (ss.map string).mapM (jsString t) = some ss := by
  induction ss with
  | nil => rfl
  | cons s ss ih =>
    rw [List.map_cons, List.mapM_cons, ih]
    rfl

/-- The deployment manager reports the names of a written record. -/
theorem written_manager (t : NumberReading ν) (envKeys filePaths : List String) :
    redactSecretData t (RuntimeConfigData.secretKeys envKeys filePaths).toJson =
      some ⟨envKeys, filePaths⟩ := by
  apply redactSecretData_object
  · exact mapM_jsString_strings t envKeys
  · exact mapM_jsString_strings t filePaths

/-- The evidence server reports no name of a written record: it looks for the
maps of the older format. -/
theorem written_server (t : GoNumbers ν) (envKeys filePaths : List String) :
    sanitizeRuntimeConfig t .secret (RuntimeConfigData.secretKeys envKeys filePaths).toJson =
      .secret ⟨[], []⟩ := by
  have hnumbers : numbersOfFields [("envKeys", array (envKeys.map string)),
      ("filePaths", array (filePaths.map (string : String → Json ν)))] = [] := by
    simp [numbersOfFields, numbers]
  have hparse : unmarshalMap t (RuntimeConfigData.secretKeys envKeys filePaths).toJson =
      .ok [("envKeys", array (envKeys.map string)), ("filePaths", array (filePaths.map string))] := by
    simp [RuntimeConfigData.toJson, unmarshalMap, hnumbers]
  unfold sanitizeRuntimeConfig
  rw [hparse]
  rfl

/-- Of a record of the older format the deployment manager reports the keys of
the two maps. -/
theorem legacy_manager (t : NumberReading ν) {fields env files : List (String × Json ν)}
    (henv : lookup "env" fields = some (object env))
    (hfiles : lookup "files" fields = some (object files))
    (henvKeys : ∀ items, lookup "envKeys" fields ≠ some (array items))
    (hfilePaths : ∀ items, lookup "filePaths" fields ≠ some (array items)) :
    redactSecretData t (object fields) = some ⟨keys env, keys files⟩ := by
  have names : ∀ {list map : String} {record}, lookup map fields = some (object record) →
      (∀ items, lookup list fields ≠ some (array items)) →
      secretNames t list map fields = some (keys record) := by
    intro list map record hmap hlist
    unfold secretNames
    split
    · rename_i items h
      exact absurd h (hlist items)
    · rw [hmap]
  exact redactSecretData_object (names henv henvKeys) (names hfiles hfilePaths)

/-- The evidence server reports the same, if it can read the record's numbers. -/
theorem legacy_server (t : GoNumbers ν) {fields env files : List (String × Json ν)}
    (henv : lookup "env" fields = some (object env))
    (hfiles : lookup "files" fields = some (object files)) :
    sanitizeRuntimeConfig t .secret (object fields) = .secret ⟨keys env, keys files⟩ ↔
      ∀ n ∈ numbersOfFields fields, t.fitsFloat64 n := by
  unfold sanitizeRuntimeConfig
  cases hfind : (numbersOfFields fields).find? fun n => !t.fitsFloat64 n with
  | some n =>
    have hn : t.fitsFloat64 n = false := by simpa using List.find?_some hfind
    have hmem : n ∈ numbersOfFields fields := List.mem_of_find?_eq_some hfind
    simp only [unmarshalMap, hfind]
    constructor
    · intro h
      cases h
    · intro h
      rw [h n hmem] at hn
      cases hn
  | none =>
    have hfit : ∀ n ∈ numbersOfFields fields, t.fitsFloat64 n := by
      simpa [List.find?_eq_none] using hfind
    simp only [unmarshalMap, hfind, henv, hfiles]
    exact iff_of_true rfl hfit

/-- What the evidence server reports of a record of the older format, if it
reports names at all. -/
theorem legacy_server_keys {t : GoNumbers ν} {fields env files : List (String × Json ν)}
    (henv : lookup "env" fields = some (object env))
    (hfiles : lookup "files" fields = some (object files)) {server : SecretKeys}
    (h : sanitizeRuntimeConfig t .secret (object fields) = .secret server) :
    server = ⟨keys env, keys files⟩ := by
  unfold sanitizeRuntimeConfig at h
  split at h
  · cases h
  · rename_i record hrecord
    have hfields : record = fields := by
      unfold unmarshalMap at hrecord
      dsimp only at hrecord
      split at hrecord
      · cases hrecord
      · exact (Except.ok.inj hrecord).symm
    rw [hfields, henv, hfiles] at h
    exact (ReportedData.secret.inj h).symm

/-! ### The three readers against the writer -/

/-- **The three readers agree on the older records only**: they report the same
names of a secret record, those of its request, exactly if the record is one of
the older format and holds no number that the evidence server cannot read. -/
theorem reported_alike_iff (t : NumberReading ν) (r : SecretRecord ν) :
    r.ReportedAlike t ↔ r.IsLegacy ∧ ∀ n ∈ r.data.numbers, t.fitsFloat64 n := by
  cases r with
  | written env secrets files secretFiles data record =>
    obtain ⟨hne, rfl⟩ := mem_buildRuntimeConfigRecords.mp record
    refine iff_of_false ?_ fun h => h.1
    rintro ⟨server, -, -, hserver, -, -, -, -, hrequested⟩
    -- the server reports nothing, yet the request names something
    have hempty : server = ⟨[], []⟩ := by
      have := written_server t.toGoNumbers secrets.keys secretFiles.keys
      exact ReportedData.secret.inj (hserver.symm.trans this)
    rw [hempty] at hrequested
    have hnone : ∀ {es : Entries}, (∀ k, k ∈ ([] : List String) ↔ k ∈ es.keys) → es = [] := by
      intro es hes
      have : es.keys = [] := List.eq_nil_iff_forall_not_mem.mpr fun k hk => nomatch (hes k).mpr hk
      exact List.map_eq_nil_iff.mp this
    rcases hne with hne | hne
    · exact hne (hnone hrequested.1)
    · exact hne (hnone hrequested.2)
  | legacy fields env files henv hfiles henvKeys hfilePaths =>
    have hmanager := legacy_manager t henv hfiles henvKeys hfilePaths
    rw [show (SecretRecord.legacy fields env files henv hfiles henvKeys hfilePaths).IsLegacy ↔ True
      from Iff.rfl, true_and]
    show _ ↔ ∀ n ∈ numbersOfFields fields, t.fitsFloat64 n
    rw [← legacy_server t.toGoNumbers henv hfiles]
    constructor
    · rintro ⟨server, -, -, hserver, -⟩
      have hkeys := legacy_server_keys henv hfiles hserver
      rw [← hkeys]
      exact hserver
    · intro hserver
      exact ⟨_, _, _, hserver, hmanager, hmanager, ⟨fun _ => Iff.rfl, fun _ => Iff.rfl⟩,
        ⟨fun _ => Iff.rfl, fun _ => Iff.rfl⟩, trivial⟩

/-- The record of one secret is not reported alike. -/
theorem not_reported_alike :
    ¬ ∀ (t : NumberReading ℕ) (r : SecretRecord ℕ), r.ReportedAlike t := by
  intro h
  have hrecord : (⟨.secret, .secretKeys ["API_KEY"] []⟩ : RuntimeConfig) ∈
      buildRuntimeConfigRecords [] [("API_KEY", "value")] [] [] := by decide
  obtain ⟨server, deployments, -, hserver, hdeployments, -, hsame, -⟩ :=
    h ⟨⟨toString, fun _ => true⟩, toString⟩ (.written _ _ _ _ _ hrecord)
  have hs := ReportedData.secret.inj ((written_server _ ["API_KEY"] []).symm.trans hserver)
  have hd := Option.some.inj ((written_manager _ ["API_KEY"] []).symm.trans hdeployments)
  rw [← hs, ← hd] at hsame
  exact nomatch (hsame.1 "API_KEY").mpr List.mem_cons_self

end NexCause
