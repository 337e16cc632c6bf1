/-
NexCause/Redaction.lean

The redaction of log lines: `redact` of the evidence server
(`preprocess/logs.go`) and of the deployment manager's Loki client
(`loki-telemetry.client.ts`).  Each replaces the matches of two patterns, one
after the other.
-/
import NexCause.JavaScript
import NexCause.Regex

namespace NexCause

open Regex

/-- What a replacement puts in place of a credential. -/
def redactedMark : List Char := "[REDACTED]".toList

/-! ### Classes -/

/-- A letter of the patterns, in any case, as Go's `(?i)` folds it: the long s
and the Kelvin sign are cases of `s` and `k`. -/
def goFoldEq (a c : Char) : Bool :=
  c.toLower = a || (a = 's' && c = '\u017f') || (a = 'k' && c = '\u212a')

/-- A letter of the patterns, in any case, as JavaScript's `i` flag folds it. -/
def jsFoldEq (a c : Char) : Bool := c.toLower = a

/-- Go's `\s`. -/
def goSpace (c : Char) : Bool := c ∈ ['\t', '\n', '\u000c', '\r', ' ']

/-- `[-A-Za-z0-9._~+/]`. -/
def isTokenChar (c : Char) : Bool := c.isAlphanum || c ∈ ['.', '_', '~', '+', '/', '-']

/-- The same class under Go's `(?i)`, with the cases of `s` and `k`. -/
def goTokenChar (c : Char) : Bool := isTokenChar c || c = '\u017f' || c = '\u212a'

/-! ### Patterns -/

/-- `password|secret|token|api[_-]?key`. -/
def secretKeyWord (eq : Char → Char → Bool) : Regex :=
  alt (word eq "password".toList) (alt (word eq "secret".toList) (alt (word eq "token".toList)
    (seq (word eq "api".toList) (seq (optional fun c => c = '_' || c = '-') (word eq "key".toList)))))

/-- `authorization:\s*bearer\s+`. -/
def bearerPrefix (eq : Char → Char → Bool) (space : Char → Bool) : Regex :=
  seq (word eq "authorization:".toList) (seq (many space) (seq (word eq "bearer".toList) (many1 space)))

/-- `[-A-Za-z0-9._~+/]+=*`. -/
def bearerToken (token : Char → Bool) : Regex := seq (many1 token) (many fun c => c = '=')

/-- `secretPatterns` of the evidence server: the first captures the key
without its equals sign. -/
def secretPatterns : List Pattern :=
  [{ captured := secretKeyWord goFoldEq
     rest := seq (char fun c => c = '=') (many1 fun c => !goSpace c) },
   { captured := bearerPrefix goFoldEq goSpace, rest := bearerToken goTokenChar }]

/-- `SECRET_PATTERNS` of the Loki client: the first captures the key with its
equals sign. -/
def LokiTelemetryClient.secretPatterns : List Pattern :=
  [{ captured := seq (secretKeyWord jsFoldEq) (char fun c => c = '=')
     rest := many1 fun c => !isWhiteSpace c },
   { captured := bearerPrefix jsFoldEq isWhiteSpace, rest := bearerToken isTokenChar }]

/-- `redact` of the evidence server. -/
def redact (line : List Char) : List Char :=
  secretPatterns.foldl (fun redacted pattern => pattern.replaceAll redactedMark redacted) line

/-- `redact` of the Loki client. -/
def LokiTelemetryClient.redact (line : List Char) : List Char :=
  secretPatterns.foldl (fun current pattern => pattern.replaceAll redactedMark current) line

end NexCause
