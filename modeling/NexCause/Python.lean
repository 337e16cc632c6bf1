/-
NexCause/Python.lean

The few notions of Python that the agent leans on: values of JSON texts, their
truth, lookups in them, iteration, and the conversions to `str` and `dict`.

Where a value has another shape than the code expects, Python raises
(`AttributeError`, `KeyError`, `TypeError`, `IndexError`, `ValueError`); here
that is `none`.
-/
import NexCause.JavaScript
import NexCause.Json

namespace NexCause.Python

open Json

/-- How Python reads the numbers of a JSON text and prints its values. -/
class Reading (ν : Type) where
  /-- the number is zero -/
  isZero : ν → Bool
  /-- `str` of a value that is no string -/
  print : Json ν → String

variable {ν : Type}

/-- `bool(value)` -/
def truthy [Reading ν] : Json ν → Bool
  | .null => false
  | .bool b => b
  | .number n => !Reading.isZero n
  | .string s => s ≠ ""
  | .array items => !items.isEmpty
  | .object fields => !fields.isEmpty

/-- `str(value)` -/
def str [Reading ν] : Json ν → String
  | .string s => s
  | v => Reading.print v

/-- `value.get(key, fallback)` -/
def get (key : String) (fallback : Json ν) : Json ν → Option (Json ν)
  | .object fields => some ((lookup key fields).getD fallback)
  | _ => none

/-- `value[key]` -/
def item (key : String) : Json ν → Option (Json ν)
  | .object fields => lookup key fields
  | _ => none

/-- The items that `for … in value` runs through. -/
def iter : Json ν → Option (List (Json ν))
  | .array items => some items
  | .object fields => some ((keys fields).map .string)
  | .string s => some (s.toList.map fun c => .string (String.singleton c))
  | _ => none

/-- A value that can be an element of a set. -/
def hashable : Json ν → Bool
  | .array _ => false
  | .object _ => false
  | _ => true

/-- The entry that `dict` makes of an element of a list, if its key is a string. -/
def entry (v : Json ν) : Option (String × Json ν) :=
  match iter v with
  | some [.string key, value] => some (key, value)
  | _ => none

/-- `dict(value)`, with strings as keys -/
def dict : Json ν → Option (List (String × Json ν))
  | .object fields => some fields
  | v => do (← iter v).mapM entry

/-- `value.lower()`, as far as ASCII words can be found in it. -/
def lower : Json ν → Option (List Char)
  | .string s => some (toLowerCase s.toList)
  | _ => none

end NexCause.Python
