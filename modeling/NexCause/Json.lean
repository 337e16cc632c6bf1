/-
NexCause/Json.lean

JSON values, over any type of numbers.

An object is the list of its fields as they stand in the text; of two fields
of one name the later one counts, as it does for the decoders of JavaScript,
Go and PostgreSQL.
-/
import Mathlib.Data.List.Basic

/-- A JSON value. -/
inductive Json (ν : Type*)
  | null
  | bool (b : Bool)
  | number (n : ν)
  | string (s : String)
  | array (items : List (Json ν))
  | object (fields : List (String × Json ν))

namespace Json

variable {ν : Type*} {α : Type*}

/-! ### Fields -/

/-- The value of the last field of a name. -/
def lookup (k : String) : List (String × α) → Option α
  | [] => none
  | (k', v) :: fs => lookup k fs <|> if k' = k then some v else none

/-- The names of fields, each once. -/
def keys (fs : List (String × α)) : List String := (fs.map Prod.fst).eraseDups

/-! ### Numbers -/

mutual

/-- The numbers in a value, in the order of the text. -/
def numbers : Json ν → List ν
  | null => []
  | bool _ => []
  | number n => [n]
  | string _ => []
  | array items => numbersOfItems items
  | object fields => numbersOfFields fields

def numbersOfItems : List (Json ν) → List ν
  | [] => []
  | item :: items => numbers item ++ numbersOfItems items

def numbersOfFields : List (String × Json ν) → List ν
  | [] => []
  | (_, v) :: fields => numbers v ++ numbersOfFields fields

end

/-- Strings hold no number. -/
@[simp] theorem numbersOfItems_strings (ss : List String) :
    numbersOfItems (ss.map (string : String → Json ν)) = [] := by
  induction ss with
  | nil => rfl
  | cons s ss ih =>
    show numbers (string s) ++ numbersOfItems (ss.map string) = []
    rw [ih]
    rfl

@[simp] theorem numbersOfFields_strings (es : List (String × String)) :
    numbersOfFields (es.map fun e => (e.1, (string e.2 : Json ν))) = [] := by
  induction es with
  | nil => rfl
  | cons e es ih =>
    show numbers (string e.2) ++ numbersOfFields (es.map _) = []
    rw [ih]
    rfl

end Json
