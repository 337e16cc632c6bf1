/-
NexCause/Decoding.lean

`json.Unmarshal` of the evidence server, by the kind of its target.  A key of
an object goes to the field of a struct whose name it folds to, and a field
whose key comes up more than once is decoded into each time.
-/
import NexCause.Evidence

namespace NexCause.Decoding

open Json

/-- The values that the decoder puts into the field of a struct: those of all
keys that fold to its name. -/
def fieldValues (name : String) (fields : List (String × Json String)) : List (Json String) :=
  (fields.filter fun f => Go.foldName f.1 = name.toList).map Prod.snd

/-- The error of the decoder. -/
def unmarshalError (kind type : String) : String :=
  "json: cannot unmarshal " ++ kind ++ " into Go value of type " ++ type

/-- Decode into a struct: the fields of all its objects. -/
def decodeStruct (values : List (Json String)) : Except String (List (String × Json String)) :=
  values.foldlM (fun fields v => match v with
    | object fs => .ok (fields ++ fs)
    | null => .ok fields
    | v => .error (unmarshalError (kindName v) "struct")) []

/-- Decode into a slice: the last array. -/
def decodeSlice (values : List (Json String)) : Except String (List (Json String)) :=
  values.foldlM (fun _ v => match v with
    | array items => .ok items
    | null => .ok []
    | v => .error (unmarshalError (kindName v) "slice")) []

def decodeString (values : List (Json String)) : Except String String :=
  values.foldlM (fun s v => match v with
    | string s => .ok s
    | null => .ok s
    | v => .error (unmarshalError (kindName v) "string")) ""

/-- Decode into a map of strings. -/
def decodeLabels (values : List (Json String)) : Except String (List (String × String)) :=
  values.foldlM (fun labels v => match v with
    | object fs => do
        let new ← fs.mapM fun f => do return (f.1, ← decodeString [f.2])
        return labels ++ new
    | null => .ok []
    | v => .error (unmarshalError (kindName v) "map[string]string")) []

/-- Decode into an `any`: a number has to fit a `float64`. -/
def decodeAny (v : Json String) : Except String (Json String) :=
  match v.numbers.find? fun n => (Go.parseFloat n.toList).isNone with
  | some n => .error (unmarshalError ("number " ++ n) "float64")
  | none => .ok v

/-- Decode into a `map[string]any`: every object adds its fields. -/
def decodeMap (values : List (Json String)) : Except String (List (String × Json String)) :=
  values.foldlM (fun fields v => match v with
    | object fs => do
        let new ← fs.mapM fun f => do return (f.1, ← decodeAny f.2)
        return fields ++ new
    | null => .ok []
    | v => .error (unmarshalError (kindName v) "map[string]interface")) []

end NexCause.Decoding
