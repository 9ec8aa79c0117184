/-!
# JSON values

Numbers without fraction and exponent are integers, all others are double
precision numbers.  An object is a list of fields.  Objects that are read have
their fields in ascending order of the keys, one field per key (`insert`).
-/

namespace DocProse

/-- A JSON value. -/
inductive Json where
  /-- The value `null`. -/
  | null
  /-- A truth value. -/
  | bool (value : Bool)
  /-- A whole number. -/
  | int (value : Int)
  /-- Any other number. -/
  | float (value : Float)
  /-- A text. -/
  | str (value : String)
  /-- A list of values. -/
  | arr (elements : List Json)
  /-- Values by key. -/
  | obj (fields : List (String × Json))
  deriving Inhabited

namespace Json

/-- Fields in ascending order with one more, which takes the place of one with the same key. -/
def insert (key : String) (value : Json) : List (String × Json) → List (String × Json)
  | [] => [(key, value)]
  | (k, v) :: fields =>
    if key < k then (key, value) :: (k, v) :: fields
    else if key = k then (key, value) :: fields
    else (k, v) :: insert key value fields

/-- An object of fields in any order, of which the last one with a key counts. -/
def object (fields : List (String × Json)) : Json :=
  .obj (fields.foldl (fun sorted (k, v) => insert k v sorted) [])

/-- A natural number. -/
def nat (n : Nat) : Json := .int n

/-- A text or `null`. -/
def optional (s : Option String) : Json := s.elim .null .str

/-- The value of a field of an object. -/
def field? (key : String) : Json → Option Json
  | .obj fields => fields.lookup key
  | _ => none

end Json

end DocProse
