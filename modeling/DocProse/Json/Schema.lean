import DocProse.Decimal.Notation
import DocProse.Json.Number
import DocProse.Text.Quoted

/-!
# Reading typed data from JSON values

A *reader* takes a JSON value to a typed one or says why it cannot.  A record is
read from an object or from the list of its fields in the order of declaration.

* In an object the values of the declared fields are read in ascending order of
  their keys, and the first bad one decides.  Then missing fields are reported,
  in the order of declaration.  Undeclared keys do not matter.
* In a list the elements are read in order.  A list that ends too early is
  reported when the missing element is reached, one that is too long at the end.
-/

namespace DocProse.Json

/-! ## Why a value cannot be read -/

/-- What a reader wants to see. -/
inductive Wanted where
  /-- A list. -/
  | list
  /-- A text. -/
  | text
  /-- A natural number of 64 bits. -/
  | size
  /-- A list of two elements. -/
  | pair
  /-- A record with this name. -/
  | record (name : String)
  /-- The elements of a record with this name and number of fields. -/
  | fields (name : String) (count : Nat)
  /-- A tag, as a text or as the only key of an object. -/
  | tag
  /-- The value `null`. -/
  | nothing
  deriving DecidableEq, Repr

/-- Why a value cannot be read. -/
inductive ReadError where
  /-- A value of one kind where another one is wanted. -/
  | wrongKind (found : Json) (wanted : Wanted)
  /-- A negative number where a size is wanted. -/
  | negative (found : Int)
  /-- An object with no key or more than one where a tag is wanted. -/
  | notOneKey
  /-- A list that ends too early. -/
  | tooShort (length : Nat) (wanted : Wanted)
  /-- A list that goes on too long. -/
  | tooLong (length : Nat)
  /-- A field that is not there. -/
  | missing (field : String)
  /-- A tag that is not known among these. -/
  | unknownTag (tag : String) (known : List String)

/-- A name between backticks. -/
def ticked (s : String) : String := "\x60" ++ s ++ "\x60"

/-- The words for a value that was found. -/
def describeFound : Json → String
  | .null => "null"
  | .bool b => "boolean " ++ ticked (toString b)
  | .int n => "integer " ++ ticked (toString n)
  | .float x => "floating point " ++ ticked (Decimal.positional x)
  | .str s => "string " ++ Text.quoted s
  | .arr _ => "sequence"
  | .obj _ => "map"

/-- The words for what is wanted. -/
def Wanted.describe : Wanted → String
  | .list => "a sequence"
  | .text => "a string"
  | .size => "usize"
  | .pair => "an array of length 2"
  | .record name => "struct " ++ name
  | .fields name count => "struct " ++ name ++ " with " ++ toString count ++ " elements"
  | .tag => "string or map"
  | .nothing => "unit"

/-- The message for a value that cannot be read. -/
def ReadError.message : ReadError → String
  | .wrongKind found wanted =>
    "invalid type: " ++ describeFound found ++ ", expected " ++ wanted.describe
  | .negative n => "invalid value: integer " ++ ticked (toString n) ++ ", expected usize"
  | .notOneKey => "invalid value: map, expected map with a single key"
  | .tooShort length wanted =>
    "invalid length " ++ toString length ++ ", expected " ++ wanted.describe
  | .tooLong length => "invalid length " ++ toString length ++ ", expected fewer elements in array"
  | .missing field => "missing field " ++ ticked field
  | .unknownTag tag known =>
    "unknown variant " ++ ticked tag ++ ", expected " ++ " or ".intercalate (known.map ticked)

/-! ## Readers of simple values -/

/-- A reader of some type. -/
abbrev Reader (α : Type) := Json → Except ReadError α

/-- A text. -/
def readText : Reader String
  | .str s => .ok s
  | v => .error (.wrongKind v .text)

/-- A natural number of 64 bits. -/
def readSize : Reader Nat
  | .int (.ofNat n) => if n ≤ maxWord then .ok n else .error (.wrongKind (.int n) .size)
  | .int n => .error (.negative n)
  | v => .error (.wrongKind v .size)

/-- All elements of a list, in order. -/
def readElements {α : Type} (read : Reader α) : List Json → Except ReadError (List α)
  | [] => .ok []
  | v :: vs => do
    let x ← read v
    let xs ← readElements read vs
    return x :: xs

/-- A list. -/
def readList {α : Type} (read : Reader α) : Reader (List α)
  | .arr vs => readElements read vs
  | v => .error (.wrongKind v .list)

/-- Any value. -/
def readAny : Reader Json := .ok

/-- One of some tags: the text itself, or an object with it as the only key and `null` there. -/
def readTag {α : Type} (tags : List (String × α)) : Reader α := fun v =>
  match v with
  | .str s => find s
  | .obj [(key, content)] => do
    let tag ← find key
    match content with
    | .null => return tag
    | other => .error (.wrongKind other .nothing)
  | .obj _ => .error .notOneKey
  | v => .error (.wrongKind v .tag)
where
  /-- The tag with a name. -/
  find (name : String) : Except ReadError α :=
    match tags.lookup name with
    | some tag => .ok tag
    | none => .error (.unknownTag name (tags.map (·.1)))

/-! ## Fields and elements of records -/

/-- The value of a field, if the field is there. -/
def readField {α : Type} (fields : List (String × Json)) (key : String) (read : Reader α) :
    Except ReadError (Option α) :=
  match fields.lookup key with
  | none => .ok none
  | some v => (read v).map some

/-- The value of a field that has to be there. -/
def required {α : Type} (key : String) : Option α → Except ReadError α
  | some x => .ok x
  | none => .error (.missing key)

/-- The element at an index that has to be there. -/
def readElement {α : Type} (vs : List Json) (i : Nat) (wanted : Wanted) (read : Reader α) :
    Except ReadError α :=
  match vs[i]? with
  | some v => read v
  | none => .error (.tooShort i wanted)

/-- Accepts a list that has no more than some number of elements. -/
def noMore (vs : List Json) (count : Nat) : Except ReadError Unit :=
  if vs.length ≤ count then .ok () else .error (.tooLong vs.length)

/-- A list of two elements. -/
def readPair {α : Type} (read : Reader α) : Reader (α × α)
  | .arr vs => do
    let x ← readElement vs 0 .pair read
    let y ← readElement vs 1 .pair read
    noMore vs 2
    return (x, y)
  | v => .error (.wrongKind v .pair)

end DocProse.Json
