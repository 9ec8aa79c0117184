import DocProse.Toml.Value

/-!
# TOML tables

A table remembers how it came to be, because that decides what may be added to
it.  It is *implicit* while only headers and keys of tables below it have named
it, and *dotted* when a key with dots has made it.

* A header may complete an implicit table that is not dotted, once.
* A key with dots may go through implicit tables only, and ends in a dotted one.
* A header may go through any table, and through the last table of an array.
* A key may be given a value once.
-/

namespace DocProse.Toml

mutual

/-- What a key stands for. -/
inductive Item where
  /-- A value that is complete. -/
  | value (v : Value)
  /-- A table to which something may be added. -/
  | table (t : Table)
  /-- An array of tables, the last one first. -/
  | tables (last : Table) (earlier : List Table)

/-- A table under construction. -/
inductive Table where
  /-- A table with its items in the order in which they came. -/
  | mk (implicit dotted : Bool) (items : List (String × Item))

end

namespace Table

/-- Whether only what is below the table has named it. -/
def isImplicit : Table → Bool
  | .mk implicit _ _ => implicit

/-- Whether a key with dots has made it. -/
def isDotted : Table → Bool
  | .mk _ dotted _ => dotted

/-- The items of a table. -/
def items : Table → List (String × Item)
  | .mk _ _ items => items

/-- A table with other items. -/
def withItems (t : Table) (items : List (String × Item)) : Table :=
  .mk t.isImplicit t.isDotted items

/-- The table that a header starts. -/
def empty : Table := .mk false false []

/-- What a key stands for. -/
def find? (t : Table) (key : String) : Option Item := t.items.lookup key

/-- Items with another item for a key. -/
def replace (key : String) (item : Item) : List (String × Item) → List (String × Item)
  | [] => []
  | (k, i) :: items => if k = key then (k, item) :: items else (k, i) :: replace key item items

/-- A table with an item for a key, in its old place or at the end. -/
def set (t : Table) (key : String) (item : Item) : Table :=
  if (t.find? key).isSome then t.withItems (replace key item t.items)
  else t.withItems (t.items ++ [(key, item)])

/-- A table after a change of the table at a path, which goes along keys with dots or along the
keys of a header.  Tables that are missing on the way are made. -/
def change (dotted : Bool) (f : Table → Option Table) : List String → Table → Option Table
  | [], t => f t
  | key :: path, t =>
    match t.find? key with
    | none => do
      let child ← change dotted f path (.mk true dotted [])
      return t.set key (.table child)
    | some (.table child) =>
      if dotted && !child.isImplicit then none
      else do
        let child ← change dotted f path child
        return t.set key (.table child)
    | some (.tables last earlier) => do
      let last ← change dotted f path last
      return t.set key (.tables last earlier)
    | some (.value _) => none

/-- A table with a value for a key with dots: the keys of the tables on the way, and the last. -/
def addValue (path : List String) (key : String) (v : Value) : Table → Option Table :=
  change true (fun t =>
    if t.isDotted == path.isEmpty || (t.find? key).isSome then none
    else some (t.set key (.value v))) path

/-- A table after a header for the table at a path. -/
def openTable (path : List String) (key : String) : Table → Option Table :=
  change false (fun t =>
    match t.find? key with
    | none => some (t.set key (.table empty))
    | some (.table child) =>
      if child.isImplicit && !child.isDotted then
        some (t.set key (.table (.mk false false child.items)))
      else none
    | some _ => none) path

/-- A table after a header for one more table in the array at a path. -/
def openArrayTable (path : List String) (key : String) : Table → Option Table :=
  change false (fun t =>
    match t.find? key with
    | none => some (t.set key (.tables empty []))
    | some (.tables last earlier) => some (t.set key (.tables empty (last :: earlier)))
    | some _ => none) path

end Table

/-! ## What a table stands for -/

mutual

/-- The value of an item. -/
def Item.toValue : Item → Value
  | .value v => v
  | .table t => .table t.fields
  | .tables last earlier => .array (tablesToValues earlier [.table last.fields])

/-- The values of tables, the last one first, in front of others. -/
def tablesToValues : List Table → List Value → List Value
  | [], done => done
  | t :: ts, done => tablesToValues ts (.table t.fields :: done)

/-- The fields of a table, in the order in which their keys came. -/
def Table.fields : Table → List (String × Value)
  | .mk _ _ items => itemsToFields items

/-- The values of items by key. -/
def itemsToFields : List (String × Item) → List (String × Value)
  | [] => []
  | (key, item) :: items => (key, item.toValue) :: itemsToFields items

end

end DocProse.Toml
