import Records.Number.Numeral
import Records.Store.Basic

/-!
# Changing rows

Seeding, inserting, updating and deleting.  Of a resource with a trash only live rows are changed,
and deleting marks them.  What an operation takes from outside, the time and an unused identifier,
is an argument.
-/

set_option autoImplicit false

namespace Records

/-- What an operation takes from outside the store. -/
structure Supply where
  /-- The current time. -/
  now : String
  /-- An identifier that no row has. -/
  identifier : String
deriving DecidableEq, Repr

namespace Store

/-- A row with every column of its resource, null where it had none. -/
def completed (r : Resource) (row : Row) : Row :=
  r.columns.foldl (fun row column => Fields.putNew row column.name .null) row

/-- Adds rows as they are given, completed.  A fault leaves the rows before it. -/
def seedRows (r : Resource) (rows : List Row) : List Json → List Row × Except Fault Unit
  | [] => (rows, .ok ())
  | .obj fields :: rest => seedRows r (rows ++ [completed r fields]) rest
  | _ :: _ => (rows, .error (.badRequest (.seedRow r.name)))

/-- Adds rows to a resource as they are given. -/
def seed (model : Model) (store : Store) (resource : String) (rows : List Json) :
    Store × Except Fault Unit :=
  match model.requireResource resource with
  | .error why => (store, .error why)
  | .ok r =>
    let (rows, result) := seedRows r (store.rows r.name) rows
    (store.setRows r.name rows, result)

/-- The integer that a key stands for. -/
def keyNumber? : Json → Option Int
  | .str s => Numeral.int64? s
  | value => value.int64?

/-- The integer keys of some rows. -/
def keyNumbers (r : Resource) (rows : List Row) : List Int :=
  rows.filterMap fun row => (Fields.get? row r.primaryKey).bind keyNumber?

/-- The key after the greatest one, in 64-bit arithmetic; the first key is one. -/
def nextNumber (keys : List Int) : Int :=
  (match keys.max? with
    | some greatest => greatest + 1
    | none => 1).bmod (Nat.pow 2 64)

/-- The key of a new row that is given none; textual keys are not generated. -/
def generatedKey? (supply : Supply) (r : Resource) (rows : List Row) : Option Json :=
  match r.keyType with
  | .int => some (.int (nextNumber (keyNumbers r rows)))
  | .bigInt => some (.int (nextNumber (keyNumbers r rows)))
  | .uuid => some (.str supply.identifier)
  | .text => none

/-- Gives a column a value where it has none. -/
def fillNull (row : Row) (column : String) (value : Json) : Row :=
  match Row.present? row column with
  | some _ => row
  | none => Fields.put row column value

/-- Gives a column the current time where it has no value, if the resource has the column. -/
def fillTime (supply : Supply) (r : Resource) (row : Row) (column : String) : Row :=
  if r.hasColumn column then fillNull row column (.str supply.now) else row

/-- The values that data gives the columns of a resource, null where it gives none. -/
def columnValues (r : Resource) (data : Fields) : Row :=
  Fields.ofWritten (r.columns.map fun c => (c.name, (Fields.get? data c.name).getD .null))

/-- The row that is inserted for data. -/
def newRow (supply : Supply) (r : Resource) (rows : List Row) (data : Fields) : Row :=
  let row := columnValues r data
  let row :=
    match generatedKey? supply r rows with
    | some key => fillNull row r.primaryKey key
    | none => row
  fillTime supply r (fillTime supply r row r.timestampColumn) Resource.updatedColumn

/-- Inserts a row. -/
def insert (supply : Supply) (store : Store) (r : Resource) (data : Fields) : Row × Store :=
  let rows := store.rows r.name
  let row := newRow supply r rows data
  (row, store.setRows r.name (rows ++ [row]))

/-- Changes the first row that passes a test; with the changed row. -/
def changeFirst (test : Row → Bool) (change : Row → Row) : List Row → Option (Row × List Row)
  | [] => none
  | row :: rest =>
    if test row then some (change row, change row :: rest)
    else (changeFirst test change rest).map fun (changed, rest) => (changed, row :: rest)

/-- Removes the first row that passes a test; with the removed row. -/
def removeFirst (test : Row → Bool) : List Row → Option (Row × List Row)
  | [] => none
  | row :: rest =>
    if test row then some (row, rest)
    else (removeFirst test rest).map fun (removed, rest) => (removed, row :: rest)

/-- Whether a row is live and has a key. -/
def isAddressed (r : Resource) (id : Json) (row : Row) : Bool :=
  Row.isLive r row && Row.hasKey r id row

/-- A row after an update. -/
def updatedRow (supply : Supply) (r : Resource) (data : Fields) (row : Row) : Row :=
  let changes := r.changedFields data
  let changed := changes.foldl (fun row field => Fields.put row field.1 field.2) row
  if !changes.isEmpty && r.stampsUpdate data then
    Fields.put changed Resource.updatedColumn (.str supply.now)
  else changed

/-- The outcome of a step that may have found no row. -/
def outcome (store : Store) (r : Resource) : Option (Row × List Row) → Option Row × Store
  | some (row, rows) => (some row, store.setRows r.name rows)
  | none => (none, store)

/-- Updates the live row of a key, if there is one. -/
def update (supply : Supply) (store : Store) (r : Resource) (id : Json) (data : Fields) :
    Option Row × Store :=
  store.outcome r
    (changeFirst (isAddressed r id) (updatedRow supply r data) (store.rows r.name))

/-- A row with its trash mark set. -/
def trash (supply : Supply) (column : String) (row : Row) : Row :=
  Fields.put row column (.str supply.now)

/-- Deletes the row of a key, if there is one. -/
def delete (supply : Supply) (store : Store) (r : Resource) (id : Json) : Option Row × Store :=
  store.outcome r <|
    match r.softDeleteColumn with
    | some column => changeFirst (isAddressed r id) (trash supply column) (store.rows r.name)
    | none => removeFirst (Row.hasKey r id) (store.rows r.name)

/-- Whether a row is live and has one of some keys. -/
def isAddressedIn (r : Resource) (ids : List Json) (row : Row) : Bool :=
  Row.isLive r row && ids.any fun id => Row.hasKey r id row

/-- Deletes the rows of some keys; with their number. -/
def deleteIn (supply : Supply) (store : Store) (r : Resource) (ids : List Json) : Nat × Store :=
  let rows := store.rows r.name
  let hit := isAddressedIn r ids
  let left :=
    match r.softDeleteColumn with
    | some column => rows.map fun row => if hit row then trash supply column row else row
    | none => rows.filter fun row => !hit row
  (rows.countP hit, store.setRows r.name left)

end Store

end Records
