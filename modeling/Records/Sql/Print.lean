import Records.Sql.Write

/-!
# The text of statements

Identifiers are delimited by double quotes, and a quote inside one is written twice.  No value ever
stands in the text; a placeholder is a dollar sign and a number, with the cast that its column
needs.
-/

set_option autoImplicit false

namespace Records.Sql

/-- A delimited identifier. -/
def quoted (name : String) : List Char :=
  '"' :: (name.toList.flatMap (fun c => if c = '"' then ['"', '"'] else [c]) ++ ['"'])

/-- Texts with a separator between them. -/
def separated (separator : List Char) : List (List Char) → List Char
  | [] => []
  | [part] => part
  | part :: parts => part ++ (separator ++ separated separator parts)

/-- Texts with commas between them. -/
def listed (parts : List (List Char)) : List Char := separated [',', ' '] parts

/-- The text of a number. -/
def numeral (n : Nat) : List Char := Numeral.ofNat n

/-- The text of an alias. -/
def Alias.text : Alias → List Char
  | .main => "main".toList
  | .nested number => 'r' :: numeral number

/-- The text of a table. -/
def TableRef.text (t : TableRef) : List Char := quoted t.schema ++ '.' :: quoted t.table

/-- The text of a column. -/
def ColumnRef.text (c : ColumnRef) : List Char := c.owner.text ++ '.' :: quoted c.column

/-- The text of a placeholder without a cast. -/
def bare (number : Nat) : List Char := '$' :: numeral number

/-- The text of a placeholder. -/
def Placeholder.text (p : Placeholder) : List Char :=
  bare p.number ++
    match p.cast with
    | some type => ':' :: ':' :: type.toList
    | none => []

/-- The word for a joiner. -/
def joinerText : Joiner → List Char
  | .and => "AND".toList
  | .or => "OR".toList

/-- The sign for a comparison of counts. -/
def comparatorText : CountComparator → List Char
  | .atLeast => ">=".toList
  | .atMost => "<=".toList
  | .exactly => "=".toList

/-- The sign for a bound of days. -/
def boundText : DateBound → List Char
  | .lower => ">=".toList
  | .upper => "<=".toList

/-- The text that ties related rows to their row. -/
def Scope.text (s : Scope) : List Char :=
  ColumnRef.text ⟨s.child, s.foreignKey⟩ ++ " = ".toList ++ ColumnRef.text ⟨s.parent, s.localKey⟩ ++
    match s.softDeleteColumn with
    | some column => " AND ".toList ++ ColumnRef.text ⟨s.child, column⟩ ++ " IS NULL".toList
    | none => []

/-- The text of the related rows after what is selected of them. -/
def Scope.source (s : Scope) : List Char :=
  " FROM ".toList ++ s.table.text ++ ' ' :: s.child.text ++ " WHERE ".toList ++ s.text

mutual

/-- The text of a condition. -/
def Condition.text : Condition → List Char
  | .isNull column negated =>
    column.text ++ (if negated then " IS NOT NULL".toList else " IS NULL".toList)
  | .equals column negated value =>
    column.text ++ (if negated then " <> ".toList else " = ".toList) ++ value.text
  | .member column negated values =>
    column.text ++ (if negated then " NOT IN (".toList else " IN (".toList)
      ++ listed (values.map Placeholder.text) ++ [')']
  | .constant holds => if holds then "1 = 1".toList else "1 = 0".toList
  | .day column bound number =>
    "CAST(".toList ++ column.text ++ " AS date) ".toList ++ boundText bound ++ ' ' :: bare number
      ++ "::date".toList
  | .like column number =>
    "CAST(".toList ++ column.text ++ " AS text) ILIKE ".toList ++ bare number
  | .existsRow negated scope inner =>
    (if negated then "NOT ".toList else []) ++ "EXISTS (SELECT 1".toList ++ scope.source
      ++ (if inner.isEmpty then [] else " AND (".toList ++ chainText inner ++ [')']) ++ [')']
  | .countRows scope comparator number =>
    "(SELECT COUNT(*)".toList ++ scope.source ++ ") ".toList ++ comparatorText comparator ++ ' ' ::
      bare number
  | .group inner => '(' :: (chainText inner ++ [')'])

/-- The text of conditions; the joiner of the first is not shown. -/
def chainText : List (Joiner × Condition) → List Char
  | [] => []
  | (_, first) :: rest => first.text ++ tailText rest

/-- The text of the conditions after the first. -/
def tailText : List (Joiner × Condition) → List Char
  | [] => []
  | (joiner, condition) :: rest =>
    ' ' :: (joinerText joiner ++ ' ' :: (condition.text ++ tailText rest))

end

/-- Whether a chain of conditions has a disjunction at its top. -/
def isDisjunctive (conditions : List (Joiner × Condition)) : Bool :=
  (conditions.drop 1).any fun entry => entry.1 = .or

/-- The text of the test on the trash mark. -/
def trashText (mark : ColumnRef × Bool) : List Char :=
  mark.1.text ++ (if mark.2 then " IS NOT NULL".toList else " IS NULL".toList)

/-- The parts of the condition of a statement, which are joined by `AND`. -/
def Restriction.parts (w : Restriction) : List (List Char) :=
  (w.trash.toList.map trashText) ++
    if w.conditions.isEmpty then []
    else if isDisjunctive w.conditions then ['(' :: (chainText w.conditions ++ [')'])]
    else [chainText w.conditions]

/-- The text of the condition of a statement. -/
def Restriction.text (w : Restriction) : List Char :=
  if w.parts.isEmpty then [] else " WHERE ".toList ++ separated " AND ".toList w.parts

/-- The text of a relation that is shown with each row. -/
def Embedded.text (e : Embedded) : List Char :=
  let rows := "row_to_json(".toList ++ e.scope.child.text ++ [')']
  let select :=
    if e.many then
      "(SELECT COALESCE(json_agg(".toList ++ rows ++ "), '[]'::json)".toList ++ e.scope.source
        ++ [')']
    else "(SELECT ".toList ++ rows ++ e.scope.source ++ " LIMIT 1)".toList
  select ++ " AS ".toList ++ quoted e.name

/-- The text of what is shown of each row. -/
def Selection.shown (s : Selection) : List Char :=
  let columns :=
    if s.columns.isEmpty then ["main.*".toList]
    else s.columns.map fun column => ColumnRef.text ⟨.main, column⟩
  listed (columns ++ s.embedded.map Embedded.text)

/-- The word for a direction. -/
def directionText : SortDirection → List Char
  | .ascending => "ASC".toList
  | .descending => "DESC".toList

/-- The text of an order. -/
def orderText (order : List (String × SortDirection)) : List Char :=
  if order.isEmpty then []
  else
    " ORDER BY ".toList ++ listed (order.map fun (column, direction) =>
      ColumnRef.text ⟨.main, column⟩ ++ ' ' :: directionText direction)

/-- The text of the extent of an answer. -/
def Extent.text : Extent → List Char
  | .window limit offset => " LIMIT ".toList ++ bare limit ++ " OFFSET ".toList ++ bare offset
  | .first => " LIMIT 1".toList

/-- The text of a table under its main alias. -/
def mainTable (t : TableRef) : List Char := t.text ++ ' ' :: Alias.main.text

/-- The text of a selection. -/
def Selection.text (s : Selection) : List Char :=
  "SELECT ".toList ++ s.shown ++ " FROM ".toList ++ mainTable s.table ++ s.restriction.text
    ++ orderText s.order ++ s.extent.text

/-- The text of a count. -/
def Tally.text (t : Tally) : List Char :=
  "SELECT COUNT(*) FROM ".toList ++ mainTable t.table ++ t.restriction.text

/-- The text that restricts a statement to given rows. -/
def Rows.text (rows : Rows) : List Char :=
  (match rows.addressed with
    | .one id => quoted rows.primaryKey ++ " = ".toList ++ id.text
    | .anyOf ids =>
      if ids.isEmpty then "1 = 0".toList
      else quoted rows.primaryKey ++ " IN (".toList ++ listed (ids.map Placeholder.text) ++ [')'])
  ++
    match rows.softDeleteColumn with
    | some column => " AND ".toList ++ quoted column ++ " IS NULL".toList
    | none => []

/-- The text of an assignment. -/
def assignedText (set : String × Assigned) : List Char :=
  quoted set.1 ++ " = ".toList ++
    match set.2 with
    | .value p => p.text
    | .now => "NOW()".toList

/-- The text that asks for the changed rows. -/
def returningText (returning : Bool) : List Char :=
  if returning then " RETURNING *".toList else []

/-- The text of a change. -/
def Change.text : Change → List Char
  | .insert table values =>
    "INSERT INTO ".toList ++ table.text ++
      (if values.isEmpty then " DEFAULT VALUES".toList
      else
        " (".toList ++ listed (values.map fun value => quoted value.1) ++ ") VALUES (".toList
          ++ listed (values.map fun value => value.2.text) ++ [')'])
      ++ returningText true
  | .fetch rows => "SELECT * FROM ".toList ++ rows.table.text ++ " WHERE ".toList ++ rows.text
  | .update rows sets returning =>
    "UPDATE ".toList ++ rows.table.text ++ " SET ".toList ++ listed (sets.map assignedText)
      ++ " WHERE ".toList ++ rows.text ++ returningText returning
  | .delete rows returning =>
    "DELETE FROM ".toList ++ rows.table.text ++ " WHERE ".toList ++ rows.text
      ++ returningText returning

end Records.Sql
