import Records.Filter.Items
import Records.Flavor
import Records.Query.Terms
import Records.Text.Blank

/-!
# Listing parameters

Everything a client may ask of a listing, read from one JSON object.  Of several faults the first in
the order search, counts, page, limit, page size, sort, filters is reported.
-/

set_option autoImplicit false

namespace Records

/-- A bound on the number of related rows. -/
structure CountBound where
  relation : String
  comparator : CountComparator
  count : Int
  /-- Whether the constraint begins a new alternative. -/
  disjoin : Bool
deriving DecidableEq, Repr

/-- The column a listing is sorted by. -/
structure SortKey where
  key : String
  direction : SortDirection
deriving DecidableEq, Repr

/-- Everything a client asks of a listing. -/
structure ListParams where
  search : Option String := none
  page : Option Nat := none
  limit : Option Nat := none
  perPage : Option Nat := none
  sort : Option SortKey := none
  filters : Filters := {}
  counts : List CountBound := []
deriving Repr

namespace CountBound

/-- Reads the number of a constraint. -/
def number (key : String) (value : Json) : Except Fault Int :=
  let n :=
    match value with
    | .int n => (Json.int n).int64?
    | .str s => Numeral.int64? (Text.trim s)
    | _ => none
  match n with
  | some n => if 0 ≤ n then .ok n else .error (.invalid (.countValue key))
  | none => .error (.invalid (.countValue key))

/-- The bound that an object names: `min`, else `max`, else `exact`; null is no bound. -/
def bound? (fields : Fields) : Option (CountComparator × Json) :=
  let named (name : String) (comparator : CountComparator) :=
    (Json.present? (Fields.get? fields name)).map fun value => (comparator, value)
  (named "min" .atLeast).or ((named "max" .atMost).or (named "exact" .exactly))

/-- Reads a constraint.  Only one given as a bare number can begin a new alternative. -/
def parse (field : String × Json) : Except Fault CountBound :=
  let key := field.1
  let (relation, disjoin) :=
    match Text.dropStart? ['o', 'r', ':'] key.toList with
    | some rest => (String.ofList rest, true)
    | none => (key, false)
  match field.2 with
  | .obj fields =>
    match bound? fields with
    | some (comparator, value) => (number key value).map fun n => ⟨relation, comparator, n, false⟩
    | none => .error (.invalid (.countBound key))
  | value => (number key value).map fun n => ⟨relation, .atLeast, n, disjoin⟩

end CountBound

namespace ListParams

/-- The page size when none is asked for. -/
def defaultPageSize : Nat := 10

/-- The greatest length of a search term, in characters. -/
def maxSearchLength : Nat := 255

/-- Reads the search term; the empty one is none. -/
def parseSearch : Option Json → Except Fault (Option String)
  | none => .ok none
  | some .null => .ok none
  | some (.str s) =>
    if maxSearchLength < s.length then .error (.invalid (.searchLength maxSearchLength))
    else .ok (if s.isEmpty then none else some s)
  | some _ => .error (.invalid .searchKind)

/-- Reads the constraints on related rows. -/
def parseCounts : Option Json → Except Fault (List CountBound)
  | none => .ok []
  | some .null => .ok []
  | some (.obj fields) => fields.mapM CountBound.parse
  | some _ => .error (.invalid .countsShape)

/-- Reads a number of at least one; null and the empty text are none. -/
def parsePositive (name : String) (value : Option Json) : Except Fault (Option Nat) :=
  let checked : Option Nat → Except Fault (Option Nat)
    | some n => if 1 ≤ n then .ok (some n) else .error (.invalid (.notPositive name))
    | none => .error (.invalid (.notPositive name))
  match value with
  | none => .ok none
  | some .null => .ok none
  | some (.int n) => checked (Json.int n).nat64?
  | some (.str s) => if s.isEmpty then .ok none else checked (Numeral.nat64? (Text.trim s))
  | some _ => .error (.invalid (.notPositive name))

/-- Reads a direction; descending unless said otherwise, the case of ASCII letters aside. -/
def parseDirection : Option Json → Except Fault SortDirection
  | none => .ok .descending
  | some .null => .ok .descending
  | some (.str s) =>
    let word := s.toList.map Text.lowerAscii
    if word = "asc".toList then .ok .ascending
    else if word = "desc".toList then .ok .descending
    else .error (.invalid .sortDirection)
  | some _ => .error (.invalid .sortDirection)

/-- Reads the sort: a column with the direction in the parameter `order`, or an object with both. -/
def parseSort (fields : Fields) : Except Fault (Option SortKey) :=
  match Fields.get? fields "sort" with
  | none => .ok none
  | some .null => .ok none
  | some (.str key) =>
    if key.isEmpty then .ok none
    else (parseDirection (Fields.get? fields "order")).map fun direction => some ⟨key, direction⟩
  | some (.obj sort) =>
    match Fields.get? sort "key" with
    | none => .ok none
    | some .null => .ok none
    | some (.str key) =>
      (parseDirection (Fields.get? sort "value")).map fun direction => some ⟨key, direction⟩
    | some _ => .error (.invalid .sortKeyKind)
  | some _ => .error (.invalid .sortShape)

/-- Reads the parameters of a listing. -/
def parse : Json → Except Fault ListParams
  | .null => .ok {}
  | .obj fields => do
    let search ← parseSearch (Fields.get? fields "search")
    let counts ← parseCounts (Fields.get? fields "counts")
    let page ← parsePositive "page" (Fields.get? fields "page")
    let limit ← parsePositive "limit" (Fields.get? fields "limit")
    let perPage ← parsePositive "per_page" (Fields.get? fields "per_page")
    let sort ← parseSort fields
    let filters ← Filters.parse ((Fields.get? fields "filters").getD .null)
    return {
      search := search
      page := page
      limit := limit
      perPage := perPage
      sort := sort
      filters := filters
      counts := counts
    }
  | _ => .error (.invalid .parametersShape)

/-- The page asked for. -/
def pageNumber (params : ListParams) : Nat := params.page.getD 1

/-- The page size asked for, in the parameter that the flavor reads. -/
def pageSize (params : ListParams) : Flavor → Nat
  | .api => params.perPage.getD defaultPageSize
  | .web => params.limit.getD defaultPageSize

end ListParams

end Records
