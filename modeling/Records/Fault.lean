/-!
# Faults

Why a configuration is not accepted, and why a request is not answered.  A fault is a cause; its
wording, its HTTP status and its short code are functions of the cause.
-/

set_option autoImplicit false

namespace Records

/-- What a reference in a configuration should have named. -/
inductive ReferenceKind where
  | resource
  | relation
deriving DecidableEq, Repr

/-- A name that is no service flavor. -/
structure UnknownFlavor where
  name : String
deriving DecidableEq, Repr

/-- Why a configuration or a setting is not accepted. -/
inductive ConfigFault where
  /-- The text is not a resources file. -/
  | unreadable (reason : String)
  | duplicateResource (name : String)
  | unknownColumn (resource column : String)
  | missingReference (kind : ReferenceKind) (id : String)
  | duplicateRelation (relation resource : String)
  | deepSearchField (field : String)
  | unknownFlavor (why : UnknownFlavor)
  | settingNotNumber (name raw : String)
  | noDatabaseUrl
  /-- A configuration refused for a reason given by the caller. -/
  | stated (reason : String)
deriving DecidableEq, Repr

/-- Why a request is well formed JSON but not valid. -/
inductive Invalid where
  | malformedFilterKey (key : String)
  | deepFilterKey (key : String) (limit : Nat)
  | filterValue (key : String)
  | filterListItem (key : String)
  | dayBound (key : String)
  | filtersShape
  | nestedOrGroup
  | countBound (key : String)
  | countValue (key : String)
  | parametersShape
  | searchLength (limit : Nat)
  | searchKind
  | countsShape
  | notPositive (name : String)
  | sortDirection
  | sortKeyKind
  | sortShape
  | notJson (name : String)
  | malformedParameterKey (key : String)
  | nestedList (key : String)
  | listAndScalar (key : String)
  | objectAndScalar (key : String)
  | perPageTooLarge
  | pageTooLarge
  | stated (reason : String)
deriving DecidableEq, Repr

/-- Why a request asks for something that does not exist. -/
inductive Refusal where
  | unknownColumn (column resource : String)
  | unknownRelation (relation resource : String)
  | unknownResource (resource : String)
  | noTrash (resource : String)
  | negatedRange (column : String)
  | seedRow (resource : String)
  | invalidUuid
  | invalidId
  | noSlugColumn (resource : String)
  | bodyNotObject
  | stated (reason : String)
deriving DecidableEq, Repr

/-- What was not found. -/
inductive Absence where
  | record
  | resource (name : String)
  | stated (what : String)
deriving DecidableEq, Repr

/-- Why a database did not answer. -/
inductive DatabaseFault where
  | noRow
  | poolTimedOut
  /-- An error of the database itself, with its state when it gives one. -/
  | state (sqlState : Option String)
deriving DecidableEq, Repr

/-- Why a request is not answered. -/
inductive Fault where
  | config (why : ConfigFault)
  | notFound (what : Absence)
  | invalidDate (raw : String)
  | invalid (why : Invalid)
  | badRequest (why : Refusal)
  | database (why : DatabaseFault)
deriving DecidableEq, Repr

/-- The word for a kind of reference. -/
def ReferenceKind.word : ReferenceKind → String
  | .resource => "resource"
  | .relation => "relation"

/-- The wording of an unknown flavor. -/
def UnknownFlavor.message (why : UnknownFlavor) : String :=
  s!"unknown service flavor '{why.name}' (expected api or web)"

/-- The wording of a configuration fault. -/
def ConfigFault.message : ConfigFault → String
  | .unreadable reason => s!"config load: {reason}"
  | .duplicateResource name => s!"duplicate resource name: {name}"
  | .unknownColumn resource column => s!"unknown column '{column}' on resource {resource}"
  | .missingReference kind id => s!"missing reference: {kind.word} '{id}'"
  | .duplicateRelation relation resource =>
    s!"validation: duplicate relation '{relation}' on {resource}"
  | .deepSearchField field =>
    s!"validation: searchable field '{field}' may traverse one relation only"
  | .unknownFlavor why => s!"validation: {why.message}"
  | .settingNotNumber name raw => s!"validation: {name} must be a number, got '{raw}'"
  | .noDatabaseUrl => "validation: DATABASE_URL is not set"
  | .stated reason => s!"validation: {reason}"

/-- The wording of an invalid request. -/
def Invalid.message : Invalid → String
  | .malformedFilterKey key => s!"malformed filter key '{key}'"
  | .deepFilterKey key limit => s!"filter key '{key}' traverses more than {limit} relations"
  | .filterValue key =>
    s!"filter '{key}' must be a scalar, a list, or a " ++ "\x7bfrom, to\x7d range"
  | .filterListItem key => s!"filter '{key}' list must hold scalars"
  | .dayBound key => s!"date bound of '{key}' must be a string"
  | .filtersShape => "filters must be an object"
  | .nestedOrGroup => "nested 'or' groups are not supported"
  | .countBound key => s!"count '{key}' needs one of min, max or exact"
  | .countValue key => s!"count '{key}' must be a non-negative integer"
  | .parametersShape => "parameters must be an object"
  | .searchLength limit => s!"search must be at most {limit} characters"
  | .searchKind => "search must be a string"
  | .countsShape => "counts must be an object"
  | .notPositive name => s!"{name} must be an integer of at least 1"
  | .sortDirection => "sort direction must be asc or desc"
  | .sortKeyKind => "sort key must be a string"
  | .sortShape => "sort must be an object \x7bkey, value\x7d"
  | .notJson name => s!"{name} is not valid JSON"
  | .malformedParameterKey key => s!"malformed parameter key '{key}'"
  | .nestedList key => s!"unsupported nesting under '{key}[]'"
  | .listAndScalar key => s!"'{key}' mixes list and scalar values"
  | .objectAndScalar key => s!"'{key}' mixes object and scalar values"
  | .perPageTooLarge => "per_page is too large"
  | .pageTooLarge => "page is too large"
  | .stated reason => reason

/-- The wording of a refused request. -/
def Refusal.message : Refusal → String
  | .unknownColumn column resource => s!"unknown column '{column}' on {resource}"
  | .unknownRelation relation resource => s!"unknown relation '{relation}' on {resource}"
  | .unknownResource resource => s!"unknown resource '{resource}'"
  | .noTrash resource => s!"{resource} does not keep trashed records"
  | .negatedRange column => s!"date range on '{column}' cannot be negated"
  | .seedRow resource => s!"seed rows for '{resource}' must be objects"
  | .invalidUuid => "invalid uuid"
  | .invalidId => "invalid id"
  | .noSlugColumn resource => s!"resource '{resource}' has no slug column"
  | .bodyNotObject => "body must be a JSON object"
  | .stated reason => reason

/-- The wording of an absence. -/
def Absence.message : Absence → String
  | .record => "Resource not found"
  | .resource name => s!"unknown resource '{name}'"
  | .stated what => what

/-- The wording of a database fault. -/
def DatabaseFault.message : DatabaseFault → String
  | .noRow => "no rows returned by a query that expected to return at least one row"
  | .poolTimedOut => "pool timed out while waiting for an open connection"
  | .state sqlState => "error returned from database: sqlstate " ++ sqlState.getD "-"

/-- Whether the database refused a value of the request: its state is of class 22. -/
def DatabaseFault.isDataException : DatabaseFault → Bool
  | .state (some sqlState) => ['2', '2'].isPrefixOf sqlState.toList
  | _ => false

namespace Fault

/-- The wording of a fault. -/
def message : Fault → String
  | .config why => why.message
  | .notFound what => what.message
  | .invalidDate raw =>
    s!"Invalid date format '{raw}'. "
      ++ "Supported formats: DD-MM-YYYY, YYYY-MM-DD, DD/MM/YYYY, YYYY/MM/DD"
  | .invalid why => s!"validation: {why.message}"
  | .badRequest why => s!"bad request: {why.message}"
  | .database why => s!"database: {why.message}"

/-- The HTTP status of a fault. -/
def status : Fault → Nat
  | .config _ => 500
  | .notFound _ => 404
  | .invalidDate _ => 400
  | .invalid _ => 422
  | .badRequest _ => 400
  | .database .noRow => 404
  | .database why => if why.isDataException then 400 else 500

/-- The short code of a fault. -/
def code : Fault → String
  | .config _ => "config_error"
  | .notFound _ => "not_found"
  | .invalidDate _ => "invalid_date_format"
  | .invalid _ => "validation_error"
  | .badRequest _ => "bad_request"
  | .database .noRow => "not_found"
  | .database why => if why.isDataException then "bad_request" else "database_error"

end Fault

end Records
