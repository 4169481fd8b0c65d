import Records.Json.Written
import Records.Text.Lowercase
import Records.Text.Percent

/-!
# Requests

A request names a target and may carry a body.  A body is read only where its type is JSON and it is
not too long; what is read is one JSON value, or the list of keys of a bulk deletion.  The value
ends the reading: the text after it counts toward the length of the body, and is otherwise not
looked at.

Of the headers of a request only the content type is described.  The length that a request may
declare is left out, and with it the refusal, by any method and at any path, of a request that
declares more than the limit: such a request is not routed at all.  Bytes that are no UTF-8 are left
out as well.
-/

set_option autoImplicit false

namespace Records.Http

/-- A request that declares no length, or one within the limit: a body is measured where it is
read. -/
structure Request where
  method : String
  /-- The path of the target, still encoded. -/
  path : String
  /-- The query of the target, still encoded. -/
  query : Option String
  contentType : Option String
  /-- The text of the body; its length is that of its UTF-8 form. -/
  body : Option String
deriving DecidableEq, Repr

/-- The path and the query of a target; a fragment is dropped. -/
def splitTarget (target : String) : String × Option String :=
  let chars := target.toList.takeWhile (· ≠ '#')
  match Text.cutFirst '?' chars with
  | some (path, query) => (String.ofList path, some (String.ofList query))
  | none => (String.ofList chars, none)

/-- A request for a target. -/
def Request.to (method target : String) (contentType body : Option String) : Request :=
  let (path, query) := splitTarget target
  ⟨method, path, query, contentType, body⟩

/-- The names and values of a query, in order. -/
def Request.pairs (request : Request) : List (String × String) :=
  match request.query with
  | some query => Text.formPairs query.toList
  | none => []

/-- Why a body was not read. -/
inductive BodyFault where
  | unsupportedType
  | tooLong
  | notJson
  | wrongShape
deriving DecidableEq, Repr

/-- The fault of a body with a defect. -/
def BodyFault.ofDefect : Written.Defect → BodyFault
  | .malformed => .notJson
  | .misfit => .wrongShape

/-- The status for a body that was not read. -/
def BodyFault.status : BodyFault → Nat
  | .unsupportedType => 415
  | .tooLong => 413
  | .notJson => 400
  | .wrongShape => 422

/-! ## Media types -/

/-- The characters of a token. -/
def isTokenChar (c : Char) : Bool :=
  c.isAlphanum || "!#$%&'*+-.^_`|~".toList.contains c

/-- The characters inside a quoted parameter. -/
def isQuotedChar (c : Char) : Bool := 32 ≤ c.toNat && c.toNat < 127

/-- What is to be read of the parameters of a media type. -/
inductive ParamState where
  /-- Blanks, or the first character of a name. -/
  | start
  /-- The rest of a name. -/
  | name
  /-- The first character of a value. -/
  | value
  /-- The rest of a value. -/
  | token
  /-- The first character of a quoted value, which may be a quote itself. -/
  | quoteStart
  /-- The rest of a quoted value. -/
  | quoted
  /-- Blanks after a quoted value. -/
  | closed
deriving DecidableEq, Repr

/-- Whether the parameters of a media type are well formed. -/
def paramsWellFormed : ParamState → List Char → Bool
  | .start, [] => true
  | .start, c :: rest =>
    if c = ' ' then paramsWellFormed .start rest
    else isTokenChar c && paramsWellFormed .name rest
  | .name, [] => false
  | .name, c :: rest =>
    if c = '=' then paramsWellFormed .value rest
    else isTokenChar c && paramsWellFormed .name rest
  | .value, [] => true
  | .value, c :: rest =>
    if c = '"' then paramsWellFormed .quoteStart rest
    else isTokenChar c && paramsWellFormed .token rest
  | .token, [] => true
  | .token, c :: rest =>
    if c = ';' then paramsWellFormed .start rest
    else isTokenChar c && paramsWellFormed .token rest
  | .quoteStart, [] => false
  | .quoteStart, c :: rest => isQuotedChar c && paramsWellFormed .quoted rest
  | .quoted, [] => false
  | .quoted, c :: rest =>
    if c = '"' then paramsWellFormed .closed rest
    else isQuotedChar c && paramsWellFormed .quoted rest
  | .closed, [] => true
  | .closed, c :: rest =>
    if c = ';' then paramsWellFormed .start rest else c = ' ' && paramsWellFormed .closed rest

/-- A subtype split at its last plus sign that is not in front. -/
def splitSuffix (subtype : List Char) : List Char × Option (List Char) :=
  let suffix := (subtype.reverse.takeWhile (· ≠ '+')).reverse
  let before := subtype.take (subtype.length - suffix.length - 1)
  if suffix.length < subtype.length ∧ !before.isEmpty then (before, some suffix)
  else (subtype, none)

/-- Whether a content type is JSON: `application/json`, or a type with the suffix `+json`, whatever
the case, with or without parameters. -/
def isJsonType (contentType : String) : Bool :=
  match Text.cutFirst '/' contentType.toList with
  | none => false
  | some (type, rest) =>
    let subtype := rest.takeWhile (· ≠ ';')
    let params := rest.drop (subtype.length + 1)
    let (main, suffix) := splitSuffix (subtype.map Text.lowerAscii)
    !type.isEmpty && type.all isTokenChar && !subtype.isEmpty && subtype.all isTokenChar
      && paramsWellFormed .start params
      && type.map Text.lowerAscii = "application".toList
      && (main = "json".toList || suffix = some "json".toList)

/-! ## Bodies -/

/-- The greatest body, in bytes, that is read whatever limit is set. -/
def hardBodyLimit : Nat := 2097152

/-- The text of a body of JSON type within a limit. -/
def Request.jsonText (request : Request) (limit : Nat) : Except BodyFault String :=
  match request.contentType, request.body with
  | some type, some body =>
    if !isJsonType type then .error .unsupportedType
    else if min limit hardBodyLimit < body.utf8ByteSize then .error .tooLong
    else .ok body
  | some type, none => if isJsonType type then .ok "" else .error .unsupportedType
  | none, _ => .error .unsupportedType

/-- The JSON value that a body begins with. -/
def Request.jsonBody (request : Request) (limit : Nat) : Except BodyFault Json := do
  let text ← request.jsonText limit
  (Json.readFront text).mapError BodyFault.ofDefect

/-- The depth at which the keys of a bulk deletion stand. -/
def keysDepth : Nat := 2

/-- Reads the list of keys. -/
def readKeys (embedding : Written.Embedding) : Written → Except Written.Defect (List Json)
  | .list items => Written.values (some embedding) (Written.depthLimit - keysDepth) items
  | tree => .error tree.misplaced

/-- Reads the fields of a bulk deletion, of which the keys may already be known.  What is wrong
first in the text is reported. -/
def readKeyFields (embedding : Written.Embedding) (keys : Option (List Json)) :
    List (Option String × Written) → Except Written.Defect (List Json)
  | [] =>
    match keys with
    | some keys => .ok keys
    | none => .error .misfit
  | (none, _) :: _ => .error .malformed
  | (some name, tree) :: rest =>
    if name = "ids" then
      match keys with
      | some _ => .error .misfit
      | none => do
        let keys ← readKeys embedding tree
        readKeyFields embedding (some keys) rest
    else if tree.whole then readKeyFields embedding keys rest
    else .error .malformed

/-- Reads the tree of a bulk deletion: an object with the field `ids`, or the list of that field
alone. -/
def readKeyTree (embedding : Written.Embedding) : Written → Except Written.Defect (List Json)
  | .record fields => readKeyFields embedding none fields
  | .list [] => .error .misfit
  | .list (tree :: rest) => do
    let keys ← readKeys embedding tree
    if rest.isEmpty then return keys else throw .malformed
  | tree => .error tree.misplaced

/-- The keys in the value that the body of a bulk deletion begins with. -/
def Request.keysBody (request : Request) (limit : Nat) : Except BodyFault (List Json) := do
  let text ← request.jsonText limit
  (readKeyTree (Written.embeddingIn text) (Written.read text).tree).mapError BodyFault.ofDefect

end Records.Http
