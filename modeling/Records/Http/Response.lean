import Records.Fault
import Records.Flavor
import Records.Json.Value

/-!
# Responses

A response has a status, a content type unless it has no content, and a body.  A fault is shown to a
program as a JSON object with its wording, and to a browser as the bare reason phrase of its status;
of a fault of the server itself no wording is shown.
-/

set_option autoImplicit false

namespace Records.Http

/-- The body of a response. -/
inductive Body where
  | empty
  | json (value : Json)
  | text (s : String)
  /-- Some sentence about a request that could not be read. -/
  | remark
deriving Repr

/-- A response. -/
structure Response where
  status : Nat
  /-- The content type, parameters aside. -/
  contentType : Option String
  body : Body
deriving Repr

/-- The reason phrase of a status that a fault can have. -/
def reasonPhrase : Nat → String
  | 400 => "Bad Request"
  | 404 => "Not Found"
  | 422 => "Unprocessable Entity"
  | 500 => "Internal Server Error"
  | _ => ""

namespace Response

/-- A response without content. -/
def bare (status : Nat) : Response := ⟨status, none, .empty⟩

/-- A JSON response. -/
def json (status : Nat) (value : Json) : Response := ⟨status, some "application/json", .json value⟩

/-- A response of plain text. -/
def plain (status : Nat) (body : Body) : Response := ⟨status, some "text/plain", body⟩

/-- The response without its content, its type kept. -/
def withoutBody (response : Response) : Response := { response with body := .empty }

end Response

/-- Whether a status says that the server itself failed. -/
def isServerError (status : Nat) : Bool := 500 ≤ status && status < 600

/-- The wording of a fault that a client is shown. -/
def shownMessage (why : Fault) : String :=
  if isServerError why.status then "Server Error" else why.message

/-- The response to a fault. -/
def reject (flavor : Flavor) (why : Fault) : Response :=
  match flavor with
  | .api =>
    .json why.status (.obj [("success", .bool false), ("message", .str (shownMessage why))])
  | .web => .plain why.status (.text (reasonPhrase why.status))

end Records.Http
