import Records.Text.Percent

/-!
# Routes

The paths that a service answers.  A path is matched segment by segment as it is written, a fixed
segment before a parameter.  A parameter at the end of a path is never empty; one that is followed
by a slash may be.  Parameters are decoded afterwards.
-/

set_option autoImplicit false

namespace Records.Http

/-- What a path leads to; parameters are of a type of their own, encoded or decoded. -/
inductive Route (α : Type) where
  | health
  | version
  | collection (resource : α)
  | bulk (resource : α)
  | slug (resource name : α)
  | item (resource id : α)
deriving DecidableEq, Repr

/-- A method that some route answers. -/
inductive Method where
  | get
  | head
  | post
  | patch
  | put
  | delete
deriving DecidableEq, Repr

/-- The method of a word. -/
def Method.ofWord? (word : String) : Option Method :=
  if word = "GET" then some .get
  else if word = "HEAD" then some .head
  else if word = "POST" then some .post
  else if word = "PATCH" then some .patch
  else if word = "PUT" then some .put
  else if word = "DELETE" then some .delete
  else none

namespace Route

/-- The route of the segments of a path. -/
def ofSegments? : List (List Char) → Option (Route (List Char))
  | [first] =>
    if first = "health".toList then some .health
    else if first = "version".toList then some .version
    else if first.isEmpty then none
    else some (.collection first)
  | [resource, last] =>
    if last.isEmpty then none
    else if last = "bulk-delete".toList then some (.bulk resource)
    else some (.item resource last)
  | [resource, middle, last] =>
    if last.isEmpty then none
    else if middle = "slug".toList then some (.slug resource last)
    else none
  | _ => none

/-- The route of a path. -/
def ofPath? (path : String) : Option (Route (List Char)) :=
  match path.toList with
  | '/' :: rest => ofSegments? (Text.splitAt '/' rest)
  | _ => none

/-- Decodes the parameters of a route; `none` when one is no UTF-8. -/
def decode? : Route (List Char) → Option (Route String)
  | .health => some .health
  | .version => some .version
  | .collection resource => (Text.decodeSegment? resource).map .collection
  | .bulk resource => (Text.decodeSegment? resource).map .bulk
  | .slug resource name =>
    match Text.decodeSegment? resource, Text.decodeSegment? name with
    | some resource, some name => some (.slug resource name)
    | _, _ => none
  | .item resource id =>
    match Text.decodeSegment? resource, Text.decodeSegment? id with
    | some resource, some id => some (.item resource id)
    | _, _ => none

/-- Whether a route answers a method. -/
def answers {α : Type} (route : Route α) (method : Method) : Bool :=
  match route, method with
  | .health, .get | .version, .get | .collection _, .get | .slug _ _, .get | .item _ _, .get => true
  | .health, .head | .version, .head | .collection _, .head | .slug _ _, .head
  | .item _ _, .head => true
  | .collection _, .post | .bulk _, .post => true
  | .item _ _, .patch | .item _ _, .put | .item _ _, .delete => true
  | _, _ => false

end Route

end Records.Http
