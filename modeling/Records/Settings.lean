import Records.Flavor
import Records.Number.Numeral

/-!
# Settings

The settings of a service, read from named texts such as the variables of an environment.
-/

set_option autoImplicit false

namespace Records

/-- The settings of a service. -/
structure Settings where
  databaseUrl : Option String
  resourcesPath : String
  bindAddress : String
  flavor : Flavor
  maxConnections : Nat
  bodyLimit : Nat
deriving DecidableEq, Repr

/-- The greatest request body, in bytes, unless a setting says otherwise. -/
def defaultBodyLimit : Nat := 1048576

namespace Settings

/-- A number setting up to a bound, blanks around it aside. -/
def number (lookup : String → Option String) (name : String) (bound default : Nat) :
    Except ConfigFault Nat :=
  match lookup name with
  | none => .ok default
  | some raw =>
    match Numeral.natUpTo? bound (Text.trim raw) with
    | some n => .ok n
    | none => .error (.settingNotNumber name raw)

/-- Reads the settings.  A missing one has its default; an empty database address is none. -/
def read (lookup : String → Option String) : Except ConfigFault Settings := do
  let flavor ←
    match lookup "SERVICE_FLAVOR" with
    | some raw => (Flavor.parse raw).mapError .unknownFlavor
    | none => .ok .api
  let maxConnections ←
    number lookup "DATABASE_MAX_CONNECTIONS" Numeral.greatestNat32 5
  let bodyLimit ← number lookup "BODY_LIMIT_BYTES" Numeral.greatestNat64 defaultBodyLimit
  return {
    databaseUrl := (lookup "DATABASE_URL").filter fun url => !url.isEmpty
    resourcesPath := (lookup "RESOURCES_PATH").getD "resources.json"
    bindAddress := (lookup "BIND_ADDR").getD "0.0.0.0:3000"
    flavor := flavor
    maxConnections := maxConnections
    bodyLimit := bodyLimit
  }

/-- The database address, which a service with a database cannot do without. -/
def requireDatabaseUrl (settings : Settings) : Except ConfigFault String :=
  match settings.databaseUrl with
  | some url => .ok url
  | none => .error .noDatabaseUrl

end Settings

end Records
