import Records.Fault
import Records.Text.Blank
import Records.Text.Lowercase

/-!
# Service flavors

A service answers either programs or browsers.  The flavor decides which parameter gives the page
size and how a fault is shown.
-/

set_option autoImplicit false

namespace Records

/-- Whom a service answers. -/
inductive Flavor where
  | api
  | web
deriving DecidableEq, Repr

namespace Flavor

/-- The name of a flavor, blanks around it and the case of ASCII letters aside. -/
def parse (raw : String) : Except UnknownFlavor Flavor :=
  let name := (Text.trimChars raw.toList).map Text.lowerAscii
  if name = "api".toList then .ok .api
  else if name = "web".toList then .ok .web
  else .error ⟨String.ofList name⟩

/-- The name of a flavor. -/
def name : Flavor → String
  | .api => "api"
  | .web => "web"

end Flavor

end Records
