import Reckon.Text.Blank
import Reckon.Text.Lowercase

/-!
Names that a host hands in or a formula mentions are compared in one normal form: trimmed and in
lower case.
-/

namespace Reckon.Text

def normalName (name : String) : String :=
  lowercase (trim name)

end Reckon.Text
