import Reckon.Evaluation
import Reckon.Scanner
import Reckon.Text.Pieces

/-!
Statements of a session: a formula, or `name: formula`, which also keeps the value under the
name. What stands in front of the first colon must be one identifier. Blank statements count for
nothing.
-/

namespace Reckon.Statement

def isBlank (statement : String) : Bool :=
  Text.isBlankText statement

def read (statement : String) : Except Failure (Option String × String) :=
  match Text.cutFirst ':' statement with
  | none => .ok (none, statement)
  | some (target, formula) =>
    match Scanner.tokens target with
    | .error error => .error (.read error)
    | .ok [⟨.identifier, name⟩] => .ok (some (Text.lowercase name), formula)
    | .ok _ => .error (.target (Text.trim statement))

end Reckon.Statement
