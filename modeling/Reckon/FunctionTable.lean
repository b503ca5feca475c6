import Reckon.Declaration
import Reckon.Entries
import Reckon.Text.Name

/-!
The functions of a session, as the texts of their declarations. A function is found by the name
in front of its parameter list, and only the declaration found is read, so a malformed one does
no harm to others. Of two declarations of one name the first is found.
-/

namespace Reckon

structure FunctionTable where
  sources : List String
  deriving DecidableEq, Repr

namespace FunctionTable

def empty : FunctionTable :=
  ⟨[]⟩

def add (table : FunctionTable) (entries : Entries) : FunctionTable :=
  ⟨table.sources ++ (entries.toList.map Text.trim).filter (· ≠ "")⟩

/-- The text in front of the parameter list, or of the `=` where there is none. -/
def declaredName (source : String) : String :=
  let header := Text.upTo (· = '=') source
  Text.normalName (Text.upTo (fun c => (Bracket.opens? c).isSome) header)

def find? (table : FunctionTable) (name : String) : Except Failure (Option Declaration) :=
  match table.sources.find? (declaredName · = Text.normalName name) with
  | some source => (Declaration.read source).map some
  | none => .ok none

end FunctionTable

end Reckon
