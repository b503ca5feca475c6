import Reckon.Text.Pieces

/-!
Lists of texts as a host hands them over: one text with the entries between semicolons, or the
entries themselves. An entry of the list form is never cut again.
-/

namespace Reckon

inductive Entries where
  | text (text : String)
  | list (entries : List String)

namespace Entries

def separator : Char :=
  ';'

def toList : Entries → List String
  | text joined => Text.pieces separator joined
  | list entries => entries

end Entries

end Reckon
