import Reckon.Entries
import Reckon.Failure
import Reckon.Text.Name

/-!
Named values. Names are kept and looked up in normal form, blank names are never kept, and each
name has one value, the one set last. Loading entries `name=number` stops at the first malformed
one and keeps what was loaded before it.
-/

namespace Reckon

structure VariableTable where
  entries : List (String × Float)

namespace VariableTable

def empty : VariableTable :=
  ⟨[]⟩

def size (table : VariableTable) : Nat :=
  table.entries.length

def get? (table : VariableTable) (name : String) : Option Float :=
  table.entries.lookup (Text.normalName name)

def set (table : VariableTable) (name : String) (value : Float) : VariableTable :=
  let name := Text.normalName name
  if name = "" then table
  else ⟨(name, value) :: table.entries.filter (·.1 ≠ name)⟩

def setAll (table : VariableTable) (bindings : List (String × Float)) : VariableTable :=
  bindings.foldl (fun table (name, value) => table.set name value) table

def readEntry (entry : String) : Except Failure (Option (String × Float)) :=
  if Text.isBlankText entry then .ok none
  else match Text.cutFirst '=' entry with
    | none => .error (.entry (Text.trim entry))
    | some (name, value) =>
      if Text.isBlankText name then .error (.entry (Text.trim entry))
      else match Decimal.read? (Text.trim value) with
        | some value => .ok (some (name, value))
        | none => .error (.entry (Text.trim entry))

def load (table : VariableTable) : List String → VariableTable × Option Failure
  | [] => (table, none)
  | entry :: entries =>
    match readEntry entry with
    | .ok none => load table entries
    | .ok (some (name, value)) => load (table.set name value) entries
    | .error failure => (table, some failure)

end VariableTable

end Reckon
