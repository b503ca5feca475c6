import Reckon.Bindings
import Reckon.Json.Value
import Reckon.Session

/-!
Settings of a session, as a host keeps them in a JSON document. A document is an object whose
fields are named, or an array of the fields in order. Missing fields have their defaults and
unknown ones are skipped, but no field is given twice and none is null. Settings are written with
every field, so reading gives back what was written, up to the rounding of the numbers: they are
written with the digits of the nearest double and read in the quick way, which may miss it.
-/

namespace Reckon

structure Settings where
  bindings : Bindings
  functions : List String
  order : Order
  maxDepth : Nat
  deriving DecidableEq

namespace Settings

def default : Settings :=
  ⟨.empty, [], .internalFirst, Tree.defaultMaxDepth⟩

def orderName : Order → String
  | .internalFirst => "internal_first"
  | .hostFirst => "host_first"

def orderOfName? (name : String) : Option Order :=
  [Order.internalFirst, Order.hostFirst].find? (orderName · = name)

def number? : Json → Option Float
  | .number numeral => numeral.value?
  | _ => none

def string? : Json → Option String
  | .quoted raw => Json.decodeString? raw
  | _ => none

def bindings? : Json → Option Bindings
  | .object fields => do
    let entries ← fields.mapM fun (key, value) => do
      return (← Json.decodeString? key, ← number? value)
    return Bindings.ofList entries
  | _ => none

def functions? : Json → Option (List String)
  | .array items => items.mapM string?
  | _ => none

/-- An order is its name, or an object that has the name as its only field, without a value. -/
def order? : Json → Option Order
  | .quoted raw => Json.decodeString? raw >>= orderOfName?
  | .object [(key, .null)] => Json.decodeString? key >>= orderOfName?
  | _ => none

def maxDepth? : Json → Option Nat
  | .number numeral => numeral.natural?
  | _ => none

inductive Field where
  | bindings
  | functions
  | order
  | maxDepth
  deriving DecidableEq

def Field.all : List Field :=
  [bindings, functions, order, maxDepth]

def Field.name : Field → String
  | bindings => "variables"
  | functions => "functions"
  | order => "order"
  | maxDepth => "max_depth"

def setField (settings : Settings) (field : Field) (value : Json) : Option Settings :=
  match field with
  | .bindings => (bindings? value).map fun bindings => { settings with bindings }
  | .functions => (functions? value).map fun functions => { settings with functions }
  | .order => (order? value).map fun order => { settings with order }
  | .maxDepth => (maxDepth? value).map fun maxDepth => { settings with maxDepth }

def knownFields (fields : List (List Char × Json)) : Option (List (Field × Json)) := do
  let keyed ← fields.mapM fun (key, value) => do return (← Json.decodeString? key, value)
  return keyed.filterMap fun (key, value) =>
    (Field.all.find? (·.name = key)).map fun field => (field, value)

def setFields (fields : List (Field × Json)) : Option Settings :=
  fields.foldlM (fun settings (field, value) => setField settings field value) default

def ofJson? : Json → Option Settings
  | .object fields => do
    let known ← knownFields fields
    if (known.map (·.1)).Nodup then setFields known else none
  | .array items =>
    if items.length ≤ Field.all.length then setFields (Field.all.zip items) else none
  | _ => none

def read (text : String) : Except Failure Settings :=
  match Json.read? text >>= ofJson? with
  | some settings => .ok settings
  | none => .error .settings

def writeLines (opening closing indent : String) (lines : List String) : String :=
  if lines.isEmpty then opening ++ closing
  else
    let inner := "\n" ++ indent ++ "  "
    opening ++ inner ++ ("," ++ inner).intercalate lines ++ "\n" ++ indent ++ closing

def writeField (field : Field) (value : String) : String :=
  Json.writeString field.name ++ ": " ++ value

def write (settings : Settings) : String :=
  let bindings := settings.bindings.entries.map fun (name, value) =>
    Json.writeString name ++ ": " ++ Json.writeNumber value
  writeLines "\x7b" "\x7d" ""
    [writeField .bindings (writeLines "\x7b" "\x7d" "  " bindings),
     writeField .functions (writeLines "[" "]" "  " (settings.functions.map Json.writeString)),
     writeField .order (Json.writeString (orderName settings.order)),
     writeField .maxDepth (toString settings.maxDepth)]

end Settings

def Session.ofSettings {m : Type → Type} (random : m Float) (settings : Settings) : Session m :=
  let session := Session.start random
  { session with
    bindings := session.bindings.setAll settings.bindings.entries
    functions := session.functions.add (.list settings.functions)
    order := settings.order
    maxDepth := settings.maxDepth }

end Reckon
