import Reckon.Json.Numeral
import Reckon.Json.Quoted

/-!
JSON texts as trees. Strings are kept as they are written and numbers as numerals, so a tree says
what a text looks like and leaves its meaning to whoever reads it; a part that nobody reads may
hold numbers of any size and halves of characters.
-/

namespace Reckon

inductive Json where
  | null
  | truth (value : Bool)
  | number (numeral : Json.Numeral)
  | quoted (raw : List Char)
  | array (items : List Json)
  | object (fields : List (List Char × Json))

namespace Json

def isSpace (c : Char) : Bool :=
  c = ' ' || c = '\n' || c = '\t' || c = '\r'

def skip (cs : List Char) : List Char :=
  cs.dropWhile isSpace

mutual

/-- Reads a value and gives the text behind it. Every value and every item of a list takes a
character, so the length of the text bounds how far the readers call each other. -/
def readValue : Nat → List Char → Option (Json × List Char)
  | 0, _ => none
  | bound + 1, cs =>
    match skip cs with
    | 'n' :: 'u' :: 'l' :: 'l' :: rest => some (null, rest)
    | 't' :: 'r' :: 'u' :: 'e' :: rest => some (truth true, rest)
    | 'f' :: 'a' :: 'l' :: 's' :: 'e' :: rest => some (truth false, rest)
    | '"' :: rest => (scanQuoted rest).map fun (raw, rest) => (quoted raw, rest)
    | '[' :: rest =>
      match skip rest with
      | ']' :: rest => some (array [], rest)
      | rest => (readItems bound rest).map fun (items, rest) => (array items, rest)
    | '\x7b' :: rest =>
      match skip rest with
      | '\x7d' :: rest => some (object [], rest)
      | rest => (readFields bound rest).map fun (fields, rest) => (object fields, rest)
    | rest => (Numeral.read? rest).map fun (numeral, rest) => (number numeral, rest)

def readItems : Nat → List Char → Option (List Json × List Char)
  | 0, _ => none
  | bound + 1, cs => do
    let (item, rest) ← readValue bound cs
    match skip rest with
    | ',' :: rest =>
      let (items, rest) ← readItems bound rest
      return (item :: items, rest)
    | ']' :: rest => return ([item], rest)
    | _ => none

def readFields : Nat → List Char → Option (List (List Char × Json) × List Char)
  | 0, _ => none
  | bound + 1, cs =>
    match skip cs with
    | '"' :: rest => do
      let (key, rest) ← scanQuoted rest
      match skip rest with
      | ':' :: rest =>
        let (value, rest) ← readValue bound rest
        match skip rest with
        | ',' :: rest =>
          let (fields, rest) ← readFields bound rest
          return ((key, value) :: fields, rest)
        | '\x7d' :: rest => return ([(key, value)], rest)
        | _ => none
      | _ => none
    | _ => none

end

def read? (text : String) : Option Json :=
  match readValue (text.toList.length + 1) text.toList with
  | some (value, rest) => if skip rest = [] then some value else none
  | none => none

end Json

end Reckon
