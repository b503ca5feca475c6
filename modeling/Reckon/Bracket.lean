/-!
Brackets come in three styles, and a closing bracket closes the nearest open bracket, which must
be of its own style. `check` reads a text once with the open brackets as a stack; the first
closing bracket that cannot be matched decides the fault, and only a text without one can fail
for a bracket left open.
-/

namespace Reckon.Bracket

inductive Style where
  | curly
  | square
  | round
  deriving DecidableEq, Repr

inductive Fault where
  | mismatch
  | unbalanced
  deriving DecidableEq, Repr

def opens? : Char → Option Style
  | '{' => some .curly
  | '[' => some .square
  | '(' => some .round
  | _ => none

def closes? : Char → Option Style
  | '}' => some .curly
  | ']' => some .square
  | ')' => some .round
  | _ => none

/-- What a bracket text lacks when the brackets of `stack`, nearest first, are open before it. -/
def check (stack : List Style) : List Char → Option Fault
  | [] => if stack = [] then none else some .unbalanced
  | c :: cs =>
    match opens? c, closes? c, stack with
    | some style, _, _ => check (style :: stack) cs
    | none, some style, top :: below => if top = style then check below cs else some .mismatch
    | none, some _, [] => some .unbalanced
    | none, none, _ => check stack cs

end Reckon.Bracket
