import Reckon.Scanner
import Reckon.Tree.Node
import Reckon.Tree.Span

/-!
Building the tree of a span of tokens. A span without its enclosing brackets is one token, or it
is split at its weakest operation, or it is a call. What stands right of an operation and every
argument is one level deeper, and no level reaches the limit; what stands left is taken up in a
loop on the same level, so a chain of operations costs no level however long it is.
-/

namespace Reckon.Tree

def defaultMaxDepth : Nat :=
  256

def attach (waiting : List Node) (bottom : Node) : Node :=
  waiting.foldl (fun child parent => { parent with left := [child] }) bottom

mutual

def build (maxDepth level : Nat) (span : List Token) : Except ReadFault Node :=
  if maxDepth ≤ level then .error (.nestingTooDeep maxDepth)
  else buildSpine maxDepth level [] span
termination_by 3 * span.length + 1

/-- Builds the part of a span left of the operations in `waiting`. -/
def buildSpine (maxDepth level : Nat) (waiting : List Node) (span : List Token) :
    Except ReadFault Node :=
  match _stripped : Span.strip span with
  | [] => .error .emptyExpression
  | [token] => .ok (attach waiting (Node.leaf token))
  | inner =>
    match split : Span.weakest inner with
    | .error fault => .error fault
    | .ok (some cut) => do
      let right ← buildRight maxDepth (level + 1) cut.after
      if cut.before = [] then
        return attach waiting ⟨cut.operation, [], right⟩
      else
        buildSpine maxDepth level (⟨cut.operation, [], right⟩ :: waiting) cut.before
    | .ok none =>
      match called : Span.call? inner with
      | none => .error .invalidCall
      | some (name, []) => .ok (attach waiting (Node.leaf name))
      | some (name, inside) => do
        let arguments := Span.arguments 0 [] inside
        let right ← buildArguments maxDepth (level + 1) name.text arguments.spans
        if arguments.stray then .error (.brackets .mismatch)
        else return attach waiting ⟨name, [], right⟩
termination_by 3 * span.length
decreasing_by
  all_goals
    have shorter := Span.length_strip span
    rw [_stripped] at shorter
  · have whole := congrArg List.length (Span.span_of_weakest split)
    simp only [Span.Cut.span, List.length_append, List.length_cons] at whole
    omega
  · have whole := congrArg List.length (Span.span_of_weakest split)
    simp only [Span.Cut.span, List.length_append, List.length_cons] at whole
    omega
  · have inside_shorter := Span.length_of_call? called
    have weight := Span.weight_arguments 0 [] inside
    simp only [List.length_nil] at weight
    omega

def buildRight (maxDepth level : Nat) : List Token → Except ReadFault (List Node)
  | [] => .ok []
  | token :: span => do return [← build maxDepth level (token :: span)]
termination_by span => 3 * span.length + 2

def buildArguments (maxDepth level : Nat) (function : String) :
    List (List Token) → Except ReadFault (List Node)
  | [] => .ok []
  | [] :: _ => .error (.emptyArgument function)
  | (token :: span) :: spans => do
    let first ← build maxDepth level (token :: span)
    return first :: (← buildArguments maxDepth level function spans)
termination_by spans => 3 * Span.weight spans
decreasing_by
  · simp only [Span.weight]; omega
  · simp only [Span.weight]; omega

end

def read (maxDepth level : Nat) (text : String) : Except ReadError Node := do
  Scanner.validate text
  let tokens ← Scanner.tokens text
  match build maxDepth level tokens with
  | .ok node => .ok node
  | .error fault => .error ⟨fault, text⟩

end Reckon.Tree
