import Reckon.Token

/-!
Expression trees. A node is a token with the nodes on its left and on its right: none for a leaf,
one right child for a leading sign, one left child for a trailing one, one on each side for a
binary operation, and only right children, one per argument, for a call. Other shapes can be
written down, and nothing here assumes that they do not occur.
-/

namespace Reckon

structure Node where
  token : Token
  left : List Node
  right : List Node

namespace Node

def leaf (token : Token) : Node :=
  ⟨token, [], []⟩

def isLeaf (node : Node) : Bool :=
  node.left.isEmpty && node.right.isEmpty

def isCall (node : Node) : Bool :=
  node.token.kind = .identifier && node.left.isEmpty && !node.right.isEmpty

mutual

/-- The tree with every operation in brackets, as in `(1 + (2 * 3))`. -/
def display : Node → String
  | ⟨token, [], []⟩ => token.text
  | ⟨token, [], right :: more⟩ =>
    if token.kind = .identifier then
      token.text ++ "(" ++ ", ".intercalate (display right :: displayEach more) ++ ")"
    else "(" ++ token.text ++ display right ++ ")"
  | ⟨token, left :: _, []⟩ => "(" ++ display left ++ token.text ++ ")"
  | ⟨token, left :: _, right :: _⟩ =>
    "(" ++ display left ++ " " ++ token.text ++ " " ++ display right ++ ")"

def displayEach : List Node → List String
  | [] => []
  | node :: nodes => display node :: displayEach nodes

end

theorem displayEach_eq_map (nodes : List Node) : displayEach nodes = nodes.map display := by
  induction nodes with
  | nil => rfl
  | cons node nodes ih => rw [displayEach, ih, List.map_cons]

end Node

end Reckon
