import Reckon.Proofs.Tree.Part

/-!
Computations that follow building part by part, and do something beside it. Whatever they are
related by to what building comes to, it is enough that the relation goes along with single steps:
then it holds for the sides of an operation and for the arguments of a call as soon as it holds for
each span that is built.
-/

namespace Reckon.Tree

variable {m : Type → Type} [Monad m] [MonadExcept ReadFault m]

def sideIn (span : List Token) (build : m Node) : m (List Node) :=
  if span = [] then pure [] else return [← build]

def argumentIn (function : String) (span : List Token) (build : m Node) : m Node :=
  if span = [] then throw (.emptyArgument function) else build

/-- A relation to what building comes to that goes along with single steps. -/
structure Following (m : Type → Type) [Monad m] [MonadExcept ReadFault m] where
  Rel : {α : Type} → m α → Except ReadFault α → Prop
  ok : ∀ {α : Type} (a : α), Rel (pure a) (.ok a)
  empty : ∀ function : String,
    Rel (throw (.emptyArgument function) : m Node) (.error (.emptyArgument function))
  bind : ∀ {α β : Type} {x : m α} {outcome : Except ReadFault α} {next : α → m β}
    {next' : α → Except ReadFault β}, Rel x outcome → (∀ a, Rel (next a) (next' a)) →
    Rel (x >>= next) (outcome >>= next')

namespace Following

variable (following : Following m) {maxDepth level : Nat} {span : List Token}

theorem side {follow : m Node} (built : following.Rel follow (build maxDepth level span)) :
    following.Rel (sideIn span follow) (buildRight maxDepth level span) := by
  unfold sideIn
  split
  · next nothing => rw [nothing, buildRight]; exact following.ok []
  · next given =>
    obtain ⟨token, rest, rfl⟩ := List.exists_cons_of_ne_nil given
    rw [buildRight]
    exact following.bind built fun _ => following.ok _

theorem arguments [LawfulMonad m] {function : String} {spans : List (List Token)}
    {follow : List Token → m Node}
    (built : ∀ span ∈ spans, following.Rel (follow span) (build maxDepth level span)) :
    following.Rel (spans.mapM fun span => argumentIn function span (follow span))
      (buildArguments maxDepth level function spans) := by
  induction spans with
  | nil =>
    rw [buildArguments, List.mapM_nil]
    exact following.ok []
  | cons span spans ih =>
    rw [List.forall_mem_cons] at built
    rw [List.mapM_cons]
    cases span with
    | nil =>
      rw [buildArguments, argumentIn, if_pos rfl]
      have stopped := following.bind (following.empty function) fun first =>
        following.bind (ih built.2) fun nodes => following.ok (first :: nodes)
      exact stopped
    | cons token rest =>
      rw [buildArguments, argumentIn, if_neg (List.cons_ne_nil token rest)]
      exact following.bind built.1 fun _ => following.bind (ih built.2) fun _ => following.ok _

end Following

end Reckon.Tree
