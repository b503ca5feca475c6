import Reckon.Proofs.Evaluation.Reference
import Reckon.Proofs.Tree.Levelled

/-!
The levels at which names are asked for. Evaluation counts levels along the tree, and building
counts them along the tokens; both count the same. The walk can be told which node it stands at, by
the path from the root, and then every query names its node: an identifier, whose level was written
down when the tree was built, and that level is the one that the resolver is told.
-/

namespace Reckon

structure LocatedQuery extends Query where
  path : List Edge

namespace Environment

variable {σ : Type}

/-- The environment of the node at a path, whose resolver notes every query with that path before it
is answered. -/
def locating (env : Environment (StateM σ)) (path : List Edge) :
    Environment (StateM (σ × List LocatedQuery)) where
  resolve name arguments level := ExceptT.mk fun (s, queries) =>
    let (outcome, after) := (env.resolve name arguments level).runFrom s
    (outcome, after, queries ++ [⟨⟨name, arguments, level⟩, path⟩])
  previous := env.previous

end Environment

namespace Evaluation

section Located

variable {m : Type → Type} [Monad m]

mutual

/-- The walk with an environment for each node, by the path to it from where the walk begins. -/
def walkAt (env : List Edge → Environment m) (level : Nat) (waiting : List (Waiting m)) :
    Node → Outcome m Float
  | ⟨token, [left], right⟩ =>
    let operands := operandsAt env (level + 1) 0 right
    if token.kind.isOperation then
      walkAt (fun path => env (.left 0 :: path)) level (⟨token, operands⟩ :: waiting) left
    else head (env []) level token 1 operands >>= applyWaiting waiting
  | ⟨token, [], right⟩ =>
    head (env []) level token 0 (operandsAt env (level + 1) 0 right) >>= applyWaiting waiting
  | ⟨token, _ :: _ :: more, right⟩ =>
    head (env []) level token (more.length + 2) (operandsAt env (level + 1) 0 right) >>=
      applyWaiting waiting

def operandsAt (env : List Edge → Environment m) (level index : Nat) :
    List Node → List (Outcome m Float)
  | [] => []
  | node :: nodes => walkAt (fun path => env (.right index :: path)) level [] node ::
      operandsAt env level (index + 1) nodes

end

def evaluateAt (env : List Edge → Environment m) (level : Nat) (node : Node) : Outcome m Float :=
  walkAt env level [] node

theorem walkAt_head (env : List Edge → Environment m) (level : Nat) {token : Token}
    {left : List Node} (last : token.kind.isOperation = false ∨ left.length ≠ 1)
    (waiting : List (Waiting m)) (right : List Node) :
    walkAt env level waiting ⟨token, left, right⟩ =
      head (env []) level token left.length (operandsAt env (level + 1) 0 right) >>=
        applyWaiting waiting := by
  match left with
  | [] => rw [walkAt, List.length_nil]
  | [left] =>
    cases last with
    | inl other => rw [walkAt, if_neg (by rw [other]; decide), List.length_singleton]
    | inr several => exact absurd rfl several
  | _ :: _ :: more => rw [walkAt, List.length_cons, List.length_cons]

end Located

end Evaluation

namespace Simulation

variable {m n : Type → Type} [Monad m] [Monad n] (sim : Simulation m n)
variable {env : List Edge → Environment m} {env' : Environment n} {level : Nat}

def WaitsAlike (w : Evaluation.Waiting m) (w' : Evaluation.Waiting n) : Prop :=
  w.token = w'.token ∧ List.Forall₂ sim.Rel w.operands w'.operands

theorem applyWaiting {waiting : List (Evaluation.Waiting m)}
    {waiting' : List (Evaluation.Waiting n)}
    (alike : List.Forall₂ sim.WaitsAlike waiting waiting') (value : Float) :
    sim.Rel (Evaluation.applyWaiting waiting value) (Evaluation.applyWaiting waiting' value) := by
  induction alike generalizing value with
  | nil => exact sim.pure value
  | cons first _ ih =>
    obtain ⟨same, operands⟩ := first
    rw [Evaluation.applyWaiting_cons, Evaluation.applyWaiting_cons, same]
    exact sim.bind (sim.applyToLeft value operands) ih

theorem operandsAt {index : Nat} {nodes : List Node}
    (each : ∀ i node, nodes[i]? = some node →
      sim.Rel (Evaluation.evaluateAt (fun path => env (.right (index + i) :: path)) level node)
        (Evaluation.evaluate env' level node)) :
    List.Forall₂ sim.Rel (Evaluation.operandsAt env level index nodes)
      (Evaluation.operandsOf env' level nodes) := by
  induction nodes generalizing index with
  | nil => exact .nil
  | cons node nodes ih =>
    refine .cons (each 0 node rfl) (ih fun i node found => ?_)
    rw [Nat.succ_add_eq_add_succ]
    exact each (i + 1) node found

variable (env env') in
def Answers (made : Levelled) (path : List Edge) : Prop :=
  (env path).previous = env'.previous ∧ (made.token.kind = .identifier → ∀ arguments,
    sim.Rel ((env path).resolve (Text.normalName made.token.text) arguments made.level)
      (env'.resolve (Text.normalName made.token.text) arguments made.level))

variable [LawfulMonad m] [LawfulMonad n]

theorem walkAt (node : Node)
    (answers : ∀ path made, (node.levelled level).at? path = some made →
      sim.Answers env env' made path)
    {waiting : List (Evaluation.Waiting m)} {waiting' : List (Evaluation.Waiting n)}
    (alike : List.Forall₂ sim.WaitsAlike waiting waiting') :
    sim.Rel (Evaluation.walkAt env level waiting node)
      (Evaluation.walk env' level waiting' node) := by
  induction node using Node.induction generalizing env level waiting waiting' with
  | step token left right leftIH rightIH =>
    have operands : List.Forall₂ sim.Rel (Evaluation.operandsAt env (level + 1) 0 right)
        (Evaluation.operandsOf env' (level + 1) right) := by
      refine sim.operandsAt fun index child found => ?_
      rw [Nat.zero_add]
      refine rightIH child (List.mem_of_getElem? found) (fun path made there => ?_) .nil
      refine answers (.right index :: path) made ?_
      rw [Node.at?_right, found]
      exact there
    -- The spine goes on below an operation with a left operand and ends at any other node.
    by_cases spine : token.kind.isOperation = true ∧ left.length = 1
    · obtain ⟨operation, single⟩ := spine
      obtain ⟨child, rfl⟩ := List.length_eq_one_iff.mp single
      rw [Evaluation.walkAt, if_pos operation, Evaluation.walk_spine env' level operation]
      refine leftIH child (List.mem_singleton_self child) (fun path made there => ?_)
        (.cons ⟨rfl, operands⟩ alike)
      refine answers (.left 0 :: path) made ?_
      rw [Node.at?_left]
      exact there
    · have last : token.kind.isOperation = false ∨ left.length ≠ 1 := by
        rwa [Classical.not_and_iff_not_or_not, Bool.not_eq_true] at spine
      rw [Evaluation.walkAt_head env level last, Evaluation.walk_head env' level last]
      obtain ⟨previous, named⟩ := answers [] _ rfl
      rw [Node.levelled_mk] at named
      have stands : sim.Stands (env []) env' [level] token token := by
        by_cases kind : token.kind = .identifier
        · exact .name kind kind rfl (List.forall_mem_singleton.mpr fun arguments =>
            sim.answer (named kind arguments))
        · exact .same kind rfl
      exact sim.bind (sim.head previous operands stands (List.mem_singleton_self level))
        fun value => sim.applyWaiting alike value

def locating (σ : Type) (sort : LocatedQuery → Prop) :
    Simulation (StateM (σ × List LocatedQuery)) (StateM (σ × List Query)) where
  Rel x y := ∀ s located queries, ∃ outcome after more, (∀ query ∈ more, sort query) ∧
    x.runFrom (s, located) = (outcome, after, located ++ more) ∧
      y.runFrom (s, queries) = (outcome, after, queries ++ more.map LocatedQuery.toQuery)
  pure a s located queries := ⟨.ok a, s, [], List.forall_mem_nil _, by simp; rfl, by simp; rfl⟩
  throw failure s located queries :=
    ⟨.error failure, s, [], List.forall_mem_nil _, by simp; rfl, by simp; rfl⟩
  bind := by
    intro α β x y f g first later s located queries
    obtain ⟨outcome, after, more, sorted, ran, ran'⟩ := first s located queries
    rw [Outcome.runFrom_bind, Outcome.runFrom_bind, ran, ran']
    cases outcome with
    | error failure => exact ⟨.error failure, after, more, sorted, rfl, rfl⟩
    | ok a =>
      obtain ⟨outcome, last, further, sorted', ran, ran'⟩ :=
        later a after (located ++ more) (queries ++ more.map LocatedQuery.toQuery)
      refine ⟨outcome, last, more ++ further, List.forall_mem_append.mpr ⟨sorted, sorted'⟩, ?_, ?_⟩
      · rw [← List.append_assoc]
        exact ran
      · rw [List.map_append, ← List.append_assoc]
        exact ran'

end Simulation

namespace Evaluation

variable {σ : Type} {maxDepth base : Nat} {span : List Token} {tree : Node}

/-- A query for an identifier of a tree, at the level that is written into it. -/
def Asks (noted : Levelled) (query : LocatedQuery) : Prop :=
  ∃ made, noted.at? query.path = some made ∧ made.token.kind = .identifier ∧
    query.name = Text.normalName made.token.text ∧ query.level = made.level

theorem locating_evaluateAt (env : Environment (StateM σ)) (level : Nat) (tree : Node) :
    (Simulation.locating σ (Asks (tree.levelled level))).Rel (evaluateAt env.locating level tree)
      (evaluate env.noting level tree) := by
  refine (Simulation.locating σ _).walkAt tree (fun path made found => ⟨rfl, ?_⟩) .nil
  intro named arguments s located queries
  exact ⟨_, _, [⟨⟨Text.normalName made.token.text, arguments, made.level⟩, path⟩],
    List.forall_mem_singleton.mpr ⟨made, found, named, rfl, rfl⟩, rfl, rfl⟩

/-- Building and evaluation count levels alike. The levels that are written down when a tree is
built are those that building counts, since it fails for the same limits; they are counted along the
edges to the right from the level of the root, and stay under the limit. Each query that an
evaluation asks is for an identifier of the tree, at the level written into it. -/
theorem levels_agree (built : Tree.build maxDepth base span = .ok tree) :
    (∀ limit level, (Tree.buildLevelled limit level span).map Levelled.node =
      Tree.build limit level span) ∧
    ∃ noted, Tree.buildLevelled maxDepth base span = .ok noted ∧ noted.node = tree ∧
      (∀ path made, noted.at? path = some made →
        made.level = base + path.countP Edge.isRight ∧ base ≤ made.level ∧ made.level < maxDepth) ∧
      ∀ (σ : Type) (env : Environment (StateM σ)) (s : σ), ∃ outcome after located,
        (evaluate env base tree).runFrom s = (outcome, after) ∧
        (evaluate env.noting base tree).runFrom (s, []) =
          (outcome, after, located.map LocatedQuery.toQuery) ∧
        (evaluateAt env.locating base tree).runFrom (s, []) = (outcome, after, located) ∧
        ∀ query ∈ located, Asks noted query := by
  refine ⟨fun limit level => Tree.map_node_buildLevelled limit level span, tree.levelled base, ?_,
    Node.node_levelled base tree, fun path made found => ?_, fun σ env s => ?_⟩
  · rw [Tree.buildLevelled_eq, built]
    rfl
  · obtain ⟨counted, mem⟩ := Node.level_of_at? found
    have fits := Tree.need_of_build built
    have bounds := Node.bounds_of_mem_levels mem
    exact ⟨counted, bounds.1, by omega⟩
  · obtain ⟨outcome, after, located, asked, ran, ran'⟩ := locating_evaluateAt env base tree s [] []
    obtain ⟨_, -, noted⟩ := noting_evaluate env base tree s []
    rw [ran'] at noted
    obtain ⟨rfl, rest⟩ := Prod.mk.inj noted
    obtain ⟨rfl, -⟩ := Prod.mk.inj rest
    exact ⟨_, _, located, rfl, ran', ran, asked⟩

theorem levels_agree_of_call :
    let env : Environment (StateM Nat) := ⟨fun _ _ _ => do modify (· + 1); return some 1, 0⟩
    let name (text : String) : Node := Node.leaf ⟨.identifier, text⟩
    let negated : Node := ⟨⟨.operator, "-"⟩, [], [name "z"]⟩
    let call : Node := ⟨⟨.identifier, "f"⟩, [], [name "y", negated]⟩
    let tree : Node := ⟨⟨.operator, "-"⟩, [name "x"], [call]⟩
    ∃ span noted located, Tree.build 6 2 span = .ok tree ∧
      Tree.buildLevelled 6 2 span = .ok noted ∧
        ((evaluateAt env.locating 2 tree).runFrom (0, [])).2.2 = located ∧
          located.map (fun query => (query.name, query.level)) =
            [("x", 2), ("y", 4), ("z", 5), ("f", 3)] ∧
          ∀ query ∈ located, Asks noted query := by
  intro env name negated call tree
  have word (first : Char) (letter : first.isAlpha = true) :
      Token.WellFormed ⟨.identifier, String.ofList [first]⟩ :=
    .identifier letter (List.forall_mem_nil _)
  have leaf (first : Char) (letter : first.isAlpha = true) :
      (name (String.ofList [first])).Printable :=
    .leaf (word first letter) (List.mem_cons_of_mem _ List.mem_cons_self)
  have minus : Token.WellFormed ⟨.operator, "-"⟩ := .single (c := '-') rfl
  have argument : negated.Printable := .operation minus rfl (by decide) (by decide)
    (List.cons_ne_nil _ _) (List.forall_mem_nil _) (List.forall_mem_singleton.mpr (leaf 'z' rfl))
  have operand : call.Printable := .call (word 'f' rfl) rfl (List.cons_ne_nil _ _)
    (List.forall_mem_cons.mpr ⟨leaf 'y' rfl, List.forall_mem_singleton.mpr argument⟩)
  have printable : tree.Printable := .operation minus rfl (by decide) (by decide)
    (List.cons_ne_nil _ _) (List.forall_mem_singleton.mpr (leaf 'x' rfl))
    (List.forall_mem_singleton.mpr operand)
  have found : Tree.read 6 2 tree.display = .ok tree := printable.read_display (by decide)
  obtain ⟨span, -, built⟩ := Tree.build_of_read found
  obtain ⟨-, noted, made, -, -, runs⟩ := levels_agree built
  obtain ⟨outcome, after, located, -, -, ran, asked⟩ := runs Nat env 0
  have asks : ((evaluateAt env.locating 2 tree).runFrom (0, [])).2.2.map
      (fun query => (query.name, query.level)) = [("x", 2), ("y", 4), ("z", 5), ("f", 3)] := by
    decide +kernel
  rw [ran] at asks
  exact ⟨span, noted, located, built, made, by rw [ran], asks, asked⟩

end Evaluation

end Reckon
