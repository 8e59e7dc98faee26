import Mathlib.Data.List.Forall2
import SciCalc.Proofs.Rpn.Runs

/-! Parse trees, their listings in reverse Polish order, and what they reduce to.

A listing runs without a zero in either mode and leaves the tree's result. A strict run in turn
leaves the results of trees whose listings are what it read.
-/

namespace SciCalc

variable {α : Type}

/-- A lexeme whose name, if it has one, is in the tables. -/
def Lexeme.IsKnown : Lexeme → Prop
  | .operator text => (Operator.ofText? text).isSome
  | .function name => (MathFunction.ofName? name).isSome
  | .number _ | .opening _ | .closing _ => True

/-- An expression with its structure laid open. Functions are kept by name, since a sequence may
hold any, and every node has the position of its token.
-/
inductive ParseTree where
  | number (value : Float) (position : Int)
  | call (name : String) (position : Int) (argument : ParseTree)
  | binary (operator : Operator) (position : Int) (left right : ParseTree)

namespace ParseTree

/-- The tokens of a tree, each after those of its operands. -/
def postorder : ParseTree → List Token
  | number value position => [⟨.number value, position⟩]
  | call name position argument => argument.postorder ++ [⟨.function name, position⟩]
  | binary operator position left right =>
      left.postorder ++ right.postorder ++ [⟨.operator operator.text, position⟩]

/-- The value of a tree, by the tables of operations and functions: none if it calls a function
that nobody knows.
-/
def value? : ParseTree → Option Float
  | number value _ => some value
  | call name _ argument => do
      let function ← MathFunction.ofName? name
      return function.apply (← argument.value?)
  | binary operator _ left right => do
      return operator.apply (← left.value?) (← right.value?)

/-- What a tree comes to in an algebra. -/
def result (algebra : Algebra α) : ParseTree → Except Failure α
  | number value _ => .ok (algebra.number value)
  | call name _ argument => argument.result algebra >>= algebra.call name
  | binary operator _ left right => do
      algebra.combine operator.text (← left.result algebra) (← right.result algebra)

/-- The same tree with every position forgotten. -/
def placeless : ParseTree → ParseTree
  | number value _ => number value 0
  | call name _ argument => call name 0 argument.placeless
  | binary operator _ left right => binary operator 0 left.placeless right.placeless

@[simp] theorem value?_placeless (tree : ParseTree) : tree.placeless.value? = tree.value? := by
  induction tree with
  | number => rfl
  | call _ _ _ ih => simp [placeless, value?, ih]
  | binary _ _ _ _ leftIH rightIH => simp [placeless, value?, leftIH, rightIH]

@[simp] theorem map_lexeme_postorder_placeless (tree : ParseTree)
    : tree.placeless.postorder.map Token.lexeme = tree.postorder.map Token.lexeme := by
  induction tree with
  | number => rfl
  | call _ _ _ ih => simp [placeless, postorder, ih]
  | binary _ _ _ _ leftIH rightIH => simp [placeless, postorder, leftIH, rightIH]

theorem forall_mem_postorder_call {holds : Token → Prop} {name position argument}
    : (∀ token ∈ (call name position argument).postorder, holds token)
      ↔ (∀ token ∈ argument.postorder, holds token) ∧ holds ⟨.function name, position⟩ := by
  simp [postorder, or_imp, forall_and]

theorem forall_mem_postorder_binary {holds : Token → Prop} {operator position left right}
    : (∀ token ∈ (binary operator position left right).postorder, holds token)
      ↔ (∀ token ∈ left.postorder, holds token)
        ∧ (∀ token ∈ right.postorder, holds token)
        ∧ holds ⟨.operator operator.text, position⟩ := by
  simp [postorder, or_imp, forall_and]

/-- A tree whose names are all in the tables has a value, by induction on it. -/
theorem exists_value (tree : ParseTree)
    (known : ∀ token ∈ tree.postorder, token.lexeme.IsKnown)
    : ∃ value, tree.value? = some value := by
  induction tree with
  | number value _ => exact ⟨value, rfl⟩
  | call name position argument ih =>
      obtain ⟨inside, named⟩ := forall_mem_postorder_call.mp known
      obtain ⟨value, evaluated⟩ := ih inside
      obtain ⟨function, found⟩ := Option.isSome_iff_exists.mp named
      exact ⟨function.apply value, by simp [value?, evaluated, found]⟩
  | binary operator _ left right leftIH rightIH =>
      obtain ⟨inLeft, inRight, _⟩ := forall_mem_postorder_binary.mp known
      obtain ⟨first, leftEvaluated⟩ := leftIH inLeft
      obtain ⟨second, rightEvaluated⟩ := rightIH inRight
      exact ⟨operator.apply first second, by simp [value?, leftEvaluated, rightEvaluated]⟩

theorem result_value_eq_ok_iff {tree : ParseTree} {value : Float}
    : tree.result Algebra.value = .ok value ↔ tree.value? = some value := by
  induction tree generalizing value with
  | number => simp [result, value?, Algebra.value]
  | call name _ argument ih =>
      simp only [result, Failure.bind_eq_ok_iff, ih]
      cases found : MathFunction.ofName? name <;>
        simp [Algebra.value, value?, found, Option.bind_eq_some_iff]
  | binary operator _ left right leftIH rightIH =>
      simp only [result, Failure.bind_eq_ok_iff, leftIH, rightIH]
      simp [Algebra.value, value?, Operator.ofText?_text, Option.bind_eq_some_iff]

end ParseTree

namespace Algebra

-----------------------------------------------------------------------------------------
-- From a tree to a run
-----------------------------------------------------------------------------------------

/-- A listing is reduced without a zero in either mode, and adds the tree's result to any stack.
Witness: induction on the tree; each node finds the results of its operands on top.
-/
theorem runs_postorder {algebra : Algebra α} (mode : Mode) {tree : ParseTree} {result : α}
    (comes : tree.result algebra = .ok result) (stack : List α)
    : algebra.Runs mode stack tree.postorder [] (result :: stack) := by
  induction tree generalizing result stack with
  | number value position =>
      cases comes
      exact .cons .number .nil
  | call name position argument ih =>
      obtain ⟨inner, reduced, called⟩ := Failure.bind_eq_ok_iff.mp comes
      exact (ih reduced stack).append (.cons (.call called) .nil)
  | binary operator position left right leftIH rightIH =>
      obtain ⟨first, leftReduced, continued⟩ := Failure.bind_eq_ok_iff.mp comes
      obtain ⟨second, rightReduced, combined⟩ := Failure.bind_eq_ok_iff.mp continued
      have operands := (leftIH leftReduced stack).append (rightIH rightReduced (first :: stack))
      exact operands.append (.cons (.combine combined) .nil)

end Algebra

namespace ParseTree

/-- The listing of a tree with a value has that value, in either mode and without a zero. -/
theorem rpnValue_postorder {tree : ParseTree} {value : Float}
    (evaluated : tree.value? = some value) (mode : Mode)
    : rpnValue mode tree.postorder = ⟨[], .ok value⟩ :=
  Algebra.reduce_eq_ok_iff.mpr
    (Algebra.runs_postorder mode (result_value_eq_ok_iff.mpr evaluated) [])

/-- If the listing of a tree has a value, the tree has it. Witness: reduction is a function. -/
theorem value?_eq_some_of_runs {tree : ParseTree} {mode told value}
    (known : ∀ token ∈ tree.postorder, token.lexeme.IsKnown)
    (run : Algebra.value.Runs mode [] tree.postorder told [value])
    : tree.value? = some value := by
  obtain ⟨other, evaluated⟩ := tree.exists_value known
  have reduced : rpnValue mode tree.postorder = ⟨told, .ok value⟩ :=
    Algebra.reduce_eq_ok_iff.mpr run
  rw [rpnValue_postorder evaluated mode] at reduced
  injection reduced with _ same
  rw [evaluated, Except.ok.inj same]

end ParseTree

namespace Algebra

-----------------------------------------------------------------------------------------
-- From a run to a tree
-----------------------------------------------------------------------------------------

/-- The tokens of the trees on a stack, from the deepest tree to the latest. -/
def listing : List ParseTree → List Token
  | [] => []
  | tree :: below => listing below ++ tree.postorder

/-- The results on a stack belong to trees. -/
def Bears (algebra : Algebra α) (forest : List ParseTree) (stack : List α) : Prop :=
  List.Forall₂ (fun tree result => tree.result algebra = .ok result) forest stack

/-- A strict run extends the trees on its stack by exactly the tokens it reads.
Witness: induction on the run; every token closes a tree over those on top.
-/
theorem Runs.exists_forest {algebra : Algebra α} {stack tokens told final forest}
    (run : algebra.Runs .strict stack tokens told final)
    (known : ∀ token ∈ tokens, token.lexeme.IsKnown) (bears : algebra.Bears forest stack)
    : ∃ grown, algebra.Bears grown final ∧ listing grown = listing forest ++ tokens := by
  induction run generalizing forest with
  | nil => exact ⟨forest, bears, by simp⟩
  | @cons _ token _ _ _ _ _ first _ ih =>
      have others := fun token member => known token (List.mem_cons_of_mem _ member)
      cases first with
      | @number _ value position =>
          have leaf : (ParseTree.number value position).result algebra = _ := rfl
          obtain ⟨grown, bearsFinal, listed⟩ := ih others (.cons leaf bears)
          exact ⟨grown, bearsFinal, by simp [listed, listing, ParseTree.postorder]⟩
      | @call name position _ _ _ called =>
          obtain _ | @⟨argument, _, below, _, reduced, bearsBelow⟩ := bears
          have node : (ParseTree.call name position argument).result algebra = _ :=
            Failure.bind_eq_ok_iff.mpr ⟨_, reduced, called⟩
          obtain ⟨grown, bearsFinal, listed⟩ := ih others (.cons node bearsBelow)
          exact ⟨grown, bearsFinal, by simp [listed, listing, ParseTree.postorder]⟩
      | @combine text position _ _ _ _ combined =>
          obtain _ | @⟨right, _, _, _, rightReduced, deeper⟩ := bears
          obtain _ | @⟨left, _, below, _, leftReduced, bearsBelow⟩ := deeper
          obtain ⟨operator, rfl⟩ :=
            Operator.exists_text_eq (known ⟨.operator text, position⟩ (by simp))
          have node : (ParseTree.binary operator position left right).result algebra = _ :=
            Failure.bind_eq_ok_iff.mpr
              ⟨_, leftReduced, Failure.bind_eq_ok_iff.mpr ⟨_, rightReduced, combined⟩⟩
          obtain ⟨grown, bearsFinal, listed⟩ := ih others (.cons node bearsBelow)
          exact ⟨grown, bearsFinal, by simp [listed, listing, ParseTree.postorder]⟩
      | supply lenient _ => cases lenient

/-- What a strict reduction accepts is the listing of a tree, and its result is the tree's.
Witness: the final stack bears a single tree.
-/
theorem Runs.exists_tree {algebra : Algebra α} {tokens told result}
    (run : algebra.Runs .strict [] tokens told [result])
    (known : ∀ token ∈ tokens, token.lexeme.IsKnown)
    : ∃ tree : ParseTree, tree.postorder = tokens ∧ tree.result algebra = .ok result := by
  obtain ⟨grown, bears, listed⟩ := run.exists_forest known (List.Forall₂.nil : algebra.Bears [] [])
  obtain _ | @⟨tree, _, below, _, reduced, bearsBelow⟩ := bears
  obtain _ | _ := bearsBelow
  exact ⟨tree, by simpa [listing] using listed, reduced⟩

end Algebra

end SciCalc
