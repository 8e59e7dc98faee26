import Mathlib.Logic.Function.Defs
import SciCalc.Proofs.Rpn.ParseTree

/-! Reverse Polish order can be read in one way only.

The tokens of a listing, taken one by one, join the trees on a stack until one tree is left, and
that is the tree that was listed. So no two trees have the same listing, and what a strict
evaluation accepts is the listing of exactly one tree.
-/

namespace SciCalc

namespace ParseTree

/-- The trees on a stack after one more token. A number is a tree of its own, and any other token
joins the latest trees. A token that finds too few of them, or joins nothing, is left out.
-/
def grow (forest : List ParseTree) (token : Token) : List ParseTree :=
  match token.lexeme, forest with
  | .number value, _ => number value token.position :: forest
  | .function name, argument :: below => call name token.position argument :: below
  | .operator text, right :: left :: below =>
      match Operator.ofText? text with
      | some operator => binary operator token.position left right :: below
      | none => forest
  | _, _ => forest

/-- A listing grows into its tree, above whatever trees there are.
Witness: induction on the tree; each node finds its operands on top.
-/
theorem foldl_grow_postorder (tree : ParseTree) (forest : List ParseTree)
    : tree.postorder.foldl grow forest = tree :: forest := by
  induction tree generalizing forest with
  | number value position => rfl
  | call name position argument ih => simp [postorder, ih, grow]
  | binary operator position left right leftIH rightIH =>
      simp [postorder, leftIH, rightIH, grow, Operator.ofText?_text]

/-- A listing determines its tree. -/
theorem postorder_injective : Function.Injective postorder := by
  intro first second same
  have grown := foldl_grow_postorder first []
  rw [same, foldl_grow_postorder] at grown
  exact (List.cons.inj grown).1.symm

end ParseTree

/-- A strict evaluation accepts a sequence of known names exactly if it is the listing of a parse
tree. There is one such tree, and the value is the tree's, with the left operand first.
-/
theorem rpnValue_strict_iff_postorder (rpn : List Token)
    (known : ∀ token ∈ rpn, token.lexeme.IsKnown)
    : ((∃ value, (rpnValue .strict rpn).outcome = .ok value)
        ↔ ∃ tree : ParseTree, tree.postorder = rpn)
      ∧ ∀ tree : ParseTree,
          tree.postorder = rpn
          → (∀ other : ParseTree, other.postorder = rpn → other = tree)
            ∧ ∃ value,
                tree.value? = some value ∧ (rpnValue .strict rpn).outcome = .ok value := by
  have evaluates (tree : ParseTree) (listed : tree.postorder = rpn)
      : ∃ value, tree.value? = some value ∧ (rpnValue .strict rpn).outcome = .ok value := by
    subst listed
    obtain ⟨value, evaluated⟩ := tree.exists_value known
    exact ⟨value, evaluated, by rw [tree.rpnValue_postorder evaluated]⟩
  refine ⟨⟨?_, ?_⟩, ?_⟩
  · rintro ⟨value, accepted⟩
    have run := Algebra.outcome_reduce_eq_ok_iff.mp accepted
    obtain ⟨tree, listed, _⟩ := run.exists_tree known
    exact ⟨tree, listed⟩
  · rintro ⟨tree, listed⟩
    obtain ⟨value, _, accepted⟩ := evaluates tree listed
    exact ⟨value, accepted⟩
  · intro tree listed
    refine ⟨fun other relisted => ?_, evaluates tree listed⟩
    exact ParseTree.postorder_injective (relisted.trans listed.symm)

/-- The sequence of `2-sqrt(9)/5`: the quotient is complete before the difference, which has it
on its right.
-/
theorem rpnValue_strict_iff_postorder_of_difference
    : let rpn : List Token :=
        [⟨.number 2.0, 0⟩, ⟨.number 9.0, 7⟩, ⟨.function "sqrt", 2⟩, ⟨.number 5.0, 10⟩,
          ⟨.operator "/", 9⟩, ⟨.operator "-", 1⟩]
      (∀ token ∈ rpn, token.lexeme.IsKnown)
      ∧ ((∃ value, (rpnValue .strict rpn).outcome = .ok value)
          ↔ ∃ tree : ParseTree, tree.postorder = rpn)
      ∧ ∀ tree : ParseTree,
          tree.postorder = rpn
          → (∀ other : ParseTree, other.postorder = rpn → other = tree)
            ∧ ∃ value,
                tree.value? = some value ∧ (rpnValue .strict rpn).outcome = .ok value := by
  intro rpn
  have known : ∀ token ∈ rpn, token.lexeme.IsKnown := by
    simp [rpn, Lexeme.IsKnown]
    decide
  exact ⟨known, rpnValue_strict_iff_postorder rpn known⟩

end SciCalc
