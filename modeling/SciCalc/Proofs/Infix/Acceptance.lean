import SciCalc.Proofs.Infix.Alternation
import SciCalc.Proofs.Infix.Meaning
import SciCalc.Proofs.Infix.Outcome
import SciCalc.Proofs.Infix.Preservation

/-! What strict evaluation accepts, beside the grammar.

It accepts the expressions whose tokens convert to the listing of a tree. Those are not only the
infix expressions: conversion does not look at what stands beside a token, so where one operand
is missing and two others touch, the two faults can make up for each other. Of the accepted
expressions, the infix ones are those where no operand is missing.
-/

namespace SciCalc

/-- Strict evaluation gives an expression some value. -/
def IsAccepted (expression : String) : Prop :=
  ∃ value, (evaluate .strict expression).outcome = .ok value

/-- An expression consists of tokens, strictly read, and they are a sum of the grammar. -/
structure IsInfix (expression : String) : Prop where
  complete : (scan .strict expression).failure? = none
  sum : IsSum (scan .strict expression).tokens

theorem isKnown_of_convert {expression : String} {mode : Mode} {rpn : List Token}
    (converts : convert (scan mode expression).tokens = .ok rpn)
    : ∀ token ∈ rpn, token.lexeme.IsKnown := by
  intro token member
  have delivered := (convert_perm converts).mem_iff.mp member
  exact isKnown_of_mem_scan (List.mem_filter.mp delivered).1

/-- Strict evaluation accepts an expression exactly if its scan is complete and its tokens
convert to the listing of a tree. Witness: a strict reduction builds the tree on its stack, and
a tree of known names has a value.
-/
theorem isAccepted_iff_convert {expression : String}
    : IsAccepted expression
      ↔ (scan .strict expression).failure? = none
        ∧ ∃ tree : ParseTree,
            convert (scan .strict expression).tokens = .ok tree.postorder := by
  constructor
  · intro accepted
    obtain ⟨value, accepted⟩ := accepted
    obtain ⟨rpn, converted, reduced⟩ := outcome_evaluate_eq_ok_iff.mp accepted
    obtain ⟨complete, converts⟩ := outcome_toRpn_eq_ok_iff.mp converted
    have run := Algebra.outcome_reduce_eq_ok_iff.mp reduced
    obtain ⟨tree, rfl, _⟩ := run.exists_tree (isKnown_of_convert converts)
    exact ⟨complete, tree, converts⟩
  · intro listed
    obtain ⟨complete, tree, converts⟩ := listed
    obtain ⟨value, evaluated⟩ := tree.exists_value (isKnown_of_convert converts)
    have reduced : (rpnValue .strict tree.postorder).outcome = .ok value := by
      rw [tree.rpnValue_postorder evaluated]
    exact ⟨value, outcome_evaluate_eq_ok_iff.mpr
      ⟨_, outcome_toRpn_eq_ok_iff.mpr ⟨complete, converts⟩, reduced⟩⟩

/-- Conversion keeps the number of tokens that pass a test which no parenthesis passes.
Witness: it only drops parentheses and changes the order.
-/
theorem countP_of_convert {tokens rpn : List Token} (converts : convert tokens = .ok rpn)
    {test : Token → Bool} (plain : ∀ token, test token → token.isParenthesis = false)
    : rpn.countP test = tokens.countP test := by
  rw [(convert_perm converts).countP_eq, List.countP_filter]
  refine List.countP_congr fun token _ => ?_
  cases passes : test token with
  | false => simp
  | true => simp [plain token passes]

/-- In what strict evaluation accepts, as many operands touch as are missing.
Witness: one result is left, so there is one number more than there are operators, and
conversion keeps both.
-/
theorem IsAccepted.touchingOperands_eq {expression : String} (accepted : IsAccepted expression)
    : touchingOperands false (scan .strict expression).tokens
      = missingOperands false (scan .strict expression).tokens := by
  obtain ⟨value, accepted⟩ := accepted
  obtain ⟨rpn, converted, reduced⟩ := outcome_evaluate_eq_ok_iff.mp accepted
  obtain ⟨_, converts⟩ := outcome_toRpn_eq_ok_iff.mp converted
  have run := Algebra.outcome_reduce_eq_ok_iff.mp reduced
  have left := run.length_final
  have numbers := @countP_of_convert _ _ converts Token.isNumber fun ⟨lexeme, _⟩ number => by
    cases lexeme <;> first | rfl | cases number
  have operators := @countP_of_convert _ _ converts Token.isOperator
    fun ⟨lexeme, _⟩ operator => by cases lexeme <;> first | rfl | cases operator
  rw [numbers, operators, run.told_eq_nil] at left
  have counted := touchingOperands_add_countP false (scan .strict expression).tokens
  simp only [List.length_nil, List.length_cons, Bool.toNat_false] at left counted
  omega

/-- The infix expressions are those among the accepted ones in which no operand is missing.
Witness: then no operands touch either, and the parentheses of what converts are paired.
-/
theorem isInfix_iff {expression : String}
    : IsInfix expression
      ↔ IsAccepted expression
        ∧ missingOperands false (scan .strict expression).tokens = 0 := by
  constructor
  · intro sound
    obtain ⟨_, _, phrase⟩ := sound.sum
    obtain ⟨value, _, evaluated, _⟩ :=
      phrase.outcome_evaluate (outcome_tokenize_eq_ok_iff.mpr ⟨sound.complete, rfl⟩)
    exact ⟨⟨value, evaluated⟩, (alternates_iff.mp phrase.alternates).1⟩
  · intro whole
    obtain ⟨accepted, none⟩ := whole
    have turns := alternates_iff.mpr ⟨none, accepted.touchingOperands_eq.trans none⟩
    obtain ⟨value, evaluated⟩ := accepted
    obtain ⟨rpn, converted, _⟩ := outcome_evaluate_eq_ok_iff.mp evaluated
    obtain ⟨complete, paired⟩ := exists_outcome_toRpn_eq_ok_iff.mp ⟨rpn, converted⟩
    exact ⟨complete, (isSum_iff fun _ => isKnown_of_mem_scan).mpr ⟨paired, turns⟩⟩

/-- Strict evaluation accepts an expression exactly if its scan is complete and its tokens
convert to the listing of a tree. In what it accepts, as many operands touch as are missing, and
the infix expressions are those where none is missing.
-/
theorem evaluate_strict_accepts (expression : String)
    : (IsAccepted expression
        ↔ (scan .strict expression).failure? = none
          ∧ ∃ tree : ParseTree,
              convert (scan .strict expression).tokens = .ok tree.postorder)
      ∧ (IsAccepted expression
          → touchingOperands false (scan .strict expression).tokens
            = missingOperands false (scan .strict expression).tokens)
      ∧ (IsInfix expression
          ↔ IsAccepted expression
            ∧ missingOperands false (scan .strict expression).tokens = 0) :=
  ⟨isAccepted_iff_convert, IsAccepted.touchingOperands_eq, isInfix_iff⟩

/-- Not all that strict evaluation accepts is infix. In `-5 3` the minus has no left operand and
two numbers touch, and the value is that of `5-3`.
-/
theorem not_forall_strict_isSum
    : ¬ ∀ expression value,
          (evaluate .strict expression).outcome = .ok value
          → IsSum (scan .strict expression).tokens := by
  intro infixOnly
  have accepted : (evaluate .strict "-5 3").outcome = .ok 2.0 := by decide +kernel
  obtain ⟨_, _, phrase⟩ := infixOnly _ _ accepted
  exact absurd phrase.alternates (by decide +kernel)

end SciCalc
