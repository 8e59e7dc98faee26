import SciCalc.Proofs.Evaluation.Culprit
import SciCalc.Proofs.Infix.RoundTrip

/-! The infix text of an expression is canonical: there is nothing to change when it is written
again.

It is the text of a parse tree. Read back, it gives the same tree with its tokens elsewhere, and
places are not written.
-/

namespace SciCalc

/-- What a tree comes to does not depend on the places of its tokens, by induction on it. -/
@[simp] theorem ParseTree.result_placeless {α : Type} (algebra : Algebra α) (tree : ParseTree)
    : tree.placeless.result algebra = tree.result algebra := by
  induction tree with
  | number => rfl
  | call _ _ _ ih => simp [placeless, result, ih]
  | binary _ _ _ _ leftIH rightIH => simp [placeless, result, leftIH, rightIH]

/-- A tree whose tokens are those of another one elsewhere is written alike, in either mode, and
no zero is supplied.
-/
theorem ParseTree.infixText_of_placeless {tree again : ParseTree} {text : String}
    (placeless : again.placeless = tree.placeless)
    (comes : tree.result Algebra.written = .ok text) (mode : Mode)
    : infixText mode again.postorder = pure text := by
  have same : again.result Algebra.written = .ok text := by
    rw [← result_placeless, placeless, result_placeless, comes]
  exact Algebra.reduce_eq_ok_iff.mpr (Algebra.runs_postorder mode same [])

/-- The infix text of an expression is canonical: read back in either mode and written again, it is
the same text, with nothing passed over and no zero supplied.
Witness: the text is that of a tree, and reading it back only moves the tree's tokens.
-/
theorem infixText_canonical (mode : Mode) (expression : String) (rpn : List Token) (text : String)
    (converted : (toRpn mode expression).outcome = .ok rpn)
    (written : (infixText mode rpn).outcome = .ok text)
    : ∀ reading, ∃ again,
        toRpn reading text = pure again ∧ infixText reading again = pure text := by
  have run := Algebra.outcome_reduce_eq_ok_iff.mp written
  obtain ⟨tree, _, writable, comes⟩ := run.exists_written_tree fun _ member =>
    isWritable_of_mem_scan (mem_scan_of_toRpn converted member).1
  obtain ⟨again, placeless, reads⟩ := tree.exists_toRpn_written writable comes
  intro reading
  exact ⟨again.postorder, reads reading, ParseTree.infixText_of_placeless placeless comes reading⟩

/-- In `sin(-(1.50))*$2` a zero is written, and the argument keeps the one pair of parentheses that
its difference has.
-/
theorem infixText_canonical_of_negated_argument
    : let rpn : List Token :=
        [⟨.number 1.5, 6⟩, ⟨.operator "-", 4⟩, ⟨.function "sin", 0⟩, ⟨.number 2.0, 14⟩,
          ⟨.operator "*", 12⟩]
      (toRpn .lenient "sin(-(1.50))*$2").outcome = .ok rpn
      ∧ (infixText .lenient rpn).outcome = .ok "(sin(0-1.5)*2)"
      ∧ ∀ reading, ∃ again,
          toRpn reading "(sin(0-1.5)*2)" = pure again
          ∧ infixText reading again = pure "(sin(0-1.5)*2)" := by
  intro rpn
  have converted : (toRpn .lenient "sin(-(1.50))*$2").outcome = .ok rpn :=
    outcome_toRpn_eq_ok_iff.mpr ⟨by decide +kernel, by decide +kernel⟩
  have written : (infixText .lenient rpn).outcome = .ok "(sin(0-1.5)*2)" := by
    decide +kernel
  exact ⟨converted, written, infixText_canonical _ _ _ _ converted written⟩

end SciCalc
