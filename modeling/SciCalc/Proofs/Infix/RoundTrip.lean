import SciCalc.Proofs.Infix.Preservation
import SciCalc.Proofs.Infix.Text
import SciCalc.Proofs.Rpn.ZeroDefault

/-! Round trips through infix text.

What is written of a sequence in reverse Polish order is the text of a parse tree. The tree
lists the sequence, after the zeros that were supplied while writing. So the text converts to
these zeros and the sequence, and it has the value that the sequence has.
-/

namespace SciCalc

-----------------------------------------------------------------------------------------
-- Reading written text back
-----------------------------------------------------------------------------------------

def zeros (count : Nat) : List Token :=
  List.replicate count ⟨.number 0.0, 0⟩

theorem allZero_zeros (count : Nat) : AllZero (zeros count) := by
  intro token member
  rw [List.eq_of_mem_replicate member]

/-- A text written of a sequence is the text of a tree, and the tree lists the supplied zeros and
then the sequence. Witness: written after the zeros, the text is the same and none is supplied; a
strict run belongs to a tree.
-/
theorem Algebra.Runs.exists_written_tree {mode rpn told text}
    (run : Algebra.written.Runs mode [] rpn told [text])
    (writable : ∀ token ∈ rpn, token.lexeme.IsWritable)
    : ∃ tree : ParseTree,
        tree.postorder = zeros told.length ++ rpn
        ∧ (∀ token ∈ tree.postorder, token.lexeme.IsWritable)
        ∧ tree.result Algebra.written = .ok text := by
  have all : ∀ token ∈ zeros told.length ++ rpn, token.lexeme.IsWritable := by
    refine List.forall_mem_append.mpr ⟨?_, writable⟩
    intro token member
    rw [allZero_zeros _ token member]
    change IsUnsigned 0.0
    decide
  have strict : Algebra.written.Runs .strict [] (zeros told.length ++ rpn) [] [text] :=
    run.strict_after_zeros rfl (allZero_zeros _) List.length_replicate
  obtain ⟨tree, listed, comes⟩ :=
    strict.exists_tree fun token member => (all token member).isKnown
  exact ⟨tree, listed, listed ▸ all, comes⟩

/-- A text written of a sequence reads back, in either mode, as the listing of a tree with the
supplied zeros in front of the sequence. Witness: the text of a tree reads back as the tree.
-/
theorem Algebra.Runs.exists_read_back {mode rpn told text}
    (run : Algebra.written.Runs mode [] rpn told [text])
    (writable : ∀ token ∈ rpn, token.lexeme.IsWritable)
    : ∃ tree again : ParseTree,
        tree.postorder = zeros told.length ++ rpn
        ∧ (∀ token ∈ tree.postorder, token.lexeme.IsWritable)
        ∧ again.placeless = tree.placeless
        ∧ ∀ reading, toRpn reading text = pure again.postorder := by
  obtain ⟨tree, listed, all, comes⟩ := run.exists_written_tree writable
  obtain ⟨again, placeless, reads⟩ := tree.exists_toRpn_written all comes
  exact ⟨tree, again, listed, all, placeless, reads⟩

theorem Algebra.Runs.isParenthesis_eq_false {α : Type} {algebra : Algebra α}
    {mode stack tokens told final} (run : algebra.Runs mode stack tokens told final)
    : ∀ token ∈ tokens, token.isParenthesis = false := by
  induction run with
  | nil => simp
  | cons first _ ih =>
      refine List.forall_mem_cons.mpr ⟨?_, ih⟩
      cases first <;> rfl

/-- Known names and numbers without a sign can be written, if nothing else is there. -/
theorem Token.isWritable {token : Token} (known : token.lexeme.IsKnown)
    (unsigned : ∀ value, token.lexeme = .number value → IsUnsigned value)
    (other : token.isParenthesis = false)
    : token.lexeme.IsWritable := by
  obtain ⟨lexeme, position⟩ := token
  cases lexeme with
  | number value => exact unsigned value rfl
  | operator _ | function _ => exact known
  | opening _ | closing _ => cases other

/-- The infix text of a sequence converts to the sequence, positions apart, after one zero for
each number that is missing beside the operators. A strict text has no such zero.
-/
theorem toRpn_infixText (mode : Mode) (rpn : List Token) (text : String)
    (known : ∀ token ∈ rpn, token.lexeme.IsKnown)
    (unsigned : ∀ token ∈ rpn, ∀ value, token.lexeme = .number value → IsUnsigned value)
    (written : (infixText mode rpn).outcome = .ok text)
    : ∃ k : Nat,
        (k : Int) = rpn.countP Token.isOperator + 1 - rpn.countP Token.isNumber
        ∧ (mode = .strict → k = 0)
        ∧ ∃ again,
            (toRpn .strict text).outcome = .ok again
            ∧ again.map Token.lexeme
              = List.replicate k (.number 0.0) ++ rpn.map Token.lexeme := by
  have run := Algebra.outcome_reduce_eq_ok_iff.mp written
  obtain ⟨tree, again, listed, _, placeless, reads⟩ := run.exists_read_back fun token member =>
    token.isWritable (known token member) (unsigned token member)
      (run.isParenthesis_eq_false token member)
  have counted := run.length_final
  simp only [List.length_singleton, List.length_nil] at counted
  refine ⟨(Algebra.written.reduce mode rpn).events.length, by omega, ?_, again.postorder, ?_, ?_⟩
  · rintro rfl
    rw [run.told_eq_nil]
    rfl
  · rw [reads]
    rfl
  · rw [← ParseTree.map_lexeme_postorder_placeless, placeless,
      ParseTree.map_lexeme_postorder_placeless, listed, List.map_append, zeros,
      List.map_replicate]

/-- The sequence of `2*-3` is written with a zero in front of the product, and the text gives
the sequence back with the zero in front of all.
-/
theorem toRpn_infixText_of_product
    : let rpn : List Token :=
        [⟨.number 2.0, 0⟩, ⟨.operator "*", 1⟩, ⟨.number 3.0, 3⟩, ⟨.operator "-", 2⟩]
      (∀ token ∈ rpn, token.lexeme.IsKnown)
      ∧ (∀ token ∈ rpn, ∀ value, token.lexeme = .number value → IsUnsigned value)
      ∧ (infixText .lenient rpn).outcome = .ok "((0*2)-3)"
      ∧ ∃ k : Nat,
          (k : Int) = rpn.countP Token.isOperator + 1 - rpn.countP Token.isNumber
          ∧ (Mode.lenient = .strict → k = 0)
          ∧ ∃ again,
              (toRpn .strict "((0*2)-3)").outcome = .ok again
              ∧ again.map Token.lexeme
                = List.replicate k (.number 0.0) ++ rpn.map Token.lexeme := by
  intro rpn
  have known : ∀ token ∈ rpn, token.lexeme.IsKnown := by
    simp [rpn, Lexeme.IsKnown]
    decide
  have unsigned : ∀ token ∈ rpn, ∀ value, token.lexeme = .number value → IsUnsigned value := by
    simp [rpn]
    decide
  have written : (infixText .lenient rpn).outcome = .ok "((0*2)-3)" := by
    decide +kernel
  exact ⟨known, unsigned, written, toRpn_infixText _ _ _ known unsigned written⟩

-----------------------------------------------------------------------------------------
-- Values of written text
-----------------------------------------------------------------------------------------

/-- An expression with a value can be written out from its reverse Polish order, and what is
written has the same value in either mode: nothing is passed over, and no zero is supplied.
-/
theorem evaluate_infixText (mode : Mode) (expression : String) (value : Float)
    (evaluated : (evaluate mode expression).outcome = .ok value)
    : ∃ rpn text,
        (toRpn mode expression).outcome = .ok rpn
        ∧ (infixText mode rpn).outcome = .ok text
        ∧ ∀ reading, ∃ again,
            evaluate reading text
              = ⟨[.converted text again, .evaluated text value], .ok value⟩ := by
  obtain ⟨rpn, converts, reduces⟩ := outcome_evaluate_eq_ok_iff.mp evaluated
  have run := Algebra.outcome_reduce_eq_ok_iff.mp reduces
  obtain ⟨last, writes, height⟩ := run.lockstep Algebra.total_written (rfl : [].length = 0)
  obtain ⟨text, rfl⟩ := List.length_eq_one_iff.mp height
  have written : infixText mode rpn = ⟨_, .ok text⟩ := Algebra.reduce_eq_ok_iff.mpr writes
  have writable : ∀ token ∈ rpn, token.lexeme.IsWritable := by
    intro token member
    obtain ⟨_, converted⟩ := outcome_toRpn_eq_ok_iff.mp converts
    have kept := (convert_perm converted).mem_iff.mp member
    exact isWritable_of_mem_scan (List.mem_of_mem_filter kept)
  obtain ⟨tree, again, listed, all, placeless, reads⟩ := writes.exists_read_back writable
  have strict := run.strict_after_zeros rfl (allZero_zeros _) List.length_replicate
  rw [← listed] at strict
  have same : again.value? = some value := by
    rw [← ParseTree.value?_placeless, placeless, ParseTree.value?_placeless]
    exact tree.value?_eq_some_of_runs (fun token member => (all token member).isKnown) strict
  refine ⟨rpn, text, converts, by rw [written], fun reading => ⟨again.postorder, ?_⟩⟩
  exact evaluate_of_toRpn_eq_pure (reads reading) (again.rpnValue_postorder same reading)

/-- In `2*$-3` a character is passed over and a zero is supplied, and neither has a part in what
is written.
-/
theorem evaluate_infixText_of_product
    : (evaluate .lenient "2*$-3").outcome = .ok (-3.0)
      ∧ ∃ rpn text,
          (toRpn .lenient "2*$-3").outcome = .ok rpn
          ∧ (infixText .lenient rpn).outcome = .ok text
          ∧ ∀ reading, ∃ again,
              evaluate reading text
                = ⟨[.converted text again, .evaluated text (-3.0)], .ok (-3.0)⟩ := by
  let rpn : List Token :=
    [⟨.number 2.0, 0⟩, ⟨.operator "*", 1⟩, ⟨.number 3.0, 4⟩, ⟨.operator "-", 3⟩]
  have converts : (toRpn .lenient "2*$-3").outcome = .ok rpn :=
    outcome_toRpn_eq_ok_iff.mpr ⟨by decide +kernel, by decide +kernel⟩
  have evaluated : (evaluate .lenient "2*$-3").outcome = .ok (-3.0) :=
    outcome_evaluate_eq_ok_iff.mpr ⟨rpn, converts, rfl⟩
  exact ⟨evaluated, evaluate_infixText _ _ _ evaluated⟩

end SciCalc
