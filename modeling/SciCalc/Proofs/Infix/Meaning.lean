import SciCalc.Proofs.Infix.Conversion
import SciCalc.Proofs.Scan.Drawing
import SciCalc.Proofs.Scan.Spelled

/-! The meaning of a phrase: its conversion lists the parse tree, and its value is the tree's. -/

namespace SciCalc

/-- An expression whose tokens are a phrase has the value of the parse tree, and no zero is
supplied on the way. Witness: the listing of the tree is reduced without one, and scanned names
are in the tables, so the tree has a value.
-/
theorem Phrase.outcome_evaluate {nonterminal ending tokens tree}
    (phrase : Phrase nonterminal ending tokens tree) {mode : Mode} {expression : String}
    (scanned : (tokenize mode expression).outcome = .ok tokens)
    : ∃ value,
        tree.value? = some value
        ∧ (evaluate mode expression).outcome = .ok value
        ∧ ∀ event ∈ (evaluate mode expression).events, event.isZeroSupplied = false := by
  obtain ⟨complete, rfl⟩ := outcome_tokenize_eq_ok_iff.mp scanned
  have converts : (toRpn mode expression).outcome = .ok tree.postorder :=
    outcome_toRpn_eq_ok_iff.mpr ⟨complete, Conversion.convert_of_phrase phrase⟩
  obtain ⟨value, evaluated⟩ := tree.exists_value fun token member =>
    (isWritable_of_mem_scan (phrase.postorder_subset member)).isKnown
  have reduced := tree.rpnValue_postorder evaluated mode
  have succeeds : (rpnValue mode tree.postorder).outcome = .ok value := by rw [reduced]
  refine ⟨value, evaluated, outcome_evaluate_eq_ok_iff.mpr ⟨_, converts, succeeds⟩, ?_⟩
  intro event member
  rw [events_evaluate converts succeeds, reduced, List.nil_append, List.mem_append] at member
  rcases member with passed | told
  · obtain ⟨_, _, rfl⟩ := exists_skipped_of_mem_toRpn passed
    rfl
  · simp only [List.mem_cons, List.not_mem_nil, or_false] at told
    rcases told with rfl | rfl <;> rfl

/-- Conversion agrees with the grammar: a sum converts to the listing of its parse tree, with
the tokens it was written with. In either mode an expression with these tokens has the value of
the tree, and no zero is supplied.
-/
theorem convert_and_evaluate_of_phrase {ending tokens tree}
    (phrase : Phrase .sum ending tokens tree)
    : convert tokens = .ok tree.postorder
      ∧ ∀ mode expression,
          (tokenize mode expression).outcome = .ok tokens
          → ∃ value,
              tree.value? = some value
              ∧ (evaluate mode expression).outcome = .ok value
              ∧ ∀ event ∈ (evaluate mode expression).events, event.isZeroSupplied = false :=
  ⟨Conversion.convert_of_phrase phrase, fun _ _ scanned => phrase.outcome_evaluate scanned⟩

/-- In `2*sqrt 7+(9)` the argument of the function is the whole sum behind it, so the function
waits for the end of the input, and the product waits for the function.
-/
theorem convert_and_evaluate_of_bare_square_root
    : let tokens : List Token :=
        [⟨.number 2.0, 0⟩, ⟨.operator "*", 1⟩, ⟨.function "sqrt", 2⟩, ⟨.number 7.0, 7⟩,
          ⟨.operator "+", 8⟩, ⟨.opening "(", 9⟩, ⟨.number 9.0, 10⟩, ⟨.closing ")", 11⟩]
      let tree : ParseTree :=
        .binary .multiply 1 (.number 2.0 0)
          (.call "sqrt" 2 (.binary .add 8 (.number 7.0 7) (.number 9.0 10)))
      (tokenize .strict "2*sqrt 7+(9)").outcome = .ok tokens
      ∧ Phrase .sum .bare tokens tree
      ∧ convert tokens = .ok tree.postorder
      ∧ ∀ mode expression,
          (tokenize mode expression).outcome = .ok tokens
          → ∃ value,
              tree.value? = some value
              ∧ (evaluate mode expression).outcome = .ok value
              ∧ ∀ event ∈ (evaluate mode expression).events, event.isZeroSupplied = false := by
  intro tokens tree
  have scanned : (tokenize .strict "2*sqrt 7+(9)").outcome = .ok tokens :=
    outcome_tokenize_eq_ok_iff.mpr ⟨by decide +kernel, by decide +kernel⟩
  have argument : Phrase .sum .closed (tokens.drop 3)
      (.binary .add 8 (.number 7.0 7) (.number 9.0 10)) :=
    @Phrase.binary .add _ _ _ _ _ _ (.single (.single (.single .number)))
      (.single (.single (.group rfl rfl (.single (.single (.single .number))))))
  have phrase : Phrase .sum .bare tokens tree :=
    .single (@Phrase.binary .multiply _ _ _ _ _ _ (.single (.single .number))
      (.single (.bareCall rfl argument)))
  exact ⟨scanned, phrase, convert_and_evaluate_of_phrase phrase⟩

end SciCalc
