import SciCalc.Proofs.Infix.Text
import SciCalc.Proofs.Rpn.Refusal

/-! The shape of the texts on the stack, while infix text is written.

All of them are balanced, and those that stand in parentheses are the applications of operators. A
second reduction that keeps what built a result, instead of the result, tells which these are.
-/

namespace SciCalc

/-- Reduction to the lexemes that the results are built by. -/
def Algebra.builder : Algebra Lexeme where
  number value := .number value
  zero := .number 0.0
  call name _ := .ok (.function name)
  combine text _ _ := .ok (.operator text)

/-- A text has the shape of one that some lexeme builds: its parentheses have their partners, and it
stands in parentheses exactly if the lexeme is an operator.
-/
structure BuiltBy (builder : Lexeme) (text : String) : Prop where
  balanced : Balanced text.toList
  enclosed : isWrapped text ↔ builder.isOperator

-----------------------------------------------------------------------------------------
-- One text
-----------------------------------------------------------------------------------------

namespace BuiltBy

theorem number (value : Float) : BuiltBy (.number value) (numberText value) := by
  refine ⟨.of_forall (plain_numberText value), ?_⟩
  rw [isWrapped_eq_false fun starts =>
    (plain_numberText value _ (List.mem_of_mem_head? starts)).1 rfl]
  rfl

/-- A function's name stands in front of its argument, so the text starts with a letter. -/
theorem call {name argument : String} (known : (MathFunction.ofName? name).isSome)
    (balanced : Balanced argument.toList)
    : BuiltBy (.function name)
        (name ++ if isWrapped argument then argument else parenthesized argument) := by
  obtain ⟨c, later, letters, plain⟩ := exists_plain_name known
  constructor
  · rw [String.toList_append, letters]
    refine (Balanced.of_forall plain).append ?_
    split
    · exact balanced
    · exact balanced.parenthesized
  · rw [isWrapped_eq_false]
    · rfl
    · rw [String.toList_append, letters]
      intro starts
      exact (plain c List.mem_cons_self).1 (Option.some.inj starts)

theorem combine {text left right : String} (known : (Operator.ofText? text).isSome)
    (leftBalanced : Balanced left.toList) (rightBalanced : Balanced right.toList)
    : BuiltBy (.operator text) (parenthesized (left ++ text ++ right)) := by
  obtain ⟨operator, rfl⟩ := Operator.exists_text_eq known
  have inner : Balanced (left ++ operator.text ++ right).toList := by
    rw [String.toList_append, String.toList_append]
    exact (leftBalanced.append operator.balanced_text).append rightBalanced
  have wrapped := isWrapped_of_enclosed inner (toList_parenthesized _)
  exact ⟨inner.parenthesized, iff_of_true wrapped rfl⟩

end BuiltBy

-----------------------------------------------------------------------------------------
-- Whole stacks
-----------------------------------------------------------------------------------------

/-- The texts on a stack have the shapes that their builders give them, before a run and behind it.
Witness: induction on the run; what an operator or function takes is balanced, whatever built it.
-/
theorem Algebra.Runs.builtBy {mode texts tokens told final builders}
    (run : Algebra.written.Runs mode texts tokens told final)
    (known : ∀ token ∈ tokens, token.lexeme.IsKnown) (built : List.Forall₂ BuiltBy builders texts)
    : ∃ last,
        Algebra.builder.Runs mode builders tokens told last ∧ List.Forall₂ BuiltBy last final := by
  induction run generalizing builders with
  | nil => exact ⟨builders, .nil, built⟩
  | @cons _ token _ _ _ _ _ first _ ih =>
      obtain ⟨here, others⟩ := List.forall_mem_cons.mp known
      cases first with
      | @number _ value position =>
          obtain ⟨last, more, shaped⟩ := ih others (.cons (.number value) built)
          exact ⟨last, .cons .number more, shaped⟩
      | call called =>
          obtain _ | ⟨argument, below⟩ := built
          obtain rfl := Except.ok.inj called
          obtain ⟨last, more, shaped⟩ := ih others (.cons (.call here argument.balanced) below)
          exact ⟨last, .cons (.call rfl) more, shaped⟩
      | combine combined =>
          obtain _ | ⟨right, deeper⟩ := built
          obtain _ | ⟨left, below⟩ := deeper
          obtain rfl := Except.ok.inj combined
          obtain ⟨last, more, shaped⟩ :=
            ih others (.cons (.combine here left.balanced right.balanced) below)
          exact ⟨last, .cons (.combine rfl) more, shaped⟩
      | supply lenient combined =>
          obtain _ | ⟨right, below⟩ := built
          cases below
          obtain rfl := Except.ok.inj combined
          have zero : Balanced "0".toList := .plain (by decide) (by decide) .nil
          obtain ⟨last, more, shaped⟩ := ih others (.cons (.combine here zero right.balanced) .nil)
          exact ⟨last, .cons (.supply lenient rfl) more, shaped⟩

/-- A balanced text is found to stand in parentheses exactly if it does, with a text in between that
is balanced by itself. While the infix text of a sequence is written, every text on the stack is
balanced, and it is found to stand in parentheses exactly if an operator built it.
-/
theorem isWrapped_iff_enclosed
    : (∀ text : String,
        Balanced text.toList
        → (isWrapped text ↔ ∃ inner : String, text = parenthesized inner ∧ Balanced inner.toList))
      ∧ ∀ (mode : Mode) (tokens : List Token) (texts : List String),
          (∀ token ∈ tokens, token.lexeme.IsKnown)
          → (tokens.foldlM (Algebra.written.step mode) []).outcome = .ok texts
          → ∃ builders,
              (tokens.foldlM (Algebra.builder.step mode) []).outcome = .ok builders
              ∧ List.Forall₂ BuiltBy builders texts := by
  refine ⟨fun text balanced => ⟨balanced.exists_of_isWrapped, ?_⟩, ?_⟩
  · rintro ⟨inner, rfl, enclosed⟩
    exact isWrapped_of_enclosed enclosed (toList_parenthesized inner)
  · intro mode tokens texts known taken
    obtain ⟨told, run⟩ := Algebra.outcome_foldlM_eq_ok_iff.mp taken
    obtain ⟨builders, beside, shaped⟩ := run.builtBy known .nil
    exact ⟨builders, Algebra.outcome_foldlM_eq_ok_iff.mpr ⟨told, beside⟩, shaped⟩

/-- The stack behind `2 3 + sqrt 5 1 *` holds an application of an operator on top of one of a
function, which ends with a parenthesis and does not stand in parentheses.
-/
theorem isWrapped_iff_enclosed_of_nested_groups
    : let tokens : List Token :=
        [⟨.number 2.0, 0⟩, ⟨.number 3.0, 2⟩, ⟨.operator "+", 4⟩, ⟨.function "sqrt", 6⟩,
          ⟨.number 5.0, 11⟩, ⟨.number 1.0, 13⟩, ⟨.operator "*", 15⟩]
      Balanced "((a)(b))".toList
      ∧ (isWrapped "((a)(b))"
        ↔ ∃ inner : String, "((a)(b))" = parenthesized inner ∧ Balanced inner.toList)
      ∧ (tokens.foldlM (Algebra.written.step .strict) []).outcome
        = .ok ["(5*1)", "sqrt(2+3)"]
      ∧ List.Forall₂ BuiltBy [.operator "*", .function "sqrt"] ["(5*1)", "sqrt(2+3)"] := by
  intro tokens
  have balanced : Balanced "((a)(b))".toList :=
    .group (.group (.plain (by decide) (by decide) .nil)
      (.group (.plain (by decide) (by decide) .nil) .nil)) .nil
  have known : ∀ token ∈ tokens, token.lexeme.IsKnown := by
    simp only [tokens, List.forall_mem_cons, Lexeme.IsKnown]
    exact ⟨trivial, trivial, by decide, by decide, trivial, trivial, by decide, by simp⟩
  have written : (tokens.foldlM (Algebra.written.step .strict) []).outcome
      = .ok ["(5*1)", "sqrt(2+3)"] := by
    decide +kernel
  obtain ⟨builders, beside, shaped⟩ := isWrapped_iff_enclosed.2 .strict tokens _ known written
  have built : builders = [.operator "*", .function "sqrt"] :=
    Except.ok.inj (beside.symm.trans (by decide +kernel))
  exact ⟨balanced, isWrapped_iff_enclosed.1 _ balanced, written, built ▸ shaped⟩

/-- Two groups side by side do not stand in parentheses, and two of them in a third one do. -/
example : isWrapped "(a)(b)" = false ∧ isWrapped "((a)(b))" := by
  decide

end SciCalc
