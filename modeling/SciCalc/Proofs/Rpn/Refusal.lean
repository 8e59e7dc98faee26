import SciCalc.Proofs.Rpn.ParseTree

/-! Failures of a reduction: at which token it fails, and who is to blame.

A reduction fails at the first token that it does not take. Either it refuses the token for want of
operands, and then it makes no difference what it computes with, or the operands are there and the
algebra has no result for them. A reduction that takes all tokens can only fail at the end.
-/

namespace SciCalc

variable {σ α β : Type}

-----------------------------------------------------------------------------------------
-- The token at which a list of steps fails
-----------------------------------------------------------------------------------------

/-- Steps over a list fail exactly if one of them fails after all steps before it.
Witness: induction on the list.
-/
theorem Traced.outcome_foldlM_eq_error_iff {step : σ → Token → Traced σ} {tokens : List Token}
    {state : σ} {failure : Failure}
    : (tokens.foldlM step state).outcome = .error failure
      ↔ ∃ before token after middle,
          tokens = before ++ token :: after
          ∧ (before.foldlM step state).outcome = .ok middle
          ∧ (step middle token).outcome = .error failure := by
  induction tokens generalizing state with
  | nil => simp
  | cons first rest ih =>
      rw [List.foldlM_cons, outcome_bind, Failure.bind_eq_error_iff]
      constructor
      · rintro (failed | ⟨next, stepped, failed⟩)
        · exact ⟨[], first, rest, state, rfl, rfl, failed⟩
        · obtain ⟨before, token, after, middle, rfl, taken, last⟩ := ih.mp failed
          refine ⟨first :: before, token, after, middle, rfl, ?_, last⟩
          rw [List.foldlM_cons, outcome_bind, Failure.bind_eq_ok_iff]
          exact ⟨next, stepped, taken⟩
      · rintro ⟨before, token, after, middle, same, taken, last⟩
        cases before with
        | nil =>
            obtain ⟨rfl, rfl⟩ := List.cons.inj same
            cases taken
            exact .inl last
        | cons _ before =>
            obtain ⟨rfl, rfl⟩ := List.cons.inj same
            rw [List.foldlM_cons, outcome_bind, Failure.bind_eq_ok_iff] at taken
            obtain ⟨next, stepped, taken⟩ := taken
            exact .inr ⟨next, stepped, ih.mpr ⟨before, token, after, middle, rfl, taken, last⟩⟩

namespace Algebra

/-- A reduction refuses a token. Only the height of the stack and the token matter. -/
inductive Refuses (mode : Mode) : (height : Nat) → Token → Failure → Prop
  | missingArgument {name position}
    : Refuses mode 0 ⟨.function name, position⟩ (.missingArgument name position)
  | missingOperands {text position}
    : Refuses mode 0 ⟨.operator text, position⟩ (.missingOperands text position)
  | missingLeftOperand {text position} (strict : mode = .strict)
    : Refuses mode 1 ⟨.operator text, position⟩ (.missingLeftOperand text position)
  | opening {height text position}
    : Refuses mode height ⟨.opening text, position⟩ (.unexpected text position)
  | closing {height text position}
    : Refuses mode height ⟨.closing text, position⟩ (.unexpected text position)

/-- An algebra has no result for a token whose operands are there. -/
inductive Lacks (algebra : Algebra α) (mode : Mode) : List α → Token → Failure → Prop
  | call {name position argument below failure}
    (called : algebra.call name argument = .error failure)
    : algebra.Lacks mode (argument :: below) ⟨.function name, position⟩ failure
  | combine {text position left right below failure}
    (combined : algebra.combine text left right = .error failure)
    : algebra.Lacks mode (right :: left :: below) ⟨.operator text, position⟩ failure
  | supply {text position right failure} (lenient : mode = .lenient)
    (combined : algebra.combine text algebra.zero right = .error failure)
    : algebra.Lacks mode [right] ⟨.operator text, position⟩ failure

variable {algebra : Algebra α} {other : Algebra β} {mode : Mode} {stack : List α}
variable {token : Token} {tokens : List Token} {failure : Failure}

theorem Refuses.kind_eq {height : Nat} (refused : Refuses mode height token failure)
    : failure.kind = .ofSyntax := by
  cases refused <;> rfl

/-- An operator that finds no operands is refused. -/
theorem refuses_of_outcome_operands {text : String} {position : Int}
    (failed : (algebra.operands mode text position stack).outcome = .error failure)
    : Refuses mode stack.length ⟨.operator text, position⟩ failure := by
  match stack, mode with
  | [], _ =>
      cases failed
      exact .missingOperands
  | [_], .strict =>
      cases failed
      exact .missingLeftOperand rfl
  | [_], .lenient | _ :: _ :: _, _ => cases failed

/-- An operator finds two operands, or one beside which a zero is supplied. -/
theorem outcome_operands_eq_ok_iff {text : String} {position : Int} {found : Operands α}
    : (algebra.operands mode text position stack).outcome = .ok found
      ↔ stack = found.right :: found.left :: found.below
        ∨ (mode = .lenient ∧ stack = [found.right] ∧ found.left = algebra.zero
          ∧ found.below = []) := by
  constructor
  · intro taken
    match stack, mode with
    | [], _ | [_], .strict => cases taken
    | [_], .lenient =>
        cases taken
        exact .inr ⟨rfl, rfl, rfl, rfl⟩
    | _ :: _ :: _, _ =>
        cases taken
        exact .inl rfl
  · obtain ⟨left, right, below⟩ := found
    rintro (rfl | ⟨rfl, rfl, rfl, rfl⟩) <;> rfl

/-- A token that is refused makes a step fail, in whatever algebra. -/
theorem outcome_step_of_refuses (refused : Refuses mode stack.length token failure)
    : (algebra.step mode stack token).outcome = .error failure := by
  generalize height : stack.length = results at refused
  cases refused with
  | missingArgument | missingOperands =>
      obtain rfl := List.length_eq_zero_iff.mp height
      rfl
  | missingLeftOperand strict =>
      obtain ⟨right, rfl⟩ := List.length_eq_one_iff.mp height
      subst strict
      rfl
  | opening | closing => rfl

/-- A step fails exactly if the token is refused or the algebra has no result for it.
Witness: cases on the token; an operator is refused if it finds no operands.
-/
theorem outcome_step_eq_error_iff
    : (algebra.step mode stack token).outcome = .error failure
      ↔ Refuses mode stack.length token failure ∨ algebra.Lacks mode stack token failure := by
  constructor
  · intro failed
    obtain ⟨lexeme, position⟩ := token
    cases lexeme with
    | number value => cases failed
    | function name =>
        cases stack with
        | nil =>
            cases failed
            exact .inl .missingArgument
        | cons argument below =>
            simp only [step, Traced.outcome_bind, Failure.bind_eq_error_iff] at failed
            rcases failed with called | ⟨_, _, pushed⟩
            · exact .inr (.call called)
            · cases pushed
    | operator text =>
        simp only [step, Traced.outcome_bind, Failure.bind_eq_error_iff] at failed
        rcases failed with refused | ⟨⟨left, right, below⟩, taken, combined | ⟨_, _, pushed⟩⟩
        · exact .inl (refuses_of_outcome_operands refused)
        · rcases outcome_operands_eq_ok_iff.mp taken with rfl | ⟨lenient, rfl, rfl, _⟩
          · exact .inr (.combine combined)
          · exact .inr (.supply lenient combined)
        · cases pushed
    | opening text =>
        cases failed
        exact .inl .opening
    | closing text =>
        cases failed
        exact .inl .closing
  · rintro (refused | lacking)
    · exact outcome_step_of_refuses refused
    · cases lacking with
      | call called =>
          simp only [step, Traced.outcome_bind]
          exact Failure.bind_eq_error_iff.mpr (.inl called)
      | combine combined =>
          simp only [step, Traced.outcome_bind]
          refine Failure.bind_eq_error_iff.mpr
            (.inr ⟨⟨_, _, _⟩, outcome_operands_eq_ok_iff.mpr (.inl rfl), ?_⟩)
          exact Failure.bind_eq_error_iff.mpr (.inl combined)
      | supply lenient combined =>
          simp only [step, Traced.outcome_bind]
          refine Failure.bind_eq_error_iff.mpr
            (.inr ⟨⟨_, _, _⟩, outcome_operands_eq_ok_iff.mpr (.inr ⟨lenient, rfl, rfl, rfl⟩), ?_⟩)
          exact Failure.bind_eq_error_iff.mpr (.inl combined)

/-- A token is not refused if all that is wanting is the algebra's result. -/
theorem Lacks.not_refuses (lacking : algebra.Lacks mode stack token failure) {early : Failure}
    : ¬ Refuses mode stack.length token early := by
  intro refused
  generalize height : stack.length = results at refused
  cases refused with
  | missingArgument | missingOperands =>
      obtain rfl := List.length_eq_zero_iff.mp height
      cases lacking
  | missingLeftOperand strict =>
      obtain ⟨right, rfl⟩ := List.length_eq_one_iff.mp height
      cases lacking with
      | supply lenient _ =>
          subst lenient
          cases strict
  | opening | closing => cases lacking

/-- An algebra that knows every name lacks no result. -/
theorem Total.not_lacks (total : algebra.Total) : ¬ algebra.Lacks mode stack token failure := by
  intro lacking
  cases lacking with
  | call called =>
      obtain ⟨result, known⟩ := total.call _ _
      cases known.symm.trans called
  | combine combined | supply _ combined =>
      obtain ⟨result, known⟩ := total.combine _ _ _
      cases known.symm.trans combined

/-- An algebra that knows every name takes a token that is not refused. -/
theorem Total.exists_step (total : algebra.Total)
    (free : ∀ failure, ¬ Refuses mode stack.length token failure)
    : ∃ next, (algebra.step mode stack token).outcome = .ok next := by
  cases stepped : (algebra.step mode stack token).outcome with
  | ok next => exact ⟨next, rfl⟩
  | error failure =>
      rcases outcome_step_eq_error_iff.mp stepped with refused | lacking
      · exact absurd refused (free failure)
      · exact absurd lacking total.not_lacks

-----------------------------------------------------------------------------------------
-- Whole reductions
-----------------------------------------------------------------------------------------

theorem outcome_foldlM_eq_ok_iff {final : List α}
    : (tokens.foldlM (algebra.step mode) stack).outcome = .ok final
      ↔ ∃ told, algebra.Runs mode stack tokens told final := by
  simp only [← foldlM_step_eq_ok_iff, Traced.ext_iff, exists_eq_left']

/-- A reduction fails at a token: it takes all tokens before, and not this one. -/
def FailsAt (algebra : Algebra α) (mode : Mode) (before : List Token) (token : Token)
    (failure : Failure) : Prop :=
  ∃ stack,
    (before.foldlM (algebra.step mode) []).outcome = .ok stack
    ∧ (algebra.step mode stack token).outcome = .error failure

/-- A reduction fails at a token, or else at the end with as many results as there are. -/
theorem outcome_reduce_eq_error_iff
    : (algebra.reduce mode tokens).outcome = .error failure
      ↔ (∃ before token after,
          tokens = before ++ token :: after ∧ algebra.FailsAt mode before token failure)
        ∨ ∃ stack,
            (tokens.foldlM (algebra.step mode) []).outcome = .ok stack
            ∧ finish stack = .error failure := by
  change (tokens.foldlM (algebra.step mode) [] >>= fun stack => Traced.ofExcept (finish stack)).outcome
    = _ ↔ _
  rw [Traced.outcome_bind, Failure.bind_eq_error_iff, Traced.outcome_foldlM_eq_error_iff]
  refine or_congr ?_ Iff.rfl
  constructor
  · rintro ⟨before, token, after, stack, same, taken, failed⟩
    exact ⟨before, token, after, same, stack, taken, failed⟩
  · rintro ⟨before, token, after, same, stack, taken, failed⟩
    exact ⟨before, token, after, stack, same, taken, failed⟩

theorem kind_of_finish_eq_error (failed : finish stack = .error failure)
    : failure.kind = .ofEvaluation := by
  match stack with
  | [] | _ :: _ :: _ =>
      cases failed
      rfl
  | [_] => cases failed

/-- How a reduction ends depends on how many results are left, whatever they are. -/
theorem finish_eq_error_of_length {results : List β} (level : results.length = stack.length)
    (failed : finish stack = .error failure)
    : finish results = .error failure := by
  match stack, results with
  | [], [] =>
      cases failed
      rfl
  | [_], [_] => cases failed
  | _ :: _ :: _, _ :: _ :: _ =>
      cases failed
      rfl

end Algebra

end SciCalc
