import SciCalc.Proofs.Rpn.Refusal

/-! Reductions to doubles and to texts fail in lockstep.

Both refuse the same tokens, since their stacks are of one height at every token. Only a name that
nobody knows parts them: it has no value, and is written down like any other.
-/

namespace SciCalc

variable {α β : Type}

namespace Algebra

variable {algebra : Algebra α} {other : Algebra β} {mode : Mode} {stack : List α}
variable {before tokens : List Token} {token : Token} {failure : Failure}

-----------------------------------------------------------------------------------------
-- One reduction beside another
-----------------------------------------------------------------------------------------

theorem outcome_foldlM_concat {next : List α}
    (taken : (before.foldlM (algebra.step mode) []).outcome = .ok stack)
    (stepped : (algebra.step mode stack token).outcome = .ok next)
    : ((before ++ [token]).foldlM (algebra.step mode) []).outcome = .ok next := by
  rw [List.foldlM_append, Traced.outcome_bind, taken]
  change ([token].foldlM (algebra.step mode) stack).outcome = _
  rw [List.foldlM_cons, Traced.outcome_bind, stepped]
  rfl

/-- Where a reduction takes tokens, one that knows every name takes them, and both stacks are of
one height.
-/
theorem exists_outcome_foldlM (total : other.Total)
    (taken : (tokens.foldlM (algebra.step mode) []).outcome = .ok stack)
    : ∃ results : List β,
        (tokens.foldlM (other.step mode) []).outcome = .ok results
        ∧ results.length = stack.length := by
  obtain ⟨told, run⟩ := outcome_foldlM_eq_ok_iff.mp taken
  obtain ⟨results, beside, level⟩ := run.lockstep total (rfl : ([] : List β).length = _)
  exact ⟨results, outcome_foldlM_eq_ok_iff.mpr ⟨told, beside⟩, level⟩

/-- Where a reduction has a result, one that knows every name has one too. -/
theorem exists_outcome_reduce (total : other.Total) {result : α}
    (reduced : (algebra.reduce mode tokens).outcome = .ok result)
    : ∃ beside : β, (other.reduce mode tokens).outcome = .ok beside := by
  have run := outcome_reduce_eq_ok_iff.mp reduced
  obtain ⟨results, beside, level⟩ := run.lockstep total (rfl : ([] : List β).length = _)
  obtain ⟨last, rfl⟩ := List.length_eq_one_iff.mp level
  exact ⟨last, congrArg Traced.outcome (reduce_eq_ok_iff.mpr beside)⟩

/-- Where a reduction fails at a token, one that knows every name fails for the same reason, or it
takes the token and the first one has no result for it.
Witness: the stacks are of one height, so either both refuse the token or none does.
-/
theorem FailsAt.beside (fails : algebra.FailsAt mode before token failure) (total : other.Total)
    : failure.kind = .ofSyntax ∧ other.FailsAt mode before token failure
      ∨ (∃ stack, algebra.Lacks mode stack token failure)
        ∧ ∃ results : List β,
            ((before ++ [token]).foldlM (other.step mode) []).outcome = .ok results := by
  obtain ⟨stack, taken, failed⟩ := fails
  obtain ⟨results, beside, level⟩ := exists_outcome_foldlM total taken
  rcases outcome_step_eq_error_iff.mp failed with refused | lacking
  · exact .inl ⟨refused.kind_eq, results, beside, outcome_step_of_refuses (level ▸ refused)⟩
  · obtain ⟨next, stepped⟩ := total.exists_step fun _ => level ▸ lacking.not_refuses
    exact .inr ⟨⟨stack, lacking⟩, next, outcome_foldlM_concat beside stepped⟩

-----------------------------------------------------------------------------------------
-- Names
-----------------------------------------------------------------------------------------

theorem isSome_of_value_call {name : String} {argument result : Float}
    (called : value.call name argument = .ok result)
    : (MathFunction.ofName? name).isSome := by
  simp only [value] at called
  split at called
  · next known => simp [known]
  · cases called

theorem isSome_of_value_combine {text : String} {left right result : Float}
    (combined : value.combine text left right = .ok result)
    : (Operator.ofText? text).isSome := by
  simp only [value] at combined
  split at combined
  · next known => simp [known]
  · cases combined

theorem value_call_eq_error_iff {name : String} {argument : Float}
    : value.call name argument = .error failure
      ↔ ¬ (MathFunction.ofName? name).isSome ∧ failure = .unknownName name := by
  cases known : MathFunction.ofName? name <;> simp [value, known, eq_comm]

theorem value_combine_eq_error_iff {text : String} {left right : Float}
    : value.combine text left right = .error failure
      ↔ ¬ (Operator.ofText? text).isSome ∧ failure = .unknownName text := by
  cases known : Operator.ofText? text <;> simp [value, known, eq_comm]

/-- A token has no value for one reason only: its name is in no table. -/
theorem not_isKnown_of_lacks {values : List Float} (lacking : value.Lacks mode values token failure)
    : failure = .unknownName token.lexeme.text ∧ ¬ token.lexeme.IsKnown := by
  cases lacking with
  | call called => exact (value_call_eq_error_iff.mp called).symm
  | combine combined | supply _ combined => exact (value_combine_eq_error_iff.mp combined).symm

/-- The tokens that a reduction to doubles takes have known names, by induction on the run. -/
theorem Runs.isKnown {values told final} (run : value.Runs mode values tokens told final)
    : ∀ token ∈ tokens, token.lexeme.IsKnown := by
  induction run with
  | nil => simp
  | cons first _ ih =>
      refine List.forall_mem_cons.mpr ⟨?_, ih⟩
      cases first with
      | number => trivial
      | call called => exact isSome_of_value_call called
      | combine combined | supply _ combined => exact isSome_of_value_combine combined

end Algebra

-----------------------------------------------------------------------------------------
-- Values and texts
-----------------------------------------------------------------------------------------

variable {mode : Mode} {rpn : List Token} {failure : Failure}

/-- A reduction to doubles meets a name that nobody knows, at a token that a reduction to texts
takes like those before it.
-/
structure MeetsUnknown (mode : Mode) (before : List Token) (token : Token) (failure : Failure)
    : Prop where
  fails : Algebra.value.FailsAt mode before token failure
  names : failure = .unknownName token.lexeme.text
  unknown : ¬ token.lexeme.IsKnown
  first : ∀ earlier ∈ before, earlier.lexeme.IsKnown
  written
    : ∃ texts, ((before ++ [token]).foldlM (Algebra.written.step mode) []).outcome = .ok texts

/-- If a sequence has no value it has no text for the same reason, or an unknown name is met.
Witness: where one reduction fails the other fails beside it, or the algebra of doubles is lacking.
-/
theorem infixText_beside_rpnValue (failed : (rpnValue mode rpn).outcome = .error failure)
    : (failure.kind ≠ .ofLookup ∧ (infixText mode rpn).outcome = .error failure)
      ∨ ∃ before token after,
          rpn = before ++ token :: after ∧ MeetsUnknown mode before token failure := by
  rcases Algebra.outcome_reduce_eq_error_iff.mp failed with
    ⟨before, token, after, rfl, fails⟩ | ⟨stack, taken, finished⟩
  · rcases fails.beside Algebra.total_written with ⟨kind, beside⟩ | ⟨⟨stack, lacking⟩, written⟩
    · refine .inl ⟨by simp [kind], ?_⟩
      exact Algebra.outcome_reduce_eq_error_iff.mpr (.inl ⟨before, token, after, rfl, beside⟩)
    · obtain ⟨names, unknown⟩ := Algebra.not_isKnown_of_lacks lacking
      obtain ⟨_, taken, _⟩ := id fails
      obtain ⟨told, run⟩ := Algebra.outcome_foldlM_eq_ok_iff.mp taken
      exact .inr ⟨before, token, after, rfl, fails, names, unknown, run.isKnown, written⟩
  · obtain ⟨texts, beside, level⟩ := Algebra.exists_outcome_foldlM Algebra.total_written taken
    refine .inl ⟨by simp [Algebra.kind_of_finish_eq_error finished], ?_⟩
    exact Algebra.outcome_reduce_eq_error_iff.mpr
      (.inr ⟨texts, beside, Algebra.finish_eq_error_of_length level finished⟩)

/-- Values and infix texts of a sequence, whatever it is made of, are there together and fail
together. A failure of the value is the text's failure too, unless it is an unknown name: that is
the first one of the sequence, and nothing up to there keeps the text from being written. Where all
names are known, a sequence with a text has a value.
Witness: all tokens are taken or refused by both, and only a name can be lacking.
-/
theorem infixText_lockstep (mode : Mode) (rpn : List Token)
    : let value := (rpnValue mode rpn).outcome
      let text := (infixText mode rpn).outcome
      ((∃ number, value = .ok number) → ∃ written, text = .ok written)
      ∧ (∀ failure, value = .error failure → failure.kind ≠ .ofLookup → text = .error failure)
      ∧ (∀ failure,
          value = .error failure
          → failure.kind = .ofLookup
          → ∃ before token after,
              rpn = before ++ token :: after ∧ MeetsUnknown mode before token failure)
      ∧ ((∀ token ∈ rpn, token.lexeme.IsKnown)
          → (∃ written, text = .ok written)
          → ∃ number, value = .ok number) := by
  intro value text
  refine ⟨?_, fun failure failed kind => ?_, fun failure failed kind => ?_, fun known written => ?_⟩
  · rintro ⟨number, evaluated⟩
    exact Algebra.exists_outcome_reduce Algebra.total_written evaluated
  · rcases infixText_beside_rpnValue failed with ⟨_, beside⟩ | ⟨before, token, after, rfl, met⟩
    · exact beside
    · rw [met.names] at kind
      exact absurd rfl kind
  · rcases infixText_beside_rpnValue failed with ⟨other, _⟩ | met
    · exact absurd kind other
    · exact met
  · cases evaluated : value with
    | ok number => exact ⟨number, rfl⟩
    | error failure =>
        obtain ⟨result, wrote⟩ := written
        rcases infixText_beside_rpnValue evaluated with ⟨_, beside⟩ | ⟨_, token, _, rfl, met⟩
        · cases beside.symm.trans wrote
        · exact absurd (known token (by simp)) met.unknown

/-- An unknown operator has no value, and is written down. -/
example
    : let rpn : List Token := [⟨.number 2.0, 0⟩, ⟨.number 3.0, 1⟩, ⟨.operator "%", 2⟩]
      (rpnValue .strict rpn).outcome = .error (.unknownName "%")
      ∧ (infixText .strict rpn).outcome = .ok "(2%3)" :=
  ⟨rfl, by decide +kernel⟩

end SciCalc
