import SciCalc.Proofs.Infix.Outcome
import SciCalc.Proofs.Rpn.Lockstep
import SciCalc.Proofs.Stream.Course
import SciCalc.Pull

/-! Tokens that a consumer refuses.

A consumer fails by itself only at a token that does not fit those before it. Conversion refuses a
stray closing parenthesis, and reduction a parenthesis and a token that lacks its operands. The
consumers that merely keep the tokens refuse none.
-/

namespace SciCalc

-----------------------------------------------------------------------------------------
-- Consumers, and what is made of their results
-----------------------------------------------------------------------------------------

/-- A consumer, and what is made of its result. -/
structure Work where
  State : Type
  Result : Type
  consumer : Consumer State Result
  make : Result → Except Failure Pulled

/-- The work that draws until it comes to an end by itself, or the stream does. -/
def Pull.work? (mode : Mode) : Pull → Option Work
  | .next => none
  | .rest => some ⟨_, _, Consumer.collect, fun tokens => .ok (.tokens tokens)⟩
  | .rpn => some ⟨_, _, Conversion.consumer, fun tokens => .ok (.tokens tokens)⟩
  | .value =>
      some ⟨_, _, Conversion.consumer, fun rpn => (.value <$> SciCalc.rpnValue mode rpn).outcome⟩
  | .rpnValue => some ⟨_, _, Algebra.value.consumer mode, fun value => .ok (.value value)⟩
  | .infixText => some ⟨_, _, Algebra.written.consumer mode, fun text => .ok (.text text)⟩
  | .words => some ⟨_, _, Consumer.collect, fun tokens => .ok (.text (rpnText tokens))⟩

variable {mode : Mode} {pull : Pull} {work : Work} {stream : TokenStream}

theorem Pull.draw_of_work? (working : pull.work? mode = some work) (stream : TokenStream)
    : (pull.draw mode stream).result.outcome
        = (work.consumer.draw stream).result.outcome >>= work.make
      ∧ (pull.draw mode stream).rest = (work.consumer.draw stream).rest := by
  cases pull with
  | next => cases working
  | _ =>
      cases working
      exact ⟨Traced.outcome_bind _ _, rfl⟩

theorem Pull.work?_eq_none_iff : pull.work? mode = none ↔ pull = .next := by
  cases pull <;> simp [work?]

-----------------------------------------------------------------------------------------
-- Tokens at which a consumer fails
-----------------------------------------------------------------------------------------

/-- A consumer refuses a token behind others. Conversion refuses a closing parenthesis behind pairs,
and reduction refuses a parenthesis and whatever lacks its operands.
-/
inductive Pull.RefusesAt (mode : Mode) : Pull → List Token → Token → Failure → Prop
  | stray {pull before token} (converts : pull = .rpn ∨ pull = .value) (paired : Paired before)
    (closes : token.lexeme.isClosing)
    : Pull.RefusesAt mode pull before token (.unmatchedParenthesis token.position)
  | value {before values token failure}
    (run : (before.foldlM (Algebra.value.step mode) []).outcome = .ok values)
    (refused : Algebra.Refuses mode values.length token failure)
    : Pull.RefusesAt mode .rpnValue before token failure
  | text {before texts token failure}
    (run : (before.foldlM (Algebra.written.step mode) []).outcome = .ok texts)
    (refused : Algebra.Refuses mode texts.length token failure)
    : Pull.RefusesAt mode .infixText before token failure

variable {before : List Token} {token : Token} {failure : Failure}

theorem Consumer.not_failsAt_collect {kept : List Token}
    : ¬ Consumer.collect.FailsAt kept before token failure := by
  rintro ⟨_, _, failed⟩
  cases failed

/-- A token that is stray behind others is a closing parenthesis behind pairs. -/
theorem NoStray.paired_of_not_concat (noStray : NoStray before)
    (stray : ¬ NoStray (before ++ [token]))
    : Paired before ∧ token.lexeme.isClosing := by
  have more : openings (before ++ [token]) < closings (before ++ [token]) := by
    by_contra fewer
    exact stray (NoStray.concat_iff.mpr ⟨noStray, Nat.le_of_not_lt fewer⟩)
  have balance := noStray before (List.prefix_refl before)
  simp only [openings_append, closings_append, openings_cons, closings_cons, openings_nil,
    closings_nil] at more
  have closes : token.lexeme.isClosing := by
    by_contra other
    simp [other] at more
    omega
  simp [closes, Lexeme.isOpening_of_isClosing closes] at more
  exact ⟨⟨noStray, by omega⟩, closes⟩

theorem Paired.firstStray_concat (paired : Paired before) (closes : token.lexeme.isClosing)
    : FirstStray (before ++ [token]) token := by
  refine ⟨before, [], rfl, closes, ?_, paired.noStray⟩
  simp [closes, Lexeme.isOpening_of_isClosing closes, paired.even]

/-- Tokens that conversion takes hold no stray parenthesis. -/
theorem Conversion.noStray_of_foldlM {state : Conversion}
    (known : ∀ other ∈ before, other.lexeme.IsKnown)
    (run : before.foldlM step .start = .ok state)
    : NoStray before := by
  apply NoStray.of_not_firstStray
  rintro ⟨culprit, stray⟩
  cases run.symm.trans (foldlM_step_of_firstStray known stray)

/-- Conversion fails at a token exactly if that is a closing parenthesis behind pairs.
Witness: before the first stray parenthesis all tokens are taken, and no other token is refused.
-/
theorem Conversion.failsAt_iff (known : ∀ other ∈ before ++ [token], other.lexeme.IsKnown)
    : consumer.FailsAt consumer.start before token failure
      ↔ Paired before ∧ token.lexeme.isClosing
        ∧ failure = .unmatchedParenthesis token.position := by
  have knownBefore : ∀ other ∈ before, other.lexeme.IsKnown :=
    fun other member => known other (List.mem_append_left _ member)
  have whole {middle : Conversion} (run : before.foldlM step .start = .ok middle)
      : (before ++ [token]).foldlM step .start = middle.step token := by
    rw [List.foldlM_append, run]
    change [token].foldlM step middle = middle.step token
    rw [List.foldlM_cons]
    cases middle.step token <;> rfl
  simp only [Consumer.FailsAt, consumer, Traced.foldlM_ofExcept]
  constructor
  · rintro ⟨middle, run, failed⟩
    change before.foldlM step .start = .ok middle at run
    change middle.step token = .error failure at failed
    have stray : ¬ NoStray (before ++ [token]) := by
      intro none
      obtain ⟨state, taken, _⟩ := exists_foldlM_openGroups known none
      cases taken.symm.trans ((whole run).trans failed)
    obtain ⟨paired, closes⟩ := (noStray_of_foldlM knownBefore run).paired_of_not_concat stray
    have stopped := foldlM_step_of_firstStray known (paired.firstStray_concat closes)
    exact ⟨paired, closes, Except.error.inj ((whole run).trans failed |>.symm.trans stopped)⟩
  · rintro ⟨paired, closes, rfl⟩
    obtain ⟨state, run, _⟩ := exists_foldlM_openGroups knownBefore paired.noStray
    have stopped := foldlM_step_of_firstStray known (paired.firstStray_concat closes)
    exact ⟨state, run, (whole run).symm.trans stopped⟩

/-- Reduction fails at a token whose name it knows exactly if it refuses the token. -/
theorem Algebra.failsAt_iff {α : Type} {algebra : Algebra α}
    (complete : ∀ stack, ¬ algebra.Lacks mode stack token failure)
    : (algebra.consumer mode).FailsAt [] before token failure
      ↔ ∃ stack,
          (before.foldlM (algebra.step mode) []).outcome = .ok stack
          ∧ Refuses mode stack.length token failure := by
  refine exists_congr fun stack => and_congr_right fun _ => ?_
  exact outcome_step_eq_error_iff.trans (or_iff_left (complete stack))

/-- Refused are exactly the tokens at which the work fails, if all names are known. -/
theorem Pull.refusesAt_iff (known : ∀ other ∈ before ++ [token], other.lexeme.IsKnown)
    : pull.RefusesAt mode before token failure
      ↔ ∃ work,
          pull.work? mode = some work
          ∧ work.consumer.FailsAt work.consumer.start before token failure := by
  have valued : ∀ values, ¬ Algebra.value.Lacks mode values token failure :=
    fun _ lacking => (Algebra.not_isKnown_of_lacks lacking).2 (known token (by simp))
  have written : ∀ texts, ¬ Algebra.written.Lacks mode texts token failure :=
    fun _ => Algebra.total_written.not_lacks
  constructor
  · intro refused
    cases refused with
    | stray converts paired closes =>
        have fails := (Conversion.failsAt_iff known).mpr ⟨paired, closes, rfl⟩
        rcases converts with rfl | rfl
        · exact ⟨_, rfl, fails⟩
        · exact ⟨_, rfl, fails⟩
    | value run refused => exact ⟨_, rfl, (Algebra.failsAt_iff valued).mpr ⟨_, run, refused⟩⟩
    | text run refused => exact ⟨_, rfl, (Algebra.failsAt_iff written).mpr ⟨_, run, refused⟩⟩
  · rintro ⟨work, working, fails⟩
    cases pull with
    | next => cases working
    | rest | words =>
        cases working
        exact absurd fails Consumer.not_failsAt_collect
    | rpn =>
        cases working
        obtain ⟨paired, closes, rfl⟩ := (Conversion.failsAt_iff known).mp fails
        exact .stray (.inl rfl) paired closes
    | value =>
        cases working
        obtain ⟨paired, closes, rfl⟩ := (Conversion.failsAt_iff known).mp fails
        exact .stray (.inr rfl) paired closes
    | rpnValue =>
        cases working
        obtain ⟨values, run, refused⟩ := (Algebra.failsAt_iff valued).mp fails
        exact .value run refused
    | infixText =>
        cases working
        obtain ⟨texts, run, refused⟩ := (Algebra.failsAt_iff written).mp fails
        exact .text run refused

end SciCalc
