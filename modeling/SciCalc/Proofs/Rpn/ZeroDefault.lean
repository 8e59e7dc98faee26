import SciCalc.Proofs.Rpn.Runs
import SciCalc.Rpn.Conversion

/-! The meaning of the zero default: as many zeros written in front.

A lenient reduction that supplies zeros does what a strict one does on the same sequence after
as many zeros. They wait at the bottom of the stack until the lenient stack runs short.
-/

namespace SciCalc

variable {α : Type}

/-- The tokens of a list are zeros, wherever they stand. -/
def AllZero (tokens : List Token) : Prop :=
  ∀ token ∈ tokens, token.lexeme = .number 0.0

theorem AllZero.counts {zeros : List Token} (allZero : AllZero zeros)
    : zeros.countP Token.isNumber = zeros.length ∧ zeros.countP Token.isOperator = 0 := by
  constructor
  · apply List.countP_eq_length.mpr
    intro token member
    simp [Token.isNumber, Lexeme.isNumber, allZero token member]
  · apply List.countP_eq_zero.mpr
    intro token member
    simp [Token.isOperator, Lexeme.isOperator, allZero token member]

-----------------------------------------------------------------------------------------
-- Reduction
-----------------------------------------------------------------------------------------

namespace Algebra

theorem runs_zeros {algebra : Algebra α} {mode zeros} (allZero : AllZero zeros)
    (stack : List α)
    : algebra.Runs mode stack zeros []
        (List.replicate zeros.length (algebra.number 0.0) ++ stack) := by
  induction zeros generalizing stack with
  | nil => exact .nil
  | cons token rest ih =>
      obtain ⟨lexeme, position⟩ := token
      have zero : lexeme = .number 0.0 := allZero ⟨lexeme, position⟩ (by simp)
      subst zero
      have others := ih (fun token member => allZero token (by simp [member]))
        (algebra.number 0.0 :: stack)
      rw [List.length_cons, List.replicate_succ', List.append_assoc, List.singleton_append]
      exact .cons .number others

/-- The zeros that a run supplies can lie ready below its stack, and more of them are left
untouched. Witness: induction on the run; only an operator that finds a single result reaches
the zeros, and it takes one.
-/
theorem Runs.strict_of_ready {algebra : Algebra α} {mode stack tokens told final}
    (written : algebra.number 0.0 = algebra.zero)
    (run : algebra.Runs mode stack tokens told final) (spare : Nat)
    : algebra.Runs .strict
        (stack ++ List.replicate (told.length + spare) (algebra.number 0.0)) tokens []
        (final ++ List.replicate spare (algebra.number 0.0)) := by
  induction run with
  | nil => simpa using .nil
  | cons first _ ih =>
      cases first with
      | number => exact .cons .number ih
      | call called => exact .cons (.call called) ih
      | combine combined => exact .cons (.combine combined) ih
      | supply _ combined =>
          rw [List.length_append, List.length_singleton, Nat.add_assoc, Nat.add_comm 1,
            List.replicate_succ]
          exact .cons (.combine (written ▸ combined)) ih

/-- A reduction that supplies zeros is a strict one after as many zeros.
Witness: the zeros pile up first, and the run finds them ready.
-/
theorem Runs.strict_after_zeros {algebra : Algebra α} {mode tokens told final zeros}
    (written : algebra.number 0.0 = algebra.zero) (allZero : AllZero zeros)
    (run : algebra.Runs mode [] tokens told final) (enough : zeros.length = told.length)
    : algebra.Runs .strict [] (zeros ++ tokens) [] final := by
  have ready := run.strict_of_ready written 0
  rw [Nat.add_zero, List.nil_append, List.replicate_zero, List.append_nil] at ready
  have piled : algebra.Runs .strict [] zeros []
      (List.replicate zeros.length (algebra.number 0.0) ++ []) :=
    runs_zeros allZero []
  rw [List.append_nil, enough] at piled
  exact piled.append ready

/-- The number of zeros that make a strict reduction succeed is determined by the sequence.
Witness: the stack holds one result at the end and none at the start.
-/
theorem Runs.length_zeros {algebra : Algebra α} {tokens zeros result}
    (allZero : AllZero zeros)
    (run : algebra.Runs .strict [] (zeros ++ tokens) [] [result])
    : zeros.length + tokens.countP Token.isNumber
      = 1 + tokens.countP Token.isOperator := by
  have counted := run.length_final
  simp only [List.countP_append, allZero.counts, List.length_singleton, List.length_nil]
    at counted
  omega

end Algebra

-----------------------------------------------------------------------------------------
-- Conversion
-----------------------------------------------------------------------------------------

namespace Conversion

/-- A state with more tokens gone out before all others. -/
def after (earlier : List Token) (state : Conversion) : Conversion :=
  { state with output := state.output ++ earlier.reverse }

/-- What has gone out has no influence on a step, by cases on the token. -/
theorem step_after (earlier : List Token) (state : Conversion) (token : Token)
    : (state.after earlier).step token = (state.step token).map (after earlier) := by
  obtain ⟨output, pending⟩ := state
  obtain ⟨lexeme, position⟩ := token
  cases lexeme with
  | number _ | function _ | opening _ => rfl
  | closing _ =>
      simp only [step, closeGroup, releaseWhile, after]
      cases pending.dropWhile fun token => !token.lexeme.isOpening with
      | nil => rfl
      | cons _ below =>
          cases below with
          | nil => simp [releaseFunction, Except.map, after]
          | cons top _ =>
              cases function : top.lexeme.isFunction <;>
                simp [releaseFunction, Except.map, after, function]
  | operator text =>
      cases known : Operator.ofText? text <;>
        simp [step, known, releaseWhile, hold, Except.map, after]

theorem foldlM_step_after (earlier tokens : List Token) (state : Conversion)
    : tokens.foldlM step (state.after earlier)
      = (tokens.foldlM step state).map (after earlier) := by
  induction tokens generalizing state with
  | nil => rfl
  | cons token rest ih =>
      simp only [List.foldlM_cons, step_after]
      cases state.step token with
      | error failure => rfl
      | ok next => exact ih next

theorem foldlM_step_zeros {zeros : List Token} (allZero : AllZero zeros) (state : Conversion)
    : zeros.foldlM step state
      = .ok { state with output := zeros.reverse ++ state.output } := by
  induction zeros generalizing state with
  | nil => rfl
  | cons token rest ih =>
      have first : state.step token = .ok (state.emit token) := by
        simp [step, allZero token (by simp)]
      rw [List.foldlM_cons, first]
      have others := ih (fun token member => allZero token (by simp [member]))
        (state.emit token)
      simpa [emit, bind, Except.bind] using others

end Conversion

/-- Zeros in front of an infix sequence stay in front of its conversion.
Witness: they go out before anything waits, and have no influence on what follows.
-/
theorem convert_after_zeros {zeros tokens converted : List Token} (allZero : AllZero zeros)
    (succeeds : convert tokens = .ok converted)
    : convert (zeros ++ tokens) = .ok (zeros ++ converted) := by
  have piled : zeros.foldlM Conversion.step .start = .ok (Conversion.start.after zeros) := by
    simpa [Conversion.start, Conversion.after]
      using Conversion.foldlM_step_zeros allZero Conversion.start
  simp only [convert, List.foldlM_append, piled] at succeeds ⊢
  change tokens.foldlM Conversion.step (Conversion.start.after zeros) >>= _ = _
  rw [Conversion.foldlM_step_after]
  cases run : tokens.foldlM Conversion.step .start with
  | error failure => simp [run, bind, Except.bind] at succeeds
  | ok state =>
      have finished : state.finish = .ok converted := by
        simpa [run, bind, Except.bind] using succeeds
      simp only [Except.map, bind, Except.bind, Conversion.finish, Conversion.after] at finished ⊢
      cases unclosed : state.pending.find? (·.lexeme.isOpening) with
      | some token => simp [unclosed] at finished
      | none =>
          simp only [unclosed, Except.ok.injEq] at finished ⊢
          simp [← finished]

-----------------------------------------------------------------------------------------
-- The value of a sequence
-----------------------------------------------------------------------------------------

/-- A lenient evaluation supplies one zero for each number that is missing beside the
operators. Its value is the strict one of the same sequence after as many zeros, and no other
count of zeros has a strict value. In infix order the zeros stand in front just as well.
-/
theorem rpnValue_lenient_iff_zeros (rpn : List Token) (value : Float)
    (evaluated : (rpnValue .lenient rpn).outcome = .ok value)
    : ∃ k : Nat,
        (k : Int) = rpn.countP Token.isOperator + 1 - rpn.countP Token.isNumber
        ∧ (rpnValue .lenient rpn).events.countP Event.isZeroSupplied = k
        ∧ (∀ zeros other,
            AllZero zeros
            → ((rpnValue .strict (zeros ++ rpn)).outcome = .ok other
              ↔ zeros.length = k ∧ other = value))
        ∧ ∀ zeros tokens converted,
            AllZero zeros
            → convert tokens = .ok converted
            → convert (zeros ++ tokens) = .ok (zeros ++ converted) := by
  have run := Algebra.outcome_reduce_eq_ok_iff.mp evaluated
  have counted := run.length_final
  simp only [List.length_singleton, List.length_nil] at counted
  refine ⟨(rpnValue .lenient rpn).events.length, ?_, ?_, ?_, ?_⟩
  · change ((Algebra.value.reduce .lenient rpn).events.length : Int) = _
    omega
  · exact List.countP_eq_length.mpr run.isZeroSupplied
  · intro zeros other allZero
    have strict (enough : zeros.length = (rpnValue .lenient rpn).events.length)
        : rpnValue .strict (zeros ++ rpn) = ⟨[], .ok value⟩ :=
      Algebra.reduce_eq_ok_iff.mpr (run.strict_after_zeros rfl allZero enough)
    constructor
    · intro succeeds
      have strictRun := Algebra.outcome_reduce_eq_ok_iff.mp succeeds
      rw [strictRun.told_eq_nil] at strictRun
      have enough : zeros.length = (rpnValue .lenient rpn).events.length := by
        have determined := strictRun.length_zeros allZero
        change zeros.length = (Algebra.value.reduce .lenient rpn).events.length
        omega
      rw [strict enough] at succeeds
      exact ⟨enough, (Except.ok.inj succeeds).symm⟩
    · rintro ⟨enough, rfl⟩
      rw [strict enough]
  · intro zeros tokens converted allZero succeeds
    exact convert_after_zeros allZero succeeds

/-- The sequence of `2*-3`: the zero goes to the product, and the difference finds both its
operands. One zero in front says the same.
-/
theorem rpnValue_lenient_iff_zeros_of_product
    : let rpn : List Token :=
        [⟨.number 2.0, 0⟩, ⟨.operator "*", 1⟩, ⟨.number 3.0, 3⟩, ⟨.operator "-", 2⟩]
      (rpnValue .lenient rpn).outcome = .ok (-3.0)
      ∧ ∃ k : Nat,
          (k : Int) = rpn.countP Token.isOperator + 1 - rpn.countP Token.isNumber
          ∧ (rpnValue .lenient rpn).events.countP Event.isZeroSupplied = k
          ∧ (∀ zeros other,
              AllZero zeros
              → ((rpnValue .strict (zeros ++ rpn)).outcome = .ok other
                ↔ zeros.length = k ∧ other = -3.0))
          ∧ ∀ zeros tokens converted,
              AllZero zeros
              → convert tokens = .ok converted
              → convert (zeros ++ tokens) = .ok (zeros ++ converted) :=
  ⟨rfl, rpnValue_lenient_iff_zeros _ _ rfl⟩

end SciCalc
