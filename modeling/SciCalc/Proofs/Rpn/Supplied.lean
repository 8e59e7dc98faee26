import Mathlib.Data.List.Induction
import SciCalc.Proofs.Enumeration
import SciCalc.Proofs.Rpn.Refusal

/-! Which operators a zero is supplied for, and what is told of them.

A zero is supplied for an operator that finds a single result on the stack. It is told of at once,
so the zeros are told of in the order of their operators, up to a token at which the reduction
fails.
-/

namespace SciCalc

variable {α β : Type}

/-- If what follows tells of nothing, all events are those of the first computation. -/
theorem Traced.events_bind_of_silent {second : α → Traced β}
    (silent : ∀ a, (second a).events = []) (first : Traced α)
    : (first >>= second).events = first.events := by
  cases outcome : first.outcome with
  | error failure => rw [events_bind_of_error _ outcome]
  | ok a => rw [events_bind_of_ok _ outcome, silent, List.append_nil]

namespace Algebra

variable {algebra : Algebra α} {tokens before after : List Token} {token last culprit : Token}
variable {index : Nat} {failure : Failure}

-----------------------------------------------------------------------------------------
-- One token
-----------------------------------------------------------------------------------------

/-- A step tells of what an operator does to find its operands, and of nothing else. -/
theorem events_step (algebra : Algebra α) (mode : Mode) (stack : List α) (token : Token)
    : (algebra.step mode stack token).events
      = if token.isOperator
        then (algebra.operands mode token.lexeme.text token.position stack).events
        else [] := by
  obtain ⟨lexeme, position⟩ := token
  cases lexeme with
  | number | opening | closing => rfl
  | function name =>
      cases stack with
      | nil => rfl
      | cons argument below => exact Traced.events_bind_of_silent (fun _ => rfl) _
  | operator text =>
      refine Traced.events_bind_of_silent (fun found => ?_) _
      exact Traced.events_bind_of_silent (fun _ => rfl) _

theorem events_step_strict (stack : List α) (token : Token)
    : (algebra.step .strict stack token).events = [] := by
  rw [events_step]
  match stack with
  | [] | [_] | _ :: _ :: _ => exact ite_self _

theorem events_step_lenient (stack : List α) (token : Token)
    : (algebra.step .lenient stack token).events
      = if token.isOperator ∧ stack.length = 1
        then [.zeroSupplied token.lexeme.text token.position]
        else [] := by
  rw [events_step, ite_and]
  match stack with
  | [] | [_] => rfl
  | _ :: _ :: rest => simp [operands]

-----------------------------------------------------------------------------------------
-- Whole reductions
-----------------------------------------------------------------------------------------

theorem events_reduce (algebra : Algebra α) (mode : Mode) (tokens : List Token)
    : (algebra.reduce mode tokens).events = (tokens.foldlM (algebra.step mode) []).events :=
  Traced.events_bind_of_silent (fun _ => rfl) _

/-- A strict reduction tells of nothing, whatever its outcome, by induction on the list. -/
theorem events_foldlM_strict (stack : List α)
    : (tokens.foldlM (algebra.step .strict) stack).events = [] := by
  induction tokens generalizing stack with
  | nil => rfl
  | cons token rest ih =>
      rw [List.foldlM_cons, Traced.events_bind_of_silent ih, events_step_strict]

/-- An operator of a sequence misses its left operand: a lenient reduction takes all tokens before
the operator, and leaves it a single result.
-/
structure MissesLeft (algebra : Algebra α) (tokens : List Token) (token : Token) (index : Nat)
    : Prop where
  stands : tokens[index]? = some token
  operates : token.isOperator
  single
    : ∃ right, ((tokens.take index).foldlM (algebra.step .lenient) []).outcome = .ok [right]

theorem MissesLeft.index_lt (misses : algebra.MissesLeft tokens token index)
    : index < tokens.length :=
  (List.getElem?_eq_some_iff.mp misses.stands).1

/-- No operator misses its left operand from a token on at which the reduction fails.
Witness: behind that token nothing is taken, and the token itself would not be refused.
-/
theorem MissesLeft.lt_of_failsAt
    (misses : algebra.MissesLeft (before ++ culprit :: after) token index)
    (fails : algebra.FailsAt .lenient before culprit failure)
    (complete : ∀ stack, ¬ algebra.Lacks .lenient stack culprit failure)
    : index < before.length := by
  obtain ⟨stands, operates, right, taken⟩ := misses
  obtain ⟨stack, run, failed⟩ := fails
  rcases Nat.lt_trichotomy index before.length with inside | rfl | behind
  · exact inside
  · rw [List.getElem?_append_right (Nat.le_refl _), Nat.sub_self, List.getElem?_cons_zero,
      Option.some.injEq] at stands
    rw [List.take_left, run, Except.ok.injEq] at taken
    subst stands taken
    rcases outcome_step_eq_error_iff.mp failed with refused | lacking
    · cases refused with
      | missingLeftOperand strict => cases strict
      | opening | closing => cases operates
    · exact absurd lacking (complete _)
  · obtain ⟨further, rfl⟩ := Nat.exists_eq_add_of_lt behind
    rw [Nat.add_assoc, List.take_length_add_append, List.take_succ_cons] at taken
    have stopped := Traced.outcome_foldlM_eq_error_iff.mpr
      ⟨before, culprit, after.take further, stack, rfl, run, failed⟩
    cases stopped.symm.trans taken

/-- What follows an operator has no part in whether it misses its left operand. -/
theorem missesLeft_concat_iff
    : algebra.MissesLeft (tokens ++ [last]) token index
      ↔ algebra.MissesLeft tokens token index
        ∨ (token = last ∧ index = tokens.length)
          ∧ last.isOperator
          ∧ ∃ right, (tokens.foldlM (algebra.step .lenient) []).outcome = .ok [right] := by
  constructor
  · intro misses
    have within := misses.index_lt
    obtain ⟨stands, operates, single⟩ := misses
    rw [List.length_append, List.length_singleton] at within
    rw [List.take_append_of_le_length (by omega)] at single
    rcases Nat.eq_or_lt_of_le (Nat.le_of_lt_succ within) with rfl | inside
    · rw [List.getElem?_concat_length, Option.some.injEq] at stands
      subst stands
      rw [List.take_length] at single
      exact .inr ⟨⟨rfl, rfl⟩, operates, single⟩
    · rw [List.getElem?_append_left inside] at stands
      exact .inl ⟨stands, operates, single⟩
  · rintro (misses | ⟨⟨rfl, rfl⟩, operates, single⟩)
    · have inside := misses.index_lt
      obtain ⟨stands, operates, single⟩ := misses
      refine ⟨?_, operates, ?_⟩
      · rwa [List.getElem?_append_left inside]
      · rwa [List.take_append_of_le_length (Nat.le_of_lt inside)]
    · refine ⟨List.getElem?_concat_length, operates, ?_⟩
      rwa [List.take_left]

/-- A lenient reduction tells of a zero for each operator that misses its left operand, in the order
of the operators, and of nothing else.
Witness: induction from the end; the last token is reached if all before it are taken.
-/
theorem exists_missesLeft (algebra : Algebra α) (tokens : List Token)
    : ∃ zeros,
        (tokens.foldlM (algebra.step .lenient) []).events
          = zeros.map (fun (token, _) => .zeroSupplied token.lexeme.text token.position)
        ∧ Enumerates zeros (algebra.MissesLeft tokens) := by
  induction tokens using List.reverseRecOn with
  | nil => exact ⟨[], rfl, .nil fun token index misses => by cases misses.stands⟩
  | append_singleton rest last ih =>
      obtain ⟨zeros, told, enumerates⟩ := ih
      rw [List.foldlM_append]
      simp only [List.foldlM_cons, List.foldlM_nil, bind_pure]
      by_cases reached : last.isOperator
          ∧ ∃ right, (rest.foldlM (algebra.step .lenient) []).outcome = .ok [right]
      · obtain ⟨right, taken⟩ := reached.2
        refine ⟨zeros ++ [(last, rest.length)], ?_, ?_⟩
        · rw [Traced.events_bind_of_ok _ taken, told, events_step_lenient,
            if_pos ⟨reached.1, rfl⟩, List.map_append, List.map_singleton]
        · refine enumerates.concat (fun _ _ misses => misses.index_lt) fun token index => ?_
          rw [missesLeft_concat_iff, and_iff_left reached]
      · refine ⟨zeros, ?_, ?_⟩
        · rw [← told]
          cases taken : (rest.foldlM (algebra.step .lenient) []).outcome with
          | error failure => exact Traced.events_bind_of_error _ taken
          | ok stack =>
              rw [Traced.events_bind_of_ok _ taken, events_step_lenient, if_neg, List.append_nil]
              rintro ⟨operates, single⟩
              obtain ⟨right, rfl⟩ := List.length_eq_one_iff.mp single
              exact reached ⟨operates, right, taken⟩
        · have same : algebra.MissesLeft (rest ++ [last]) = algebra.MissesLeft rest := by
            funext token index
            exact propext (missesLeft_concat_iff.trans (or_iff_left fun here => reached here.2))
          exact same ▸ enumerates

/-- A reduction with a result has told of one event for each number that is missing beside the
operators. Witness: one result is left, and each operator takes one away.
-/
theorem length_events_reduce {mode : Mode} {result : α}
    (reduced : (algebra.reduce mode tokens).outcome = .ok result)
    : ((algebra.reduce mode tokens).events.length : Int)
      = tokens.countP Token.isOperator + 1 - tokens.countP Token.isNumber := by
  have counted := (outcome_reduce_eq_ok_iff.mp reduced).length_final
  simp only [List.length_singleton, List.length_nil] at counted
  omega

end Algebra

end SciCalc
