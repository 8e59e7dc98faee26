import SciCalc.Evaluation
import SciCalc.Rpn.Text

/-! Runs of a reduction: what a successful reduction did, token by token.

A run records the stacks between the tokens and the zeros that were supplied. Reductions to
doubles and to texts have the same runs, and their stacks differ only in what they hold.
-/

namespace SciCalc

variable {α β : Type}

def Lexeme.isNumber : Lexeme → Bool
  | .number _ => true
  | _ => false

def Lexeme.isOperator : Lexeme → Bool
  | .operator _ => true
  | _ => false

/-- The tokens that add a result to the stack. -/
def Token.isNumber (token : Token) : Bool :=
  token.lexeme.isNumber

/-- The tokens that take two results from the stack. -/
def Token.isOperator (token : Token) : Bool :=
  token.lexeme.isOperator

def Event.isZeroSupplied : Event → Bool
  | .zeroSupplied _ _ => true
  | _ => false

namespace Algebra

-----------------------------------------------------------------------------------------
-- One token, and a list of them
-----------------------------------------------------------------------------------------

/-- A reduction takes a token: the stack before it, what it tells, and the stack after it. -/
inductive Takes (algebra : Algebra α) (mode : Mode)
    : List α → Token → List Event → List α → Prop
  | number {stack value position}
    : algebra.Takes mode stack ⟨.number value, position⟩ [] (algebra.number value :: stack)
  | call {name position argument result below}
    (called : algebra.call name argument = .ok result)
    : algebra.Takes mode (argument :: below) ⟨.function name, position⟩ [] (result :: below)
  | combine {text position left right result below}
    (combined : algebra.combine text left right = .ok result)
    : algebra.Takes mode (right :: left :: below) ⟨.operator text, position⟩ []
        (result :: below)
  | supply {text position right result} (lenient : mode = .lenient)
    (combined : algebra.combine text algebra.zero right = .ok result)
    : algebra.Takes mode [right] ⟨.operator text, position⟩ [.zeroSupplied text position]
        [result]

/-- A reduction takes a list of tokens, one after another. -/
inductive Runs (algebra : Algebra α) (mode : Mode)
    : List α → List Token → List Event → List α → Prop
  | nil {stack} : algebra.Runs mode stack [] [] stack
  | cons {stack token told next rest later final}
    (first : algebra.Takes mode stack token told next)
    (others : algebra.Runs mode next rest later final)
    : algebra.Runs mode stack (token :: rest) (told ++ later) final

/-- A step succeeds exactly if the token is taken, by cases on the token and the stack. -/
theorem step_eq_ok_iff {algebra : Algebra α} {mode stack token told next}
    : algebra.step mode stack token = ⟨told, .ok next⟩
      ↔ algebra.Takes mode stack token told next := by
  constructor
  · intro stepped
    obtain ⟨lexeme, position⟩ := token
    cases lexeme with
    | number value =>
        cases stepped
        exact .number
    | function name =>
        cases stack with
        | nil => cases stepped
        | cons argument below =>
            obtain ⟨_, result, _, called, pushed, rfl⟩ := Traced.bind_eq_ok_iff.mp stepped
            cases pushed
            injection called with silent called
            subst silent
            exact .call called
    | operator text =>
        obtain ⟨_, found, _, taken, continued, rfl⟩ := Traced.bind_eq_ok_iff.mp stepped
        obtain ⟨_, result, _, combined, pushed, rfl⟩ := Traced.bind_eq_ok_iff.mp continued
        cases pushed
        injection combined with silent combined
        subst silent
        match stack with
        | [] => cases taken
        | [right] =>
            cases mode with
            | strict => cases taken
            | lenient =>
                cases taken
                exact .supply rfl combined
        | right :: left :: below =>
            cases taken
            exact .combine combined
    | opening text => cases stepped
    | closing text => cases stepped
  · intro taken
    cases taken with
    | number => rfl
    | call called => exact Traced.bind_eq_ok_iff.mpr ⟨[], _, [], congrArg _ called, rfl, rfl⟩
    | combine combined =>
        refine Traced.bind_eq_ok_iff.mpr ⟨[], ⟨_, _, _⟩, [], rfl, ?_, rfl⟩
        exact Traced.bind_eq_ok_iff.mpr ⟨[], _, [], congrArg _ combined, rfl, rfl⟩
    | supply lenient combined =>
        subst lenient
        refine Traced.bind_eq_ok_iff.mpr ⟨_, ⟨_, _, _⟩, [], rfl, ?_, rfl⟩
        exact Traced.bind_eq_ok_iff.mpr ⟨[], _, [], congrArg _ combined, rfl, rfl⟩

/-- Steps over a list succeed exactly if there is a run, by induction on the list. -/
theorem foldlM_step_eq_ok_iff {algebra : Algebra α} {mode stack tokens told final}
    : tokens.foldlM (algebra.step mode) stack = ⟨told, .ok final⟩
      ↔ algebra.Runs mode stack tokens told final := by
  induction tokens generalizing stack told with
  | nil =>
      constructor
      · intro done
        cases done
        exact .nil
      · rintro ⟨⟩
        rfl
  | cons token rest ih =>
      rw [List.foldlM_cons, Traced.bind_eq_ok_iff]
      constructor
      · rintro ⟨_, next, _, first, others, rfl⟩
        exact .cons (step_eq_ok_iff.mp first) (ih.mp others)
      · rintro ⟨⟩
        next first others =>
          exact ⟨_, _, _, step_eq_ok_iff.mpr first, ih.mpr others, rfl⟩

/-- A reduction succeeds exactly if a run from the empty stack leaves one result. -/
theorem reduce_eq_ok_iff {algebra : Algebra α} {mode tokens told result}
    : algebra.reduce mode tokens = ⟨told, .ok result⟩
      ↔ algebra.Runs mode [] tokens told [result] := by
  rw [← foldlM_step_eq_ok_iff]
  change (tokens.foldlM (algebra.step mode) [] >>= fun stack => Traced.ofExcept (finish stack)) = _
    ↔ _
  rw [Traced.bind_eq_ok_iff]
  constructor
  · rintro ⟨earlier, stack, later, run, finished, rfl⟩
    match stack with
    | [] => cases finished
    | [last] =>
        cases finished
        simpa using run
    | _ :: _ :: _ => cases finished
  · intro run
    exact ⟨told, _, [], run, rfl, by simp⟩

/-- An outcome is a result exactly if some run leaves it, and the run tells the events. -/
theorem outcome_reduce_eq_ok_iff {algebra : Algebra α} {mode tokens result}
    : (algebra.reduce mode tokens).outcome = .ok result
      ↔ algebra.Runs mode [] tokens (algebra.reduce mode tokens).events [result] := by
  rw [← reduce_eq_ok_iff, Traced.ext_iff]
  simp

-----------------------------------------------------------------------------------------
-- What every run does
-----------------------------------------------------------------------------------------

theorem Runs.append {algebra : Algebra α} {mode stack first told middle second later final}
    (run : algebra.Runs mode stack first told middle)
    (more : algebra.Runs mode middle second later final)
    : algebra.Runs mode stack (first ++ second) (told ++ later) final := by
  induction run with
  | nil => exact more
  | cons taken _ ih =>
      rw [List.cons_append, List.append_assoc]
      exact .cons taken (ih more)

theorem Runs.isZeroSupplied {algebra : Algebra α} {mode stack tokens told final}
    (run : algebra.Runs mode stack tokens told final)
    : ∀ event ∈ told, event.isZeroSupplied := by
  induction run with
  | nil => simp
  | cons first _ ih =>
      intro event member
      rcases List.mem_append.mp member with here | later
      · cases first <;> simp_all [Event.isZeroSupplied]
      · exact ih event later

theorem Runs.told_eq_nil {algebra : Algebra α} {stack tokens told final}
    (run : algebra.Runs .strict stack tokens told final)
    : told = [] := by
  induction run with
  | nil => rfl
  | cons first _ ih =>
      cases first with
      | supply lenient _ => cases lenient
      | _ => exact ih

/-- Above other results a strict run does what it does alone, in either mode, since it reaches
for none of them. Witness: induction on the run; no operator runs short of operands.
-/
theorem Runs.above {algebra : Algebra α} {mode stack tokens told final}
    (run : algebra.Runs .strict stack tokens told final) (floor : List α)
    : algebra.Runs mode (stack ++ floor) tokens told (final ++ floor) := by
  induction run with
  | nil => exact .nil
  | cons first _ ih =>
      cases first with
      | number => exact .cons .number ih
      | call called => exact .cons (.call called) ih
      | combine combined => exact .cons (.combine combined) ih
      | supply lenient _ => cases lenient

/-- A strict run is a run in either mode: it supplies no zero, and nothing else depends on it. -/
theorem Runs.of_strict {algebra : Algebra α} {mode stack tokens told final}
    (run : algebra.Runs .strict stack tokens told final)
    : algebra.Runs mode stack tokens told final := by
  have floored : algebra.Runs mode _ tokens told _ := run.above []
  simpa using floored

/-- The stack grows by the numbers and the zeros supplied, and shrinks by the operators.
Witness: induction on the run, with the effect of each token counted.
-/
theorem Runs.length_final {algebra : Algebra α} {mode stack tokens told final}
    (run : algebra.Runs mode stack tokens told final)
    : final.length + tokens.countP Token.isOperator
      = stack.length + tokens.countP Token.isNumber + told.length := by
  induction run with
  | nil => simp
  | cons first _ ih =>
      cases first <;>
        simp [List.countP_cons, Token.isOperator, Token.isNumber, Lexeme.isOperator,
          Lexeme.isNumber] at ih ⊢ <;>
        omega

/-- An algebra that knows every name. -/
structure Total (algebra : Algebra α) : Prop where
  call : ∀ name argument, ∃ result, algebra.call name argument = .ok result
  combine : ∀ text left right, ∃ result, algebra.combine text left right = .ok result

theorem total_written : Algebra.written.Total where
  call _ _ := ⟨_, rfl⟩
  combine _ _ _ := ⟨_, rfl⟩

/-- Where one reduction has a run, a total one has a run from any stack of the same height, and
both tell the same. Witness: induction on the run, keeping the heights equal.
-/
theorem Runs.lockstep {algebra : Algebra α} {other : Algebra β} {mode stack tokens told final}
    (total : other.Total) (run : algebra.Runs mode stack tokens told final) {start : List β}
    (level : start.length = stack.length)
    : ∃ last, other.Runs mode start tokens told last ∧ last.length = final.length := by
  induction run generalizing start with
  | nil => exact ⟨start, .nil, level⟩
  | cons first _ ih =>
      cases first with
      | number =>
          obtain ⟨last, more, same⟩ := @ih (_ :: start) (by simp [level])
          exact ⟨last, .cons .number more, same⟩
      | call _ =>
          obtain ⟨argument, below, rfl⟩ := List.exists_cons_of_length_eq_add_one level
          obtain ⟨result, called⟩ := total.call _ argument
          obtain ⟨last, more, same⟩ := @ih (result :: below) (by simpa using level)
          exact ⟨last, .cons (.call called) more, same⟩
      | combine _ =>
          obtain ⟨right, deeper, rfl⟩ := List.exists_cons_of_length_eq_add_one level
          obtain ⟨left, below, rfl⟩ :=
            List.exists_cons_of_length_eq_add_one (Nat.succ.inj level)
          obtain ⟨result, combined⟩ := total.combine _ left right
          obtain ⟨last, more, same⟩ := @ih (result :: below) (by simpa using level)
          exact ⟨last, .cons (.combine combined) more, same⟩
      | supply lenient _ =>
          obtain ⟨right, rfl⟩ := List.length_eq_one_iff.mp level
          obtain ⟨result, combined⟩ := total.combine _ other.zero right
          obtain ⟨last, more, same⟩ := @ih [result] rfl
          exact ⟨last, .cons (.supply lenient combined) more, same⟩

end Algebra

end SciCalc
