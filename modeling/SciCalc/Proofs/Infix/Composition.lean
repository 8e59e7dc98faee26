import SciCalc.Proofs.Infix.Conversion
import SciCalc.Proofs.Infix.Preservation
import SciCalc.Proofs.Scan.Complete
import SciCalc.Proofs.Scan.Drawing

/-! Composition: expressions in parentheses can be put together, whatever they are made of.

Inside a group a conversion does what it does alone, since nothing reaches below the opening
parenthesis. Reduced above other results, a strict sequence does what it does alone, since no
operator runs short of operands. So the value of the whole is made of the values of the parts.
-/

namespace SciCalc

-----------------------------------------------------------------------------------------
-- Conversion inside of a group
-----------------------------------------------------------------------------------------

namespace Conversion

/-- A state inside of a group: it lies over the state outside, with the group's opening
parenthesis between them.
-/
def inside (outer : Conversion) (first : Token) (state : Conversion) : Conversion :=
  ⟨state.output ++ outer.output, state.pending ++ first :: outer.pending⟩

variable {outer state : Conversion} {first : Token}

theorem releaseWhile_inside {test : Token → Bool} (stops : test first = false)
    : (inside outer first state).releaseWhile test
      = inside outer first (state.releaseWhile test) := by
  have segment := @segment_append _ test state.pending (first :: outer.pending) (by simpa)
  simp [releaseWhile, inside, segment]

/-- No function outside is taken for one before a group inside, since the parenthesis is in
between.
-/
theorem releaseFunction_inside (opens : first.lexeme.isOpening)
    : (inside outer first state).releaseFunction
      = inside outer first state.releaseFunction := by
  obtain ⟨output, pending⟩ := state
  cases pending with
  | nil =>
      obtain ⟨lexeme, position⟩ := first
      cases lexeme with
      | opening text => rfl
      | _ => cases opens
  | cons top below => cases named : top.lexeme.isFunction <;> simp [releaseFunction, inside, named]

/-- The end of a group inside is met as it is without the state outside.
Witness: a group is open inside, so what is released lies above its parenthesis.
-/
theorem closeGroup_inside (opens : first.lexeme.isOpening) {position : Int} {next : Conversion}
    (closed : state.closeGroup position = .ok next)
    : (inside outer first state).closeGroup position = .ok (inside outer first next) := by
  have stops : (!first.lexeme.isOpening) = false := by simpa using opens
  have released := @releaseWhile_inside outer state first (fun token => !token.lexeme.isOpening)
    stops
  simp only [closeGroup, released] at closed ⊢
  generalize state.releaseWhile (fun token => !token.lexeme.isOpening) = above at closed ⊢
  obtain ⟨output, pending⟩ := above
  cases pending with
  | nil => cases closed
  | cons top below =>
      cases closed
      exact congrArg Except.ok (@releaseFunction_inside outer ⟨output, below⟩ first opens)

/-- A step that succeeds alone does the same inside of a group, by cases on the token. -/
theorem step_inside (opens : first.lexeme.isOpening) {token : Token} {next : Conversion}
    (stepped : state.step token = .ok next)
    : (inside outer first state).step token = .ok (inside outer first next) := by
  obtain ⟨lexeme, position⟩ := token
  cases lexeme with
  | number _ | function _ | opening _ =>
      cases stepped
      rfl
  | closing _ => exact closeGroup_inside opens stepped
  | operator text =>
      simp only [step] at stepped ⊢
      cases known : Operator.ofText? text with
      | none => simp [known] at stepped
      | some operator =>
          have loose := (ReadyFor.of_opening opens operator.nonterminal [] []).loose first rfl
          rw [Operator.precedence_nonterminal] at loose
          simp only [known, Except.ok.injEq] at stepped ⊢
          rw [releaseWhile_inside loose, ← stepped]
          rfl

/-- Tokens that are taken alone are taken inside of a group, by induction on the tokens. -/
theorem foldlM_step_inside (opens : first.lexeme.isOpening) {tokens : List Token}
    {final : Conversion} (run : tokens.foldlM step state = .ok final)
    : tokens.foldlM step (inside outer first state) = .ok (inside outer first final) := by
  induction tokens generalizing state with
  | nil =>
      cases run
      rfl
  | cons token rest ih =>
      rw [List.foldlM_cons] at run ⊢
      obtain ⟨next, stepped, others⟩ := Failure.bind_eq_ok_iff.mp run
      rw [step_inside opens stepped]
      exact ih others

/-- Tokens that convert alone convert the same as a group among others, and a function that
waits before the group goes out behind them.
Witness: at the end of the group all goes out that would go out at the end of the input.
-/
theorem foldlM_step_group {tokens rpn output pending : List Token} {last : Token}
    (opens : first.lexeme.isOpening) (closes : last.lexeme.isClosing)
    (converts : convert tokens = .ok rpn)
    : (first :: (tokens ++ [last])).foldlM step ⟨output, pending⟩
      = .ok (releaseFunction ⟨rpn.reverse ++ output, pending⟩) := by
  obtain ⟨final, run, finished⟩ := Failure.bind_eq_ok_iff.mp converts
  obtain ⟨closed, rfl⟩ := closed_of_finish_eq_ok finished
  have within := @foldlM_step_inside ⟨output, pending⟩ start first opens tokens final run
  apply foldlM_group opens closes _ closed
  simpa [inside, start] using within

end Conversion

-----------------------------------------------------------------------------------------
-- Values of tokens
-----------------------------------------------------------------------------------------

/-- Tokens in infix order have a value: they convert, and what they convert to reduces to it. -/
def HasValue (mode : Mode) (tokens : List Token) (value : Float) : Prop :=
  ∃ rpn told,
    convert tokens = .ok rpn ∧ Algebra.value.Runs mode [] rpn told [value]

/-- An expression has a value exactly if its scan is complete and its tokens have the value. -/
theorem outcome_evaluate_eq_ok_iff_hasValue {mode : Mode} {expression : String} {value : Float}
    : (evaluate mode expression).outcome = .ok value
      ↔ ∃ tokens,
          Scans mode 0 expression.toList tokens ∧ HasValue mode tokens value := by
  rw [outcome_evaluate_eq_ok_iff]
  constructor
  · intro evaluated
    obtain ⟨rpn, converted, reduced⟩ := evaluated
    obtain ⟨complete, converts⟩ := outcome_toRpn_eq_ok_iff.mp converted
    exact ⟨_, ⟨complete, rfl⟩, rpn, _, converts, Algebra.outcome_reduce_eq_ok_iff.mp reduced⟩
  · intro found
    obtain ⟨tokens, ⟨complete, delivers⟩, rpn, told, converts, run⟩ := found
    refine ⟨rpn, outcome_toRpn_eq_ok_iff.mpr ⟨complete, delivers ▸ converts⟩, ?_⟩
    rw [rpnValue, Algebra.reduce_eq_ok_iff.mpr run]

namespace HasValue

variable {mode : Mode} {tokens more : List Token} {left right : Float}
variable {first last start stop : Token}

/-- Tokens have the same value at other places. -/
theorem relocate (value : HasValue mode tokens left) (place : Int → Int)
    : HasValue mode (tokens.map (Token.relocate place)) left := by
  obtain ⟨rpn, told, converts, run⟩ := value
  obtain ⟨again, moved⟩ := @Algebra.Runs.relocate place _ _ _ _ _ _ _ run
  exact ⟨_, again, by rw [convert_relocate, converts]; rfl, moved⟩

theorem enclose (value : HasValue mode tokens left) (opens : first.lexeme.isOpening)
    (closes : last.lexeme.isClosing)
    : HasValue mode (first :: (tokens ++ [last])) left := by
  obtain ⟨rpn, told, converts, run⟩ := value
  refine ⟨rpn, told, ?_, run⟩
  rw [convert, Conversion.start, Conversion.foldlM_step_group opens closes converts]
  simp [bind, Except.bind, Conversion.releaseFunction, Conversion.finish]

/-- A function before a group is applied to the value of the group.
Witness: it goes out behind all that the group sends out.
-/
theorem call (value : HasValue mode tokens left) (f : MathFunction) (position : Int)
    (opens : first.lexeme.isOpening) (closes : last.lexeme.isClosing)
    : HasValue mode (⟨.function f.name, position⟩ :: first :: (tokens ++ [last]))
        (f.apply left) := by
  obtain ⟨rpn, told, converts, run⟩ := value
  have called : Algebra.value.call f.name left = .ok (f.apply left) := by
    simp [Algebra.value, MathFunction.ofName?_name]
  refine ⟨rpn ++ [⟨.function f.name, position⟩], _, ?_, run.append (.cons (.call called) .nil)⟩
  rw [convert, List.foldlM_cons]
  change (first :: (tokens ++ [last])).foldlM Conversion.step ⟨[], [_]⟩ >>= _ = _
  rw [Conversion.foldlM_step_group opens closes converts, Conversion.releaseFunction_function]
  simp [bind, Except.bind, Conversion.finish]

/-- An operator between groups is applied to the values of the groups, if the second is strict.
Witness: the first group is all that has gone out when the operator comes, and the second is
reduced above its value.
-/
theorem binary (value : HasValue mode tokens left) (other : HasValue .strict more right)
    (op : Operator) (position : Int)
    (opens : first.lexeme.isOpening) (closes : last.lexeme.isClosing)
    (starts : start.lexeme.isOpening) (stops : stop.lexeme.isClosing)
    : HasValue mode
        ((first :: (tokens ++ [last]))
          ++ ⟨.operator op.text, position⟩ :: start :: (more ++ [stop]))
        (op.apply left right) := by
  obtain ⟨rpn, told, converts, run⟩ := value
  obtain ⟨second, silent, convertsToo, strict⟩ := other
  have combined : Algebra.value.combine op.text left right = .ok (op.apply left right) := by
    simp [Algebra.value, Operator.ofText?_text]
  refine ⟨rpn ++ (second ++ [⟨.operator op.text, position⟩]), _, ?_,
    run.append ((strict.above [left]).append (.cons (.combine combined) .nil))⟩
  rw [convert, Conversion.start, List.foldlM_append,
    Conversion.foldlM_step_group opens closes converts]
  change (_ :: start :: (more ++ [stop])).foldlM Conversion.step ⟨rpn.reverse ++ [], []⟩ >>= _ = _
  rw [List.foldlM_cons, Conversion.step]
  simp only [Operator.ofText?_text]
  change (start :: (more ++ [stop])).foldlM Conversion.step ⟨rpn.reverse ++ [], [_]⟩ >>= _ = _
  rw [Conversion.foldlM_step_group starts stops convertsToo]
  simp [bind, Except.bind, Conversion.releaseFunction, Conversion.finish, Lexeme.isFunction,
    Lexeme.isOpening]

end HasValue

-----------------------------------------------------------------------------------------
-- Texts in parentheses
-----------------------------------------------------------------------------------------

theorem startsApart_closing (rest : List Char) : StartsApart (')' :: rest) := by
  constructor
  · simp [PlainHead]
  · intro c head f
    cases head
    cases f <;> decide

/-- A text is scanned in parentheses as it is alone, only later, and what follows it from where
it ends. Witness: no lexeme runs on across a parenthesis.
-/
theorem Scans.exists_group {mode : Mode} {text rest : List Char} {tokens more : List Token}
    {position : Nat} (inner : Scans mode 0 text tokens)
    (others : Scans mode (position + (text.length + 2)) rest more)
    : ∃ first last place,
        first.lexeme.isOpening
        ∧ last.lexeme.isClosing
        ∧ Scans mode position ('(' :: (text ++ ')' :: rest))
            (first :: (tokens.map (Token.relocate place) ++ [last]) ++ more) := by
  have behind : position + 1 + text.length + 1 = position + (text.length + 2) := by omega
  have closing : Scans mode (position + 1 + text.length) (')' :: rest)
      (⟨.closing ")", ↑(position + 1 + text.length)⟩ :: more) :=
    @Scans.lexeme_of_isNumber_eq_false mode _ rest more (.closing ")") rfl rfl (behind ▸ others)
  have moved := inner.relocate (position + 1)
  rw [Nat.zero_add] at moved
  have opening := @Scans.lexeme_of_isNumber_eq_false mode position _ _ (.opening "(") rfl rfl
    (moved.append (startsApart_closing rest) closing)
  refine ⟨⟨.opening "(", position⟩, ⟨.closing ")", ↑(position + 1 + text.length)⟩,
    (· + ↑(position + 1)), rfl, rfl, ?_⟩
  rw [List.cons_append, List.append_assoc]
  exact opening

/-- Evaluation is compositional: expressions that have values can be put in parentheses, behind
the name of a function, and on both sides of an operator, whatever characters they are made of.
Only the right operand must do without zero defaults, since in its place a zero would not be
supplied: the left operand's value would be taken.
Witness: the parts are scanned, converted and reduced as they are alone.
-/
theorem evaluate_parenthesized (mode : Mode) (first : String) (left : Float)
    (evaluated : (evaluate mode first).outcome = .ok left)
    : (evaluate mode (parenthesized first)).outcome = .ok left
      ∧ (∀ f : MathFunction,
          (evaluate mode (f.name ++ parenthesized first)).outcome = .ok (f.apply left))
      ∧ ∀ (op : Operator) (second : String) (right : Float),
          (evaluate .strict second).outcome = .ok right
          → (evaluate mode
              (parenthesized first ++ op.text ++ parenthesized second)).outcome
            = .ok (op.apply left right) := by
  obtain ⟨tokens, scanned, value⟩ := outcome_evaluate_eq_ok_iff_hasValue.mp evaluated
  simp only [outcome_evaluate_eq_ok_iff_hasValue, String.toList_append, toList_parenthesized]
  refine ⟨?_, ?_, ?_⟩
  · obtain ⟨_, _, place, opens, closes, whole⟩ :=
      @Scans.exists_group mode _ [] _ [] 0 scanned .nil
    rw [List.append_nil] at whole
    exact ⟨_, whole, (value.relocate place).enclose opens closes⟩
  · intro f
    obtain ⟨_, _, place, opens, closes, group⟩ :=
      @Scans.exists_group mode _ [] _ [] (0 + f.name.length) scanned .nil
    rw [List.append_nil] at group
    have whole := @Scans.lexeme_of_isNumber_eq_false mode 0 _ _ (.function f.name)
      (by simp [Lexeme.IsWritable, MathFunction.ofName?_name]) rfl group
    exact ⟨_, whole, (value.relocate place).call f 0 opens closes⟩
  · intro op second right evaluatedToo
    obtain ⟨more, scannedToo, other⟩ := evaluatedToo
    obtain ⟨_, _, placeToo, starts, stops, groupToo⟩ :=
      @Scans.exists_group mode _ [] _ [] (0 + (first.toList.length + 2) + op.text.length)
        scannedToo.of_strict .nil
    rw [List.append_nil] at groupToo
    have joint := @Scans.lexeme_of_isNumber_eq_false mode _ _ _ (.operator op.text)
      (by simp [Lexeme.IsWritable, Operator.ofText?_text]) rfl groupToo
    obtain ⟨_, _, place, opens, closes, whole⟩ := scanned.exists_group joint
    rw [List.append_assoc, List.cons_append, List.append_assoc, List.singleton_append]
    exact ⟨_, whole, (value.relocate place).binary (other.relocate placeToo) op _ opens closes
      starts stops⟩

/-- In `2*$-3` a character is passed over and a zero is supplied, and in `sqrt 16` a function has
no parentheses. Both can be operands.
-/
theorem evaluate_parenthesized_of_product
    : (evaluate .lenient "2*$-3").outcome = .ok (-3.0)
      ∧ (evaluate .strict "sqrt 16").outcome = .ok (MathFunction.sqrt.apply 16.0)
      ∧ (evaluate .lenient (parenthesized "2*$-3")).outcome = .ok (-3.0)
      ∧ (∀ f : MathFunction,
          (evaluate .lenient (f.name ++ parenthesized "2*$-3")).outcome = .ok (f.apply (-3.0)))
      ∧ ∀ op : Operator,
          (evaluate .lenient
            (parenthesized "2*$-3" ++ op.text ++ parenthesized "sqrt 16")).outcome
          = .ok (op.apply (-3.0) (MathFunction.sqrt.apply 16.0)) := by
  have evaluated : (evaluate .lenient "2*$-3").outcome = .ok (-3.0) := by
    let rpn : List Token :=
      [⟨.number 2.0, 0⟩, ⟨.operator "*", 1⟩, ⟨.number 3.0, 4⟩, ⟨.operator "-", 3⟩]
    have converts : (toRpn .lenient "2*$-3").outcome = .ok rpn :=
      outcome_toRpn_eq_ok_iff.mpr ⟨by decide +kernel, by decide +kernel⟩
    exact outcome_evaluate_eq_ok_iff.mpr ⟨rpn, converts, rfl⟩
  have evaluatedToo
      : (evaluate .strict "sqrt 16").outcome = .ok (MathFunction.sqrt.apply 16.0) := by
    let rpn : List Token := [⟨.number 16.0, 5⟩, ⟨.function "sqrt", 0⟩]
    have converts : (toRpn .strict "sqrt 16").outcome = .ok rpn :=
      outcome_toRpn_eq_ok_iff.mpr ⟨by decide +kernel, by decide +kernel⟩
    exact outcome_evaluate_eq_ok_iff.mpr ⟨rpn, converts, rfl⟩
  obtain ⟨alone, called, combined⟩ := evaluate_parenthesized _ _ _ evaluated
  exact ⟨evaluated, evaluatedToo, alone, called, fun op => combined op _ _ evaluatedToo⟩

/-- A right operand that needs a zero takes the left operand's value instead. -/
example : (evaluate .lenient "(5)*(-2)").outcome = .ok 0.0 := by
  refine outcome_evaluate_eq_ok_iff.mpr ⟨[⟨.number 5.0, 1⟩, ⟨.number 2.0, 6⟩,
    ⟨.operator "-", 5⟩, ⟨.operator "*", 3⟩], ?_, rfl⟩
  exact outcome_toRpn_eq_ok_iff.mpr ⟨by decide +kernel, by decide +kernel⟩

end SciCalc
