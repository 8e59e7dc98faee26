import Mathlib.Data.List.Induction
import Mathlib.Data.List.TakeWhile
import SciCalc.Rpn.Conversion

/-! What a conversion does with its tokens, and that it keeps them: what goes out in the end is what
came in, without the parentheses.

At every moment the tokens that have gone out and those that wait, opening parentheses apart,
are a permutation of the tokens read so far, parentheses apart.
-/

namespace SciCalc

/-- The tokens that only group others. -/
def Token.isParenthesis (token : Token) : Bool :=
  token.lexeme.isOpening || token.lexeme.isClosing

namespace Conversion

variable {state next final : Conversion} {token : Token} {tokens rpn : List Token}

-----------------------------------------------------------------------------------------
-- What a conversion does
-----------------------------------------------------------------------------------------

/-- A conversion takes a token, and comes from one state to the next. What waits down to an opening
parenthesis goes out at the end of its group.
-/
inductive Takes (state : Conversion) : Token → Conversion → Prop
  | number {value position}
    : state.Takes ⟨.number value, position⟩ (state.emit ⟨.number value, position⟩)
  | function {name position}
    : state.Takes ⟨.function name, position⟩ (state.hold ⟨.function name, position⟩)
  | opening {text position}
    : state.Takes ⟨.opening text, position⟩ (state.hold ⟨.opening text, position⟩)
  | operator {text position operator} (known : Operator.ofText? text = some operator)
    : state.Takes ⟨.operator text, position⟩
        ((state.releaseWhile (bindsAtLeast operator.precedence)).hold ⟨.operator text, position⟩)
  | closing {text position first below}
    (waiting
      : (state.releaseWhile fun token => !token.lexeme.isOpening).pending = first :: below)
    (opens : first.lexeme.isOpening)
    : state.Takes ⟨.closing text, position⟩
        (releaseFunction
          ⟨(state.releaseWhile fun token => !token.lexeme.isOpening).output, below⟩)

/-- A step that succeeds has taken its token, by cases on the token. -/
theorem takes_of_step (stepped : state.step token = .ok next) : state.Takes token next := by
  obtain ⟨lexeme, position⟩ := token
  cases lexeme with
  | number value =>
      obtain rfl := Except.ok.inj stepped
      exact .number
  | function name =>
      obtain rfl := Except.ok.inj stepped
      exact .function
  | opening text =>
      obtain rfl := Except.ok.inj stepped
      exact .opening
  | operator text =>
      simp only [step] at stepped
      split at stepped
      · cases stepped
      · next operator known =>
          obtain rfl := Except.ok.inj stepped
          exact .operator known
  | closing text =>
      simp only [step, closeGroup] at stepped
      split at stepped
      · cases stepped
      · next first below waiting =>
          obtain rfl := Except.ok.inj stepped
          have top := List.head?_dropWhile_not (fun token => !token.lexeme.isOpening) state.pending
          have same : state.pending.dropWhile (fun token => !token.lexeme.isOpening)
              = first :: below := waiting
          rw [same] at top
          exact .closing waiting (by simpa using top)

/-- What holds before a run and is kept by every step holds behind it, of the tokens that were read
and of the state that they lead to. Witness: induction from the end of the tokens.
-/
theorem holds_of_run {motive : List Token → Conversion → Prop} (initial : motive [] start)
    (keeps
      : ∀ {read state token next},
          read.foldlM step start = .ok state
          → motive read state
          → step state token = .ok next
          → motive (read ++ [token]) next)
    (run : tokens.foldlM step start = .ok final)
    : motive tokens final := by
  induction tokens using List.reverseRecOn generalizing final with
  | nil =>
      obtain rfl := Except.ok.inj run
      exact initial
  | append_singleton read token ih =>
      rw [List.foldlM_append] at run
      obtain ⟨middle, before, last⟩ := Failure.bind_eq_ok_iff.mp run
      rw [List.foldlM_cons] at last
      obtain ⟨next, stepped, ended⟩ := Failure.bind_eq_ok_iff.mp last
      obtain rfl := Except.ok.inj ended
      exact keeps before (ih before) stepped

theorem opened_of_binds {precedence : Nat} {token : Token}
    (binds : bindsAtLeast precedence token)
    : token.lexeme.isOpening = false := by
  obtain ⟨lexeme, position⟩ := token
  cases lexeme with
  | opening _ => cases binds
  | _ => rfl

/-- A conversion that ends well has closed its groups, and all that waits goes out. -/
theorem closed_of_finish_eq_ok (finished : state.finish = .ok rpn)
    : (∀ token ∈ state.pending, token.lexeme.isOpening = false)
      ∧ state.output.reverse ++ state.pending = rpn := by
  simp only [finish] at finished
  split at finished
  · cases finished
  · next unopened => exact ⟨by simpa using unopened, Except.ok.inj finished⟩

-----------------------------------------------------------------------------------------
-- What is kept
-----------------------------------------------------------------------------------------

/-- The tokens of a state that have gone out or will. -/
def kept (state : Conversion) : List Token :=
  state.output ++ state.pending.filter fun token => !token.lexeme.isOpening

theorem kept_hold_perm (state : Conversion) (token : Token)
    : (state.hold token).kept.Perm
        ([token].filter (fun token => !token.lexeme.isOpening) ++ state.kept) := by
  cases opens : token.lexeme.isOpening <;> simp [kept, hold, opens]

/-- Releasing tokens that open nothing keeps all tokens.
Witness: what is released only changes its place.
-/
theorem kept_releaseWhile_perm {test : Token → Bool}
    (closed : ∀ token, test token → token.lexeme.isOpening = false) (state : Conversion)
    : (state.releaseWhile test).kept.Perm state.kept := by
  have released : (state.pending.takeWhile test).filter (fun token => !token.lexeme.isOpening)
      = state.pending.takeWhile test := by
    apply List.filter_eq_self.mpr
    intro token member
    simp [closed token (List.mem_takeWhile_imp member)]
  have waiting : state.pending.filter (fun token => !token.lexeme.isOpening)
      = state.pending.takeWhile test
        ++ (state.pending.dropWhile test).filter (fun token => !token.lexeme.isOpening) := by
    rw [← released, ← List.filter_append, List.takeWhile_append_dropWhile]
  simp only [kept, releaseWhile, waiting, ← List.append_assoc]
  refine List.Perm.append_right _ ?_
  exact ((List.reverse_perm _).append_right _).trans List.perm_append_comm

theorem kept_releaseFunction_perm (state : Conversion)
    : state.releaseFunction.kept.Perm state.kept := by
  obtain ⟨output, pending⟩ := state
  cases pending with
  | nil => exact .refl _
  | cons top below =>
      obtain ⟨lexeme, position⟩ := top
      cases lexeme with
      | function name => simpa [releaseFunction, kept, Lexeme.isFunction, Lexeme.isOpening]
          using List.perm_middle.symm
      | _ => exact .refl _

/-- A step keeps all tokens and the one it reads, unless that is a parenthesis.
Witness: cases on what is taken; of a group only the parenthesis that opened it is dropped.
-/
theorem kept_step_perm (stepped : state.step token = .ok next)
    : next.kept.Perm ([token].filter (fun token => !token.isParenthesis) ++ state.kept) := by
  cases takes_of_step stepped with
  | number => exact .refl _
  | function | opening => exact kept_hold_perm _ _
  | operator known =>
      refine (kept_hold_perm _ _).trans (List.Perm.append_left _ ?_)
      exact kept_releaseWhile_perm (fun _ => opened_of_binds) state
  | closing waiting opens =>
      have closed := @kept_releaseWhile_perm (fun token => !token.lexeme.isOpening) (by simp) state
      refine (kept_releaseFunction_perm _).trans (List.Perm.trans ?_ closed)
      simp [kept, waiting, opens]

/-- A run keeps all tokens but the parentheses, since every step does. -/
theorem kept_perm_of_run (run : tokens.foldlM step start = .ok final)
    : final.kept.Perm (tokens.filter fun token => !token.isParenthesis) := by
  refine holds_of_run (motive := fun read state =>
    state.kept.Perm (read.filter fun token => !token.isParenthesis)) (.refl _) ?_ run
  intro read state token next _ same stepped
  rw [List.filter_append]
  exact ((kept_step_perm stepped).trans (same.append_left _)).trans List.perm_append_comm

end Conversion

/-- The reverse Polish order is a permutation of the infix order without the parentheses.
Witness: at the end no parenthesis waits, so all that is kept goes out.
-/
theorem convert_perm {tokens rpn : List Token} (converts : convert tokens = .ok rpn)
    : rpn.Perm (tokens.filter fun token => !token.isParenthesis) := by
  obtain ⟨state, run, finished⟩ := Failure.bind_eq_ok_iff.mp converts
  have all := Conversion.kept_perm_of_run run
  rw [Conversion.kept] at all
  obtain ⟨closed, rfl⟩ := Conversion.closed_of_finish_eq_ok finished
  have waiting : state.pending.filter (fun token => !token.lexeme.isOpening) = state.pending := by
    apply List.filter_eq_self.mpr
    intro token member
    simp [closed token member]
  rw [waiting] at all
  exact ((List.reverse_perm _).append_right _).trans all

end SciCalc
