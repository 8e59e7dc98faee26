import SciCalc.Proofs.Infix.Parentheses
import SciCalc.Proofs.Infix.Preservation
import SciCalc.Proofs.Scan.Drawing
import SciCalc.Proofs.Scan.Spelled

/-! The outcome of a conversion depends on the parentheses and on the scan alone.

What waits holds the parentheses of the open groups, the latest on top, whatever else stands
between them. So a stray closing one is met at once, before the scan can fail behind it, and an
unclosed opening one only at the end.
-/

namespace SciCalc

namespace Conversion

/-- The parentheses of the groups that are open, the latest first. -/
def opened (state : Conversion) : List Token :=
  state.pending.filter (·.lexeme.isOpening)

-----------------------------------------------------------------------------------------
-- Single steps
-----------------------------------------------------------------------------------------

theorem opened_hold (state : Conversion) (token : Token)
    : (state.hold token).opened
      = if token.lexeme.isOpening then token :: state.opened else state.opened :=
  List.filter_cons

/-- Releasing tokens that open nothing leaves the groups as they are.
Witness: what is released has no part in them.
-/
theorem opened_releaseWhile {test : Token → Bool}
    (closed : ∀ token, test token → token.lexeme.isOpening = false) (state : Conversion)
    : (state.releaseWhile test).opened = state.opened := by
  have released : (state.pending.takeWhile test).filter (·.lexeme.isOpening) = [] := by
    apply List.filter_eq_nil_iff.mpr
    intro token member
    simp [closed token (List.mem_takeWhile_imp member)]
  have whole := congrArg (List.filter (·.lexeme.isOpening))
    (List.takeWhile_append_dropWhile (p := test) (l := state.pending))
  rwa [List.filter_append, released, List.nil_append] at whole

theorem opened_releaseFunction (state : Conversion)
    : state.releaseFunction.opened = state.opened := by
  obtain ⟨output, pending⟩ := state
  cases pending with
  | nil => rfl
  | cons top below =>
      obtain ⟨lexeme, position⟩ := top
      cases lexeme <;> rfl

/-- The end of a group closes the latest open one, and is refused where none is open.
Witness: what waits is released down to an opening parenthesis, if there is one.
-/
theorem closeGroup_opened (state : Conversion) (position : Int)
    : match state.opened with
      | [] => state.closeGroup position = .error (.unmatchedParenthesis position)
      | _ :: outer => ∃ next, state.closeGroup position = .ok next ∧ next.opened = outer := by
  rw [← @opened_releaseWhile (fun token => !token.lexeme.isOpening) (by simp) state]
  have top := List.head?_dropWhile_not (fun token => !token.lexeme.isOpening) state.pending
  simp only [closeGroup, opened, releaseWhile]
  cases waiting : state.pending.dropWhile fun token => !token.lexeme.isOpening with
  | nil => rfl
  | cons first below =>
      have opens : first.lexeme.isOpening := by
        rw [waiting] at top
        simpa using top
      simp only [List.filter_cons, opens, if_true]
      exact ⟨_, rfl, opened_releaseFunction _⟩

/-- A step that succeeds keeps account of the open groups.
Witness: cases on the token; only parentheses change what is open.
-/
theorem step_openGroups {tokens : List Token} {state next : Conversion} {token : Token}
    (groups : OpenGroups tokens state.opened) (stepped : state.step token = .ok next)
    : OpenGroups (tokens ++ [token]) next.opened := by
  cases takes_of_step stepped with
  | number | function => exact groups.append_paired (.singleton rfl rfl)
  | opening => exact .group groups rfl .nil
  | operator known =>
      rw [opened_hold, opened_releaseWhile fun _ => opened_of_binds]
      exact groups.append_paired (.singleton rfl rfl)
  | @closing _ position _ _ _ _ =>
      have ended := state.closeGroup_opened position
      cases opened : state.opened with
      | nil =>
          rw [opened] at ended
          cases ended.symm.trans stepped
      | cons first outer =>
          rw [opened] at groups ended
          obtain ⟨_, closed, same⟩ := ended
          cases closed.symm.trans stepped
          exact same ▸ groups.concat_closing rfl

/-- A known token is taken, unless it is a stray closing parenthesis: a group is open that it
closes.
-/
theorem exists_step_openGroups {tokens : List Token} {state : Conversion} {token : Token}
    (groups : OpenGroups tokens state.opened) (known : token.lexeme.IsKnown)
    (noStray : NoStray (tokens ++ [token]))
    : ∃ next, state.step token = .ok next ∧ OpenGroups (tokens ++ [token]) next.opened := by
  have taken : ∃ next, state.step token = .ok next := by
    obtain ⟨lexeme, position⟩ := token
    cases lexeme with
    | number _ | function _ | opening _ => exact ⟨_, rfl⟩
    | operator text =>
        obtain ⟨operator, found⟩ := Option.isSome_iff_exists.mp known
        simp only [step, found]
        exact ⟨_, rfl⟩
    | closing text =>
        have ended := state.closeGroup_opened position
        cases opened : state.opened with
        | nil =>
            rw [opened] at groups
            have counted := (NoStray.concat_iff.mp noStray).2
            simp [groups.paired.even, Lexeme.isOpening, Lexeme.isClosing] at counted
        | cons first outer =>
            rw [opened] at ended
            obtain ⟨next, stepped, _⟩ := ended
            exact ⟨next, stepped⟩
  obtain ⟨next, stepped⟩ := taken
  exact ⟨next, stepped, step_openGroups groups stepped⟩

-----------------------------------------------------------------------------------------
-- Whole lists
-----------------------------------------------------------------------------------------

/-- Tokens without a stray closing parenthesis are taken to the last, and then the open groups
are those of the list. Witness: induction from the end.
-/
theorem exists_foldlM_openGroups {tokens : List Token}
    (known : ∀ token ∈ tokens, token.lexeme.IsKnown) (noStray : NoStray tokens)
    : ∃ state, tokens.foldlM step .start = .ok state ∧ OpenGroups tokens state.opened := by
  induction tokens using List.reverseRecOn with
  | nil => exact ⟨start, rfl, .none .nil⟩
  | append_singleton rest token ih =>
      obtain ⟨state, run, groups⟩ :=
        ih (fun other member => known other (List.mem_append_left _ member)) noStray.left
      obtain ⟨next, stepped, more⟩ :=
        exists_step_openGroups groups (known token (by simp)) noStray
      refine ⟨next, ?_, more⟩
      rw [List.foldlM_append, run]
      change [token].foldlM step state = _
      rw [List.foldlM_cons, stepped]
      rfl

/-- The open groups of tokens that were taken are those of the list, since every step keeps account
of them.
-/
theorem openGroups_of_run {tokens : List Token} {state : Conversion}
    (run : tokens.foldlM step .start = .ok state)
    : OpenGroups tokens state.opened :=
  holds_of_run (motive := fun read state => OpenGroups read state.opened) (.none .nil)
    (fun _ => step_openGroups) run

/-- The first stray closing parenthesis ends the conversion, whatever follows it.
Witness: all before it is paired, so no group is open there.
-/
theorem foldlM_step_of_firstStray {tokens : List Token} {culprit : Token}
    (known : ∀ token ∈ tokens, token.lexeme.IsKnown) (stray : FirstStray tokens culprit)
    : tokens.foldlM step .start = .error (.unmatchedParenthesis culprit.position) := by
  obtain ⟨before, after, rfl, paired, closes⟩ := Paired.exists_of_firstStray stray
  obtain ⟨state, run, groups⟩ :=
    exists_foldlM_openGroups (fun token member => known token (List.mem_append_left _ member))
      paired.noStray
  have ended := state.closeGroup_opened culprit.position
  cases opened : state.opened with
  | cons first outer => exact absurd paired (opened ▸ groups).not_paired
  | nil =>
      rw [opened] at ended
      obtain ⟨lexeme, position⟩ := culprit
      cases lexeme with
      | closing text =>
          rw [List.foldlM_append, run]
          change (⟨.closing text, position⟩ :: after).foldlM step state = _
          rw [List.foldlM_cons]
          change (state.closeGroup position >>= _) = _
          rw [ended]
          rfl
      | _ => cases closes

theorem finish_opened (state : Conversion)
    : state.finish
      = match state.opened with
        | [] => .ok (state.output.reverse ++ state.pending)
        | first :: _ => .error (.unmatchedParenthesis first.position) := by
  rw [finish, ← List.head?_filter, opened]
  cases state.pending.filter (·.lexeme.isOpening) <;> rfl

/-- A state is concluded with success exactly if the stream has not failed and no group is open.
-/
theorem exists_conclude_eq_ok_iff {stream : TokenStream} {state : Conversion}
    : (∃ rpn, consumer.conclude stream state = .ok rpn)
      ↔ stream.failure? = none ∧ state.opened = [] := by
  have finished : consumer.finish state = _ := state.finish_opened
  rw [Consumer.conclude, finished]
  cases stream.failure? with
  | some failure => simp
  | none => cases state.opened <;> simp

end Conversion

-----------------------------------------------------------------------------------------
-- Expressions
-----------------------------------------------------------------------------------------

variable {mode : Mode} {expression : String}

theorem isKnown_of_mem_scan {token : Token} (delivered : token ∈ (scan mode expression).tokens)
    : token.lexeme.IsKnown :=
  (isWritable_of_mem_scan delivered).isKnown

theorem outcome_toRpn_of_firstStray {culprit : Token}
    (stray : FirstStray (scan mode expression).tokens culprit)
    : (toRpn mode expression).outcome = .error (.unmatchedParenthesis culprit.position) := by
  refine (outcome_draw_conversion_eq _).trans ?_
  rw [Conversion.foldlM_step_of_firstStray (fun _ => isKnown_of_mem_scan) stray]
  rfl

/-- Without a stray closing parenthesis a conversion takes all tokens before it meets a failure
of the scan, and the groups open then are those of the tokens.
-/
theorem exists_outcome_toRpn_of_noStray (noStray : NoStray (scan mode expression).tokens)
    : ∃ state,
        OpenGroups (scan mode expression).tokens state.opened
        ∧ (toRpn mode expression).outcome
          = Conversion.consumer.conclude (scan mode expression) state := by
  obtain ⟨state, run, groups⟩ :=
    Conversion.exists_foldlM_openGroups (fun _ => isKnown_of_mem_scan) noStray
  refine ⟨state, groups, (outcome_draw_conversion_eq _).trans ?_⟩
  rw [run]
  rfl

/-- An expression converts exactly if its scan is complete and its parentheses are paired.
Witness: with pairs no group is open at the end, and without them one is, or a closing
parenthesis was stray.
-/
theorem exists_outcome_toRpn_eq_ok_iff
    : (∃ rpn, (toRpn mode expression).outcome = .ok rpn)
      ↔ (scan mode expression).failure? = none ∧ Paired (scan mode expression).tokens := by
  constructor
  · rintro ⟨rpn, succeeds⟩
    have noStray : NoStray (scan mode expression).tokens := by
      apply NoStray.of_not_firstStray
      rintro ⟨culprit, stray⟩
      rw [outcome_toRpn_of_firstStray stray] at succeeds
      cases succeeds
    obtain ⟨state, groups, concluded⟩ := exists_outcome_toRpn_of_noStray noStray
    obtain ⟨complete, closed⟩ :=
      Conversion.exists_conclude_eq_ok_iff.mp ⟨rpn, concluded.symm.trans succeeds⟩
    exact ⟨complete, OpenGroups.paired (closed ▸ groups)⟩
  · rintro ⟨complete, paired⟩
    obtain ⟨state, groups, concluded⟩ := exists_outcome_toRpn_of_noStray paired.noStray
    rw [concluded, Conversion.exists_conclude_eq_ok_iff]
    refine ⟨complete, ?_⟩
    cases opened : state.opened with
    | nil => rfl
    | cons first outer => exact absurd paired (opened ▸ groups).not_paired

/-- The outcome of a conversion is decided by the parentheses and by the scan. The first stray
closing parenthesis among the tokens comes before a failure of the scan, and a failure of the
scan before an opening parenthesis that is never closed, the rightmost of which is to blame.
Nothing else can fail, so an expression converts exactly if its scan is complete and its
parentheses are paired.
-/
theorem outcome_toRpn_by_parentheses (mode : Mode) (expression : String)
    : let stream := scan mode expression
      let outcome := (toRpn mode expression).outcome
      (∀ culprit,
          FirstStray stream.tokens culprit
          → outcome = .error (.unmatchedParenthesis culprit.position))
      ∧ ((¬ ∃ culprit, FirstStray stream.tokens culprit)
          → (∀ failure, stream.failure? = some failure → outcome = .error failure)
            ∧ (stream.failure? = none
                → (∀ culprit,
                    LastUnclosed stream.tokens culprit
                    → outcome = .error (.unmatchedParenthesis culprit.position))
                  ∧ ((¬ ∃ culprit, LastUnclosed stream.tokens culprit)
                      → ∃ rpn, outcome = .ok rpn)))
      ∧ ((∃ rpn, outcome = .ok rpn) ↔ stream.failure? = none ∧ Paired stream.tokens) := by
  intro stream outcome
  refine ⟨fun _ => outcome_toRpn_of_firstStray, fun none => ?_, exists_outcome_toRpn_eq_ok_iff⟩
  obtain ⟨state, groups, concluded⟩ : ∃ state,
      OpenGroups stream.tokens state.opened
      ∧ outcome = Conversion.consumer.conclude stream state :=
    exists_outcome_toRpn_of_noStray (.of_not_firstStray none)
  refine ⟨fun failure fails => ?_, fun complete => ⟨fun culprit last => ?_, fun closed => ?_⟩⟩
  · rw [concluded, Consumer.conclude, fails]
  · have finished : outcome = state.finish := by
      rw [concluded, Consumer.conclude, complete]
      rfl
    rw [finished, Conversion.finish_opened]
    cases opened : state.opened with
    | nil =>
        rw [opened] at groups
        obtain ⟨before, after, found, _⟩ := last
        exact absurd found groups.paired.not_unclosedAt
    | cons first outer =>
        rw [opened] at groups
        rw [groups.eq_of_lastUnclosed last]
  · rw [concluded, Conversion.exists_conclude_eq_ok_iff]
    refine ⟨complete, ?_⟩
    cases opened : state.opened with
    | nil => rfl
    | cons first outer => exact absurd ⟨first, (opened ▸ groups).lastUnclosed⟩ closed

/-- A stray parenthesis comes first, then a failure of the scan, then an unclosed parenthesis. -/
example
    : (toRpn .strict "(1))$").outcome = .error (.unmatchedParenthesis 3)
      ∧ (toRpn .strict "((1)$").outcome = .error (.unrecognized '$' 4)
      ∧ (toRpn .strict "(2*((1)+").outcome = .error (.unmatchedParenthesis 3) := by
  decide +kernel

end SciCalc
