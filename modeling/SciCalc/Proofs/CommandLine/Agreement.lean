import SciCalc.Proofs.CommandLine.Dialogue
import SciCalc.Proofs.Evaluation.Places
import SciCalc.Proofs.Scan.Blanks

/-! A run on one expression and a dialogue on the line of it agree.

The dialogue takes the blanks off its line and the run does not. That changes no value, and of a
failure only the place that is told.
-/

namespace SciCalc.CommandLine

open Dialogue (rpnLine)

variable {context : Context} {mode : Mode} {settings talk : Settings} {expression input : String}

/-- Settings that leave all as it usually is, apart from the mode. -/
structure Settings.Plain (settings : Settings) (mode : Mode) : Prop where
  mode : settings.mode = mode
  showRpn : settings.showRpn = false
  level : settings.level = some .warning

-----------------------------------------------------------------------------------------
-- Runs on one expression
-----------------------------------------------------------------------------------------

/-- What a run on one expression shows, with the usual settings: the value, or the failure. -/
def outcomeOf : Except Failure Float → Outcome
  | .ok value => ⟨0, resultText value ++ "\n", ""⟩
  | .error failure => ⟨1, "", "Error: " ++ failure.message ++ "\n"⟩

theorem outcome_preamble (settings : Settings) (expression : String)
    : (preamble settings { mode := settings.mode } expression).outcome
      = if settings.showRpn then
          (toRpn settings.mode expression).outcome.map fun _ => rpnLine settings.mode expression
        else .ok "" := by
  unfold preamble rpnLine
  cases settings.showRpn with
  | false => rfl
  | true =>
      simp only [if_true, Traced.outcome_bind, Session.rpn]
      cases (toRpn settings.mode expression).outcome <;> rfl

/-- At the usual level a run on one expression shows the outcome of the evaluation, behind the
reverse Polish form if that is wanted.
Witness: where there is no such form, the failure to find it is the failure of the evaluation.
-/
theorem runExpression_of_usual (context : Context) (settings : Settings) (expression : String)
    : runExpression context .warning settings expression
      = let outcome := outcomeOf (SciCalc.evaluate settings.mode expression).outcome
        { outcome with
          stdout := (if settings.showRpn then rpnLine settings.mode expression else "")
            ++ outcome.stdout } := by
  have events (computation : Traced Float) : ∀ record ∈ computation.events.map Log.recordOf,
      record.level = .debug ∨ record.level = .info := by
    intro record member
    obtain ⟨event, _, rfl⟩ := List.mem_map.mp member
    exact .inl rfl
  have logged (computation : Traced Float) (message : String) := List.forall_mem_append.mpr
    ⟨events computation, List.forall_mem_singleton.mpr
      (.inr rfl : (⟨.info, context.logger, message⟩ : Log.Record).level = _ ∨ _)⟩
  have same : (do
      let _ ← preamble settings { mode := settings.mode } expression
      (Session.evaluate { mode := settings.mode } expression).1 : Traced Float).outcome
      = (SciCalc.evaluate settings.mode expression).outcome := by
    simp only [Traced.outcome_bind, outcome_preamble, Session.evaluate_fst]
    cases settings.showRpn with
    | false => rfl
    | true =>
        cases conversion : (toRpn settings.mode expression).outcome with
        | ok rpn => rfl
        | error failure => exact (outcome_evaluate_eq_error_iff.mpr (.inl conversion)).symm
  have shown : (preamble settings { mode := settings.mode } expression).outcome.toOption.getD ""
      = if settings.showRpn then rpnLine settings.mode expression else "" := by
    rw [outcome_preamble]
    cases settings.showRpn with
    | false => rfl
    | true =>
        simp only [if_true, rpnLine]
        cases (toRpn settings.mode expression).outcome <;> rfl
  simp only [runExpression, shown]
  split
  · next value found =>
      rw [same] at found
      rw [found, shown_warning_eq_empty (events _), String.append_assoc]
      rfl
  · next failure found =>
      rw [same] at found
      rw [found, shown_warning_eq_empty (logged _ _)]
      simp [outcomeOf]

/-- With the usual settings nothing but the outcome of the evaluation is shown. -/
theorem runExpression_of_plain (context : Context) (plain : settings.Plain mode)
    (expression : String)
    : runExpression context .warning settings expression
      = outcomeOf (SciCalc.evaluate mode expression).outcome := by
  rw [runExpression_of_usual, plain.mode, plain.showRpn]
  simp

-----------------------------------------------------------------------------------------
-- Both ways to ask
-----------------------------------------------------------------------------------------

/-- Whatever an expression looks like, there are arguments that ask for it in either mode. -/
theorem ofArguments_separated (expression : String)
    : Settings.ofArguments ["--", expression] = .ok { expression := some expression }
      ∧ Settings.ofArguments ["--strict", "--", expression]
        = .ok { mode := .strict, expression := some expression } := by
  have strict : Item.ofArgument "--strict" = .ok (.flag .strict .nothing) := by decide +kernel
  constructor
  · simp only [Settings.ofArguments, Item.ofArguments]
    rfl
  · simp only [Settings.ofArguments, Item.ofArguments, strict]
    rfl

/-- A run at the usual level answers its one expression, or holds a dialogue on its input. -/
theorem run_of_usual {arguments : List String}
    (asked : Settings.ofArguments arguments = .ok settings)
    (usual : settings.level = some .warning) (unread : Dialogue.Input)
    : run context arguments unread
      = .ok (match settings.single? with
        | some expression => runExpression context .warning settings expression
        | none => runDialogue context .warning settings unread) := by
  have level : settings.requireLevel = .ok .warning := by simp [Settings.requireLevel, usual]
  simp only [run, asked]
  change settings.requireLevel >>= _ = _
  rw [level]
  cases settings.single? <;> rfl

/-- A run that is plain answers its one expression, whatever its input is. -/
theorem run_of_single {arguments : List String} {unread : Dialogue.Input}
    (asked : Settings.ofArguments arguments = .ok settings) (plain : settings.Plain mode)
    (single : settings.single? = some expression)
    : run context arguments unread
      = .ok (outcomeOf (SciCalc.evaluate mode expression).outcome) := by
  rw [run_of_usual asked plain.level, single]
  exact congrArg Except.ok (runExpression_of_plain context plain expression)

open Dialogue in
/-- A run that is plain and holds a dialogue on the line of an expression answers it once. -/
theorem run_of_line {arguments : List String}
    (asked : Settings.ofArguments arguments = .ok talk) (plain : talk.Plain mode)
    (dialogue : talk.single? = none)
    (line : Text.IsSplit input.toList [expression.toList])
    (asks : isExpression expression)
    : run context arguments (.ok input)
      = .ok ⟨0,
          Reply.welcome.text ++ "calc> "
            ++ valueText (SciCalc.evaluate mode (bareText expression)).outcome
            ++ "calc> \nGoodbye!\n",
          ""⟩ := by
  have stays := not_asksToQuit_of_isExpression asks
  have read : linesRead [expression] = [expression] := linesRead_cons stays []
  have answer : printed false mode [expression]
      = "calc> "
        ++ valueText (SciCalc.evaluate mode (bareText expression)).outcome := by
    simp [printed, answered, answerText, asks]
  have shown := @runDialogue_of_usual _ [expression] context talk line
  rw [run_of_usual asked plain.level, dialogue]
  simp only [shown, screen, plain.mode, plain.showRpn, read, answer]
  simp [stays, String.append_assoc]

/-- Two runs agree, the first on one expression, the second a dialogue on the line of it. Either
both show its value, and the first succeeds. Or both show one failure, and the first does not
succeed; a place that it tells is some distance further ahead.
-/
inductive Agree (distance : Nat) : Except Breakdown Outcome → Except Breakdown Outcome → Prop
  | value (value : Float)
    : Agree distance (.ok ⟨0, resultText value ++ "\n", ""⟩)
        (.ok ⟨0,
          Dialogue.Reply.welcome.text ++ "calc> " ++ ("= " ++ resultText value ++ "\n\n")
            ++ "calc> \nGoodbye!\n",
          ""⟩)
  | failure (failure : Failure)
    : Agree distance (.ok ⟨1, "", "Error: " ++ (failure.ahead distance).message ++ "\n"⟩)
        (.ok ⟨0,
          Dialogue.Reply.welcome.text ++ "calc> " ++ ("Error: " ++ failure.message ++ "\n\n")
            ++ "calc> \nGoodbye!\n",
          ""⟩)

/-- A run on one expression and a dialogue on the line of it agree, in the same mode and with the
usual settings. A place that is told is as much further ahead in the run as there are blanks in
front of the expression. Witness: without these blanks the scan is the same at earlier places.
-/
theorem run_single_agrees (context : Context) {arguments others : List String}
    {unread : Dialogue.Input}
    (asked : Settings.ofArguments arguments = .ok settings) (plain : settings.Plain mode)
    (single : settings.single? = some expression)
    (talked : Settings.ofArguments others = .ok talk) (plainTalk : talk.Plain mode)
    (dialogue : talk.single? = none)
    (line : Text.IsSplit input.toList [expression.toList])
    (asks : Dialogue.isExpression expression)
    : Agree (Text.leadingBlanks expression.toList) (run context arguments unread)
        (run context others (.ok input)) := by
  have moved : (SciCalc.evaluate mode expression).outcome
      = relocateOutcome (· + Text.leadingBlanks expression.toList) id
          (SciCalc.evaluate mode (Dialogue.bareText expression)).outcome :=
    outcome_evaluate_relocate (scan_eq_relocate mode expression)
  rw [run_of_single asked plain single, run_of_line talked plainTalk dialogue line asks, moved]
  cases (SciCalc.evaluate mode (Dialogue.bareText expression)).outcome with
  | ok value => exact .value value
  | error failure =>
      simp only [relocateOutcome, outcomeOf, Failure.message_relocate]
      exact .failure failure

/-- In a strict run two blanks stand before `2 $ x`, and in a strict dialogue they are taken off. -/
theorem run_single_agrees_of_blanks_in_front
    : let context : Context := ⟨"__main__", "2024-02-29 12:00:00,000"⟩
      let expression := "\u00a0 2 $ x\t"
      let arguments := ["--strict", "--", expression]
      let input := expression ++ "\r\n"
      let settings : Settings := { mode := .strict, expression := some expression }
      let talk : Settings := { mode := .strict }
      Settings.ofArguments arguments = .ok settings
      ∧ settings.Plain .strict
      ∧ settings.single? = some expression
      ∧ Settings.ofArguments ["--strict"] = .ok talk
      ∧ talk.Plain .strict
      ∧ talk.single? = none
      ∧ Text.IsSplit input.toList [expression.toList]
      ∧ Dialogue.isExpression expression
      ∧ Agree 2 (run context arguments (.ok "")) (run context ["--strict"] (.ok input))
      ∧ run context arguments (.ok "")
        = .ok ⟨1, "", "Error: unrecognized character '$' at position 4\n"⟩
      ∧ run context ["--strict"] (.ok input)
        = .ok ⟨0,
            Dialogue.Reply.welcome.text
              ++ "calc> Error: unrecognized character '$' at position 2\n\ncalc> \nGoodbye!\n",
            ""⟩ := by
  intro context expression arguments input settings talk
  have asked : Settings.ofArguments arguments = .ok settings :=
    (ofArguments_separated expression).2
  have talked : Settings.ofArguments ["--strict"] = .ok talk := by decide +kernel
  have line : Text.IsSplit input.toList [expression.toList] :=
    Text.isSplit_iff.mpr (by decide +kernel)
  have asks : Dialogue.isExpression expression := by decide +kernel
  have distance : Text.leadingBlanks expression.toList = 2 := by decide +kernel
  have plain : settings.Plain .strict := ⟨rfl, rfl, rfl⟩
  have plainTalk : talk.Plain .strict := ⟨rfl, rfl, rfl⟩
  have agree : Agree 2 (run context arguments (.ok "")) (run context ["--strict"] (.ok input)) :=
    distance ▸ run_single_agrees context asked plain rfl talked plainTalk rfl line asks
  refine ⟨asked, plain, rfl, talked, plainTalk, rfl, line, asks, agree, ?_, ?_⟩
  · decide +kernel
  · decide +kernel

end SciCalc.CommandLine
