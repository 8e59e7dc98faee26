import SciCalc.Dialogue
import SciCalc.Proofs.Dialogue.Command
import SciCalc.Proofs.Evaluation.Culprit
import SciCalc.Proofs.Session.History

/-! The answer to one line of a dialogue.

An expression is answered with its value or with one failure, and the session keeps an entry of it
only in the first case. Nothing that a line can hold is unexpected.
-/

namespace SciCalc.Dialogue

variable {style : Style} {session : Session} {line expression : String} {turn : Turn}

-----------------------------------------------------------------------------------------
-- Turns without surprises
-----------------------------------------------------------------------------------------

/-- Nothing is logged but events, so nothing unexpected is. -/
def Turn.Quiet (turn : Turn) : Prop :=
  ∀ record ∈ turn.records, record.level = .debug

namespace Turn.Quiet

theorem of_nil (nothing : turn.records = []) : turn.Quiet := by
  simp [Turn.Quiet, nothing]

theorem after (quiet : turn.Quiet) (replies : List Reply) (events : List Event)
    : (turn.after replies events).Quiet := by
  intro record member
  simp only [Turn.after, List.mem_append, List.mem_map] at member
  rcases member with ⟨event, _, rfl⟩ | later
  · rfl
  · exact quiet record later

theorem followedBy {second : Turn} (quiet : turn.Quiet) (more : second.Quiet)
    : (turn.followedBy second).Quiet := by
  intro record member
  rcases List.mem_append.mp member with earlier | later
  · exact quiet record earlier
  · exact more record later

end Turn.Quiet

-----------------------------------------------------------------------------------------
-- Expressions
-----------------------------------------------------------------------------------------

/-- What is printed of an evaluation: its value, or one error. -/
def valueText : Except Failure Float → String
  | .ok value => "= " ++ resultText value ++ "\n\n"
  | .error failure => "Error: " ++ failure.message ++ "\n\n"

/-- The line that shows the reverse Polish form of an expression, if it has one. -/
def rpnLine (mode : Mode) (expression : String) : String :=
  match (toRpn mode expression).outcome with
  | .ok rpn => "rpn: " ++ rpnText rpn ++ "\n"
  | .error _ => ""

/-- A turn prints a text without an end to the dialogue, and leaves a session. -/
structure Turn.Prints (turn : Turn) (text : String) (next : Session) : Prop where
  text : transcript turn.replies = text
  session : turn.session = next
  ended : turn.ended = false
  quiet : turn.Quiet

theorem Turn.Prints.after {text : String} {next : Session} (prints : turn.Prints text next)
    (more : List Reply) (events : List Event)
    : (turn.after more events).Prints (transcript more ++ text) next where
  text := by rw [← prints.text, ← transcript_append, Turn.after]
  session := prints.session
  ended := prints.ended
  quiet := prints.quiet.after more events

/-- A failure of an evaluation is shown, and is not unexpected. -/
theorem prints_failed {mode : Mode} {failure : Failure}
    (failed : (SciCalc.evaluate mode expression).outcome = .error failure)
    : (Dialogue.failed style session failure).Prints (valueText (.error failure)) session := by
  have known := kind_ne_ofLookup_of_evaluate failed
  unfold Dialogue.failed
  cases kind : failure.kind with
  | ofSyntax | ofEvaluation => exact ⟨by simp [valueText], rfl, rfl, .of_nil rfl⟩
  | ofLookup => exact absurd kind known

/-- The value of an expression is shown, or the failure to find one. -/
theorem prints_answerValue (style : Style) (session : Session) (expression : String)
    : (answerValue style session expression).Prints
        (valueText (SciCalc.evaluate session.mode expression).outcome)
        (session.evaluate expression).2 := by
  cases evaluated : (SciCalc.evaluate session.mode expression).outcome with
  | ok value =>
      simp only [answerValue, Session.evaluate, evaluated]
      exact ⟨by simp [Turn.after, valueText], rfl, rfl, (Turn.Quiet.of_nil rfl).after _ _⟩
  | error failure =>
      simp only [answerValue, Session.evaluate, evaluated]
      exact (prints_failed evaluated).after _ _

/-- An expression is answered with its value or with one error, behind its reverse Polish form.
Witness: where there is no such form, the failure to find it is the failure of the evaluation.
-/
theorem prints_answerExpression (style : Style) (session : Session) (expression : String)
    : (answerExpression style session expression).Prints
        ((if style.showRpn then rpnLine session.mode expression else "")
          ++ valueText (SciCalc.evaluate session.mode expression).outcome)
        (session.evaluate expression).2 := by
  unfold answerExpression rpnLine
  cases style.showRpn with
  | false => simpa using prints_answerValue style session expression
  | true =>
      have text : (session.rpn expression).outcome
          = (toRpn session.mode expression).outcome >>= fun rpn => .ok (rpnText rpn) :=
        Traced.outcome_bind _ _
      cases converted : (toRpn session.mode expression).outcome with
      | ok rpn =>
          have form : "rpn: " ++ rpnText rpn ++ "\n" = transcript [.rpn (rpnText rpn)] := by simp
          simp only [text, converted, form]
          exact (prints_answerValue style session expression).after _ _
      | error failure =>
          have failed : (SciCalc.evaluate session.mode expression).outcome = .error failure :=
            outcome_evaluate_eq_error_iff.mpr (.inl converted)
          simp only [text, converted, failed, Session.evaluate_snd_of_error failed]
          exact (prints_failed failed).after _ _

-----------------------------------------------------------------------------------------
-- Lines
-----------------------------------------------------------------------------------------

/-- The entry for an expression with a value. -/
def remembered? (mode : Mode) (line : String) : Option Entry :=
  if isExpression line then
    (SciCalc.evaluate mode (bareText line)).outcome.toOption.map (⟨bareText line, ·⟩)
  else none

/-- The line that shows the reverse Polish form of a line, if that is an expression with a form. -/
def formText (mode : Mode) (line : String) : String :=
  if isExpression line then rpnLine mode (bareText line) else ""

/-- What is printed of a history: the latest ten entries, one line each. -/
def historyText (history : List Entry) : String :=
  if history.isEmpty then "No history yet\n\n"
  else
    let shown := (history.drop (history.length - 10)).map fun entry =>
      "  " ++ entry.expression ++ " = " ++ resultText entry.value ++ "\n"
    "\nRecent calculations:\n" ++ String.join shown ++ "\n"

/-- What a line that does not ask to quit is answered with, when some entries are remembered. -/
def answerText (mode : Mode) (history : List Entry) (line : String) : String :=
  if isExpression line then valueText (SciCalc.evaluate mode (bareText line)).outcome
  else if loweredText line = "help" then Reply.help.text
  else if loweredText line = "history" then historyText history
  else if loweredText line = "clear" then "Cleared history\n\n"
  else ""

/-- The answer to a line that does not ask to quit is printed, an expression's behind its form.
Witness: cases on what the line asks for.
-/
theorem transcript_answer (style : Style) (session : Session) (stays : asksToQuit line = false)
    : transcript (answer style session line).replies
      = (if style.showRpn then formText session.mode line else "")
        ++ answerText session.mode session.history line := by
  have asked := asks_ofLine line
  unfold answer
  generalize Command.ofLine line = command at asked ⊢
  cases asked with
  | evaluate asks =>
      rw [(prints_answerExpression style session (bareText line)).text]
      simp [formText, answerText, asks]
  | quit word => simp [asksToQuit, word] at stays
  | nothing blank word => simp [formText, answerText, isExpression, blank, word]
  | help word => simp [formText, answerText, isExpression, word]
  | clear word => simp [formText, answerText, isExpression, word]
  | history word =>
      have lines : Entry.line = fun entry =>
        "  " ++ entry.expression ++ " = " ++ resultText entry.value ++ "\n" := rfl
      cases empty : session.history.isEmpty <;>
        simp [formText, answerText, historyText, isExpression, word, empty, Session.recentText,
          Session.recent, historyCount, lines]

theorem answer_of_asksToQuit (style : Style) (session : Session) (quits : asksToQuit line)
    : answer style session line
      = { replies := [.goodbye], records := [], session, ended := true } := by
  simp only [answer, ofLine_eq_quit_iff.mpr quits]

/-- A line ends the dialogue exactly if it asks to quit. -/
theorem ended_answer (style : Style) (session : Session) (line : String)
    : (answer style session line).ended = asksToQuit line := by
  rw [Bool.eq_iff_iff, ← ofLine_eq_quit_iff]
  cases command : Command.ofLine line with
  | evaluate expression =>
      simp [answer, command, (prints_answerExpression style session expression).ended]
  | _ => simp [answer, command]

theorem session_evaluate_of_isExpression (session : Session) (asks : isExpression line)
    : (session.evaluate (bareText line)).2
      = { session with
          history := session.history ++ (remembered? session.mode line).toList } := by
  cases evaluated : (SciCalc.evaluate session.mode (bareText line)).outcome <;>
    simp [Session.evaluate, remembered?, asks, evaluated, Except.toOption]

/-- A line makes the session forget its entries, or adds the one for an expression with a value. -/
theorem session_answer (style : Style) (session : Session) (line : String)
    : (answer style session line).session
      = { session with
          history := if asksToClear line then []
            else session.history ++ (remembered? session.mode line).toList } := by
  cases asks : isExpression line with
  | true =>
      simp only [not_asksToClear_of_isExpression asks, Bool.false_eq_true, if_false, answer,
        ofLine_eq_evaluate_iff.mpr ⟨asks, rfl⟩]
      exact (prints_answerExpression style session (bareText line)).session.trans
        (session_evaluate_of_isExpression session asks)
  | false =>
      have evaluates := @ofLine_eq_evaluate_iff line
      have clears := @ofLine_eq_clear_iff line
      cases command : Command.ofLine line with
      | evaluate expression => simp [asks, command] at evaluates
      | clear => simp [answer, command, clears.mp command, Session.clear]
      | nothing | quit | help | history =>
          simp only [command, reduceCtorEq, false_iff] at clears
          simp [answer, command, clears, remembered?, asks]

/-- Nothing that a line brings about is unexpected, by cases on what it asks for. -/
theorem quiet_answer (style : Style) (session : Session) (line : String)
    : (answer style session line).Quiet := by
  unfold answer
  cases Command.ofLine line with
  | evaluate expression => exact (prints_answerExpression style session expression).quiet
  | _ => exact .of_nil rfl

end SciCalc.Dialogue
