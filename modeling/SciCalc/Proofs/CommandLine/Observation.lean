import SciCalc.Proofs.CommandLine.Agreement

/-! Showing reverse Polish forms only observes.

An expression is converted once more for its form to be shown. That changes neither what a run comes
to nor what a dialogue remembers: a form is shown in front of an answer, or there is none to show.
-/

namespace SciCalc.CommandLine

open Dialogue (rpnLine)

variable {settings : Settings} {expression : String}

/-- The form of an expression is shown in front of all else, in a run that shows it. -/
theorem runExpression_told (context : Context) (untold : settings.showRpn = false)
    (expression : String)
    : let outcome := runExpression context .warning settings expression
      runExpression context .warning { settings with showRpn := true } expression
        = { outcome with stdout := rpnLine settings.mode expression ++ outcome.stdout } := by
  simp [runExpression_of_usual, untold]

open Dialogue in
/-- Of two runs at the usual level, whose settings differ in whether reverse Polish forms are shown,
the one that shows them only observes. On one expression it has the same exit code and errors, and
prints the form in front of what the other prints, whether or not there is a value. In a dialogue it
remembers the same, and prints the same answers, with the form of an expression that has one right
in front of its answer.
Witness: the conversion for the form fails exactly as the one in the evaluation does.
-/
theorem run_rpn_observes (context : Context) {arguments others : List String}
    (asked : Settings.ofArguments arguments = .ok settings) (untold : settings.showRpn = false)
    (usual : settings.level = some .warning)
    (askedMore : Settings.ofArguments others = .ok { settings with showRpn := true })
    : (∀ expression,
        settings.single? = some expression
        → ∀ unread, ∃ outcome,
            run context arguments unread = .ok outcome
            ∧ run context others unread
              = .ok { outcome with
                  stdout := rpnLine settings.mode expression ++ outcome.stdout })
      ∧ (settings.single? = none
        → ∀ text, ∃ lines : List String,
            Text.IsSplit text.toList (lines.map String.toList)
            ∧ let session : Session := { mode := settings.mode }
              let answers := answered settings.mode (linesRead lines)
              let farewell :=
                "calc> " ++ if lines.any asksToQuit then "Goodbye!\n" else "\nGoodbye!\n"
              run context arguments (.ok text)
                = .ok ⟨0,
                    Reply.welcome.text
                      ++ String.join (answers.map fun (_, answer) => "calc> " ++ answer)
                      ++ farewell,
                    ""⟩
              ∧ run context others (.ok text)
                = .ok ⟨0,
                    Reply.welcome.text
                      ++ String.join (answers.map fun (line, answer) =>
                        "calc> " ++ formText settings.mode line ++ answer)
                      ++ farewell,
                    ""⟩
              ∧ ∀ showRpn,
                  (hold ⟨showRpn, context.logger⟩ session (.ok text)).session
                    = { session with
                        history := remembered settings.mode (linesRead lines) }) := by
  have first := @run_of_usual context _ _ asked usual
  have second := @run_of_usual context _ _ askedMore usual
  have same : Settings.single? { settings with showRpn := true } = settings.single? := rfl
  refine ⟨fun expression single unread => ?_, fun dialogue text => ?_⟩
  · refine ⟨runExpression context .warning settings expression, ?_, ?_⟩
    · rw [first, single]
    · rw [second, same, single, ← runExpression_told context untold]
  · obtain ⟨lines, split⟩ := Text.exists_isSplit text
    refine ⟨lines, split, ?_, ?_, fun _ => session_hold split⟩
    · rw [first, dialogue]
      simp only [runDialogue_of_usual context _ split, untold, screen, printed,
        Bool.false_eq_true, if_false, String.append_empty, String.append_assoc]
    · rw [second, same, dialogue]
      simp only [runDialogue_of_usual context _ split, screen, printed, if_true,
        String.append_assoc]

/-- Without and with its form `2 3` is malformed, which the form does not hide. In a strict dialogue
one line does not convert, one converts and has no value, and one has a value.
-/
theorem run_rpn_observes_of_failures
    : let context : Context := ⟨"__main__", "2024-02-29 12:00:00,000"⟩
      let settings : Settings := { expression := some "2 3" }
      let talk : Settings := { mode := .strict }
      let text := "(1\n-5\n2*3\nhistory\nquit\n4"
      Settings.ofArguments ["2 3"] = .ok settings
      ∧ Settings.ofArguments ["2 3", "--rpn"] = .ok { settings with showRpn := true }
      ∧ (∃ outcome,
          run context ["2 3"] (.ok "") = .ok outcome
          ∧ run context ["2 3", "--rpn"] (.ok "")
            = .ok { outcome with stdout := rpnLine .lenient "2 3" ++ outcome.stdout })
      ∧ Settings.ofArguments ["--strict"] = .ok talk
      ∧ Settings.ofArguments ["--strict", "--rpn"] = .ok { talk with showRpn := true }
      ∧ run context ["--strict"] (.ok text)
        = .ok ⟨0,
            Dialogue.Reply.welcome.text
              ++ ("calc> Error: unmatched parenthesis\n\n"
                ++ "calc> Error: operator '-' is missing its left operand\n\n"
                ++ "calc> = 6.0\n\n"
                ++ "calc> \nRecent calculations:\n  2*3 = 6.0\n\n"
                ++ "calc> Goodbye!\n"),
            ""⟩
      ∧ run context ["--strict", "--rpn"] (.ok text)
        = .ok ⟨0,
            Dialogue.Reply.welcome.text
              ++ ("calc> Error: unmatched parenthesis\n\n"
                ++ "calc> rpn: 5 -\nError: operator '-' is missing its left operand\n\n"
                ++ "calc> rpn: 2 3 *\n= 6.0\n\n"
                ++ "calc> \nRecent calculations:\n  2*3 = 6.0\n\n"
                ++ "calc> Goodbye!\n"),
            ""⟩ := by
  intro context settings talk text
  have single : Settings.ofArguments ["2 3"] = .ok settings := by decide +kernel
  have singleTold : Settings.ofArguments ["2 3", "--rpn"] = .ok { settings with showRpn := true } :=
    by decide +kernel
  have dialogue : Settings.ofArguments ["--strict"] = .ok talk := by decide +kernel
  have dialogueTold
      : Settings.ofArguments ["--strict", "--rpn"] = .ok { talk with showRpn := true } := by
    decide +kernel
  obtain ⟨onExpression, _⟩ := run_rpn_observes context single rfl rfl singleTold
  obtain ⟨_, inDialogue⟩ := run_rpn_observes context dialogue rfl rfl dialogueTold
  obtain ⟨lines, split, quiet, told, _⟩ := inDialogue rfl text
  obtain rfl : ["(1", "-5", "2*3", "history", "quit", "4"] = lines :=
    Eq.trans (by decide +kernel) split.map_ofList
  exact ⟨single, singleTold, onExpression "2 3" rfl (.ok ""), dialogue, dialogueTold,
    quiet.trans (by decide +kernel), told.trans (by decide +kernel)⟩

end SciCalc.CommandLine
