import SciCalc.CommandLine
import SciCalc.Proofs.Dialogue.Stretch
import SciCalc.Proofs.Text.Lines

/-! Runs that hold a dialogue.

What such a run prints is told by the lines of its input: a welcome, the answers to the lines up to
the first request to quit, and a farewell. Nothing unexpected happens, so only events are logged.
-/

namespace SciCalc.CommandLine

variable {style : Dialogue.Style} {mode : Mode} {text : String} {lines : List String}

-----------------------------------------------------------------------------------------
-- What is logged
-----------------------------------------------------------------------------------------

/-- Events and failures are no warnings, so with the usual level none of them is logged. -/
theorem shown_warning_eq_empty {time : String} {records : List Log.Record}
    (quiet : ∀ record ∈ records, record.level = .debug ∨ record.level = .info)
    : Log.shown time .warning records = "" := by
  have none : records.filter (Log.Level.warning.rank ≤ ·.level.rank) = [] := by
    apply List.filter_eq_nil_iff.mpr
    intro record member
    rcases quiet record member with level | level <;> simp [level, Log.Level.rank]
  rw [Log.shown, none]
  rfl

theorem quiet_hold (style : Dialogue.Style) (session : Session) (text : String)
    : (Dialogue.hold style session (.ok text)).Quiet :=
  (Dialogue.quiet_answerAll style session _).after _ _

-----------------------------------------------------------------------------------------
-- What is printed and remembered
-----------------------------------------------------------------------------------------

theorem session_hold (split : Text.IsSplit text.toList (lines.map String.toList))
    : (Dialogue.hold style { mode } (.ok text)).session
      = { mode, history := Dialogue.remembered mode (Dialogue.linesRead lines) } := by
  rw [Dialogue.hold, split.map_ofList]
  exact Dialogue.session_answerAll style mode lines

theorem transcript_hold (split : Text.IsSplit text.toList (lines.map String.toList))
    : Dialogue.transcript (Dialogue.hold style { mode } (.ok text)).replies
      = Dialogue.screen style.showRpn mode lines := by
  rw [Dialogue.hold, split.map_ofList, ← Dialogue.transcript_answerAll]
  simp [Dialogue.Turn.after]

/-- A run on a text prints what the lines of the text tell, and shows the log from its level on. -/
theorem runDialogue_eq (context : Context) (level : Log.Level) (settings : Settings)
    (split : Text.IsSplit text.toList (lines.map String.toList))
    : let turn := Dialogue.hold (settings.style context) { mode := settings.mode } (.ok text)
      runDialogue context level settings (.ok text)
        = ⟨0, Dialogue.screen settings.showRpn settings.mode lines,
            Log.shown context.time level turn.records⟩ := by
  rw [runDialogue, transcript_hold split]
  rfl

/-- At the usual level nothing of the log is shown. -/
theorem runDialogue_of_usual (context : Context) (settings : Settings)
    (split : Text.IsSplit text.toList (lines.map String.toList))
    : runDialogue context .warning settings (.ok text)
      = ⟨0, Dialogue.screen settings.showRpn settings.mode lines, ""⟩ := by
  rw [runDialogue_eq context .warning settings split,
    shown_warning_eq_empty fun record member => .inl (quiet_hold _ _ text record member)]

open Dialogue in
/-- A run that holds a dialogue succeeds, whatever text it is held on. It prints the answers to the
lines in front of the first request to quit, or to all of them, and no line behind that has an
effect. After any of these lines the session remembers exactly the expressions with a value since it
was last made to forget. One that fails has one error printed, and nothing else changes. Nothing
unexpected is shown or logged.
Witness: the answer to one line, by induction from the end of the lines that are read.
-/
theorem run_prints_answers (context : Context) {arguments : List String} {settings : Settings}
    {level : Log.Level} (asked : Settings.ofArguments arguments = .ok settings)
    (logged : settings.requireLevel = .ok level) (dialogue : settings.single? = none)
    (text : String)
    : ∃ lines : List String,
        Text.IsSplit text.toList (lines.map String.toList)
        ∧ let style := settings.style context
          let session : Session := { mode := settings.mode }
          let turn := hold style session (.ok text)
          run context arguments (.ok text)
            = .ok ⟨0,
                Reply.welcome.text ++ printed settings.showRpn settings.mode (linesRead lines)
                  ++ "calc> " ++ (if lines.any asksToQuit then "Goodbye!\n" else "\nGoodbye!\n"),
                Log.shown context.time level turn.records⟩
          ∧ (∀ record ∈ turn.records, record.level = .debug)
          ∧ turn.session = { session with history := remembered settings.mode (linesRead lines) }
          ∧ (∀ before,
              before <+: linesRead lines
              → (answerAll style session before).session
                = { session with history := remembered settings.mode before })
          ∧ ∀ before line failure,
              isExpression line
              → (SciCalc.evaluate settings.mode (bareText line)).outcome = .error failure
              → printed settings.showRpn settings.mode (before ++ [line])
                  = printed settings.showRpn settings.mode before
                    ++ ("calc> "
                      ++ (if settings.showRpn then rpnLine settings.mode (bareText line) else "")
                      ++ ("Error: " ++ failure.message ++ "\n\n"))
                ∧ remembered settings.mode (before ++ [line])
                  = remembered settings.mode before := by
  obtain ⟨lines, split⟩ := Text.exists_isSplit text
  refine ⟨lines, split, ?_⟩
  intro style session turn
  refine ⟨?_, quiet_hold style session text, session_hold split, fun before first => ?_,
    fun before line failure asks failed => ⟨?_, ?_⟩⟩
  · simp only [run, asked, logged, dialogue]
    exact congrArg Except.ok (runDialogue_eq context level settings split)
  · rw [session_answerAll, linesRead_of_prefix first]
  · simp [printed_concat, formText, answerText, asks, failed, valueText]
  · simp [remembered_concat, not_asksToClear_of_isExpression asks, remembered?, failed,
      Except.toOption]

/-- A strict dialogue with reverse Polish forms, on lines with all three ends: one expression fails,
one is forgotten, and the last line is not read.
-/
theorem run_prints_answers_until_quit
    : let context : Context := ⟨"__main__", "2024-02-29 12:00:00,000"⟩
      let settings : Settings := { mode := .strict, showRpn := true }
      let text := "1+\r\n2*3\r clear \n4-1\nhistory\nEXIT\n5"
      Settings.ofArguments ["--rpn", "--strict"] = .ok settings
      ∧ settings.requireLevel = .ok .warning
      ∧ settings.single? = none
      ∧ run context ["--rpn", "--strict"] (.ok text)
        = .ok ⟨0,
            Dialogue.Reply.welcome.text
              ++ ("calc> rpn: 1 +\nError: operator '+' is missing its left operand\n\n"
                ++ "calc> rpn: 2 3 *\n= 6.0\n\n"
                ++ "calc> Cleared history\n\n"
                ++ "calc> rpn: 4 1 -\n= 3.0\n\n"
                ++ "calc> \nRecent calculations:\n  4-1 = 3.0\n\n"
                ++ "calc> Goodbye!\n"),
            ""⟩
      ∧ (Dialogue.hold (settings.style context) { mode := .strict } (.ok text)).session
        = { mode := .strict, history := [⟨"4-1", 3.0⟩] } := by
  intro context settings text
  have asked : Settings.ofArguments ["--rpn", "--strict"] = .ok settings := by decide +kernel
  refine ⟨asked, rfl, rfl, ?_⟩
  obtain ⟨lines, split, prints, logs, leaves, _⟩ := run_prints_answers context asked rfl rfl text
  obtain rfl : ["1+", "2*3", " clear ", "4-1", "history", "EXIT", "5"] = lines :=
    Eq.trans (by decide +kernel) split.map_ofList
  refine ⟨prints.trans ?_, leaves.trans (by decide +kernel)⟩
  rw [shown_warning_eq_empty fun record member => .inl (logs record member)]
  decide +kernel

end SciCalc.CommandLine
