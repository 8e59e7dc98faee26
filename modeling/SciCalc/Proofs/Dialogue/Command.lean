import Mathlib.Data.List.DropRight
import SciCalc.Dialogue.Message

/-! What the lines of a dialogue ask for, by their texts.

The blanks at the ends of a line do not count. What is left is a command word in some letter case,
or nothing, or an expression.
-/

namespace SciCalc.Dialogue

/-- The text of a line, without the blanks at its ends. -/
def bareText (line : String) : String :=
  String.ofList ((line.toList.dropWhile Text.isBlank).rdropWhile Text.isBlank)

/-- The text of a line in lowercase. -/
def loweredText (line : String) : String :=
  String.ofList ((bareText line).toList.map Char.toLower)

def asksToQuit (line : String) : Bool :=
  loweredText line ∈ ["quit", "exit"]

def asksToClear (line : String) : Bool :=
  loweredText line = "clear"

/-- A line is an expression unless it is blank or a command word in some letter case. -/
def isExpression (line : String) : Bool :=
  bareText line ≠ "" ∧ loweredText line ∉ ["quit", "exit", "help", "history", "clear"]

/-- What a line asks for, as its text says it. -/
inductive Asks (line : String) : Command → Prop
  | nothing (blank : bareText line = "") (word : loweredText line = "") : Asks line .nothing
  | quit (word : loweredText line ∈ ["quit", "exit"]) : Asks line .quit
  | help (word : loweredText line = "help") : Asks line .help
  | history (word : loweredText line = "history") : Asks line .history
  | clear (word : loweredText line = "clear") : Asks line .clear
  | evaluate (expression : isExpression line) : Asks line (.evaluate (bareText line))

theorem bareText_eq (line : String) : bareText line = String.ofList (Text.strip line.toList) := rfl

/-- A line asks for what its text says. Witness: the words and what they stand for, one by one. -/
theorem asks_ofLine (line : String) : Asks line (Command.ofLine line) := by
  unfold Command.ofLine
  cases bare : Text.strip line.toList with
  | nil => exact .nothing (by simp [bareText_eq, bare]) (by simp [loweredText, bareText_eq, bare])
  | cons c rest =>
      simp only [List.isEmpty_cons, Bool.false_eq_true, if_false]
      have lowered
          : String.ofList ((Text.strip line.toList).map Char.toLower) = loweredText line := by
        simp [loweredText, bareText_eq]
      rw [← bare, lowered, ← bareText_eq]
      cases found : Command.words.lookup (loweredText line) with
      | none =>
          have noWord := List.lookup_eq_none_iff.mp found
          refine .evaluate ?_
          simp only [Command.words, List.forall_mem_cons, bne_iff_ne] at noWord
          simp [isExpression, bareText_eq, bare, noWord]
      | some command =>
          obtain ⟨before, after, split, _⟩ := List.lookup_eq_some_iff.mp found
          have member : (loweredText line, command) ∈ Command.words := by simp [split]
          simp only [Command.words, List.mem_cons, Prod.mk.injEq, List.not_mem_nil, or_false]
            at member
          rcases member with ⟨word, rfl⟩ | ⟨word, rfl⟩ | ⟨word, rfl⟩ | ⟨word, rfl⟩ | ⟨word, rfl⟩
          · exact .quit (by simp [word])
          · exact .quit (by simp [word])
          · exact .help word
          · exact .history word
          · exact .clear word

variable {line : String}

/-- Requests to quit are the lines that are a word for it, by cases on what a line asks for. -/
theorem ofLine_eq_quit_iff : Command.ofLine line = .quit ↔ asksToQuit line := by
  have asked := asks_ofLine line
  generalize Command.ofLine line = command at asked
  cases asked with
  | nothing _ word | quit word | help word | history word | clear word =>
      simp_all [asksToQuit]
  | evaluate expression => simp_all [asksToQuit, isExpression]

theorem ofLine_eq_clear_iff : Command.ofLine line = .clear ↔ asksToClear line := by
  have asked := asks_ofLine line
  generalize Command.ofLine line = command at asked
  cases asked with
  | nothing _ word | help word | history word | clear word => simp [asksToClear, word]
  | quit word => rcases List.mem_pair.mp word with word | word <;> simp [asksToClear, word]
  | evaluate expression => simp_all [asksToClear, isExpression]

/-- Only a line that is an expression asks for its value, and then for that of its text. -/
theorem ofLine_eq_evaluate_iff {expression : String}
    : Command.ofLine line = .evaluate expression
      ↔ isExpression line ∧ bareText line = expression := by
  have asked := asks_ofLine line
  generalize Command.ofLine line = command at asked
  cases asked with
  | nothing blank => simp [isExpression, blank]
  | quit word => rcases List.mem_pair.mp word with word | word <;> simp [isExpression, word]
  | help word | history word | clear word => simp [isExpression, word]
  | evaluate asks => simp [asks]

theorem not_asksToQuit_of_isExpression (asks : isExpression line) : asksToQuit line = false := by
  have evaluates := ofLine_eq_evaluate_iff.mpr ⟨asks, rfl⟩
  simpa [evaluates] using @ofLine_eq_quit_iff line

theorem not_asksToClear_of_isExpression (asks : isExpression line) : asksToClear line = false := by
  have evaluates := ofLine_eq_evaluate_iff.mpr ⟨asks, rfl⟩
  simpa [evaluates] using @ofLine_eq_clear_iff line

end SciCalc.Dialogue
