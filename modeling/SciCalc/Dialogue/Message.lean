import SciCalc.Number.Text
import SciCalc.Text.Character

/-! Messages: what a line of a dialogue asks for, and what a dialogue shows. -/

namespace SciCalc.Dialogue

inductive Command where
  /-- A blank line asks for nothing. -/
  | nothing
  | quit
  | help
  | history
  | clear
  /-- Any line that is no command word is an expression. -/
  | evaluate (expression : String)
  deriving DecidableEq, Repr

namespace Command

def words : List (String × Command) :=
  [("quit", .quit), ("exit", .quit), ("help", .help), ("history", .history), ("clear", .clear)]

/-- Blanks at the ends of a line do not count, and neither does the case of a command word. No
letter beyond ASCII has a letter of these words as its lowercase.
-/
def ofLine (line : String) : Command :=
  let text := Text.strip line.toList
  if text.isEmpty then .nothing
  else (words.lookup (String.ofList (text.map Char.toLower))).getD (.evaluate (String.ofList text))

end Command

inductive Reply where
  | welcome
  | prompt
  | help
  | history (lines : String)
  | noHistory
  | cleared
  | rpn (text : String)
  | value (value : Float)
  | failure (message : String)
  | unexpected (message : String)
  /-- The answer to a request to quit. -/
  | goodbye
  /-- What is shown when there is nothing more to read. -/
  | endOfInput
  deriving DecidableEq

def Reply.text : Reply → String
  | .welcome =>
      let rule := String.ofList (List.replicate 60 '=') ++ "\n"
      rule ++ "SCIENTIFIC CALCULATOR\n" ++ rule ++ "Type 'help' for usage, 'quit' to exit.\n\n"
  | .prompt => "calc> "
  | .help =>
      "\nOperators: + - * / ^ (all left-associative, ^ binds tightest)\n"
        ++ "Functions: sin cos tan (degrees), log (base 10), sqrt\n"
        ++ "Examples:  3+4*2   (3+4)*2   sqrt(16)   sin(30)   (0-5)*2\n"
        ++ "\nCommands:\n"
        ++ "  help     - Show this help\n"
        ++ "  history  - Show calculation history\n"
        ++ "  clear    - Clear history\n"
        ++ "  quit     - Exit calculator\n\n"
  | .history lines => "\nRecent calculations:\n" ++ lines ++ "\n"
  | .noHistory => "No history yet\n\n"
  | .cleared => "Cleared history\n\n"
  | .rpn text => "rpn: " ++ text ++ "\n"
  | .value x => "= " ++ resultText x ++ "\n\n"
  | .failure message => "Error: " ++ message ++ "\n\n"
  | .unexpected message => "Unexpected error: " ++ message ++ "\n\n"
  | .goodbye => "Goodbye!\n"
  | .endOfInput => "\nGoodbye!\n"

/-- What a dialogue prints, one reply after another. -/
def transcript (replies : List Reply) : String :=
  String.join (replies.map Reply.text)

@[simp] theorem Reply.text_prompt : Reply.prompt.text = "calc> " := rfl

@[simp] theorem Reply.text_history (lines : String)
    : (Reply.history lines).text = "\nRecent calculations:\n" ++ lines ++ "\n" :=
  rfl

@[simp] theorem Reply.text_noHistory : Reply.noHistory.text = "No history yet\n\n" := rfl

@[simp] theorem Reply.text_cleared : Reply.cleared.text = "Cleared history\n\n" := rfl

@[simp] theorem Reply.text_rpn (text : String) : (Reply.rpn text).text = "rpn: " ++ text ++ "\n" :=
  rfl

@[simp] theorem Reply.text_value (x : Float)
    : (Reply.value x).text = "= " ++ resultText x ++ "\n\n" :=
  rfl

@[simp] theorem Reply.text_failure (message : String)
    : (Reply.failure message).text = "Error: " ++ message ++ "\n\n" :=
  rfl

@[simp] theorem Reply.text_goodbye : Reply.goodbye.text = "Goodbye!\n" := rfl

@[simp] theorem Reply.text_endOfInput : Reply.endOfInput.text = "\nGoodbye!\n" := rfl

@[simp] theorem transcript_nil : transcript [] = "" := rfl

@[simp] theorem transcript_cons (reply : Reply) (more : List Reply)
    : transcript (reply :: more) = reply.text ++ transcript more := by
  simp [transcript]

@[simp] theorem transcript_append (replies more : List Reply)
    : transcript (replies ++ more) = transcript replies ++ transcript more := by
  simp [transcript]

end SciCalc.Dialogue
