import SciCalc.CommandLine
import Std.Time.Format
import Std.Time.Zoned

/-! The program: arguments and streams handed to the calculator. -/

namespace SciCalc.Program

def now : IO String := do
  return (← Std.Time.PlainDateTime.now).format "uuuu-MM-dd HH:mm:ss,SSS"

def logger : String := "__main__"

/-- Shows what a stretch of a dialogue has to say. -/
def showTurn (level : Log.Level) (turn : Dialogue.Turn) : IO Unit := do
  let output ← IO.getStdout
  output.putStr (Dialogue.transcript turn.replies)
  output.flush
  (← IO.getStderr).putStr (Log.shown (← now) level turn.records)

/-- Holds a dialogue with a terminal: every line is answered before the next one is read. -/
partial def converse (level : Log.Level) (style : Dialogue.Style) (session : Session)
    : IO Unit := do
  showTurn level { replies := [.prompt], records := [], session := session }
  let line ← (← IO.getStdin).getLine
  if line.isEmpty then
    showTurn level { replies := [.endOfInput], records := [], session := session }
  else
    let turn := Dialogue.answer style session line
    showTurn level turn
    if turn.ended then return else converse level style turn.session

/-- Shows what a run came to, and gives its exit code. -/
def showRun : Except CommandLine.Breakdown CommandLine.Outcome → IO UInt32
  | .ok outcome => do
      (← IO.getStdout).putStr outcome.stdout
      (← IO.getStderr).putStr outcome.stderr
      return UInt32.ofNat outcome.exit
  | .error breakdown => do
      (← IO.getStderr).putStr (breakdown.message ++ "\n")
      return 1

/-- A run on the arguments. Only a dialogue reads its input: line by line from a terminal, and as a
whole from anything else.
-/
def run (arguments : List String) : IO UInt32 := do
  let context : CommandLine.Context := ⟨logger, ← now⟩
  match CommandLine.dialogue? arguments with
  | none => showRun (CommandLine.run context arguments (.ok ""))
  | some (level, settings) =>
      let input ← IO.getStdin
      if ← input.isTty then
        let session : Session := { mode := settings.mode }
        showTurn level { replies := [.welcome], records := [], session := session }
        converse level (settings.style context) session
        return 0
      else
        let bytes ← input.readBinToEnd
        showRun (CommandLine.run context arguments (Text.Utf8.decode bytes.toList))

end SciCalc.Program

def main (arguments : List String) : IO UInt32 :=
  SciCalc.Program.run arguments
