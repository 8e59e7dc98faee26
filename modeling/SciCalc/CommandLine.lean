import SciCalc.CommandLine.Settings
import SciCalc.CommandLine.Usage
import SciCalc.Dialogue

/-! The command line: one expression answered, or a dialogue held. -/

namespace SciCalc.CommandLine

structure Outcome where
  exit : Nat
  stdout : String
  stderr : String
  deriving DecidableEq, Repr

/-- Where and when a run logs. -/
structure Context where
  logger : String
  time : String

/-- Why a run breaks off before it does anything. -/
inductive Breakdown where
  /-- The arguments took the level of the log away. -/
  | noLevel
  deriving DecidableEq, Repr

def Breakdown.message : Breakdown → String
  | .noLevel => "'list' object has no attribute 'upper'"

/-- What ends a run before it starts: help succeeds, and an error shows the usage with it. -/
def Stop.outcome : Stop → Outcome
  | .help => ⟨0, helpText, ""⟩
  | .usage error => ⟨2, "", usageText ++ "calc: error: " ++ error.message ++ "\n"⟩

/-- What stands before the value of an expression: its reverse Polish form, if that is wanted. -/
def preamble (settings : Settings) (session : Session) (expression : String) : Traced String :=
  if settings.showRpn then do return "rpn: " ++ (← session.rpn expression) ++ "\n" else pure ""

/-- A run on one expression, its log shown from a level on. -/
def runExpression (context : Context) (level : Log.Level) (settings : Settings)
    (expression : String)
    : Outcome :=
  let session : Session := { mode := settings.mode }
  let before := preamble settings session expression
  let computation : Traced Float := do
    let _ ← before
    (session.evaluate expression).1
  let records := computation.events.map Log.recordOf
  let shown := before.outcome.toOption.getD ""
  match computation.outcome with
  | .ok value =>
      ⟨0, shown ++ resultText value ++ "\n", Log.shown context.time level records⟩
  | .error failure =>
      let record : Log.Record :=
        ⟨.info, context.logger,
          "Evaluation of " ++ Text.quoted expression ++ " failed: " ++ failure.message⟩
      ⟨1, shown,
        Log.shown context.time level (records ++ [record])
          ++ "Error: " ++ failure.message ++ "\n"⟩

/-- The style of the dialogue that settings ask for. -/
def Settings.style (settings : Settings) (context : Context) : Dialogue.Style :=
  ⟨settings.showRpn, context.logger⟩

/-- A run that holds a dialogue, its log shown from a level on. -/
def runDialogue (context : Context) (level : Log.Level) (settings : Settings)
    (input : Dialogue.Input)
    : Outcome :=
  let turn := Dialogue.hold (settings.style context) { mode := settings.mode } input
  ⟨0, Dialogue.transcript turn.replies, Log.shown context.time level turn.records⟩

/-- The expression to answer, unless a dialogue is asked for. -/
def Settings.single? (settings : Settings) : Option String :=
  if settings.interactive then none else settings.expression

def Settings.requireLevel (settings : Settings) : Except Breakdown Log.Level :=
  settings.level.elim (.error .noLevel) .ok

/-- A run of the calculator on its arguments and its input. -/
def run (context : Context) (arguments : List String) (input : Dialogue.Input)
    : Except Breakdown Outcome :=
  match Settings.ofArguments arguments with
  | .error stop => .ok stop.outcome
  | .ok settings => do
      let level ← settings.requireLevel
      match settings.single? with
      | some expression => return runExpression context level settings expression
      | none => return runDialogue context level settings input

/-- The level and the settings of the dialogue that arguments ask for, if they ask for one. -/
def dialogue? (arguments : List String) : Option (Log.Level × Settings) := do
  let settings ← (Settings.ofArguments arguments).toOption
  let level ← settings.level
  if settings.single?.isSome then none else some (level, settings)

end SciCalc.CommandLine
