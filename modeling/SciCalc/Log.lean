import SciCalc.Rpn.Text
import SciCalc.Trace

/-! The log: records of what happened, and which of them are shown. -/

namespace SciCalc

def Event.message : Event → String
  | .skipped character position =>
      "Skipping unrecognized character " ++ Text.quoted (String.singleton character)
        ++ " at position " ++ toString position
  | .zeroSupplied operator position =>
      "Operator '" ++ operator ++ "' at position " ++ toString position
        ++ " has no left operand, using 0"
  | .converted expression rpn =>
      Text.quoted expression ++ " -> " ++ Text.quoted (rpnText rpn)
  | .evaluated expression value => Text.quoted expression ++ " = " ++ resultText value

namespace Log

/-- The levels, from the most talkative to the most silent. -/
inductive Level where
  | debug
  | info
  | warning
  | error
  | critical
  deriving DecidableEq, Repr

namespace Level

def all : List Level :=
  [.debug, .info, .warning, .error, .critical]

def name : Level → String
  | .debug => "DEBUG"
  | .info => "INFO"
  | .warning => "WARNING"
  | .error => "ERROR"
  | .critical => "CRITICAL"

/-- The rank of a level: records are shown from some rank on. -/
def rank : Level → Nat
  | .debug => 10
  | .info => 20
  | .warning => 30
  | .error => 40
  | .critical => 50

def ofName? (name : String) : Option Level :=
  all.find? fun level => level.name == name

theorem ofName?_name (level : Level) : ofName? level.name = some level := by
  cases level <;> decide

end Level

structure Record where
  level : Level
  logger : String
  message : String
  deriving DecidableEq, Repr

def Record.line (time : String) (record : Record) : String :=
  time ++ " - " ++ record.logger ++ " - " ++ record.level.name ++ " - " ++ record.message ++ "\n"

def engineLogger : String := "calc_engine"

/-- Events are logged at the lowest level. -/
def recordOf (event : Event) : Record :=
  ⟨.debug, engineLogger, event.message⟩

/-- The lines of the records that a level lets through. -/
def shown (time : String) (level : Level) (records : List Record) : String :=
  String.join ((records.filter (level.rank ≤ ·.level.rank)).map (·.line time))

end Log

end SciCalc
