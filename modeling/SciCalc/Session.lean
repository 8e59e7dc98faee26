import SciCalc.Evaluation

/-! Sessions: evaluations one after another, and the memory of those that succeeded. -/

namespace SciCalc

structure Entry where
  expression : String
  value : Float
  deriving DecidableEq

def Entry.line (entry : Entry) : String :=
  "  " ++ entry.expression ++ " = " ++ resultText entry.value ++ "\n"

/-- A session keeps its mode, and its entries from the oldest to the latest. -/
structure Session where
  mode : Mode
  history : List Entry := []
  deriving DecidableEq

namespace Session

/-- Evaluates an expression, and remembers it if it has a value. -/
def evaluate (session : Session) (expression : String) : Traced Float × Session :=
  let computation := SciCalc.evaluate session.mode expression
  match computation.outcome with
  | .ok value =>
      (computation, { session with history := session.history ++ [⟨expression, value⟩] })
  | .error _ => (computation, session)

def rpn (session : Session) (expression : String) : Traced String := do
  return rpnText (← toRpn session.mode expression)

/-- The latest entries, as many as a positive number says; zero asks for all of them, and a
negative number for all but as many of the oldest.
-/
def recent (session : Session) (count : Int) : List Entry :=
  if 0 < count then session.history.drop (session.history.length - count.toNat)
  else session.history.drop count.natAbs

/-- The lines of the latest entries. -/
def recentText (session : Session) (count : Int) : String :=
  String.join ((session.recent count).map Entry.line)

def clear (session : Session) : Session :=
  { session with history := [] }

inductive Request where
  | evaluate (expression : String)
  | rpn (expression : String)
  | recent (count : Int)
  | clear
  deriving DecidableEq, Repr

/-- What a session answers, when nothing fails. -/
inductive Answer where
  | value (value : Float)
  | text (text : String)
  | cleared
  deriving DecidableEq

/-- The answer to a request, and the session after it. -/
def perform (session : Session) : Request → Except Failure Answer × Session
  | .evaluate expression =>
      let (computation, next) := session.evaluate expression
      (computation.outcome.map .value, next)
  | .rpn expression => ((session.rpn expression).outcome.map .text, session)
  | .recent count => (.ok (.text (session.recentText count)), session)
  | .clear => (.ok .cleared, session.clear)

/-- Only a value is remembered, by cases on the outcome. -/
theorem history_evaluate (session : Session) (expression : String)
    : (session.evaluate expression).2.history
      = session.history ++ match (SciCalc.evaluate session.mode expression).outcome with
        | .ok value => [⟨expression, value⟩]
        | .error _ => [] := by
  unfold evaluate
  split <;> simp_all

end Session

end SciCalc
