import SciCalc.Dialogue.Message
import SciCalc.Log
import SciCalc.Session
import SciCalc.Text.Input

/-! The dialogue: a session that is led line by line. -/

namespace SciCalc.Dialogue

/-- How a dialogue is led. -/
structure Style where
  /-- Whether the reverse Polish form of an expression is shown before its value. -/
  showRpn : Bool
  logger : String

/-- What happened in a stretch of a dialogue, and the session after it. -/
structure Turn where
  replies : List Reply
  records : List Log.Record
  session : Session
  ended : Bool := false

/-- A dialogue goes on after something that nobody expects. -/
def unexpected (style : Style) (session : Session) (message : String) : Turn where
  replies := [.unexpected message]
  records := [⟨.error, style.logger, "Unexpected error in main loop: " ++ message⟩]
  session := session

/-- A failure is shown; only one of a name that no expression can hold is unexpected. -/
def failed (style : Style) (session : Session) (failure : Failure) : Turn :=
  match failure.kind with
  | .ofSyntax | .ofEvaluation =>
      { replies := [.failure failure.message], records := [], session := session }
  | .ofLookup => unexpected style session failure.message

def Turn.after (replies : List Reply) (events : List Event) (turn : Turn) : Turn :=
  { turn with
    replies := replies ++ turn.replies
    records := events.map Log.recordOf ++ turn.records }

def Turn.followedBy (first second : Turn) : Turn where
  replies := first.replies ++ second.replies
  records := first.records ++ second.records
  session := second.session
  ended := second.ended

/-- The value of an expression. -/
def answerValue (style : Style) (session : Session) (expression : String) : Turn :=
  let (computation, next) := session.evaluate expression
  let turn : Turn :=
    match computation.outcome with
    | .ok value => { replies := [.value value], records := [], session := next }
    | .error failure => failed style next failure
  turn.after [] computation.events

/-- The value of an expression, after its reverse Polish form if that is wanted. -/
def answerExpression (style : Style) (session : Session) (expression : String) : Turn :=
  if style.showRpn then
    let computation := session.rpn expression
    match computation.outcome with
    | .ok text => (answerValue style session expression).after [.rpn text] computation.events
    | .error failure => (failed style session failure).after [] computation.events
  else answerValue style session expression

def historyCount : Int := 10

/-- The answer to one line. -/
def answer (style : Style) (session : Session) (line : String) : Turn :=
  match Command.ofLine line with
  | .nothing => { replies := [], records := [], session := session }
  | .quit => { replies := [.goodbye], records := [], session := session, ended := true }
  | .help => { replies := [.help], records := [], session := session }
  | .history =>
      let reply :=
        if session.history.isEmpty then .noHistory
        else .history (session.recentText historyCount)
      { replies := [reply], records := [], session := session }
  | .clear => { replies := [.cleared], records := [], session := session.clear }
  | .evaluate expression => answerExpression style session expression

/-- The answers to lines one after another, up to the end of the dialogue. -/
def answerAll (style : Style) (session : Session) : List String → Turn
  | [] =>
      { replies := [.prompt, .endOfInput], records := [], session := session, ended := true }
  | line :: rest =>
      let turn := (answer style session line).after [.prompt] []
      if turn.ended then turn else turn.followedBy (answerAll style turn.session rest)

/-- What a dialogue reads: lines, or bytes that are no text. -/
abbrev Input := Except Text.Utf8.Fault String

/-- A whole dialogue. Input that is no text is lost at the first attempt to read it. -/
def hold (style : Style) (session : Session) (input : Input) : Turn :=
  let turn := match input with
    | .ok text => answerAll style session ((Text.lines text.toList).map String.ofList)
    | .error fault =>
        let lost := (unexpected style session fault.message).after [.prompt] []
        lost.followedBy (answerAll style lost.session [])
  turn.after [.welcome] []

end SciCalc.Dialogue
