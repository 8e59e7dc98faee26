import SciCalc.Evaluation

/-! Pulls: the ways to draw from one token stream, which may follow each other. -/

namespace SciCalc

/-- A way to draw from a stream. All but the first draw until the stream or they themselves
come to an end.
-/
inductive Pull where
  | next
  | rest
  /-- All tokens, as an infix expression brought into reverse Polish order. -/
  | rpn
  /-- All tokens, as an infix expression with a value. -/
  | value
  /-- All tokens, as a reverse Polish sequence with a value. -/
  | rpnValue
  /-- All tokens, as a reverse Polish sequence with an infix text. -/
  | infixText
  /-- All tokens, word by word. -/
  | words
  deriving DecidableEq, Repr

inductive Pulled where
  | next (token : Option Token)
  | tokens (tokens : List Token)
  | value (value : Float)
  | text (text : String)
  deriving DecidableEq

/-- Draws from a stream, and leaves the rest of it. -/
def Pull.draw (mode : Mode) (stream : TokenStream) : Pull → Drawn Pulled
  | .next => stream.next.andThen fun token => pure (.next token)
  | .rest => (Consumer.collect.draw stream).andThen fun tokens => pure (.tokens tokens)
  | .rpn => (Conversion.consumer.draw stream).andThen fun tokens => pure (.tokens tokens)
  | .value =>
      (Conversion.consumer.draw stream).andThen fun rpn => .value <$> SciCalc.rpnValue mode rpn
  | .rpnValue =>
      ((Algebra.value.consumer mode).draw stream).andThen fun value => pure (.value value)
  | .infixText =>
      ((Algebra.written.consumer mode).draw stream).andThen fun text => pure (.text text)
  | .words =>
      (Consumer.collect.draw stream).andThen fun tokens => pure (.text (rpnText tokens))

/-- Draws from a stream one way after another; each finds what the ones before it left. -/
def drawAll (mode : Mode) (stream : TokenStream) : List Pull → List (Traced Pulled)
  | [] => []
  | pull :: more =>
      let drawn := pull.draw mode stream
      drawn.result :: drawAll mode drawn.rest more

end SciCalc
