import SciCalc.Trace

/-! Token streams: what a scan has yet to deliver.

Consumers share a stream. Each takes tokens from its head, one at a time, and leaves the rest
to the next: a consumer that fails at a token leaves what follows that token, and a failure of
the scan itself leaves nothing.
-/

namespace SciCalc

/-- The tokens still to come, with the characters passed over between them. -/
inductive TokenStream where
  | done
  /-- The scan fails, and delivers nothing more. -/
  | fault (failure : Failure)
  | skip (character : Char) (position : Nat) (rest : TokenStream)
  | deliver (token : Token) (rest : TokenStream)
  deriving DecidableEq

/-- What a consumer made of a stream, and what it left. -/
structure Drawn (α : Type) where
  result : Traced α
  rest : TokenStream

/-- What is made of a stream, handed on to a further computation. -/
def Drawn.andThen {α β : Type} (drawn : Drawn α) (further : α → Traced β) : Drawn β :=
  ⟨drawn.result >>= further, drawn.rest⟩

/-- A consumer of tokens: a state, how a token changes it, and what is made of it when no
tokens are left.
-/
structure Consumer (σ α : Type) where
  start : σ
  step : σ → Token → Traced σ
  finish : σ → Except Failure α

namespace TokenStream

def ofList : List Token → TokenStream
  | [] => .done
  | token :: rest => .deliver token (ofList rest)

/-- The tokens that a stream delivers before it ends or fails. -/
def tokens : TokenStream → List Token
  | .done | .fault _ => []
  | .skip _ _ rest => rest.tokens
  | .deliver token rest => token :: rest.tokens

/-- The failure that a stream ends with, if it does. -/
def failure? : TokenStream → Option Failure
  | .done => none
  | .fault failure => some failure
  | .skip _ _ rest | .deliver _ rest => rest.failure?

/-- The next token, or none at the end. -/
def next : TokenStream → Drawn (Option Token)
  | .done => ⟨pure none, .done⟩
  | .fault failure => ⟨.fail failure, .done⟩
  | .skip character position rest =>
      let drawn := rest.next
      ⟨drawn.result.after [.skipped character position], drawn.rest⟩
  | .deliver token rest => ⟨pure (some token), rest⟩

end TokenStream

namespace Consumer

variable {σ α : Type}

/-- A consumer at work on a list of tokens. -/
def run (consumer : Consumer σ α) (tokens : List Token) : Traced α := do
  let state ← tokens.foldlM consumer.step consumer.start
  consumer.finish state

/-- A consumer in some state at work on a stream. -/
def drawFrom (consumer : Consumer σ α) (state : σ) : TokenStream → Drawn α
  | .done => ⟨.ofExcept (consumer.finish state), .done⟩
  | .fault failure => ⟨.fail failure, .done⟩
  | .skip character position rest =>
      let drawn := consumer.drawFrom state rest
      ⟨drawn.result.after [.skipped character position], drawn.rest⟩
  | .deliver token rest =>
      let stepped := consumer.step state token
      match stepped.outcome with
      | .error failure => ⟨⟨stepped.events, .error failure⟩, rest⟩
      | .ok state =>
          let drawn := consumer.drawFrom state rest
          ⟨drawn.result.after stepped.events, drawn.rest⟩

def draw (consumer : Consumer σ α) (stream : TokenStream) : Drawn α :=
  consumer.drawFrom consumer.start stream

/-- The consumer that takes every token and keeps it. -/
def collect : Consumer (List Token) (List Token) where
  start := []
  step kept token := pure (token :: kept)
  finish kept := .ok kept.reverse

/-- On the stream of a list, drawing is running, by induction on the list. -/
theorem drawFrom_ofList (consumer : Consumer σ α) (state : σ) (tokens : List Token)
    : (consumer.drawFrom state (.ofList tokens)).result
      = (do consumer.finish (← tokens.foldlM consumer.step state)) := by
  induction tokens generalizing state with
  | nil => rfl
  | cons token rest ih =>
      simp only [TokenStream.ofList, drawFrom, List.foldlM_cons]
      change _ = Traced.andThen (Traced.andThen _ _) _
      cases h : (consumer.step state token).outcome with
      | error failure => simp [Traced.andThen, h]
      | ok next =>
          simp only [ih, Traced.andThen, h]
          change Traced.after _ (Traced.andThen _ _) = _
          simp only [Traced.andThen, Traced.after]
          split <;> simp_all [List.append_assoc]

end Consumer

end SciCalc
