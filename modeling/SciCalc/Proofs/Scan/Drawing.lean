import SciCalc.Evaluation

/-! Drawing from a stream and working on a list: the stages of an evaluation, one by one.

A consumer that succeeds on a stream has met no failure of it, and has done what it would have
done on the list of the tokens. So an expression has a value exactly if its scan is complete,
its tokens convert, and the reverse Polish sequence has that value.
-/

namespace SciCalc

variable {σ α : Type}

-----------------------------------------------------------------------------------------
-- Streams and lists
-----------------------------------------------------------------------------------------

/-- What a consumer makes of the last state on a stream: nothing, if the stream failed. -/
def Consumer.conclude (consumer : Consumer σ α) (stream : TokenStream) (last : σ)
    : Except Failure α :=
  match stream.failure? with
  | some failure => .error failure
  | none => consumer.finish last

/-- A consumer takes the tokens of a stream one by one, and meets the stream's failure only
behind all of them. Witness: induction on the stream; what is passed over changes no state.
-/
theorem Consumer.outcome_drawFrom_eq (consumer : Consumer σ α) (state : σ)
    (stream : TokenStream)
    : (consumer.drawFrom state stream).result.outcome
      = (stream.tokens.foldlM consumer.step state).outcome >>= consumer.conclude stream := by
  induction stream generalizing state with
  | done => rfl
  | fault failure => rfl
  | skip character position rest ih => exact ih state
  | deliver token rest ih =>
      simp only [drawFrom, TokenStream.tokens, List.foldlM_cons, Traced.outcome_bind]
      cases stepped : (consumer.step state token).outcome with
      | error failure => rfl
      | ok next => exact ih next

/-- A stream that fails lets no consumer succeed. -/
theorem Consumer.failure?_eq_none {consumer : Consumer σ α} {state : σ} {stream : TokenStream}
    {a : α} (drawn : (consumer.drawFrom state stream).result.outcome = .ok a)
    : stream.failure? = none := by
  rw [outcome_drawFrom_eq] at drawn
  obtain ⟨last, _, concluded⟩ := Failure.bind_eq_ok_iff.mp drawn
  simp only [conclude] at concluded
  split at concluded
  · cases concluded
  · assumption

/-- On a stream that does not fail a consumer makes what it makes of the list of tokens. -/
theorem Consumer.outcome_drawFrom {consumer : Consumer σ α} {state : σ} {stream : TokenStream}
    (complete : stream.failure? = none)
    : (consumer.drawFrom state stream).result.outcome
      = (stream.tokens.foldlM consumer.step state).outcome >>= consumer.finish := by
  have concludes : consumer.conclude stream = consumer.finish := by
    funext last
    rw [conclude, complete]
  rw [outcome_drawFrom_eq, concludes]

/-- A consumer whose steps are silent tells of nothing but characters passed over.
Witness: induction on the stream.
-/
theorem Consumer.exists_skipped {consumer : Consumer σ α}
    (silent : ∀ state token, (consumer.step state token).events = [])
    {state : σ} {stream : TokenStream} {event : Event}
    (told : event ∈ (consumer.drawFrom state stream).result.events)
    : ∃ character position, event = .skipped character position := by
  induction stream generalizing state with
  | done => simp [drawFrom, Traced.ofExcept] at told
  | fault failure => simp [drawFrom, Traced.fail, Traced.ofExcept] at told
  | skip character position rest ih =>
      rcases List.mem_cons.mp told with rfl | later
      · exact ⟨character, position, rfl⟩
      · exact ih later
  | deliver token rest ih =>
      simp only [drawFrom] at told
      cases stepped : (consumer.step state token).outcome with
      | error failure => simp [stepped, silent] at told
      | ok next =>
          simp only [stepped, silent, Traced.after, List.nil_append] at told
          exact ih told

theorem Consumer.foldlM_collect (kept tokens : List Token)
    : tokens.foldlM Consumer.collect.step kept = pure (tokens.reverse ++ kept) := by
  induction tokens generalizing kept with
  | nil => rfl
  | cons token rest ih =>
      rw [List.foldlM_cons]
      change (pure (token :: kept) >>= fun state => rest.foldlM collect.step state) = _
      rw [pure_bind, ih]
      simp

theorem Traced.foldlM_ofExcept (step : σ → Token → Except Failure σ) (tokens : List Token)
    (state : σ)
    : tokens.foldlM (fun state token => Traced.ofExcept (step state token)) state
      = Traced.ofExcept (tokens.foldlM step state) := by
  induction tokens generalizing state with
  | nil => rfl
  | cons token rest ih =>
      simp only [List.foldlM_cons, ih]
      cases step state token <;> rfl

-----------------------------------------------------------------------------------------
-- Stages of an evaluation
-----------------------------------------------------------------------------------------

variable {mode : Mode} {expression : String}

/-- An expression has the tokens that its scan delivers, unless the scan fails. -/
theorem outcome_tokenize (mode : Mode) (expression : String)
    : (tokenize mode expression).outcome
      = match (scan mode expression).failure? with
        | some failure => .error failure
        | none => .ok (scan mode expression).tokens := by
  refine (Consumer.outcome_drawFrom_eq _ _ _).trans ?_
  rw [Consumer.foldlM_collect]
  change Consumer.collect.conclude (scan mode expression) _ = _
  rw [Consumer.conclude]
  split <;> simp [Consumer.collect]

/-- An expression has tokens exactly if its scan delivers them without a failure. -/
theorem outcome_tokenize_eq_ok_iff {tokens : List Token}
    : (tokenize mode expression).outcome = .ok tokens
      ↔ (scan mode expression).failure? = none ∧ (scan mode expression).tokens = tokens := by
  rw [outcome_tokenize]
  split <;> simp [*]

/-- A stream is converted token by token, and its failure is met behind all of them. -/
theorem outcome_draw_conversion_eq (stream : TokenStream)
    : (Conversion.consumer.draw stream).result.outcome
      = stream.tokens.foldlM Conversion.step .start
        >>= Conversion.consumer.conclude stream := by
  refine (Consumer.outcome_drawFrom_eq _ _ _).trans ?_
  simp only [Conversion.consumer, Traced.foldlM_ofExcept]
  rfl

/-- A stream without a failure is converted as the list of its tokens is. -/
theorem outcome_draw_conversion {stream : TokenStream} (complete : stream.failure? = none)
    : (Conversion.consumer.draw stream).result.outcome = convert stream.tokens := by
  refine (Consumer.outcome_drawFrom complete).trans ?_
  simp only [Conversion.consumer, Traced.foldlM_ofExcept]
  rfl

/-- A list put into a stream is converted as the list is, and nothing is told of it. -/
theorem draw_conversion_ofList (tokens : List Token)
    : (Conversion.consumer.draw (.ofList tokens)).result = .ofExcept (convert tokens) := by
  rw [Consumer.draw, Consumer.drawFrom_ofList]
  change (tokens.foldlM (fun state token => Traced.ofExcept (Conversion.step state token)) .start
    >>= fun state => Traced.ofExcept state.finish) = _
  rw [Traced.foldlM_ofExcept, convert]
  cases tokens.foldlM Conversion.step .start <;> rfl

/-- An expression converts exactly if its scan is complete and its tokens convert. -/
theorem outcome_toRpn_eq_ok_iff {rpn : List Token}
    : (toRpn mode expression).outcome = .ok rpn
      ↔ (scan mode expression).failure? = none
        ∧ convert (scan mode expression).tokens = .ok rpn := by
  constructor
  · intro succeeds
    have complete := Consumer.failure?_eq_none succeeds
    exact ⟨complete, (outcome_draw_conversion complete).symm.trans succeeds⟩
  · rintro ⟨complete, converts⟩
    exact (outcome_draw_conversion complete).trans converts

theorem exists_skipped_of_mem_toRpn {event : Event}
    (told : event ∈ (toRpn mode expression).events)
    : ∃ character position, event = .skipped character position :=
  Consumer.exists_skipped (fun _ _ => rfl) told

/-- An expression has a value exactly if it converts and what it converts to has that value. -/
theorem outcome_evaluate_eq_ok_iff {value : Float}
    : (evaluate mode expression).outcome = .ok value
      ↔ ∃ rpn,
          (toRpn mode expression).outcome = .ok rpn
          ∧ (rpnValue mode rpn).outcome = .ok value := by
  simp only [evaluate, Traced.outcome_bind, Failure.bind_eq_ok_iff]
  simp [Traced.note]

theorem outcome_evaluate_of_toRpn {rpn : List Token}
    (converts : (toRpn mode expression).outcome = .ok rpn)
    : (evaluate mode expression).outcome = (rpnValue mode rpn).outcome := by
  simp only [evaluate, Traced.outcome_bind, converts]
  exact bind_pure (rpnValue mode rpn).outcome

/-- An expression has no value if it does not convert, or if what it converts to has none. -/
theorem outcome_evaluate_eq_error_iff {failure : Failure}
    : (evaluate mode expression).outcome = .error failure
      ↔ (toRpn mode expression).outcome = .error failure
        ∨ ∃ rpn,
            (toRpn mode expression).outcome = .ok rpn
            ∧ (rpnValue mode rpn).outcome = .error failure := by
  simp only [evaluate, Traced.outcome_bind, Failure.bind_eq_error_iff]
  simp [Traced.note]

/-- Of an expression with a value the events of every stage are told, in order. -/
theorem events_evaluate {rpn : List Token} {value : Float}
    (converts : (toRpn mode expression).outcome = .ok rpn)
    (evaluates : (rpnValue mode rpn).outcome = .ok value)
    : (evaluate mode expression).events
      = (toRpn mode expression).events
        ++ .converted expression rpn
          :: ((rpnValue mode rpn).events ++ [.evaluated expression value]) := by
  unfold evaluate
  rw [Traced.events_bind_of_ok _ converts, Traced.events_bind_of_ok _ rfl,
    Traced.events_bind_of_ok _ evaluates, Traced.events_bind_of_ok _ rfl]
  simp [Traced.note]

/-- Of an expression that does not convert the events of the conversion are told. -/
theorem events_evaluate_of_toRpn_error {failure : Failure}
    (fails : (toRpn mode expression).outcome = .error failure)
    : (evaluate mode expression).events = (toRpn mode expression).events :=
  Traced.events_bind_of_error _ fails

/-- Of an expression that converts but has no value the events of both stages are told. -/
theorem events_evaluate_of_error {rpn : List Token} {failure : Failure}
    (converts : (toRpn mode expression).outcome = .ok rpn)
    (fails : (rpnValue mode rpn).outcome = .error failure)
    : (evaluate mode expression).events
      = (toRpn mode expression).events
        ++ .converted expression rpn :: (rpnValue mode rpn).events := by
  unfold evaluate
  rw [Traced.events_bind_of_ok _ converts, Traced.events_bind_of_ok _ rfl,
    Traced.events_bind_of_error _ fails]
  rfl

/-- An evaluation in which nothing is passed over and no zero is supplied tells of its two
stages only.
-/
theorem evaluate_of_toRpn_eq_pure {rpn : List Token} {value : Float}
    (converts : toRpn mode expression = pure rpn)
    (evaluates : rpnValue mode rpn = ⟨[], .ok value⟩)
    : evaluate mode expression
      = ⟨[.converted expression rpn, .evaluated expression value], .ok value⟩ := by
  rw [evaluate, converts, pure_bind, evaluates]
  rfl

end SciCalc
