import SciCalc.Token.Stream

/-! The course of drawing: a consumer pulls one token after another until it fails at one of them
or finds no more.

Drawing from a stream is such a course, so what was taken and what is left make up the stream. A
consumer that fails by itself has taken nothing behind the token at which it failed, and any other
leaves nothing at all.
-/

namespace SciCalc

variable {σ α β : Type}

-----------------------------------------------------------------------------------------
-- Single pulls
-----------------------------------------------------------------------------------------

namespace TokenStream

variable {stream : TokenStream} {token : Token}

theorem tokens_of_pulled (pulled : stream.next.result.outcome = .ok (some token))
    : stream.tokens = token :: stream.next.rest.tokens := by
  induction stream with
  | done | fault failure => cases pulled
  | skip character position rest ih => exact ih pulled
  | deliver first rest _ =>
      cases pulled
      rfl

theorem failure?_of_pulled (pulled : stream.next.result.outcome = .ok (some token))
    : stream.next.rest.failure? = stream.failure? := by
  induction stream with
  | done | fault failure => cases pulled
  | skip character position rest ih => exact ih pulled
  | deliver first rest _ => rfl

/-- A pull that delivers nothing has met the end of the stream, and leaves it empty. -/
theorem of_ended (ended : stream.next.result.outcome = .ok none)
    : stream.tokens = [] ∧ stream.failure? = none ∧ stream.next.rest = .done := by
  induction stream with
  | done => exact ⟨rfl, rfl, rfl⟩
  | fault failure => cases ended
  | skip character position rest ih => exact ih ended
  | deliver first rest _ => cases ended

/-- A pull that fails has met the failure of the stream, and leaves it empty. -/
theorem of_failed {failure : Failure} (failed : stream.next.result.outcome = .error failure)
    : stream.tokens = [] ∧ stream.failure? = some failure ∧ stream.next.rest = .done := by
  induction stream with
  | done => cases failed
  | fault _ =>
      cases failed
      exact ⟨rfl, rfl, rfl⟩
  | skip character position rest ih => exact ih failed
  | deliver first rest _ => cases failed

end TokenStream

-----------------------------------------------------------------------------------------
-- Courses
-----------------------------------------------------------------------------------------

/-- How a consumer comes to an end: it has the one token that it wanted, it fails at the token that
it took last, or it finds no token where the stream has ended or where the stream fails.
-/
inductive Course.Ending where
  | satisfied
  | refused
  | exhausted
  | faulted
  deriving DecidableEq, Repr

/-- What a consumer takes from a stream, how it comes to an end, what it makes of what it took, and
what it leaves.
-/
structure Course (α : Type) where
  taken : List Token
  ending : Course.Ending
  outcome : Except Failure α
  left : TokenStream

/-- What is made of a course, handed on. The stream has no part in it. -/
def Course.andThen (course : Course α) (further : α → Except Failure β) : Course β :=
  ⟨course.taken, course.ending, course.outcome >>= further, course.left⟩

/-- A consumer in some state pulls tokens and works on each of them before it pulls the next. -/
inductive Consumer.Draws (consumer : Consumer σ α) : σ → TokenStream → Course α → Prop
  | exhausted {state stream} (ended : stream.next.result.outcome = .ok none)
    : consumer.Draws state stream ⟨[], .exhausted, consumer.finish state, stream.next.rest⟩
  | faulted {state stream failure} (failed : stream.next.result.outcome = .error failure)
    : consumer.Draws state stream ⟨[], .faulted, .error failure, stream.next.rest⟩
  | refused {state stream token failure}
    (pulled : stream.next.result.outcome = .ok (some token))
    (refused : (consumer.step state token).outcome = .error failure)
    : consumer.Draws state stream ⟨[token], .refused, .error failure, stream.next.rest⟩
  | takes {state stream token next course}
    (pulled : stream.next.result.outcome = .ok (some token))
    (stepped : (consumer.step state token).outcome = .ok next)
    (more : consumer.Draws next stream.next.rest course)
    : consumer.Draws state stream { course with taken := token :: course.taken }

/-- A consumer fails at a token, having taken those before it. -/
def Consumer.FailsAt (consumer : Consumer σ α) (state : σ) (before : List Token) (token : Token)
    (failure : Failure) : Prop :=
  ∃ middle,
    (before.foldlM consumer.step state).outcome = .ok middle
    ∧ (consumer.step middle token).outcome = .error failure

variable {consumer : Consumer σ α} {state : σ} {stream : TokenStream} {course : Course α}
variable {before : List Token} {token : Token} {failure : Failure}

theorem Consumer.failsAt_nil_iff
    : consumer.FailsAt state [] token failure
      ↔ (consumer.step state token).outcome = .error failure := by
  simp [FailsAt]

theorem Consumer.failsAt_cons_iff {first : Token}
    : consumer.FailsAt state (first :: before) token failure
      ↔ ∃ next,
          (consumer.step state first).outcome = .ok next
          ∧ consumer.FailsAt next before token failure := by
  simp only [FailsAt, List.foldlM_cons, Traced.outcome_bind, Failure.bind_eq_ok_iff]
  constructor
  · rintro ⟨middle, ⟨next, stepped, run⟩, failed⟩
    exact ⟨next, stepped, middle, run, failed⟩
  · rintro ⟨next, stepped, middle, run, failed⟩
    exact ⟨middle, ⟨next, stepped, run⟩, failed⟩

/-- A character that is passed over changes no course. Witness: the next pull passes over it. -/
theorem Consumer.Draws.skip {character : Char} {position : Nat}
    (drawn : consumer.Draws state stream course)
    : consumer.Draws state (.skip character position stream) course := by
  cases drawn with
  | exhausted ended => exact .exhausted ended
  | faulted failed => exact .faulted failed
  | refused pulled refused => exact .refused pulled refused
  | takes pulled stepped more => exact .takes pulled stepped more

/-- Every consumer draws token by token, by induction on the stream. -/
theorem Consumer.exists_draws (consumer : Consumer σ α) (state : σ) (stream : TokenStream)
    : ∃ course,
        consumer.Draws state stream course
        ∧ course.outcome = (consumer.drawFrom state stream).result.outcome
        ∧ course.left = (consumer.drawFrom state stream).rest := by
  induction stream generalizing state with
  | done => exact ⟨_, .exhausted rfl, rfl, rfl⟩
  | fault failure => exact ⟨_, .faulted rfl, rfl, rfl⟩
  | skip character position rest ih =>
      obtain ⟨course, drawn, outcome, left⟩ := ih state
      exact ⟨course, drawn.skip, outcome, left⟩
  | deliver token rest ih =>
      cases stepped : (consumer.step state token).outcome with
      | error failure =>
          refine ⟨_, .refused rfl stepped, ?_⟩
          simp [drawFrom, stepped, TokenStream.next]
      | ok next =>
          obtain ⟨course, drawn, outcome, left⟩ := ih next
          refine ⟨_, .takes rfl stepped drawn, ?_, ?_⟩
          · simp only [drawFrom, stepped]
            exact outcome
          · simp only [drawFrom, stepped]
            exact left

namespace Consumer.Draws

/-- What was taken and what is left make up the stream, by induction on the course. -/
theorem tokens_eq (drawn : consumer.Draws state stream course)
    : stream.tokens = course.taken ++ course.left.tokens := by
  induction drawn with
  | exhausted ended =>
      obtain ⟨empty, _, left⟩ := TokenStream.of_ended ended
      simp [empty, left, TokenStream.tokens]
  | faulted failed =>
      obtain ⟨empty, _, left⟩ := TokenStream.of_failed failed
      simp [empty, left, TokenStream.tokens]
  | refused pulled _ => exact TokenStream.tokens_of_pulled pulled
  | takes pulled _ _ ih =>
      rw [TokenStream.tokens_of_pulled pulled, ih]
      rfl

/-- A failure that is left is the failure of the stream. -/
theorem failure?_of_left (drawn : consumer.Draws state stream course)
    (fails : course.left.failure? = some failure)
    : stream.failure? = some failure := by
  induction drawn with
  | exhausted ended =>
      rw [(TokenStream.of_ended ended).2.2] at fails
      cases fails
  | faulted failed =>
      rw [(TokenStream.of_failed failed).2.2] at fails
      cases fails
  | refused pulled _ => exact (TokenStream.failure?_of_pulled pulled).symm.trans fails
  | takes pulled _ _ ih => exact (TokenStream.failure?_of_pulled pulled).symm.trans (ih fails)

/-- A consumer that meets the failure of the stream fails for that reason. -/
theorem of_faulted (drawn : consumer.Draws state stream course) (ending : course.ending = .faulted)
    : ∃ failure, stream.failure? = some failure ∧ course.outcome = .error failure := by
  induction drawn with
  | exhausted | refused => cases ending
  | faulted failed => exact ⟨_, (TokenStream.of_failed failed).2.1, rfl⟩
  | takes pulled _ _ ih =>
      obtain ⟨failure, fails, outcome⟩ := ih ending
      exact ⟨failure, (TokenStream.failure?_of_pulled pulled).symm.trans fails, outcome⟩

/-- A consumer that does not fail at a token leaves nothing. -/
theorem left_eq_done (drawn : consumer.Draws state stream course)
    (ending : course.ending ≠ .refused)
    : course.left = .done := by
  induction drawn with
  | exhausted ended => exact (TokenStream.of_ended ended).2.2
  | faulted failed => exact (TokenStream.of_failed failed).2.2
  | refused => exact absurd rfl ending
  | takes _ _ _ ih => exact ih ending

/-- Where a consumer fails by itself it does so at the last token that it took.
Witness: induction on the course; the tokens before were taken one by one.
-/
theorem of_refused (drawn : consumer.Draws state stream course) (ending : course.ending = .refused)
    : ∃ before token failure,
        course.taken = before ++ [token]
        ∧ course.outcome = .error failure
        ∧ consumer.FailsAt state before token failure := by
  induction drawn with
  | exhausted | faulted => cases ending
  | refused _ refused => exact ⟨[], _, _, rfl, rfl, failsAt_nil_iff.mpr refused⟩
  | takes pulled stepped more ih =>
      obtain ⟨before, token, failure, taken, outcome, fails⟩ := ih ending
      have fails' := failsAt_cons_iff.mpr ⟨_, stepped, fails⟩
      exact ⟨_, token, failure, congrArg _ taken, outcome, fails'⟩

/-- A consumer that fails at a token of a stream takes it and nothing behind it.
Witness: induction on the course; the tokens before are taken without a failure.
-/
theorem of_failsAt (drawn : consumer.Draws state stream course) {after : List Token}
    (place : stream.tokens = before ++ token :: after)
    (fails : consumer.FailsAt state before token failure)
    : course.ending = .refused
      ∧ course.taken = before ++ [token]
      ∧ course.outcome = .error failure := by
  induction drawn generalizing before with
  | exhausted ended => simp [(TokenStream.of_ended ended).1] at place
  | faulted failed => simp [(TokenStream.of_failed failed).1] at place
  | refused pulled refused =>
      rw [TokenStream.tokens_of_pulled pulled] at place
      cases before with
      | nil =>
          obtain ⟨rfl, _⟩ := List.cons.inj place
          cases refused.symm.trans (failsAt_nil_iff.mp fails)
          exact ⟨rfl, rfl, rfl⟩
      | cons first others =>
          obtain ⟨rfl, _⟩ := List.cons.inj place
          obtain ⟨next, stepped, _⟩ := failsAt_cons_iff.mp fails
          cases refused.symm.trans stepped
  | takes pulled stepped more ih =>
      rw [TokenStream.tokens_of_pulled pulled] at place
      cases before with
      | nil =>
          obtain ⟨rfl, _⟩ := List.cons.inj place
          cases stepped.symm.trans (failsAt_nil_iff.mp fails)
      | cons first others =>
          obtain ⟨rfl, behind⟩ := List.cons.inj place
          obtain ⟨next, taken, later⟩ := failsAt_cons_iff.mp fails
          cases stepped.symm.trans taken
          obtain ⟨ending, taken, outcome⟩ := ih behind later
          exact ⟨ending, congrArg _ taken, outcome⟩

end Consumer.Draws

end SciCalc
