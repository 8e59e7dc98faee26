import SciCalc.Proofs.Stream.Refusal

/-! Shares of a stream: consumers that draw from it one after another.

Each consumer takes its share from the head of what the ones before it left, so the shares follow
each other in the stream. Where a consumer refuses a token, the next share starts behind it. Where
the stream ends or fails, all later shares are empty.
-/

namespace SciCalc

/-- A consumer draws from a stream: it pulls one token, or it works on token after token. -/
inductive Pull.Draws (mode : Mode) : Pull → TokenStream → Course Pulled → Prop
  | token {stream token} (pulled : stream.next.result.outcome = .ok (some token))
    : Pull.Draws mode .next stream
        ⟨[token], .satisfied, .ok (.next (some token)), stream.next.rest⟩
  | none {stream} (ended : stream.next.result.outcome = .ok none)
    : Pull.Draws mode .next stream ⟨[], .exhausted, .ok (.next none), stream.next.rest⟩
  | fault {stream failure} (failed : stream.next.result.outcome = .error failure)
    : Pull.Draws mode .next stream ⟨[], .faulted, .error failure, stream.next.rest⟩
  | work {pull stream work course} (working : pull.work? mode = some work)
    (drawn : work.consumer.Draws work.consumer.start stream course)
    : Pull.Draws mode pull stream (course.andThen work.make)

/-- A consumer, and its course. -/
structure Share where
  pull : Pull
  course : Course Pulled

/-- Consumers draw from a stream one after another; each finds what the ones before it left. -/
inductive Shared (mode : Mode) : TokenStream → List Share → TokenStream → Prop
  | nil {stream} : Shared mode stream [] stream
  | cons {stream share others rest} (first : share.pull.Draws mode stream share.course)
    (more : Shared mode share.course.left others rest)
    : Shared mode stream (share :: others) rest

/-- The tokens that consumers took, in the order in which they took them. -/
def takenBy (shares : List Share) : List Token :=
  shares.flatMap (·.course.taken)

/-- A share of what is empty: no token, and no failure either. -/
def Share.FindsNothing (mode : Mode) (share : Share) : Prop :=
  share.pull.Draws mode .done share.course
  ∧ share.course.taken = []
  ∧ share.course.ending = .exhausted

/-- Shares lose nothing of a stream and hold nothing twice: they follow each other in the stream. A
consumer that refuses a token takes it and leaves what is behind it, and no consumer fails by itself
at any other token. One that wants all tokens and refuses none takes all that are left. The failure
of the stream comes behind all tokens, to one consumer at most, and those after it find nothing.
-/
structure SharedOut (mode : Mode) (stream : TokenStream) (shares : List Share) : Prop where
  inOrder : takenBy shares <+: stream.tokens
  upToRefused {earlier share later before token after failure}
    : shares = earlier ++ share :: later
      → stream.tokens = takenBy earlier ++ (before ++ token :: after)
      → share.pull.RefusesAt mode before token failure
      → share.course.ending = .refused
        ∧ share.course.taken = before ++ [token]
        ∧ share.course.outcome = .error failure
  refusedLast {share}
    : share ∈ shares
      → share.course.ending = .refused
      → ∃ before token failure,
          share.pull.RefusesAt mode before token failure
          ∧ share.course.taken = before ++ [token]
          ∧ share.course.outcome = .error failure
  emptied {earlier share later}
    : shares = earlier ++ share :: later
      → share.pull ≠ .next
      → share.course.ending ≠ .refused
      → takenBy (earlier ++ [share]) = stream.tokens
        ∧ ∀ other ∈ later, other.FindsNothing mode
  failedOnce {earlier share later}
    : shares = earlier ++ share :: later
      → share.course.ending = .faulted
      → takenBy (earlier ++ [share]) = stream.tokens
        ∧ (∃ failure, stream.failure? = some failure ∧ share.course.outcome = .error failure)
        ∧ (∀ other ∈ earlier, other.course.ending ≠ .faulted)
        ∧ ∀ other ∈ later, other.FindsNothing mode

variable {mode : Mode} {pull : Pull} {stream rest : TokenStream} {course : Course Pulled}
variable {before : List Token} {token : Token} {failure : Failure}
variable {share : Share} {shares earlier later : List Share}

-----------------------------------------------------------------------------------------
-- One consumer
-----------------------------------------------------------------------------------------

theorem Pull.exists_draws (mode : Mode) (pull : Pull) (stream : TokenStream)
    : ∃ course,
        pull.Draws mode stream course
        ∧ course.outcome = (pull.draw mode stream).result.outcome
        ∧ course.left = (pull.draw mode stream).rest := by
  cases working : pull.work? mode with
  | none =>
      cases work?_eq_none_iff.mp working
      have drawn : (Pull.next.draw mode stream).result.outcome
          = stream.next.result.outcome >>= fun token => .ok (.next token) :=
        Traced.outcome_bind _ _
      cases pulled : stream.next.result.outcome with
      | error failure => exact ⟨_, .fault pulled, by rw [drawn, pulled]; rfl, rfl⟩
      | ok found =>
          cases found with
          | none => exact ⟨_, .none pulled, by rw [drawn, pulled]; rfl, rfl⟩
          | some token => exact ⟨_, .token pulled, by rw [drawn, pulled]; rfl, rfl⟩
  | some work =>
      obtain ⟨course, drawn, outcome, left⟩ := work.consumer.exists_draws work.consumer.start stream
      obtain ⟨whole, rest⟩ := draw_of_work? working stream
      refine ⟨_, .work working drawn, ?_, left.trans rest.symm⟩
      rw [whole, Course.andThen, outcome]
      rfl

namespace Pull.Draws

theorem tokens_eq (drawn : pull.Draws mode stream course)
    : stream.tokens = course.taken ++ course.left.tokens := by
  cases drawn with
  | token pulled => exact TokenStream.tokens_of_pulled pulled
  | none ended =>
      obtain ⟨empty, _, left⟩ := TokenStream.of_ended ended
      simp [empty, left, TokenStream.tokens]
  | fault failed =>
      obtain ⟨empty, _, left⟩ := TokenStream.of_failed failed
      simp [empty, left, TokenStream.tokens]
  | work _ drawn => exact drawn.tokens_eq

/-- A consumer that finds the stream empty takes nothing and leaves it empty. -/
theorem of_done (drawn : pull.Draws mode .done course)
    : course.taken = [] ∧ course.ending = .exhausted ∧ course.left = .done := by
  cases drawn with
  | token pulled => cases pulled
  | none ended => exact ⟨rfl, rfl, rfl⟩
  | fault failed => cases failed
  | work _ drawn =>
      cases drawn with
      | exhausted ended => exact ⟨rfl, rfl, rfl⟩
      | faulted failed => cases failed
      | refused pulled _ => cases pulled
      | takes pulled _ _ => cases pulled

/-- A consumer that wants more than one token and refuses none leaves the stream empty. -/
theorem left_eq_done (drawn : pull.Draws mode stream course) (many : pull ≠ .next)
    (ending : course.ending ≠ .refused)
    : course.left = .done := by
  cases drawn with
  | token | none | fault => exact absurd rfl many
  | work _ drawn => exact drawn.left_eq_done ending

/-- A consumer that meets the failure of the stream fails for that reason and leaves it empty. -/
theorem of_faulted (drawn : pull.Draws mode stream course) (ending : course.ending = .faulted)
    : course.left = .done
      ∧ ∃ failure, stream.failure? = some failure ∧ course.outcome = .error failure := by
  cases drawn with
  | token | none => cases ending
  | fault failed =>
      obtain ⟨_, fails, left⟩ := TokenStream.of_failed failed
      exact ⟨left, _, fails, rfl⟩
  | work _ drawn =>
      obtain ⟨failure, fails, outcome⟩ := drawn.of_faulted ending
      have left := drawn.left_eq_done fun other => by cases ending.symm.trans other
      refine ⟨left, failure, fails, ?_⟩
      rw [Course.andThen, outcome]
      rfl

theorem failure?_of_left (drawn : pull.Draws mode stream course)
    (fails : course.left.failure? = some failure)
    : stream.failure? = some failure := by
  cases drawn with
  | token pulled => exact (TokenStream.failure?_of_pulled pulled).symm.trans fails
  | none ended =>
      rw [(TokenStream.of_ended ended).2.2] at fails
      cases fails
  | fault failed =>
      rw [(TokenStream.of_failed failed).2.2] at fails
      cases fails
  | work _ drawn => exact drawn.failure?_of_left fails

/-- The token at which a consumer fails is the last that it takes, and one that it refuses. -/
theorem of_refused (drawn : pull.Draws mode stream course) (ending : course.ending = .refused)
    (known : ∀ token ∈ stream.tokens, token.lexeme.IsKnown)
    : ∃ before token failure,
        course.taken = before ++ [token]
        ∧ course.outcome = .error failure
        ∧ pull.RefusesAt mode before token failure := by
  rw [drawn.tokens_eq] at known
  cases drawn with
  | token | none | fault => cases ending
  | work working drawn =>
      obtain ⟨before, token, failure, taken, outcome, fails⟩ := drawn.of_refused ending
      refine ⟨before, token, failure, taken, ?_, refusesAt_iff ?_ |>.mpr ⟨_, working, fails⟩⟩
      · rw [Course.andThen, outcome]
        rfl
      · rw [← taken]
        exact fun other member => known other (List.mem_append_left _ member)

/-- A consumer that refuses a token takes it and nothing behind it. -/
theorem of_refusesAt (drawn : pull.Draws mode stream course) {after : List Token}
    (place : stream.tokens = before ++ token :: after)
    (known : ∀ token ∈ stream.tokens, token.lexeme.IsKnown)
    (refused : pull.RefusesAt mode before token failure)
    : course.ending = .refused
      ∧ course.taken = before ++ [token]
      ∧ course.outcome = .error failure := by
  have knownHere : ∀ other ∈ before ++ [token], other.lexeme.IsKnown := by
    intro other member
    refine known other ?_
    rw [place, List.append_cons]
    exact List.mem_append_left _ member
  obtain ⟨work, working, fails⟩ := (refusesAt_iff knownHere).mp refused
  cases drawn with
  | token | none | fault => cases working
  | work workingToo drawn =>
      cases working.symm.trans workingToo
      obtain ⟨ending, taken, outcome⟩ := drawn.of_failsAt place fails
      refine ⟨ending, taken, ?_⟩
      rw [Course.andThen, outcome]
      rfl

end Pull.Draws

-----------------------------------------------------------------------------------------
-- Consumers one after another
-----------------------------------------------------------------------------------------

/-- Pulls from a stream are shares of it, by induction on the pulls. -/
theorem exists_shared (mode : Mode) (stream : TokenStream) (pulls : List Pull)
    : ∃ shares rest,
        Shared mode stream shares rest
        ∧ shares.map Share.pull = pulls
        ∧ shares.map (·.course.outcome) = (drawAll mode stream pulls).map Traced.outcome := by
  induction pulls generalizing stream with
  | nil => exact ⟨[], stream, .nil, rfl, rfl⟩
  | cons pull more ih =>
      obtain ⟨course, drawn, outcome, left⟩ := pull.exists_draws mode stream
      obtain ⟨shares, rest, shared, pulls, outcomes⟩ := ih course.left
      refine ⟨⟨pull, course⟩ :: shares, rest, .cons drawn shared, by simp [pulls], ?_⟩
      simp [drawAll, outcomes, outcome, left]

namespace Shared

/-- What was taken and what is left make up the stream, by induction on the shares. -/
theorem tokens_eq (shared : Shared mode stream shares rest)
    : stream.tokens = takenBy shares ++ rest.tokens := by
  induction shared with
  | nil => rfl
  | cons first _ ih => simp [first.tokens_eq, ih, takenBy]

theorem failure?_of_rest (shared : Shared mode stream shares rest)
    (fails : rest.failure? = some failure)
    : stream.failure? = some failure := by
  induction shared with
  | nil => exact fails
  | cons first _ ih => exact first.failure?_of_left (ih fails)

/-- Of an empty stream no share holds anything, by induction on the shares. -/
theorem findsNothing (shared : Shared mode .done shares rest)
    : ∀ share ∈ shares, share.FindsNothing mode := by
  generalize empty : TokenStream.done = stream at shared
  induction shared with
  | nil => simp
  | cons first _ ih =>
      subst empty
      obtain ⟨taken, ending, left⟩ := first.of_done
      exact List.forall_mem_cons.mpr ⟨⟨first, taken, ending⟩, ih left.symm⟩

/-- Each consumer draws from what the ones before it left, by induction on these. -/
theorem split (shared : Shared mode stream (earlier ++ share :: later) rest)
    : ∃ here,
        Shared mode stream earlier here
        ∧ share.pull.Draws mode here share.course
        ∧ Shared mode share.course.left later rest := by
  induction earlier generalizing stream with
  | nil =>
      cases shared with
      | cons first more => exact ⟨stream, .nil, first, more⟩
  | cons other others ih =>
      cases shared with
      | cons first more =>
          obtain ⟨here, before, drawn, behind⟩ := ih more
          exact ⟨here, .cons first before, drawn, behind⟩

/-- Where a consumer leaves nothing, all tokens are taken and the later ones find nothing. -/
theorem emptied_of_left (shared : Shared mode stream (earlier ++ share :: later) rest)
    (left : share.course.left = .done)
    : takenBy (earlier ++ [share]) = stream.tokens
      ∧ ∀ other ∈ later, other.FindsNothing mode := by
  obtain ⟨here, before, drawn, behind⟩ := shared.split
  rw [left] at behind
  refine ⟨?_, behind.findsNothing⟩
  have whole := before.tokens_eq
  rw [drawn.tokens_eq, left] at whole
  simpa [takenBy, TokenStream.tokens] using whole.symm

/-- A consumer that meets the failure of the stream is the first to do so: the others before it
would have left an empty stream, which does not fail.
-/
theorem not_faulted_earlier (shared : Shared mode stream (earlier ++ share :: later) rest)
    (ending : share.course.ending = .faulted)
    : ∀ other ∈ earlier, other.course.ending ≠ .faulted := by
  intro other member faulted
  obtain ⟨first, middle, rfl⟩ := List.append_of_mem member
  rw [List.append_assoc, List.cons_append] at shared
  obtain ⟨here, _, drawn, _⟩ := shared.split
  have nothing := (shared.emptied_of_left (drawn.of_faulted faulted).1).2 share (by simp)
  cases ending.symm.trans nothing.2.2

/-- Consumers share a stream out. Witness: each draws from what the ones before it left, so the
tokens ahead of it are those that it finds.
-/
theorem sharedOut (shared : Shared mode stream shares rest)
    (known : ∀ token ∈ stream.tokens, token.lexeme.IsKnown)
    : SharedOut mode stream shares where
  inOrder := ⟨rest.tokens, shared.tokens_eq.symm⟩
  upToRefused := by
    rintro earlier share later before token after failure rfl place refused
    obtain ⟨here, prior, drawn, _⟩ := shared.split
    rw [prior.tokens_eq, List.append_cancel_left_eq] at place
    refine drawn.of_refusesAt place (fun other member => known other ?_) refused
    rw [prior.tokens_eq]
    exact List.mem_append_right _ member
  refusedLast := by
    intro share member ending
    obtain ⟨earlier, later, rfl⟩ := List.append_of_mem member
    obtain ⟨here, prior, drawn, _⟩ := shared.split
    obtain ⟨before, token, failure, taken, outcome, refused⟩ :=
      drawn.of_refused ending fun other member => known other <| by
        rw [prior.tokens_eq]
        exact List.mem_append_right _ member
    exact ⟨before, token, failure, refused, taken, outcome⟩
  emptied := by
    rintro earlier share later rfl many ending
    obtain ⟨here, _, drawn, _⟩ := shared.split
    exact shared.emptied_of_left (drawn.left_eq_done many ending)
  failedOnce := by
    rintro earlier share later rfl ending
    obtain ⟨here, prior, drawn, _⟩ := shared.split
    obtain ⟨left, failure, fails, outcome⟩ := drawn.of_faulted ending
    obtain ⟨all, nothing⟩ := shared.emptied_of_left left
    have failed := prior.failure?_of_rest fails
    exact ⟨all, ⟨failure, failed, outcome⟩, shared.not_faulted_earlier ending, nothing⟩

end Shared

/-- Consumers that draw from the scan of an expression one after another, in whatever way each of
them draws, lose none of its tokens and hold none of them twice.
Witness: their answers are those of their shares, and the names of all tokens of a scan are known.
-/
theorem drawAll_scan_sharedOut (scanning mode : Mode) (expression : String) (pulls : List Pull)
    : ∃ shares rest,
        Shared mode (scan scanning expression) shares rest
        ∧ shares.map Share.pull = pulls
        ∧ shares.map (·.course.outcome)
          = (drawAll mode (scan scanning expression) pulls).map Traced.outcome
        ∧ SharedOut mode (scan scanning expression) shares := by
  obtain ⟨shares, rest, shared, asked, answered⟩ :=
    exists_shared mode (scan scanning expression) pulls
  exact ⟨shares, rest, shared, asked, answered, shared.sharedOut fun _ => isKnown_of_mem_scan⟩

/-- Conversion refuses a stray parenthesis and leaves what is behind it. A later reduction meets the
failure of the strict scan, and the consumers behind that find nothing.
-/
theorem drawAll_scan_sharedOut_of_stray_parenthesis
    : let stream := scan .strict "1)+2$3"
      let pulls : List Pull := [.rpn, .next, .rpnValue, .rest, .next]
      let one : Token := ⟨.number 1.0, 0⟩
      let stray : Token := ⟨.closing ")", 1⟩
      ∃ first others rest,
        Shared .strict stream (first :: others) rest
        ∧ (first :: others).map Share.pull = pulls
        ∧ (first :: others).map (·.course.outcome)
          = [.error (.unmatchedParenthesis 1), .ok (.next (some ⟨.operator "+", 2⟩)),
              .error (.unrecognized '$' 4), .ok (.tokens []), .ok (.next none)]
        ∧ SharedOut .strict stream (first :: others)
        ∧ first.course.taken = [one, stray]
        ∧ first.course.ending = .refused := by
  intro stream pulls one stray
  obtain ⟨shares, rest, shared, asked, answered, out⟩ :=
    drawAll_scan_sharedOut .strict .strict "1)+2$3" pulls
  obtain ⟨first, others, rfl, converts, _⟩ := List.map_eq_cons_iff.mp asked
  have place : stream.tokens
      = [] ++ ([one] ++ stray :: [⟨.operator "+", 2⟩, ⟨.number 2.0, 3⟩]) := by
    decide +kernel
  have refuses : first.pull.RefusesAt .strict [one] stray (.unmatchedParenthesis 1) :=
    .stray (.inl converts) (.singleton rfl rfl) rfl
  have foremost : first :: others = [] ++ first :: others := rfl
  obtain ⟨ending, taken, _⟩ := out.upToRefused foremost place refuses
  exact ⟨first, others, rest, shared, asked, answered.trans (by decide +kernel), out, taken,
    ending⟩

end SciCalc
