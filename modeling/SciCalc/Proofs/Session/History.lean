import Mathlib.Data.List.DropRight
import SciCalc.Session

/-! The history of a session: what was evaluated with success since it was last cleared.

Every request either clears the history, adds one entry to it, or leaves it as it is. So the entries
can be read off the requests and their answers, and each of them still holds.
-/

namespace SciCalc

-----------------------------------------------------------------------------------------
-- Entries that are left by what happened
-----------------------------------------------------------------------------------------

/-- The entries that happenings leave, from the last one on that makes all before it forgotten. -/
def entriesSince {α : Type} (forgets : α → Bool) (left? : α → Option Entry)
    (happenings : List α)
    : List Entry :=
  (happenings.rtakeWhile fun happening => !forgets happening).filterMap left?

/-- One more happening makes all forgotten, or adds what it leaves. -/
theorem entriesSince_concat {α : Type} {forgets : α → Bool} {left? : α → Option Entry}
    (happenings : List α) (last : α)
    : entriesSince forgets left? (happenings ++ [last])
      = if forgets last then []
        else entriesSince forgets left? happenings ++ (left? last).toList := by
  simp only [entriesSince]
  cases forgotten : forgets last with
  | true => simp [forgotten]
  | false =>
      rw [List.rtakeWhile_concat_pos _ _ _ (by simp [forgotten]), List.filterMap_append]
      cases left : left? last <;> simp [left]

theorem mem_of_mem_entriesSince {α : Type} {forgets : α → Bool} {left? : α → Option Entry}
    {happenings : List α} {entry : Entry} (member : entry ∈ entriesSince forgets left? happenings)
    : ∃ happening ∈ happenings, left? happening = some entry := by
  obtain ⟨happening, included, left⟩ := List.mem_filterMap.mp member
  exact ⟨happening, (List.rtakeWhile_suffix _ _).subset included, left⟩

namespace Session

-----------------------------------------------------------------------------------------
-- Requests and their answers
-----------------------------------------------------------------------------------------

/-- A request, and what was answered to it. -/
structure Exchange where
  request : Request
  answer : Except Failure Answer

namespace Exchange

def forgets (exchange : Exchange) : Bool :=
  exchange.request = .clear

/-- The entry for an expression that was answered with a value. -/
def remembered? : Exchange → Option Entry
  | ⟨.evaluate expression, .ok (.value value)⟩ => some ⟨expression, value⟩
  | _ => none

end Exchange

/-- The answers to requests one after another, and the session after all of them. -/
def performAll (session : Session) : List Request → List Exchange × Session
  | [] => ([], session)
  | request :: rest =>
      let (answer, next) := session.perform request
      let (others, last) := next.performAll rest
      (⟨request, answer⟩ :: others, last)

/-- Requests are answered in turn, by induction on the first of them. -/
theorem performAll_append (session : Session) (before more : List Request)
    : session.performAll (before ++ more)
      = let (exchanges, middle) := session.performAll before
        let (others, last) := middle.performAll more
        (exchanges ++ others, last) := by
  induction before generalizing session with
  | nil => rfl
  | cons request rest ih => simp [performAll, ih]

theorem performAll_concat (session : Session) (requests : List Request) (last : Request)
    : session.performAll (requests ++ [last])
      = let (exchanges, middle) := session.performAll requests
        let (answer, next) := middle.perform last
        (exchanges ++ [⟨last, answer⟩], next) :=
  session.performAll_append requests [last]

/-- Every request is answered, and nothing else. -/
theorem map_request_performAll (session : Session) (requests : List Request)
    : (session.performAll requests).1.map Exchange.request = requests := by
  induction requests generalizing session with
  | nil => rfl
  | cons request rest ih => exact congrArg (request :: ·) (ih _)

/-- A request is answered by the session that the ones before it left. -/
theorem getElem?_performAll (session : Session) (before : List Request) (request : Request)
    (after : List Request)
    : (session.performAll (before ++ request :: after)).1[before.length]?
      = some ⟨request, ((session.performAll before).2.perform request).1⟩ := by
  have length : (session.performAll before).1.length = before.length := by
    rw [← List.length_map, map_request_performAll]
  rw [performAll_append]
  simp [performAll, length]

-----------------------------------------------------------------------------------------
-- One request
-----------------------------------------------------------------------------------------

theorem evaluate_fst (session : Session) (expression : String)
    : (session.evaluate expression).1 = SciCalc.evaluate session.mode expression := by
  simp only [evaluate]
  split <;> rfl

theorem perform_evaluate_fst (session : Session) (expression : String)
    : (session.perform (.evaluate expression)).1
      = (SciCalc.evaluate session.mode expression).outcome.map .value := by
  simp only [perform, evaluate_fst]

theorem evaluate_snd_of_error {session : Session} {expression : String} {failure : Failure}
    (failed : (SciCalc.evaluate session.mode expression).outcome = .error failure)
    : (session.evaluate expression).2 = session := by
  simp [evaluate, failed]

theorem mode_perform (session : Session) (request : Request)
    : (session.perform request).2.mode = session.mode := by
  cases request with
  | evaluate expression =>
      simp only [perform, evaluate]
      split <;> rfl
  | rpn | recent | clear => rfl

/-- A request clears the history, or adds the entry that its answer leaves, if it leaves one.
Witness: cases on the request; only an expression with a value leaves an entry.
-/
theorem history_perform (session : Session) (request : Request)
    : let exchange : Exchange := ⟨request, (session.perform request).1⟩
      (session.perform request).2.history
        = if exchange.forgets then [] else session.history ++ exchange.remembered?.toList := by
  cases request with
  | evaluate expression =>
      have history : (session.perform (.evaluate expression)).2.history = _ :=
        session.history_evaluate expression
      simp only [history, perform_evaluate_fst]
      cases (SciCalc.evaluate session.mode expression).outcome <;>
        simp [Exchange.forgets, Exchange.remembered?, Except.map]
  | rpn expression => simp [perform, Exchange.forgets, Exchange.remembered?]
  | recent count => simp [perform, Exchange.forgets, Exchange.remembered?]
  | clear => simp [perform, Exchange.forgets, clear]

/-- Only an expression that was answered with a value leaves an entry, by cases on the request. -/
theorem Exchange.eq_of_remembered? {exchange : Exchange} {entry : Entry}
    (left : exchange.remembered? = some entry)
    : exchange = ⟨.evaluate entry.expression, .ok (.value entry.value)⟩ := by
  obtain ⟨request, answer⟩ := exchange
  unfold Exchange.remembered? at left
  split at left
  · next same =>
      cases left
      exact same
  · cases left

/-- A failing evaluation leaves the session as it is. -/
theorem perform_of_failure {session : Session} {expression : String} {failure : Failure}
    (failed : (session.perform (.evaluate expression)).1 = .error failure)
    : (session.perform (.evaluate expression)).2 = session := by
  rw [perform_evaluate_fst] at failed
  cases evaluated : (SciCalc.evaluate session.mode expression).outcome with
  | ok value => simp [evaluated, Except.map] at failed
  | error _ => exact evaluate_snd_of_error evaluated

/-- The latest entries are the end of the history: as many as a positive number says, if there are
as many, and otherwise all but the first ones that the number counts.
-/
theorem recent_suffix (session : Session) (count : Int)
    : session.recent count <:+ session.history
      ∧ (session.recent count).length
        = if 1 ≤ count then min count.toNat session.history.length
          else session.history.length - count.natAbs := by
  simp only [recent]
  split
  · next positive =>
      refine ⟨List.drop_suffix _ _, ?_⟩
      rw [List.length_drop, if_pos (by omega)]
      omega
  · next negative =>
      refine ⟨List.drop_suffix _ _, ?_⟩
      rw [List.length_drop, if_neg (by omega)]

-----------------------------------------------------------------------------------------
-- Whole sessions
-----------------------------------------------------------------------------------------

variable {mode : Mode}

theorem mode_performAll (requests : List Request)
    : (performAll { mode } requests).2.mode = mode := by
  induction requests using List.reverseRecOn with
  | nil => rfl
  | append_singleton rest last ih =>
      simp only [performAll_concat, mode_perform]
      exact ih

/-- The history is what the exchanges since it was last cleared have left.
Witness: induction from the end, with what one request does to the history.
-/
theorem history_eq_entriesSince (requests : List Request)
    : (performAll { mode } requests).2.history
      = entriesSince Exchange.forgets Exchange.remembered? (performAll { mode } requests).1 := by
  induction requests using List.reverseRecOn with
  | nil => rfl
  | append_singleton rest last ih =>
      simp only [performAll_concat, entriesSince_concat, history_perform, ih]

/-- An expression is answered with the outcome of its evaluation in the mode of the session, by
induction from the end.
-/
theorem answer_of_mem_performAll {requests : List Request} {expression : String}
    {answer : Except Failure Answer}
    (member : ⟨.evaluate expression, answer⟩ ∈ (performAll { mode } requests).1)
    : answer = (SciCalc.evaluate mode expression).outcome.map .value := by
  induction requests using List.reverseRecOn with
  | nil => cases member
  | append_singleton rest last ih =>
      simp only [performAll_concat, List.mem_append, List.mem_singleton] at member
      rcases member with earlier | here
      · exact ih earlier
      · obtain ⟨rfl, rfl⟩ := Exchange.mk.inj here
        rw [perform_evaluate_fst, mode_performAll]

/-- Requests to a new session are answered in turn, whatever is asked, in whatever order and with
whatever failures: each by the session that the ones before it left, and an expression with the
outcome of its evaluation. The history is made of the expressions that were answered with a value
since it was last cleared, in order. Nothing else changes it, each entry still has its value, and
what is shown of it is its end: as many of the latest entries as were asked for, one line each.
Witness: what one request does to the history, by induction from the end.
-/
theorem history_of_performAll (mode : Mode) (requests : List Request)
    : let exchanges := (performAll { mode } requests).1
      let session := (performAll { mode } requests).2
      exchanges.map Exchange.request = requests
      ∧ session.mode = mode
      ∧ (∀ before request after,
          requests = before ++ request :: after
          → let reached := (performAll { mode } before).2
            exchanges[before.length]? = some ⟨request, (reached.perform request).1⟩
            ∧ (performAll { mode } (before ++ [request])).2 = (reached.perform request).2)
      ∧ (∀ expression answer,
          ⟨.evaluate expression, answer⟩ ∈ exchanges
          → answer = (SciCalc.evaluate mode expression).outcome.map .value)
      ∧ session.history = entriesSince Exchange.forgets Exchange.remembered? exchanges
      ∧ (∀ expression failure,
          (session.perform (.evaluate expression)).1 = .error failure
          → (session.perform (.evaluate expression)).2 = session)
      ∧ (∀ expression, (session.perform (.rpn expression)).2 = session)
      ∧ (∀ count, (session.perform (.recent count)).2 = session)
      ∧ (∀ entry ∈ session.history,
          (SciCalc.evaluate mode entry.expression).outcome = .ok entry.value)
      ∧ ∀ count, ∃ shown,
          (session.perform (.recent count)).1
            = .ok (.text (String.join (shown.map fun entry =>
                "  " ++ entry.expression ++ " = " ++ resultText entry.value ++ "\n")))
          ∧ shown <:+ session.history
          ∧ shown.length
            = if 1 ≤ count then min count.toNat session.history.length
              else session.history.length - count.natAbs := by
  intro exchanges session
  have left : session.history = entriesSince Exchange.forgets Exchange.remembered? exchanges :=
    history_eq_entriesSince requests
  refine ⟨map_request_performAll _ requests, mode_performAll requests, ?_,
    fun _ _ => answer_of_mem_performAll, left, fun _ _ => perform_of_failure, fun _ => rfl,
    fun _ => rfl, ?_, fun count => ?_⟩
  · rintro before request after rfl
    exact ⟨getElem?_performAll _ before request after, by rw [performAll_concat]⟩
  · intro entry member
    rw [left] at member
    obtain ⟨exchange, included, entered⟩ := mem_of_mem_entriesSince member
    rw [Exchange.eq_of_remembered? entered] at included
    have answered := answer_of_mem_performAll included
    cases evaluated : (SciCalc.evaluate mode entry.expression).outcome with
    | ok value => simp_all [Except.map]
    | error failure => simp [evaluated, Except.map] at answered
  · obtain ⟨suffix, length⟩ := session.recent_suffix count
    exact ⟨session.recent count, rfl, suffix, length⟩

/-- A strict session that was cleared once: one expression is forgotten, one fails, and what is
asked between the others leaves nothing.
-/
theorem history_of_performAll_after_clear
    : let requests : List Request :=
        [.evaluate "1", .clear, .evaluate "2*3", .evaluate "1+", .rpn "2*3", .recent 0,
          .evaluate "4-1"]
      let exchanges := (performAll { mode := .strict } requests).1
      let session := (performAll { mode := .strict } requests).2
      exchanges.map Exchange.request = requests
      ∧ exchanges.map Exchange.answer
        = [.ok (.value 1.0), .ok .cleared, .ok (.value 6.0),
            .error (.missingLeftOperand "+" 1), .ok (.text "2 3 *"),
            .ok (.text "  2*3 = 6.0\n"), .ok (.value 3.0)]
      ∧ session.history = [⟨"2*3", 6.0⟩, ⟨"4-1", 3.0⟩]
      ∧ (session.perform (.evaluate "1+")).2 = session := by
  intro requests exchanges session
  obtain ⟨asked, _, _, _, left, failing, _⟩ := history_of_performAll .strict requests
  refine ⟨asked, by decide +kernel, left.trans ?_, failing "1+" (.missingLeftOperand "+" 1) ?_⟩
  · decide +kernel
  · decide +kernel

end Session

end SciCalc
