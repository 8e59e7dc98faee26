import SciCalc.Failure
import SciCalc.Token

/-! Traced computations: what happened on the way to an outcome. -/

namespace SciCalc

/-- What a computation has to tell, apart from its outcome. -/
inductive Event where
  /-- A character that belongs to no token was passed over. -/
  | skipped (character : Char) (position : Nat)
  /-- A zero stood in for a missing left operand. -/
  | zeroSupplied (operator : String) (position : Int)
  /-- An expression was brought into reverse Polish order. -/
  | converted (expression : String) (rpn : List Token)
  /-- An expression was evaluated. -/
  | evaluated (expression : String) (value : Float)
  deriving DecidableEq

/-- Events in the order they happened, and the outcome: the events of a failing computation are
those before the failure.
-/
structure Traced (α : Type) where
  events : List Event
  outcome : Except Failure α

namespace Traced

def ofExcept {α : Type} (outcome : Except Failure α) : Traced α :=
  ⟨[], outcome⟩

def fail {α : Type} (failure : Failure) : Traced α :=
  .ofExcept (.error failure)

def note (event : Event) : Traced Unit :=
  ⟨[event], .ok ()⟩

/-- A computation after some events. -/
def after {α : Type} (events : List Event) (computation : Traced α) : Traced α :=
  ⟨events ++ computation.events, computation.outcome⟩

/-- One computation after another; a failure ends both. -/
def andThen {α β : Type} (first : Traced α) (second : α → Traced β) : Traced β :=
  match first.outcome with
  | .ok a => (second a).after first.events
  | .error failure => ⟨first.events, .error failure⟩

instance : Monad Traced where
  pure a := .ofExcept (.ok a)
  bind := andThen

instance : MonadLift (Except Failure) Traced where
  monadLift := ofExcept

@[simp] theorem events_pure {α : Type} (a : α) : (pure a : Traced α).events = [] :=
  rfl

@[simp] theorem outcome_pure {α : Type} (a : α) : (pure a : Traced α).outcome = .ok a :=
  rfl

/-- Outcomes compose as they do without events, by cases on the first. -/
@[simp] theorem outcome_bind {α β : Type} (first : Traced α) (second : α → Traced β)
    : (first >>= second).outcome = first.outcome >>= fun a => (second a).outcome := by
  change (andThen first second).outcome = _
  unfold andThen
  split <;> next h => rw [h]; rfl

theorem events_bind_of_ok {α β : Type} {first : Traced α} {a : α} (second : α → Traced β)
    (h : first.outcome = .ok a)
    : (first >>= second).events = first.events ++ (second a).events := by
  change (andThen first second).events = _
  simp [andThen, h, after]

theorem events_bind_of_error {α β : Type} {first : Traced α} {failure : Failure}
    (second : α → Traced β) (h : first.outcome = .error failure)
    : (first >>= second).events = first.events := by
  change (andThen first second).events = _
  simp [andThen, h]

/-- Two computations with the same events and the same outcome are one, by their fields. -/
@[ext] theorem ext {α : Type} {first second : Traced α} (events : first.events = second.events)
    (outcome : first.outcome = second.outcome)
    : first = second := by
  cases first
  cases second
  simp_all

/-- Events are appended in either grouping, and a failure absorbs what follows it: the laws of
a monad, by cases on the outcomes.
-/
instance : LawfulMonad Traced :=
  LawfulMonad.mk' Traced
    (fun computation => by
      obtain ⟨events, outcome⟩ := computation
      cases outcome <;> simp [Functor.map, andThen, after, ofExcept])
    (fun a further => by simp [bind, pure, andThen, ofExcept, after])
    (fun computation further last => by
      obtain ⟨events, outcome⟩ := computation
      cases outcome with
      | error failure => rfl
      | ok a =>
          simp only [bind, andThen, after]
          cases (further a).outcome <;> simp [List.append_assoc])

/-- Two computations succeed one after the other exactly if each does, and their events follow
each other. Witness: cases on the first outcome.
-/
theorem bind_eq_ok_iff {α β : Type} {first : Traced α} {second : α → Traced β}
    {events : List Event} {b : β}
    : first >>= second = ⟨events, .ok b⟩
      ↔ ∃ earlier a later,
          first = ⟨earlier, .ok a⟩
          ∧ second a = ⟨later, .ok b⟩
          ∧ events = earlier ++ later := by
  obtain ⟨earlier, outcome⟩ := first
  change andThen _ _ = _ ↔ _
  cases outcome with
  | error failure => simp [andThen]
  | ok a =>
      simp only [andThen, after, Traced.mk.injEq, Except.ok.injEq]
      constructor
      · rintro ⟨rfl, found⟩
        exact ⟨earlier, a, _, ⟨rfl, rfl⟩, ext rfl found, rfl⟩
      · rintro ⟨_, _, later, ⟨rfl, rfl⟩, found, rfl⟩
        simp [found]

end Traced

end SciCalc
