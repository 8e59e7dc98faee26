import Mathlib.Data.List.Infix
import SciCalc.Token

/-! Parentheses in a list of tokens: which are stray, which are never closed, and which groups
are open at the end.

Everything is said by counting. A closing parenthesis is stray if it brings the closings above
the openings, and an opening one is unclosed if nothing behind it is stray when seen from there.
The groups that are open at the end are the unclosed openings, each followed by pairs.
-/

namespace SciCalc

def openings (tokens : List Token) : Nat :=
  tokens.countP (·.lexeme.isOpening)

def closings (tokens : List Token) : Nat :=
  tokens.countP (·.lexeme.isClosing)

/-- Nowhere in a list do the closings so far outnumber the openings. -/
def NoStray (tokens : List Token) : Prop :=
  ∀ first, first <+: tokens → closings first ≤ openings first

/-- The parentheses of a list belong together in pairs. -/
structure Paired (tokens : List Token) : Prop where
  noStray : NoStray tokens
  even : openings tokens = closings tokens

/-- The first closing parenthesis at which the closings so far outnumber the openings. -/
def FirstStray (tokens : List Token) (culprit : Token) : Prop :=
  ∃ before after,
    tokens = before ++ culprit :: after
    ∧ culprit.lexeme.isClosing
    ∧ openings (before ++ [culprit]) < closings (before ++ [culprit])
    ∧ NoStray before

/-- An opening parenthesis that is never closed, with what stands around it. -/
structure UnclosedAt (tokens before : List Token) (culprit : Token) (after : List Token)
    : Prop where
  place : tokens = before ++ culprit :: after
  opens : culprit.lexeme.isOpening
  unclosed : NoStray after

/-- The rightmost of the opening parentheses that are never closed. -/
def LastUnclosed (tokens : List Token) (culprit : Token) : Prop :=
  ∃ before after,
    UnclosedAt tokens before culprit after
    ∧ ∀ earlier other later,
        UnclosedAt tokens earlier other later → earlier.length ≤ before.length

@[simp] theorem openings_append (first second : List Token)
    : openings (first ++ second) = openings first + openings second :=
  List.countP_append

@[simp] theorem closings_append (first second : List Token)
    : closings (first ++ second) = closings first + closings second :=
  List.countP_append

@[simp] theorem openings_cons (token : Token) (rest : List Token)
    : openings (token :: rest)
      = openings rest + if token.lexeme.isOpening then 1 else 0 :=
  List.countP_cons

@[simp] theorem closings_cons (token : Token) (rest : List Token)
    : closings (token :: rest)
      = closings rest + if token.lexeme.isClosing then 1 else 0 :=
  List.countP_cons

@[simp] theorem openings_nil : openings [] = 0 :=
  rfl

@[simp] theorem closings_nil : closings [] = 0 :=
  rfl

theorem Lexeme.isClosing_of_isOpening {lexeme : Lexeme} (opens : lexeme.isOpening)
    : lexeme.isClosing = false := by
  cases lexeme with
  | opening text => rfl
  | _ => cases opens

theorem Lexeme.isOpening_of_isClosing {lexeme : Lexeme} (closes : lexeme.isClosing)
    : lexeme.isOpening = false := by
  cases lexeme with
  | closing text => rfl
  | _ => cases closes

-----------------------------------------------------------------------------------------
-- Stray closings
-----------------------------------------------------------------------------------------

namespace NoStray

theorem nil : NoStray [] := by
  intro first included
  rw [List.prefix_nil.mp included]
  exact Nat.le_refl 0

theorem left {first second : List Token} (noStray : NoStray (first ++ second))
    : NoStray first :=
  fun part included => noStray part (included.trans (List.prefix_append first second))

theorem concat_iff {tokens : List Token} {token : Token}
    : NoStray (tokens ++ [token])
      ↔ NoStray tokens ∧ closings (tokens ++ [token]) ≤ openings (tokens ++ [token]) := by
  constructor
  · intro noStray
    exact ⟨noStray.left, noStray _ (List.prefix_refl _)⟩
  · rintro ⟨noStray, last⟩ part included
    rcases List.prefix_concat_iff.mp included with rfl | earlier
    · exact last
    · exact noStray part earlier

/-- What is paired by itself brings no stray closing.
Witness: a first part of both ends in the one list or in the other.
-/
theorem append_paired {first second : List Token} (noStray : NoStray first)
    (paired : Paired second)
    : NoStray (first ++ second) := by
  intro part included
  rcases List.prefix_or_prefix_of_prefix included (List.prefix_append first second)
    with short | ⟨more, rfl⟩
  · exact noStray part short
  · have here := noStray first (List.prefix_refl first)
    have there := paired.noStray more ((List.prefix_append_right_inj first).mp included)
    rw [closings_append, openings_append]
    omega

/-- A list without a first stray closing has none. Witness: induction from the end; the last
token of a list can only be stray if it closes a group.
-/
theorem of_not_firstStray {tokens : List Token}
    (none : ¬ ∃ culprit, FirstStray tokens culprit)
    : NoStray tokens := by
  induction tokens using List.reverseRecOn with
  | nil => exact nil
  | append_singleton rest token ih =>
      have before : NoStray rest := by
        apply ih
        rintro ⟨culprit, earlier, later, rfl, stray⟩
        exact none ⟨culprit, earlier, later ++ [token], by simp, stray⟩
      refine concat_iff.mpr ⟨before, Nat.le_of_not_lt fun more => ?_⟩
      have closes : token.lexeme.isClosing := by
        apply Bool.of_not_eq_false
        intro other
        have here := before rest (List.prefix_refl rest)
        simp only [openings_append, closings_append, closings_cons, other] at more
        simp at more
        omega
      exact none ⟨token, rest, [], rfl, closes, more, before⟩

end NoStray

-----------------------------------------------------------------------------------------
-- Pairs
-----------------------------------------------------------------------------------------

namespace Paired

theorem nil : Paired [] :=
  ⟨.nil, rfl⟩

theorem append {first second : List Token} (before : Paired first) (after : Paired second)
    : Paired (first ++ second) :=
  ⟨before.noStray.append_paired after, by
    rw [openings_append, closings_append, before.even, after.even]⟩

theorem singleton {token : Token} (opens : token.lexeme.isOpening = false)
    (closes : token.lexeme.isClosing = false)
    : Paired [token] := by
  refine ⟨@NoStray.concat_iff [] token |>.mpr ⟨.nil, ?_⟩, ?_⟩ <;> simp [opens, closes]

/-- Parentheses around pairs are one more pair.
Witness: the opening one is ahead of all closings until the last.
-/
theorem group {inner : List Token} {first last : Token} (paired : Paired inner)
    (opens : first.lexeme.isOpening) (closes : last.lexeme.isClosing)
    : Paired (first :: (inner ++ [last])) := by
  have even := paired.even
  have start : NoStray [first] := by
    refine @NoStray.concat_iff [] first |>.mpr ⟨.nil, ?_⟩
    simp [Lexeme.isClosing_of_isOpening opens]
  have counted : openings (first :: (inner ++ [last])) = closings (first :: (inner ++ [last])) := by
    simp [opens, closes, Lexeme.isClosing_of_isOpening opens,
      Lexeme.isOpening_of_isClosing closes, even]
  exact ⟨NoStray.concat_iff.mpr ⟨start.append_paired paired, counted.ge⟩, counted⟩

/-- Before the first stray closing parenthesis all is paired: there are as many openings as
closings, since one more closing is too many.
-/
theorem exists_of_firstStray {tokens : List Token} {culprit : Token}
    (stray : FirstStray tokens culprit)
    : ∃ before after,
        tokens = before ++ culprit :: after ∧ Paired before ∧ culprit.lexeme.isClosing := by
  obtain ⟨before, after, rfl, closes, more, noStray⟩ := stray
  have balance := noStray before (List.prefix_refl before)
  simp only [openings_append, closings_append, openings_cons, closings_cons, closes,
    Lexeme.isOpening_of_isClosing closes, openings_nil, closings_nil] at more
  exact ⟨before, after, rfl, ⟨noStray, by simp at more; omega⟩, closes⟩

/-- What follows pairs is paired if the whole is.
Witness: the pairs in front add the same to both counts.
-/
theorem right {first second : List Token} (whole : Paired (first ++ second))
    (before : Paired first)
    : Paired second := by
  have ahead := before.even
  constructor
  · intro part included
    have counted := whole.noStray _ ((List.prefix_append_right_inj first).mpr included)
    rw [closings_append, openings_append] at counted
    omega
  · have even := whole.even
    rw [closings_append, openings_append] at even
    omega

/-- A parenthesis at the head of pairs has its partner: pairs stand between the two, and pairs
follow. Witness: the rest closes once more than it opens, and the partner is its first stray
closing.
-/
theorem exists_group {first : Token} {rest : List Token} (paired : Paired (first :: rest))
    (opens : first.lexeme.isOpening)
    : ∃ inner last after,
        rest = inner ++ last :: after
        ∧ last.lexeme.isClosing
        ∧ Paired inner
        ∧ Paired after := by
  have even := paired.even
  simp only [openings_cons, closings_cons, opens, Lexeme.isClosing_of_isOpening opens, if_true,
    Bool.false_eq_true, if_false] at even
  have strays : ∃ last, FirstStray rest last := by
    by_contra none
    have level := NoStray.of_not_firstStray none rest (List.prefix_refl rest)
    omega
  obtain ⟨last, inner, after, rfl, closes, more, noStray⟩ := strays
  have level := noStray inner (List.prefix_refl inner)
  simp only [openings_append, closings_append, openings_cons, closings_cons, closes,
    Lexeme.isOpening_of_isClosing closes, openings_nil, closings_nil, if_true,
    Bool.false_eq_true, if_false] at more
  have inside : Paired inner := ⟨noStray, by omega⟩
  have whole : Paired (first :: (inner ++ [last]) ++ after) := by simpa using paired
  exact ⟨inner, last, after, rfl, closes, inside, whole.right (inside.group opens closes)⟩

/-- Where everything is paired no parenthesis is unclosed. Witness: the parenthesis itself would
be one opening too many.
-/
theorem not_unclosedAt {tokens before after : List Token} {culprit : Token}
    (paired : Paired tokens)
    : ¬ UnclosedAt tokens before culprit after := by
  rintro ⟨rfl, opens, unclosed⟩
  have even := paired.even
  have ahead := paired.noStray before (List.prefix_append _ _)
  have behind := unclosed after (List.prefix_refl after)
  simp only [openings_append, closings_append, openings_cons, closings_cons, opens,
    Lexeme.isClosing_of_isOpening opens, if_true, Bool.false_eq_true, if_false] at even
  omega

end Paired

/-- In front of pairs an unclosed parenthesis stands no further right than they begin.
Witness: inside of them there is none.
-/
theorem UnclosedAt.length_le {before inner earlier later : List Token} {first other : Token}
    (found : UnclosedAt (before ++ first :: inner) earlier other later) (paired : Paired inner)
    : earlier.length ≤ before.length := by
  rcases List.append_eq_append_iff.mp found.place with
    ⟨between, rfl, behind⟩ | ⟨between, rfl, _⟩
  · cases between with
    | nil => simp
    | cons _ middle =>
        obtain ⟨_, inside⟩ := List.cons.inj behind
        exact absurd ⟨inside, found.opens, found.unclosed⟩ paired.not_unclosedAt
  · simp

-----------------------------------------------------------------------------------------
-- Open groups
-----------------------------------------------------------------------------------------

/-- The groups that are open at the end of a list, by the parentheses that opened them, the
latest first. Between these all parentheses are paired.
-/
inductive OpenGroups : List Token → List Token → Prop
  | none {tokens} (paired : Paired tokens) : OpenGroups tokens []
  | group {before inner first outer} (around : OpenGroups before outer)
    (opens : first.lexeme.isOpening) (paired : Paired inner)
    : OpenGroups (before ++ first :: inner) (first :: outer)

namespace OpenGroups

/-- Pairs open nothing and close nothing, by cases on the latest group. -/
theorem append_paired {tokens opened more : List Token} (groups : OpenGroups tokens opened)
    (paired : Paired more)
    : OpenGroups (tokens ++ more) opened := by
  cases groups with
  | none before => exact .none (before.append paired)
  | group around opens inner =>
      rw [List.append_assoc, List.cons_append]
      exact .group around opens (inner.append paired)

theorem concat_closing {tokens outer : List Token} {first last : Token}
    (groups : OpenGroups tokens (first :: outer)) (closes : last.lexeme.isClosing)
    : OpenGroups (tokens ++ [last]) outer := by
  cases groups with
  | group around opens inner =>
      rw [List.append_assoc, List.cons_append]
      exact around.append_paired (inner.group opens closes)

theorem paired {tokens : List Token} (groups : OpenGroups tokens []) : Paired tokens := by
  cases groups with
  | none paired => exact paired

/-- A list with open groups is not paired. -/
theorem not_paired {tokens outer : List Token} {first : Token}
    (groups : OpenGroups tokens (first :: outer))
    : ¬ Paired tokens := by
  intro paired
  cases groups with
  | group around opens inner => exact paired.not_unclosedAt ⟨rfl, opens, inner.noStray⟩

/-- The latest open group is opened by the rightmost parenthesis that is never closed.
Witness: behind it everything is paired.
-/
theorem lastUnclosed {tokens outer : List Token} {first : Token}
    (groups : OpenGroups tokens (first :: outer))
    : LastUnclosed tokens first := by
  cases groups with
  | group around opens inner =>
      exact ⟨_, _, ⟨rfl, opens, inner.noStray⟩, fun _ _ _ other => other.length_le inner⟩

/-- There is one rightmost parenthesis that is never closed, so it opens the latest open group.
Witness: the two stand at the same place.
-/
theorem eq_of_lastUnclosed {tokens outer : List Token} {first culprit : Token}
    (groups : OpenGroups tokens (first :: outer)) (last : LastUnclosed tokens culprit)
    : culprit = first := by
  obtain ⟨before, after, found, rightmost⟩ := last
  cases groups with
  | group around opens inner =>
      have level := Nat.le_antisymm (found.length_le inner)
        (rightmost _ _ _ ⟨rfl, opens, inner.noStray⟩)
      exact (List.cons.inj (List.append_inj_right found.place.symm level)).1

end OpenGroups

end SciCalc
