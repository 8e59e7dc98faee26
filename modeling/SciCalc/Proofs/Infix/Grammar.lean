import SciCalc.Proofs.Rpn.ParseTree

/-! The grammar of infix expressions, with the tree of each phrase.

A sum joins terms, a term joins powers, a power joins atoms, and all of them group to the left.
An atom is a number, a group, a function before a group, or a bare function. The argument of a
bare function is the sum that runs to the end of the group, so nothing can follow it there.
-/

namespace SciCalc

/-- The nonterminals, from the loosest to the tightest. -/
inductive Nonterminal where
  | sum
  | term
  | power
  | atom
  deriving DecidableEq, Repr

/-- The nonterminal whose phrases an operator joins. -/
def Operator.nonterminal : Operator → Nonterminal
  | .add | .subtract => .sum
  | .multiply | .divide => .term
  | .power => .power

namespace Nonterminal

/-- What the operators of a nonterminal have on their right. -/
def tighter : Nonterminal → Nonterminal
  | .sum => .term
  | .term => .power
  | .power | .atom => .atom

/-- The least precedence of an operator that stands in such a phrase outside of groups. -/
def precedence : Nonterminal → Nat
  | .sum => 1
  | .term => 2
  | .power => 3
  | .atom => 4

end Nonterminal

/-- Whether a bare function is the last atom of a phrase, and nothing can follow. -/
inductive Ending where
  | closed
  | bare
  deriving DecidableEq, Repr

def startsGroup : List Token → Bool
  | [] => false
  | token :: _ => token.lexeme.isOpening

/-- The phrases of the grammar: what a list of tokens is, how it ends, and what it means. -/
inductive Phrase : Nonterminal → Ending → List Token → ParseTree → Prop
  | number {value position}
    : Phrase .atom .closed [⟨.number value, position⟩] (.number value position)
  | group {ending tokens tree first last} (opens : first.lexeme.isOpening)
    (closes : last.lexeme.isClosing) (inner : Phrase .sum ending tokens tree)
    : Phrase .atom .closed (first :: (tokens ++ [last])) tree
  | call {name position ending tokens tree first last} (opens : first.lexeme.isOpening)
    (closes : last.lexeme.isClosing) (inner : Phrase .sum ending tokens tree)
    : Phrase .atom .closed (⟨.function name, position⟩ :: first :: (tokens ++ [last]))
        (.call name position tree)
  | bareCall {name position ending tokens tree} (apart : startsGroup tokens = false)
    (inner : Phrase .sum ending tokens tree)
    : Phrase .atom .bare (⟨.function name, position⟩ :: tokens) (.call name position tree)
  | single {nonterminal ending tokens tree}
    (inner : Phrase nonterminal.tighter ending tokens tree)
    : Phrase nonterminal ending tokens tree
  | binary {operator position ending before later left right}
    (leftPhrase : Phrase operator.nonterminal .closed before left)
    (rightPhrase : Phrase operator.nonterminal.tighter ending later right)
    : Phrase operator.nonterminal ending
        (before ++ ⟨.operator operator.text, position⟩ :: later)
        (.binary operator position left right)

theorem Operator.precedence_nonterminal (operator : Operator)
    : operator.nonterminal.precedence = operator.precedence := by
  cases operator <;> rfl

theorem Operator.precedence_tighter (operator : Operator)
    : operator.nonterminal.tighter.precedence = operator.precedence + 1 := by
  cases operator <;> rfl

theorem Nonterminal.precedence_le_tighter (nonterminal : Nonterminal)
    : nonterminal.precedence ≤ nonterminal.tighter.precedence := by
  cases nonterminal <;> decide

/-- An operator that is no looser than a nonterminal and does not join its phrases is tighter. -/
theorem Nonterminal.precedence_tighter_le {nonterminal : Nonterminal} {operator : Operator}
    (tight : nonterminal.precedence ≤ operator.precedence)
    (other : operator.nonterminal ≠ nonterminal)
    : nonterminal.tighter.precedence ≤ operator.precedence := by
  cases nonterminal <;> cases operator <;> first | decide | contradiction

namespace Phrase

theorem of_atom {nonterminal ending tokens tree}
    (atom : Phrase .atom ending tokens tree)
    : Phrase nonterminal ending tokens tree := by
  cases nonterminal with
  | sum => exact .single (.single (.single atom))
  | term => exact .single (.single atom)
  | power => exact .single atom
  | atom => exact atom

theorem to_sum {nonterminal ending tokens tree}
    (phrase : Phrase nonterminal ending tokens tree)
    : Phrase .sum ending tokens tree := by
  cases nonterminal with
  | sum => exact phrase
  | term => exact .single phrase
  | power => exact .single (.single phrase)
  | atom => exact .of_atom phrase

/-- A tree has no other tokens than its phrase, by induction on the phrase. -/
theorem postorder_subset {nonterminal ending tokens tree}
    (phrase : Phrase nonterminal ending tokens tree)
    : tree.postorder ⊆ tokens := by
  induction phrase with
  | number => exact List.Subset.refl _
  | group _ _ _ ih =>
      exact fun token member => List.mem_cons_of_mem _ (List.mem_append_left _ (ih member))
  | call _ _ _ ih =>
      intro token member
      rcases List.mem_append.mp member with inside | last
      · exact List.mem_cons_of_mem _ (List.mem_cons_of_mem _ (List.mem_append_left _ (ih inside)))
      · simp_all
  | bareCall _ _ ih =>
      intro token member
      rcases List.mem_append.mp member with inside | last
      · exact List.mem_cons_of_mem _ (ih inside)
      · simp_all
  | single _ ih => exact ih
  | binary _ _ leftIH rightIH =>
      intro token member
      simp only [ParseTree.postorder, List.mem_append, List.mem_singleton] at member
      rcases member with (inLeft | inRight) | rfl
      · exact List.mem_append_left _ (leftIH inLeft)
      · exact List.mem_append_right _ (List.mem_cons_of_mem _ (rightIH inRight))
      · simp

end Phrase

end SciCalc
