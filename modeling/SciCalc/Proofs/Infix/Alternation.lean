import SciCalc.Proofs.Infix.Grammar
import SciCalc.Proofs.Infix.Parentheses

/-! Which lists of tokens are phrases: those with paired parentheses in which operands and
operators take turns.

An operand starts with a number, a function or a group, and it ends with a number or a group. In
a phrase one starts exactly where none has just ended: none is missing, and no two touch. Such a
list is read from the left: its first atom, then one operator and one atom after the other, each
put where its precedence says.
-/

namespace SciCalc

/-- Whether an operand can start with a lexeme. -/
def Lexeme.startsOperand : Lexeme → Bool
  | .number _ | .function _ | .opening _ => true
  | .operator _ | .closing _ => false

/-- Whether an operand ends with a lexeme. -/
def Lexeme.endsOperand : Lexeme → Bool
  | .number _ | .closing _ => true
  | .operator _ | .function _ | .opening _ => false

/-- Whether operands and operators take turns, with an operand right before the list or without:
each token starts an operand exactly if none has just ended, and one ends the list.
-/
def alternates : (behind : Bool) → List Token → Bool
  | behind, [] => behind
  | behind, token :: rest =>
      (token.lexeme.startsOperand != behind) && alternates token.lexeme.endsOperand rest

/-- A token that starts no operand divides a list: what stands before it ends with an operand.
Witness: induction on what stands before.
-/
theorem alternates_append_cons {joint : Token} (joins : joint.lexeme.startsOperand = false)
    (behind : Bool) (before after : List Token)
    : alternates behind (before ++ joint :: after)
      = (alternates behind before && alternates joint.lexeme.endsOperand after) := by
  induction before generalizing behind with
  | nil => simp [alternates, joins]
  | cons token rest ih => simp [alternates, ih, Bool.and_assoc]

/-- The places where an operand should start and none does, with an operand right before the
list or without. The end of the list is such a place if no operand has just ended.
-/
def missingOperands : (behind : Bool) → List Token → Nat
  | behind, [] => (!behind).toNat
  | behind, token :: rest =>
      (!behind && !token.lexeme.startsOperand).toNat
        + missingOperands token.lexeme.endsOperand rest

/-- The places where an operand starts right behind another. -/
def touchingOperands : (behind : Bool) → List Token → Nat
  | _, [] => 0
  | behind, token :: rest =>
      (behind && token.lexeme.startsOperand).toNat
        + touchingOperands token.lexeme.endsOperand rest

/-- Operands and operators take turns exactly if no operand is missing and no two touch. -/
theorem alternates_iff {behind : Bool} {tokens : List Token}
    : alternates behind tokens
      ↔ missingOperands behind tokens = 0 ∧ touchingOperands behind tokens = 0 := by
  induction tokens generalizing behind with
  | nil => cases behind <;> simp [alternates, missingOperands, touchingOperands]
  | cons token rest ih =>
      cases behind <;> cases starts : token.lexeme.startsOperand <;>
        simp [alternates, missingOperands, touchingOperands, starts, ih]

/-- Numbers and operators tell how many more operands touch than are missing.
Witness: induction on the list. A number starts an operand and ends one, an operator does
neither, and of the others each does one of the two.
-/
theorem touchingOperands_add_countP (behind : Bool) (tokens : List Token)
    : touchingOperands behind tokens + tokens.countP Token.isOperator + 1
      = missingOperands behind tokens + tokens.countP Token.isNumber + behind.toNat := by
  induction tokens generalizing behind with
  | nil => cases behind <;> rfl
  | cons token rest ih =>
      have counted := ih token.lexeme.endsOperand
      obtain ⟨lexeme, position⟩ := token
      cases lexeme <;> cases behind <;>
        simp [touchingOperands, missingOperands, List.countP_cons, Token.isOperator,
          Token.isNumber, Lexeme.isOperator, Lexeme.isNumber, Lexeme.startsOperand,
          Lexeme.endsOperand] at counted ⊢ <;>
        omega

theorem Lexeme.startsOperand_of_isOpening {lexeme : Lexeme} (opens : lexeme.isOpening)
    : lexeme.startsOperand ∧ lexeme.endsOperand = false := by
  cases lexeme with
  | opening text => exact ⟨rfl, rfl⟩
  | _ => cases opens

theorem Lexeme.endsOperand_of_isClosing {lexeme : Lexeme} (closes : lexeme.isClosing)
    : lexeme.startsOperand = false ∧ lexeme.endsOperand := by
  cases lexeme with
  | closing text => exact ⟨rfl, rfl⟩
  | _ => cases closes

/-- A group is an operand exactly if its inside is the right thing to follow no operand. -/
theorem alternates_group {behind : Bool} {inner after : List Token} {first last : Token}
    (opens : first.lexeme.isOpening) (closes : last.lexeme.isClosing)
    : alternates behind (first :: (inner ++ last :: after))
      = (!behind && alternates false inner && alternates true after) := by
  obtain ⟨starts, unended⟩ := Lexeme.startsOperand_of_isOpening opens
  obtain ⟨unstarted, ends⟩ := Lexeme.endsOperand_of_isClosing closes
  rw [alternates, alternates_append_cons unstarted, starts, unended, ends]
  cases behind <;> rfl

-----------------------------------------------------------------------------------------
-- From a phrase to its tokens
-----------------------------------------------------------------------------------------

namespace Phrase

/-- Operands and operators take turns in a phrase, by induction on it. -/
theorem alternates {nonterminal ending tokens tree}
    (phrase : Phrase nonterminal ending tokens tree)
    : alternates false tokens := by
  induction phrase with
  | number => rfl
  | group opens closes _ ih => rw [alternates_group opens closes, ih]; rfl
  | call opens closes _ ih =>
      rw [SciCalc.alternates, Lexeme.endsOperand, alternates_group opens closes, ih]
      rfl
  | bareCall _ _ ih => rw [SciCalc.alternates, Lexeme.endsOperand, ih]; rfl
  | single _ ih => exact ih
  | binary _ _ leftIH rightIH =>
      rw [alternates_append_cons rfl, leftIH, Lexeme.endsOperand, rightIH]
      rfl

/-- The parentheses of a phrase are paired, by induction on it. -/
theorem paired {nonterminal ending tokens tree}
    (phrase : Phrase nonterminal ending tokens tree)
    : Paired tokens := by
  induction phrase with
  | number => exact .singleton rfl rfl
  | group opens closes _ ih => exact ih.group opens closes
  | call opens closes _ ih => exact (Paired.singleton rfl rfl).append (ih.group opens closes)
  | bareCall _ _ ih => exact (Paired.singleton rfl rfl).append ih
  | single _ ih => exact ih
  | binary _ _ leftIH rightIH =>
      exact leftIH.append ((Paired.singleton rfl rfl).append rightIH)

/-- An operator and an atom behind a closed phrase make it longer, if the operator is no looser
than the phrase. Witness: induction on the phrase. The operator joins the whole at its own
level, and above that the last operand becomes longer.
-/
theorem exists_extended {nonterminal front ending tokens later left right}
    (phrase : Phrase nonterminal front tokens left) (closed : front = .closed)
    {operator : Operator} (tight : nonterminal.precedence ≤ operator.precedence)
    (position : Int) (atom : Phrase .atom ending later right)
    : ∃ tree,
        Phrase nonterminal ending (tokens ++ ⟨.operator operator.text, position⟩ :: later)
          tree := by
  induction phrase with
  | number | group | call | bareCall => cases operator <;> contradiction
  | @single nonterminal _ _ _ inner ih =>
      by_cases level : operator.nonterminal = nonterminal
      · subst level closed
        exact ⟨_, .binary (.single inner) atom.of_atom⟩
      · obtain ⟨tree, longer⟩ := ih closed (Nonterminal.precedence_tighter_le tight level)
        exact ⟨tree, .single longer⟩
  | @binary joint place _ before middle _ _ leftPhrase rightPhrase _ ih =>
      by_cases level : operator.nonterminal = joint.nonterminal
      · subst closed
        have whole := @Phrase.binary joint place _ _ _ _ _ leftPhrase rightPhrase
        rw [← level] at whole ⊢
        exact ⟨_, .binary whole atom.of_atom⟩
      · obtain ⟨tree, longer⟩ := ih closed (Nonterminal.precedence_tighter_le tight level)
        rw [List.append_assoc, List.cons_append]
        exact ⟨_, .binary leftPhrase longer⟩

end Phrase

-----------------------------------------------------------------------------------------
-- From the tokens to a phrase
-----------------------------------------------------------------------------------------

/-- Tokens that can follow a place, with an operand right before it or without. -/
structure Continues (behind : Bool) (tokens : List Token) : Prop where
  known : ∀ token ∈ tokens, token.lexeme.IsKnown
  paired : Paired tokens
  alternate : alternates behind tokens

/-- Tokens that the grammar generates, as a whole. -/
def IsSum (tokens : List Token) : Prop :=
  ∃ ending tree, Phrase .sum ending tokens tree

namespace Continues

/-- Behind a token that is no parenthesis, the rest continues from there. -/
theorem tail {behind : Bool} {token : Token} {rest : List Token}
    (continues : Continues behind (token :: rest)) (opens : token.lexeme.isOpening = false)
    (closes : token.lexeme.isClosing = false)
    : Continues token.lexeme.endsOperand rest where
  known other member := continues.known other (List.mem_cons_of_mem _ member)
  paired := @Paired.right [token] rest continues.paired (.singleton opens closes)
  alternate := (Bool.and_eq_true_iff.mp continues.alternate).2

/-- Where a group opens, it goes on with the inside of the group, and behind it as behind an
operand.
-/
theorem exists_group {first : Token} {rest : List Token}
    (continues : Continues false (first :: rest)) (opens : first.lexeme.isOpening)
    : ∃ inner last after,
        rest = inner ++ last :: after
        ∧ inner.length < rest.length
        ∧ last.lexeme.isClosing
        ∧ Continues false inner
        ∧ Continues true after := by
  obtain ⟨inner, last, after, rfl, closes, inside, behind⟩ :=
    continues.paired.exists_group opens
  have both := continues.alternate
  rw [alternates_group opens closes, Bool.not_false, Bool.true_and, Bool.and_eq_true] at both
  have less : inner.length < (inner ++ last :: after).length := by
    rw [List.length_append, List.length_cons]
    omega
  refine ⟨inner, last, after, rfl, less, closes, ⟨?_, inside, both.1⟩, ⟨?_, behind, both.2⟩⟩
  · intro token member
    exact continues.known token (by simp [member])
  · intro token member
    exact continues.known token (by simp [member])

/-- What continues from a place without an operand starts with an atom, and with nothing behind
it if that is a bare function. Witness: cases on the first token; what stands in a group, or
behind a bare function, is a shorter list.
-/
theorem exists_atom {tokens : List Token} (continues : Continues false tokens)
    (shorter : ∀ part, part.length < tokens.length → Continues false part → IsSum part)
    : ∃ ending atom after tree,
        tokens = atom ++ after
        ∧ Phrase .atom ending atom tree
        ∧ Continues true after
        ∧ (ending = .bare → after = []) := by
  cases tokens with
  | nil => cases continues.alternate
  | cons token rest =>
      obtain ⟨lexeme, position⟩ := token
      cases lexeme with
      | number value =>
          exact ⟨_, [⟨.number value, position⟩], rest, _, rfl, .number,
            continues.tail rfl rfl, nofun⟩
      | operator text => cases continues.alternate
      | closing text => cases continues.alternate
      | opening text =>
          obtain ⟨inner, last, after, rfl, less, closes, inside, behind⟩ :=
            continues.exists_group rfl
          obtain ⟨_, tree, phrase⟩ := shorter inner (Nat.lt_succ_of_lt less) inside
          exact ⟨_, ⟨.opening text, position⟩ :: (inner ++ [last]), after, tree, by simp,
            .group rfl closes phrase, behind, nofun⟩
      | function name =>
          have argument : Continues false rest := continues.tail rfl rfl
          cases grouped : startsGroup rest with
          | false =>
              obtain ⟨_, tree, phrase⟩ := shorter rest (by simp) argument
              exact ⟨_, ⟨.function name, position⟩ :: rest, [], _, by simp,
                .bareCall grouped phrase, ⟨nofun, .nil, rfl⟩, fun _ => rfl⟩
          | true =>
              obtain _ | ⟨first, others⟩ := rest
              · cases grouped
              · obtain ⟨inner, last, after, rfl, less, closes, inside, behind⟩ :=
                  argument.exists_group grouped
                have lesser := Nat.lt_succ_of_lt (Nat.lt_succ_of_lt less)
                obtain ⟨_, tree, phrase⟩ := shorter inner lesser inside
                exact ⟨_, ⟨.function name, position⟩ :: first :: (inner ++ [last]), after, _,
                  by simp, .call grouped closes phrase, behind, nofun⟩

/-- What continues from behind a closed sum makes it a longer sum. Witness: induction on the
length of what follows, an operator and an atom at a time.
-/
theorem isSum_append {front after : List Token} {left : ParseTree}
    (phrase : Phrase .sum .closed front left) (continues : Continues true after)
    (shorter : ∀ part, part.length < after.length → Continues false part → IsSum part)
    : IsSum (front ++ after) := by
  induction length : after.length using Nat.strongRecOn generalizing front after left with
  | ind _ ih =>
      subst length
      cases after with
      | nil => exact ⟨.closed, left, by simpa using phrase⟩
      | cons token rest =>
          obtain ⟨lexeme, position⟩ := token
          cases lexeme with
          | number _ | function _ | opening _ => cases continues.alternate
          | closing text =>
              have stray := continues.paired.noStray [_] ⟨rest, rfl⟩
              simp [Lexeme.isOpening, Lexeme.isClosing] at stray
          | operator text =>
              obtain ⟨operator, rfl⟩ :=
                Operator.exists_text_eq (continues.known _ List.mem_cons_self)
              obtain ⟨ending, atom, later, _, rfl, operand, behind, last⟩ :=
                exists_atom (continues.tail rfl rfl) fun part less =>
                  shorter part (Nat.lt_succ_of_lt less)
              have loosest : Nonterminal.precedence .sum ≤ operator.precedence := by
                cases operator <;> decide
              obtain ⟨tree, longer⟩ := phrase.exists_extended rfl loosest position operand
              rw [← List.cons_append, ← List.append_assoc]
              cases ending with
              | bare => exact ⟨.bare, tree, by simpa [last rfl] using longer⟩
              | closed =>
                  have rest : later.length
                      < (⟨.operator operator.text, position⟩ :: (atom ++ later)).length := by
                    rw [List.length_cons, List.length_append]
                    omega
                  exact ih later.length rest longer behind
                    (fun part less => shorter part (less.trans rest)) rfl

/-- What continues from a place without an operand is a sum.
Witness: induction on its length; the first atom is a sum, and the rest makes it longer.
-/
theorem isSum {tokens : List Token} (continues : Continues false tokens) : IsSum tokens := by
  induction length : tokens.length using Nat.strongRecOn generalizing tokens with
  | ind _ ih =>
      subst length
      have shorter (part : List Token) (less : part.length < tokens.length)
          (inside : Continues false part) : IsSum part := ih _ less inside rfl
      obtain ⟨ending, atom, after, tree, rfl, phrase, behind, last⟩ :=
        continues.exists_atom shorter
      cases ending with
      | bare => exact ⟨.bare, tree, by simpa [last rfl] using phrase.to_sum⟩
      | closed =>
          refine isSum_append phrase.to_sum behind fun part less => shorter part ?_
          simp only [List.length_append]
          omega

end Continues

/-- A list of known tokens is a sum exactly if its parentheses are paired and operands and
operators take turns in it.
-/
theorem isSum_iff {tokens : List Token} (known : ∀ token ∈ tokens, token.lexeme.IsKnown)
    : IsSum tokens ↔ Paired tokens ∧ alternates false tokens := by
  constructor
  · intro sum
    obtain ⟨_, _, phrase⟩ := sum
    exact ⟨phrase.paired, phrase.alternates⟩
  · intro both
    exact Continues.isSum ⟨known, both.1, both.2⟩

end SciCalc
