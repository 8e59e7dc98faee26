import SciCalc.Proofs.Infix.Conversion
import SciCalc.Proofs.Infix.Wrapped
import SciCalc.Proofs.Scan.Drawing
import SciCalc.Proofs.Scan.Written

/-! The infix text of a parse tree is read back as the tree.

The text is made of lexemes: every application of an operator and every argument of a function
stands in one pair of parentheses. No two numbers touch, so the scan finds the lexemes again,
and they form a phrase with the same tree, positions apart.
-/

namespace SciCalc

-----------------------------------------------------------------------------------------
-- The lexemes of a text
-----------------------------------------------------------------------------------------

def enclosed (lexemes : List Lexeme) : List Lexeme :=
  .opening "(" :: (lexemes ++ [.closing ")"])

def enclosedIf (needed : Bool) (lexemes : List Lexeme) : List Lexeme :=
  if needed then enclosed lexemes else lexemes

namespace ParseTree

def isBinary : ParseTree → Bool
  | binary .. => true
  | number .. | call .. => false

/-- The lexemes of the infix text, without parentheses around the whole. -/
def body : ParseTree → List Lexeme
  | number value _ => [.number value]
  | call name _ argument => .function name :: enclosed argument.body
  | binary operator _ left right =>
      enclosedIf left.isBinary left.body
        ++ .operator operator.text :: enclosedIf right.isBinary right.body

/-- The lexemes of the infix text: an application of an operator stands in parentheses. -/
def operand (tree : ParseTree) : List Lexeme :=
  enclosedIf tree.isBinary tree.body

end ParseTree

theorem isWritable_of_mem_enclosedIf {needed : Bool} {lexemes : List Lexeme}
    (writable : ∀ lexeme ∈ lexemes, lexeme.IsWritable)
    : ∀ lexeme ∈ enclosedIf needed lexemes, lexeme.IsWritable := by
  intro lexeme member
  cases needed with
  | false => exact writable lexeme member
  | true =>
      simp only [enclosedIf, enclosed, if_true, List.mem_cons, List.mem_append,
        List.not_mem_nil, or_false] at member
      rcases member with rfl | inside | rfl
      · rfl
      · exact writable lexeme inside
      · rfl

theorem ParseTree.isWritable_of_mem_body {tree : ParseTree}
    (writable : ∀ token ∈ tree.postorder, token.lexeme.IsWritable)
    : ∀ lexeme ∈ tree.body, lexeme.IsWritable := by
  induction tree with
  | number value position => simpa [body, postorder] using writable
  | call name position argument ih =>
      obtain ⟨inside, named⟩ := forall_mem_postorder_call.mp writable
      exact List.forall_mem_cons.mpr ⟨named, @isWritable_of_mem_enclosedIf true _ (ih inside)⟩
  | binary operator position left right leftIH rightIH =>
      obtain ⟨inLeft, inRight, named⟩ := forall_mem_postorder_binary.mp writable
      refine List.forall_mem_append.mpr ⟨isWritable_of_mem_enclosedIf (leftIH inLeft), ?_⟩
      exact List.forall_mem_cons.mpr ⟨named, isWritable_of_mem_enclosedIf (rightIH inRight)⟩

/-- What is no number keeps apart what stands before it and behind it. -/
theorem isChain_apart_of_isNumber_eq_false {before after : List Lexeme} {lexeme : Lexeme}
    (other : lexeme.isNumber = false) (first : before.IsChain Lexeme.Apart)
    (second : after.IsChain Lexeme.Apart)
    : (before ++ lexeme :: after).IsChain Lexeme.Apart := by
  refine List.isChain_append.mpr ⟨first, List.isChain_cons.mpr ⟨?_, second⟩, ?_⟩
  · exact fun _ _ => .inl other
  · intro _ _ next found
    obtain rfl := Option.some.inj found
    exact .inr other

theorem isChain_apart_enclosedIf {needed : Bool} {lexemes : List Lexeme}
    (apart : lexemes.IsChain Lexeme.Apart)
    : (enclosedIf needed lexemes).IsChain Lexeme.Apart := by
  cases needed with
  | false => exact apart
  | true =>
      have ended := @isChain_apart_of_isNumber_eq_false _ [] (.closing ")") rfl apart .nil
      exact @isChain_apart_of_isNumber_eq_false [] _ (.opening "(") rfl .nil ended

theorem ParseTree.isChain_apart_body (tree : ParseTree)
    : tree.body.IsChain Lexeme.Apart := by
  induction tree with
  | number value position => exact .singleton _
  | call name position argument ih =>
      exact @isChain_apart_of_isNumber_eq_false [] _ (.function name) rfl .nil
        (@isChain_apart_enclosedIf true _ ih)
  | binary operator position left right leftIH rightIH =>
      exact isChain_apart_of_isNumber_eq_false rfl (isChain_apart_enclosedIf leftIH)
        (isChain_apart_enclosedIf rightIH)

-----------------------------------------------------------------------------------------
-- The characters of the lexemes
-----------------------------------------------------------------------------------------

/-- No number is written with a parenthesis, whether it is one or not.
Witness: only digits, points, signs and a few letters are written.
-/
theorem plain_numberText (x : Float) : ∀ c ∈ (numberText x).toList, c ≠ '(' ∧ c ≠ ')' := by
  have sign {negative : Bool} {text : List Char} (plain : ∀ c ∈ text, c ≠ '(' ∧ c ≠ ')')
      : ∀ c ∈ signed negative text, c ≠ '(' ∧ c ≠ ')' := by
    cases negative with
    | false => exact plain
    | true => exact List.forall_mem_cons.mpr ⟨by decide, plain⟩
  rw [numberText, String.toList_ofList, writeDouble]
  split
  · simp
  · exact sign (by simp)
  · apply sign
    intro c member
    rcases (Decimal.wellFormed_literal _).isDigit_or_eq_point c member with digit | rfl
    · constructor
      · rintro rfl
        cases digit
      · rintro rfl
        cases digit
    · decide

theorem spelt_enclosed (lexemes : List Lexeme)
    : spelt (enclosed lexemes) = '(' :: (spelt lexemes ++ [')']) := by
  simp [enclosed, Lexeme.text]

theorem Balanced.spelt_enclosedIf {needed : Bool} {lexemes : List Lexeme}
    (balanced : Balanced (spelt lexemes))
    : Balanced (spelt (enclosedIf needed lexemes)) := by
  cases needed with
  | false => exact balanced
  | true =>
      change Balanced (spelt (enclosed lexemes))
      rw [spelt_enclosed]
      exact balanced.enclose

theorem Operator.balanced_text (operator : Operator) : Balanced operator.text.toList := by
  rw [toList_text]
  cases operator <;> exact .plain (by decide) (by decide) .nil

/-- Names of the tables have no parentheses, and there is something to them, by cases. -/
theorem exists_plain_name {name : String} (known : (MathFunction.ofName? name).isSome)
    : ∃ c later, name.toList = c :: later ∧ ∀ d ∈ c :: later, d ≠ '(' ∧ d ≠ ')' := by
  obtain ⟨f, rfl⟩ := MathFunction.exists_name_eq known
  cases f with
  | sin => exact ⟨'s', ['i', 'n'], rfl, by simp⟩
  | cos => exact ⟨'c', ['o', 's'], rfl, by simp⟩
  | tan => exact ⟨'t', ['a', 'n'], rfl, by simp⟩
  | log => exact ⟨'l', ['o', 'g'], rfl, by simp⟩
  | sqrt => exact ⟨'s', ['q', 'r', 't'], rfl, by simp⟩

namespace ParseTree

theorem balanced_spelt_body {tree : ParseTree}
    (known : ∀ token ∈ tree.postorder, token.lexeme.IsKnown)
    : Balanced (spelt tree.body) := by
  induction tree with
  | number value position =>
      simpa [body, Lexeme.text] using Balanced.of_forall (plain_numberText value)
  | call name position argument ih =>
      obtain ⟨inside, named⟩ := forall_mem_postorder_call.mp known
      obtain ⟨c, later, same, plain⟩ := exists_plain_name named
      rw [body, spelt_cons, Lexeme.text, same]
      exact (Balanced.of_forall plain).append (@Balanced.spelt_enclosedIf true _ (ih inside))
  | binary operator position left right leftIH rightIH =>
      obtain ⟨inLeft, inRight, _⟩ := forall_mem_postorder_binary.mp known
      rw [body, spelt_append, spelt_cons, Lexeme.text]
      exact (leftIH inLeft).spelt_enclosedIf.append
        (operator.balanced_text.append (rightIH inRight).spelt_enclosedIf)

/-- A text is wrapped exactly if it is an operator's.
Witness: that of a number or function starts with another character.
-/
theorem isWrapped_eq_isBinary {tree : ParseTree} {text : String}
    (known : ∀ token ∈ tree.postorder, token.lexeme.IsKnown)
    (same : text.toList = spelt tree.operand)
    : isWrapped text = tree.isBinary := by
  cases tree with
  | number value position =>
      apply isWrapped_eq_false
      intro starts
      have first : '(' ∈ (numberText value).toList := by
        have written := List.mem_of_mem_head? starts
        rw [same] at written
        simpa [operand, enclosedIf, isBinary, body, Lexeme.text] using written
      exact (plain_numberText value '(' first).1 rfl
  | call name position argument =>
      apply isWrapped_eq_false
      intro starts
      obtain ⟨_, named⟩ := forall_mem_postorder_call.mp known
      obtain ⟨c, later, letters, plain⟩ := exists_plain_name named
      have first : c = '(' := by
        rw [same] at starts
        simpa [operand, enclosedIf, isBinary, body, Lexeme.text, letters] using starts
      exact (plain c (by simp)).1 first
  | binary operator position left right =>
      refine isWrapped_of_enclosed (balanced_spelt_body known) ?_
      rw [same, ← spelt_enclosed]
      rfl

/-- The infix text of a tree is written with its lexemes.
Witness: induction on the tree; parentheses are left out around an argument exactly where it
has its own.
-/
theorem toList_of_result_written {tree : ParseTree} {text : String}
    (known : ∀ token ∈ tree.postorder, token.lexeme.IsKnown)
    (comes : tree.result Algebra.written = .ok text)
    : text.toList = spelt tree.operand := by
  induction tree generalizing text with
  | number value position =>
      obtain rfl := Except.ok.inj comes
      simp [operand, enclosedIf, isBinary, body, Lexeme.text, Algebra.written]
  | call name position argument ih =>
      obtain ⟨inside, _⟩ := forall_mem_postorder_call.mp known
      obtain ⟨inner, reduced, called⟩ := Failure.bind_eq_ok_iff.mp comes
      obtain rfl := Except.ok.inj called
      have same := ih inside reduced
      rw [isWrapped_eq_isBinary inside same]
      change _ = spelt (.function name :: enclosed argument.body)
      rw [spelt_cons, spelt_enclosed, String.toList_append]
      cases wrapped : argument.isBinary with
      | true => simp [same, operand, enclosedIf, wrapped, spelt_enclosed, Lexeme.text]
      | false => simp [same, operand, enclosedIf, wrapped, parenthesized, Lexeme.text]
  | binary operator position left right leftIH rightIH =>
      obtain ⟨inLeft, inRight, _⟩ := forall_mem_postorder_binary.mp known
      obtain ⟨first, leftReduced, continued⟩ := Failure.bind_eq_ok_iff.mp comes
      obtain ⟨second, rightReduced, combined⟩ := Failure.bind_eq_ok_iff.mp continued
      obtain rfl := Except.ok.inj combined
      have before := leftIH inLeft leftReduced
      have after := rightIH inRight rightReduced
      change _ = spelt (enclosed (left.operand ++ .operator operator.text :: right.operand))
      simp [spelt_enclosed, parenthesized, before, after, Lexeme.text]

end ParseTree

-----------------------------------------------------------------------------------------
-- The phrase that the lexemes form
-----------------------------------------------------------------------------------------

/-- Tokens with certain lexemes, wherever they stand, are a closed phrase that means a tree. -/
def ReadsAs (nonterminal : Nonterminal) (lexemes : List Lexeme) (tree : ParseTree) : Prop :=
  ∀ tokens : List Token,
    tokens.map Token.lexeme = lexemes
    → ∃ again, again.placeless = tree.placeless ∧ Phrase nonterminal .closed tokens again

/-- Tokens with lexemes in parentheses stand in parentheses themselves. -/
theorem exists_of_map_eq_enclosed {tokens : List Token} {lexemes : List Lexeme}
    (same : tokens.map Token.lexeme = enclosed lexemes)
    : ∃ first inner last,
        tokens = first :: (inner ++ [last])
        ∧ first.lexeme.isOpening
        ∧ inner.map Token.lexeme = lexemes
        ∧ last.lexeme.isClosing := by
  obtain ⟨first, rest, rfl, opens, others⟩ := List.map_eq_cons_iff.mp same
  obtain ⟨inner, ending, rfl, inside, ends⟩ := List.map_eq_append_iff.mp others
  obtain ⟨last, rfl, closes⟩ := List.map_eq_singleton_iff.mp ends
  exact ⟨first, inner, last, rfl, by rw [opens]; rfl, inside, by rw [closes]; rfl⟩

theorem ReadsAs.enclose {lexemes : List Lexeme} {tree : ParseTree}
    (reads : ReadsAs .sum lexemes tree)
    : ReadsAs .atom (enclosed lexemes) tree := by
  intro tokens same
  obtain ⟨first, inner, last, rfl, opens, inside, closes⟩ := exists_of_map_eq_enclosed same
  obtain ⟨again, placeless, phrase⟩ := reads inner inside
  exact ⟨again, placeless, .group opens closes phrase⟩

namespace ParseTree

/-- The level of the infix text without parentheses around the whole. -/
def nonterminal : ParseTree → Nonterminal
  | number .. | call .. => .atom
  | binary operator .. => operator.nonterminal

/-- An operand is an atom if the text without parentheses is a phrase, by cases. -/
theorem readsAs_operand {tree : ParseTree} (reads : ReadsAs tree.nonterminal tree.body tree)
    : ReadsAs .atom tree.operand tree := by
  cases tree with
  | number | call => exact reads
  | binary =>
      apply ReadsAs.enclose
      intro tokens same
      obtain ⟨again, placeless, phrase⟩ := reads tokens same
      exact ⟨again, placeless, phrase.to_sum⟩

/-- The infix text of a tree is a phrase that means the tree, by induction on the tree. -/
theorem readsAs_body (tree : ParseTree) : ReadsAs tree.nonterminal tree.body tree := by
  induction tree with
  | number value position =>
      intro tokens same
      obtain ⟨⟨lexeme, place⟩, rfl, rfl⟩ := List.map_eq_singleton_iff.mp same
      exact ⟨.number value place, rfl, .number⟩
  | call name position argument ih =>
      intro tokens same
      obtain ⟨⟨lexeme, place⟩, rest, rfl, rfl, others⟩ := List.map_eq_cons_iff.mp same
      obtain ⟨first, inner, last, rfl, opens, inside, closes⟩ :=
        exists_of_map_eq_enclosed others
      obtain ⟨again, placeless, phrase⟩ := ih inner inside
      refine ⟨.call name place again, ?_, .call opens closes phrase.to_sum⟩
      simp [ParseTree.placeless, placeless]
  | binary operator position left right leftIH rightIH =>
      intro tokens same
      obtain ⟨before, rest, rfl, first, others⟩ := List.map_eq_append_iff.mp same
      obtain ⟨⟨lexeme, place⟩, later, rfl, rfl, second⟩ := List.map_eq_cons_iff.mp others
      obtain ⟨leftAgain, leftPlaceless, leftPhrase⟩ := readsAs_operand leftIH before first
      obtain ⟨rightAgain, rightPlaceless, rightPhrase⟩ := readsAs_operand rightIH later second
      refine ⟨.binary operator place leftAgain rightAgain, ?_,
        .binary leftPhrase.of_atom rightPhrase.of_atom⟩
      simp [ParseTree.placeless, leftPlaceless, rightPlaceless]

end ParseTree

-----------------------------------------------------------------------------------------
-- Reading the text back
-----------------------------------------------------------------------------------------

/-- The infix text of a tree converts to the listing of the tree, positions apart, in either
mode, and no character of it is passed over.
Witness: the scan finds its lexemes, which form a phrase that means the tree.
-/
theorem ParseTree.exists_toRpn_written {tree : ParseTree} {text : String}
    (writable : ∀ token ∈ tree.postorder, token.lexeme.IsWritable)
    (comes : tree.result Algebra.written = .ok text)
    : ∃ again : ParseTree,
        again.placeless = tree.placeless ∧ ∀ mode, toRpn mode text = pure again.postorder := by
  have same := toList_of_result_written (fun token member => (writable token member).isKnown) comes
  obtain ⟨again, placeless, phrase⟩ :=
    readsAs_operand tree.readsAs_body (placed 0 tree.operand) (map_lexeme_placed 0 _)
  refine ⟨again, placeless, ?_⟩
  intro mode
  have scanned : scan mode text = .ofList (placed 0 tree.operand) :=
    scan_written same (isWritable_of_mem_enclosedIf (isWritable_of_mem_body writable))
      (isChain_apart_enclosedIf tree.isChain_apart_body)
  rw [toRpn, scanned, draw_conversion_ofList, Conversion.convert_of_phrase phrase]
  rfl

end SciCalc
