import Mathlib.Data.List.Chain
import SciCalc.Proofs.Scan.Spelled
import SciCalc.Proofs.Segment

/-! Written lexemes: what is written down is scanned again, in either mode.

Every spelling is found at the head of a text that starts with it, and only a literal could run
on into what follows. So lexemes written one after another are delivered one after another, as
long as no two numbers touch.
-/

namespace SciCalc

-----------------------------------------------------------------------------------------
-- Spellings
-----------------------------------------------------------------------------------------

/-- A text that cannot be the rest of a literal: it starts with no digit and no point. -/
def PlainHead (text : List Char) : Prop :=
  ∀ c ∈ text.head?, c.isDigit = false ∧ c ≠ '.'

theorem Literal.exists_digit_text {literal : Literal} (wellFormed : literal.WellFormed)
    : ∃ c later, literal.text = c :: later ∧ c.isDigit := by
  obtain ⟨whole, fraction⟩ := literal
  cases whole with
  | nil => exact absurd rfl wellFormed.some_whole
  | cons c digits => exact ⟨c, _, rfl, wellFormed.whole c (by simp)⟩

/-- A literal goes no further: no digit follows it, and no point with a digit behind, unless it has
a point already.
-/
structure Literal.StopsBefore (literal : Literal) (rest : List Char) : Prop where
  digit : ∀ c ∈ rest.head?, c.isDigit = false
  point : literal.fraction = [] → ∀ c after, rest = '.' :: c :: after → c.isDigit = false

/-- A literal is found where it stands unless it goes further.
Witness: the digits are taken as far as they go, on either side of the point.
-/
theorem Literal.ofHead?_text_append {literal : Literal} (wellFormed : literal.WellFormed)
    {rest : List Char} (stops : literal.StopsBefore rest)
    : Literal.ofHead? (literal.text ++ rest) = some literal := by
  obtain ⟨whole, fraction⟩ := literal
  have floor := @segment_eq_nil _ Char.isDigit rest stops.digit
  have digits := wellFormed.whole
  have more := wellFormed.fraction
  have some_whole : whole.isEmpty = false :=
    List.isEmpty_eq_false_iff.mpr wellFormed.some_whole
  cases fraction with
  | nil =>
      simp only [text, List.isEmpty_nil, if_true, List.append_nil, ofHead?,
        List.takeWhile_append_of_pos digits, List.dropWhile_append_of_pos digits, floor,
        some_whole, Bool.false_eq_true, if_false]
      split
      · next after =>
          have none : after.takeWhile Char.isDigit = [] := by
            refine (segment_eq_nil fun c head => ?_).1
            obtain ⟨later, rfl⟩ := List.head?_eq_some_iff.mp head
            exact stops.point rfl c later rfl
          rw [none]
      · rfl
  | cons d later =>
      have point : ¬ Char.isDigit '.' := by decide
      simp only [text, List.isEmpty_cons, Bool.false_eq_true, if_false, List.append_assoc,
        ofHead?, List.takeWhile_append_of_pos digits, List.dropWhile_append_of_pos digits,
        List.cons_append, List.takeWhile_cons_of_neg point, List.dropWhile_cons_of_neg point,
        List.append_nil, some_whole]
      rw [← List.cons_append, List.takeWhile_append_of_pos more, floor.1, List.append_nil]

namespace Spelling

/-- A literal must be one that a scan takes, and any other spelling is one. -/
def WellFormed : Spelling → Prop
  | .literal number => number.WellFormed
  | _ => True

/-- What may follow a spelling: anything, but more digits or a point after a literal. -/
def EndsBefore (spelling : Spelling) (rest : List Char) : Prop :=
  match spelling with
  | .literal _ => PlainHead rest
  | _ => True

theorem text_ne_nil {spelling : Spelling} (wellFormed : spelling.WellFormed)
    : spelling.text ≠ [] := by
  cases spelling with
  | function f => cases f <;> simp [text, MathFunction.name]
  | operator | opening | closing => exact List.cons_ne_nil _ _
  | literal number =>
      obtain ⟨c, later, starts, _⟩ := Literal.exists_digit_text wellFormed
      rw [text, starts]
      exact List.cons_ne_nil _ _

/-- A text that starts with a digit starts with a literal, if with any spelling.
Witness: no name starts with a digit, and no other character is one.
-/
theorem ofHead?_of_isDigit {c : Char} {rest : List Char} (digit : c.isDigit)
    : ofHead? (c :: rest) = (Literal.ofHead? (c :: rest)).map .literal := by
  have unlike {d : Char} (other : d.isDigit = false) : d ≠ c := by
    rintro rfl
    rw [digit] at other
    cases other
  have unnamed : MathFunction.ofHead? (c :: rest) = none := by
    apply List.find?_eq_none.mpr
    intro f _
    cases f <;> simp [MathFunction.name, List.isPrefixOf, unlike]
  have unsigned : Operator.ofSymbol? c = none := by
    apply List.find?_eq_none.mpr
    intro op _
    cases op <;> simp [Operator.symbol, unlike]
  have single : ofChar? c = none := by
    simp [ofChar?, unsigned, (@unlike '(' rfl).symm, (@unlike ')' rfl).symm]
  simp [ofHead?, unnamed, single]

/-- What may follow a spelling that is found: anything that a literal does not go on with. -/
def StopsBefore (spelling : Spelling) (rest : List Char) : Prop :=
  match spelling with
  | .literal number => number.StopsBefore rest
  | _ => True

theorem EndsBefore.stopsBefore {spelling : Spelling} {rest : List Char}
    (ends : spelling.EndsBefore rest)
    : spelling.StopsBefore rest := by
  cases spelling with
  | literal number =>
      refine ⟨fun c head => (ends c head).1, fun _ c after same => ?_⟩
      exact absurd rfl (ends '.' (by rw [same]; rfl)).2
  | _ => trivial

/-- A spelling is found where it stands, by its kind; only a literal depends on what follows. -/
theorem ofHead?_text_append {spelling : Spelling} (wellFormed : spelling.WellFormed)
    {rest : List Char} (stops : spelling.StopsBefore rest)
    : ofHead? (spelling.text ++ rest) = some spelling := by
  cases spelling with
  | function f => cases f <;> rfl
  | operator op => cases op <;> rfl
  | opening | closing => rfl
  | literal number =>
      have found := Literal.ofHead?_text_append wellFormed stops
      obtain ⟨c, later, starts, digit⟩ := Literal.exists_digit_text wellFormed
      change ofHead? (number.text ++ rest) = _
      rw [starts, List.cons_append] at found ⊢
      rw [ofHead?_of_isDigit digit, found]
      rfl

end Spelling

-----------------------------------------------------------------------------------------
-- Lexemes
-----------------------------------------------------------------------------------------

namespace Lexeme

/-- Two lexemes that can be written next to each other: not two numbers. -/
def Apart (first second : Lexeme) : Prop :=
  first.isNumber = false ∨ second.isNumber = false

/-- What can be written is the meaning of a spelling with the same characters, by cases. -/
theorem IsWritable.exists_spelling {lexeme : Lexeme} (writable : lexeme.IsWritable)
    : ∃ spelling : Spelling,
        spelling.WellFormed
        ∧ spelling.lexeme? = some lexeme
        ∧ spelling.text = lexeme.text.toList
        ∧ ∀ rest, (lexeme.isNumber → PlainHead rest) → spelling.EndsBefore rest := by
  cases lexeme with
  | number value =>
      refine ⟨.literal (numberLiteral value), Decimal.wellFormed_literal _, ?_, ?_, ?_⟩
      · simp [Spelling.lexeme?, value?_numberLiteral writable]
      · exact (toList_numberText writable).symm
      · exact fun rest plain => plain rfl
  | operator text =>
      obtain ⟨op, rfl⟩ := Operator.exists_text_eq writable
      exact ⟨.operator op, trivial, rfl, op.toList_text.symm, fun _ _ => trivial⟩
  | function name =>
      obtain ⟨f, rfl⟩ := MathFunction.exists_name_eq writable
      exact ⟨.function f, trivial, rfl, rfl, fun _ _ => trivial⟩
  | opening text =>
      cases writable
      exact ⟨.opening, trivial, rfl, rfl, fun _ _ => trivial⟩
  | closing text =>
      cases writable
      exact ⟨.closing, trivial, rfl, rfl, fun _ _ => trivial⟩

theorem IsWritable.head_of_isNumber_eq_false {lexeme : Lexeme} (writable : lexeme.IsWritable)
    (other : lexeme.isNumber = false) (rest : List Char)
    : PlainHead (lexeme.text.toList ++ rest) := by
  cases lexeme with
  | number value => cases other
  | operator text =>
      obtain ⟨op, rfl⟩ := Operator.exists_text_eq writable
      cases op <;> simp [PlainHead, Lexeme.text, Operator.text]
  | function name =>
      obtain ⟨f, rfl⟩ := MathFunction.exists_name_eq writable
      cases f <;> simp [PlainHead, Lexeme.text, MathFunction.name]
  | opening text =>
      cases writable
      simp [PlainHead, Lexeme.text]
  | closing text =>
      cases writable
      simp [PlainHead, Lexeme.text]

end Lexeme

/-- A scan delivers the meaning of the spelling that it finds. -/
theorem scanFrom_of_ofHead? {mode : Mode} {position : Nat} {c : Char} {rest : List Char}
    {spelling : Spelling} {lexeme : Lexeme}
    (found : Spelling.ofHead? (c :: rest) = some spelling)
    (means : spelling.lexeme? = some lexeme)
    : scanFrom mode position (c :: rest)
      = .deliver ⟨lexeme, position⟩
          (scanFrom mode (position + spelling.text.length)
            (rest.drop (spelling.text.length - 1))) := by
  rw [scanFrom.eq_def]
  simp only [found, means]

/-- A scan delivers the meaning of a spelling that it finds written, and goes on behind it. -/
theorem scanFrom_spelling_append {mode : Mode} {position : Nat} {spelling : Spelling}
    {lexeme : Lexeme} {rest : List Char} (wellFormed : spelling.WellFormed)
    (stops : spelling.StopsBefore rest) (means : spelling.lexeme? = some lexeme)
    : scanFrom mode position (spelling.text ++ rest)
      = .deliver ⟨lexeme, position⟩
          (scanFrom mode (position + spelling.text.length) rest) := by
  have found := Spelling.ofHead?_text_append wellFormed stops
  cases starts : spelling.text with
  | nil => exact absurd starts (Spelling.text_ne_nil wellFormed)
  | cons c later =>
      rw [starts, List.cons_append] at found
      rw [List.cons_append, scanFrom_of_ofHead? found means, starts]
      simp

/-- A scan fails at a spelling that it finds written and that means nothing. -/
theorem scanFrom_spelling_append_of_meaningless {mode : Mode} {position : Nat}
    {spelling : Spelling} {rest : List Char} (wellFormed : spelling.WellFormed)
    (stops : spelling.StopsBefore rest) (meaningless : spelling.lexeme? = none)
    : scanFrom mode position (spelling.text ++ rest) = .fault (.numberOutOfRange position) := by
  have found := Spelling.ofHead?_text_append wellFormed stops
  cases starts : spelling.text with
  | nil => exact absurd starts (Spelling.text_ne_nil wellFormed)
  | cons c later =>
      rw [starts, List.cons_append] at found
      rw [List.cons_append, scanFrom.eq_def]
      simp only [found, meaningless]

/-- A scan delivers what is written first, if it can tell where that ends. -/
theorem scanFrom_text_append {mode : Mode} {position : Nat} {lexeme : Lexeme}
    {rest : List Char} (writable : lexeme.IsWritable)
    (ends : lexeme.isNumber → PlainHead rest)
    : scanFrom mode position (lexeme.text.toList ++ rest)
      = .deliver ⟨lexeme, position⟩
          (scanFrom mode (position + lexeme.text.length) rest) := by
  obtain ⟨spelling, wellFormed, means, same, bounded⟩ := writable.exists_spelling
  rw [← String.length_toList, ← same]
  exact scanFrom_spelling_append wellFormed (bounded rest ends).stopsBefore means

/-- The characters of lexemes written one after another. -/
def spelt (lexemes : List Lexeme) : List Char :=
  lexemes.flatMap fun lexeme => lexeme.text.toList

@[simp] theorem spelt_cons (lexeme : Lexeme) (rest : List Lexeme)
    : spelt (lexeme :: rest) = lexeme.text.toList ++ spelt rest :=
  List.flatMap_cons

@[simp] theorem spelt_append (first second : List Lexeme)
    : spelt (first ++ second) = spelt first ++ spelt second :=
  List.flatMap_append

@[simp] theorem spelt_nil : spelt [] = [] :=
  rfl

/-- Lexemes written one after another from a position. -/
def placed (position : Nat) : List Lexeme → List Token
  | [] => []
  | lexeme :: rest => ⟨lexeme, position⟩ :: placed (position + lexeme.text.length) rest

@[simp] theorem map_lexeme_placed (position : Nat) (lexemes : List Lexeme)
    : (placed position lexemes).map Token.lexeme = lexemes := by
  induction lexemes generalizing position with
  | nil => rfl
  | cons lexeme rest ih => simp [placed, ih]

/-- A scan delivers what is written, as long as no two numbers touch.
Witness: induction on the lexemes; what follows a number is no number, so it ends there.
-/
theorem scanFrom_written {mode : Mode} {position : Nat} {lexemes : List Lexeme}
    (writable : ∀ lexeme ∈ lexemes, lexeme.IsWritable)
    (apart : lexemes.IsChain Lexeme.Apart)
    : scanFrom mode position (spelt lexemes) = .ofList (placed position lexemes) := by
  induction lexemes generalizing position with
  | nil => simp [spelt, scanFrom, placed, TokenStream.ofList]
  | cons lexeme rest ih =>
      have others := @ih (position + lexeme.text.length)
        (fun other member => writable other (List.mem_cons_of_mem _ member)) apart.tail
      rw [spelt_cons, scanFrom_text_append (writable lexeme (by simp)), others]
      · rfl
      · intro number
        cases rest with
        | nil => simp [PlainHead, spelt]
        | cons second later =>
            rw [spelt_cons]
            refine (writable second (by simp)).head_of_isNumber_eq_false ?_ _
            rcases apart.rel with other | other
            · rw [number] at other
              cases other
            · exact other

/-- An expression made of lexemes has them for its tokens. -/
theorem scan_written {mode : Mode} {expression : String} {lexemes : List Lexeme}
    (same : expression.toList = spelt lexemes)
    (writable : ∀ lexeme ∈ lexemes, lexeme.IsWritable)
    (apart : lexemes.IsChain Lexeme.Apart)
    : scan mode expression = .ofList (placed 0 lexemes) := by
  rw [scan, same, scanFrom_written writable apart]

end SciCalc
