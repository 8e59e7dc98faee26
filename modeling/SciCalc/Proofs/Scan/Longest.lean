import SciCalc.Proofs.Scan.Written

/-! The longest spelling at the head of a text: which one is found there, and where none is.

A spelling is found exactly if it stands at the head and goes no further. Nothing is found exactly
if the first character is no digit, operator or parenthesis and no name starts with it.
-/

namespace SciCalc

-----------------------------------------------------------------------------------------
-- Literals
-----------------------------------------------------------------------------------------

namespace Literal

theorem head_dropWhile_isDigit {text : List Char}
    : ∀ c ∈ (text.dropWhile Char.isDigit).head?, c.isDigit = false := by
  intro c head
  have top := List.head?_dropWhile_not Char.isDigit text
  rw [Option.mem_def.mp head] at top
  simpa using top

/-- A point without a digit behind it is not part of a literal.
Witness: no digits are taken from what follows the point.
-/
theorem stopsBefore_point {whole after : List Char}
    (none : after.takeWhile Char.isDigit = [])
    : (⟨whole, []⟩ : Literal).StopsBefore ('.' :: after) := by
  refine ⟨fun c head => ?_, fun _ c later same => ?_⟩
  · cases head
    decide
  · obtain ⟨_, rfl⟩ := List.cons.inj same
    simpa using none

/-- A literal is found at the head of a text with all that belongs to it behind it.
Witness: the digits on either side of the point are taken as far as they go.
-/
theorem exists_of_ofHead? {text : List Char} {literal : Literal}
    (found : ofHead? text = some literal)
    : literal.WellFormed ∧ ∃ rest, text = literal.text ++ rest ∧ literal.StopsBefore rest := by
  have some_whole := whole_ne_nil_of_ofHead? found
  have parts := @List.takeWhile_append_dropWhile _ Char.isDigit text
  simp only [ofHead?] at found
  split at found
  · cases found
  · split at found
    · next after behind =>
        cases found
        refine ⟨⟨some_whole, fun _ => List.mem_takeWhile_imp, fun _ => List.mem_takeWhile_imp⟩, ?_⟩
        rw [behind] at parts
        cases more : after.takeWhile Char.isDigit with
        | nil => exact ⟨'.' :: after, by simpa [Literal.text] using parts.symm,
            stopsBefore_point more⟩
        | cons d later =>
            have fraction := @List.takeWhile_append_dropWhile _ Char.isDigit after
            rw [more, List.cons_append] at fraction
            refine ⟨after.dropWhile Char.isDigit, ?_, head_dropWhile_isDigit, by simp⟩
            simp only [Literal.text, List.isEmpty_cons, Bool.false_eq_true, if_false,
              List.append_assoc, List.cons_append, fraction, parts]
    · next other =>
        cases found
        refine ⟨⟨some_whole, fun _ => List.mem_takeWhile_imp, by simp⟩,
          text.dropWhile Char.isDigit, by simp [Literal.text, parts],
          head_dropWhile_isDigit, ?_⟩
        intro _ c later same
        exact absurd same (other _)

end Literal

-----------------------------------------------------------------------------------------
-- Spellings
-----------------------------------------------------------------------------------------

namespace Spelling

theorem text_of_ofChar? {c : Char} {spelling : Spelling} (found : ofChar? c = some spelling)
    : spelling.text = [c] := by
  simp only [ofChar?] at found
  split at found
  · next opens =>
      cases found
      rw [opens]
      rfl
  · split at found
    · next closes =>
        cases found
        rw [closes]
        rfl
    · obtain ⟨op, known, rfl⟩ := Option.map_eq_some_iff.mp found
      rw [text, Operator.symbol_of_ofSymbol? known]

/-- What is found at the head of a text is a name, a single character, or a literal. -/
theorem exists_of_ofHead? {text : List Char} {spelling : Spelling}
    (found : ofHead? text = some spelling)
    : (∃ f, MathFunction.ofHead? text = some f ∧ spelling = .function f)
      ∨ (∃ c rest, text = c :: rest ∧ ofChar? c = some spelling)
      ∨ ∃ number, Literal.ofHead? text = some number ∧ spelling = .literal number := by
  simp only [ofHead?] at found
  split at found
  · next f named => exact .inl ⟨f, named, (Option.some.inj found).symm⟩
  · split at found
    · next single =>
        cases found
        obtain ⟨c, starts, spelt⟩ := Option.bind_eq_some_iff.mp single
        obtain ⟨rest, same⟩ := List.head?_eq_some_iff.mp starts
        exact .inr (.inl ⟨c, rest, same, spelt⟩)
    · obtain ⟨number, literal, rfl⟩ := Option.map_eq_some_iff.mp found
      exact .inr (.inr ⟨number, literal, rfl⟩)

/-- The one character of a spelling that has only one is no digit, so it is no literal. -/
theorem wellFormed_and_stopsBefore_of_ofChar? {c : Char} {spelling : Spelling} {rest : List Char}
    (spelt : ofChar? c = some spelling)
    : spelling.WellFormed ∧ spelling.StopsBefore rest := by
  cases spelling with
  | literal number =>
      simp only [ofChar?] at spelt
      split at spelt
      · cases spelt
      · split at spelt
        · cases spelt
        · simp at spelt
  | _ => exact ⟨trivial, trivial⟩

/-- A spelling is found at the head of a text exactly if it stands there and goes no further.
Witness: its kind decides what is found; only a literal could go further.
-/
theorem ofHead?_eq_some_iff {text : List Char} {spelling : Spelling}
    : ofHead? text = some spelling
      ↔ spelling.WellFormed
        ∧ ∃ rest, text = spelling.text ++ rest ∧ spelling.StopsBefore rest := by
  constructor
  · intro found
    rcases exists_of_ofHead? found with ⟨f, named, rfl⟩ | ⟨c, rest, rfl, spelt⟩ | ⟨_, literal, rfl⟩
    · obtain ⟨rest, split⟩ := MathFunction.name_prefix_of_ofHead? named
      exact ⟨trivial, rest, split.symm, trivial⟩
    · obtain ⟨wellFormed, stops⟩ := wellFormed_and_stopsBefore_of_ofChar? spelt
      exact ⟨wellFormed, rest, by rw [text_of_ofChar? spelt, List.singleton_append], stops⟩
    · exact Literal.exists_of_ofHead? literal
  · rintro ⟨wellFormed, rest, rfl, stops⟩
    exact ofHead?_text_append wellFormed stops

theorem text_prefix_of_ofHead? {text : List Char} {spelling : Spelling}
    (found : ofHead? text = some spelling)
    : spelling.text <+: text := by
  obtain ⟨_, rest, rfl, _⟩ := ofHead?_eq_some_iff.mp found
  exact List.prefix_append _ rest

theorem length_text_pos_of_ofHead? {text : List Char} {spelling : Spelling}
    (found : ofHead? text = some spelling)
    : 0 < spelling.text.length :=
  List.length_pos_of_ne_nil (text_ne_nil (ofHead?_eq_some_iff.mp found).1)

end Spelling

/-- Nothing starts with a character that stands before a text: no literal, no operator, no
parenthesis and no name.
-/
structure StartsNothing (c : Char) (rest : List Char) : Prop where
  digit : c.isDigit = false
  operator : ∀ op : Operator, op.symbol ≠ c
  parenthesis : c ≠ '(' ∧ c ≠ ')'
  name : ∀ f : MathFunction, ¬ f.name.toList <+: c :: rest

theorem Spelling.ofChar?_eq_none_iff {c : Char}
    : ofChar? c = none ↔ (∀ op : Operator, op.symbol ≠ c) ∧ c ≠ '(' ∧ c ≠ ')' := by
  have operators : Operator.ofSymbol? c = none ↔ ∀ op : Operator, op.symbol ≠ c := by
    simp only [Operator.ofSymbol?, List.find?_eq_none]
    constructor
    · intro none op
      simpa using none op (by cases op <;> simp [Operator.all])
    · intro unlike op _
      simpa using unlike op
  simp only [ofChar?]
  split
  · next opens => simp [opens]
  · split
    · next closes => simp [closes]
    · next opens closes => simp [operators, opens, closes]

theorem MathFunction.ofHead?_eq_none_iff {text : List Char}
    : ofHead? text = none ↔ ∀ f : MathFunction, ¬ f.name.toList <+: text := by
  simp only [ofHead?, List.find?_eq_none, List.isPrefixOf_iff_prefix]
  exact ⟨fun none f => none f (by cases f <;> simp [all]), fun unlike f _ => unlike f⟩

theorem Literal.ofHead?_eq_none_iff {c : Char} {rest : List Char}
    : ofHead? (c :: rest) = none ↔ c.isDigit = false := by
  cases digit : c.isDigit with
  | false => simp [ofHead?, digit]
  | true =>
      simp only [ofHead?, List.takeWhile_cons_of_pos digit, List.isEmpty_cons,
        Bool.false_eq_true, if_false]
      split <;> simp

/-- No spelling is found exactly where nothing starts. -/
theorem Spelling.ofHead?_eq_none_iff {c : Char} {rest : List Char}
    : ofHead? (c :: rest) = none ↔ StartsNothing c rest := by
  have names := @MathFunction.ofHead?_eq_none_iff (c :: rest)
  have chars := @Spelling.ofChar?_eq_none_iff c
  have literals := @Literal.ofHead?_eq_none_iff c rest
  constructor
  · intro nothing
    simp only [ofHead?] at nothing
    split at nothing
    · cases nothing
    · next unnamed =>
        split at nothing
        · cases nothing
        · next single =>
            obtain ⟨operator, parenthesis⟩ := chars.mp single
            exact ⟨literals.mp (Option.map_eq_none_iff.mp nothing), operator, parenthesis,
              names.mp unnamed⟩
  · intro nothing
    have single := chars.mpr ⟨nothing.operator, nothing.parenthesis⟩
    simp [ofHead?, names.mpr nothing.name, single, literals.mpr nothing.digit]

end SciCalc
