import SciCalc.Proofs.Scan.Longest

/-! Boundaries: a text is scanned the same whatever follows it, as long as what follows cannot
run on from any of its lexemes.

Lexemes of more than one character are made of digits, points and the letters of names. What
starts with none of these ends the lexeme before it, so the scans of two texts follow each other.
-/

namespace SciCalc

/-- A text that continues no lexeme: it starts with no digit, no point and no letter of a name. -/
structure StartsApart (text : List Char) : Prop where
  plain : PlainHead text
  unnamed : ∀ c ∈ text.head?, ∀ f : MathFunction, c ∉ f.name.toList

-----------------------------------------------------------------------------------------
-- Spellings before a boundary
-----------------------------------------------------------------------------------------

theorem MathFunction.ofHead?_append {text rest : List Char} (apart : StartsApart rest)
    : MathFunction.ofHead? (text ++ rest) = MathFunction.ofHead? text := by
  have same : (fun f : MathFunction => f.name.toList.isPrefixOf (text ++ rest))
      = fun f => f.name.toList.isPrefixOf text := by
    funext f
    rw [Bool.eq_iff_iff, List.isPrefixOf_iff_prefix, List.isPrefixOf_iff_prefix]
    exact prefix_append_iff_of_head fun c head => apart.unnamed c head f
  rw [MathFunction.ofHead?, same, MathFunction.ofHead?]

theorem takeWhile_isDigit_append {text rest : List Char} (plain : PlainHead rest)
    : (text ++ rest).takeWhile Char.isDigit = text.takeWhile Char.isDigit
      ∧ (text ++ rest).dropWhile Char.isDigit = text.dropWhile Char.isDigit ++ rest :=
  segment_append fun c head => (plain c head).1

theorem Literal.ofHead?_append {text rest : List Char} (plain : PlainHead rest)
    : Literal.ofHead? (text ++ rest) = Literal.ofHead? text := by
  simp only [Literal.ofHead?, takeWhile_isDigit_append plain]
  cases text.dropWhile Char.isDigit with
  | nil =>
      rw [List.nil_append]
      split
      · rfl
      · cases rest with
        | nil => rfl
        | cons c later =>
            split
            · next point => exact absurd (List.cons.inj point).1 (plain c rfl).2
            · rfl
  | cons c later =>
      by_cases point : c = '.'
      · subst point
        simp [takeWhile_isDigit_append plain]
      · simp [point]

namespace Spelling

theorem ofHead?_append {c : Char} {text rest : List Char} (apart : StartsApart rest)
    : ofHead? (c :: (text ++ rest)) = ofHead? (c :: text) := by
  have functions := @MathFunction.ofHead?_append (c :: text) rest apart
  have literals := @Literal.ofHead?_append (c :: text) rest apart.plain
  rw [List.cons_append] at functions literals
  simp only [ofHead?, functions, literals, List.head?_cons]

end Spelling

-----------------------------------------------------------------------------------------
-- One scan after another
-----------------------------------------------------------------------------------------

/-- A stream that goes on with another where it would end. -/
def TokenStream.followedBy : TokenStream → TokenStream → TokenStream
  | .done, next => next
  | .fault failure, _ => .fault failure
  | .skip character position rest, next => .skip character position (rest.followedBy next)
  | .deliver token rest, next => .deliver token (rest.followedBy next)

namespace TokenStream

/-- What follows a complete stream is delivered behind its tokens. -/
theorem tokens_followedBy {stream : TokenStream} (complete : stream.failure? = none)
    (next : TokenStream)
    : (stream.followedBy next).tokens = stream.tokens ++ next.tokens := by
  induction stream with
  | done => rfl
  | fault failure => cases complete
  | skip character position rest ih => exact ih complete
  | deliver token rest ih => exact congrArg (token :: ·) (ih complete)

theorem failure?_followedBy {stream : TokenStream} (complete : stream.failure? = none)
    (next : TokenStream)
    : (stream.followedBy next).failure? = next.failure? := by
  induction stream with
  | done => rfl
  | fault failure => cases complete
  | skip character position rest ih => exact ih complete
  | deliver token rest ih => exact ih complete

end TokenStream

/-- A text is scanned as it is alone, and what stands apart behind it is scanned from there.
Witness: induction on the scan; the spelling found at a place is the same and ends in the text.
-/
theorem scanFrom_append {mode : Mode} {position : Nat} {text rest : List Char}
    (apart : StartsApart rest)
    : scanFrom mode position (text ++ rest)
      = (scanFrom mode position text).followedBy
          (scanFrom mode (position + text.length) rest) := by
  fun_induction scanFrom mode position text with
  | case1 => rfl
  | case2 position c later spelling found lexeme means ih =>
      have within := (Spelling.text_prefix_of_ofHead? found).length_le
      have some := Spelling.length_text_pos_of_ofHead? found
      rw [List.length_cons] at within
      have ends : position + spelling.text.length + (later.length - (spelling.text.length - 1))
          = position + (later.length + 1) := by omega
      rw [List.cons_append, scanFrom_of_ofHead? ((Spelling.ofHead?_append apart).trans found) means,
        List.drop_append_of_le_length (by omega), ih, List.length_drop, List.length_cons, ends]
      rfl
  | case3 position c later spelling found fails =>
      rw [List.cons_append, scanFrom.eq_def]
      simp only [Spelling.ofHead?_append apart, found, fails]
      rfl
  | case4 position c later found blank ih =>
      rw [List.cons_append, scanFrom.eq_def]
      simp only [Spelling.ofHead?_append apart, found, blank, if_true, ih, List.length_cons]
      rw [Nat.add_right_comm, Nat.add_assoc]
  | case5 position c later found blank strict =>
      subst strict
      rw [List.cons_append, scanFrom.eq_def]
      simp only [Spelling.ofHead?_append apart, found, blank]
      rfl
  | case6 position c later found blank lenient ih =>
      subst lenient
      rw [List.cons_append, scanFrom.eq_def]
      simp only [Spelling.ofHead?_append apart, found, blank, ih, List.length_cons]
      rw [Nat.add_right_comm, Nat.add_assoc]
      rfl

end SciCalc
