import SciCalc.Proofs.Scan.Boundary
import SciCalc.Proofs.Token.Places

/-! Complete scans: the tokens of a text from a position on, where the scan does not fail.

Complete scans follow each other across a boundary, can be moved to a later position, and do not
depend on the mode if they are strict.
-/

namespace SciCalc

/-- A text has these tokens from a position on, and its scan does not fail. -/
structure Scans (mode : Mode) (position : Nat) (text : List Char) (tokens : List Token)
    : Prop where
  complete : (scanFrom mode position text).failure? = none
  delivers : (scanFrom mode position text).tokens = tokens

namespace Scans

variable {mode : Mode} {position : Nat} {text rest : List Char} {tokens more : List Token}

theorem nil : Scans mode position [] [] :=
  ⟨by simp [scanFrom, TokenStream.failure?], by simp [scanFrom, TokenStream.tokens]⟩

theorem lexeme {lexeme : Lexeme} (writable : lexeme.IsWritable)
    (ends : lexeme.isNumber → PlainHead rest)
    (others : Scans mode (position + lexeme.text.length) rest tokens)
    : Scans mode position (lexeme.text.toList ++ rest) (⟨lexeme, position⟩ :: tokens) := by
  constructor
  · rw [scanFrom_text_append writable ends]
    exact others.complete
  · rw [scanFrom_text_append writable ends]
    exact congrArg (_ :: ·) others.delivers

/-- A lexeme that is no number ends by itself, whatever follows it. -/
theorem lexeme_of_isNumber_eq_false {lexeme : Lexeme} (writable : lexeme.IsWritable)
    (other : lexeme.isNumber = false)
    (others : Scans mode (position + lexeme.text.length) rest tokens)
    : Scans mode position (lexeme.text.toList ++ rest) (⟨lexeme, position⟩ :: tokens) :=
  .lexeme writable (by simp [other]) others

theorem append (first : Scans mode position text tokens) (apart : StartsApart rest)
    (second : Scans mode (position + text.length) rest more)
    : Scans mode position (text ++ rest) (tokens ++ more) := by
  constructor
  · rw [scanFrom_append apart, TokenStream.failure?_followedBy first.complete, second.complete]
  · rw [scanFrom_append apart, TokenStream.tokens_followedBy first.complete, first.delivers,
      second.delivers]

theorem relocate (scanned : Scans mode position text tokens) (distance : Nat)
    : Scans mode (position + distance) text (tokens.map (Token.relocate (· + distance))) := by
  constructor
  · rw [scanFrom_add, TokenStream.failure?_relocate, scanned.complete]
    rfl
  · rw [scanFrom_add, TokenStream.tokens_relocate, scanned.delivers]

end Scans

/-- A text whose strict scan is complete is scanned the same in either mode.
Witness: induction on the scan; the modes part only where a strict scan fails.
-/
theorem scanFrom_eq_strict {mode : Mode} {position : Nat} {text : List Char}
    (complete : (scanFrom .strict position text).failure? = none)
    : scanFrom mode position text = scanFrom .strict position text := by
  fun_induction scanFrom mode position text with
  | case1 => simp [scanFrom]
  | case2 position c later spelling found lexeme means ih =>
      rw [scanFrom_of_ofHead? found means] at complete ⊢
      rw [ih complete]
  | case3 position c later spelling found fails =>
      rw [scanFrom.eq_def]
      simp only [found, fails]
  | case4 position c later found blank ih =>
      have strict : scanFrom .strict position (c :: later)
          = scanFrom .strict (position + 1) later := by
        rw [scanFrom.eq_def]
        simp only [found, blank, if_true]
      rw [strict] at complete ⊢
      exact ih complete
  | case5 position c later found blank strict =>
      rw [scanFrom.eq_def]
      simp only [found, blank]
      rfl
  | case6 position c later found blank lenient ih =>
      have fails : scanFrom .strict position (c :: later)
          = .fault (.unrecognized c position) := by
        rw [scanFrom.eq_def]
        simp only [found, blank]
        rfl
      rw [fails] at complete
      cases complete

theorem Scans.of_strict {mode : Mode} {position : Nat} {text : List Char} {tokens : List Token}
    (scanned : Scans .strict position text tokens)
    : Scans mode position text tokens := by
  constructor
  · rw [scanFrom_eq_strict scanned.complete, scanned.complete]
  · rw [scanFrom_eq_strict scanned.complete, scanned.delivers]

end SciCalc
