import Mathlib.Data.List.DropRight
import SciCalc.Proofs.Scan.Boundary
import SciCalc.Proofs.Token.Places

/-! Blanks around a text: those before it move what is scanned, and those behind it change nothing.

No lexeme starts with a blank or runs on over one.
-/

namespace SciCalc

variable {mode : Mode} {position : Nat} {c : Char} {text blanks rest : List Char}

-----------------------------------------------------------------------------------------
-- Blanks and lexemes
-----------------------------------------------------------------------------------------

/-- A character between the blanks of the ASCII range and the least blank beyond it. -/
def IsVisible (c : Char) : Prop :=
  0x20 < c.toNat ∧ c.toNat < 0x85

/-- Blanks are not visible, by comparison with each range of blanks. -/
theorem Text.not_isVisible (blank : isBlank c) : ¬ IsVisible c := by
  have outside : ∀ range ∈ blankRanges, range.2 ≤ 0x20 ∨ 0x85 ≤ range.1 := by decide
  obtain ⟨range, member, least, greatest⟩ := RangeTable.contains_iff.mp blank
  unfold IsVisible
  rcases outside range member with below | above
  · omega
  · omega

theorem isVisible_of_isDigit (digit : c.isDigit) : IsVisible c := by
  have bounds : 0x30 ≤ c.toNat ∧ c.toNat ≤ 0x39 := Char.isDigit_iff_toNat.mp digit
  unfold IsVisible
  omega

theorem Operator.isVisible_symbol (op : Operator) : IsVisible op.symbol := by
  cases op <;> simp [symbol, IsVisible]

theorem MathFunction.isVisible_of_mem_name (f : MathFunction)
    : ∀ c ∈ f.name.toList, IsVisible c := by
  cases f <;> simp [name, IsVisible]

theorem startsNothing_of_isBlank (blank : Text.isBlank c) : StartsNothing c rest where
  digit := by
    by_contra digit
    exact Text.not_isVisible blank (isVisible_of_isDigit (by simpa using digit))
  operator op same := Text.not_isVisible blank (same ▸ op.isVisible_symbol)
  parenthesis := by
    constructor <;>
      exact fun same => Text.not_isVisible blank (by simp [same, IsVisible])
  name f starts := by
    have some : f.name.toList ≠ [] := by cases f <;> simp [MathFunction.name]
    obtain ⟨first, more, split⟩ := List.exists_cons_of_ne_nil some
    rw [split, List.cons_prefix_cons] at starts
    have member : c ∈ f.name.toList := by simp [split, starts.1]
    exact Text.not_isVisible blank (f.isVisible_of_mem_name c member)

theorem startsApart_of_isBlank (blank : ∀ c ∈ text.head?, Text.isBlank c) : StartsApart text where
  plain c head :=
    have outside := Text.not_isVisible (blank c head)
    ⟨by simpa using fun digit => outside (isVisible_of_isDigit digit),
      fun same => outside (by simp [same, IsVisible])⟩
  unnamed c head f member := Text.not_isVisible (blank c head) (f.isVisible_of_mem_name c member)

-----------------------------------------------------------------------------------------
-- Blanks around a text
-----------------------------------------------------------------------------------------

/-- Blanks in front are passed over one by one, by induction on them. -/
theorem scanFrom_blanks_append (blank : ∀ c ∈ blanks, Text.isBlank c)
    : scanFrom mode position (blanks ++ text)
      = scanFrom mode (position + blanks.length) text := by
  induction blanks generalizing position with
  | nil => rfl
  | cons c rest ih =>
      obtain ⟨first, others⟩ := List.forall_mem_cons.mp blank
      have nothing := Spelling.ofHead?_eq_none_iff.mpr
        (@startsNothing_of_isBlank c (rest ++ text) first)
      have moved : position + 1 + rest.length = position + (c :: rest).length := by
        rw [List.length_cons]
        omega
      rw [List.cons_append, scanFrom.eq_def]
      simp only [nothing, first, if_true]
      rw [ih others, moved]

theorem TokenStream.followedBy_done (stream : TokenStream) : stream.followedBy .done = stream := by
  induction stream with
  | done | fault failure => rfl
  | skip character position rest ih => simp [followedBy, ih]
  | deliver token rest ih => simp [followedBy, ih]

/-- Blanks behind a text are passed over like any others, and then nothing is left. -/
theorem scanFrom_append_blanks (blank : ∀ c ∈ blanks, Text.isBlank c)
    : scanFrom mode position (text ++ blanks) = scanFrom mode position text := by
  have apart : StartsApart blanks :=
    startsApart_of_isBlank fun c head => blank c (List.mem_of_mem_head? head)
  have nothing := @scanFrom_blanks_append mode (position + text.length) [] blanks blank
  rw [List.append_nil] at nothing
  rw [scanFrom_append apart, nothing, scanFrom, TokenStream.followedBy_done]

namespace Text

/-- How many blanks a text starts with. -/
def leadingBlanks (text : List Char) : Nat :=
  (text.takeWhile isBlank).length

/-- A text is what is left without the blanks at its ends, between these blanks. -/
theorem exists_strip_eq (text : List Char)
    : ∃ behind,
        text = text.takeWhile isBlank ++ (strip text ++ behind) ∧ ∀ c ∈ behind, isBlank c := by
  refine ⟨(stripStart text).rtakeWhile isBlank, ?_, fun c => List.mem_rtakeWhile_imp⟩
  have ends : strip text ++ (stripStart text).rtakeWhile isBlank = stripStart text :=
    List.rdropWhile_append_rtakeWhile
  rw [ends]
  exact List.takeWhile_append_dropWhile.symm

end Text

/-- A text is scanned as it is without the blanks at its ends, only as much later as there are
blanks in front of it.
-/
theorem scan_eq_relocate (mode : Mode) (expression : String)
    : scan mode expression
      = (scan mode (String.ofList (Text.strip expression.toList))).relocate
          (· + Text.leadingBlanks expression.toList) := by
  obtain ⟨behind, split, blank⟩ := Text.exists_strip_eq expression.toList
  have front : ∀ c ∈ expression.toList.takeWhile Text.isBlank, Text.isBlank c :=
    fun c => List.mem_takeWhile_imp
  rw [scan, split, scanFrom_blanks_append front, scanFrom_append_blanks blank, scanFrom_add,
    ← split]
  simp [scan, Text.leadingBlanks]

end SciCalc
