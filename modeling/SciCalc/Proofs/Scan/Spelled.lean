import SciCalc.Proofs.Number.ReadBack
import SciCalc.Proofs.Rpn.ParseTree
import SciCalc.Scan

/-! What a scan delivers: every token is the meaning of a spelling, so it can be written again.
-/

namespace SciCalc

/-- A delivered token is what some spelling means, by induction on the scan. -/
theorem exists_spelling_of_mem_scanFrom {mode : Mode} {position : Nat} {text : List Char}
    {token : Token} (delivered : token ∈ (scanFrom mode position text).tokens)
    : ∃ spelling : Spelling, spelling.lexeme? = some token.lexeme := by
  fun_induction scanFrom mode position text with
  | case1 => cases delivered
  | case2 position c rest spelling found lexeme means ih =>
      rcases List.mem_cons.mp delivered with rfl | later
      · exact ⟨spelling, means⟩
      · exact ih later
  | case3 => cases delivered
  | case4 position c rest found blank ih => exact ih delivered
  | case5 => cases delivered
  | case6 position c rest found blank lenient ih =>
      subst lenient
      exact ih delivered

/-- A lexeme that can be written so that a scan finds it: a number without a sign, a known name,
or a parenthesis that looks like one.
-/
def Lexeme.IsWritable : Lexeme → Prop
  | .number value => IsUnsigned value
  | .operator text => (Operator.ofText? text).isSome
  | .function name => (MathFunction.ofName? name).isSome
  | .opening text => text = "("
  | .closing text => text = ")"

theorem Lexeme.IsWritable.isKnown {lexeme : Lexeme} (writable : lexeme.IsWritable)
    : lexeme.IsKnown := by
  cases lexeme with
  | operator _ | function _ => exact writable
  | number _ | opening _ | closing _ => trivial

theorem Spelling.isWritable {spelling : Spelling} {lexeme : Lexeme}
    (means : spelling.lexeme? = some lexeme)
    : lexeme.IsWritable := by
  cases spelling with
  | function f =>
      cases means
      simp [Lexeme.IsWritable, MathFunction.ofName?_name]
  | operator op =>
      cases means
      simp [Lexeme.IsWritable, Operator.ofText?_text]
  | opening | closing =>
      cases means
      rfl
  | literal number =>
      obtain ⟨value, valued, rfl⟩ := Option.map_eq_some_iff.mp means
      exact Literal.isUnsigned_of_value? valued

theorem isWritable_of_mem_scan {mode : Mode} {expression : String} {token : Token}
    (delivered : token ∈ (scan mode expression).tokens)
    : token.lexeme.IsWritable := by
  obtain ⟨_, means⟩ := exists_spelling_of_mem_scanFrom delivered
  exact Spelling.isWritable means

end SciCalc
