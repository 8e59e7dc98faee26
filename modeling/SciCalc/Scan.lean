import SciCalc.Failure
import SciCalc.Text.Character
import SciCalc.Token.Spelling
import SciCalc.Token.Stream

/-! Scanning: from the characters of an expression to its tokens.

At each position the longest spelling there becomes a token. Blanks separate tokens. Any other
character is passed over in lenient mode, and ends the scan in strict mode.
-/

namespace SciCalc

/-- The tokens of a text that starts at a position. -/
def scanFrom (mode : Mode) (position : Nat) (text : List Char) : TokenStream :=
  match text with
  | [] => .done
  | c :: rest =>
      match Spelling.ofHead? (c :: rest) with
      | some spelling =>
          match spelling.lexeme? with
          | some lexeme =>
              .deliver ⟨lexeme, position⟩
                (scanFrom mode (position + spelling.text.length)
                  (rest.drop (spelling.text.length - 1)))
          | none => .fault (.numberOutOfRange position)
      | none =>
          if Text.isBlank c then scanFrom mode (position + 1) rest
          else match mode with
            | .strict => .fault (.unrecognized c position)
            | .lenient => .skip c position (scanFrom mode (position + 1) rest)
termination_by text.length
decreasing_by
  all_goals
    simp only [List.length_cons, List.length_drop]
    omega

def scan (mode : Mode) (expression : String) : TokenStream :=
  scanFrom mode 0 expression.toList

end SciCalc
