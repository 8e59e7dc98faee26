/-! Input: bytes decoded to a text, with the first place where they are no text, and the lines of
a text.
-/

namespace SciCalc.Text

namespace Utf8

/-- Why a sequence of bytes stands for no character. -/
inductive Reason where
  /-- No sequence starts with this byte. -/
  | invalidStart
  /-- A sequence was begun, and the byte that follows cannot continue it. -/
  | invalidContinuation
  /-- A sequence was begun, and the bytes ended. -/
  | unexpectedEnd
  deriving DecidableEq, Repr

def Reason.text : Reason → String
  | .invalidStart => "invalid start byte"
  | .invalidContinuation => "invalid continuation byte"
  | .unexpectedEnd => "unexpected end of data"

/-- The first place where bytes are no text: the position and value of the first byte of the bad
sequence, how many of its bytes were good (the first one is always counted), and what is wrong.
-/
structure Fault where
  position : Nat
  byte : UInt8
  size : Nat
  reason : Reason
  deriving DecidableEq, Repr

/-- A fault of one byte names the byte, a longer one its first and last position. -/
def Fault.message (fault : Fault) : String :=
  let place :=
    if fault.size ≤ 1 then
      let byte := fault.byte.toNat
      "byte 0x" ++ String.ofList [(byte / 16).digitChar, (byte % 16).digitChar]
        ++ " in position " ++ toString fault.position
    else
      "bytes in position " ++ toString fault.position ++ "-"
        ++ toString (fault.position + fault.size - 1)
  "'utf-8' codec can't decode " ++ place ++ ": " ++ fault.reason.text

/-- What the first byte of a sequence lays down: the bits it contributes, how many bytes follow,
and the least and greatest value of the next one. The narrower bounds keep out long forms of
short characters, surrogates, and numbers above U+10FFFF.
-/
structure Lead where
  bits : Nat
  following : Nat
  least : Nat
  greatest : Nat

/-- The sequences of one to four bytes, by their first byte. -/
def Lead.ofByte? (byte : Nat) : Option Lead :=
  if byte ≤ 0x7F then some ⟨byte, 0, 0x80, 0xBF⟩
  else if byte ≤ 0xC1 then none
  else if byte ≤ 0xDF then some ⟨byte - 0xC0, 1, 0x80, 0xBF⟩
  else if byte = 0xE0 then some ⟨0, 2, 0xA0, 0xBF⟩
  else if byte = 0xED then some ⟨0x0D, 2, 0x80, 0x9F⟩
  else if byte ≤ 0xEF then some ⟨byte - 0xE0, 2, 0x80, 0xBF⟩
  else if byte = 0xF0 then some ⟨0, 3, 0x90, 0xBF⟩
  else if byte ≤ 0xF3 then some ⟨byte - 0xF0, 3, 0x80, 0xBF⟩
  else if byte = 0xF4 then some ⟨4, 3, 0x80, 0x8F⟩
  else none

/-- Reads the bytes that follow a first one; `good` counts the bytes of the sequence that were
good so far, and `code` holds their bits.
-/
def readFollowing (code good least greatest : Nat)
    : (following : Nat) → List UInt8 → Except (Nat × Reason) Nat
  | 0, _ => .ok code
  | _ + 1, [] => .error (good, .unexpectedEnd)
  | following + 1, byte :: rest =>
      if least ≤ byte.toNat ∧ byte.toNat ≤ greatest then
        readFollowing (code * 64 + (byte.toNat - 0x80)) (good + 1) 0x80 0xBF following rest
      else .error (good, .invalidContinuation)

/-- The characters of a list of bytes that starts at a position. -/
def decodeFrom (position : Nat) (bytes : List UInt8) : Except Fault (List Char) :=
  match bytes with
  | [] => .ok []
  | byte :: rest =>
      match Lead.ofByte? byte.toNat with
      | none => .error ⟨position, byte, 1, .invalidStart⟩
      | some lead =>
          match readFollowing lead.bits 1 lead.least lead.greatest lead.following rest with
          | .error (size, reason) => .error ⟨position, byte, size, reason⟩
          | .ok code =>
              (decodeFrom (position + lead.following + 1) (rest.drop lead.following)).map
                (Char.ofNat code :: ·)
termination_by bytes.length
decreasing_by
  simp only [List.length_cons, List.length_drop]
  omega

def decode (bytes : List UInt8) : Except Fault String :=
  (decodeFrom 0 bytes).map String.ofList

end Utf8

/-- The lines of a text, without what ends them. A line feed, a carriage return, or the two together
in the order return, feed, ends a line; a last line needs no end.
-/
def lines : List Char → List (List Char)
  | [] => []
  | '\r' :: '\n' :: rest => [] :: lines rest
  | '\r' :: rest => [] :: lines rest
  | '\n' :: rest => [] :: lines rest
  | c :: rest =>
      match lines rest with
      | [] => [[c]]
      | line :: more => (c :: line) :: more

end SciCalc.Text
