import SciCalc.CommandLine.Usage
import SciCalc.Text.Character

/-! Items: what each argument is, before any of them takes effect. -/

namespace SciCalc.CommandLine

/-- What stands in one argument together with a flag. -/
inductive Attachment where
  | nothing
  /-- A text that is meant as the value of the flag. -/
  | value (text : String)
  /-- Letters, each of which stands for one more flag. -/
  | letters (text : String)
  deriving DecidableEq, Repr

/-- An argument by its form. -/
inductive Item where
  /-- A value: for the flag before it, or for the calculator. -/
  | plain (text : String)
  /-- The first double dash; all that follow it are values. -/
  | separator
  /-- A flag, and what stands in the argument with it. -/
  | flag (flag : Flag) (attachment : Attachment)
  /-- It has the form of a flag, and is none. -/
  | unknown (text : String)
  deriving DecidableEq, Repr

namespace Item

/-- What an equals sign attaches to a spelling. After a single dash and a letter the sign makes
no difference, as long as more letters follow.
-/
def attached (name : List Char) (text : List Char) : Attachment :=
  match name, text with
  | ['-', _], _ :: _ => .letters (String.ofList text)
  | _, _ => .value (String.ofList text)

/-- A text before its first equals sign, and what is attached by that sign. -/
def splitValue (text : List Char) : List Char × Attachment :=
  let name := text.takeWhile (· ≠ '=')
  (name,
    match text.dropWhile (· ≠ '=') with
    | [] => .nothing
    | _ :: value => attached name value)

/-- Decimal digits, or such digits with a point before the last of them. -/
def isNumeral (text : List Char) : Bool :=
  match text.dropWhile Text.isDecimalDigit with
  | [] => !text.isEmpty
  | '.' :: fraction => !fraction.isEmpty && fraction.all Text.isDecimalDigit
  | _ => false

/-- What follows a dash makes a negative number; one line feed at its end does not count. -/
def isNumeralLine (text : List Char) : Bool :=
  isNumeral text || text.getLast? == some '\n' && isNumeral text.dropLast

/-- The flags that an argument can mean when it is no complete spelling, each with the spelling
that it abbreviates: after a double dash a beginning of a spelling, after a single one a letter
with further letters.
-/
def candidates (text : List Char) : List (String × Item) :=
  match text with
  | '-' :: '-' :: _ =>
      let (name, attachment) := splitValue text
      (Flag.spellings.filter fun spelling => name.isPrefixOf spelling.1.toList).map
        fun spelling => (spelling.1, .flag spelling.2 attachment)
  | '-' :: letter :: rest =>
      ((Flag.ofLetter? letter).map fun known =>
        (String.ofList ['-', letter], .flag known (.letters (String.ofList rest)))).toList
  | _ => []

/-- The item of a complete spelling, on its own or with a value after an equals sign. -/
def ofSpelling? (text : List Char) : Option Item :=
  match Flag.ofSpelling? (String.ofList text) with
  | some known => some (.flag known .nothing)
  | none =>
      match splitValue text with
      | (_, .nothing) => none
      | (name, attachment) =>
          (Flag.ofSpelling? (String.ofList name)).map fun known => .flag known attachment

/-- The item of an argument. What starts with a dash is a flag if it spells or abbreviates one;
otherwise it is a value if it is a lone dash, a negative number, or holds a space.
-/
def ofArgument (argument : String) : Except UsageError Item :=
  match argument.toList with
  | '-' :: second :: rest =>
      let text := '-' :: second :: rest
      match ofSpelling? text with
      | some item => .ok item
      | none =>
          match candidates text with
          | [(_, item)] => .ok item
          | [] =>
              if isNumeralLine (second :: rest) || text.contains ' ' then .ok (.plain argument)
              else .ok (.unknown argument)
          | several => .error (.ambiguous argument (several.map (·.1)))
  | _ => .ok (.plain argument)

def ofArguments : List String → Except UsageError (List Item)
  | [] => .ok []
  | argument :: rest =>
      if argument = "--" then .ok (.separator :: rest.map .plain)
      else do
        let item ← ofArgument argument
        return item :: (← ofArguments rest)

end Item

end SciCalc.CommandLine
