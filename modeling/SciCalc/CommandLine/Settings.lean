import SciCalc.CommandLine.Item
import SciCalc.Failure

/-! Settings: what the arguments ask for, taken one item after another. -/

namespace SciCalc.CommandLine

/-- What the arguments ask for. They may take the level away, and then there is none. -/
structure Settings where
  interactive : Bool := false
  mode : Mode := .lenient
  showRpn : Bool := false
  level : Option Log.Level := some .warning
  expression : Option String := none
  deriving DecidableEq, Repr

/-- Why arguments lead to no settings. -/
inductive Stop where
  | help
  | usage (error : UsageError)
  deriving DecidableEq, Repr

/-- Where the one value for the calculator is looked for. The separator belongs to that value
when it stands right before or right after it.
-/
inductive Place where
  /-- The value has not come. -/
  | awaited
  /-- The separator has come, and the value has not. -/
  | separated
  /-- The value has just come. -/
  | taken
  /-- The value has come, and something else after it. -/
  | passed
  deriving DecidableEq, Repr

/-- The settings so far, and the arguments left over. -/
structure Reading where
  settings : Settings := {}
  place : Place := .awaited
  leftover : List String := []
  deriving DecidableEq, Repr

namespace Reading

def leave (text : String) (reading : Reading) : Reading :=
  { reading with leftover := reading.leftover ++ [text] }

/-- Something other than the separator stands after the value. -/
def pass (reading : Reading) : Reading :=
  { reading with place := if reading.place = .taken then .passed else reading.place }

/-- The first value is for the calculator, and any other is left over. -/
def plain (text : String) (reading : Reading) : Reading :=
  match reading.place with
  | .awaited =>
      { reading with
        settings := { reading.settings with expression := some text }
        place := .taken }
  | .separated =>
      { reading with
        settings := { reading.settings with expression := some text }
        place := .passed }
  | .taken | .passed => reading.pass.leave text

/-- The separator belongs to the value beside it, and is left over otherwise. -/
def separator (reading : Reading) : Reading :=
  match reading.place with
  | .awaited => { reading with place := .separated }
  | .taken => { reading with place := .passed }
  | .separated | .passed => reading.leave "--"

/-- A flag without a value takes effect. -/
def apply (reading : Reading) : Flag → Except Stop Reading
  | .help => .error .help
  | .interactive =>
      .ok { reading with settings := { reading.settings with interactive := true } }
  | .strict => .ok { reading with settings := { reading.settings with mode := .strict } }
  | .rpn => .ok { reading with settings := { reading.settings with showRpn := true } }
  | .logLevel => .error (.usage (.missingValue .logLevel))

def setLevel (level : Option Log.Level) (reading : Reading) : Reading :=
  { reading with settings := { reading.settings with level := level } }

/-- The log level takes its value. A double dash never counts as one, and takes the level away. -/
def applyLevel (value : String) (reading : Reading) : Except Stop Reading :=
  if value = "--" then .ok (reading.setLevel none)
  else match Log.Level.ofName? value with
    | some level => .ok (reading.setLevel (some level))
    | none => .error (.usage (.invalidLevel value))

end Reading

/-- A flag and those that further letters stand for. A letter that stands for none makes all
letters from it on a value, which the flag before it does not take.
-/
def flagsOfLetters (flag : Flag) : List Char → Except UsageError (List Flag)
  | [] => .ok [flag]
  | letter :: rest =>
      match Flag.ofLetter? letter with
      | some next => do return flag :: (← flagsOfLetters next rest)
      | none => .error (.ignoredValue flag (String.ofList (letter :: rest)))

/-- The flags of an item that takes no value. -/
def flagsOf (flag : Flag) : Attachment → Except UsageError (List Flag)
  | .nothing => .ok [flag]
  | .value text => .error (.ignoredValue flag text)
  | .letters text => flagsOfLetters flag text.toList

/-- Takes the items one after another. Flags joined in one argument take effect together, once
all of them have been read.
-/
def Reading.takeAll (reading : Reading) : List Item → Except Stop Reading
  | [] => .ok reading
  | .plain text :: rest => (reading.plain text).takeAll rest
  | .separator :: rest => reading.separator.takeAll rest
  | .unknown text :: rest => (reading.pass.leave text).takeAll rest
  | .flag .logLevel (.value value) :: rest => do
      (← reading.pass.applyLevel value).takeAll rest
  | .flag .logLevel .nothing :: .plain value :: rest => do
      (← reading.pass.applyLevel value).takeAll rest
  | .flag flag attachment :: rest => do
      let flags ← (flagsOf flag attachment).mapError .usage
      (← flags.foldlM apply reading.pass).takeAll rest

/-- The settings that the arguments ask for; no argument may be left over. -/
def Settings.ofArguments (arguments : List String) : Except Stop Settings := do
  let items ← (Item.ofArguments arguments).mapError .usage
  let reading ← ({} : Reading).takeAll items
  if reading.leftover.isEmpty then .ok reading.settings
  else .error (.usage (.unrecognized reading.leftover))

end SciCalc.CommandLine
