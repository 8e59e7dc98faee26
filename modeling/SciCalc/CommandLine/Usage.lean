import SciCalc.Log
import SciCalc.Text.Quoted

/-! Usage: the options of the command line, how they are spelled and explained, and what is said
when the arguments say nothing clear.
-/

namespace SciCalc.CommandLine

/-- The options. Only the log level takes a value. -/
inductive Flag where
  | help
  | interactive
  | strict
  | rpn
  | logLevel
  deriving DecidableEq, Repr

namespace Flag

/-- Every spelling, in the order in which options are listed. -/
def spellings : List (String × Flag) :=
  [("-h", .help), ("--help", .help), ("--interactive", .interactive), ("-i", .interactive),
    ("--strict", .strict), ("--rpn", .rpn), ("--log-level", .logLevel)]

def ofSpelling? (text : String) : Option Flag :=
  spellings.lookup text

/-- The flag of one letter after a single dash. -/
def ofLetter? (c : Char) : Option Flag :=
  ofSpelling? (String.ofList ['-', c])

/-- How messages call a flag: all its spellings. -/
def title (flag : Flag) : String :=
  "/".intercalate ((spellings.filter (·.2 = flag)).map (·.1))

end Flag

inductive UsageError where
  /-- An abbreviation of more than one spelling. -/
  | ambiguous (argument : String) (spellings : List String)
  /-- A flag that takes a value stands without one. -/
  | missingValue (flag : Flag)
  /-- A flag that takes no value stands with one. -/
  | ignoredValue (flag : Flag) (value : String)
  /-- A value that names no level. -/
  | invalidLevel (value : String)
  /-- Arguments that nothing asked for. -/
  | unrecognized (arguments : List String)
  deriving DecidableEq, Repr

def UsageError.message : UsageError → String
  | .ambiguous argument spellings =>
      "ambiguous option: " ++ argument ++ " could match " ++ ", ".intercalate spellings
  | .missingValue flag => "argument " ++ flag.title ++ ": expected one argument"
  | .ignoredValue flag value =>
      "argument " ++ flag.title ++ ": ignored explicit argument " ++ Text.quoted value
  | .invalidLevel value =>
      "argument " ++ Flag.logLevel.title ++ ": invalid choice: " ++ Text.quoted value
        ++ " (choose from "
        ++ ", ".intercalate (Log.Level.all.map fun level => Text.quoted level.name) ++ ")"
  | .unrecognized arguments => "unrecognized arguments: " ++ " ".intercalate arguments

def usageText : String :=
  "usage: calc [-h] [--interactive] [--strict] [--rpn]\n"
    ++ "            [--log-level \x7bDEBUG,INFO,WARNING,ERROR,CRITICAL\x7d]\n"
    ++ "            [expression]\n"

def helpText : String :=
  usageText
    ++ "\nScientific calculator: + - * / ^, parentheses, sin cos tan log sqrt\n"
    ++ "\npositional arguments:\n"
    ++ "  expression            Expression to evaluate\n"
    ++ "\noptions:\n"
    ++ "  -h, --help            show this help message and exit\n"
    ++ "  --interactive, -i     Start interactive mode\n"
    ++ "  --strict              Reject unrecognized characters and missing operands\n"
    ++ "  --rpn                 Print the postfix form before the result\n"
    ++ "  --log-level \x7bDEBUG,INFO,WARNING,ERROR,CRITICAL\x7d\n"
    ++ "                        Logging level (default: WARNING)\n"
    ++ "\nExamples:\n"
    ++ "  calc \"3+4*2\"            # 11.0\n"
    ++ "  calc --rpn \"(3+4)*2\"    # show postfix form too\n"
    ++ "  calc --strict \"2 $ 3\"   # reject unknown characters\n"
    ++ "  calc                    # interactive mode\n"
    ++ "        \n"

end SciCalc.CommandLine
