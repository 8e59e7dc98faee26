import SciCalc.Log

/-! Thresholds: the rank from which records are shown, by a name in either case. -/

namespace SciCalc

/-- The uppercase of a character whose uppercase is ASCII: the letters of ASCII, and the ten
others that Unicode maps there. Any other character stays, which tells it from ASCII as well as
its own uppercase would.
-/
def Text.uppercase (c : Char) : List Char :=
  match c with
  | 'ß' => ['S', 'S']
  | 'ı' => ['I']
  | 'ſ' => ['S']
  | 'ﬀ' => ['F', 'F']
  | 'ﬁ' => ['F', 'I']
  | 'ﬂ' => ['F', 'L']
  | 'ﬃ' => ['F', 'F', 'I']
  | 'ﬄ' => ['F', 'F', 'L']
  | 'ﬅ' => ['S', 'T']
  | 'ﬆ' => ['S', 'T']
  | c => [c.toUpper]

namespace Log

/-- The names of ranks. Some ranks have two, and the lowest shows every record. -/
def namedRanks : List (String × Nat) :=
  [("NOTSET", 0), ("DEBUG", 10), ("INFO", 20), ("WARN", 30), ("WARNING", 30), ("ERROR", 40),
    ("FATAL", 50), ("CRITICAL", 50)]

/-- The name of the layout that a record has by default. It looks like the name of a rank. -/
def layoutName : String := "BASIC_FORMAT"

def layout : String := "%(levelname)s:%(name)s:%(message)s"

/-- A name was given that means something else than a rank. -/
structure UnknownLevel where
  meaning : String
  deriving DecidableEq, Repr

def UnknownLevel.message (unknown : UnknownLevel) : String :=
  "Unknown level: " ++ Text.quoted unknown.meaning

/-- The rank that a name asks for, in either case; a name that means nothing asks for the rank
of warnings.
-/
def threshold (name : String) : Except UnknownLevel Nat :=
  let name := String.ofList (name.toList.flatMap Text.uppercase)
  if name = layoutName then .error ⟨layout⟩
  else .ok ((namedRanks.lookup name).getD Level.warning.rank)

end Log

end SciCalc
