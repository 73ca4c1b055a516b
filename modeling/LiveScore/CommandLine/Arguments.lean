import LiveScore.Numeric.Numeral

/-!
# Command-line arguments

The arguments name a score and set options, in any order. An option that takes a value takes the
next word, whatever it looks like; of an option that is given twice the last value counts. Every
word that starts with a hyphen and is not taken as a value must be an option.
-/

namespace LiveScore

/-- What the arguments ask for. -/
structure Arguments where
  score : Option String := none
  config : Option String := none
  click : Bool := false
  /-- The milliseconds by which clicks are late. -/
  latencyMs : Option Nat := none
  listMidi : Bool := false
  help : Bool := false
deriving DecidableEq, Inhabited

/-- Why arguments are not understood. -/
inductive ArgumentError where
  | missingConfig
  | missingLatency
  | badLatency (text : String)
  | unknownOption (word : String)
  | secondScore
deriving DecidableEq

/-- The sentence that reports the error. -/
def ArgumentError.message : ArgumentError → String
  | missingConfig => "--config requires a file name"
  | missingLatency => "--latency requires a value in milliseconds"
  | badLatency text => "Invalid latency: " ++ text
  | unknownOption word => "Unknown option: " ++ word
  | secondScore => "Only one score file may be given"

namespace Arguments

/-- What a word stands for where an option may stand. -/
inductive WordKind where
  | config
  | latency
  | click
  | listMidi
  | help
  /-- The word looks like an option and is none. -/
  | unknown
  | score
deriving DecidableEq

/-- What a word stands for. -/
def WordKind.ofWord (word : String) : WordKind :=
  if word = "--config" then .config
  else if word = "--latency" then .latency
  else if word = "--click" then .click
  else if word = "--list-midi" then .listMidi
  else if word = "--help" ∨ word = "-h" then .help
  else if word.toList.head? = some '-' then .unknown
  else .score

/-- The greatest latency in milliseconds that can be told. -/
def greatestLatency : Nat := 0xffffffffffffffff

/-- Reads words after others have been taken. -/
def readAfter (taken : Arguments) : List String → Except ArgumentError Arguments
  | [] => .ok taken
  | word :: rest =>
    match WordKind.ofWord word with
    | .config => match rest with
      | [] => .error .missingConfig
      | file :: rest => readAfter { taken with config := some file } rest
    | .latency => match rest with
      | [] => .error .missingLatency
      | text :: rest => match Numeral.nat? greatestLatency text.toList with
        | some latency => readAfter { taken with latencyMs := some latency } rest
        | none => .error (.badLatency text)
    | .click => readAfter { taken with click := true } rest
    | .listMidi => readAfter { taken with listMidi := true } rest
    | .help => readAfter { taken with help := true } rest
    | .unknown => .error (.unknownOption word)
    | .score =>
      if taken.score.isSome then .error .secondScore
      else readAfter { taken with score := some word } rest

/-- Reads the words of a command line behind the name of the program. -/
def read (words : List String) : Except ArgumentError Arguments := readAfter {} words

end Arguments

end LiveScore
