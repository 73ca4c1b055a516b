import LiveScore.Text.Quoted

/-!
# Settings

What a user may set. A settings file need not name every field; one that is not named keeps its
default.
-/

namespace LiveScore

/-- The settings of the program. -/
structure Settings where
  click : Bool := false
  latencyMs : Nat := 0
  /-- The milliseconds without a change after which a changed score is read again. -/
  debounceMs : Nat := 100
  velocity : Nat := 100
  /-- Which messages are shown. -/
  logLevel : String := "info"
deriving DecidableEq, Inhabited

namespace Settings

/-- The fields by which a settings file names the settings. -/
inductive Field where
  | click
  | latency
  | debounce
  | velocity
  | logLevel
deriving DecidableEq

/-- The fields in the order in which they are written. -/
def Field.all : List Field := [.click, .latency, .debounce, .velocity, .logLevel]

/-- The name of a field. -/
def Field.name : Field → String
  | click => "click"
  | latency => "latency_ms"
  | debounce => "debounce_ms"
  | velocity => "velocity"
  | logLevel => "log_level"

/-- The field with a name. -/
def Field.ofName? (name : String) : Option Field := all.find? fun field => field.name = name

/-- The greatest number of milliseconds that can be told. -/
def greatestDuration : Nat := 0xffffffffffffffff

/-- The greatest number that fits into an octet. -/
def greatestOctet : Nat := 255

/-- The greatest velocity. -/
def greatestVelocity : Nat := 127

/-- Milliseconds in nanoseconds. -/
def nanoseconds (milliseconds : Nat) : Nat := milliseconds * 1000000

/-! ### Values of the wrong kind -/

/-- A value as an error reports it. -/
inductive Found where
  | unit
  | boolean (value : Bool)
  | integer (value : Int)
  /-- An integer beyond 64 bits. -/
  | wideInteger (value : Int)
  | float (text : String)
  | string (text : String)
  | sequence
  | mapping
deriving DecidableEq

/-- The words for a value. -/
def Found.describe : Found → String
  | unit => "unit value"
  | boolean value => s!"boolean `{value}`"
  | integer value => s!"integer `{value}`"
  | wideInteger value =>
    s!"integer `{value}` as " ++ if value < 0 then "i128" else "u128"
  | float text => s!"floating point `{text}`"
  | string text => "string " ++ Text.quoted text
  | sequence => "sequence"
  | mapping => "map"

/-- What is wrong with a value or a key. -/
inductive Mismatch where
  | wrongType (found : Found) (expected : String)
  /-- The value is of the right type, but out of range or malformed. -/
  | wrongValue (found : Found) (expected : String)
  | repeatedField (field : Field)
deriving DecidableEq

/-- The sentence that reports the mismatch. -/
def Mismatch.message : Mismatch → String
  | wrongType found expected => s!"invalid type: {found.describe}, expected {expected}"
  | wrongValue found expected => s!"invalid value: {found.describe}, expected {expected}"
  | repeatedField field => s!"duplicate field `{field.name}`"

/-- The words for the values that a field takes. -/
def Field.expected : Field → String
  | click => "a boolean"
  | latency => "u64"
  | debounce => "u64"
  | velocity => "u8"
  | logLevel => "a string"

end Settings

end LiveScore
