import LiveScore.Numeric.Shortest
import LiveScore.Settings.Basic
import LiveScore.Toml.Document

/-!
# Settings in TOML

A TOML document gives settings through the keys that name a field; other keys may have any value.
-/

namespace LiveScore.Settings

/-- Why a TOML text gives no settings. -/
inductive TomlError where
  | broken (problem : Toml.Problem)
  /-- A value is not what its field takes. -/
  | mismatch (cause : Mismatch)
deriving DecidableEq

/-- What is said of a TOML text that is no settings. -/
def TomlError.message : TomlError → String
  | broken problem => problem.message
  | mismatch cause => cause.message

namespace FromToml

open Toml (Entry Value Span Table)

/-- A value as an error reports it. -/
def found : Value → Found
  | .string text => .string text
  | .integer value => .integer value
  | .float value => .float value.text
  | .boolean value => .boolean value
  | .dateTime => .mapping
  | .array => .sequence
  | .inlineTable => .mapping

/-- A number up to a limit. -/
def number (field : Field) (limit : Nat) : Value → Except Mismatch Nat
  | .integer value =>
    if 0 ≤ value ∧ value ≤ limit then .ok value.toNat
    else .error (.wrongValue (.integer value) field.expected)
  | value => .error (.wrongType (found value) field.expected)

/-- The settings with the value of a field. -/
def assignValue (settings : Settings) (field : Field) (value : Value) :
    Except Mismatch Settings := do
  match field, value with
  | .click, .boolean click => return { settings with click }
  | .latency, value => return { settings with latencyMs := ← number field greatestDuration value }
  | .debounce, value => return { settings with debounceMs := ← number field greatestDuration value }
  | .velocity, value => return { settings with velocity := ← number field greatestOctet value }
  | .logLevel, .string logLevel => return { settings with logLevel }
  | field, value => throw (.wrongType (found value) field.expected)

/-- The settings with what a key leads to; a table is no value of any field. -/
def assign (settings : Settings) (field : Field) : Entry → Except (Mismatch × Span) Settings
  | .value value span => (assignValue settings field value).mapError fun error => (error, span)
  | .table _ _ span => .error (.wrongType .mapping field.expected, span)
  | .tables _ span => .error (.wrongType .sequence field.expected, span)

/-- Reads the entries of a document. -/
def readEntries (settings : Settings) :
    List (String × Entry) → Except (Mismatch × Span) Settings
  | [] => .ok settings
  | (name, entry) :: rest => do
    match Field.ofName? name with
    | some field => readEntries (← assign settings field entry) rest
    | none => readEntries settings rest

end FromToml

/-- Reads settings from a TOML text; an error comes with its place. -/
def ofToml (text : String) : Except (TomlError × Toml.Span) Settings :=
  match Toml.read text with
  | .error error => .error (.broken error.problem, error.span)
  | .ok table =>
    (FromToml.readEntries {} table.entries).mapError fun (cause, span) => (.mismatch cause, span)

end LiveScore.Settings
