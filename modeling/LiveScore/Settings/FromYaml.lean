import LiveScore.Numeric.Shortest
import LiveScore.Settings.Basic
import LiveScore.Text.Blank
import LiveScore.Yaml.Document
import LiveScore.Yaml.Meaning

/-!
# Settings in YAML

A YAML text gives settings if its only document is a mapping, or is empty. The keys that name a
field set it; other keys may have any value. The events of the document are understood one by one,
so that of two mistakes the first one counts.
-/

namespace LiveScore.Settings

/-- Why a YAML text gives no settings. -/
inductive YamlError where
  | broken (fault : Yaml.Fault)
  /-- A value is not what its field takes; `path` names it from the top. -/
  | mismatch (cause : Mismatch) (path : String) (mark : Yaml.Mark)
  | endsEarly
  | severalDocuments
deriving DecidableEq

/-- The sentence that reports the error. -/
def YamlError.message : YamlError → String
  | broken fault => fault.message
  | mismatch cause path mark =>
    (if path = "" then "" else path ++ ": ") ++ cause.message
      ++ if mark.isLater then " at " ++ mark.describe else ""
  | endsEarly => "EOF while parsing a value"
  | severalDocuments => "deserializing from YAML containing more than one document is not supported"

namespace FromYaml

open Yaml (Head Item Mark Scalar Meaning Document)

/-- The meaning of a scalar as an error reports it. -/
def foundMeaning : Meaning → Found
  | .null => .unit
  | .boolean value => .boolean value
  | .integer value => .integer value
  | .wideInteger value => .wideInteger value
  | .float value => .float value.text
  | .string text => .string text

/-- The error of a node that is not what is expected. -/
def unexpected (head : Head) (expected : String) : Mismatch :=
  match head with
  | .sequence => .wrongType .sequence expected
  | .mapping => .wrongType .mapping expected
  | .scalar scalar =>
    match scalar.meaning with
    | .ok meaning => .wrongType (foundMeaning meaning) expected
    | .error demanded => .wrongValue (.string scalar.text) demanded

/-- A truth value. -/
def boolean (field : Field) : Head → Except Mismatch Bool
  | .scalar scalar => match scalar.boolean? with
    | some value => .ok value
    | none => .error (unexpected (.scalar scalar) field.expected)
  | head => .error (unexpected head field.expected)

/-- A number of 64 bits. -/
def number (field : Field) : Head → Except Mismatch Nat
  | .scalar scalar => match scalar.natural? greatestDuration with
    | some value => .ok value
    | none => .error (unexpected (.scalar scalar) field.expected)
  | head => .error (unexpected head field.expected)

/-- A number of eight bits. -/
def octet (field : Field) (head : Head) : Except Mismatch Nat := do
  let value ← number field head
  if value ≤ greatestOctet then return value
  else throw (.wrongValue (.integer value) field.expected)

/-- The settings with the value of a field. -/
def assign (settings : Settings) (field : Field) (head : Head) : Except Mismatch Settings := do
  match field with
  | .click => return { settings with click := ← boolean field head }
  | .latency => return { settings with latencyMs := ← number field head }
  | .debounce => return { settings with debounceMs := ← number field head }
  | .velocity => return { settings with velocity := ← octet field head }
  | .logLevel => match head with
    | .scalar scalar => return { settings with logLevel := scalar.text }
    | head => throw (unexpected head field.expected)

/-- The node of an event, where it starts, and whether the event is an alias. -/
def nodeOf? : Item × Mark → Option (Head × Mark × Bool)
  | (.node head, mark) => some (head, mark, false)
  | (.aliasOf head target, _) => some (head, target, true)
  | _ => none

/-- What is reported when the events run out. -/
def exhausted (document : Document) : YamlError :=
  match document.fault with
  | some fault => .broken fault
  | none => .endsEarly

/-- Reads the entries of the mapping that starts at `start`. -/
def readEntries (document : Document) (start : Mark) :
    Nat → List Field → Settings → List (Item × Mark) → Except YamlError Settings
  | 0, _, _, _ => .error (exhausted document)
  | _ + 1, _, _, [] => .error (exhausted document)
  | _ + 1, _, settings, (.mappingEnd, _) :: _ => .ok settings
  | count + 1, seen, settings, key :: rest =>
    match nodeOf? key with
    | none => .error (exhausted document)
    | some (.scalar scalar, _, aliased) =>
      match Field.ofName? scalar.text with
      | none => readEntries document start count seen settings (Document.skipNode rest)
      | some field =>
        if seen.contains field then .error (.mismatch (.repeatedField field) "" start)
        else match rest with
          | [] => .error (exhausted document)
          | value :: rest => match nodeOf? value with
            | none => .error (exhausted document)
            | some (head, mark, _) => match assign settings field head with
              | .ok settings => readEntries document start count (field :: seen) settings rest
              | .error mismatch =>
                .error (.mismatch mismatch (if aliased then "?" else field.name) mark)
    | some (head, mark, _) => .error (.mismatch (unexpected head "field identifier") "" mark)

/-- The settings of a document, as far as it goes. -/
def readDocument (document : Document) : Except YamlError Settings :=
  match document.items with
  | [] => match document.fault with
    | some fault => .error (.broken fault)
    | none => .ok {}
  | (item, mark) :: rest => match item with
    | .node .mapping => readEntries document mark (rest.length + 1) [] {} rest
    | .node (.scalar scalar) =>
      if scalar.text = "" ∧ scalar.style = .plain then .ok {}
      else .error (.mismatch (unexpected (.scalar scalar) "struct Settings") "" mark)
    | _ => .error (.mismatch (unexpected .sequence "struct Settings") "" mark)

end FromYaml

/-- Reads settings from a YAML text. A blank text stands for the defaults. -/
def ofYaml (text : String) : Except YamlError Settings := do
  if Text.trim text.toList = [] then return {}
  let document := Yaml.Document.ofString text
  let settings ← FromYaml.readDocument document
  match document.fault with
  | some fault => throw (.broken fault)
  | none => if document.continued then throw .severalDocuments else return settings

end LiveScore.Settings
