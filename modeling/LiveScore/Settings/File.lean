import LiveScore.Files.Folder
import LiveScore.Settings.FromToml
import LiveScore.Settings.FromYaml

/-!
# Settings files

The extension of a settings file tells its format. A file is read before its name is looked at, and
the velocity is checked last.
-/

namespace LiveScore.Settings

/-- Why a text in one of the formats gives no settings. -/
inductive TextError where
  /-- The text is no YAML settings. -/
  | yaml (cause : YamlError)
  /-- The text is no TOML settings. -/
  | toml (text : String) (cause : TomlError) (span : Toml.Span)
deriving DecidableEq

/-- What is said of a text that is no settings. -/
def TextError.message : TextError → String
  | yaml _ => "Failed to parse YAML configuration"
  | toml _ _ _ => "Failed to parse TOML configuration"

/-- Why a text is no settings. -/
def TextError.cause : TextError → String
  | yaml cause => cause.message
  | toml text cause span => Toml.report text span cause.message

/-- Reads settings from a YAML text. -/
def readYaml (text : String) : Except TextError Settings := (ofYaml text).mapError .yaml

/-- Reads settings from a TOML text. -/
def readToml (text : String) : Except TextError Settings :=
  (ofToml text).mapError fun (cause, span) => .toml text cause span

/-- Why a file gives no settings. -/
inductive FileError where
  /-- The file could not be read. -/
  | unreadable (path : String) (cause : ReadError)
  /-- The extension is that of no known format. -/
  | unsupported (path : String)
  /-- The text gives no settings. -/
  | rejected (cause : TextError)
  /-- No note has this velocity. -/
  | velocityTooGreat (velocity : Nat)
deriving DecidableEq

namespace FileError

/-- The sentence that reports the error by itself. -/
def message : FileError → String
  | unreadable path _ => "Failed to read config file: " ++ Text.quotedPath path
  | unsupported path =>
    s!"Unsupported config format: {Text.quotedPath path} (expected .yaml, .yml or .toml)"
  | rejected cause => cause.message
  | velocityTooGreat velocity => s!"velocity must be 0-127, got {velocity}"

/-- The sentences of the error and of its causes, outermost first. -/
def causes (error : FileError) : List String :=
  error.message :: match error with
    | unreadable _ cause => [cause.message]
    | rejected cause => [cause.cause]
    | unsupported _ | velocityTooGreat _ => []

end FileError

/-- The part of a file name after its last point, if something comes before the point. -/
def extension? (path : String) : Option String :=
  match (Path.parts path).getLast? with
  | none => none
  | some name =>
    if name = ".." then none
    else match (name.splitOn ".").reverse with
      | extension :: rest =>
        if rest = [] ∨ rest = [""] then none else some extension
      | [] => none

/-- Reads settings from a file, given what reading the file gave. -/
def ofFile (path : String) (contents : Except ReadError String) : Except FileError Settings := do
  let text ← contents.mapError (.unreadable path)
  let settings ←
    match extension? path with
    | some "yaml" | some "yml" => (readYaml text).mapError .rejected
    | some "toml" => (readToml text).mapError .rejected
    | _ => throw (.unsupported path)
  if greatestVelocity < settings.velocity then throw (.velocityTooGreat settings.velocity)
  return settings

end LiveScore.Settings
