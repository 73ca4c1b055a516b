import LiveScore.Settings.FromYaml
import LiveScore.Yaml.Written

/-!
# Writing settings

All settings are written as a YAML mapping, one field a line.
-/

namespace LiveScore.Settings

/-- The value of a field as it is written, with the line break after it. -/
def valueText (settings : Settings) : Field → String
  | .click => s!" {settings.click}\n"
  | .latency => s!" {settings.latencyMs}\n"
  | .debounce => s!" {settings.debounceMs}\n"
  | .velocity => s!" {settings.velocity}\n"
  | .logLevel => Yaml.Written.value settings.logLevel

/-- Settings as a YAML text, one line for each field. -/
def toYaml (settings : Settings) : String :=
  String.join (Field.all.map fun field => field.name ++ ":" ++ settings.valueText field)

/-- Whether the settings can be read back from what is written. -/
def readsBack (settings : Settings) : Bool :=
  match ofYaml settings.toYaml with
  | .ok read => read = settings
  | .error _ => false

end LiveScore.Settings
