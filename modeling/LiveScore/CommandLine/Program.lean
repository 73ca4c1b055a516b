import LiveScore.CommandLine.Arguments
import LiveScore.Player.Load
import LiveScore.Settings.File
import LiveScore.Watch.Session

/-!
# The program

What the program does before it plays: it reads its arguments, the settings and the score, and ends
early if one of them is wrong or nothing is to be played. The files are given as a function from
paths to what reading gives.
-/

namespace LiveScore

/-- How a program ends. -/
structure Outcome where
  /-- The status; zero is success. -/
  exit : Nat := 0
  output : String := ""
  errors : String := ""
deriving DecidableEq

/-- What is about to be played. -/
structure Performance where
  path : String
  settings : Settings
  player : Player
  /-- The lines of the score with a measure that belongs to no instrument. -/
  warnings : List Nat

/-- What a command line leads to. -/
inductive Launch where
  | ended (outcome : Outcome)
  | playing (performance : Performance)

namespace Program

/-- What the program calls itself in its help. -/
def title : String := "scoreseq - live-coding text score sequencer"

/-- Texts as lines, each with its line end. -/
def lines (texts : List String) : String := String.join (texts.map (· ++ "\n"))

/-- How the program is used. -/
def usage : String :=
  lines [title,
    "",
    "Usage: scoreseq <SCORE> [OPTIONS]",
    "",
    "Options:",
    "  --config <FILE>         Load settings from a .yaml or .toml file",
    "  --click                 Play a click on every quarter note",
    "  --latency <MS>          Delay clicks by MS milliseconds",
    "  --list-midi             List available MIDI outputs",
    "  --help                  Show this help message",
    "",
    "The score is reloaded whenever it changes. Press Enter to stop."]

/-- What a build says that cannot list or open outputs. -/
def noMidi : String := "Built without MIDI support (enable the `midi` feature)"

/-- What is written if there is nothing to do. -/
def hint : String := lines [title, "Run with --help for usage information"]

/-- A cause in an error report. Its lines are indented, after a number if there are other causes. -/
def indentedCause (number : Option Nat) (cause : String) : String :=
  let (first, later) := match number with
    | some n =>
      let digits := toString n
      (String.ofList (List.replicate (5 - digits.length) ' ') ++ digits ++ ": ", "       ")
    | none => ("    ", "    ")
  first ++ ("\n" ++ later).intercalate (cause.splitOn "\n")

/-- The causes with a line break before each. -/
def causeLines : List String → List String
  | [] => []
  | [cause] => ["\n" ++ indentedCause none cause]
  | causes => causes.zipIdx.map fun (cause, number) => "\n" ++ indentedCause (some number) cause

/-- The report of an error: its sentence, and those of its causes. -/
def errorReport : List String → String
  | [] => ""
  | [sentence] => s!"Error: {sentence}\n"
  | sentence :: causes =>
    s!"Error: {sentence}\n\nCaused by:{String.join (causeLines causes)}\n"

/-- The program ends with an error, of which each sentence is the cause of the one before. -/
def failure (sentences : List String) : Launch :=
  .ended { exit := 1, errors := errorReport sentences }

/-- The settings that the arguments ask for. -/
def settingsOf (arguments : Arguments) (read : String → Except ReadError String) :
    Except Settings.FileError Settings := do
  let settings ← match arguments.config with
    | some path => Settings.ofFile path (read path)
    | none => pure {}
  return { settings with
    click := settings.click || arguments.click
    latencyMs := arguments.latencyMs.getD settings.latencyMs }

/-- A player without a score. -/
def playerOf (settings : Settings) : Player where
  clickLatency :=
    if settings.click then some (Duration.ofMilliseconds settings.latencyMs) else none

/-- What is to be done with the score at a path. -/
def prepare (path : String) (settings : Settings) (read : String → Except ReadError String) :
    Launch :=
  let (player, loading) := (playerOf settings).loadFile path (read path)
  match loading.outcome with
  | .ok _ => .playing { path, settings, player, warnings := loading.warnings }
  | .error error => failure (s!"Failed to load score {Text.quotedPath path}" :: error.causes)

/-- What a command line leads to. -/
def launch (words : List String) (read : String → Except ReadError String) : Launch :=
  match Arguments.read words with
  | .error error =>
    .ended { exit := 1, output := usage, errors := s!"Error: {error.message}\n" }
  | .ok arguments =>
    if arguments.help then .ended { output := usage }
    else match settingsOf arguments read with
      | .error error => failure error.causes
      | .ok settings =>
        if arguments.listMidi then .ended { output := lines [noMidi] }
        else match arguments.score with
          | none => .ended { output := hint }
          | some path => prepare path settings read

/-- What the program says when it plays. -/
def greeting (performance : Performance) : String :=
  lines [s!"Playing {Text.quotedPath performance.path}. Press Enter to stop."]

/-- How the program ends if it is told to stop at once. -/
def outcome (words : List String) (folder : Folder) : Outcome :=
  match launch words folder.read with
  | .ended outcome => outcome
  | .playing performance =>
    match WatchSession.start folder performance.path performance.settings.debounceMs with
    | .error error => { exit := 1, errors := errorReport [error.message] }
    | .ok _ => { output := greeting performance }

end Program

end LiveScore
