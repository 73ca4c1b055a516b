import LiveScore.CommandLine.Program
import LiveScore.Clock.Tempo
import LiveScore.Midi.LogSink

/-!
# The command line

The outer layer of the program: it reads the files that the arguments name, writes what the program
writes, and plays in real time. The notes go to the log. Once in a while it looks at the score file,
so that the watch hears of its changes, and whether a line has been entered, which ends it.
-/

namespace LiveScore.Main

/-- The error of the file system as a reader reports it. -/
def readError : IO.Error → ReadError
  | .noFileOrDirectory _ _ _ => .missing
  | .inappropriateType _ 20 _ => .notFolder
  | .inappropriateType _ 21 _ => .isFolder
  | failure => .other (toString failure)

/-- Reads the text of a file. -/
def readText (path : String) : IO (Except ReadError String) := do
  try
    let bytes ← IO.FS.readBinFile path
    match String.fromUTF8? bytes with
    | some text => return .ok text
    | none => return .error .notText
  catch failure => return .error (readError failure)

/-- A performance as it goes on. -/
structure Stage where
  player : Player
  tempo : Binary64 := Tempo.standard
  pulse : Nat := 0
  due : Nat
  watch : Watch
  nextLook : Nat
  seen : Except ReadError String

/-- Writes a message to the log, unless the settings silence it. -/
def log (settings : Settings) (level message : String) : IO Unit := do
  unless ["off", "error", "warn"].contains settings.logLevel do IO.println s!"{level} {message}"

/-- Carries out a command. -/
def perform (settings : Settings) (stage : Stage) : Command → IO Stage
  | .setClockTempo bpm => return { stage with tempo := Tempo.restrict bpm }
  | .deliver _ delivery => do
    let record := LogRecord.ofDelivery delivery
    let fields := record.fields.map fun (name, text) => s!" {name}={text}"
    log settings "INFO" (record.message ++ String.join fields)
    return stage
  | _ => return stage

/-- Goes over to a changed player and performs its commands, in order. -/
def follow (settings : Settings) (stage : Stage) (change : Player × List Command) : IO Stage :=
  change.2.foldlM (perform settings) { stage with player := change.1 }

/-- Plays the next pulse if it is due. A performance that has fallen behind does not catch up. -/
def keepTime (settings : Settings) (stage : Stage) (now : Nat) : IO Stage := do
  if now < stage.due then return stage
  let stage ← follow settings stage (stage.player.pulse stage.pulse)
  let interval := (Tempo.pulseInterval? stage.tempo).getD ⟨0⟩
  return { stage with
    pulse := (stage.pulse + 1) % pulsesPerMeasure
    due := max (stage.due + interval.nanoseconds) now }

/-- What has happened to the score since it was read last. -/
def newsOf : Except ReadError String → Except ReadError String → News
  | .ok before, .ok text => if before = text then .quiet else .score .modified
  | .ok _, .error .missing => .score .removed
  | .error before, .error cause => if before = cause then .quiet else .score .modified
  | _, _ => .score .modified

/-- Takes what the watch tells. -/
def take (settings : Settings) (path : String) (stage : Stage) : ScoreChange → IO Stage
  | .modified source => do
    let (player, reading) := stage.player.read source
    match reading.outcome with
    | .ok _ => log settings "INFO" "score reloaded"
    | .error cause => log settings "ERROR" ("keeping previous score: " ++ cause.message)
    return { stage with player }
  | .removed => do
    log settings "WARN" "score removed, still playing the last version"
    return stage
  | .unreadable cause => do
    log settings "ERROR" (ScoreChange.unreadableMessage path cause)
    return stage

/-- Looks at the score if it is time to. -/
def lookAround (settings : Settings) (path : String) (stage : Stage) (now : Nat) : IO Stage := do
  if now < stage.nextLook then return stage
  let contents ← readText path
  let present := match contents with
    | .error .missing => false
    | _ => true
  let round : WatchRound :=
    { news := newsOf stage.seen contents, time := now / 1000000, present, contents }
  let (watch, told) := stage.watch.step round
  let stage :=
    { stage with watch, seen := contents, nextLook := now + WatchSession.interval * 1000000 }
  match told with
  | some told => take settings path stage told
  | none => return stage

/-- Plays until a line has been entered. -/
partial def play (settings : Settings) (path : String) (line : Task (Except IO.Error String))
    (stage : Stage) : IO Unit := do
  unless ← IO.hasFinished line do
    let stage ← keepTime settings stage (← IO.monoNanosNow)
    let stage ← lookAround settings path stage (← IO.monoNanosNow)
    IO.sleep 1
    play settings path line stage

/-- Plays a performance from its start to its end. -/
def run (performance : Performance) : IO Unit := do
  let now ← IO.monoNanosNow
  let settings := performance.settings
  let stage : Stage :=
    { player := performance.player, due := now, nextLook := now
      watch := { patience := settings.debounceMs }, seen := ← readText performance.path }
  for line in performance.warnings do
    log settings "WARN" s!"measure outside any instruments block is ignored line={line}"
  let stage ← follow settings stage stage.player.start
  IO.print (Program.greeting performance)
  let input ← IO.getStdin
  play settings performance.path (← IO.asTask input.getLine) stage

end LiveScore.Main

/-- Runs the program on the words of its command line. -/
def main (words : List String) : IO UInt32 := do
  let paths := match LiveScore.Arguments.read words with
    | .ok arguments => arguments.config.toList ++ arguments.score.toList
    | .error _ => []
  let texts ← paths.mapM fun path => do return (path, ← LiveScore.Main.readText path)
  match LiveScore.Program.launch words fun path => (texts.lookup path).getD (.error .missing) with
  | .ended outcome =>
    IO.print outcome.output
    IO.eprint outcome.errors
    return outcome.exit.toUInt32
  | .playing performance =>
    LiveScore.Main.run performance
    return 0
