import LiveScore.Player.Rig
import Mathlib.Logic.Relation

/-!
# Runs of a rig

A run does operations with a rig one after the other. Whatever the sink answers, an operation
changes the playback in one of two ways: it puts a score in place that was read from its text, or
it moves the cursor, by a rewind or by downbeats. Every invariant of playback is therefore proved
for loading, for the rewind and for the downbeat, and holds after every run.
-/

namespace LiveScore

/-- The text that an operation reads as a score, if it gets to read one. -/
def Operation.text? : Operation → Option String
  | .read source => some source
  | .loadFile _ (.ok source) => some source
  | _ => none

/-- What came of an operation. -/
structure Report where
  operation : Operation
  events : List Event
  result : OperationResult

/-- The operation went over to another score. -/
def Report.loads (report : Report) : Bool :=
  report.operation.text?.isSome && report.result = .done

namespace Playback

/-- A move of the cursor, by a start or by the first pulse of a measure. -/
inductive Move : Playback → Playback → Prop
  | rewind (playback : Playback) : Move playback playback.rewind
  | downbeat {playback : Playback} (loaded : playback.score.isEmpty = false) :
    Move playback playback.nextMeasure

/-- Any number of moves. -/
abbrev Moves : Playback → Playback → Prop := Relation.ReflTransGen Move

@[simp]
theorem score_sync (playback : Playback) : playback.sync.score = playback.score := by
  unfold sync
  split <;> rfl

@[simp]
theorem score_load (playback : Playback) (score : Score) : (playback.load score).score = score := by
  simp [load]

@[simp]
theorem score_rewind (playback : Playback) : playback.rewind.score = playback.score := by
  simp [rewind]

@[simp]
theorem score_nextMeasure (playback : Playback) :
    playback.nextMeasure.score = playback.score := by
  unfold nextMeasure
  split
  · rfl
  · split
    · simp
    · rfl

theorem Moves.score_eq {playback next : Playback} (moves : Moves playback next) :
    next.score = playback.score := by
  induction moves with
  | refl => rfl
  | tail _ move ih =>
      cases move with
      | rewind => rw [score_rewind, ih]
      | downbeat loaded => rw [score_nextMeasure, ih]

end Playback

namespace Player

theorem resolver_pulse (player : Player) (pulse : Nat) :
    (player.pulse pulse).1.resolver = player.resolver := by
  unfold Player.pulse
  split <;> rfl

@[simp]
theorem clickLatency_pulse (player : Player) (pulse : Nat) :
    (player.pulse pulse).1.clickLatency = player.clickLatency := by
  unfold Player.pulse
  split <;> rfl

theorem moves_pulse (player : Player) (pulse : Nat) :
    Playback.Moves player.playback (player.pulse pulse).1.playback := by
  unfold Player.pulse
  split
  · exact .refl
  · rename_i loaded
    simp only
    split
    · exact .single (.downbeat (by simpa using loaded))
    · exact .refl

/-- Reading a text puts its score in place or changes nothing. -/
theorem read_cases (player : Player) (source : String) :
    (∃ score, (player.read source).2.outcome = .ok score ∧
        (Score.read player.resolver source).outcome = .ok score ∧
        (player.read source).1 = player.load score) ∨
      (∃ error, (player.read source).2.outcome = .error error) ∧
        (player.read source).1 = player := by
  simp only [Player.read]
  split
  · rename_i score accepted
    exact Or.inl ⟨score, accepted, accepted, rfl⟩
  · rename_i error rejected
    exact Or.inr ⟨⟨error, rejected⟩, rfl⟩

end Player

namespace Rig

/-- A rig that has just been put together. -/
def fresh (resolver : Resolver) (clickLatency : Option Duration) (sink : Sink) : Rig :=
  { player := { resolver, clickLatency }, sink }

/-- What comes of an operation, next. -/
def report (rig : Rig) (operation : Operation) : Report :=
  ⟨operation, (rig.run operation).2.1, (rig.run operation).2.2⟩

/-- Does things one after the other, with a report on each. -/
def runAll (rig : Rig) : List Operation → Rig × List Report
  | [] => (rig, [])
  | operation :: rest =>
    let (last, reports) := (rig.run operation).1.runAll rest
    (last, rig.report operation :: reports)

theorem runAll_append (rig : Rig) (operations later : List Operation) :
    rig.runAll (operations ++ later) =
      (((rig.runAll operations).1.runAll later).1,
        (rig.runAll operations).2 ++ ((rig.runAll operations).1.runAll later).2) := by
  induction operations generalizing rig with
  | nil => rfl
  | cons operation rest ih => simp [runAll, ih]

theorem runAll_concat (rig : Rig) (operations : List Operation) (operation : Operation) :
    rig.runAll (operations ++ [operation]) =
      (((rig.runAll operations).1.run operation).1,
        (rig.runAll operations).2 ++ [(rig.runAll operations).1.report operation]) := by
  rw [runAll_append]
  rfl

@[simp]
theorem player_perform (rig : Rig) (command : Command) :
    (rig.perform command).1.player = rig.player := by
  cases command with
  | deliver pulse delivery =>
      simp only [perform]
      split <;> rfl
  | _ => rfl

@[simp]
theorem sink_perform (rig : Rig) (command : Command) :
    (rig.perform command).1.sink = rig.sink := by
  cases command with
  | deliver pulse delivery =>
      simp only [perform]
      split <;> rfl
  | _ => rfl

@[simp]
theorem player_performAll (rig : Rig) (commands : List Command) :
    (rig.performAll commands).1.player = rig.player := by
  induction commands generalizing rig with
  | nil => rfl
  | cons command rest ih =>
      simp only [performAll]
      split
      · rw [ih, player_perform]
      · rw [player_perform]

@[simp]
theorem sink_performAll (rig : Rig) (commands : List Command) :
    (rig.performAll commands).1.sink = rig.sink := by
  induction commands generalizing rig with
  | nil => rfl
  | cons command rest ih =>
      simp only [performAll]
      split
      · rw [ih, sink_perform]
      · rw [sink_perform]

@[simp]
theorem player_follow (rig : Rig) (change : Player × List Command) :
    (rig.follow change).1.player = change.1 := by
  simp [follow]

@[simp]
theorem sink_follow (rig : Rig) (change : Player × List Command) :
    (rig.follow change).1.sink = rig.sink := by
  simp [follow]

@[simp]
theorem sink_playPulses (rig : Rig) (pulses : List Nat) :
    (rig.playPulses pulses).1.sink = rig.sink := by
  induction pulses generalizing rig with
  | nil => rfl
  | cons pulse rest ih =>
      simp only [playPulses]
      split
      · rw [ih, sink_follow]
      · rw [sink_follow]

/-- No operation replaces the sink. -/
@[simp]
theorem sink_run (rig : Rig) (operation : Operation) :
    (rig.run operation).1.sink = rig.sink := by
  cases operation with
  | tick pulse =>
      simp only [run]
      split
      · exact rig.sink_playPulses [pulse]
      · rfl
  | _ => simp [run]

@[simp]
theorem sink_runAll (rig : Rig) (operations : List Operation) :
    (rig.runAll operations).1.sink = rig.sink := by
  induction operations generalizing rig with
  | nil => rfl
  | cons operation rest ih => simp [runAll, ih]

@[simp]
theorem clickLatency_playPulses (rig : Rig) (pulses : List Nat) :
    (rig.playPulses pulses).1.player.clickLatency = rig.player.clickLatency := by
  induction pulses generalizing rig with
  | nil => rfl
  | cons pulse rest ih =>
      simp only [playPulses]
      split
      · rw [ih, player_follow, Player.clickLatency_pulse]
      · rw [player_follow, Player.clickLatency_pulse]

/-- No operation gives or takes the click track. -/
@[simp]
theorem clickLatency_run (rig : Rig) (operation : Operation) :
    (rig.run operation).1.player.clickLatency = rig.player.clickLatency := by
  have reads (source : String) :
      (rig.player.read source).1.clickLatency = rig.player.clickLatency := by
    rcases rig.player.read_cases source with ⟨score, _, _, loads⟩ | ⟨_, unchanged⟩
    · rw [loads]
      rfl
    · rw [unchanged]
  cases operation with
  | read source => exact reads source
  | loadFile path contents =>
      cases contents with
      | error cause => rfl
      | ok source =>
          rw [← reads source]
          simp only [run, Player.loadFile]
          split <;> rfl
  | tick pulse =>
      simp only [run]
      split
      · exact rig.clickLatency_playPulses [pulse]
      · rfl
  | _ => simp [run, Player.start, Player.stop, Player.setTempo]

@[simp]
theorem clickLatency_runAll (rig : Rig) (operations : List Operation) :
    (rig.runAll operations).1.player.clickLatency = rig.player.clickLatency := by
  induction operations generalizing rig with
  | nil => rfl
  | cons operation rest ih => simp [runAll, ih]

/-- Pulses only move the cursor, however many of them the sink survives. -/
theorem playPulses_moves (rig : Rig) (pulses : List Nat) :
    (rig.playPulses pulses).1.player.resolver = rig.player.resolver ∧
      Playback.Moves rig.player.playback (rig.playPulses pulses).1.player.playback := by
  induction pulses generalizing rig with
  | nil => exact ⟨rfl, .refl⟩
  | cons pulse rest ih =>
      simp only [playPulses]
      have first := Player.moves_pulse rig.player pulse
      split
      · have later := ih (rig.follow (rig.player.pulse pulse)).1
        rw [player_follow, Player.resolver_pulse] at later
        exact ⟨later.1, first.trans later.2⟩
      · simp only [player_follow]
        exact ⟨Player.resolver_pulse _ _, first⟩

/-- What an operation does to the player: it loads the score of its text, or it moves the cursor. -/
theorem run_cases (rig : Rig) (operation : Operation) :
    (rig.run operation).1.player.resolver = rig.player.resolver ∧
      ((∃ source score, operation.text? = some source ∧ (rig.report operation).loads = true ∧
          (Score.read rig.player.resolver source).outcome = .ok score ∧
          (rig.run operation).1.player.playback = rig.player.playback.load score) ∨
        (rig.report operation).loads = false ∧
          Playback.Moves rig.player.playback (rig.run operation).1.player.playback) := by
  cases operation with
  | read source =>
      simp only [report, Report.loads, Operation.text?, run]
      rcases rig.player.read_cases source with
        ⟨score, outcome, accepted, loads⟩ | ⟨⟨error, outcome⟩, unchanged⟩
      · simp only [loads, outcome]
        exact ⟨rfl, Or.inl ⟨source, score, rfl, rfl, accepted, rfl⟩⟩
      · simp only [unchanged, outcome]
        exact ⟨trivial, Or.inr ⟨rfl, .refl⟩⟩
  | loadFile path contents =>
      cases contents with
      | error cause => exact ⟨rfl, Or.inr ⟨rfl, .refl⟩⟩
      | ok source =>
          simp only [report, Report.loads, Operation.text?, run, Player.loadFile]
          rcases rig.player.read_cases source with
            ⟨score, outcome, accepted, loads⟩ | ⟨⟨error, outcome⟩, unchanged⟩
          · simp only [loads, outcome]
            exact ⟨rfl, Or.inl ⟨source, score, rfl, rfl, accepted, rfl⟩⟩
          · simp only [unchanged, outcome]
            exact ⟨trivial, Or.inr ⟨rfl, .refl⟩⟩
  | start =>
      refine ⟨?_, Or.inr ⟨rfl, ?_⟩⟩
      · simp [run, Player.start]
      · simp only [run, player_follow, Player.start]
        exact .single (.rewind _)
  | stop =>
      simp only [run, player_follow, Player.stop]
      exact ⟨trivial, Or.inr ⟨rfl, .refl⟩⟩
  | setTempo bpm =>
      simp only [run, player_follow, Player.setTempo]
      exact ⟨trivial, Or.inr ⟨rfl, .refl⟩⟩
  | pulses numbers =>
      have moves := rig.playPulses_moves numbers
      exact ⟨moves.1, Or.inr ⟨rfl, moves.2⟩⟩
  | tick pulse =>
      have moves := rig.playPulses_moves [pulse]
      refine ⟨?_, Or.inr ⟨rfl, ?_⟩⟩
      · simp only [run]
        split
        · exact moves.1
        · rfl
      · simp only [run]
        split
        · exact moves.2
        · exact .refl
  | drop =>
      simp only [run, player_follow, Player.stop]
      exact ⟨trivial, Or.inr ⟨rfl, .refl⟩⟩

/-- The score after a run is the one from before it or was read from a text of the run. -/
theorem runAll_score (rig : Rig) (operations : List Operation) :
    (rig.runAll operations).1.player.resolver = rig.player.resolver ∧
      ((rig.runAll operations).1.player.playback.score = rig.player.playback.score ∨
        ∃ operation ∈ operations, ∃ source, operation.text? = some source ∧
          (Score.read rig.player.resolver source).outcome =
            .ok (rig.runAll operations).1.player.playback.score) := by
  induction operations generalizing rig with
  | nil => exact ⟨rfl, Or.inl rfl⟩
  | cons operation rest ih =>
      rcases rig.run_cases operation with ⟨resolver_eq, effect⟩
      rcases ih (rig.run operation).1 with ⟨lastResolver_eq, kept | ⟨later, later_mem, fromText⟩⟩
      · refine ⟨lastResolver_eq.trans resolver_eq, ?_⟩
        simp only [runAll, kept]
        rcases effect with ⟨source, score, text, _, accepted, loaded⟩ | ⟨_, moves⟩
        · right
          refine ⟨operation, List.mem_cons_self, source, text, ?_⟩
          rw [loaded, Playback.score_load]
          exact accepted
        · left
          exact moves.score_eq
      · rw [resolver_eq] at fromText
        exact ⟨lastResolver_eq.trans resolver_eq,
          Or.inr ⟨later, List.mem_cons_of_mem _ later_mem, fromText⟩⟩

end Rig

end LiveScore
