import LiveScore.Proofs.Player.Run
import Mathlib.Data.List.Basic

/-!
# What a run delivers

With a sink that never breaks down, every delivery of a pulse is made, in the order in which the
player asks for it. A complete measure enters one measure at its first pulse and stays there, so it
delivers what the playback then says of each of its pulses. Nothing but pulses delivers anything.
-/

namespace LiveScore

/-- The delivery that a command asks for. -/
def Command.delivery? : Command → Option Delivery
  | .deliver _ delivery => some delivery
  | _ => none

/-- The delivery that was made. -/
def Event.delivery? : Event → Option Delivery
  | .performed command => command.delivery?
  | _ => none

/-- All deliveries that an operation made, in order. -/
def Report.deliveries (report : Report) : List Delivery := report.events.filterMap Event.delivery?

/-- The command that was performed. -/
def Event.command? : Event → Option Command
  | .performed command => some command
  | _ => none

/-- The commands that were carried out, in order. -/
def Report.commands (report : Report) : List Command := report.events.filterMap Event.command?

theorem Event.filterMap_delivery? (events : List Event) :
    events.filterMap Event.delivery? =
      (events.filterMap Event.command?).filterMap Command.delivery? := by
  rw [List.filterMap_filterMap]
  congr 1
  funext event
  cases event <;> rfl

theorem Command.filterMap_delivery?_map (pulse : Nat) (deliveries : List Delivery) :
    (deliveries.map (Command.deliver pulse)).filterMap Command.delivery? = deliveries := by
  rw [List.filterMap_map]
  exact List.filterMap_some

/-- A sink that may refuse deliveries but never breaks down. -/
def Sink.Survives (sink : Sink) : Prop :=
  ∀ number delivery, sink.answer number delivery ≠ .panicked

/-- All pulses of a measure, in order. -/
def Operation.measure : Operation := .pulses (List.range pulsesPerMeasure)

/-- The operation may play pulses. -/
def Operation.plays : Operation → Bool
  | .pulses _ => true
  | .tick _ => true
  | _ => false

/-- The score that an operation puts in place, if it gets to read one. -/
def Operation.loaded? (resolver : Resolver) (operation : Operation) : Option Score :=
  operation.text?.bind fun source => (Score.read resolver source).outcome.toOption

/-- The playback after an operation that plays no pulses. -/
def Playback.after (resolver : Resolver) (playback : Playback) : Operation → Playback
  | .start => playback.rewind
  | operation => (operation.loaded? resolver).elim playback playback.load

theorem Playback.after_of_ne_start {operation : Operation} (notStart : operation ≠ .start)
    (resolver : Resolver) (playback : Playback) :
    playback.after resolver operation =
      (operation.loaded? resolver).elim playback playback.load := by
  cases operation with
  | start => exact absurd rfl notStart
  | _ => rfl

/-- The playback after the first pulse of a measure. -/
def Playback.downbeat (playback : Playback) : Playback :=
  if playback.score.isEmpty then playback else playback.nextMeasure

namespace Player

variable (player : Player)

theorem playback_pulse (pulse : Nat) :
    (player.pulse pulse).1.playback =
      if pulse = 0 then player.playback.downbeat else player.playback := by
  unfold Player.pulse Playback.downbeat
  by_cases silent : player.playback.score.isEmpty = true
  · simp [silent]
  · simp [silent]

theorem playback_read (source : String) :
    (player.read source).1.playback =
      ((Score.read player.resolver source).outcome.toOption).elim player.playback
        player.playback.load := by
  unfold Player.read
  cases outcome : (Score.read player.resolver source).outcome with
  | ok score => simp only [outcome]; rfl
  | error error => simp only [outcome]; rfl

/-- Only the first pulse of a measure changes the player. -/
theorem pulse_within {pulse : Nat} (within : pulse ≠ 0) : (player.pulse pulse).1 = player := by
  unfold Player.pulse
  rw [if_neg within, if_neg within]
  split <;> rfl

theorem deliveries_tempoCommands (bpm : Binary64) :
    (player.tempoCommands bpm).filterMap Command.delivery? = [] := by
  unfold tempoCommands
  split <;> rfl

theorem deliveries_requestCommands (request : Option Binary64) :
    (player.requestCommands request).filterMap Command.delivery? = [] := by
  cases request with
  | none => rfl
  | some bpm => exact player.deliveries_tempoCommands bpm

theorem deliveries_clickCommands (pulse : Nat) :
    (player.clickCommands pulse).filterMap Command.delivery? = [] := by
  unfold clickCommands
  split
  · split <;> rfl
  · rfl

/-- A pulse asks for what the playback that it leaves says of it. -/
theorem deliveries_pulse (pulse : Nat) :
    (player.pulse pulse).2.filterMap Command.delivery? =
      (player.pulse pulse).1.playback.deliveries pulse := by
  unfold Player.pulse
  split
  · rename_i noScore
    -- Without sections there is none that plays.
    have noSections : player.playback.score.sections = [] := by simpa [Score.isEmpty] using noScore
    simp [Playback.deliveries, Playback.section?, noSections]
  · simp only [List.filterMap_append, deliveries_requestCommands, deliveries_clickCommands,
      Command.filterMap_delivery?_map, List.nil_append]

end Player

theorem Sink.Survives.runAll {rig : Rig} (survives : rig.sink.Survives)
    (operations : List Operation) : (rig.runAll operations).1.sink.Survives := by
  rw [Rig.sink_runAll]
  exact survives

namespace Rig

variable {rig : Rig}

theorem perform_survives (survives : rig.sink.Survives) (command : Command) :
    (rig.perform command).2.1.filterMap Event.command? = [command] ∧
      (rig.perform command).2.2 = true := by
  cases command with
  | deliver pulse delivery =>
      simp only [perform]
      cases answer : rig.sink.answer rig.delivered delivery with
      | accepted => exact ⟨rfl, rfl⟩
      | failed causes => exact ⟨rfl, rfl⟩
      | panicked => exact absurd answer (survives _ _)
  | _ => exact ⟨rfl, rfl⟩

theorem performAll_survives (survives : rig.sink.Survives) (commands : List Command) :
    (rig.performAll commands).2.1.filterMap Event.command? = commands ∧
      (rig.performAll commands).2.2 = true := by
  induction commands generalizing rig with
  | nil => exact ⟨rfl, rfl⟩
  | cons command rest ih =>
      rcases perform_survives survives command with ⟨performed, survived⟩
      rw [← sink_perform rig command] at survives
      rcases ih survives with ⟨laterPerformed, laterSurvived⟩
      simp only [performAll, survived, if_true]
      refine ⟨?_, laterSurvived⟩
      rw [List.filterMap_append, performed, laterPerformed, List.singleton_append]

theorem follow_survives (survives : rig.sink.Survives) (change : Player × List Command) :
    (rig.follow change).2.1.filterMap Event.command? = change.2 ∧
      (rig.follow change).2.2 = true := by
  have changed : ({ rig with player := change.1 } : Rig).sink.Survives := survives
  exact performAll_survives changed change.2

theorem deliveries_follow (survives : rig.sink.Survives) (change : Player × List Command) :
    (rig.follow change).2.1.filterMap Event.delivery? = change.2.filterMap Command.delivery? := by
  rw [Event.filterMap_delivery?, (follow_survives survives change).1]

/-- A pulse is played to its end, and the pulses after it start from the player that it left. -/
theorem playPulses_cons (survives : rig.sink.Survives) (pulse : Nat) (rest : List Nat) :
    ∃ next : Rig, next.sink = rig.sink ∧ next.player = (rig.player.pulse pulse).1 ∧
      (rig.playPulses (pulse :: rest)).1 = (next.playPulses rest).1 ∧
      (rig.playPulses (pulse :: rest)).2.1.filterMap Event.command? =
        (rig.player.pulse pulse).2 ++ (next.playPulses rest).2.1.filterMap Event.command? := by
  rcases follow_survives survives (rig.player.pulse pulse) with ⟨performed, survived⟩
  refine ⟨(rig.follow (rig.player.pulse pulse)).1, sink_follow _ _, player_follow _ _, ?_, ?_⟩
  · simp only [playPulses, survived, if_true]
  · simp only [playPulses, survived, if_true, List.filterMap_append]
    rw [performed]

/-- Pulses within a measure leave the player alone. -/
theorem playPulses_within (survives : rig.sink.Survives) {pulses : List Nat}
    (within : ∀ pulse ∈ pulses, pulse ≠ 0) :
    (rig.playPulses pulses).1.player = rig.player ∧
      (rig.playPulses pulses).2.1.filterMap Event.command? =
        pulses.flatMap fun pulse => (rig.player.pulse pulse).2 := by
  induction pulses generalizing rig with
  | nil => exact ⟨rfl, rfl⟩
  | cons pulse rest ih =>
      rcases playPulses_cons survives pulse rest with
        ⟨next, sink_eq, player_eq, last_eq, performed⟩
      rw [rig.player.pulse_within (within pulse List.mem_cons_self)] at player_eq
      rw [← sink_eq] at survives
      have restWithin : ∀ later ∈ rest, later ≠ 0 := by
        intro later later_mem
        exact within later (List.mem_cons_of_mem _ later_mem)
      rcases ih survives restWithin with ⟨lastPlayer_eq, laterPerformed⟩
      constructor
      · rw [last_eq, lastPlayer_eq, player_eq]
      · rw [performed, laterPerformed, player_eq, List.flatMap_cons]

/-- The pulses of a measure after its first one. -/
def laterPulses : List Nat := (List.range lastPulse).map Nat.succ

theorem range_pulsesPerMeasure : List.range pulsesPerMeasure = 0 :: laterPulses :=
  List.range_succ_eq_map

theorem laterPulses_ne_zero : ∀ pulse ∈ laterPulses, pulse ≠ 0 := by
  intro pulse pulse_mem
  rcases List.mem_map.mp pulse_mem with ⟨earlier, _, rfl⟩
  exact Nat.succ_ne_zero earlier

/-- A complete measure carries out what its first pulse asks for, and then what the player that this
pulse leaves asks for at each of the others. -/
theorem run_measure_commands (survives : rig.sink.Survives) :
    (rig.run .measure).1.player = (rig.player.pulse 0).1 ∧
      (rig.report .measure).commands = (rig.player.pulse 0).2 ++
        laterPulses.flatMap fun pulse => ((rig.player.pulse 0).1.pulse pulse).2 := by
  rcases playPulses_cons survives 0 laterPulses with ⟨next, sink_eq, player_eq, last_eq, performed⟩
  rw [← sink_eq] at survives
  rcases playPulses_within survives laterPulses_ne_zero with ⟨lastPlayer_eq, laterPerformed⟩
  simp only [report, Report.commands, Operation.measure, run]
  rw [range_pulsesPerMeasure]
  constructor
  · rw [last_eq, lastPlayer_eq, player_eq]
  · rw [performed, laterPerformed, player_eq]

/-- A complete measure delivers what the playback after its first pulse says of each of its
pulses. -/
theorem run_measure (survives : rig.sink.Survives) :
    (rig.run .measure).1.player.playback = rig.player.playback.downbeat ∧
      (rig.report .measure).deliveries =
        (List.range pulsesPerMeasure).flatMap rig.player.playback.downbeat.deliveries := by
  rcases run_measure_commands survives with ⟨player_eq, performed⟩
  have entered : (rig.player.pulse 0).1.playback = rig.player.playback.downbeat :=
    rig.player.playback_pulse 0
  refine ⟨by rw [player_eq, entered], ?_⟩
  have delivered : (rig.report .measure).deliveries =
      (rig.report .measure).commands.filterMap Command.delivery? := Event.filterMap_delivery? _
  rw [delivered, performed, List.filterMap_append, Player.deliveries_pulse, entered,
    List.filterMap_flatMap, range_pulsesPerMeasure, List.flatMap_cons]
  congr 1
  refine List.flatMap_congr ?_
  intro pulse pulse_mem
  rw [Player.deliveries_pulse, Player.pulse_within _ (laterPulses_ne_zero pulse pulse_mem), entered]

/-- An operation that plays no pulses starts over, puts the score of its text in place or leaves the
playback alone. -/
theorem playback_run_of_silent {operation : Operation} (silent : operation.plays = false) :
    (rig.run operation).1.player.playback =
      rig.player.playback.after rig.player.resolver operation := by
  cases operation with
  | read source => exact rig.player.playback_read source
  | loadFile path contents =>
      cases contents with
      | error cause => rfl
      | ok source =>
          have sameRead : (rig.player.loadFile path (.ok source)).1 =
              (rig.player.read source).1 := by
            simp only [Player.loadFile]
            split <;> rfl
          simp only [run, sameRead]
          exact rig.player.playback_read source
  | start =>
      simp only [run, player_follow]
      rfl
  | stop =>
      simp only [run, player_follow]
      rfl
  | setTempo bpm =>
      simp only [run, player_follow]
      rfl
  | pulses numbers => cases silent
  | tick pulse => cases silent
  | drop =>
      simp only [run, player_follow]
      rfl

/-- An operation that plays no pulses delivers nothing. -/
theorem deliveries_report_of_silent (survives : rig.sink.Survives) {operation : Operation}
    (silent : operation.plays = false) : (rig.report operation).deliveries = [] := by
  have warned (lines : List Nat) :
      (lines.map Event.measureIgnored).filterMap Event.delivery? = [] := by
    simp [Event.delivery?]
  cases operation with
  | read source => exact warned _
  | loadFile path contents => exact warned _
  | start =>
      apply (deliveries_follow survives rig.player.start).trans
      simp only [Player.start, List.filterMap_append, Player.deliveries_requestCommands]
      split <;> rfl
  | stop => exact deliveries_follow survives rig.player.stop
  | setTempo bpm =>
      apply (deliveries_follow survives (rig.player.setTempo bpm)).trans
      exact rig.player.deliveries_tempoCommands bpm
  | pulses numbers => cases silent
  | tick pulse => cases silent
  | drop => exact deliveries_follow survives rig.player.stop

end Rig

end LiveScore
