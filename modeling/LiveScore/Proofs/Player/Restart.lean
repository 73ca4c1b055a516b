import LiveScore.Clock.Metronome
import LiveScore.Proofs.Player.Itinerary
import LiveScore.Proofs.Player.Steps

/-!
# Starting again while a metronome plays

The clock of a rig calls for no pulses of its own. A metronome does, and it goes on while the player
is started again: the cursor goes back to the top of the chain first, then the devices are told the
tempo, and only then the run that is recorded ends and a new one begins. A pulse that an older run
plays in between is a pulse like any other, so if it is the first one of a measure, it takes the
cursor into the score before the new run has played anything. How often this happens says where the
new run comes in.
-/

namespace LiveScore

/-- A metronome takes a command; those for other devices leave it alone. -/
def Metronome.take (metronome : Metronome) : Command → Metronome
  | .setClockTempo bpm => metronome.setTempo bpm
  | _ => metronome

/-- A rig whose pulses come from a metronome. The clock of the rig keeps what it is told, and the
metronome is told the same. -/
structure MetronomeRig where
  rig : Rig
  metronome : Metronome

/-- What happens without interruption while a player is started. -/
inductive StartStep where
  /-- The cursor goes back to the top of the chain. -/
  | rewind
  | tell (command : Command)
  /-- The recorded run ends. -/
  | endRun
  | beginRun
  /-- A run plays its next pulse, if it plays any more. -/
  | tick (run : Nat)
deriving DecidableEq

/-- A tick of one of the first runs. -/
def StartStep.IsTickBelow (count : Nat) (step : StartStep) : Prop :=
  ∃ run < count, step = .tick run

/-- A step between the rewind and the new run: the devices are told something, the recorded run
ends, or one of the first runs ticks. -/
inductive StartStep.IsBetween (count : Nat) : StartStep → Prop
  | tell (command : Command) : IsBetween count (.tell command)
  | endRun : IsBetween count .endRun
  | tick {run : Nat} (older : run < count) : IsBetween count (.tick run)

theorem StartStep.IsTickBelow.isBetween {count : Nat} {step : StartStep}
    (isTick : step.IsTickBelow count) : step.IsBetween count := by
  rcases isTick with ⟨run, older, rfl⟩
  exact .tick older

theorem StartStep.IsBetween.ne_rewind {count : Nat} {step : StartStep}
    (between : step.IsBetween count) : step ≠ .rewind := by
  cases between <;> nofun

/-- The steps of a start, if nothing interrupts them. -/
def Player.startSteps (player : Player) : List StartStep :=
  .rewind :: player.start.2.flatMap fun command =>
    match command with
    | .startClock => [.endRun, .beginRun]
    | command => [.tell command]

/-- However the ticks of older runs fall between the steps of a start, the steps are cut by the
rewind and by the begin of the new run. -/
theorem Player.exists_of_interposed_startSteps {player : Player} {count : Nat}
    {steps : List StartStep}
    (interposed : Interposed (StartStep.IsTickBelow count) player.startSteps steps) :
    ∃ earlier between last, steps = earlier ++ .rewind :: (between ++ .beginRun :: last) ∧
      (∀ step ∈ earlier, step.IsTickBelow count) ∧ (∀ step ∈ between, step.IsBetween count) ∧
        ∀ step ∈ last, step.IsTickBelow count := by
  have startSteps_eq : ∃ opening : List Command, player.startSteps =
      [] ++ .rewind :: (opening.map .tell ++ [.endRun] ++ .beginRun :: []) := by
    refine ⟨(if player.clickLatency.isSome then [.startClick clickReferenceTempo] else []) ++
      player.requestCommands player.playback.rewind.openingTempo, ?_⟩
    simp only [startSteps, start, requestCommands, tempoCommands]
    cases player.clickLatency with
    | _ =>
        cases player.playback.rewind.openingTempo with
        | _ => rfl
  rcases startSteps_eq with ⟨opening, startSteps_eq⟩
  rw [startSteps_eq] at interposed
  rcases interposed.exists_before with ⟨earlier, behind, rfl, before, after⟩
  rcases after.exists_before with ⟨between, last, rfl, middle, afterwards⟩
  refine ⟨earlier, between, last, rfl, before.forall_mem (by simp) fun _ isTick => isTick, ?_,
    afterwards.forall_mem (by simp) fun _ isTick => isTick⟩
  refine middle.forall_mem ?_ fun _ isTick => isTick.isBetween
  simp only [List.mem_append, List.mem_map, List.mem_singleton]
  rintro step (⟨command, _, rfl⟩ | rfl)
  · exact .tell command
  · exact .endRun

/-- Only the first place of the itinerary is at the top of the chain. -/
theorem Score.itinerary_eq_top_iff {score : Score} {index : Nat} {place : Nat × Nat}
    (found : score.itinerary[index]? = some place) : place = (0, 0) ↔ index = 0 := by
  rcases getElem?_places_eq_some_iff.mp found with ⟨inChain, _, offset⟩
  constructor
  · rintro rfl
    exact offset
  · rintro rfl
    have hasChain : score.chain ≠ [] := List.ne_nil_of_length_pos (Nat.zero_lt_of_lt inChain)
    rw [itinerary_zero hasChain] at found
    exact (Option.some.inj found).symm

theorem Playback.score_downbeat_iterate (count : Nat) (playback : Playback) :
    (downbeat^[count] playback).score = playback.score := by
  induction count generalizing playback with
  | zero => rfl
  | succ count ih =>
      rw [Function.iterate_succ_apply, ih]
      unfold downbeat
      split
      · rfl
      · exact score_nextMeasure _

namespace MetronomeRig

/-- The pulse that a run plays next, if it plays any more. -/
def pulse? (timed : MetronomeRig) (run : Nat) : Option Nat :=
  if timed.metronome.canPulse run then timed.metronome.runs[run]?.map MetronomeRun.pulse else none

/-- Plays a pulse for a run. The run breaks down with the sink. -/
def playPulse (timed : MetronomeRig) (run pulse : Nat) : MetronomeRig :=
  let (rig, events, survived) := timed.rig.playPulses [pulse]
  let metronome := (events.filterMap Event.command?).foldl Metronome.take timed.metronome
  ⟨rig, metronome.leave run survived⟩

/-- What a step of a start, or a pulse of a run in between, does. -/
def take (timed : MetronomeRig) : StartStep → MetronomeRig
  | .rewind =>
    let player := timed.rig.player
    { timed with
      rig := { timed.rig with player := { player with playback := player.playback.rewind } } }
  | .tell command => ⟨(timed.rig.perform command).1, timed.metronome.take command⟩
  | .endRun => { timed with metronome := timed.metronome.clear }
  | .beginRun => ⟨(timed.rig.perform .startClock).1, timed.metronome.spawn⟩
  | .tick run =>
    match timed.pulse? run with
    | some pulse => timed.playPulse run pulse
    | none => timed

/-- What some steps do, one after the other. -/
def takeAll (timed : MetronomeRig) (steps : List StartStep) : MetronomeRig :=
  steps.foldl take timed

/-- Whether a step plays the first pulse of a measure. -/
def playsDownbeat (timed : MetronomeRig) : StartStep → Bool
  | .tick run => timed.pulse? run = some 0
  | _ => false

/-- How many steps play the first pulse of a measure. -/
def downbeats (timed : MetronomeRig) : List StartStep → Nat
  | [] => 0
  | step :: rest => (timed.playsDownbeat step).toNat + (timed.take step).downbeats rest

/-- How many steps behind the rewind play the first pulse of a measure. -/
def downbeatsSinceRewind (timed : MetronomeRig) : List StartStep → Nat
  | [] => 0
  | .rewind :: rest => (timed.take .rewind).downbeats rest
  | step :: rest => (timed.take step).downbeatsSinceRewind rest

variable {timed : MetronomeRig} {step : StartStep} {steps : List StartStep} {count : Nat}

theorem takeAll_append (timed : MetronomeRig) (steps later : List StartStep) :
    timed.takeAll (steps ++ later) = (timed.takeAll steps).takeAll later :=
  List.foldl_append

/-- Without interruption the steps do what the rig does when it is started, and start the
metronome. -/
theorem takeAll_startSteps (timed : MetronomeRig) :
    timed.takeAll timed.rig.player.startSteps =
      ⟨(timed.rig.run .start).1,
        (timed.rig.player.start.2.foldl Metronome.take timed.metronome).start⟩ := by
  simp only [Rig.run, Rig.follow, Player.startSteps, Player.start, Player.requestCommands]
  cases click : timed.rig.player.clickLatency with
  | _ =>
      cases timed.rig.player.playback.rewind.openingTempo with
      | _ =>
          simp [takeAll, take, Player.tempoCommands, click, Rig.performAll, Rig.perform,
            Metronome.take, Metronome.start, Metronome.stop]

section Ticks

@[simp]
theorem runs_foldl_take (metronome : Metronome) (commands : List Command) :
    (commands.foldl Metronome.take metronome).runs = metronome.runs := by
  induction commands generalizing metronome with
  | nil => rfl
  | cons command rest ih =>
      rw [List.foldl_cons, ih]
      cases command <;> rfl

/-- A tick changes the run that it is of. -/
theorem exists_runs_take_tick (timed : MetronomeRig) (run : Nat) :
    ∃ change, (timed.take (.tick run)).metronome.runs = timed.metronome.runs.modify run change := by
  simp only [take]
  cases timed.pulse? run with
  | none => exact ⟨id, (List.modify_id _ _).symm⟩
  | some pulse =>
      simp only [playPulse, Metronome.leave]
      split
      · simp only [Metronome.advance, Metronome.modifyRun, runs_foldl_take]
        exact ⟨_, rfl⟩
      · simp only [Metronome.modifyRun, runs_foldl_take]
        exact ⟨_, rfl⟩

/-- Before the new run begins no other one does. -/
theorem length_runs_take (between : step.IsBetween count) :
    (timed.take step).metronome.runs.length = timed.metronome.runs.length := by
  cases between with
  | tell command => cases command <;> rfl
  | endRun =>
      simp only [take, Metronome.clear]
      split
      · rfl
      · simp [Metronome.modifyRun]
  | tick older =>
      rcases timed.exists_runs_take_tick _ with ⟨change, runs_eq⟩
      rw [runs_eq, List.length_modify]

theorem length_runs_takeAll (between : ∀ step ∈ steps, step.IsBetween count) :
    (timed.takeAll steps).metronome.runs.length = timed.metronome.runs.length := by
  induction steps generalizing timed with
  | nil => rfl
  | cons step rest ih =>
      rcases List.forall_mem_cons.mp between with ⟨first, others⟩
      exact (ih others).trans (length_runs_take first)

/-- Ticks of older runs leave the new one alone. -/
theorem getElem?_runs_takeAll (ticks : ∀ step ∈ steps, step.IsTickBelow count) :
    (timed.takeAll steps).metronome.runs[count]? = timed.metronome.runs[count]? := by
  induction steps generalizing timed with
  | nil => rfl
  | cons step rest ih =>
      rcases List.forall_mem_cons.mp ticks with ⟨⟨run, older, rfl⟩, others⟩
      rcases timed.exists_runs_take_tick run with ⟨change, runs_eq⟩
      calc
        ((timed.take (.tick run)).takeAll rest).metronome.runs[count]?
          = (timed.take (.tick run)).metronome.runs[count]? := ih others
        _ = timed.metronome.runs[count]? := by
          simp [runs_eq, Nat.ne_of_lt older]

/-- The run that begins between two stretches of steps is about to play its first pulse. -/
theorem pulse?_of_beginRun {between last : List StartStep}
    (length_eq : timed.metronome.runs.length = count)
    (between_steps : ∀ step ∈ between, step.IsBetween count)
    (last_ticks : ∀ step ∈ last, step.IsTickBelow count) :
    (timed.takeAll (between ++ .beginRun :: last)).pulse? count = some 0 := by
  have begun : (timed.takeAll (between ++ .beginRun :: last)).metronome.runs[count]? =
      some {} := by
    rw [← length_eq, ← length_runs_takeAll between_steps] at last_ticks ⊢
    rw [takeAll_append]
    refine (getElem?_runs_takeAll last_ticks).trans ?_
    simp [take, Metronome.spawn]
  simp [pulse?, Metronome.canPulse, begun]

end Ticks

section Downbeats

/-- Only the rewind and the first pulse of a measure move the cursor. -/
theorem playback_take (notRewind : step ≠ .rewind) :
    (timed.take step).rig.player.playback =
      Playback.downbeat^[(timed.playsDownbeat step).toNat] timed.rig.player.playback := by
  cases step with
  | rewind => exact absurd rfl notRewind
  | tell command => rw [take, Rig.player_perform]; rfl
  | endRun => rfl
  | beginRun => rw [take, Rig.player_perform]; rfl
  | tick run =>
      simp only [take, playsDownbeat]
      cases timed.pulse? run with
      | none => rfl
      | some pulse =>
          simp only [playPulse, Rig.playback_playPulses, Rig.played]
          by_cases first : pulse = 0 <;> simp [first]

theorem playback_takeAll (noRewind : ∀ step ∈ steps, step ≠ .rewind) :
    (timed.takeAll steps).rig.player.playback =
      Playback.downbeat^[timed.downbeats steps] timed.rig.player.playback := by
  induction steps generalizing timed with
  | nil => rfl
  | cons step rest ih =>
      rcases List.forall_mem_cons.mp noRewind with ⟨notRewind, others⟩
      rw [takeAll, List.foldl_cons, ← takeAll, ih others, playback_take notRewind, downbeats,
        ← Function.iterate_add_apply, Nat.add_comm]

theorem downbeatsSinceRewind_append (noRewind : ∀ step ∈ steps, step ≠ .rewind)
    (later : List StartStep) :
    timed.downbeatsSinceRewind (steps ++ .rewind :: later) =
      ((timed.takeAll steps).take .rewind).downbeats later := by
  induction steps generalizing timed with
  | nil => rfl
  | cons step rest ih =>
      rcases List.forall_mem_cons.mp noRewind with ⟨notRewind, others⟩
      cases step with
      | rewind => exact absurd rfl notRewind
      | _ => exact ih others

/-- The rewind takes the cursor to the top of the chain, whatever was played before, and from there
on it is moved by the downbeats behind the rewind. -/
theorem exists_atTop {earlier behind : List StartStep}
    (playable : timed.rig.player.playback.score.Playable)
    (earlier_noRewind : ∀ step ∈ earlier, step ≠ .rewind)
    (behind_noRewind : ∀ step ∈ behind, step ≠ .rewind) :
    ∃ top : Playback, top.AtTop timed.rig.player.playback.score ∧
      (timed.takeAll (earlier ++ .rewind :: behind)).rig.player.playback =
        Playback.downbeat^[timed.downbeatsSinceRewind (earlier ++ .rewind :: behind)] top := by
  have score_eq : (timed.takeAll earlier).rig.player.playback.score =
      timed.rig.player.playback.score := by
    rw [playback_takeAll earlier_noRewind, Playback.score_downbeat_iterate]
  refine ⟨(timed.takeAll earlier).rig.player.playback.rewind, ?_, ?_⟩
  · rw [← score_eq] at playable ⊢
    exact Playback.atTop_rewind playable
  · rw [takeAll_append, downbeatsSinceRewind_append earlier_noRewind]
    exact playback_takeAll behind_noRewind

end Downbeats

/-- However the ticks of older runs fall between the steps of a start, the first pulse of the new
run is the first one of a measure, and the place where it leaves the player is the one that the
number of downbeats since the rewind says, going round the itinerary. This is the top of the chain
exactly if they went round it completely, so in particular if there were none. -/
theorem position?_of_start {source : String}
    (accepted : (Score.read timed.rig.player.resolver source).outcome =
      .ok timed.rig.player.playback.score)
    (interposed : Interposed (StartStep.IsTickBelow timed.metronome.runs.length)
      timed.rig.player.startSteps steps) :
    let score := timed.rig.player.playback.score
    let newRun := timed.metronome.runs.length
    let started := timed.takeAll steps
    let count := timed.downbeatsSinceRewind steps
    started.pulse? newRun = some 0 ∧
      ∃ position measure index sect,
        score.itinerary[count % score.itinerary.length]? = some (position, measure) ∧
          score.sectionAt? position = some (index, sect) ∧
          (started.take (.tick newRun)).rig.player.position? =
            some ⟨position, sect.name, some measure⟩ ∧
          (position = 0 ∧ measure = 0 ↔ score.itinerary.length ∣ count) := by
  intro score newRun started count
  rcases Player.exists_of_interposed_startSteps interposed with
    ⟨earlier, between, last, rfl, earlier_ticks, between_steps, last_ticks⟩
  have earlier_between : ∀ step ∈ earlier, step.IsBetween newRun :=
    fun step step_mem => (earlier_ticks step step_mem).isBetween
  have earlier_noRewind : ∀ step ∈ earlier, step ≠ .rewind :=
    fun step step_mem => (earlier_between step step_mem).ne_rewind
  have behind_noRewind : ∀ step ∈ between ++ .beginRun :: last, step ≠ .rewind := by
    simp only [List.mem_append, List.mem_cons]
    rintro step (step_mem | rfl | step_mem)
    · exact (between_steps step step_mem).ne_rewind
    · exact nofun
    · exact (last_ticks step step_mem).isBetween.ne_rewind
  have pulse_eq : started.pulse? newRun = some 0 := by
    simp only [started, takeAll_append]
    exact pulse?_of_beginRun (length_runs_takeAll earlier_between) between_steps last_ticks
  rcases exists_atTop (Score.playable_of_read accepted) earlier_noRewind behind_noRewind with
    ⟨beginning, top, playback_eq⟩
  have first_eq : (started.take (.tick newRun)).rig.player.playback =
      Playback.downbeat^[count + 1] beginning := by
    have isDownbeat : started.playsDownbeat (.tick newRun) = true := by
      simp [playsDownbeat, pulse_eq]
    rw [playback_take StartStep.noConfusion, isDownbeat, playback_eq,
      ← Function.iterate_add_apply, Nat.add_comm]
    rfl
  rcases top.exists_visits count with ⟨⟨position, measure⟩, found, score_eq, visits⟩
  rw [← first_eq] at score_eq visits
  rcases visits.located.exists_section with ⟨sect, playing, looked⟩
  rw [score_eq, visits.position_eq] at looked
  refine ⟨pulse_eq, position, measure, _, sect, found, looked, ?_, ?_⟩
  · rw [Player.position?, Playback.position?, playing, visits.position_eq, visits.measure_eq]
    rfl
  · rw [Nat.dvd_iff_mod_eq_zero, ← Score.itinerary_eq_top_iff found, Prod.mk.injEq]

/-- The older run ticks at every point of a start with a click track and a tempo. It plays the first
pulse of its measure before the rewind, so the new run comes in at the top of the chain. -/
theorem position?_of_start_undisturbed :
    let source := "pattern a\ntempo 90\ninstruments X\nc\nc"
    let rig := ((Rig.fresh .unison (some (.ofMilliseconds 10)) .accepting).run (.read source)).1
    let timed := MetronomeRig.takeAll ⟨rig, .standard⟩ rig.player.startSteps
    let steps : List StartStep := [.tick 0, .rewind, .tick 0, .tell (.startClick 60), .tick 0,
      .tell (.setClockTempo 90), .tell (.setClickTempo 90), .tick 0, .endRun, .tick 0, .beginRun,
      .tick 0]
    (Score.read timed.rig.player.resolver source).outcome =
        .ok timed.rig.player.playback.score ∧
      Interposed (StartStep.IsTickBelow timed.metronome.runs.length) timed.rig.player.startSteps
        steps ∧
      (timed.takeAll steps).pulse? 1 = some 0 ∧
      ∃ name, ((timed.takeAll steps).take (.tick 1)).rig.player.position? =
        some ⟨0, name, some 0⟩ := by
  intro source rig timed steps
  have facts : (Score.read timed.rig.player.resolver source).outcome =
        .ok timed.rig.player.playback.score ∧
      timed.metronome.runs.length = 1 ∧
      timed.rig.player.startSteps = [.rewind, .tell (.startClick 60), .tell (.setClockTempo 90),
        .tell (.setClickTempo 90), .endRun, .beginRun] ∧
      timed.downbeatsSinceRewind steps = 0 := by
    decide +kernel
  rcases facts with ⟨accepted, runs_eq, startSteps_eq, count_eq⟩
  have interposed : Interposed (StartStep.IsTickBelow timed.metronome.runs.length)
      timed.rig.player.startSteps steps := by
    have isTick : StartStep.IsTickBelow 1 (.tick 0) := ⟨0, Nat.zero_lt_one, rfl⟩
    rw [runs_eq, startSteps_eq]
    exact .insert isTick (.keep (.insert isTick (.keep (.insert isTick (.keep (.keep (.insert isTick
      (.keep (.insert isTick (.keep (.insert isTick .nil)))))))))))
  rcases position?_of_start accepted interposed with
    ⟨first, position, measure, _, sect, _, _, position_eq, top_iff⟩
  rw [runs_eq] at first position_eq
  rcases top_iff.mpr (count_eq ▸ Nat.dvd_zero _) with ⟨rfl, rfl⟩
  exact ⟨accepted, interposed, first, sect.name, position_eq⟩

/-- The player is started again at the end of a measure, and the older run gets to play the next
downbeat after the rewind. The new run comes in at the second measure. -/
theorem position?_of_start_overtaken :
    let rig := ((Rig.fresh .unison none .accepting).run
      (.read "pattern a\ninstruments X\nc\nd")).1
    let timed := MetronomeRig.takeAll ⟨rig, .standard⟩
      (rig.player.startSteps ++ List.replicate pulsesPerMeasure (.tick 0))
    let steps : List StartStep := [.rewind, .tick 0, .endRun, .beginRun]
    timed.metronome.isRunning = true ∧
      Interposed (StartStep.IsTickBelow timed.metronome.runs.length) timed.rig.player.startSteps
        steps ∧
      (timed.takeAll steps).pulse? timed.metronome.runs.length = some 0 ∧
      ((timed.takeAll steps).take (.tick timed.metronome.runs.length)).rig.player.position? =
        some ⟨0, "a", some 1⟩ := by
  intro rig timed steps
  have facts : timed.metronome.runs.length = 1 ∧
      timed.rig.player.startSteps = [.rewind, .endRun, .beginRun] ∧
      timed.metronome.isRunning = true ∧ (timed.takeAll steps).pulse? 1 = some 0 ∧
      ((timed.takeAll steps).take (.tick 1)).rig.player.position? = some ⟨0, "a", some 1⟩ := by
    decide +kernel
  rcases facts with ⟨runs_eq, startSteps_eq, running, first, position_eq⟩
  rw [runs_eq, startSteps_eq]
  have interposed : Interposed (StartStep.IsTickBelow 1) [.rewind, .endRun, .beginRun] steps :=
    .keep (.insert ⟨0, Nat.zero_lt_one, rfl⟩ (.keep (.keep .nil)))
  exact ⟨running, interposed, first, position_eq⟩

end MetronomeRig

end LiveScore
