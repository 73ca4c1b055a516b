import LiveScore.Proofs.Clock.HandlerProgress
import LiveScore.Proofs.Clock.HandlerSchedule

/-!
# The calls of a handler in control of its own metronome

A handler that controls its own metronome is called until it stops it and not once more, and its
calls are made one by one, whatever the threads do. Only what it learns about the metronome depends
on how they take turns, and only behind a restart: the rest of that call goes on beside later calls,
which may have stopped the metronome for good or, for a moment, in order to restart it.
-/

namespace LiveScore

namespace ScriptedMetronome

variable {script : HandlerScript} {state after : ScriptedMetronome} {event : HandlerEvent}
  {before behind : List HandlerEvent}

/-- Each event happens in a step. -/
theorem Run.exists_step (continued : Run script state (before ++ event :: behind) after) :
    ∃ run earlier next, Run script state before earlier ∧
      Step script earlier run event next := by
  induction before generalizing state with
  | nil =>
      cases continued with
      | cons step later => exact ⟨_, state, _, .nil, step⟩
  | cons first rest ih =>
      cases continued with
      | cons step later =>
          rcases ih later with ⟨run, earlier, next, reached, last⟩
          exact ⟨run, earlier, next, .cons step reached, last⟩

end ScriptedMetronome

namespace HandlerScript

/-- A handler that controls its own metronome is called until it stops it and not once more,
however the threads of its runs take turns: they take only so many steps, and when they can go on no
further, the last call has been made and the metronome is stopped. The calls are made in order, and
their pulses count from the last restart on and wrap at the end of the measure. A call that asks for
the state learns that the metronome is stopped exactly from the stop of the script on and in the
middle of the restart of a later call, and it can be overlapped by one only behind its own restart.
Playing the script is one of the ways to take turns, and all answers before its stop are that the
metronome runs. -/
theorem calls_until_stop (script : HandlerScript) (metronome : Metronome) (last : Nat)
    (playable : metronome.Playable) (stops : script.StopsIn last) :
    (∃ most, ∀ events after, ScriptedMetronome.Run script (.started metronome) events after →
      events.length ≤ most ∧
      (∃ count ≤ last + 1,
        madeCalls events = (List.range count).map
          (fun call => (call, (call - script.firstCall call) % 96)) ∧
        ((∀ run event next, ¬ScriptedMetronome.Step script after run event next) →
          count = last + 1 ∧ after.metronome.isRunning = false)) ∧
      ∀ before call running behind, events = before ++ .answered call running :: behind →
        (running = false ↔ .cleared last ∈ before ∨
          ∃ later, call < later ∧ .cleared later ∈ before ∧ .spawned later ∉ before) ∧
        (running = false → .cleared last ∈ before ∨ .spawned call ∈ before)) ∧
      (∃ events after, ScriptedMetronome.Run script (.started metronome) events after ∧
        (script.play metronome).2 = {
          pulses := (madeCalls events).map Prod.snd
          states := answers events
          ended := true }) ∧
      (script.play metronome).2 = {
        pulses := (List.range (last + 1)).map
          fun call => (call - script.firstCall call) % 96
        states := List.replicate ((script.actionsBefore last).count .observe) true ++
          List.replicate ((script.actionsBehind last).count .observe) false
        ended := true } := by
  refine ⟨⟨(ScriptedMetronome.started metronome).cost script last, ?_⟩,
    ScriptedMetronome.exists_run_play playable stops, play_eq playable stops⟩
  intro events after continued
  have started : ScriptedMetronome.OnTrack script last [] (.started metronome) :=
    ScriptedMetronome.onTrack_started playable
  have onTrack : ScriptedMetronome.OnTrack script last events after :=
    continued.onTrack started stops
  refine ⟨?_, ⟨after.calls, onTrack.calls_le, onTrack.madeCalls_eq, ?_⟩, ?_⟩
  · have length_le := continued.length_le started stops
    omega
  · intro stuck
    rcases onTrack.exists_step with ⟨run, event, next, step⟩ | ended
    · exact absurd step (stuck run event next)
    · exact ended
  · rintro before call running behind rfl
    rcases continued.exists_step with ⟨run, earlier, next, reached, step⟩
    have onTrack' : ScriptedMetronome.OnTrack script last before earlier :=
      reached.onTrack started stops
    exact onTrack'.answered step

/-- Two restarts close to each other, and then more than a measure until the handler stops the
metronome. No call asks for the state behind its restart. -/
theorem calls_until_stop_wrapped :
    let script : HandlerScript := [(1, .observe), (3, .setTempo (.finite 300)), (3, .observe),
      (3, .restart), (4, .restart), (100, .setTempo .negativeZero), (102, .observe), (102, .stop),
      (102, .observe), (103, .restart)]
    let pulses := [0, 1, 2, 3, 0] ++ List.range 96 ++ [0, 1]
    script.StopsIn 102 ∧
      (∀ events after, ScriptedMetronome.Run script (.started .standard) events after →
        (∀ run event next, ¬ScriptedMetronome.Step script after run event next) →
          (madeCalls events).map Prod.snd = pulses) ∧
      (script.play .standard).2 = {
        pulses
        states := [true, true, true, false]
        ended := true } := by
  intro script pulses
  have stops : script.StopsIn 102 := by
    constructor <;> decide +kernel
  have playable : Metronome.standard.Playable :=
    (Metronome.playable_iff_of_told rfl).mpr (by decide +kernel : Tempo.standard ≠ .nan)
  rcases calls_until_stop script .standard 102 playable stops with ⟨⟨most, anyway⟩, _, played⟩
  refine ⟨stops, ?_, ?_⟩
  · intro events after continued stuck
    rcases anyway events after continued with ⟨_, ⟨count, _, calls_eq, ends⟩, _⟩
    rw [calls_eq, (ends stuck).1, List.map_map]
    decide +kernel
  · rw [played]
    decide +kernel

/-- The metronome is found stopped although the handler has not stopped it: the second call has not
finished its restart when the first one, which goes on behind its own restart, asks for the
state. -/
theorem stopped_during_later_restart :
    let script : HandlerScript := [(0, .restart), (0, .observe), (1, .restart), (2, .stop)]
    script.StopsIn 2 ∧ ∃ after, ScriptedMetronome.Run script (.started .standard)
      [.passed, .called 0 0, .passed, .cleared 0, .passed, .cleared 0, .spawned 0,
        .passed, .called 1 0, .passed, .cleared 1, .answered 0 false] after := by
  intro script
  have stops : script.StopsIn 2 := by
    constructor <;> decide +kernel
  refine ⟨stops, ?_, ?run⟩
  case run =>
    refine .cons (show ScriptedMetronome.Step script _ 0 _ _ from .check (.check rfl)) ?_
    refine .cons (show ScriptedMetronome.Step script _ 0 _ _ from .deliver (.deliver rfl)) ?_
    refine .cons (show ScriptedMetronome.Step script _ 0 _ _ from
      .call ⟨rfl, rfl, rfl⟩ (.call rfl rfl)) ?_
    refine .cons (show ScriptedMetronome.Step script _ 0 _ _ from .clear (.clear rfl)) ?_
    refine .cons (show ScriptedMetronome.Step script _ 0 _ _ from
      .call ⟨rfl, rfl, rfl⟩ (.call rfl rfl)) ?_
    refine .cons (show ScriptedMetronome.Step script _ 0 _ _ from .clear (.clear rfl)) ?_
    refine .cons (show ScriptedMetronome.Step script _ 0 _ _ from .spawn (.spawn rfl)) ?_
    refine .cons (show ScriptedMetronome.Step script _ 1 _ _ from .check (.check rfl)) ?_
    refine .cons (show ScriptedMetronome.Step script _ 1 _ _ from .deliver (.deliver rfl)) ?_
    refine .cons (show ScriptedMetronome.Step script _ 1 _ _ from
      .call ⟨rfl, rfl, rfl⟩ (.call rfl rfl)) ?_
    refine .cons (show ScriptedMetronome.Step script _ 1 _ _ from .clear (.clear rfl)) ?_
    refine .cons (show ScriptedMetronome.Step script _ 0 _ _ from .observe ⟨rfl, rfl, rfl⟩) ?_
    exact .nil

end HandlerScript

end LiveScore
