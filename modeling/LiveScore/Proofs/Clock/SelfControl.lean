import LiveScore.Proofs.Clock.Callers
import LiveScore.Proofs.Clock.Interval
import Mathlib.Data.List.Fold
import Mathlib.Data.List.MinMax

/-!
# A handler in control of its own metronome

A handler may tell the metronome that calls it a tempo, ask whether it runs, restart it and stop it.
A restart abandons the run that makes the call and puts a new one in its place: while a call lasts,
either no restart has happened and the recorded run is the one that calls, or the recorded run is a
new one, which waits at the first pulse. Hence the calls are numbered through, and their pulses
start over behind each call that restarts.

Here a call goes through before the next one begins, as in playing a script.
-/

namespace LiveScore

namespace Metronome

variable {metronome other : Metronome} {index pulse : Nat} {bpm : Binary64}

theorem Playable.congr (playable : metronome.Playable) (tempo_eq : other.tempo = metronome.tempo) :
    other.Playable := by
  constructor
  · rw [tempo_eq]
    exact playable.tempo
  · rw [pulseInterval?, tempo_eq]
    exact playable.interval

theorem Playable.setTempo (number : bpm ≠ .nan) : (metronome.setTempo bpm).Playable :=
  (playable_iff_of_told rfl).mpr number

theorem Playable.hasInterval (playable : metronome.Playable) :
    metronome.pulseInterval?.isSome := by
  rcases playable.interval with ⟨interval, found, _⟩
  simp [found]

@[simp]
theorem tempo_clear (metronome : Metronome) : metronome.clear.tempo = metronome.tempo := by
  unfold clear
  split <;> rfl

@[simp]
theorem tempo_start (metronome : Metronome) : metronome.start.tempo = metronome.tempo :=
  tempo_clear metronome

theorem plays_start (metronome : Metronome) : metronome.start.Plays metronome.runs.length 0 := by
  constructor
  · simp [start, stop, spawn]
  · simp [start, stop, spawn]

theorem Plays.lt_length (plays : metronome.Plays index pulse) : index < metronome.runs.length :=
  (List.getElem?_eq_some_iff.mp plays.run).1

theorem Plays.isRunning (plays : metronome.Plays index pulse) : metronome.isRunning = true := by
  simp [Metronome.isRunning, plays.recorded, plays.run]

/-- The run `index` has a call at this pulse. Until the call restarts the metronome it is the run
that plays; from then on the run that plays is another one, at the first pulse. -/
structure Attends (metronome : Metronome) (index pulse : Nat) (restarted : Bool) : Prop where
  playable : metronome.Playable
  born : index < metronome.runs.length
  plays : if restarted then ∃ next, next ≠ index ∧ metronome.Plays next 0
    else metronome.Plays index pulse

namespace Attends

variable {restarted : Bool}

theorem isRunning (attends : metronome.Attends index pulse restarted) :
    metronome.isRunning = true := by
  have plays := attends.plays
  cases restarted with
  | false => exact Plays.isRunning plays
  | true =>
      rcases plays with ⟨next, _, plays⟩
      exact plays.isRunning

theorem setTempo (attends : metronome.Attends index pulse restarted) (number : bpm ≠ .nan) :
    (metronome.setTempo bpm).Attends index pulse restarted where
  playable := .setTempo number
  born := attends.born
  plays := by
    have plays := attends.plays
    cases restarted with
    | false => exact ⟨plays.recorded, plays.run⟩
    | true =>
        rcases plays with ⟨next, differs, plays⟩
        exact ⟨next, differs, plays.recorded, plays.run⟩

theorem restart (attends : metronome.Attends index pulse restarted) :
    metronome.stop.start.Attends index pulse true where
  playable := attends.playable.congr (by simp [stop])
  born := by
    have born := attends.born
    simp [start, stop]
    omega
  plays := by
    refine ⟨metronome.stop.runs.length, ?_, plays_start _⟩
    simpa [stop] using Nat.ne_of_gt attends.born

/-- When the call is over, the run that makes the next one has gone on to the next pulse, or is
still at its first. -/
theorem advance (attends : metronome.Attends index pulse restarted) :
    ∃ next, (metronome.advance index).Plays next
      (if restarted then 0 else (pulse + 1) % pulsesPerMeasure) := by
  have plays := attends.plays
  cases restarted with
  | false => exact ⟨index, Plays.advance plays attends.playable.hasInterval⟩
  | true =>
      rcases plays with ⟨next, differs, plays⟩
      refine ⟨next, plays.recorded, ?_⟩
      simp [Metronome.advance, modifyRun, plays.run, differs.symm]

end Attends

end Metronome

namespace HandlerScript

variable {script : HandlerScript} {metronome : Metronome} {record : HandlerRecord}
  {actions : List HandlerAction} {index pulse calls last : Nat} {restarted : Bool}

/-- The call in which the run began that makes a call: the one behind the last restart before it. -/
def firstCall (script : HandlerScript) (call : Nat) : Nat :=
  let restarting := (List.range call).filter fun earlier => .restart ∈ script.actionsAt earlier
  (restarting.getLast?.map (· + 1)).getD 0

/-- The pulse that belongs to a call. -/
def pulseOf (script : HandlerScript) (call : Nat) : Nat :=
  (call - script.firstCall call) % pulsesPerMeasure

/-- What is done before the first stop in the call `last`. -/
def actionsBefore (script : HandlerScript) (last : Nat) : List HandlerAction :=
  (List.range last).flatMap script.actionsAt ++ (script.actionsAt last).takeWhile (· ≠ .stop)

/-- What the call `last` does from its first stop on. -/
def actionsBehind (script : HandlerScript) (last : Nat) : List HandlerAction :=
  (script.actionsAt last).dropWhile (· ≠ .stop)

/-- The handler stops the metronome in the call `last`, where it does not restart it, and in no call
before, where it may restart it once. Every tempo that it tells is a number. -/
structure StopsIn (script : HandlerScript) (last : Nat) : Prop where
  numbers : ∀ call ≤ last, .setTempo .nan ∉ script.actionsAt call
  goesOn : ∀ call < last, .stop ∉ script.actionsAt call
  once : ∀ call < last, (script.actionsAt call).count .restart ≤ 1
  stops : .stop ∈ script.actionsAt last
  ends : .restart ∉ script.actionsAt last

theorem firstCall_succ (script : HandlerScript) (call : Nat) :
    script.firstCall (call + 1) =
      if .restart ∈ script.actionsAt call then call + 1 else script.firstCall call := by
  by_cases restarts : .restart ∈ script.actionsAt call
  · simp [firstCall, List.range_succ, restarts]
  · simp [firstCall, List.range_succ, restarts]

theorem firstCall_le (script : HandlerScript) (call : Nat) : script.firstCall call ≤ call := by
  induction call with
  | zero => simp [firstCall]
  | succ call ih =>
      rw [firstCall_succ]
      split <;> omega

theorem pulseOf_succ (script : HandlerScript) (call : Nat) :
    script.pulseOf (call + 1) = if .restart ∈ script.actionsAt call then 0
      else (script.pulseOf call + 1) % pulsesPerMeasure := by
  have begun := script.firstCall_le call
  simp only [pulseOf, firstCall_succ]
  split
  · simp
  · rw [Nat.mod_add_mod, Nat.sub_add_comm begun]

theorem performAll_append (metronome : Metronome) (record : HandlerRecord)
    (first second : List HandlerAction) :
    performAll metronome record (first ++ second) =
      performAll (performAll metronome record first).1 (performAll metronome record first).2
        second := by
  induction first generalizing metronome record with
  | nil => rfl
  | cons action rest ih => exact ih _ _

/-- What a call does without a stop. Each answer is that the metronome runs. -/
theorem performAll_of_goesOn (record : HandlerRecord)
    (attends : metronome.Attends index pulse restarted)
    (numbers : .setTempo .nan ∉ actions) (goesOn : .stop ∉ actions) :
    (performAll metronome record actions).1.Attends index pulse
        (restarted || decide (.restart ∈ actions)) ∧
      (performAll metronome record actions).2 =
        { record with
          states := record.states ++ List.replicate (actions.count .observe) true } := by
  induction actions generalizing metronome record restarted with
  | nil => simpa [performAll] using attends
  | cons action rest ih =>
      simp only [List.mem_cons, not_or] at numbers goesOn
      cases action with
      | setTempo bpm =>
          have number : bpm ≠ .nan := by
            rintro rfl
            exact numbers.1 rfl
          have performed := ih record (attends.setTempo number) numbers.2 goesOn.2
          simpa [performAll, perform] using performed
      | observe =>
          have performed := ih { record with states := record.states ++ [true] }
            attends numbers.2 goesOn.2
          simpa [performAll, perform, attends.isRunning, List.replicate_succ] using performed
      | restart =>
          have performed := ih record attends.restart numbers.2 goesOn.2
          simpa [performAll, perform] using performed
      | stop => simp at goesOn

/-- What a call does behind its stop without a restart. Each answer is that the metronome is
stopped. -/
theorem performAll_of_stopped (record : HandlerRecord) (stopped : metronome.recorded = none)
    (ends : .restart ∉ actions) :
    (performAll metronome record actions).1.recorded = none ∧
      (performAll metronome record actions).2 =
        { record with
          states := record.states ++ List.replicate (actions.count .observe) false } := by
  induction actions generalizing metronome record with
  | nil => simpa [performAll] using stopped
  | cons action rest ih =>
      simp only [List.mem_cons, not_or] at ends
      cases action with
      | setTempo bpm =>
          have told : (metronome.setTempo bpm).recorded = none := stopped
          have performed := ih record told ends.2
          simpa [performAll, perform] using performed
      | observe =>
          have performed := ih { record with states := record.states ++ [false] }
            stopped ends.2
          simpa [performAll, perform, Metronome.isRunning, stopped, List.replicate_succ]
            using performed
      | restart => simp at ends
      | stop =>
          have cleared : metronome.stop.recorded = none := Metronome.recorded_clear
          have performed := ih record cleared ends.2
          simpa [performAll, perform] using performed

/-- What holds before the stop: the recorded run has come to the pulse of the next call, and all
that was noted is in order. -/
structure InTime (script : HandlerScript) (calls : Nat) (metronome : Metronome)
    (record : HandlerRecord) : Prop where
  playable : metronome.Playable
  plays : ∃ index, metronome.Plays index (script.pulseOf calls)
  record_eq : record = {
    pulses := (List.range calls).map script.pulseOf
    states := List.replicate (((List.range calls).flatMap script.actionsAt).count .observe) true }

/-- What holds from the stop on. -/
structure Ended (script : HandlerScript) (last : Nat) (metronome : Metronome)
    (record : HandlerRecord) : Prop where
  stopped : metronome.recorded = none
  record_eq : record = {
    pulses := (List.range (last + 1)).map script.pulseOf
    states := List.replicate ((script.actionsBefore last).count .observe) true ++
      List.replicate ((script.actionsBehind last).count .observe) false }

theorem StopsIn.exists_split (stops : script.StopsIn last) : ∃ before behind,
    script.actionsAt last = before ++ .stop :: behind ∧ .stop ∉ before ∧
      script.actionsBefore last = (List.range last).flatMap script.actionsAt ++ before ∧
      script.actionsBehind last = .stop :: behind := by
  rcases List.eq_append_cons_of_mem stops.stops with ⟨before, behind, actions_eq, noStop⟩
  have passes : ∀ action ∈ before, decide (action ≠ .stop) = true := by
    intro action action_mem
    simpa using ne_of_mem_of_not_mem action_mem noStop
  refine ⟨before, behind, actions_eq, noStop, ?_, ?_⟩
  · rw [actionsBefore, actions_eq, List.takeWhile_append_of_pos passes]
    simp
  · rw [actionsBehind, actions_eq, List.dropWhile_append_of_pos passes]
    simp

theorem StopsIn.lt_callCount (stops : script.StopsIn last) : last < script.callCount := by
  rcases List.mem_map.mp stops.stops with ⟨entry, entry_mem, _⟩
  rcases List.mem_filter.mp entry_mem with ⟨entry_mem, call_eq⟩
  have count_mem : last + 1 ∈ script.map fun entry => entry.1 + 1 :=
    List.mem_map.mpr ⟨entry, entry_mem, by simpa using call_eq⟩
  rw [callCount, List.foldl_eq_foldr]
  exact List.le_max_of_le count_mem le_rfl

namespace InTime

theorem start (playable : metronome.Playable) : script.InTime 0 metronome.start {} where
  playable := playable.congr (by simp)
  plays := ⟨_, Metronome.plays_start metronome⟩
  record_eq := rfl

theorem handleCall_eq (inTime : script.InTime calls metronome record)
    (plays : metronome.Plays index (script.pulseOf calls)) :
    script.handleCall calls index metronome record =
      let handled := performAll metronome
        { record with pulses := (List.range (calls + 1)).map script.pulseOf }
        (script.actionsAt calls)
      (handled.1.advance index, handled.2) := by
  simp [handleCall, plays.run, inTime.record_eq, List.range_succ]

theorem attends (inTime : script.InTime calls metronome record)
    (plays : metronome.Plays index (script.pulseOf calls)) :
    metronome.Attends index (script.pulseOf calls) false where
  playable := inTime.playable
  born := plays.lt_length
  plays := plays

/-- A call before the last one. -/
theorem call (inTime : script.InTime calls metronome record)
    (plays : metronome.Plays index (script.pulseOf calls)) (stops : script.StopsIn last)
    (earlier : calls < last) :
    script.InTime (calls + 1) (script.handleCall calls index metronome record).1
      (script.handleCall calls index metronome record).2 := by
  rcases performAll_of_goesOn
    { record with pulses := (List.range (calls + 1)).map script.pulseOf }
    (inTime.attends plays) (stops.numbers calls earlier.le) (stops.goesOn calls earlier)
    with ⟨attends, noted⟩
  rw [inTime.handleCall_eq plays]
  constructor
  · exact attends.playable.congr rfl
  · rw [pulseOf_succ]
    simpa using attends.advance
  · refine noted.trans ?_
    simp [inTime.record_eq, List.range_succ]

/-- The last call. What it does before its stop goes as in any other call. -/
theorem lastCall (inTime : script.InTime last metronome record)
    (plays : metronome.Plays index (script.pulseOf last)) (stops : script.StopsIn last) :
    script.Ended last (script.handleCall last index metronome record).1
      (script.handleCall last index metronome record).2 := by
  rcases stops.exists_split with ⟨before, behind, actions_eq, noStop, before_eq, behind_eq⟩
  have numbers := stops.numbers last le_rfl
  have ends := stops.ends
  simp only [actions_eq, List.mem_append, List.mem_cons, not_or] at numbers ends
  rcases performAll_of_goesOn
    { record with pulses := (List.range (last + 1)).map script.pulseOf }
    (inTime.attends plays) numbers.1 noStop with ⟨_, noted⟩
  have cleared : (performAll metronome
      { record with pulses := (List.range (last + 1)).map script.pulseOf } before).1.stop.recorded =
      none :=
    Metronome.recorded_clear
  rcases performAll_of_stopped (performAll metronome
      { record with pulses := (List.range (last + 1)).map script.pulseOf } before).2
    cleared ends.2.2 with ⟨stopped, notedBehind⟩
  rw [inTime.handleCall_eq plays, actions_eq, performAll_append]
  refine ⟨stopped, notedBehind.trans ?_⟩
  rw [noted]
  simp [inTime.record_eq, before_eq, behind_eq]

/-- If enough calls are left for the stop, playing goes on up to it and ends there. The induction is
on the calls that are left. -/
theorem playFrom_eq (inTime : script.InTime calls metronome record)
    (stops : script.StopsIn last) (calls_le : calls ≤ last) (remaining : Nat)
    (enough : last < calls + remaining) :
    (playFrom script remaining calls metronome record).2 = {
      pulses := (List.range (last + 1)).map script.pulseOf
      states := List.replicate ((script.actionsBefore last).count .observe) true ++
        List.replicate ((script.actionsBehind last).count .observe) false
      ended := true } := by
  induction remaining generalizing calls metronome record with
  | zero => omega
  | succ remaining ih =>
      rcases inTime.plays with ⟨index, plays⟩
      simp only [playFrom, plays.recorded, plays.canPulse, if_true]
      rcases Nat.lt_or_eq_of_le calls_le with earlier | rfl
      · exact ih (inTime.call plays stops earlier) earlier (by omega)
      · have ended := inTime.lastCall plays stops
        cases remaining with
        | zero => simp [playFrom, ended.record_eq, Metronome.isRunning, ended.stopped]
        | succ remaining => simp [playFrom, ended.record_eq, ended.stopped]

end InTime

/-- If each call goes through before the next one begins, all answers before the stop are that the
metronome runs. -/
theorem play_eq (playable : metronome.Playable) (stops : script.StopsIn last) :
    (script.play metronome).2 = {
      pulses := (List.range (last + 1)).map script.pulseOf
      states := List.replicate ((script.actionsBefore last).count .observe) true ++
        List.replicate ((script.actionsBehind last).count .observe) false
      ended := true } := by
  refine (InTime.start playable).playFrom_eq stops (Nat.zero_le last) script.callCount ?_
  simpa using stops.lt_callCount

end HandlerScript

end LiveScore
