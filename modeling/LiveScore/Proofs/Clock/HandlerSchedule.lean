import LiveScore.Proofs.Clock.HandlerStages

/-!
# One call after the other

The threads of a scripted handler may take turns in such a way that each call goes through before
the next one begins. Playing the script comes to what the handler notes then.
-/

namespace LiveScore

/-- What the handler learns about the metronome, in order. -/
def answers (events : List HandlerEvent) : List Bool :=
  events.filterMap fun
    | .answered _ running => some running
    | _ => none

theorem answers_append (first second : List HandlerEvent) :
    answers (first ++ second) = answers first ++ answers second :=
  List.filterMap_append ..

/-- What was noted before makes no difference to what actions do. -/
theorem HandlerScript.performAll_eq (metronome : Metronome) (record : HandlerRecord)
    (actions : List HandlerAction) :
    performAll metronome record actions =
      ((performAll metronome {} actions).1,
        { record with states := record.states ++ (performAll metronome {} actions).2.states }) := by
  induction actions generalizing metronome record with
  | nil => simp [performAll]
  | cons action rest ih =>
      cases action with
      | observe =>
          have noted := ih metronome { states := [metronome.isRunning] }
          have notedToo :=
            ih metronome { record with states := record.states ++ [metronome.isRunning] }
          simp [performAll, perform, noted, notedToo]
      | _ => exact ih _ record

theorem HandlerScript.performAll_cons (metronome : Metronome) (action : HandlerAction)
    (rest : List HandlerAction) :
    performAll metronome {} (action :: rest) =
      ((performAll (perform metronome {} action).1 {} rest).1,
        { states := (perform metronome {} action).2.states ++
            (performAll (perform metronome {} action).1 {} rest).2.states }) := by
  have unfolded : performAll metronome {} (action :: rest) =
      performAll (perform metronome {} action).1 (perform metronome {} action).2 rest :=
    rfl
  rw [unfolded, performAll_eq]
  cases action <;> rfl

theorem Metronome.canPulse_eq (metronome : Metronome) (run : Nat) :
    metronome.canPulse run = (metronome.isLive run && !metronome.isBroken run) := by
  unfold canPulse isLive isBroken
  cases metronome.runs[run]? <;> rfl

namespace ScriptedMetronome

variable {script : HandlerScript} {state next after : ScriptedMetronome} {run call : Nat}
  {events later : List HandlerEvent} {rest : List HandlerRequest} {actions : List HandlerAction}
  {record : HandlerRecord}

theorem Run.append (first : Run script state events next) (second : Run script next later after) :
    Run script state (events ++ later) after := by
  induction first with
  | nil => exact second
  | cons step _ ih => exact .cons step (ih second)

theorem Run.coherent (continued : Run script state events after)
    (coherent : state.shared.Coherent) : after.shared.Coherent := by
  induction continued with
  | nil => exact coherent
  | cons step _ ih => exact ih (step.coherent coherent)

/-- A run has a call, of which some requests are left. If another run is recorded, its thread has
not yet looked whether it is live. -/
structure Serves (state : ScriptedMetronome) (run call : Nat) (requests : List HandlerRequest) :
    Prop where
  thread : state.thread run = ⟨.handling, none, call, requests⟩
  waits : ∀ other, state.metronome.recorded = some other → other ≠ run →
    (state.thread other).phase = .checking ∧ (state.thread other).stage? = none

/-- No other run is recorded than this one. -/
def Alone (state : ScriptedMetronome) (run : Nat) : Prop :=
  ∀ other, state.metronome.recorded = some other → other = run

theorem Serves.asks {request : HandlerRequest} (serves : state.Serves run call (request :: rest)) :
    state.Asks run request rest where
  handling := congrArg HandlerThread.phase serves.thread
  idle := congrArg HandlerThread.stage? serves.thread
  requests := congrArg (fun thread => thread.duty.requests) serves.thread

theorem Serves.call_eq {request : HandlerRequest}
    (serves : state.Serves run call (request :: rest)) : (state.duty run).call = call :=
  congrArg (fun thread => thread.duty.call) serves.thread

/-- The thread of a run can go on in its call up to some requests, with no other thread in between.
It leaves behind this metronome, and it learns these answers on the way. -/
def CanServe (script : HandlerScript) (state : ScriptedMetronome) (run call : Nat)
    (rest : List HandlerRequest) (metronome : Metronome) (told : List Bool) : Prop :=
  ∃ events next, Run script state events next ∧ next.Serves run call rest ∧
    next.metronome = metronome ∧ next.calls = state.calls ∧ madeCalls events = [] ∧
    answers events = told

theorem Serves.setTempo {bpm : Binary64} (serves : state.Serves run call (.setTempo bpm :: rest)) :
    state.CanServe script run call rest (state.metronome.setTempo bpm) [] := by
  have step : Step script state run _ _ := .setTempo serves.asks (.setTempo bpm)
  refine ⟨_, _, .cons step .nil, ⟨?_, ?_⟩, rfl, rfl, rfl, rfl⟩
  · exact thread_eq serves.asks.handling serves.asks.idle
      (duty_setDuty_self.trans (by rw [serves.call_eq]))
  · intro other recorded differs
    rw [step.thread_of_ne differs nofun]
    exact serves.waits other recorded differs

theorem Serves.observe (serves : state.Serves run call (.observe :: rest)) :
    state.CanServe script run call rest state.metronome [state.metronome.isRunning] := by
  have step : Step script state run _ _ := .observe serves.asks
  refine ⟨_, _, .cons step .nil, ⟨?_, ?_⟩, rfl, rfl, rfl, rfl⟩
  · exact thread_eq serves.asks.handling serves.asks.idle
      (duty_setDuty_self.trans (by rw [serves.call_eq]))
  · intro other recorded differs
    rw [step.thread_of_ne differs nofun]
    exact serves.waits other recorded differs

/-- A stop that need not wait for any thread. -/
theorem Serves.stop (serves : state.Serves run call (.call false :: rest))
    (alone : state.Alone run) :
    state.CanServe script run call rest state.metronome.stop [] := by
  have own : SharedMetronome.stageAfterClear state.metronome.recorded (.handler run) false =
      none := by
    cases recorded : state.metronome.recorded with
    | none => rfl
    | some other => simp [SharedMetronome.stageAfterClear, alone other recorded,
        SharedMetronome.stageAfterStop]
  have called : Step script state run _ _ := .call serves.asks (.call serves.asks.idle
    serves.asks.handling)
  refine ⟨_, _, .cons called (.cons (.clear (.clear SharedMetronome.call?_setCall_self)) .nil),
    ⟨?_, ?_⟩, rfl, rfl, rfl, rfl⟩
  · refine thread_eq serves.asks.handling ?_ (duty_setDuty_self.trans (by rw [serves.call_eq]))
    exact SharedMetronome.call?_setCall_self.trans own
  · intro other recorded
    cases Metronome.recorded_clear.symm.trans recorded

/-- A start while no run is recorded. -/
theorem Serves.start (serves : state.Serves run call (.call true :: rest))
    (coherent : state.shared.Coherent) (empty : state.metronome.recorded = none) :
    state.CanServe script run call rest state.metronome.start [] := by
  have unrecorded : SharedMetronome.stageAfterClear state.metronome.recorded (.handler run) true =
      some .spawning := by
    rw [empty]
    rfl
  have called : Step script state run _ _ := .call serves.asks (.call serves.asks.idle
    serves.asks.handling)
  have old : run ≠ state.metronome.clear.runs.length := by
    rw [Metronome.length_runs_clear]
    exact Nat.ne_of_lt (called.born coherent)
  have idle : state.shared.call? (.handler state.metronome.clear.runs.length) = none := by
    apply coherent.call?_eq_none
    rw [coherent.unborn _ (Nat.le_of_eq Metronome.length_runs_clear.symm)]
    nofun
  refine ⟨_, _, .cons called (.cons (.clear (.clear SharedMetronome.call?_setCall_self))
    (.cons (.spawn (.spawn (SharedMetronome.call?_setCall_self.trans unrecorded))) .nil)),
    ⟨?_, ?_⟩, rfl, rfl, rfl, rfl⟩
  · exact thread_eq ((SharedMetronome.phase_setPhase_of_ne old).trans serves.asks.handling)
      SharedMetronome.call?_setCall_self (duty_setDuty_self.trans (by rw [serves.call_eq]))
  · rintro other ⟨⟩ differs
    have others : Caller.handler state.metronome.clear.runs.length ≠ .handler run := by
      intro same
      exact old (Caller.handler.inj same).symm
    refine ⟨SharedMetronome.phase_setPhase_self, ?_⟩
    refine (SharedMetronome.call?_setCall_of_ne others).trans ?_
    refine (SharedMetronome.call?_setCall_of_ne others).trans ?_
    exact (SharedMetronome.call?_setCall_of_ne others).trans idle

theorem CanServe.trans {first second : List HandlerRequest} {metronome metronome' : Metronome}
    {told told' : List Bool} (earlier : state.CanServe script run call first metronome told)
    (coherent : state.shared.Coherent)
    (later : ∀ next : ScriptedMetronome, next.shared.Coherent → next.Serves run call first →
      next.metronome = metronome → next.CanServe script run call second metronome' told') :
    state.CanServe script run call second metronome' (told ++ told') := by
  rcases earlier with ⟨events, next, continued, serves, metronome_eq, calls_eq, noCall, told_eq⟩
  rcases later next (continued.coherent coherent) serves metronome_eq with
    ⟨events', after, continued', serves', metronome_eq', calls_eq', noCall', told_eq'⟩
  refine ⟨events ++ events', after, continued.append continued', serves', metronome_eq',
    calls_eq'.trans calls_eq, ?_, ?_⟩
  · rw [madeCalls_append, noCall, noCall', List.append_nil]
  · rw [answers_append, told_eq, told_eq']

/-- A stop or a restart need not wait for any thread if no other run is recorded. -/
theorem Serves.perform {action : HandlerAction}
    (serves : state.Serves run call (action.requests ++ rest)) (coherent : state.shared.Coherent)
    (alone : action = .restart ∨ action = .stop → state.Alone run) :
    state.CanServe script run call rest (HandlerScript.perform state.metronome {} action).1
      (HandlerScript.perform state.metronome {} action).2.states := by
  cases action with
  | setTempo bpm => exact serves.setTempo
  | observe => exact serves.observe
  | stop => exact serves.stop (alone (Or.inr rfl))
  | restart =>
      refine (serves.stop (alone (Or.inl rfl))).trans coherent ?_
      intro next coherent' serves' metronome_eq
      have empty : next.metronome.recorded = none := by
        rw [metronome_eq]
        exact Metronome.recorded_clear
      have started : next.CanServe script run call rest next.metronome.start [] :=
        serves'.start coherent' empty
      rwa [metronome_eq] at started

/-- What a call does, one action after the other. At most one restart is on the way, and only if no
stop is. -/
theorem Serves.performAll (serves : state.Serves run call (actions.flatMap HandlerAction.requests))
    (coherent : state.shared.Coherent) (once : actions.count .restart ≤ 1)
    (either : .restart ∈ actions → .stop ∉ actions)
    (alone : state.Alone run ∨ .restart ∉ actions ∧ .stop ∉ actions) :
    state.CanServe script run call [] (HandlerScript.performAll state.metronome {} actions).1
      (HandlerScript.performAll state.metronome {} actions).2.states := by
  induction actions generalizing state with
  | nil => exact ⟨[], state, .nil, serves, rfl, rfl, rfl, rfl⟩
  | cons action rest ih =>
      rw [List.flatMap_cons] at serves
      have able : action = .restart ∨ action = .stop → state.Alone run := by
        rintro acts
        rcases alone with alone | ⟨stays, goesOn⟩
        · exact alone
        · rcases acts with rfl | rfl
          · simp at stays
          · simp at goesOn
      rw [HandlerScript.performAll_cons]
      refine (serves.perform coherent able).trans coherent ?_
      intro next coherent' serves' metronome_eq
      rw [← metronome_eq]
      apply ih serves' coherent'
      · exact List.count_le_count_cons.trans once
      · intro restarts stops
        exact either (List.mem_cons_of_mem _ restarts) (List.mem_cons_of_mem _ stops)
      · by_cases restarts : action = .restart
        · subst action
          refine Or.inr ⟨?_, fun stops => either List.mem_cons_self (List.mem_cons_of_mem _ stops)⟩
          rw [← List.count_eq_zero]
          simpa using once
        · rcases alone with alone | ⟨stays, goesOn⟩
          · refine Or.inl ?_
            intro other recorded
            rw [metronome_eq] at recorded
            cases action with
            | setTempo bpm => exact alone other recorded
            | observe => exact alone other recorded
            | restart => exact absurd rfl restarts
            | stop => cases Metronome.recorded_clear.symm.trans recorded
          · exact Or.inr ⟨fun mem => stays (List.mem_cons_of_mem _ mem),
              fun mem => goesOn (List.mem_cons_of_mem _ mem)⟩

/-- The recorded run, if it delivers a further pulse, has yet to look whether it is live. -/
def Ready (state : ScriptedMetronome) : Prop :=
  ∀ run, state.metronome.recorded = some run → state.metronome.canPulse run = true →
    state.shared.phase run = .checking ∧ state.shared.call? (.handler run) = none

/-- A live run that looks goes on to its call. -/
theorem exists_run_called (script : HandlerScript) (checking : state.shared.phase run = .checking)
    (idle : state.shared.call? (.handler run) = none) (alone : state.Alone run)
    (live : state.metronome.isLive run = true) :
    ∃ next, Run script state [.passed, .called state.calls (state.pulseAt run)] next ∧
      next.Serves run state.calls (script.requestsAt state.calls) ∧
      next.metronome = state.metronome ∧ next.calls = state.calls + 1 := by
  have delivers : (state.shared.setPhase run
      (if state.shared.metronome.isLive run then .delivering else .ended)).phase run =
        .delivering := by
    rw [SharedMetronome.phase_setPhase_self, live]
    rfl
  refine ⟨_, .cons (.check (.check checking)) (.cons (.deliver (.deliver delivers)) .nil),
    ⟨?_, ?_⟩, rfl, rfl⟩
  · exact thread_eq SharedMetronome.phase_setPhase_self idle duty_setDuty_self
  · intro other recorded differs
    exact absurd (alone other recorded) differs

/-- The thread of a run whose call is over goes on with the run. -/
theorem Serves.leave (serves : state.Serves run call []) (script : HandlerScript) :
    ∃ next, Run script state [.passed] next ∧ next.Ready ∧
      next.metronome = state.metronome.advance run ∧ next.calls = state.calls := by
  have handling := congrArg HandlerThread.phase serves.thread
  have idle := congrArg HandlerThread.stage? serves.thread
  have done := congrArg (fun thread => thread.duty.requests) serves.thread
  refine ⟨_, .cons (.leave done (.leave handling idle)) .nil, ?_, rfl, rfl⟩
  intro other recorded able
  rw [Metronome.canPulse_eq, Bool.and_eq_true, Bool.not_eq_true'] at able
  by_cases same : other = run
  · subst other
    refine ⟨SharedMetronome.phase_setPhase_self.trans ?_, idle⟩
    exact if_neg (by simpa using able.2)
  · have waits := serves.waits other recorded same
    exact ⟨(SharedMetronome.phase_setPhase_of_ne same).trans waits.1, waits.2⟩

/-- The threads can take turns so that a call goes through before anything else happens. -/
theorem Ready.handleCall (ready : state.Ready) (coherent : state.shared.Coherent)
    (recorded : state.metronome.recorded = some run) (able : state.metronome.canPulse run = true)
    (once : (script.actionsAt state.calls).count .restart ≤ 1)
    (either : .restart ∈ script.actionsAt state.calls → .stop ∉ script.actionsAt state.calls)
    (record : HandlerRecord) :
    ∃ events next, Run script state events next ∧ next.Ready ∧ next.calls = state.calls + 1 ∧
      script.handleCall state.calls run state.metronome record =
        (next.metronome, { record with
          pulses := record.pulses ++ (madeCalls events).map Prod.snd
          states := record.states ++ answers events }) := by
  rcases ready run recorded able with ⟨checking, idle⟩
  rw [Metronome.canPulse_eq, Bool.and_eq_true] at able
  have alone : state.Alone run := by
    intro other found
    exact Option.some.inj (found.symm.trans recorded)
  rcases exists_run_called script checking idle alone able.1 with
    ⟨begun, called, serves, begun_eq, begun_calls⟩
  have alone' : begun.Alone run := by rwa [Alone, begun_eq]
  rcases serves.performAll (called.coherent coherent) once either (Or.inl alone') with
    ⟨events, done, performed, serves', done_eq, done_calls, noCall, told⟩
  rcases serves'.leave script with ⟨next, left, ready', next_eq, next_calls⟩
  refine ⟨_, next, called.append (performed.append left), ready', ?_, ?_⟩
  · rw [next_calls, done_calls, begun_calls]
  · rw [next_eq, done_eq, begun_eq]
    rw [begun_eq] at told
    simp only [HandlerScript.handleCall, madeCalls_append, answers_append, noCall, told]
    rw [HandlerScript.performAll_eq]
    simp [madeCalls, answers, HandlerEvent.call?, pulseAt, List.filterMap_cons]

/-- From the start of a script that stops the metronome, the calls can be made one after the other
until there are none left. -/
theorem Ready.playFrom {last remaining : Nat} {record : HandlerRecord} (ready : state.Ready)
    (coherent : state.shared.Coherent)
    (inTime : script.InTime state.calls state.metronome record) (stops : script.StopsIn last)
    (calls_le : state.calls ≤ last) (enough : last < state.calls + remaining) :
    ∃ events after, Run script state events after ∧
      (HandlerScript.playFrom script remaining state.calls state.metronome record).2 = {
        pulses := record.pulses ++ (madeCalls events).map Prod.snd
        states := record.states ++ answers events
        ended := true } := by
  induction remaining generalizing state record with
  | zero => omega
  | succ remaining ih =>
      rcases inTime.plays with ⟨index, plays⟩
      have once : (script.actionsAt state.calls).count .restart ≤ 1 := by
        rcases Nat.lt_or_eq_of_le calls_le with earlier | same
        · exact stops.once _ earlier
        · rw [same, List.count_eq_zero.mpr stops.ends]
          exact Nat.zero_le 1
      have either : .restart ∈ script.actionsAt state.calls →
          .stop ∉ script.actionsAt state.calls := by
        intro restarts
        rcases Nat.lt_or_eq_of_le calls_le with earlier | same
        · exact stops.goesOn _ earlier
        · rw [same] at restarts
          exact absurd restarts stops.ends
      rcases ready.handleCall coherent plays.recorded plays.canPulse once either record with
        ⟨events, next, called, ready', calls_eq, handled⟩
      simp only [HandlerScript.playFrom, plays.recorded, plays.canPulse, if_true, handled]
      rcases Nat.lt_or_eq_of_le calls_le with earlier | rfl
      · have inTime' := inTime.call plays stops earlier
        rw [handled, ← calls_eq] at inTime'
        rcases ih ready' (called.coherent coherent) inTime' (by omega) (by omega) with
          ⟨later, after, played, noted⟩
        refine ⟨events ++ later, after, called.append played, ?_⟩
        rw [← calls_eq, noted]
        simp [madeCalls_append, answers_append]
      · have ended := inTime.lastCall plays stops
        rw [handled] at ended
        have stopped : next.metronome.recorded = none := ended.stopped
        refine ⟨events, next, called, ?_⟩
        cases remaining with
        | zero => simp [HandlerScript.playFrom, Metronome.isRunning, stopped]
        | succ remaining => simp [HandlerScript.playFrom, stopped]

theorem ready_started (metronome : Metronome) : (started metronome).Ready := by
  intro run recorded _
  refine ⟨?_, rfl⟩
  cases (Metronome.plays_start metronome).recorded.symm.trans recorded
  exact SharedMetronome.phase_setPhase_self

/-- Playing a script comes to what the handler notes if the calls are made one after the other. -/
theorem exists_run_play {metronome : Metronome} {last : Nat} (playable : metronome.Playable)
    (stops : script.StopsIn last) :
    ∃ events after, Run script (started metronome) events after ∧
      (script.play metronome).2 = {
        pulses := (madeCalls events).map Prod.snd
        states := answers events
        ended := true } := by
  have inTime : script.InTime 0 metronome.start {} := .start playable
  rcases (ready_started metronome).playFrom (coherent_started metronome) inTime stops
    (Nat.zero_le last) (stops.lt_callCount.trans_eq (Nat.zero_add _).symm) with
    ⟨events, after, played, noted⟩
  exact ⟨events, after, played, noted⟩

end ScriptedMetronome

end LiveScore
