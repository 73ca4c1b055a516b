import LiveScore.Proofs.Clock.SelfControl

/-!
# A scripted handler on the threads of its runs

Each run calls the handler on a thread of its own, and a restart makes such a thread, which calls at
once. So what a call does behind its restart goes on while the new run makes the next calls. As with
any caller of a metronome, what is not interrupted is a section of a request.

A step of a scripted metronome is a step of the thread of one run. It changes what this thread is
about to do, and what the metronome is, but not what any other thread is about to do.
-/

namespace LiveScore

/-- What a handler asks of the metronome that calls it. -/
inductive HandlerRequest where
  | setTempo (bpm : Binary64)
  | observe
  /-- A stop, or a start. -/
  | call (starts : Bool)
deriving DecidableEq

/-- A restart is a stop and then a start. -/
def HandlerAction.requests : HandlerAction → List HandlerRequest
  | .setTempo bpm => [.setTempo bpm]
  | .observe => [.observe]
  | .restart => [.call false, .call true]
  | .stop => [.call false]

/-- All that a script asks for in one call. -/
def HandlerScript.requestsAt (script : HandlerScript) (call : Nat) : List HandlerRequest :=
  (script.actionsAt call).flatMap HandlerAction.requests

/-- The call that a run has made last, and what is left of it. -/
structure HandlerDuty where
  call : Nat := 0
  requests : List HandlerRequest := []

/-- What a section of a thread does as far as the handler is concerned. -/
inductive HandlerEvent where
  /-- The handler gets a call, at a pulse. -/
  | called (call pulse : Nat)
  /-- The handler learns in a call whether the metronome runs. -/
  | answered (call : Nat) (running : Bool)
  /-- A stop or a start in a call takes the recorded run, if there is one, and ends it. -/
  | cleared (call : Nat)
  /-- A start in a call makes and records a new run. -/
  | spawned (call : Nat)
  | passed
deriving DecidableEq

/-- A metronome with a scripted handler. The calls are numbered as they are made. -/
structure ScriptedMetronome where
  shared : SharedMetronome
  calls : Nat := 0
  duty : Nat → HandlerDuty := fun _ => {}

/-- What the thread of a run is about to do. -/
structure HandlerThread where
  phase : RunPhase
  stage? : Option CallStage := none
  duty : HandlerDuty := {}

namespace ScriptedMetronome

/-- A metronome that was just started, with no thread of an earlier run left. -/
def started (metronome : Metronome) : ScriptedMetronome where
  shared := ({ metronome := metronome.start, call? := fun _ => none, phase := fun _ => .ended } :
    SharedMetronome).setPhase metronome.runs.length .checking

/-- The metronome itself. -/
abbrev metronome (state : ScriptedMetronome) : Metronome := state.shared.metronome

/-- The thread of a run. -/
def thread (state : ScriptedMetronome) (run : Nat) : HandlerThread where
  phase := state.shared.phase run
  stage? := state.shared.call? (.handler run)
  duty := state.duty run

/-- The pulse that a run comes to next. -/
def pulseAt (state : ScriptedMetronome) (run : Nat) : Nat :=
  (state.metronome.runs[run]?.map MetronomeRun.pulse).getD 0

/-- The thread of a run goes on with its call, or to another one. -/
def setDuty (state : ScriptedMetronome) (run : Nat) (duty : HandlerDuty) : ScriptedMetronome :=
  { state with duty := Function.update state.duty run duty }

/-- The handler of a run is about to ask for something. -/
structure Asks (state : ScriptedMetronome) (run : Nat) (request : HandlerRequest)
    (rest : List HandlerRequest) : Prop where
  handling : state.shared.phase run = .handling
  idle : state.shared.call? (.handler run) = none
  requests : (state.duty run).requests = request :: rest

/-- One section of the thread of a run. -/
inductive Step (script : HandlerScript) (state : ScriptedMetronome) (run : Nat) :
    HandlerEvent → ScriptedMetronome → Prop
  | check {next : SharedMetronome} (step : state.shared.Step (.check run) next) :
    Step script state run .passed { state with shared := next }
  | deliver {next : SharedMetronome} (step : state.shared.Step (.deliver run) next) :
    Step script state run (.called state.calls (state.pulseAt run))
      ({ state with shared := next, calls := state.calls + 1 }.setDuty run
        ⟨state.calls, script.requestsAt state.calls⟩)
  | setTempo {bpm : Binary64} {rest : List HandlerRequest} {next : SharedMetronome}
    (asks : state.Asks run (.setTempo bpm) rest) (step : state.shared.Step (.setTempo bpm) next) :
    Step script state run .passed
      ({ state with shared := next }.setDuty run ⟨(state.duty run).call, rest⟩)
  | observe {rest : List HandlerRequest} (asks : state.Asks run .observe rest) :
    Step script state run (.answered (state.duty run).call state.metronome.isRunning)
      (state.setDuty run ⟨(state.duty run).call, rest⟩)
  | call {starts : Bool} {rest : List HandlerRequest} {next : SharedMetronome}
    (asks : state.Asks run (.call starts) rest)
    (step : state.shared.Step (.call (.handler run) starts) next) :
    Step script state run .passed
      ({ state with shared := next }.setDuty run ⟨(state.duty run).call, rest⟩)
  | clear {next : SharedMetronome} (step : state.shared.Step (.clear (.handler run)) next) :
    Step script state run (.cleared (state.duty run).call) { state with shared := next }
  | join {next : SharedMetronome} (step : state.shared.Step (.join (.handler run)) next) :
    Step script state run .passed { state with shared := next }
  | spawn {next : SharedMetronome} (step : state.shared.Step (.spawn (.handler run)) next) :
    Step script state run (.spawned (state.duty run).call) { state with shared := next }
  | leave {next : SharedMetronome} (done : (state.duty run).requests = [])
    (step : state.shared.Step (.leave run true) next) :
    Step script state run .passed { state with shared := next }

/-- Sections of the threads of any runs in any order. -/
inductive Run (script : HandlerScript) :
    ScriptedMetronome → List HandlerEvent → ScriptedMetronome → Prop
  | nil {state : ScriptedMetronome} : Run script state [] state
  | cons {state next after : ScriptedMetronome} {run : Nat} {event : HandlerEvent}
    {events : List HandlerEvent} (step : Step script state run event next)
    (later : Run script next events after) : Run script state (event :: events) after

variable {script : HandlerScript} {state next after : ScriptedMetronome} {run : Nat}
  {event : HandlerEvent} {events : List HandlerEvent}

/-- A section of a scripted metronome is one of the metronome, or leaves the metronome alone. -/
theorem Step.exists_run (step : Step script state run event next) :
    ∃ actions, state.shared.Run actions next.shared := by
  cases step with
  | observe asks => exact ⟨[], .nil⟩
  | check step => exact ⟨[_], .cons step .nil⟩
  | deliver step => exact ⟨[_], .cons step .nil⟩
  | setTempo asks step => exact ⟨[_], .cons step .nil⟩
  | call asks step => exact ⟨[_], .cons step .nil⟩
  | clear step => exact ⟨[_], .cons step .nil⟩
  | join step => exact ⟨[_], .cons step .nil⟩
  | spawn step => exact ⟨[_], .cons step .nil⟩
  | leave done step => exact ⟨[_], .cons step .nil⟩

theorem coherent_started (metronome : Metronome) : (started metronome).shared.Coherent where
  recorded_live := by
    rintro run ⟨⟩
    exact Metronome.isLive_spawn.mpr (Or.inr rfl)
  unborn := by
    intro run beyond
    have differs : run ≠ metronome.runs.length := by
      rintro rfl
      simp [started, Metronome.start, Metronome.stop] at beyond
    exact SharedMetronome.phase_setPhase_of_ne differs
  calling := nofun
  awaited := by
    intro run delivering
    by_cases same : run = metronome.runs.length
    · subst same
      cases SharedMetronome.phase_setPhase_self.symm.trans delivering
    · cases (SharedMetronome.phase_setPhase_of_ne same).symm.trans delivering

theorem Step.coherent (step : Step script state run event next)
    (coherent : state.shared.Coherent) : next.shared.Coherent := by
  rcases step.exists_run with ⟨actions, continued⟩
  exact coherent.run continued

end ScriptedMetronome

namespace HandlerThread

/-- What a thread, the thread of `run`, does to itself and to the metronome. -/
inductive Move (script : HandlerScript) (metronome : Metronome) (calls run : Nat) :
    HandlerThread → HandlerEvent → HandlerThread → Metronome → Nat → Prop
  | check {stage? : Option CallStage} {duty : HandlerDuty} :
    Move script metronome calls run ⟨.checking, stage?, duty⟩ .passed
      ⟨if metronome.isLive run then .delivering else .ended, stage?, duty⟩ metronome calls
  | deliver {stage? : Option CallStage} {duty : HandlerDuty} :
    Move script metronome calls run ⟨.delivering, stage?, duty⟩
      (.called calls ((metronome.runs[run]?.map MetronomeRun.pulse).getD 0))
      ⟨.handling, stage?, calls, script.requestsAt calls⟩ metronome (calls + 1)
  | setTempo {call : Nat} {bpm : Binary64} {rest : List HandlerRequest} :
    Move script metronome calls run ⟨.handling, none, call, .setTempo bpm :: rest⟩ .passed
      ⟨.handling, none, call, rest⟩ (metronome.setTempo bpm) calls
  | observe {call : Nat} {rest : List HandlerRequest} :
    Move script metronome calls run ⟨.handling, none, call, .observe :: rest⟩
      (.answered call metronome.isRunning) ⟨.handling, none, call, rest⟩ metronome calls
  | call {call : Nat} {starts : Bool} {rest : List HandlerRequest} :
    Move script metronome calls run ⟨.handling, none, call, .call starts :: rest⟩ .passed
      ⟨.handling, some (.clearing starts), call, rest⟩ metronome calls
  | clear {phase : RunPhase} {starts : Bool} {duty : HandlerDuty} :
    Move script metronome calls run ⟨phase, some (.clearing starts), duty⟩ (.cleared duty.call)
      ⟨phase, SharedMetronome.stageAfterClear metronome.recorded (.handler run) starts, duty⟩
      metronome.clear calls
  | join {phase : RunPhase} {other : Nat} {starts : Bool} {duty : HandlerDuty} :
    Move script metronome calls run ⟨phase, some (.joining other starts), duty⟩ .passed
      ⟨phase, SharedMetronome.stageAfterStop starts, duty⟩ metronome calls
  | spawn {phase : RunPhase} {duty : HandlerDuty} :
    Move script metronome calls run ⟨phase, some .spawning, duty⟩ (.spawned duty.call)
      ⟨phase, none, duty⟩ metronome.spawn calls
  | leave {call : Nat} : Move script metronome calls run ⟨.handling, none, call, []⟩ .passed
      ⟨if (metronome.leave run true).isBroken run then .ended else .checking, none, call, []⟩
      (metronome.leave run true) calls

variable {script : HandlerScript} {metronome metronome' : Metronome} {calls calls' run other : Nat}
  {thread thread' : HandlerThread} {event : HandlerEvent}

theorem Move.isLive_eq_false (move : Move script metronome calls run thread event thread'
    metronome' calls') (old : ∀ call, event = .spawned call → other ≠ metronome.runs.length)
    (dead : metronome.isLive other = false) : metronome'.isLive other = false := by
  cases move with
  | clear =>
      rw [Bool.eq_false_iff] at dead ⊢
      exact fun live => dead (Metronome.isLive_clear.mp live).1
  | spawn =>
      rw [Bool.eq_false_iff] at dead ⊢
      intro live
      rcases Metronome.isLive_spawn.mp live with live | same
      · exact dead live
      · exact old _ rfl same
  | leave => rwa [Metronome.isLive_leave]
  | _ => exact dead

end HandlerThread

namespace ScriptedMetronome

variable {script : HandlerScript} {state next after : ScriptedMetronome} {run other : Nat}
  {event : HandlerEvent} {events : List HandlerEvent}

theorem thread_eq {phase : RunPhase} {stage? : Option CallStage} {duty : HandlerDuty}
    (phase_eq : state.shared.phase run = phase)
    (stage_eq : state.shared.call? (.handler run) = stage?) (duty_eq : state.duty run = duty) :
    state.thread run = ⟨phase, stage?, duty⟩ := by
  subst phase_eq stage_eq duty_eq
  rfl

theorem Asks.thread_eq {request : HandlerRequest} {rest : List HandlerRequest}
    (asks : state.Asks run request rest) :
    state.thread run = ⟨.handling, none, (state.duty run).call, request :: rest⟩ :=
  ScriptedMetronome.thread_eq asks.handling asks.idle (congrArg (HandlerDuty.mk _) asks.requests)

theorem duty_setDuty_self {duty : HandlerDuty} : (state.setDuty run duty).duty run = duty :=
  Function.update_self ..

theorem duty_setDuty_of_ne {duty : HandlerDuty} (differs : other ≠ run) :
    (state.setDuty run duty).duty other = state.duty other :=
  Function.update_of_ne differs ..

/-- Only the thread of a run that was made takes steps. -/
theorem Step.born (step : Step script state run event next) (coherent : state.shared.Coherent) :
    run < state.metronome.runs.length := by
  apply coherent.born
  intro ended
  cases step with
  | check step =>
      cases step with
      | check phase => cases ended.symm.trans phase
  | deliver step =>
      cases step with
      | deliver phase => cases ended.symm.trans phase
  | setTempo asks step => cases ended.symm.trans asks.handling
  | observe asks => cases ended.symm.trans asks.handling
  | call asks step => cases ended.symm.trans asks.handling
  | clear step =>
      cases step with
      | clear stage => cases ended.symm.trans (coherent.calling run _ stage)
  | join step =>
      cases step with
      | join stage _ => cases ended.symm.trans (coherent.calling run _ stage)
  | spawn step =>
      cases step with
      | spawn stage => cases ended.symm.trans (coherent.calling run _ stage)
  | leave done step =>
      cases step with
      | leave phase idle => cases ended.symm.trans phase

/-- What the thread of a run moves from and to. -/
theorem Step.exists_move (step : Step script state run event next)
    (coherent : state.shared.Coherent) :
    ∃ thread thread', state.thread run = thread ∧ next.thread run = thread' ∧
      HandlerThread.Move script state.metronome state.calls run thread event thread'
        next.metronome next.calls := by
  have differs := Nat.ne_of_lt (step.born coherent)
  cases step with
  | check step =>
      cases step with
      | check phase =>
          exact ⟨_, _, thread_eq phase rfl rfl,
            thread_eq SharedMetronome.phase_setPhase_self rfl rfl, .check⟩
  | deliver step =>
      cases step with
      | deliver phase =>
          exact ⟨_, _, thread_eq phase rfl rfl,
            thread_eq SharedMetronome.phase_setPhase_self rfl duty_setDuty_self, .deliver⟩
  | setTempo asks step =>
      cases step with
      | setTempo bpm =>
          exact ⟨_, _, asks.thread_eq, thread_eq asks.handling asks.idle duty_setDuty_self,
            .setTempo⟩
  | observe asks =>
      exact ⟨_, _, asks.thread_eq, thread_eq asks.handling asks.idle duty_setDuty_self, .observe⟩
  | call asks step =>
      cases step with
      | call idle able =>
          exact ⟨_, _, asks.thread_eq, thread_eq asks.handling
            SharedMetronome.call?_setCall_self duty_setDuty_self, .call⟩
  | clear step =>
      cases step with
      | clear stage =>
          exact ⟨_, _, thread_eq rfl stage rfl,
            thread_eq rfl SharedMetronome.call?_setCall_self rfl, .clear⟩
  | join step =>
      cases step with
      | join stage ended =>
          exact ⟨_, _, thread_eq rfl stage rfl,
            thread_eq rfl SharedMetronome.call?_setCall_self rfl, .join⟩
  | spawn step =>
      cases step with
      | spawn stage =>
          exact ⟨_, _, thread_eq rfl stage rfl,
            thread_eq (SharedMetronome.phase_setPhase_of_ne differs)
              SharedMetronome.call?_setCall_self rfl, .spawn⟩
  | leave done step =>
      cases step with
      | leave phase idle =>
          exact ⟨_, _, thread_eq phase idle (congrArg (HandlerDuty.mk _) done),
            thread_eq SharedMetronome.phase_setPhase_self idle (congrArg (HandlerDuty.mk _) done),
            .leave⟩

/-- A step is a move of the thread of its run. -/
theorem Step.move (step : Step script state run event next) (coherent : state.shared.Coherent) :
    HandlerThread.Move script state.metronome state.calls run (state.thread run) event
      (next.thread run) next.metronome next.calls := by
  rcases step.exists_move coherent with ⟨_, _, rfl, rfl, move⟩
  exact move

theorem Step.thread_of_ne (step : Step script state run event next) (differs : other ≠ run)
    (old : ∀ call, event = .spawned call → other ≠ state.metronome.runs.length) :
    next.thread other = state.thread other := by
  have others : Caller.handler other ≠ .handler run := by simpa using differs
  cases step with
  | check step =>
      cases step with
      | check phase => exact thread_eq (SharedMetronome.phase_setPhase_of_ne differs) rfl rfl
  | deliver step =>
      cases step with
      | deliver phase =>
          exact thread_eq (SharedMetronome.phase_setPhase_of_ne differs) rfl
            (duty_setDuty_of_ne differs)
  | setTempo asks step =>
      cases step with
      | setTempo bpm => exact thread_eq rfl rfl (duty_setDuty_of_ne differs)
  | observe asks => exact thread_eq rfl rfl (duty_setDuty_of_ne differs)
  | call asks step =>
      cases step with
      | call idle able =>
          exact thread_eq rfl (SharedMetronome.call?_setCall_of_ne others)
            (duty_setDuty_of_ne differs)
  | clear step =>
      cases step with
      | clear stage => exact thread_eq rfl (SharedMetronome.call?_setCall_of_ne others) rfl
  | join step =>
      cases step with
      | join stage ended => exact thread_eq rfl (SharedMetronome.call?_setCall_of_ne others) rfl
  | spawn step =>
      cases step with
      | spawn stage =>
          exact thread_eq (SharedMetronome.phase_setPhase_of_ne (old _ rfl))
            (SharedMetronome.call?_setCall_of_ne others) rfl
  | leave done step =>
      cases step with
      | leave phase idle => exact thread_eq (SharedMetronome.phase_setPhase_of_ne differs) rfl rfl

/-- The thread of a new run is about to look whether the run is live. -/
theorem Step.thread_spawned {call : Nat} (step : Step script state run (.spawned call) next)
    (differs : state.metronome.runs.length ≠ run) :
    next.thread state.metronome.runs.length = ⟨.checking,
      (state.thread state.metronome.runs.length).stage?,
      (state.thread state.metronome.runs.length).duty⟩ := by
  cases step with
  | spawn step =>
      cases step with
      | spawn stage =>
          have others : Caller.handler state.metronome.runs.length ≠ .handler run := by
            simpa using differs
          exact thread_eq SharedMetronome.phase_setPhase_self
            (SharedMetronome.call?_setCall_of_ne others) rfl

end ScriptedMetronome

namespace Metronome

variable {metronome : Metronome} {newest pulse other : Nat} {up : Bool} {bpm : Binary64}

@[simp]
theorem tempo_leave (survived : Bool) :
    (metronome.leave other survived).tempo = metronome.tempo := by
  unfold leave
  split <;> rfl

/-- The run made last is at a pulse, and it is the recorded one unless it has been ended. -/
structure Leads (metronome : Metronome) (newest pulse : Nat) (up : Bool) : Prop where
  length : metronome.runs.length = newest + 1
  recorded : metronome.recorded = if up then some newest else none
  run : metronome.runs[newest]? = some { live := up, pulse }

namespace Leads

theorem isLive (leads : metronome.Leads newest pulse up) : metronome.isLive newest = up := by
  simp [Metronome.isLive, leads.run]

theorem isRunning (leads : metronome.Leads newest pulse up) : metronome.isRunning = up := by
  cases up with
  | false => simp [Metronome.isRunning, leads.recorded]
  | true => simp [Metronome.isRunning, leads.recorded, leads.run]

/-- Nobody waits for the own thread, so a stop or a start from the newest run goes on at once. -/
theorem stageAfterClear (leads : metronome.Leads newest pulse up) (starts : Bool) :
    SharedMetronome.stageAfterClear metronome.recorded (.handler newest) starts =
      SharedMetronome.stageAfterStop starts := by
  cases up <;> simp [leads.recorded, SharedMetronome.stageAfterClear]

theorem start (metronome : Metronome) : metronome.start.Leads metronome.runs.length 0 true := by
  have plays := plays_start metronome
  exact ⟨by simp [Metronome.start, stop], plays.recorded, plays.run⟩

theorem setTempo (leads : metronome.Leads newest pulse up) :
    (metronome.setTempo bpm).Leads newest pulse up :=
  ⟨leads.length, leads.recorded, leads.run⟩

theorem clear (leads : metronome.Leads newest pulse up) :
    metronome.clear.Leads newest pulse false := by
  refine ⟨by rw [length_runs_clear, leads.length], recorded_clear, ?_⟩
  cases up with
  | false => simp [Metronome.clear, leads.recorded, leads.run]
  | true => simp [Metronome.clear, leads.recorded, leads.run, modifyRun]

theorem spawn (leads : metronome.Leads newest pulse up) :
    metronome.spawn.Leads (newest + 1) 0 true := by
  constructor
  · simp [leads.length]
  · simp [Metronome.spawn, leads.length]
  · simp [Metronome.spawn, ← leads.length]

theorem leave (leads : metronome.Leads newest pulse up) (playable : metronome.Playable) :
    (metronome.leave newest true).Leads newest ((pulse + 1) % pulsesPerMeasure) up := by
  have hasInterval := playable.hasInterval
  rw [← Option.not_isNone, Bool.not_eq_true'] at hasInterval
  constructor
  · rw [length_runs_leave, leads.length]
  · rw [recorded_leave, leads.recorded]
  · simp [Metronome.leave, advance, modifyRun, leads.run, hasInterval]

theorem leave_of_ne (leads : metronome.Leads newest pulse up) (differs : other ≠ newest) :
    (metronome.leave other true).Leads newest pulse up := by
  constructor
  · rw [length_runs_leave, leads.length]
  · rw [recorded_leave, leads.recorded]
  · simp [Metronome.leave, advance, modifyRun, leads.run, differs]

end Leads

theorem isBroken_leave (leads : metronome.Leads newest pulse up) (playable : metronome.Playable) :
    (metronome.leave newest true).isBroken newest = false := by
  simp [isBroken, (leads.leave playable).run]

end Metronome

end LiveScore
