import LiveScore.Proofs.Clock.HandlerThreads

/-!
# The stages of a scripted handler

At any time one run is the newest one. Every other run of the script is abandoned: it is not live,
and all that its thread may still do is the rest of the call in which it restarted the metronome,
where it tells tempos and asks for the state, but neither stops nor starts. So only the newest run
calls the handler. Its thread goes through the stages of one call after the other, and each
restart hands over to the thread of a new run.

The metronome is found stopped exactly from the stop of the script on and in between the two
requests of a restart. A call that asks for the state is not in between its own two requests, so the
restart is the one of a later call, and the call that asks is overlapped by it.
-/

namespace LiveScore

/-- What a call of a script comes to. -/
inductive CallKind where
  | passes
  | restarts
  | stops

/-- These requests neither stop nor start the metronome, and all tempos are numbers. -/
structure Harmless (requests : List HandlerRequest) : Prop where
  numbers : .setTempo .nan ∉ requests
  noCall : ∀ starts, .call starts ∉ requests

/-- These requests do not start the metronome, and all tempos are numbers. -/
structure Closing (requests : List HandlerRequest) : Prop where
  numbers : .setTempo .nan ∉ requests
  noStart : .call true ∉ requests

theorem Closing.tail {request : HandlerRequest} {rest : List HandlerRequest}
    (closing : Closing (request :: rest)) : Closing rest :=
  ⟨fun told => closing.numbers (List.mem_cons_of_mem _ told),
    fun started => closing.noStart (List.mem_cons_of_mem _ started)⟩

theorem Harmless.tail {request : HandlerRequest} {rest : List HandlerRequest}
    (harmless : Harmless (request :: rest)) : Harmless rest :=
  ⟨fun told => harmless.numbers (List.mem_cons_of_mem _ told),
    fun starts called => harmless.noCall starts (List.mem_cons_of_mem _ called)⟩

/-- What is left of a call that has neither stopped nor restarted the metronome so far. -/
inductive Planned : CallKind → List HandlerRequest → Prop
  | done : Planned .passes []
  | setTempo {kind : CallKind} {bpm : Binary64} {rest : List HandlerRequest} (number : bpm ≠ .nan)
    (later : Planned kind rest) : Planned kind (.setTempo bpm :: rest)
  | observe {kind : CallKind} {rest : List HandlerRequest} (later : Planned kind rest) :
    Planned kind (.observe :: rest)
  | restart {rest : List HandlerRequest} (harmless : Harmless rest) :
    Planned .restarts (.call false :: .call true :: rest)
  | stop {rest : List HandlerRequest} (closing : Closing rest) :
    Planned .stops (.call false :: rest)

namespace HandlerScript

variable {script : HandlerScript} {actions : List HandlerAction} {call last : Nat}

/-- What a call comes to, if the call `last` is the one that stops the metronome. -/
def kindAt (script : HandlerScript) (last call : Nat) : CallKind :=
  if call = last then .stops
  else if .restart ∈ script.actionsAt call then .restarts
  else .passes

theorem mem_requests_of_setTempo {bpm : Binary64}
    (told : .setTempo bpm ∈ actions.flatMap HandlerAction.requests) : .setTempo bpm ∈ actions := by
  rcases List.mem_flatMap.mp told with ⟨action, action_mem, request_mem⟩
  cases action with
  | setTempo other =>
      simp only [HandlerAction.requests, List.mem_singleton] at request_mem
      cases request_mem
      exact action_mem
  | _ => simp [HandlerAction.requests] at request_mem

theorem closing_requests (numbers : .setTempo .nan ∉ actions) (ends : .restart ∉ actions) :
    Closing (actions.flatMap HandlerAction.requests) := by
  refine ⟨fun told => numbers (mem_requests_of_setTempo told), ?_⟩
  intro started
  rcases List.mem_flatMap.mp started with ⟨action, action_mem, request_mem⟩
  cases action with
  | restart => exact ends action_mem
  | _ => simp [HandlerAction.requests] at request_mem

theorem harmless_requests (numbers : .setTempo .nan ∉ actions) (goesOn : .stop ∉ actions)
    (stays : .restart ∉ actions) : Harmless (actions.flatMap HandlerAction.requests) := by
  refine ⟨fun told => numbers (mem_requests_of_setTempo told), ?_⟩
  intro starts called
  rcases List.mem_flatMap.mp called with ⟨action, action_mem, request_mem⟩
  cases action with
  | restart => exact stays action_mem
  | stop => exact goesOn action_mem
  | _ => simp [HandlerAction.requests] at request_mem

theorem planned_stops (numbers : .setTempo .nan ∉ actions) (stops : .stop ∈ actions)
    (ends : .restart ∉ actions) : Planned .stops (actions.flatMap HandlerAction.requests) := by
  induction actions with
  | nil => cases stops
  | cons action rest ih =>
      simp only [List.mem_cons, not_or] at numbers ends
      cases action with
      | setTempo bpm =>
          have number : bpm ≠ .nan := by
            rintro rfl
            exact numbers.1 rfl
          exact .setTempo number (ih numbers.2 (by simpa using stops) ends.2)
      | observe => exact .observe (ih numbers.2 (by simpa using stops) ends.2)
      | restart => exact absurd rfl ends.1
      | stop => exact .stop (closing_requests numbers.2 ends.2)

theorem planned_of_goesOn (numbers : .setTempo .nan ∉ actions) (goesOn : .stop ∉ actions)
    (once : actions.count .restart ≤ 1) :
    Planned (if .restart ∈ actions then .restarts else .passes)
      (actions.flatMap HandlerAction.requests) := by
  induction actions with
  | nil => exact .done
  | cons action rest ih =>
      simp only [List.mem_cons, not_or] at numbers goesOn
      cases action with
      | setTempo bpm =>
          have number : bpm ≠ .nan := by
            rintro rfl
            exact numbers.1 rfl
          simpa [HandlerAction.requests] using
            Planned.setTempo number (ih numbers.2 goesOn.2 (by simpa using once))
      | observe =>
          simpa [HandlerAction.requests] using
            Planned.observe (ih numbers.2 goesOn.2 (by simpa using once))
      | restart =>
          have stays : .restart ∉ rest := by
            rw [← List.count_eq_zero]
            simpa using once
          simpa [HandlerAction.requests] using
            Planned.restart (harmless_requests numbers.2 goesOn.2 stays)
      | stop => exact absurd rfl goesOn.1

theorem StopsIn.planned (stops : script.StopsIn last) (call_le : call ≤ last) :
    Planned (script.kindAt last call) (script.requestsAt call) := by
  unfold kindAt
  split
  · subst call
    exact planned_stops (stops.numbers last call_le) stops.stops stops.ends
  · have earlier : call < last := by omega
    exact planned_of_goesOn (stops.numbers call call_le) (stops.goesOn call earlier)
      (stops.once call earlier)

theorem lt_and_mem_of_kindAt_restarts (call_le : call ≤ last)
    (kind : script.kindAt last call = .restarts) :
    call < last ∧ .restart ∈ script.actionsAt call := by
  unfold kindAt at kind
  split at kind
  · cases kind
  · split at kind
    · exact ⟨by omega, ‹_›⟩
    · cases kind

theorem lt_and_not_mem_of_kindAt_passes (call_le : call ≤ last)
    (kind : script.kindAt last call = .passes) :
    call < last ∧ .restart ∉ script.actionsAt call := by
  unfold kindAt at kind
  split at kind
  · cases kind
  · split at kind
    · cases kind
    · exact ⟨by omega, ‹_›⟩

theorem eq_of_kindAt_stops (kind : script.kindAt last call = .stops) : call = last := by
  unfold kindAt at kind
  split at kind
  · assumption
  · split at kind <;> cases kind

end HandlerScript

/-- Whichever calls have taken the recorded run are below a bound, and have made a new run since. -/
def Settled (events : List HandlerEvent) (bound : Nat) : Prop :=
  ∀ call, .cleared call ∈ events → call < bound ∧ .spawned call ∈ events

/-- A call has stopped the metronome in order to start it again, which it has not done yet. -/
structure HalfDone (events : List HandlerEvent) (call : Nat) : Prop where
  cleared : .cleared call ∈ events
  pending : .spawned call ∉ events
  earlier : ∀ other, .cleared other ∈ events → other ≠ call →
    other < call ∧ .spawned other ∈ events

/-- The call that is made, with its pulse. -/
def HandlerEvent.call? : HandlerEvent → Option (Nat × Nat)
  | .called call pulse => some (call, pulse)
  | _ => none

/-- All calls that are made, in order, with their pulses. -/
def madeCalls (events : List HandlerEvent) : List (Nat × Nat) :=
  events.filterMap HandlerEvent.call?

theorem madeCalls_append (first second : List HandlerEvent) :
    madeCalls (first ++ second) = madeCalls first ++ madeCalls second :=
  List.filterMap_append ..

/-- Neither takes a run nor makes one. -/
def HandlerEvent.Neutral (event : HandlerEvent) : Prop :=
  ∀ call, event ≠ .cleared call ∧ event ≠ .spawned call

@[simp]
theorem HandlerEvent.neutral_called (call pulse : Nat) : (called call pulse).Neutral :=
  fun _ => ⟨nofun, nofun⟩

@[simp]
theorem HandlerEvent.neutral_answered (call : Nat) (running : Bool) :
    (answered call running).Neutral :=
  fun _ => ⟨nofun, nofun⟩

@[simp]
theorem HandlerEvent.neutral_passed : passed.Neutral :=
  fun _ => ⟨nofun, nofun⟩

section Events

variable {events : List HandlerEvent} {event : HandlerEvent} {bound call : Nat}

theorem HandlerEvent.Neutral.mem_cleared (neutral : event.Neutral) :
    .cleared call ∈ events ++ [event] ↔ .cleared call ∈ events := by
  simp [(neutral call).1.symm]

theorem HandlerEvent.Neutral.mem_spawned (neutral : event.Neutral) :
    .spawned call ∈ events ++ [event] ↔ .spawned call ∈ events := by
  simp [(neutral call).2.symm]

theorem Settled.append (settled : Settled events bound) (neutral : event.Neutral) :
    Settled (events ++ [event]) bound := by
  intro call
  rw [neutral.mem_cleared, neutral.mem_spawned]
  exact settled call

theorem HalfDone.append (half : HalfDone events call) (neutral : event.Neutral) :
    HalfDone (events ++ [event]) call := by
  refine ⟨neutral.mem_cleared.mpr half.cleared, mt neutral.mem_spawned.mp half.pending, ?_⟩
  intro other
  rw [neutral.mem_cleared, neutral.mem_spawned]
  exact half.earlier other

theorem Settled.mono {above : Nat} (settled : Settled events bound) (bound_le : bound ≤ above) :
    Settled events above := by
  intro call cleared
  rcases settled call cleared with ⟨call_lt, spawned⟩
  exact ⟨call_lt.trans_le bound_le, spawned⟩

/-- A restart begins. -/
theorem Settled.clear (settled : Settled events call) (fresh : .spawned call ∉ events) :
    HalfDone (events ++ [.cleared call]) call := by
  refine ⟨by simp, by simpa using fresh, ?_⟩
  intro other cleared differs
  simp only [List.mem_append, List.mem_singleton, HandlerEvent.cleared.injEq, differs, or_false,
    reduceCtorEq] at cleared ⊢
  exact settled other cleared

theorem HalfDone.clear (half : HalfDone events call) :
    HalfDone (events ++ [.cleared call]) call := by
  refine ⟨by simp, by simpa using half.pending, ?_⟩
  intro other cleared differs
  simp only [List.mem_append, List.mem_singleton, HandlerEvent.cleared.injEq, differs, or_false,
    reduceCtorEq] at cleared ⊢
  exact half.earlier other cleared differs

/-- A restart is over. -/
theorem HalfDone.spawn (half : HalfDone events call) :
    Settled (events ++ [.spawned call]) (call + 1) := by
  intro other cleared
  simp only [List.mem_append, List.mem_singleton, reduceCtorEq, or_false] at cleared
  by_cases same : other = call
  · subst same
    exact ⟨Nat.lt_succ_self other, by simp⟩
  · rcases half.earlier other cleared same with ⟨other_lt, spawned⟩
    exact ⟨by omega, List.mem_append_left _ spawned⟩

end Events

/-- The restart of a call, and what is left to do behind it. -/
structure Restarting (script : HandlerScript) (last call : Nat) (rest : List HandlerRequest) :
    Prop where
  lt : call < last
  restarts : .restart ∈ script.actionsAt call
  harmless : Harmless rest

/-- How far the newest run has come, and whether it is live. -/
inductive Stage (script : HandlerScript) (last : Nat) (events : List HandlerEvent) :
    (calls pulse : Nat) → (up : Bool) → HandlerThread → Prop
  | waiting {calls : Nat} {phase : RunPhase} {duty : HandlerDuty} (calls_le : calls ≤ last)
    (outside : phase = .checking ∨ phase = .delivering) (settled : Settled events calls) :
    Stage script last events calls (script.pulseOf calls) true ⟨phase, none, duty⟩
  /-- In a call, with no stop or start so far. -/
  | handling {call : Nat} {kind : CallKind} {requests : List HandlerRequest}
    (call_le : call ≤ last) (kind_eq : script.kindAt last call = kind)
    (planned : Planned kind requests) (settled : Settled events call) :
    Stage script last events (call + 1) (script.pulseOf call) true ⟨.handling, none, call, requests⟩
  | stopping {call pulse : Nat} {rest : List HandlerRequest}
    (restarting : Restarting script last call rest) (settled : Settled events call) :
    Stage script last events (call + 1) pulse true
      ⟨.handling, some (.clearing false), call, .call true :: rest⟩
  | stopped {call pulse : Nat} {rest : List HandlerRequest}
    (restarting : Restarting script last call rest) (half : HalfDone events call) :
    Stage script last events (call + 1) pulse false ⟨.handling, none, call, .call true :: rest⟩
  | starting {call pulse : Nat} {rest : List HandlerRequest}
    (restarting : Restarting script last call rest) (half : HalfDone events call) :
    Stage script last events (call + 1) pulse false
      ⟨.handling, some (.clearing true), call, rest⟩
  | spawning {call pulse : Nat} {rest : List HandlerRequest}
    (restarting : Restarting script last call rest) (half : HalfDone events call) :
    Stage script last events (call + 1) pulse false ⟨.handling, some .spawning, call, rest⟩
  /-- In the last call, about to stop for good. -/
  | closing {pulse : Nat} {rest : List HandlerRequest} (closing : Closing rest)
    (settled : Settled events last) :
    Stage script last events (last + 1) pulse true
      ⟨.handling, some (.clearing false), last, rest⟩
  | closed {pulse : Nat} {stage? : Option CallStage} {rest : List HandlerRequest}
    (stage : stage? = none ∨ stage? = some (.clearing false)) (closing : Closing rest)
    (cleared : .cleared last ∈ events) :
    Stage script last events (last + 1) pulse false ⟨.handling, stage?, last, rest⟩
  | left {pulse : Nat} {phase : RunPhase} {duty : HandlerDuty}
    (outside : phase = .checking ∨ phase = .ended) (cleared : .cleared last ∈ events) :
    Stage script last events (last + 1) pulse false ⟨phase, none, duty⟩

namespace Stage

variable {script : HandlerScript} {last calls pulse : Nat} {up : Bool}
  {events : List HandlerEvent} {event : HandlerEvent} {thread : HandlerThread}

theorem append (stage : Stage script last events calls pulse up thread)
    (neutral : event.Neutral) : Stage script last (events ++ [event]) calls pulse up thread := by
  cases stage with
  | waiting calls_le outside settled => exact .waiting calls_le outside (settled.append neutral)
  | handling call_le kind_eq planned settled =>
      exact .handling call_le kind_eq planned (settled.append neutral)
  | stopping restarting settled => exact .stopping restarting (settled.append neutral)
  | stopped restarting half => exact .stopped restarting (half.append neutral)
  | starting restarting half => exact .starting restarting (half.append neutral)
  | spawning restarting half => exact .spawning restarting (half.append neutral)
  | closing closing settled => exact .closing closing (settled.append neutral)
  | closed stage closing cleared => exact .closed stage closing (List.mem_append_left _ cleared)
  | left outside cleared => exact .left outside (List.mem_append_left _ cleared)

/-- As long as the newest run is live, nothing has stopped the metronome for good or for a
moment. -/
theorem settled (stage : Stage script last events calls pulse true thread) :
    Settled events last := by
  cases stage with
  | waiting calls_le outside settled => exact settled.mono calls_le
  | handling call_le kind_eq planned settled => exact settled.mono call_le
  | stopping restarting settled => exact settled.mono restarting.lt.le
  | closing closing settled => exact settled

/-- No more calls are made than up to the stop. -/
theorem calls_le (stage : Stage script last events calls pulse up thread) : calls ≤ last + 1 := by
  cases stage with
  | waiting calls_le => exact calls_le.trans (Nat.le_succ last)
  | handling call_le => exact Nat.succ_le_succ call_le
  | stopping restarting => exact Nat.succ_le_succ restarting.lt.le
  | stopped restarting => exact Nat.succ_le_succ restarting.lt.le
  | starting restarting => exact Nat.succ_le_succ restarting.lt.le
  | spawning restarting => exact Nat.succ_le_succ restarting.lt.le
  | _ => exact le_rfl

theorem cleared_or_halfDone (stage : Stage script last events calls pulse false thread) :
    .cleared last ∈ events ∨ ∃ call, calls = call + 1 ∧ HalfDone events call := by
  cases stage with
  | stopped restarting half => exact Or.inr ⟨_, rfl, half⟩
  | starting restarting half => exact Or.inr ⟨_, rfl, half⟩
  | spawning restarting half => exact Or.inr ⟨_, rfl, half⟩
  | closed stage closing cleared => exact Or.inl cleared
  | left outside cleared => exact Or.inl cleared

/-- A call does not ask for the state in between its own stop and its own start. -/
theorem cleared_of_observe {call : Nat} {rest : List HandlerRequest}
    (stage : Stage script last events calls pulse false ⟨.handling, none, call, .observe :: rest⟩) :
    .cleared last ∈ events := by
  cases stage with
  | closed stage closing cleared => exact cleared
  | left outside cleared => exact cleared

end Stage

/-- The metronome and the thread of its newest run are at the same stage. -/
def OnStage (script : HandlerScript) (last : Nat) (events : List HandlerEvent)
    (metronome : Metronome) (newest calls : Nat) (thread : HandlerThread) : Prop :=
  metronome.Playable ∧ ∃ pulse up, metronome.Leads newest pulse up ∧
    Stage script last events calls pulse up thread

namespace HandlerThread

variable {script : HandlerScript} {last newest calls calls' call pulse : Nat}
  {events : List HandlerEvent} {event : HandlerEvent} {metronome metronome' : Metronome}
  {thread' : HandlerThread} {kind : CallKind} {requests rest : List HandlerRequest}

/-- A call that has neither stopped nor restarted the metronome goes on, begins to do so, or is
over. -/
theorem Move.handling (move : Move script metronome calls newest
      ⟨.handling, none, call, requests⟩ event thread' metronome' calls')
    (playable : metronome.Playable) (leads : metronome.Leads newest (script.pulseOf call) true)
    (calls_eq : calls = call + 1) (call_le : call ≤ last)
    (kind_eq : script.kindAt last call = kind) (planned : Planned kind requests)
    (settled : Settled events call) :
    OnStage script last (events ++ [event]) metronome' newest calls' thread' := by
  subst calls_eq
  cases move with
  | setTempo =>
      cases planned with
      | setTempo number later =>
          refine ⟨.setTempo number, _, true, leads.setTempo, ?_⟩
          exact .handling call_le kind_eq later (settled.append (by simp))
  | observe =>
      cases planned with
      | observe later =>
          refine ⟨playable, _, true, leads, ?_⟩
          exact .handling call_le kind_eq later (settled.append (by simp))
  | call =>
      refine ⟨playable, _, true, leads, ?_⟩
      cases planned with
      | restart harmless =>
          rcases HandlerScript.lt_and_mem_of_kindAt_restarts call_le kind_eq with
            ⟨call_lt, restarts⟩
          exact .stopping ⟨call_lt, restarts, harmless⟩ (settled.append (by simp))
      | stop closing =>
          cases HandlerScript.eq_of_kindAt_stops kind_eq
          exact .closing closing (settled.append (by simp))
  | leave =>
      refine ⟨playable.congr (by simp), _, true, leads.leave playable, ?_⟩
      rw [Metronome.isBroken_leave leads playable]
      cases planned with
      | done =>
          rcases HandlerScript.lt_and_not_mem_of_kindAt_passes call_le kind_eq with
            ⟨call_lt, stays⟩
          have pulse_eq := script.pulseOf_succ call
          rw [if_neg stays] at pulse_eq
          rw [← pulse_eq]
          have settled' := settled.mono (Nat.le_succ call)
          exact .waiting call_lt (Or.inl rfl) (settled'.append (by simp))

/-- In the last call, the metronome stays stopped. -/
theorem Move.closed {stage? : Option CallStage} (move : Move script metronome calls newest
      ⟨.handling, stage?, last, rest⟩ event thread' metronome' calls')
    (playable : metronome.Playable) (leads : metronome.Leads newest pulse false)
    (calls_eq : calls = last + 1) (stage : stage? = none ∨ stage? = some (.clearing false))
    (closing : Closing rest) (cleared : .cleared last ∈ events) :
    OnStage script last (events ++ [event]) metronome' newest calls' thread' := by
  subst calls_eq
  have cleared' : .cleared last ∈ events ++ [event] := List.mem_append_left _ cleared
  rcases stage with rfl | rfl
  · cases move with
    | @setTempo _ bpm rest =>
        have number : bpm ≠ .nan := by
          rintro rfl
          exact closing.numbers List.mem_cons_self
        exact ⟨.setTempo number, _, false, leads.setTempo,
          .closed (Or.inl rfl) closing.tail cleared'⟩
    | observe => exact ⟨playable, _, false, leads, .closed (Or.inl rfl) closing.tail cleared'⟩
    | @call _ starts rest =>
        refine ⟨playable, _, false, leads, .closed (Or.inr ?_) closing.tail cleared'⟩
        cases starts with
        | false => rfl
        | true => exact absurd List.mem_cons_self closing.noStart
    | leave =>
        refine ⟨playable.congr (by simp), _, false, leads.leave playable, ?_⟩
        rw [Metronome.isBroken_leave leads playable]
        exact .left (Or.inl rfl) cleared'
  · cases move with
    | clear =>
        refine ⟨playable.congr (by simp), _, false, leads.clear, ?_⟩
        rw [leads.stageAfterClear]
        exact .closed (Or.inl rfl) closing cleared'

/-- The newest run goes on from stage to stage, unless it hands over to a newer one. -/
theorem Move.onStage {thread : HandlerThread} {up : Bool}
    (move : Move script metronome calls newest thread event thread' metronome' calls')
    (stage : Stage script last events calls pulse up thread) (stops : script.StopsIn last)
    (playable : metronome.Playable) (leads : metronome.Leads newest pulse up)
    (fresh : ∀ call, .spawned call ∈ events → .cleared call ∈ events)
    (remains : ∀ call, event ≠ .spawned call) :
    OnStage script last (events ++ [event]) metronome' newest calls' thread' := by
  cases stage with
  | waiting calls_le outside settled =>
      rcases outside with rfl | rfl
      · cases move with
        | check =>
            refine ⟨playable, _, true, leads, ?_⟩
            rw [leads.isLive]
            exact .waiting calls_le (Or.inr rfl) (settled.append (by simp))
      · cases move with
        | deliver =>
            refine ⟨playable, _, true, leads, ?_⟩
            exact .handling calls_le rfl (stops.planned calls_le) (settled.append (by simp))
  | handling call_le kind_eq planned settled =>
      exact move.handling playable leads rfl call_le kind_eq planned settled
  | @stopping call pulse rest restarting settled =>
      cases move with
      | clear =>
          refine ⟨playable.congr (by simp), _, false, leads.clear, ?_⟩
          have unspawned : .spawned call ∉ events := by
            intro spawned
            exact absurd (settled call (fresh call spawned)).1 (lt_irrefl call)
          rw [leads.stageAfterClear]
          exact .stopped restarting (settled.clear unspawned)
  | stopped restarting half =>
      cases move with
      | call => exact ⟨playable, _, false, leads, .starting restarting (half.append (by simp))⟩
  | starting restarting half =>
      cases move with
      | clear =>
          refine ⟨playable.congr (by simp), _, false, leads.clear, ?_⟩
          rw [leads.stageAfterClear]
          exact .spawning restarting half.clear
  | spawning restarting half =>
      cases move with
      | spawn => exact absurd rfl (remains _)
  | closing closing settled =>
      cases move with
      | clear =>
          refine ⟨playable.congr (by simp), _, false, leads.clear, ?_⟩
          rw [leads.stageAfterClear]
          exact .closed (Or.inl rfl) closing (by simp)
  | closed stage closing cleared =>
      exact move.closed playable leads rfl stage closing cleared
  | left outside cleared =>
      rcases outside with rfl | rfl
      · cases move with
        | check =>
            refine ⟨playable, _, false, leads, ?_⟩
            rw [leads.isLive]
            exact .left (Or.inr rfl) (List.mem_append_left _ cleared)
      · cases move

/-- Only the restart of a call makes a run. -/
theorem Move.spawned {thread : HandlerThread} {up : Bool}
    (move : Move script metronome calls newest thread (.spawned call) thread' metronome' calls')
    (stage : Stage script last events calls pulse up thread) :
    up = false ∧ calls = call + 1 ∧ calls' = calls ∧ metronome' = metronome.spawn ∧
      HalfDone events call ∧ ∃ rest, Restarting script last call rest ∧
        thread' = ⟨.handling, none, call, rest⟩ := by
  cases move with
  | spawn =>
      cases stage with
      | spawning restarting half => exact ⟨rfl, rfl, rfl, rfl, half, _, restarting, rfl⟩
      | closed stage => simp at stage

/-- The calls stay in order, and so do their pulses. -/
theorem Move.madeCalls_eq {thread : HandlerThread} {up : Bool}
    (move : Move script metronome calls newest thread event thread' metronome' calls')
    (stage : Stage script last events calls pulse up thread)
    (leads : metronome.Leads newest pulse up)
    (inOrder : madeCalls events = (List.range calls).map fun call => (call, script.pulseOf call)) :
    madeCalls (events ++ [event]) =
      (List.range calls').map fun call => (call, script.pulseOf call) := by
  rw [madeCalls_append, inOrder]
  cases move with
  | deliver =>
      cases stage with
      | waiting calls_le outside settled =>
          simp [madeCalls, HandlerEvent.call?, leads.run, List.range_succ]
      | left outside cleared => simp at outside
  | _ => simp [madeCalls, HandlerEvent.call?]

end HandlerThread

/-- What is left of a run that the script has abandoned, or of one before the script: it is not
live, and its thread does at most the rest of a call that has restarted the metronome. -/
structure Abandoned (events : List HandlerEvent) (metronome : Metronome) (run : Nat)
    (thread : HandlerThread) : Prop where
  dead : thread.phase ≠ .ended → metronome.isLive run = false
  idle : thread.stage? = none
  silent : thread.phase ≠ .delivering
  behind : thread.phase = .handling →
    Harmless thread.duty.requests ∧ .spawned thread.duty.call ∈ events

namespace Abandoned

variable {script : HandlerScript} {last newest run calls calls' pulse : Nat} {up : Bool}
  {events : List HandlerEvent} {event : HandlerEvent} {metronome metronome' : Metronome}
  {thread thread' : HandlerThread}

/-- What the threads of other runs do makes no difference. -/
theorem step (abandoned : Abandoned events metronome run thread) (event : HandlerEvent)
    (dead : metronome.isLive run = false → metronome'.isLive run = false) :
    Abandoned (events ++ [event]) metronome' run thread where
  dead alive := dead (abandoned.dead alive)
  idle := abandoned.idle
  silent := abandoned.silent
  behind handling := by
    rcases abandoned.behind handling with ⟨harmless, spawned⟩
    exact ⟨harmless, List.mem_append_left _ spawned⟩

/-- An abandoned run remains one, and it does not disturb the newest run. -/
theorem move (abandoned : Abandoned events metronome run thread)
    (move : HandlerThread.Move script metronome calls run thread event thread' metronome' calls')
    (older : run ≠ newest) (playable : metronome.Playable)
    (leads : metronome.Leads newest pulse up) :
    Abandoned (events ++ [event]) metronome' run thread' ∧ event.Neutral ∧
      madeCalls [event] = [] ∧ calls' = calls ∧ metronome'.Playable ∧
      metronome'.Leads newest pulse up := by
  cases move with
  | check =>
      have dead : metronome.isLive run = false := abandoned.dead nofun
      rw [dead]
      refine ⟨⟨fun _ => dead, abandoned.idle, nofun, nofun⟩, by simp, rfl, rfl, playable, leads⟩
  | deliver => exact absurd rfl abandoned.silent
  | @setTempo call bpm rest =>
      rcases abandoned.behind rfl with ⟨harmless, spawned⟩
      have number : bpm ≠ .nan := by
        rintro rfl
        exact harmless.numbers List.mem_cons_self
      refine ⟨⟨fun _ => abandoned.dead nofun, rfl, nofun, ?_⟩, by simp, rfl, rfl,
        .setTempo number, leads.setTempo⟩
      exact fun _ => ⟨harmless.tail, List.mem_append_left _ spawned⟩
  | observe =>
      rcases abandoned.behind rfl with ⟨harmless, spawned⟩
      refine ⟨⟨fun _ => abandoned.dead nofun, rfl, nofun, ?_⟩, by simp, rfl, rfl, playable, leads⟩
      exact fun _ => ⟨harmless.tail, List.mem_append_left _ spawned⟩
  | call => exact absurd List.mem_cons_self ((abandoned.behind rfl).1.noCall _)
  | clear => cases abandoned.idle
  | join => cases abandoned.idle
  | spawn => cases abandoned.idle
  | leave =>
      have dead : metronome.isLive run = false := abandoned.dead nofun
      refine ⟨⟨?_, rfl, ?_, ?_⟩, by simp, rfl, rfl, playable.congr (by simp),
        leads.leave_of_ne older⟩
      · rw [Metronome.isLive_leave]
        exact fun _ => dead
      · split <;> nofun
      · split <;> nofun

end Abandoned

namespace ScriptedMetronome

/-- What holds of a script that stops the metronome in the call `last`, whatever the threads have
done so far. -/
structure OnTrack (script : HandlerScript) (last : Nat) (events : List HandlerEvent)
    (state : ScriptedMetronome) : Prop where
  coherent : state.shared.Coherent
  madeCalls_eq : madeCalls events =
    (List.range state.calls).map fun call => (call, script.pulseOf call)
  cleared_of_spawned : ∀ call, .spawned call ∈ events → .cleared call ∈ events
  newest : ∃ newest,
    OnStage script last events state.metronome newest state.calls (state.thread newest) ∧
      ∀ other, other ≠ newest → Abandoned events state.metronome other (state.thread other)

variable {script : HandlerScript} {last run newest pulse : Nat} {up : Bool}
  {events later : List HandlerEvent} {event : HandlerEvent} {state next after : ScriptedMetronome}

theorem onTrack_started {metronome : Metronome} (playable : metronome.Playable) :
    OnTrack script last [] (started metronome) where
  coherent := coherent_started metronome
  madeCalls_eq := rfl
  cleared_of_spawned := nofun
  newest := by
    refine ⟨metronome.runs.length, ⟨playable.congr (Metronome.tempo_start metronome), 0, true,
      .start metronome, ?_⟩, ?_⟩
    · rw [thread_eq (SharedMetronome.phase_setPhase_self) rfl rfl]
      exact .waiting (Nat.zero_le last) (Or.inl rfl) nofun
    · intro other differs
      rw [thread_eq (SharedMetronome.phase_setPhase_of_ne differs) rfl rfl]
      exact ⟨absurd rfl, rfl, nofun, nofun⟩

/-- The threads of all runs but one stay abandoned, also when another run is made. -/
theorem Step.abandoned {other : Nat} (step : Step script state run event next)
    (coherent : state.shared.Coherent) (differs : other ≠ run)
    (old : ∀ call, event = .spawned call → other ≠ state.metronome.runs.length)
    (abandoned : Abandoned events state.metronome other (state.thread other)) :
    Abandoned (events ++ [event]) next.metronome other (next.thread other) := by
  rw [step.thread_of_ne differs old]
  exact abandoned.step event ((step.move coherent).isLive_eq_false old)

/-- The newest run hands over to a newer one. -/
theorem OnTrack.spawn {call : Nat} (onTrack : OnTrack script last events state)
    (step : Step script state newest (.spawned call) next)
    (playable : state.metronome.Playable) (leads : state.metronome.Leads newest pulse up)
    (stage : Stage script last events state.calls pulse up (state.thread newest))
    (others : ∀ other, other ≠ newest →
      Abandoned events state.metronome other (state.thread other)) :
    OnTrack script last (events ++ [.spawned call]) next := by
  have move := step.move onTrack.coherent
  have inOrder := move.madeCalls_eq stage leads onTrack.madeCalls_eq
  rcases move.spawned stage with
    ⟨rfl, calls_eq, calls_eq', metronome_eq, half, rest, restarting, thread_eq⟩
  have beyond : newest + 1 ≠ newest := Nat.succ_ne_self newest
  have fresh := step.thread_spawned (by rwa [leads.length])
  rw [leads.length, (others _ beyond).idle] at fresh
  refine ⟨step.coherent onTrack.coherent, inOrder, ?_, newest + 1, ⟨?_, 0, true, ?_, ?_⟩, ?_⟩
  · intro other spawned
    simp only [List.mem_append, List.mem_singleton, HandlerEvent.spawned.injEq] at spawned
    apply List.mem_append_left
    rcases spawned with spawned | rfl
    · exact onTrack.cleared_of_spawned other spawned
    · exact half.cleared
  · rw [metronome_eq]
    exact playable.congr rfl
  · rw [metronome_eq]
    exact leads.spawn
  · have pulse_eq := script.pulseOf_succ call
    rw [if_pos restarting.restarts] at pulse_eq
    rw [fresh, calls_eq', calls_eq, ← pulse_eq]
    exact .waiting restarting.lt (Or.inl rfl) half.spawn
  · intro other differs
    by_cases own : other = newest
    · subst other
      rw [thread_eq]
      refine ⟨fun _ => ?_, rfl, nofun, fun _ => ⟨restarting.harmless, by simp⟩⟩
      apply move.isLive_eq_false
      · intro _ _
        rw [leads.length]
        exact beyond.symm
      · exact leads.isLive
    · refine step.abandoned onTrack.coherent own ?_ (others other own)
      intro _ _
      rwa [leads.length]

theorem OnTrack.step (onTrack : OnTrack script last events state)
    (step : Step script state run event next) (stops : script.StopsIn last) :
    OnTrack script last (events ++ [event]) next := by
  rcases onTrack.newest with ⟨newest, ⟨playable, pulse, up, leads, stage⟩, others⟩
  have move := step.move onTrack.coherent
  have coherent' := step.coherent onTrack.coherent
  by_cases same : run = newest
  · subst run
    by_cases spawns : ∃ call, event = .spawned call
    · rcases spawns with ⟨call, rfl⟩
      exact onTrack.spawn step playable leads stage others
    · have remains : ∀ call, event ≠ .spawned call := not_exists.mp spawns
      refine ⟨coherent', move.madeCalls_eq stage leads onTrack.madeCalls_eq, ?_, newest, ?_, ?_⟩
      · intro call spawned
        have older : .spawned call ∈ events := by simpa [(remains call).symm] using spawned
        exact List.mem_append_left _ (onTrack.cleared_of_spawned call older)
      · exact move.onStage stage stops playable leads onTrack.cleared_of_spawned remains
      · intro other differs
        refine step.abandoned onTrack.coherent differs ?_ (others other differs)
        exact fun call spawns => absurd spawns (remains call)
  · rcases (others run same).move move same playable leads with
      ⟨abandoned, neutral, noCall, calls_eq, playable', leads'⟩
    refine ⟨coherent', ?_, ?_, newest, ⟨playable', pulse, up, leads', ?_⟩, ?_⟩
    · rw [madeCalls_append, noCall, List.append_nil, calls_eq, onTrack.madeCalls_eq]
    · intro call
      rw [neutral.mem_cleared, neutral.mem_spawned]
      exact onTrack.cleared_of_spawned call
    · have unspawned : ∀ call, event = .spawned call → newest ≠ state.metronome.runs.length :=
        fun call spawns => absurd spawns (neutral call).2
      rw [step.thread_of_ne (Ne.symm same) unspawned, calls_eq]
      exact stage.append neutral
    · intro other differs
      by_cases own : other = run
      · subst other
        exact abandoned
      · refine step.abandoned onTrack.coherent own ?_ (others other differs)
        exact fun call spawns => absurd spawns (neutral call).2

theorem Run.onTrack (continued : Run script state later after)
    (onTrack : OnTrack script last events state) (stops : script.StopsIn last) :
    OnTrack script last (events ++ later) after := by
  induction continued generalizing events with
  | nil => rwa [List.append_nil]
  | cons step _ ih =>
      rw [List.append_cons]
      exact ih (onTrack.step step stops)

/-- Whoever asks for the state is told that the metronome is stopped from the stop of the script on,
and during the restart of a later call; this may happen only behind the own restart. -/
theorem OnTrack.answered {call : Nat} {running : Bool} (onTrack : OnTrack script last events state)
    (step : Step script state run (.answered call running) next) :
    (running = false ↔ .cleared last ∈ events ∨
        ∃ later, call < later ∧ .cleared later ∈ events ∧ .spawned later ∉ events) ∧
      (running = false → .cleared last ∈ events ∨ .spawned call ∈ events) := by
  rcases onTrack.newest with ⟨newest, ⟨playable, pulse, up, leads, stage⟩, others⟩
  cases step with
  | observe asks =>
      have asker := asks.thread_eq
      rw [leads.isRunning]
      cases up with
      | true =>
          have settled := stage.settled
          refine ⟨⟨nofun, ?_⟩, nofun⟩
          rintro (cleared | ⟨later, _, cleared, pending⟩)
          · exact absurd (settled last cleared).1 (lt_irrefl last)
          · exact absurd (settled later cleared).2 pending
      | false =>
          by_cases same : run = newest
          · subst run
            rw [asker] at stage
            simp [stage.cleared_of_observe]
          · have behind := (others run same).behind
            rw [asker] at behind
            have spawned := (behind rfl).2
            refine ⟨iff_of_true rfl ?_, fun _ => Or.inr spawned⟩
            rcases stage.cleared_or_halfDone with cleared | ⟨later, _, half⟩
            · exact Or.inl cleared
            · have differs : (state.duty run).call ≠ later := by
                rintro rfl
                exact half.pending spawned
              have cleared := onTrack.cleared_of_spawned _ spawned
              exact Or.inr ⟨later, (half.earlier _ cleared differs).1, half.cleared, half.pending⟩

end ScriptedMetronome

end LiveScore
