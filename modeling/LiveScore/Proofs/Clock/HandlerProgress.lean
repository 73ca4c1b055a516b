import LiveScore.Proofs.Clock.HandlerStages
import Mathlib.Algebra.BigOperators.Intervals

/-!
# A scripted handler comes to its end

Up to the stop the thread of the newest run can always go on. Nor do the threads go on for ever:
what a thread may still do in its call, and what the calls to come may do, is bounded by the
requests of the script, and each step uses up some of it.
-/

namespace LiveScore

open Finset in
/-- Changing one summand changes the sum by as much. -/
theorem sum_range_add_of_eq {first second : Nat → Nat} {count index : Nat}
    (index_lt : index < count)
    (same : ∀ other < count, other ≠ index → second other = first other) :
    ∑ other ∈ range count, second other + first index =
      ∑ other ∈ range count, first other + second index := by
  have index_mem := mem_range.mpr index_lt
  have rest_eq : ∑ other ∈ (range count).erase index, second other =
      ∑ other ∈ (range count).erase index, first other := by
    apply sum_congr rfl
    intro other other_mem
    exact same other (mem_range.mp (mem_of_mem_erase other_mem)) (ne_of_mem_erase other_mem)
  have first_eq := add_sum_erase (range count) first index_mem
  have second_eq := add_sum_erase (range count) second index_mem
  omega

/-- The most steps that a request may take, with what the thread of the run that it makes does
before its first call. -/
def HandlerRequest.cost : HandlerRequest → Nat
  | .call true => 6
  | .call false => 3
  | _ => 1

/-- What is left of the cost of a stop or a start. -/
def CallStage.cost : CallStage → Nat
  | .clearing true => 5
  | .joining _ true => 4
  | .spawning => 3
  | .clearing false => 2
  | .joining _ false => 1

/-- The most steps that a thread takes before its next call, but for what it does in a call. -/
def RunPhase.cost : RunPhase → Nat
  | .handling => 3
  | .checking => 2
  | .delivering => 1
  | .ended => 0

/-- The most steps that requests may take. -/
def requestsCost (requests : List HandlerRequest) : Nat :=
  (requests.map HandlerRequest.cost).sum

@[simp]
theorem requestsCost_cons (request : HandlerRequest) (rest : List HandlerRequest) :
    requestsCost (request :: rest) = request.cost + requestsCost rest := by
  simp [requestsCost]

/-- The most steps that a thread takes before its next call. -/
def HandlerThread.cost (thread : HandlerThread) : Nat :=
  thread.phase.cost + (thread.stage?.map CallStage.cost).getD 0 +
    if thread.phase = .handling then requestsCost thread.duty.requests else 0

/-- The most steps that come of a call. -/
def HandlerScript.callCost (script : HandlerScript) (call : Nat) : Nat :=
  3 + requestsCost (script.requestsAt call)

namespace HandlerEvent

/-- What a call costs when it is made. -/
def callCost (script : HandlerScript) : HandlerEvent → Nat
  | .called call _ => script.callCost call
  | _ => 0

/-- What the thread of a new run costs. -/
def threadCost : HandlerEvent → Nat
  | .spawned _ => RunPhase.checking.cost
  | _ => 0

theorem threadCost_eq_zero {event : HandlerEvent} (remains : ∀ call, event ≠ .spawned call) :
    event.threadCost = 0 := by
  cases event with
  | spawned call => exact absurd rfl (remains call)
  | _ => rfl

end HandlerEvent

namespace HandlerThread

variable {script : HandlerScript} {metronome metronome' : Metronome} {calls calls' run last : Nat}
  {thread thread' : HandlerThread} {event : HandlerEvent}

theorem cost_stageAfterStop (starts : Bool) :
    ((SharedMetronome.stageAfterStop starts).map CallStage.cost).getD 0 =
      if starts then 3 else 0 := by
  cases starts <;> rfl

/-- A stop or a start takes fewer steps than it could, or goes on to wait for a thread. -/
theorem cost_stageAfterClear_lt (recorded : Option Nat) (caller : Caller) (starts : Bool) :
    ((SharedMetronome.stageAfterClear recorded caller starts).map CallStage.cost).getD 0 <
      (CallStage.clearing starts).cost := by
  unfold SharedMetronome.stageAfterClear
  split
  · rw [cost_stageAfterStop]
    cases starts <;> decide
  · split
    · rw [cost_stageAfterStop]
      cases starts <;> decide
    · cases starts <;> simp [CallStage.cost]

theorem cost_stageAfterStop_lt (other : Nat) (starts : Bool) :
    ((SharedMetronome.stageAfterStop starts).map CallStage.cost).getD 0 <
      (CallStage.joining other starts).cost := by
  rw [cost_stageAfterStop]
  cases starts <;> simp [CallStage.cost]

/-- A step uses up some of what its thread, the calls to come and a new thread may cost. -/
theorem Move.cost_lt (move : Move script metronome calls run thread event thread' metronome'
    calls') : thread'.cost + event.threadCost < thread.cost + event.callCost script := by
  cases move with
  | check =>
      simp only [cost, HandlerEvent.threadCost, HandlerEvent.callCost]
      split
      · simp [RunPhase.cost]
      · simp [RunPhase.cost]
  | deliver =>
      simp only [cost, HandlerEvent.threadCost, HandlerEvent.callCost, HandlerScript.callCost]
      simp [RunPhase.cost]
      omega
  | setTempo => simp [cost, HandlerEvent.threadCost, HandlerEvent.callCost, HandlerRequest.cost]
  | observe => simp [cost, HandlerEvent.threadCost, HandlerEvent.callCost, HandlerRequest.cost]
  | @call call starts rest =>
      cases starts <;>
        simp [cost, HandlerEvent.threadCost, HandlerEvent.callCost, HandlerRequest.cost,
          CallStage.cost] <;>
        omega
  | @clear phase starts duty =>
      have shorter := cost_stageAfterClear_lt metronome.recorded (.handler run) starts
      simp only [cost, HandlerEvent.threadCost, HandlerEvent.callCost, Option.map_some,
        Option.getD_some]
      omega
  | @join phase other starts duty =>
      have shorter := cost_stageAfterStop_lt other starts
      simp only [cost, HandlerEvent.threadCost, HandlerEvent.callCost, Option.map_some,
        Option.getD_some]
      omega
  | spawn =>
      simp [cost, HandlerEvent.threadCost, HandlerEvent.callCost, CallStage.cost, RunPhase.cost]
      omega
  | leave =>
      simp only [cost, HandlerEvent.threadCost, HandlerEvent.callCost]
      split
      · simp [RunPhase.cost]
      · simp [RunPhase.cost]
        omega

open Finset in
/-- The cost of a call is one of those that the calls to come have. -/
theorem Move.sum_callCost (move : Move script metronome calls run thread event thread' metronome'
    calls') (calls'_le : calls' ≤ last + 1) :
    ∑ call ∈ Ico calls' (last + 1), script.callCost call + event.callCost script =
      ∑ call ∈ Ico calls (last + 1), script.callCost call := by
  cases move with
  | deliver =>
      have calls_lt : calls < last + 1 := calls'_le
      rw [sum_eq_sum_Ico_succ_bot calls_lt, Nat.add_comm]
      rfl
  | _ => rfl

theorem Move.length_spawned {call : Nat} (move : Move script metronome calls run thread
    (.spawned call) thread' metronome' calls') :
    metronome'.runs.length = metronome.runs.length + 1 := by
  cases move with
  | spawn => exact Metronome.length_runs_spawn

theorem Move.length_eq (move : Move script metronome calls run thread event thread' metronome'
    calls') (remains : ∀ call, event ≠ .spawned call) :
    metronome'.runs.length = metronome.runs.length := by
  cases move with
  | clear => exact Metronome.length_runs_clear
  | spawn => exact absurd rfl (remains _)
  | leave => exact Metronome.length_runs_leave true
  | _ => rfl

end HandlerThread

namespace ScriptedMetronome

variable {script : HandlerScript} {last run : Nat} {events later : List HandlerEvent}
  {event : HandlerEvent} {state next after : ScriptedMetronome}

open Finset in
/-- The most steps that the threads and the calls to come may take. -/
def cost (script : HandlerScript) (last : Nat) (state : ScriptedMetronome) : Nat :=
  ∑ call ∈ Ico state.calls (last + 1), script.callCost call +
    ∑ run ∈ range state.metronome.runs.length, (state.thread run).cost

/-- A thread that has not been made costs nothing. -/
theorem Step.cost_thread_spawned {call : Nat} (step : Step script state run (.spawned call) next)
    (coherent : state.shared.Coherent) :
    (next.thread state.metronome.runs.length).cost = RunPhase.checking.cost := by
  have ended : state.shared.phase state.metronome.runs.length = .ended :=
    coherent.unborn _ le_rfl
  have idle : (state.thread state.metronome.runs.length).stage? = none :=
    coherent.call?_eq_none (by simp [ended])
  rw [step.thread_spawned (Nat.ne_of_gt (step.born coherent)), idle]
  rfl

open Finset in
/-- Each step uses up some of the cost. -/
theorem Step.cost_lt (step : Step script state run event next) (coherent : state.shared.Coherent)
    (calls_le : next.calls ≤ last + 1) : next.cost script last < state.cost script last := by
  have move := step.move coherent
  have born := step.born coherent
  have used := move.cost_lt
  have calls_eq := move.sum_callCost calls_le
  have threads_eq : ∑ other ∈ range state.metronome.runs.length, (next.thread other).cost +
      (state.thread run).cost =
        ∑ other ∈ range state.metronome.runs.length, (state.thread other).cost +
          (next.thread run).cost := by
    apply sum_range_add_of_eq born
    intro other other_lt differs
    rw [step.thread_of_ne differs fun _ _ => Nat.ne_of_lt other_lt]
  have all_eq : ∑ other ∈ range next.metronome.runs.length, (next.thread other).cost =
      ∑ other ∈ range state.metronome.runs.length, (next.thread other).cost +
        event.threadCost := by
    by_cases spawns : ∃ call, event = .spawned call
    · rcases spawns with ⟨call, rfl⟩
      rw [move.length_spawned, sum_range_succ, step.cost_thread_spawned coherent]
      rfl
    · have remains := not_exists.mp spawns
      rw [move.length_eq remains, HandlerEvent.threadCost_eq_zero remains, Nat.add_zero]
  unfold cost
  omega

/-- No more calls are made than up to the stop. -/
theorem OnTrack.calls_le (onTrack : OnTrack script last events state) : state.calls ≤ last + 1 := by
  rcases onTrack.newest with ⟨newest, ⟨playable, pulse, up, leads, stage⟩, others⟩
  exact stage.calls_le

/-- However the threads take turns, they take only so many steps. -/
theorem Run.length_le (continued : Run script state later after)
    (onTrack : OnTrack script last events state) (stops : script.StopsIn last) :
    later.length + after.cost script last ≤ state.cost script last := by
  induction continued generalizing events with
  | nil => simp
  | cons step _ ih =>
      have onTrack' := onTrack.step step stops
      have used := step.cost_lt onTrack.coherent onTrack'.calls_le
      have rest_le := ih onTrack'
      rw [List.length_cons]
      omega

/-- The thread of the newest run can go on until the script has stopped the metronome. -/
theorem OnTrack.exists_step (onTrack : OnTrack script last events state) :
    (∃ run event next, Step script state run event next) ∨
      state.calls = last + 1 ∧ state.metronome.isRunning = false := by
  rcases onTrack.newest with ⟨newest, ⟨playable, pulse, up, leads, stage⟩, others⟩
  generalize state.calls = calls at stage ⊢
  generalize thread_eq : state.thread newest = thread at stage
  have phase := congrArg HandlerThread.phase thread_eq
  have pending := congrArg HandlerThread.stage? thread_eq
  have requests := congrArg (fun thread => thread.duty.requests) thread_eq
  cases stage with
  | waiting calls_le outside settled =>
      rcases outside with rfl | rfl
      · exact Or.inl ⟨newest, _, _, .check (.check phase)⟩
      · exact Or.inl ⟨newest, _, _, .deliver (.deliver phase)⟩
  | handling call_le kind_eq planned settled =>
      cases planned with
      | done => exact Or.inl ⟨newest, _, _, .leave requests (.leave phase pending)⟩
      | setTempo =>
          exact Or.inl ⟨newest, _, _, .setTempo ⟨phase, pending, requests⟩ (.setTempo _)⟩
      | observe => exact Or.inl ⟨newest, _, _, .observe ⟨phase, pending, requests⟩⟩
      | restart =>
          exact Or.inl ⟨newest, _, _, .call ⟨phase, pending, requests⟩ (.call pending phase)⟩
      | stop =>
          exact Or.inl ⟨newest, _, _, .call ⟨phase, pending, requests⟩ (.call pending phase)⟩
  | stopping => exact Or.inl ⟨newest, _, _, .clear (.clear pending)⟩
  | stopped =>
      exact Or.inl ⟨newest, _, _, .call ⟨phase, pending, requests⟩ (.call pending phase)⟩
  | starting => exact Or.inl ⟨newest, _, _, .clear (.clear pending)⟩
  | spawning => exact Or.inl ⟨newest, _, _, .spawn (.spawn pending)⟩
  | closing => exact Or.inl ⟨newest, _, _, .clear (.clear pending)⟩
  | closed => exact Or.inr ⟨rfl, leads.isRunning⟩
  | left => exact Or.inr ⟨rfl, leads.isRunning⟩

end ScriptedMetronome

end LiveScore
