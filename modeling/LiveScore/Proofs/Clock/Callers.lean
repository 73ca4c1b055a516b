import LiveScore.Clock.Metronome
import Mathlib.Logic.Function.Basic

/-!
# A metronome with several callers

Threads of the program and handlers of runs start and stop one metronome. What is not interrupted is
not a call but a section of it: a stop takes the recorded run and ends it, and then waits for the
thread of this run, unless it is on this thread itself; a start is a stop and then the section that
makes and records a new run. The thread of a run looks whether the run is live, delivers the pulse,
and looks again when the handler is done.

Two starts that both have taken the recorded run before either of them makes a new one leave two
live runs behind, of which the slot has only the second. Nothing ends the first one any more. This
is the only way to get there: the recorded run is the only live one exactly as long as no section
makes a run while another one is recorded.
-/

namespace LiveScore

/-- Who calls the metronome. -/
inductive Caller where
  | host (thread : Nat)
  | handler (run : Nat)
deriving DecidableEq

/-- What a pending call does next. -/
inductive CallStage where
  /-- Takes the recorded run. -/
  | clearing (starts : Bool)
  /-- Waits for the thread of the run that it took. -/
  | joining (run : Nat) (starts : Bool)
  | spawning
deriving DecidableEq

/-- The call is a start that has not made its run yet. -/
def CallStage.starts : CallStage → Bool
  | .clearing starts => starts
  | .joining _ starts => starts
  | .spawning => true

/-- What the thread of a run does next. -/
inductive RunPhase where
  /-- Looks whether the run is live. -/
  | checking
  | delivering
  /-- Is in the handler. -/
  | handling
  | ended
deriving DecidableEq

namespace Metronome

variable {metronome : Metronome} {run index : Nat}

/-- The run was made and has not been ended. -/
def isLive (metronome : Metronome) (run : Nat) : Bool :=
  (metronome.runs[run]?.map MetronomeRun.live).getD false

/-- The run could not wait for its next pulse. -/
def isBroken (metronome : Metronome) (run : Nat) : Bool :=
  (metronome.runs[run]?.map MetronomeRun.broken).getD false

/-- No run is live but the recorded one. -/
def Sole (metronome : Metronome) : Prop :=
  ∀ run, metronome.isLive run = true → metronome.recorded = some run

theorem lt_of_isLive (live : metronome.isLive run = true) : run < metronome.runs.length := by
  by_contra outside
  rw [isLive, List.getElem?_eq_none (Nat.le_of_not_lt outside)] at live
  cases live

theorem isLive_modifyRun {change : MetronomeRun → MetronomeRun}
    (keeps : ∀ run, (change run).live = run.live) :
    (metronome.modifyRun index change).isLive run = metronome.isLive run := by
  simp only [isLive, modifyRun, List.getElem?_modify]
  cases metronome.runs[run]? with
  | none => rfl
  | some found => by_cases same : index = run <;> simp [same, keeps]

@[simp]
theorem isLive_leave (survived : Bool) :
    (metronome.leave index survived).isLive run = metronome.isLive run := by
  unfold leave
  split
  · exact isLive_modifyRun fun _ => rfl
  · exact isLive_modifyRun fun _ => rfl

@[simp]
theorem recorded_leave (survived : Bool) :
    (metronome.leave index survived).recorded = metronome.recorded := by
  unfold leave
  split <;> rfl

@[simp]
theorem length_runs_leave (survived : Bool) :
    (metronome.leave index survived).runs.length = metronome.runs.length := by
  unfold leave
  split <;> simp [advance, modifyRun]

@[simp]
theorem isLive_clear : metronome.clear.isLive run = true ↔
    metronome.isLive run = true ∧ metronome.recorded ≠ some run := by
  unfold clear
  cases recorded : metronome.recorded with
  | none => simp
  | some index =>
      simp only [isLive, modifyRun, List.getElem?_modify]
      cases metronome.runs[run]? with
      | none => simp
      | some found => by_cases same : index = run <;> simp [same]

@[simp]
theorem isLive_spawn : metronome.spawn.isLive run = true ↔
    metronome.isLive run = true ∨ run = metronome.runs.length := by
  simp only [isLive, spawn]
  rcases Nat.lt_trichotomy run metronome.runs.length with older | new | beyond
  · simp [List.getElem?_append_left older, Nat.ne_of_lt older]
  · simp [new]
  · have outside := Nat.le_of_lt beyond
    have outside' : (metronome.runs ++ [({} : MetronomeRun)]).length ≤ run := by
      rw [List.length_append]
      exact beyond
    rw [List.getElem?_eq_none outside, List.getElem?_eq_none outside']
    simp [Nat.ne_of_gt beyond]

@[simp]
theorem recorded_clear : metronome.clear.recorded = none := by
  unfold clear
  split
  · assumption
  · rfl

@[simp]
theorem length_runs_clear : metronome.clear.runs.length = metronome.runs.length := by
  unfold clear
  split
  · rfl
  · simp [modifyRun]

@[simp]
theorem length_runs_spawn : metronome.spawn.runs.length = metronome.runs.length + 1 := by
  simp [spawn]

theorem sole_clear_iff : metronome.clear.Sole ↔ metronome.Sole := by
  simp only [Sole, isLive_clear, recorded_clear]
  constructor
  · intro none_left run live
    by_contra unrecorded
    cases none_left run ⟨live, unrecorded⟩
  · rintro sole run ⟨live, unrecorded⟩
    exact absurd (sole run live) unrecorded

/-- A new run is the only live one if there was none before, so not if one was recorded. -/
theorem sole_spawn_iff
    (recorded_live : ∀ run, metronome.recorded = some run → metronome.isLive run = true) :
    metronome.spawn.Sole ↔ metronome.Sole ∧ metronome.recorded = none := by
  constructor
  · intro sole
    have noneLive : ∀ run, metronome.isLive run ≠ true := by
      intro run live
      have isNew : metronome.runs.length = run :=
        Option.some.inj (sole run (isLive_spawn.mpr (Or.inl live)))
      exact Nat.ne_of_gt (lt_of_isLive live) isNew
    refine ⟨fun run live => absurd live (noneLive run), ?_⟩
    rw [Option.eq_none_iff_forall_ne_some]
    intro run recorded
    exact noneLive run (recorded_live run recorded)
  · rintro ⟨sole, empty⟩ run live
    rcases isLive_spawn.mp live with older | rfl
    · have recorded := sole run older
      rw [empty] at recorded
      cases recorded
    · rfl

end Metronome

/-- What one thread does with a metronome without interruption. -/
inductive ThreadAction where
  | setTempo (bpm : Binary64)
  /-- A stop is called, or a start. -/
  | call (caller : Caller) (starts : Bool)
  | clear (caller : Caller)
  | join (caller : Caller)
  | spawn (caller : Caller)
  | check (run : Nat)
  | deliver (run : Nat)
  /-- The handler of a run is done with the pulse, or breaks down. -/
  | leave (run : Nat) (survived : Bool)

/-- The section makes a run. -/
def ThreadAction.spawns : ThreadAction → Bool
  | .spawn _ => true
  | _ => false

/-- A metronome, the calls of it that are pending, and the threads of its runs. -/
structure SharedMetronome where
  metronome : Metronome
  call? : Caller → Option CallStage
  phase : Nat → RunPhase

namespace SharedMetronome

/-- A new metronome that nobody has called yet. -/
def fresh (tempo : Binary64) : SharedMetronome :=
  ⟨.ofTempo tempo, fun _ => none, fun _ => .ended⟩

variable {shared next last : SharedMetronome} {action : ThreadAction}
  {actions later : List ThreadAction}

/-- A caller goes on to another stage of its call, or is done with it. -/
def setCall (shared : SharedMetronome) (caller : Caller) (stage : Option CallStage) :
    SharedMetronome :=
  { shared with call? := Function.update shared.call? caller stage }

/-- The thread of a run goes on to another phase. -/
def setPhase (shared : SharedMetronome) (run : Nat) (phase : RunPhase) : SharedMetronome :=
  { shared with phase := Function.update shared.phase run phase }

@[simp]
theorem metronome_setCall {caller : Caller} {stage : Option CallStage} :
    (shared.setCall caller stage).metronome = shared.metronome :=
  rfl

@[simp]
theorem metronome_setPhase {run : Nat} {phase : RunPhase} :
    (shared.setPhase run phase).metronome = shared.metronome :=
  rfl

theorem call?_setCall_self {caller : Caller} {stage : Option CallStage} :
    (shared.setCall caller stage).call? caller = stage :=
  Function.update_self ..

theorem call?_setCall_of_ne {caller other : Caller} {stage : Option CallStage}
    (differs : other ≠ caller) : (shared.setCall caller stage).call? other = shared.call? other :=
  Function.update_of_ne differs ..

theorem phase_setPhase_self {run : Nat} {phase : RunPhase} :
    (shared.setPhase run phase).phase run = phase :=
  Function.update_self ..

theorem phase_setPhase_of_ne {run other : Nat} {phase : RunPhase} (differs : other ≠ run) :
    (shared.setPhase run phase).phase other = shared.phase other :=
  Function.update_of_ne differs ..

/-- Threads of the program may always call, a handler only while it has a pulse. -/
def CanCall (shared : SharedMetronome) : Caller → Prop
  | .host _ => True
  | .handler run => shared.phase run = .handling

/-- What a call does after the old run is gone. -/
def stageAfterStop (starts : Bool) : Option CallStage := if starts then some .spawning else none

/-- What a call does after it has taken the recorded run. A handler does not wait for its own
thread. -/
def stageAfterClear (recorded : Option Nat) (caller : Caller) (starts : Bool) :
    Option CallStage :=
  match recorded with
  | none => stageAfterStop starts
  | some run =>
    if caller = .handler run then stageAfterStop starts else some (.joining run starts)

/-- An action of a thread that is about to do it. -/
inductive Step (shared : SharedMetronome) : ThreadAction → SharedMetronome → Prop
  | setTempo (bpm : Binary64) :
    Step shared (.setTempo bpm) { shared with metronome := shared.metronome.setTempo bpm }
  | call {caller : Caller} {starts : Bool} (idle : shared.call? caller = none)
    (able : shared.CanCall caller) : Step shared (.call caller starts)
      (shared.setCall caller (some (.clearing starts)))
  | clear {caller : Caller} {starts : Bool}
    (stage : shared.call? caller = some (.clearing starts)) : Step shared (.clear caller)
      { shared.setCall caller (stageAfterClear shared.metronome.recorded caller starts) with
        metronome := shared.metronome.clear }
  | join {caller : Caller} {run : Nat} {starts : Bool}
    (stage : shared.call? caller = some (.joining run starts))
    (ended : shared.phase run = .ended) : Step shared (.join caller)
      (shared.setCall caller (stageAfterStop starts))
  | spawn {caller : Caller} (stage : shared.call? caller = some .spawning) :
    Step shared (.spawn caller)
      { (shared.setCall caller none).setPhase shared.metronome.runs.length .checking with
        metronome := shared.metronome.spawn }
  | check {run : Nat} (phase : shared.phase run = .checking) : Step shared (.check run)
      (shared.setPhase run (if shared.metronome.isLive run then .delivering else .ended))
  | deliver {run : Nat} (phase : shared.phase run = .delivering) : Step shared (.deliver run)
      (shared.setPhase run .handling)
  | leave {run : Nat} {survived : Bool} (phase : shared.phase run = .handling)
    (idle : shared.call? (.handler run) = none) : Step shared (.leave run survived)
      (let metronome := shared.metronome.leave run survived
      { shared.setPhase run (if metronome.isBroken run then .ended else .checking) with
        metronome })

/-- Actions of any threads in any order. -/
inductive Run : SharedMetronome → List ThreadAction → SharedMetronome → Prop
  | nil {shared : SharedMetronome} : Run shared [] shared
  | cons {shared next last : SharedMetronome} {action : ThreadAction} {rest : List ThreadAction}
    (step : Step shared action next) (later : Run next rest last) :
    Run shared (action :: rest) last

/-- Without interruption, and without a thread to wait for, the sections of a call come to what
stopping or starting the metronome is. -/
theorem exists_run_call {caller : Caller} (starts : Bool) (idle : shared.call? caller = none)
    (able : shared.CanCall caller)
    (waitsNot : ∀ run, shared.metronome.recorded = some run → caller = .handler run) :
    ∃ next, next.call? caller = none ∧ Run shared
        (.call caller starts :: .clear caller :: if starts then [.spawn caller] else []) next ∧
      next.metronome = if starts then shared.metronome.start else shared.metronome.stop := by
  have stage : stageAfterClear shared.metronome.recorded caller starts = stageAfterStop starts := by
    cases recorded : shared.metronome.recorded with
    | none => rfl
    | some run => simp [stageAfterClear, waitsNot run recorded]
  have called : (shared.setCall caller (some (.clearing starts))).call? caller =
      some (.clearing starts) :=
    call?_setCall_self
  have cleared := Step.clear called
  rw [metronome_setCall, stage] at cleared
  cases starts with
  | false =>
      refine ⟨_, ?_, .cons (.call idle able) (.cons cleared .nil), rfl⟩
      exact call?_setCall_self
  | true =>
      refine ⟨_, ?_, .cons (.call idle able) (.cons cleared (.cons (.spawn ?_) .nil)), rfl⟩
      · exact call?_setCall_self
      · exact call?_setCall_self

/-- A section makes a run while another one is recorded. Whether one is recorded can be told from
the sections before. -/
def overwrites (occupied : Bool) : List ThreadAction → Bool
  | [] => false
  | .clear _ :: rest => overwrites false rest
  | .spawn _ :: rest => occupied || overwrites true rest
  | _ :: rest => overwrites occupied rest

theorem Step.overwrites_cons (step : shared.Step action next) (rest : List ThreadAction) :
    overwrites shared.metronome.recorded.isSome (action :: rest) =
      ((action.spawns && shared.metronome.recorded.isSome) ||
        overwrites next.metronome.recorded.isSome rest) := by
  cases step with
  | clear stage => simp [overwrites, ThreadAction.spawns]
  | leave phase idle => simp [overwrites, ThreadAction.spawns]
  | _ => rfl

/-- What holds of the threads whatever they do. -/
structure Coherent (shared : SharedMetronome) : Prop where
  recorded_live : ∀ run, shared.metronome.recorded = some run → shared.metronome.isLive run = true
  unborn : ∀ run, shared.metronome.runs.length ≤ run → shared.phase run = .ended
  calling : ∀ run stage, shared.call? (.handler run) = some stage → shared.phase run = .handling
  /-- Whoever ends a run that is about to deliver a pulse waits for its thread. -/
  awaited : ∀ run, shared.phase run = .delivering → shared.metronome.isLive run = true ∨
    ∃ caller starts, shared.call? caller = some (.joining run starts)

theorem coherent_fresh (tempo : Binary64) : (fresh tempo).Coherent where
  recorded_live := nofun
  unborn _ _ := rfl
  calling := nofun
  awaited := nofun

namespace Coherent

variable {caller : Caller} {run : Nat}

theorem canCall (coherent : shared.Coherent) {stage : CallStage}
    (pending : shared.call? caller = some stage) : shared.CanCall caller := by
  cases caller with
  | host thread => trivial
  | handler run => exact coherent.calling run stage pending

theorem born (coherent : shared.Coherent) (alive : shared.phase run ≠ .ended) :
    run < shared.metronome.runs.length := by
  by_contra outside
  exact alive (coherent.unborn run (Nat.le_of_not_lt outside))

theorem setMetronome {metronome : Metronome} (coherent : shared.Coherent)
    (recorded_eq : metronome.recorded = shared.metronome.recorded)
    (length_eq : metronome.runs.length = shared.metronome.runs.length)
    (isLive_eq : ∀ run, metronome.isLive run = shared.metronome.isLive run) :
    Coherent { shared with metronome } := by
  constructor
  · simp only [recorded_eq, isLive_eq]
    exact coherent.recorded_live
  · simp only [length_eq]
    exact coherent.unborn
  · exact coherent.calling
  · simp only [isLive_eq]
    exact coherent.awaited

/-- A call may go on to any stage, unless it gives up waiting for a run that delivers a pulse. -/
theorem setCall {stage : Option CallStage} (coherent : shared.Coherent)
    (able : shared.CanCall caller)
    (waited : ∀ run starts, shared.call? caller = some (.joining run starts) →
      shared.phase run ≠ .delivering) :
    (shared.setCall caller stage).Coherent := by
  refine ⟨coherent.recorded_live, coherent.unborn, ?_, ?_⟩
  · intro run found pending
    by_cases same : Caller.handler run = caller
    · subst same
      exact able
    · rw [call?_setCall_of_ne same] at pending
      exact coherent.calling run found pending
  · intro run delivering
    rcases coherent.awaited run delivering with live | ⟨other, starts, joins⟩
    · exact Or.inl live
    · refine Or.inr ⟨other, starts, ?_⟩
      have differs : other ≠ caller := by
        rintro rfl
        exact waited run starts joins delivering
      rw [call?_setCall_of_ne differs]
      exact joins

theorem setPhase {phase : RunPhase} (coherent : shared.Coherent)
    (alive : shared.phase run ≠ .ended)
    (calling : phase ≠ .handling → shared.call? (.handler run) = none)
    (delivers : phase = .delivering → shared.metronome.isLive run = true) :
    (shared.setPhase run phase).Coherent := by
  refine ⟨coherent.recorded_live, ?_, ?_, ?_⟩
  · intro other beyond
    have differs : other ≠ run := Nat.ne_of_gt (Nat.lt_of_lt_of_le (coherent.born alive) beyond)
    rw [phase_setPhase_of_ne differs]
    exact coherent.unborn other beyond
  · intro other stage pending
    by_cases same : other = run
    · subst same
      rw [phase_setPhase_self]
      by_contra notHandling
      have idle : shared.call? (.handler other) = none := calling notHandling
      cases idle.symm.trans pending
    · rw [phase_setPhase_of_ne same]
      exact coherent.calling other stage pending
  · intro other delivering
    by_cases same : other = run
    · subst same
      rw [phase_setPhase_self] at delivering
      exact Or.inl (delivers delivering)
    · rw [phase_setPhase_of_ne same] at delivering
      exact coherent.awaited other delivering

/-- Whoever takes a run waits for it, unless it is on the thread of the run, which then is in the
handler and not about to deliver a pulse. -/
theorem clear (coherent : shared.Coherent) {starts : Bool}
    (stage : shared.call? caller = some (.clearing starts)) :
    Coherent { shared.setCall caller (stageAfterClear shared.metronome.recorded caller starts) with
      metronome := shared.metronome.clear } := by
  have called : (shared.setCall caller
      (stageAfterClear shared.metronome.recorded caller starts)).Coherent := by
    apply coherent.setCall (coherent.canCall stage)
    intro run starts joins
    cases stage.symm.trans joins
  refine ⟨?_, ?_, called.calling, ?_⟩
  · rw [Metronome.recorded_clear]
    nofun
  · rw [Metronome.length_runs_clear]
    exact called.unborn
  · intro run delivering
    rcases called.awaited run delivering with live | joins
    · by_cases recorded : shared.metronome.recorded = some run
      · have other : caller ≠ .handler run := by
          rintro rfl
          cases delivering.symm.trans (coherent.calling run _ stage)
        refine Or.inr ⟨caller, starts, ?_⟩
        simp [SharedMetronome.setCall, stageAfterClear, recorded, other]
      · exact Or.inl (Metronome.isLive_clear.mpr ⟨live, recorded⟩)
    · exact Or.inr joins

theorem spawn (coherent : shared.Coherent) (stage : shared.call? caller = some .spawning) :
    Coherent { (shared.setCall caller none).setPhase shared.metronome.runs.length .checking with
      metronome := shared.metronome.spawn } := by
  have called : (shared.setCall caller none).Coherent := by
    apply coherent.setCall (coherent.canCall stage)
    intro run starts joins
    cases stage.symm.trans joins
  constructor
  · rintro run ⟨⟩
    exact Metronome.isLive_spawn.mpr (Or.inr rfl)
  · intro run beyond
    rw [Metronome.length_runs_spawn] at beyond
    exact (phase_setPhase_of_ne (Nat.ne_of_gt beyond)).trans
      (called.unborn run (Nat.le_of_succ_le beyond))
  · intro run found pending
    have handling := called.calling run found pending
    have differs : run ≠ shared.metronome.runs.length := by
      rintro rfl
      cases (called.unborn _ (Nat.le_refl _)).symm.trans handling
    exact (phase_setPhase_of_ne differs).trans handling
  · intro run delivering
    have differs : run ≠ shared.metronome.runs.length := by
      rintro rfl
      cases phase_setPhase_self.symm.trans delivering
    rcases called.awaited run ((phase_setPhase_of_ne differs).symm.trans delivering) with
      live | joins
    · exact Or.inl (Metronome.isLive_spawn.mpr (Or.inl live))
    · exact Or.inr joins

/-- A run that is not in its handler has no call pending from it. -/
theorem call?_eq_none (coherent : shared.Coherent) (outside : shared.phase run ≠ .handling) :
    shared.call? (.handler run) = none := by
  rw [Option.eq_none_iff_forall_ne_some]
  intro stage pending
  exact outside (coherent.calling run stage pending)

theorem step (coherent : shared.Coherent) (step : shared.Step action next) : next.Coherent := by
  cases step with
  | setTempo bpm => exact coherent.setMetronome rfl rfl fun _ => rfl
  | call idle able =>
      apply coherent.setCall able
      intro run starts joins
      cases idle.symm.trans joins
  | clear stage => exact coherent.clear stage
  | join stage ended =>
      apply coherent.setCall (coherent.canCall stage)
      intro other starts joins delivering
      cases stage.symm.trans joins
      cases ended.symm.trans delivering
  | spawn stage => exact coherent.spawn stage
  | @check run phase =>
      refine coherent.setPhase (by simp [phase]) ?_ ?_
      · intro _
        exact coherent.call?_eq_none (by simp [phase])
      · cases shared.metronome.isLive run <;> simp
  | deliver phase => exact coherent.setPhase (by simp [phase]) (absurd rfl) nofun
  | @leave run survived phase idle =>
      have moved : Coherent { shared with metronome := shared.metronome.leave run survived } :=
        coherent.setMetronome (Metronome.recorded_leave survived)
          (Metronome.length_runs_leave survived) fun _ => Metronome.isLive_leave survived
      refine moved.setPhase (by simp [phase]) (fun _ => idle) ?_
      split <;> nofun

end Coherent

theorem Coherent.run (coherent : shared.Coherent) (run : Run shared actions last) :
    last.Coherent := by
  induction run with
  | nil => exact coherent
  | cons step _ ih => exact ih (coherent.step step)

/-- Only the section that makes a run can leave a live run unrecorded behind, and only if another
one is recorded. -/
theorem Coherent.sole_step (coherent : shared.Coherent) (step : shared.Step action next) :
    next.metronome.Sole ↔ shared.metronome.Sole ∧
      (action.spawns && shared.metronome.recorded.isSome) = false := by
  cases step with
  | clear stage => simp [ThreadAction.spawns, Metronome.sole_clear_iff]
  | spawn stage =>
      rw [Metronome.sole_spawn_iff coherent.recorded_live]
      simp [ThreadAction.spawns]
  | leave phase idle => simp [ThreadAction.spawns, Metronome.Sole]
  | _ => exact (and_iff_left rfl).symm

theorem Coherent.sole_run (coherent : shared.Coherent) (run : Run shared actions last) :
    last.metronome.Sole ↔ shared.metronome.Sole ∧
      overwrites shared.metronome.recorded.isSome actions = false := by
  induction run with
  | nil => exact (and_iff_left rfl).symm
  | cons step _ ih =>
      rw [ih (coherent.step step), coherent.sole_step step, step.overwrites_cons,
        Bool.or_eq_false_iff, and_assoc]

/-- At most one pending call is a start that has not made its run yet. -/
def Exclusive (shared : SharedMetronome) : Prop :=
  ∀ first second stage other, shared.call? first = some stage → stage.starts = true →
    shared.call? second = some other → other.starts = true → first = second

/-- If a start has taken the recorded run, none is recorded before it makes its own. -/
def Ready (shared : SharedMetronome) : Prop :=
  ∀ caller stage, shared.call? caller = some stage → stage.starts = true →
    stage ≠ .clearing true → shared.metronome.recorded = none

theorem Ready.setCall {caller : Caller} {stage : Option CallStage} (ready : shared.Ready)
    (next : ∀ found, stage = some found → found.starts = true → found ≠ .clearing true →
      shared.metronome.recorded = none) :
    (shared.setCall caller stage).Ready := by
  intro other found pending
  by_cases same : other = caller
  · subst same
    exact next found (call?_setCall_self.symm.trans pending)
  · rw [call?_setCall_of_ne same] at pending
    exact ready other found pending

theorem Ready.step (ready : shared.Ready) (exclusive : shared.Exclusive)
    (step : shared.Step action next) : next.Ready := by
  cases step with
  | call idle able =>
      apply ready.setCall
      rintro found ⟨⟩ starts late
      exact absurd (congrArg CallStage.clearing starts) late
  | clear stage => exact fun _ _ _ _ _ => Metronome.recorded_clear
  | @join caller run starts stage ended =>
      apply ready.setCall
      intro found after _ _
      cases starts with
      | true => exact ready caller _ stage rfl nofun
      | false => cases after
  | @spawn caller stage =>
      intro other found pending starts
      have differs : other ≠ caller := by
        rintro rfl
        cases call?_setCall_self.symm.trans pending
      have other_pending := (call?_setCall_of_ne differs).symm.trans pending
      exact absurd (exclusive other caller found _ other_pending starts stage rfl) differs
  | leave phase idle =>
      intro other found pending starts late
      rw [Metronome.recorded_leave]
      exact ready other found pending starts late
  | _ => exact ready

/-- As long as no two starts are pending at a time, no section makes a run while another one is
recorded. -/
theorem Ready.overwrites_run (ready : shared.Ready) (run : Run shared actions last)
    (exclusive : ∀ earlier rest next, actions = earlier ++ rest → Run shared earlier next →
      next.Exclusive) :
    overwrites shared.metronome.recorded.isSome actions = false := by
  induction run with
  | nil => rfl
  | @cons shared next _ action rest step _ ih =>
      have first : (action.spawns && shared.metronome.recorded.isSome) = false := by
        cases step with
        | spawn stage => simp [ready _ _ stage rfl nofun]
        | _ => rfl
      have shared_exclusive : shared.Exclusive := exclusive [] _ _ rfl .nil
      rw [step.overwrites_cons, first, Bool.false_or]
      apply ih (ready.step shared_exclusive step)
      intro earlier others last split run
      exact exclusive (action :: earlier) others last (congrArg _ split) (.cons step run)

/-- No run is live and no start is pending, so at most the runs that have already looked deliver one
more pulse each. -/
structure Quiet (shared : SharedMetronome) : Prop where
  notLive : ∀ run, shared.metronome.isLive run = false
  notStarting : ∀ caller stage, shared.call? caller = some stage → stage.starts = false

namespace Quiet

variable {number : Nat}

theorem setCall {caller : Caller} {stage : Option CallStage} (quiet : shared.Quiet)
    (notStart : ∀ found, stage = some found → found.starts = false) :
    (shared.setCall caller stage).Quiet := by
  refine ⟨quiet.notLive, ?_⟩
  intro other found pending
  by_cases same : other = caller
  · subst same
    exact notStart found (call?_setCall_self.symm.trans pending)
  · rw [call?_setCall_of_ne same] at pending
    exact quiet.notStarting other found pending

theorem setMetronome {metronome : Metronome} (quiet : shared.Quiet)
    (notLive : ∀ run, metronome.isLive run = false) : Quiet { shared with metronome } :=
  ⟨notLive, quiet.notStarting⟩

/-- Only a new start ends the quiet. -/
theorem step (quiet : shared.Quiet) (step : shared.Step action next)
    (notStart : ∀ caller, action ≠ .call caller true) : next.Quiet := by
  cases step with
  | setTempo bpm => exact quiet.setMetronome quiet.notLive
  | @call caller starts _ _ =>
      refine quiet.setCall ?_
      rintro found ⟨⟩
      cases starts with
      | true => exact absurd rfl (notStart caller)
      | false => rfl
  | @clear caller starts stage =>
      have stops : starts = false := quiet.notStarting caller _ stage
      subst stops
      refine (quiet.setCall ?_).setMetronome ?_
      · unfold stageAfterClear
        split
        · nofun
        · split
          · nofun
          · rintro found ⟨⟩
            rfl
      · intro run
        rw [Bool.eq_false_iff, ne_eq, Metronome.isLive_clear, quiet.notLive run]
        nofun
  | @join caller run starts stage ended =>
      have stops : starts = false := quiet.notStarting caller _ stage
      subst stops
      exact quiet.setCall nofun
  | spawn stage => cases quiet.notStarting _ _ stage
  | check phase => exact ⟨quiet.notLive, quiet.notStarting⟩
  | deliver phase => exact ⟨quiet.notLive, quiet.notStarting⟩
  | leave phase idle =>
      refine ⟨?_, quiet.notStarting⟩
      intro run
      rw [Metronome.isLive_leave]
      exact quiet.notLive run

/-- A run that is about to deliver a pulse has been so before, and has not delivered it since. -/
theorem delivering_step (quiet : shared.Quiet) (step : shared.Step action next)
    (delivering : next.phase number = .delivering) :
    shared.phase number = .delivering ∧ action ≠ .deliver number := by
  cases step with
  | spawn stage => cases quiet.notStarting _ _ stage
  | @check run phase =>
      by_cases same : number = run
      · subst same
        have ended := phase_setPhase_self.symm.trans delivering
        rw [quiet.notLive] at ended
        cases ended
      · exact ⟨(phase_setPhase_of_ne same).symm.trans delivering, nofun⟩
  | @deliver run phase =>
      by_cases same : number = run
      · subst same
        cases phase_setPhase_self.symm.trans delivering
      · refine ⟨(phase_setPhase_of_ne same).symm.trans delivering, ?_⟩
        rintro ⟨⟩
        exact same rfl
  | @leave run survived phase idle =>
      by_cases same : number = run
      · subst same
        have left := phase_setPhase_self.symm.trans delivering
        split at left
        · cases left
        · cases left
      · exact ⟨(phase_setPhase_of_ne same).symm.trans delivering, nofun⟩
  | _ => exact ⟨delivering, nofun⟩

/-- Without a start, only a run that is about to deliver a pulse delivers one, and no second one. -/
theorem deliver_run (quiet : shared.Quiet) (number : Nat) (run : Run shared actions last)
    (noStart : ∀ caller, .call caller true ∉ actions) :
    (.deliver number ∈ actions → shared.phase number = .delivering) ∧
      ∀ before after, actions = before ++ .deliver number :: after → .deliver number ∉ after := by
  induction run with
  | nil => exact ⟨nofun, by simp⟩
  | @cons shared next _ action rest step _ ih =>
      have notStart : ∀ caller, action ≠ .call caller true := by
        intro caller starts
        exact noStart caller (List.mem_cons.mpr (Or.inl starts.symm))
      rcases ih (quiet.step step notStart) fun caller started =>
        noStart caller (List.mem_cons_of_mem _ started) with ⟨delivers, once⟩
      constructor
      · intro delivered
        rcases List.mem_cons.mp delivered with rfl | delivered
        · cases step with
          | deliver phase => exact phase
        · exact (quiet.delivering_step step (delivers delivered)).1
      · rintro (_ | ⟨first, before⟩) after split
        · cases split
          intro again
          exact (quiet.delivering_step step (delivers again)).2 rfl
        · cases split
          exact once before after rfl

end Quiet

/-- Whatever threads of the program and handlers call, the recorded run is the only live one exactly
if no section made a run while another one was recorded, as is the case if no two starts are pending
at a time. Then a metronome that has no recorded run and no pending start delivers no pulse before
it is started again, but for the last pulse of a run that a stop is still waiting for. -/
theorem sole_iff_not_overwrites {tempo : Binary64} (run : Run (fresh tempo) actions last) :
    (last.metronome.Sole ↔ overwrites false actions = false) ∧
      ((∀ earlier rest next, actions = earlier ++ rest → Run (fresh tempo) earlier next →
        next.Exclusive) → last.metronome.Sole) ∧
      (last.metronome.Sole → last.metronome.recorded = none →
        (∀ caller stage, last.call? caller = some stage → stage.starts = false) →
          ∀ later final, Run last later final → (∀ caller, .call caller true ∉ later) →
            ∀ number, ((∀ caller, last.call? caller ≠ some (.joining number false)) →
                .deliver number ∉ later) ∧
              ∀ before after, later = before ++ .deliver number :: after →
                .deliver number ∉ after) := by
  have initially : (fresh tempo).metronome.Sole := nofun
  have sole_iff : last.metronome.Sole ↔ overwrites false actions = false := by
    rw [(coherent_fresh tempo).sole_run run]
    exact and_iff_right initially
  refine ⟨sole_iff, ?_, ?_⟩
  · intro exclusive
    have ready : (fresh tempo).Ready := nofun
    exact sole_iff.mpr (ready.overwrites_run run exclusive)
  · intro sole empty notStarting later final continued noStart number
    have coherent := (coherent_fresh tempo).run run
    have notLive : ∀ run, last.metronome.isLive run = false := by
      intro run
      rw [Bool.eq_false_iff]
      intro live
      cases empty.symm.trans (sole run live)
    have quiet : last.Quiet := ⟨notLive, notStarting⟩
    rcases quiet.deliver_run number continued noStart with ⟨delivers, once⟩
    refine ⟨?_, once⟩
    intro unawaited delivered
    rcases coherent.awaited number (delivers delivered) with live | ⟨caller, starts, joins⟩
    · cases (notLive number).symm.trans live
    · have stops : starts = false := notStarting caller _ joins
      subst stops
      exact unawaited caller joins

/-- A handler starts its own metronome again, and a thread of the program stops the new run while
its thread is about to deliver a pulse. -/
theorem sole_iff_not_overwrites_restarted :
    let actions : List ThreadAction := [.call (.host 0) true, .clear (.host 0), .spawn (.host 0),
      .check 0, .deliver 0, .call (.handler 0) true, .clear (.handler 0), .spawn (.handler 0),
      .leave 0 true, .check 0, .check 1, .call (.host 1) false, .clear (.host 1), .deliver 1,
      .leave 1 true, .check 1, .join (.host 1)]
    ∃ last, Run (fresh 120) actions last ∧ last.metronome.Sole ∧
      ∀ later final, Run last later final → (∀ caller, .call caller true ∉ later) →
        ∀ number, .deliver number ∉ later := by
  intro actions
  have restarted : ∃ last, Run (fresh 120) actions last ∧ last.metronome.recorded = none ∧
      ∀ caller, last.call? caller = none := by
    refine ⟨?_, ?run, ?empty, ?idle⟩
    case run =>
      refine .cons (.call rfl trivial) ?_
      refine .cons (.clear rfl) ?_
      refine .cons (.spawn rfl) ?_
      refine .cons (.check rfl) ?_
      refine .cons (.deliver rfl) ?_
      refine .cons (.call rfl rfl) ?_
      refine .cons (.clear rfl) ?_
      refine .cons (.spawn rfl) ?_
      refine .cons (.leave rfl rfl) ?_
      refine .cons (.check (by decide +kernel)) ?_
      refine .cons (.check rfl) ?_
      refine .cons (.call rfl trivial) ?_
      refine .cons (.clear rfl) ?_
      refine .cons (.deliver rfl) ?_
      refine .cons (.leave rfl rfl) ?_
      refine .cons (.check (by decide +kernel)) ?_
      refine .cons (.join rfl (by decide +kernel)) ?_
      exact .nil
    case empty => rfl
    case idle =>
      intro caller
      simp [setCall, setPhase, stageAfterStop, fresh]
  rcases restarted with ⟨last, run, empty, idle⟩
  rcases sole_iff_not_overwrites run with ⟨sole_iff, _, silent⟩
  have sole : last.metronome.Sole := sole_iff.mpr rfl
  refine ⟨last, run, sole, ?_⟩
  intro later final continued noStart number
  have notStarting : ∀ caller stage, last.call? caller = some stage → stage.starts = false := by
    intro caller stage pending
    cases (idle caller).symm.trans pending
  refine (silent sole empty notStarting later final continued noStart number).1 ?_
  intro caller joins
  cases (idle caller).symm.trans joins

/-- Two threads start the metronome at the same time and leave two live runs behind. A stop ends
only one of them; when it has returned, nothing is recorded and no call is pending, but the other
run delivers another pulse. -/
theorem not_sole_after_overlapping_starts :
    ∃ started stopped last, Run (fresh 120) [.call (.host 0) true, .call (.host 1) true,
        .clear (.host 0), .clear (.host 1), .spawn (.host 0), .spawn (.host 1)] started ∧
      (∀ caller, started.call? caller = none) ∧
      started.metronome.isLive 0 = true ∧ started.metronome.isLive 1 = true ∧
      Run started [.call (.host 0) false, .clear (.host 0), .check 1, .join (.host 0)] stopped ∧
      (∀ caller, stopped.call? caller = none) ∧ stopped.metronome.recorded = none ∧
      stopped.metronome.isLive 0 = true ∧ Run stopped [.check 0, .deliver 0] last := by
  refine ⟨?_, ?_, ?_, ?start, ?_, ?_, ?_, ?stop, ?_, ?_, ?_, ?deliver⟩
  case start =>
    refine .cons (.call rfl trivial) ?_
    refine .cons (.call rfl trivial) ?_
    refine .cons (.clear rfl) ?_
    refine .cons (.clear rfl) ?_
    refine .cons (.spawn rfl) ?_
    refine .cons (.spawn rfl) ?_
    exact .nil
  case stop =>
    refine .cons (.call rfl trivial) ?_
    refine .cons (.clear rfl) ?_
    refine .cons (.check rfl) ?_
    refine .cons (.join rfl rfl) ?_
    exact .nil
  case deliver =>
    refine .cons (.check rfl) ?_
    refine .cons (.deliver rfl) ?_
    exact .nil
  · intro caller
    simp +contextual [setCall, setPhase, Function.update_apply, fresh]
  · rfl
  · rfl
  · intro caller
    simp +contextual [setCall, setPhase, Function.update_apply, stageAfterStop, fresh]
  · rfl
  · rfl

end SharedMetronome

end LiveScore
