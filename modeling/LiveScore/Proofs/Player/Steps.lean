import LiveScore.Proofs.Player.Reload

/-!
# Operations that change nothing

A run is looked at step by step: each step has the rig that its operation found, the report on it
and the rig that it left. An operation may be left out of a run, or put into it, wherever its step
is idle, for then the operations after it find the same rig. A load is idle in two cases: the file
or its text gives no score, or its text is the one whose score plays already. The second case
depends on where the cursor is, so it takes a rig that was reached from a fresh one.
-/

namespace LiveScore

/-- An operation of a run, with the rig before it and the rig after it. -/
structure Step where
  before : Rig
  report : Report
  after : Rig

/-- The rig stays as it is, and nothing is asked of its devices. -/
structure Step.Idle (step : Step) : Prop where
  after_eq : step.after = step.before
  commands_eq : step.report.commands = []

/-- The step that an operation is. -/
def Rig.step (rig : Rig) (operation : Operation) : Step :=
  ⟨rig, rig.report operation, (rig.run operation).1⟩

/-- The steps of a run. -/
def Rig.steps (rig : Rig) : List Operation → List Step
  | [] => []
  | operation :: rest => rig.step operation :: (rig.run operation).1.steps rest

/-- The text or the file was refused. -/
def Report.failed (report : Report) : Bool :=
  match report.result with
  | .rejected _ => true
  | .notLoaded _ => true
  | _ => false

/-- The operation tries to load a score. -/
def Operation.isLoad : Operation → Bool
  | .read _ => true
  | .loadFile _ _ => true
  | _ => false

/-- The second list is the first one with extra items in between. -/
inductive Interposed {α : Type} (extra : α → Prop) : List α → List α → Prop
  | nil : Interposed extra [] []
  | keep {item : α} {items longer : List α} (rest : Interposed extra items longer) :
    Interposed extra (item :: items) (item :: longer)
  | insert {item : α} {items longer : List α} (isExtra : extra item)
    (rest : Interposed extra items longer) : Interposed extra items (item :: longer)

namespace Interposed

variable {α β : Type} {extra : α → Prop} {items longer : List α}

theorem refl (items : List α) : Interposed extra items items := by
  induction items with
  | nil => exact .nil
  | cons item rest ih => exact .keep ih

theorem forall_mem (interposed : Interposed extra items longer) {holds : α → Prop}
    (items_hold : ∀ item ∈ items, holds item) (extra_holds : ∀ item, extra item → holds item) :
    ∀ item ∈ longer, holds item := by
  induction interposed with
  | nil => exact items_hold
  | keep _ ih =>
      rcases List.forall_mem_cons.mp items_hold with ⟨item_holds, rest_hold⟩
      exact List.forall_mem_cons.mpr ⟨item_holds, ih rest_hold⟩
  | insert isExtra _ ih => exact List.forall_mem_cons.mpr ⟨extra_holds _ isExtra, ih items_hold⟩

/-- Before an item of the list there are only extra ones and the items before it. -/
theorem exists_before {first second : List α} {item : α}
    (interposed : Interposed extra (first ++ item :: second) longer) :
    ∃ longerFirst longerSecond, longer = longerFirst ++ item :: longerSecond ∧
      Interposed extra first longerFirst ∧ Interposed extra second longerSecond := by
  generalize whole_eq : first ++ item :: second = whole at interposed
  induction interposed generalizing first with
  | nil => simp at whole_eq
  | keep rest ih =>
      cases first with
      | nil =>
          rcases List.cons.inj whole_eq with ⟨rfl, rfl⟩
          exact ⟨[], _, rfl, .nil, rest⟩
      | cons head tail =>
          rcases List.cons.inj whole_eq with ⟨rfl, tail_eq⟩
          rcases ih tail_eq with ⟨longerFirst, longerSecond, rfl, before, behind⟩
          exact ⟨_ :: longerFirst, longerSecond, rfl, .keep before, behind⟩
  | insert isExtra _ ih =>
      rcases ih whole_eq with ⟨longerFirst, longerSecond, rfl, before, behind⟩
      exact ⟨_ :: longerFirst, longerSecond, rfl, .insert isExtra before, behind⟩

/-- Extra items that give nothing leave what the list gives as it is. -/
theorem flatMap_eq (interposed : Interposed extra items longer) {give : α → List β}
    (nothing : ∀ item, extra item → give item = []) :
    longer.flatMap give = items.flatMap give := by
  induction interposed with
  | nil => rfl
  | keep _ ih => simp [ih]
  | insert isExtra _ ih => simp [ih, nothing _ isExtra]

end Interposed

namespace Rig

variable {rig : Rig} {operation : Operation}

theorem steps_append (rig : Rig) (operations later : List Operation) :
    rig.steps (operations ++ later) =
      rig.steps operations ++ (rig.runAll operations).1.steps later := by
  induction operations generalizing rig with
  | nil => rfl
  | cons operation rest ih => simp [steps, runAll, ih]

theorem map_report_steps (rig : Rig) (operations : List Operation) :
    (rig.steps operations).map Step.report = (rig.runAll operations).2 := by
  induction operations generalizing rig with
  | nil => rfl
  | cons operation rest ih => simp [steps, step, runAll, ih]

theorem exists_of_mem_steps {operations : List Operation} {step : Step}
    (step_mem : step ∈ rig.steps operations) :
    ∃ earlier operation later, operations = earlier ++ operation :: later ∧
      step = (rig.runAll earlier).1.step operation := by
  induction operations generalizing rig with
  | nil => cases step_mem
  | cons operation rest ih =>
      rcases List.mem_cons.mp step_mem with rfl | later_mem
      · exact ⟨[], operation, rest, rfl, rfl⟩
      · rcases ih later_mem with ⟨earlier, found, later, rfl, rfl⟩
        exact ⟨operation :: earlier, found, later, rfl, rfl⟩

/-- A load puts its score in place, if it has one, and asks nothing of the devices. -/
theorem run_load (rig : Rig) (isLoad : operation.isLoad = true) :
    (rig.run operation).1 = { rig with
        player := { rig.player with
          playback := (operation.loaded? rig.player.resolver).elim rig.player.playback
            rig.player.playback.load } } ∧
      (rig.report operation).commands = [] ∧
      ((rig.report operation).failed = true ↔ operation.loaded? rig.player.resolver = none) := by
  have warned (lines : List Nat) :
      (lines.map Event.measureIgnored).filterMap Event.command? = [] := by
    simp [Event.command?]
  cases operation with
  | read source =>
      refine ⟨?_, warned _, ?_⟩
      all_goals
        simp only [run, report, Report.failed, Player.read, Operation.loaded?, Operation.text?,
          Option.bind_some]
        cases Score.read rig.player.resolver source with
        | mk outcome warnings => cases outcome <;> simp [Player.load, Except.toOption]
  | loadFile path contents =>
      cases contents with
      | error cause =>
          refine ⟨rfl, warned [], ?_⟩
          simp [report, Report.failed, run, Player.loadFile, Operation.loaded?, Operation.text?]
      | ok source =>
          refine ⟨?_, warned _, ?_⟩
          all_goals
            simp only [run, report, Report.failed, Player.loadFile, Player.read, Operation.loaded?,
              Operation.text?, Option.bind_some]
            cases Score.read rig.player.resolver source with
            | mk outcome warnings => cases outcome <;> simp [Player.load, Except.toOption]
  | _ => cases isLoad

theorem resultOf_ne_failed (operation : Operation) (events : List Event) (survived : Bool) :
    Report.failed ⟨operation, events, resultOf survived⟩ = false := by
  cases survived <;> rfl

theorem failed_iff : (rig.report operation).failed = true ↔
    operation.isLoad = true ∧ operation.loaded? rig.player.resolver = none := by
  cases operation with
  | read source => simpa [Operation.isLoad] using (rig.run_load rfl).2.2
  | loadFile path contents => simpa [Operation.isLoad] using (rig.run_load rfl).2.2
  | tick pulse =>
      simp only [Operation.isLoad, report, run]
      split
      · simp [resultOf_ne_failed]
      · simp [Report.failed]
  | _ => simp [Operation.isLoad, report, run, resultOf_ne_failed]

theorem idle_of_failed (failed : (rig.report operation).failed = true) :
    (rig.step operation).Idle := by
  rcases failed_iff.mp failed with ⟨isLoad, noScore⟩
  rcases rig.run_load isLoad with ⟨after_eq, commands_eq, _⟩
  rw [noScore] at after_eq
  exact ⟨after_eq, commands_eq⟩

/-- The loads that fail can be left out of a run: all other steps are the same without them, with
the rigs before and after them and with what they ask of the devices. A load fails exactly if its
file or its text gives no score. -/
theorem steps_without_failed (rig : Rig) (operations : List Operation) :
    let steps := rig.steps operations
    let others := steps.filter fun step => !step.report.failed
    rig.steps (others.map fun step => step.report.operation) = others ∧
      ∀ step ∈ steps, (step.report.failed = true → step.Idle) ∧
        (step.report.failed = true ↔ step.report.operation.isLoad = true ∧
          step.report.operation.loaded? rig.player.resolver = none) := by
  intro steps others
  constructor
  · simp only [others, steps]
    clear others steps
    induction operations generalizing rig with
    | nil => rfl
    | cons operation rest ih =>
        rw [Rig.steps, List.filter_cons]
        cases failed : (rig.report operation).failed with
        | true =>
            have unchanged : (rig.run operation).1 = rig := (idle_of_failed failed).after_eq
            simpa [step, failed, unchanged] using ih rig
        | false =>
            have kept : (!(rig.step operation).report.failed) = true := by simp [step, failed]
            rw [if_pos kept]
            exact congrArg (rig.step operation :: ·) (ih (rig.run operation).1)
  · intro step step_mem
    rcases exists_of_mem_steps step_mem with ⟨earlier, operation, _, _, rfl⟩
    have sameResolver := (rig.runAll_score earlier).1
    refine ⟨idle_of_failed, ?_⟩
    rw [← sameResolver]
    exact failed_iff

/-- The rig was fresh and has done some operations. -/
def Reachable (rig : Rig) : Prop :=
  ∃ resolver clickLatency sink operations,
    ((fresh resolver clickLatency sink).runAll operations).1 = rig

theorem Reachable.located_or_untouched (reachable : rig.Reachable) :
    rig.player.playback.Located ∨ rig.player.playback = {} := by
  rcases reachable with ⟨resolver, clickLatency, sink, operations, rfl⟩
  have start : Placed false (fresh resolver clickLatency sink).player.playback := rfl
  have placed := start.runAll operations
  unfold Placed at placed
  split at placed
  · exact Or.inl placed
  · exact Or.inr placed

/-- A rig that plays the score of a text has loaded one, so its cursor stands in the score. -/
theorem Reachable.located (reachable : rig.Reachable) {source : String}
    (accepted : (Score.read rig.player.resolver source).outcome = .ok rig.player.playback.score) :
    rig.player.playback.Located := by
  rcases reachable.located_or_untouched with located | untouched
  · exact located
  · have hasSection := (Score.playable_of_read accepted).sections_ne_nil
    rw [untouched] at hasSection
    exact absurd rfl hasSection

theorem Reachable.run (reachable : rig.Reachable) (operation : Operation) :
    (rig.run operation).1.Reachable := by
  rcases reachable with ⟨resolver, clickLatency, sink, operations, rfl⟩
  refine ⟨resolver, clickLatency, sink, operations ++ [operation], ?_⟩
  rw [runAll_concat]

theorem Reachable.runAll (reachable : rig.Reachable) (operations : List Operation) :
    (rig.runAll operations).1.Reachable := by
  induction operations generalizing rig with
  | nil => exact reachable
  | cons operation rest ih => exact ih (reachable.run operation)

/-- What keeps the score of a located cursor also keeps the cursor located. -/
theorem run_keepsScore (located : rig.player.playback.Located)
    (sameScore : ∀ score ∈ operation.loaded? rig.player.resolver,
      score = rig.player.playback.score) :
    (rig.run operation).1.player.playback.Located ∧
      (rig.run operation).1.player.playback.score = rig.player.playback.score := by
  rcases (rig.run_cases operation).2 with ⟨source, score, text, _, accepted, loads⟩ | ⟨_, moves⟩
  · have found : score ∈ operation.loaded? rig.player.resolver := by
      simp [Operation.loaded?, text, accepted, Except.toOption]
    rw [loads, Playback.score_load]
    exact ⟨Playback.located_load _ (Score.playable_of_read accepted), sameScore score found⟩
  · exact ⟨located.moves moves, moves.score_eq⟩

theorem idle_of_reread (located : rig.player.playback.Located) {source : String}
    (accepted : (Score.read rig.player.resolver source).outcome = .ok rig.player.playback.score)
    (reads : operation.text? = some source) : (rig.step operation).Idle := by
  have isLoad : operation.isLoad = true := by
    cases operation <;> first | rfl | cases reads
  have found : operation.loaded? rig.player.resolver = some rig.player.playback.score := by
    simp [Operation.loaded?, reads, accepted, Except.toOption]
  rcases rig.run_load isLoad with ⟨after_eq, commands_eq, _⟩
  rw [found, Option.elim_some, located.load_self] at after_eq
  exact ⟨after_eq, commands_eq⟩

/-- While the score of a text plays, reading the text again any number of times, at any points
before an operation that loads another score, puts idle steps into the run and leaves the others as
they are. -/
theorem interposed_steps_of_reread {source : String} {operations longer later : List Operation}
    (reachable : rig.Reachable)
    (accepted : (Score.read rig.player.resolver source).outcome = .ok rig.player.playback.score)
    (sameScore : ∀ operation ∈ operations, ∀ score ∈ operation.loaded? rig.player.resolver,
      score = rig.player.playback.score)
    (interposed : Interposed (fun operation => operation.text? = some source) operations longer) :
    Interposed (fun step => step.report.operation.text? = some source ∧ step.Idle)
        (rig.steps (operations ++ later)) (rig.steps (longer ++ later)) ∧
      ((rig.runAll (longer ++ later)).2.flatMap Report.commands =
        (rig.runAll (operations ++ later)).2.flatMap Report.commands) ∧
      (rig.runAll (longer ++ later)).1 = (rig.runAll (operations ++ later)).1 := by
  have located := reachable.located accepted
  have aligned : Interposed (fun step => step.report.operation.text? = some source ∧ step.Idle)
        (rig.steps (operations ++ later)) (rig.steps (longer ++ later)) ∧
      (rig.runAll (longer ++ later)).1 = (rig.runAll (operations ++ later)).1 := by
    clear reachable
    -- The state after each kept operation again plays the score, at a place of its own.
    induction interposed generalizing rig with
    | nil => exact ⟨.refl _, rfl⟩
    | @keep operation rest _ _ ih =>
        have resolver_eq := (rig.run_cases operation).1
        rcases run_keepsScore located (sameScore operation List.mem_cons_self) with
          ⟨nextLocated, score_eq⟩
        rw [← resolver_eq, ← score_eq] at accepted sameScore
        have restSame : ∀ later ∈ rest, ∀ score ∈
            later.loaded? (rig.run operation).1.player.resolver,
            score = (rig.run operation).1.player.playback.score := by
          intro later later_mem
          exact sameScore later (List.mem_cons_of_mem _ later_mem)
        rcases ih accepted restSame nextLocated with ⟨aligned, last_eq⟩
        exact ⟨.keep aligned, last_eq⟩
    | @insert operation _ _ reads _ ih =>
        have idle := idle_of_reread located accepted reads
        have unchanged : (rig.run operation).1 = rig := idle.after_eq
        rcases ih accepted sameScore located with ⟨aligned, last_eq⟩
        rw [List.cons_append, steps, runAll, unchanged]
        exact ⟨.insert ⟨reads, idle⟩ aligned, last_eq⟩
  refine ⟨aligned.1, ?_, aligned.2⟩
  simp only [← map_report_steps, List.flatMap_map]
  apply aligned.1.flatMap_eq
  intro step extra
  exact extra.2.commands_eq

/-- An earlier load has left the cursor in the measure 1 of a section that has only one measure. The
text is read again before, between and after the other operations, once from a file, and then
another score is loaded. -/
theorem interposed_steps_of_reread_beyond :
    let source := "pattern a\ninstruments X\nc d"
    let rig := ((fresh .unison none .accepting).runAll [.read "instruments X\nc\nc\nc", .start,
      .pulses [0], .pulses [0], .read source]).1
    let operations : List Operation := [.pulses [48], .read "tempo x", .pulses [0]]
    let longer : List Operation := [.read source, .pulses [48], .loadFile "a" (.ok source),
      .read "tempo x", .read source, .read source, .pulses [0], .read source]
    let later : List Operation := [.read "instruments Y\nc", .pulses [0]]
    rig.player.position? = some ⟨0, "a", some 1⟩ ∧ rig.Reachable ∧
      (Score.read rig.player.resolver source).outcome = .ok rig.player.playback.score ∧
      Interposed (fun operation => operation.text? = some source) operations longer ∧
      Interposed (fun step => step.report.operation.text? = some source ∧ step.Idle)
        (rig.steps (operations ++ later)) (rig.steps (longer ++ later)) := by
  intro source rig operations longer later
  have position_eq : rig.player.position? = some ⟨0, "a", some 1⟩ := by
    decide +kernel
  have reachable : rig.Reachable := ⟨_, _, _, _, rfl⟩
  have accepted : (Score.read rig.player.resolver source).outcome =
      .ok rig.player.playback.score := by
    decide +kernel
  have sameScore : ∀ operation ∈ operations, ∀ score ∈ operation.loaded? rig.player.resolver,
      score = rig.player.playback.score := by
    intro operation operation_mem
    simp only [operations, List.mem_cons, List.not_mem_nil, or_false] at operation_mem
    rcases operation_mem with rfl | rfl | rfl
    all_goals decide +kernel
  have interposed : Interposed (fun operation => operation.text? = some source) operations
      longer := by
    refine .insert ?_ (.keep (.insert ?_ (.keep ?_)))
    on_goal 3 => refine .insert ?_ (.insert ?_ (.keep (.insert ?_ .nil)))
    all_goals rfl
  exact ⟨position_eq, reachable, accepted, interposed,
    (interposed_steps_of_reread reachable accepted sameScore interposed).1⟩

end Rig

end LiveScore
