import LiveScore.Proofs.Player.Itinerary
import LiveScore.Proofs.Player.Steps
import Mathlib.Data.List.Forall2

/-!
# What the answers of a sink decide

Whatever a sink answers, an operation comes to one plan: the player that it leaves, what it asks of
the clock and of the click track, and after that the deliveries that are due. A sink that breaks
down ends the deliveries of the pulse, when all the rest of the plan is done. So two rigs that
differ only in their sinks stay in step, as long as each pulse is an operation of its own.
-/

namespace LiveScore

/-- A delivery is no affair of the clock. -/
theorem ManualClock.foldl_take_deliveries (clock : ManualClock) (pulse : Nat)
    (deliveries : List Delivery) :
    (deliveries.map (Command.deliver pulse)).foldl ManualClock.take clock = clock := by
  induction deliveries with
  | nil => rfl
  | cons delivery rest ih => simpa [take] using ih

/-- What was asked of the clock and of the click track. -/
def Report.deviceCommands (report : Report) : List Command :=
  report.commands.filter fun command => command.delivery? = none

/-- Each pulse becomes an operation of its own: after a breakdown the next one is still played. -/
def Operation.oneByOne : Operation → List Operation
  | .pulses numbers => numbers.map fun number => .pulses [number]
  | operation => [operation]

/-- The operation is not a row of several pulses. -/
def Operation.Single : Operation → Prop
  | .pulses numbers => ∃ number, numbers = [number]
  | _ => True

theorem Operation.single_of_mem_oneByOne {operation single : Operation}
    (single_mem : single ∈ operation.oneByOne) : single.Single := by
  cases operation with
  | pulses numbers =>
      rcases List.mem_map.mp single_mem with ⟨number, _, rfl⟩
      exact ⟨number, rfl⟩
  | _ =>
      simp only [oneByOne, List.mem_singleton] at single_mem
      subst single
      trivial

namespace Player

/-- What a pulse asks of the clock and of the click track. -/
def deviceCommands (player : Player) (pulse : Nat) : List Command :=
  if player.playback.score.isEmpty then []
  else player.requestCommands (if pulse = 0 then player.playback.downbeatTempo else none) ++
    player.clickCommands pulse

theorem deliveries_deviceCommands (player : Player) (pulse : Nat) :
    (player.deviceCommands pulse).filterMap Command.delivery? = [] := by
  simp only [deviceCommands]
  split
  · rfl
  · simp [deliveries_requestCommands, deliveries_clickCommands]

/-- A pulse asks the devices first and delivers then. -/
theorem commands_pulse_eq (player : Player) (pulse : Nat) :
    (player.pulse pulse).2 = player.deviceCommands pulse ++
      ((player.pulse pulse).1.playback.deliveries pulse).map (Command.deliver pulse) := by
  cases loaded : player.playback.score.isEmpty with
  | true =>
      have nothing := player.deliveries_pulse pulse
      simp only [Player.pulse, loaded, if_true, List.filterMap_nil] at nothing
      simp [Player.pulse, deviceCommands, loaded, ← nothing]
  | false => simp [commands_pulse loaded, deviceCommands, loaded]

end Player

/-- What an operation comes to. -/
structure Plan where
  player : Player
  /-- What is asked of the clock and of the click track, before anything is delivered. -/
  devices : List Command
  devices_quiet : devices.filterMap Command.delivery? = []
  pulse : Nat := 0
  due : List Delivery := []

namespace Plan

variable {plan : Plan} {performed lost : List Command} {made : List Delivery} {pulse : Nat}
  {delivery : Delivery}

/-- Everything that a plan tells the devices and the sink, in order. -/
def commands (plan : Plan) : List Command :=
  plan.devices ++ plan.due.map (Command.deliver plan.pulse)

/-- A change of the player that only the clock and the click track hear of. -/
def ofChange (change : Player × List Command)
    (quiet : change.2.filterMap Command.delivery? = []) : Plan :=
  { player := change.1, devices := change.2, devices_quiet := quiet }

/-- What the player is about to do at a pulse. -/
def ofPulse (player : Player) (pulse : Nat) : Plan where
  player := (player.pulse pulse).1
  devices := player.deviceCommands pulse
  devices_quiet := player.deliveries_deviceCommands pulse
  pulse := pulse
  due := (player.pulse pulse).1.playback.deliveries pulse

/-- What a player is told to become and to ask. -/
def change (plan : Plan) : Player × List Command := (plan.player, plan.commands)

theorem change_ofChange {change : Player × List Command}
    (quiet : change.2.filterMap Command.delivery? = []) :
    (ofChange change quiet).change = change := by
  simp [Plan.change, commands, ofChange]

theorem change_ofPulse (player : Player) (pulse : Nat) :
    (ofPulse player pulse).change = player.pulse pulse := by
  rw [Plan.change, commands, ofPulse, ← player.commands_pulse_eq pulse]

theorem deliver_not_mem_devices (plan : Plan) (pulse : Nat) (delivery : Delivery) :
    Command.deliver pulse delivery ∉ plan.devices := by
  intro asked
  cases List.filterMap_eq_nil_iff.mp plan.devices_quiet _ asked

/-- What is cut short at a delivery has everything that comes before the deliveries. -/
theorem exists_made (split_eq : plan.commands = performed ++ lost)
    (ended : lost = [] ∨ ∃ pulse last, performed.getLast? = some (.deliver pulse last)) :
    ∃ made rest, plan.due = made ++ rest ∧
      performed = plan.devices ++ made.map (Command.deliver plan.pulse) ∧
      lost = rest.map (Command.deliver plan.pulse) := by
  rcases List.append_eq_append_iff.mp split_eq with
    ⟨made, performed_eq, due_eq⟩ | ⟨unasked, devices_eq, lost_eq⟩
  · rcases List.map_eq_append_iff.mp due_eq with ⟨made, rest, parts_eq, rfl, rfl⟩
    exact ⟨made, rest, parts_eq, performed_eq, rfl⟩
  · rcases ended with rfl | ⟨pulse, last, isLast⟩
    · rcases List.append_eq_nil_iff.mp lost_eq.symm with ⟨rfl, nothingDue⟩
      exact ⟨[], plan.due, rfl, by simpa using devices_eq.symm, nothingDue.symm⟩
    · have asked : Command.deliver pulse last ∈ plan.devices := by
        rw [devices_eq]
        exact List.mem_append_left _ (List.mem_of_getLast? isLast)
      exact absurd asked (plan.deliver_not_mem_devices pulse last)

theorem getLast?_made (isLast : (plan.devices ++ made.map (Command.deliver plan.pulse)).getLast? =
    some (.deliver pulse delivery)) : made.getLast? = some delivery := by
  rw [List.getLast?_append, List.getLast?_map] at isLast
  cases last : made.getLast? with
  | none =>
      rw [last] at isLast
      exact absurd (List.mem_of_getLast? isLast) (plan.deliver_not_mem_devices pulse delivery)
  | some final =>
      rw [last] at isLast
      cases isLast
      rfl

end Plan

namespace Step

/-- What the pulse of a step has to deliver. -/
def due (step : Step) : List Delivery :=
  (step.before.pulsesOf step.report.operation).flatMap step.after.player.playback.deliveries

/-- All that is due is delivered, unless the sink breaks down; then it is at the last delivery that
was made. -/
structure LosesOnlyRest (step : Step) : Prop where
  exists_lost : ∃ lost, step.due = step.report.deliveries ++ lost ∧
    (step.report.result ≠ .panicked → lost = [])
  exists_last : step.report.result = .panicked → ∃ last number,
    step.report.deliveries.getLast? = some last ∧
      step.before.sink.answer number last = .panicked

/-- A step carries out a plan, with the deliveries as far as the sink goes along. -/
structure KeepsTo (step : Step) (plan : Plan) : Prop extends step.LosesOnlyRest where
  player_eq : step.after.player = plan.player
  clock_eq : step.after.clock = plan.devices.foldl ManualClock.take step.before.clock
  commands_eq : step.report.commands =
    plan.devices ++ step.report.deliveries.map (Command.deliver plan.pulse)
  due_eq : step.due = plan.due

/-- The two steps differ at most in what was delivered, and in what the sink made of it. -/
structure SameButDeliveries (left right : Step) : Prop where
  operation_eq : left.report.operation = right.report.operation
  playback_eq : left.after.player.playback = right.after.player.playback
  clock_eq : left.after.clock = right.after.clock
  devices_eq : left.report.deviceCommands = right.report.deviceCommands
  commands_eq : left.report.result ≠ .panicked → right.report.result ≠ .panicked →
    left.report.commands = right.report.commands

namespace KeepsTo

variable {left right step : Step} {plan : Plan}

theorem deviceCommands_eq (keeps : step.KeepsTo plan) :
    step.report.deviceCommands = plan.devices := by
  have asked : plan.devices.filter (fun command => command.delivery? = none) = plan.devices := by
    simpa using List.filterMap_eq_nil_iff.mp plan.devices_quiet
  have delivered : (step.report.deliveries.map (Command.deliver plan.pulse)).filter
      (fun command => command.delivery? = none) = [] := by
    simp [Command.delivery?]
  rw [Report.deviceCommands, keeps.commands_eq, List.filter_append, asked, delivered,
    List.append_nil]

theorem commands_eq_of_ne_panicked (keeps : step.KeepsTo plan)
    (survived : step.report.result ≠ .panicked) : step.report.commands = plan.commands := by
  rcases keeps.exists_lost with ⟨lost, due_eq, complete⟩
  rw [complete survived, List.append_nil, keeps.due_eq] at due_eq
  rw [keeps.commands_eq, ← due_eq, Plan.commands]

/-- Steps with the same plan show the same to everything but the sink. -/
theorem sameButDeliveries (leftKeeps : left.KeepsTo plan) (rightKeeps : right.KeepsTo plan)
    (operation_eq : left.report.operation = right.report.operation)
    (clock_eq : left.before.clock = right.before.clock) : left.SameButDeliveries right := by
  refine ⟨operation_eq, ?_, ?_, ?_, ?_⟩
  · rw [leftKeeps.player_eq, rightKeeps.player_eq]
  · rw [leftKeeps.clock_eq, rightKeeps.clock_eq, clock_eq]
  · rw [leftKeeps.deviceCommands_eq, rightKeeps.deviceCommands_eq]
  · intro leftSurvived rightSurvived
    rw [leftKeeps.commands_eq_of_ne_panicked leftSurvived,
      rightKeeps.commands_eq_of_ne_panicked rightSurvived]

end KeepsTo

end Step

namespace Rig

variable {rig : Rig} {operation : Operation} {pulse : Nat}

@[simp]
theorem clock_perform (rig : Rig) (command : Command) :
    (rig.perform command).1.clock = rig.clock.take command := by
  cases command with
  | deliver pulse delivery =>
      simp only [perform]
      split <;> rfl
  | _ => rfl

@[simp]
theorem commands_perform (rig : Rig) (command : Command) :
    (rig.perform command).2.1.filterMap Event.command? = [command] := by
  cases command with
  | deliver pulse delivery =>
      simp only [perform]
      split <;> rfl
  | _ => rfl

theorem exists_delivery_of_perform {command : Command}
    (broken : (rig.perform command).2.2 = false) : ∃ pulse delivery number,
      command = .deliver pulse delivery ∧ rig.sink.answer number delivery = .panicked := by
  cases command with
  | deliver pulse delivery =>
      simp only [perform] at broken
      split at broken
      · cases broken
      · cases broken
      · rename_i answer
        exact ⟨pulse, delivery, rig.delivered, rfl, answer⟩
  | _ => cases broken

/-- Commands are carried out in order, all of them or up to a delivery at which the sink breaks
down. -/
theorem performAll_cut (rig : Rig) (commands : List Command) :
    let outcome := rig.performAll commands
    let performed := outcome.2.1.filterMap Event.command?
    outcome.1.clock = performed.foldl ManualClock.take rig.clock ∧
      ∃ lost, commands = performed ++ lost ∧ (outcome.2.2 = true → lost = []) ∧
        (outcome.2.2 = false → ∃ pulse last number,
          performed.getLast? = some (.deliver pulse last) ∧
            rig.sink.answer number last = .panicked) := by
  induction commands generalizing rig with
  | nil => exact ⟨rfl, [], rfl, fun _ => rfl, by simp [performAll]⟩
  | cons command rest ih =>
      intro outcome performed
      simp only [performed, outcome, performAll]
      split
      · rcases ih (rig.perform command).1 with ⟨clock_eq, lost, split_eq, complete, broken⟩
        simp only [List.filterMap_append, commands_perform, List.cons_append, List.nil_append,
          List.foldl_cons]
        refine ⟨by simpa using clock_eq, lost, congrArg (command :: ·) split_eq, complete, ?_⟩
        intro broke
        rcases broken broke with ⟨pulse, last, number, isLast, answer⟩
        refine ⟨pulse, last, number, ?_, by simpa using answer⟩
        simp [List.getLast?_cons, isLast]
      · rename_i broke
        rcases exists_delivery_of_perform (Bool.eq_false_iff.mpr broke) with
          ⟨pulse, delivery, number, rfl, answer⟩
        refine ⟨by simp, rest, by simp, by simp, ?_⟩
        intro _
        exact ⟨pulse, delivery, number, by simp, answer⟩

theorem played_singleton (rig : Rig) (pulse : Nat) : rig.played [pulse] = [pulse] := by
  simp [played]

theorem playPulses_singleton (rig : Rig) (pulse : Nat) :
    rig.playPulses [pulse] = rig.follow (rig.player.pulse pulse) := by
  simp only [playPulses]
  cases survived : (rig.follow (rig.player.pulse pulse)).2.2 with
  | true => simp [← survived]
  | false => simp [← survived]

theorem pulsesOf_single (rig : Rig) (single : operation.Single) :
    rig.pulsesOf operation = [] ∨ ∃ pulse, rig.pulsesOf operation = [pulse] := by
  cases operation with
  | pulses numbers =>
      rcases single with ⟨number, rfl⟩
      exact Or.inr ⟨number, rig.played_singleton number⟩
  | tick pulse =>
      simp only [pulsesOf]
      split
      · exact Or.inr ⟨pulse, rig.played_singleton pulse⟩
      · exact Or.inl rfl
  | _ => exact Or.inl rfl

theorem run_of_pulse (single : operation.Single) (played_eq : rig.pulsesOf operation = [pulse]) :
    rig.run operation =
      ((rig.follow (rig.player.pulse pulse)).1, (rig.follow (rig.player.pulse pulse)).2.1,
        resultOf (rig.follow (rig.player.pulse pulse)).2.2) := by
  rw [← playPulses_singleton]
  cases operation with
  | pulses numbers =>
      rcases single with ⟨number, rfl⟩
      simp only [pulsesOf, played_singleton] at played_eq
      cases played_eq
      rfl
  | tick number =>
      simp only [pulsesOf, played_singleton] at played_eq
      split at played_eq
      · rename_i hasHandler
        cases played_eq
        simp [run, hasHandler]
      · cases played_eq
  | _ => cases played_eq

/-- A sink can break down only when the clock and the click track have been asked everything. -/
theorem follow_plan (rig : Rig) (plan : Plan) :
    let outcome := rig.follow plan.change
    outcome.1.clock = plan.devices.foldl ManualClock.take rig.clock ∧
      ∃ made lost, plan.due = made ++ lost ∧
        outcome.2.1.filterMap Event.command? =
          plan.devices ++ made.map (Command.deliver plan.pulse) ∧
        (outcome.2.2 = true → lost = []) ∧
        (outcome.2.2 = false → ∃ last number,
          made.getLast? = some last ∧ rig.sink.answer number last = .panicked) := by
  intro outcome
  rcases ({ rig with player := plan.player } : Rig).performAll_cut plan.commands with
    ⟨clock_eq, lost, split_eq, complete, broken⟩
  change outcome.1.clock = (outcome.2.1.filterMap Event.command?).foldl _ rig.clock at clock_eq
  change plan.commands = outcome.2.1.filterMap Event.command? ++ lost at split_eq
  have ended : lost = [] ∨ ∃ pulse last,
      (outcome.2.1.filterMap Event.command?).getLast? = some (.deliver pulse last) := by
    cases survived : outcome.2.2 with
    | true => exact Or.inl (complete survived)
    | false =>
        rcases broken survived with ⟨pulse, last, _, isLast, _⟩
        exact Or.inr ⟨pulse, last, isLast⟩
  rcases plan.exists_made split_eq ended with ⟨made, rest, due_eq, performed_eq, rfl⟩
  refine ⟨?_, made, rest, due_eq, performed_eq, ?_, ?_⟩
  · rw [clock_eq, performed_eq, List.foldl_append,
      ManualClock.foldl_take_deliveries]
  · intro survived
    simpa using complete survived
  · intro broke
    rcases broken broke with ⟨pulse, last, number, isLast, answer⟩
    change (outcome.2.1.filterMap Event.command?).getLast? = _ at isLast
    rw [performed_eq] at isLast
    exact ⟨last, number, plan.getLast?_made isLast, answer⟩

theorem keepsTo_of_run {plan : Plan} {change : Player × List Command}
    (change_eq : plan.change = change) (due_eq : (rig.step operation).due = plan.due)
    (run_eq : rig.run operation =
      ((rig.follow change).1, (rig.follow change).2.1, resultOf (rig.follow change).2.2)) :
    (rig.step operation).KeepsTo plan := by
  subst change_eq
  have player_eq := rig.player_follow plan.change
  rcases rig.follow_plan plan with
    ⟨clock_eq, made, lost, split_eq, performed_eq, complete, broken⟩
  generalize rig.follow plan.change = outcome at *
  have commands_eq : (rig.step operation).report.commands =
      plan.devices ++ made.map (Command.deliver plan.pulse) := by
    simp [step, report, Report.commands, run_eq, performed_eq]
  have deliveries_eq : (rig.step operation).report.deliveries = made := by
    rw [Report.deliveries, Event.filterMap_delivery?, ← Report.commands, commands_eq,
      List.filterMap_append, plan.devices_quiet, Command.filterMap_delivery?_map, List.nil_append]
  have result_eq : (rig.step operation).report.result = resultOf outcome.2.2 := by
    simp [step, report, run_eq]
  have after_eq : (rig.step operation).after = outcome.1 := by simp [step, run_eq]
  refine ⟨⟨⟨lost, ?_, ?_⟩, ?_⟩, ?_, ?_, ?_, due_eq⟩
  all_goals simp only [due_eq, after_eq, commands_eq, deliveries_eq, result_eq]
  · exact split_eq
  · intro survived
    apply complete
    exact Bool.eq_true_of_not_eq_false fun broke => survived (by rw [broke]; rfl)
  · intro broke
    apply broken
    exact Bool.eq_false_of_not_eq_true fun survived => by rw [survived] at broke; cases broke
  · exact player_eq
  · exact clock_eq

theorem keepsTo_ofPulse (single : operation.Single)
    (played_eq : rig.pulsesOf operation = [pulse]) :
    (rig.step operation).KeepsTo (.ofPulse rig.player pulse) := by
  have run_eq := run_of_pulse single played_eq
  apply keepsTo_of_run (Plan.change_ofPulse rig.player pulse) _ run_eq
  have after_eq : (rig.run operation).1.player = (rig.player.pulse pulse).1 := by simp [run_eq]
  simp [Step.due, step, report, Plan.ofPulse, played_eq, after_eq]

/-- Without commands there is nothing that the sink could cut short. -/
theorem keepsTo_of_quiet {change : Player × List Command} (nothing : change.2 = [])
    (due_eq : (rig.step operation).due = [])
    (after_eq : (rig.run operation).1 = { rig with player := change.1 })
    (commands_eq : (rig.report operation).commands = [])
    (result_ne : (rig.report operation).result ≠ .panicked) :
    (rig.step operation).KeepsTo (.ofChange change (by simp [nothing])) := by
  have deliveries_eq : (rig.report operation).deliveries = [] := by
    rw [Report.deliveries, Event.filterMap_delivery?, ← Report.commands, commands_eq,
      List.filterMap_nil]
  refine ⟨⟨⟨[], ?_, fun _ => rfl⟩, ?_⟩, ?_, ?_, ?_, due_eq⟩
  · exact due_eq.trans (by simp [step, deliveries_eq])
  all_goals simp only [step, Plan.ofChange, after_eq, commands_eq, deliveries_eq, nothing]
  · intro broke
    exact absurd broke result_ne
  · rfl
  · rfl

theorem deliveries_start (player : Player) :
    player.start.2.filterMap Command.delivery? = [] := by
  simp only [Player.start, List.filterMap_append, Player.deliveries_requestCommands]
  split <;> rfl

/-- An operation comes to the same plan on all rigs that have this player, and a clock that knows or
does not know whom to call. -/
theorem exists_plan (player : Player) (connected : Bool) (single : operation.Single) :
    ∃ plan : Plan, ∀ rig : Rig, rig.player = player → rig.clock.connected = connected →
      (rig.step operation).KeepsTo plan := by
  cases operation with
  | read source =>
      refine ⟨.ofChange ((player.read source).1, []) rfl, ?_⟩
      rintro rig rfl _
      apply keepsTo_of_quiet rfl rfl rfl (rig.run_load rfl).2.1
      simp only [report, run]
      split <;> simp
  | loadFile path contents =>
      refine ⟨.ofChange ((player.loadFile path contents).1, []) rfl, ?_⟩
      rintro rig rfl _
      apply keepsTo_of_quiet rfl rfl rfl (rig.run_load rfl).2.1
      simp only [report, run]
      split <;> simp
  | start =>
      refine ⟨.ofChange player.start (deliveries_start player), ?_⟩
      rintro rig rfl _
      exact keepsTo_of_run (Plan.change_ofChange _) rfl rfl
  | stop =>
      refine ⟨.ofChange player.stop rfl, ?_⟩
      rintro rig rfl _
      exact keepsTo_of_run (Plan.change_ofChange _) rfl rfl
  | setTempo bpm =>
      refine ⟨.ofChange (player.setTempo bpm) (player.deliveries_tempoCommands bpm), ?_⟩
      rintro rig rfl _
      exact keepsTo_of_run (Plan.change_ofChange _) rfl rfl
  | pulses numbers =>
      rcases single with ⟨number, rfl⟩
      refine ⟨.ofPulse player number, ?_⟩
      rintro rig rfl _
      exact keepsTo_ofPulse ⟨number, rfl⟩ (rig.played_singleton number)
  | tick pulse =>
      cases connected with
      | true =>
          refine ⟨.ofPulse player pulse, ?_⟩
          rintro rig rfl hasHandler
          apply keepsTo_ofPulse single
          simp [pulsesOf, hasHandler, played_singleton]
      | false =>
          refine ⟨.ofChange (player, []) rfl, ?_⟩
          rintro rig rfl noHandler
          have run_eq : rig.run (.tick pulse) = (rig, [], .noHandler) := by simp [run, noHandler]
          apply keepsTo_of_quiet rfl
          · simp [Step.due, step, report, pulsesOf, noHandler]
          · simp [run_eq]
          · simp [report, Report.commands, run_eq]
          · simp [report, run_eq]
  | drop =>
      refine ⟨.ofChange player.stop rfl, ?_⟩
      rintro rig rfl _
      exact keepsTo_of_run (Plan.change_ofChange _) rfl rfl

/-- Rigs with the same player and the same clock stay in step. -/
theorem forall₂_steps {left right : Rig} {operations : List Operation}
    (single : ∀ operation ∈ operations, operation.Single) (player_eq : left.player = right.player)
    (clock_eq : left.clock = right.clock) :
    List.Forall₂ Step.SameButDeliveries (left.steps operations) (right.steps operations) := by
  induction operations generalizing left right with
  | nil => exact .nil
  | cons operation rest ih =>
      rcases exists_plan left.player left.clock.connected (single operation List.mem_cons_self)
        with ⟨plan, keeps⟩
      have leftKeeps := keeps left rfl rfl
      have rightKeeps := keeps right player_eq.symm (by rw [clock_eq])
      have same := leftKeeps.sameButDeliveries rightKeeps rfl clock_eq
      refine .cons same (ih ?_ ?_ same.clock_eq)
      · intro later later_mem
        exact single later (List.mem_cons_of_mem _ later_mem)
      · exact leftKeeps.player_eq.trans rightKeeps.player_eq.symm

theorem losesOnlyRest_of_mem_steps {operations : List Operation} {step : Step}
    (single : ∀ operation ∈ operations, operation.Single)
    (step_mem : step ∈ rig.steps operations) :
    step.LosesOnlyRest ∧ step.before.sink = rig.sink := by
  rcases exists_of_mem_steps step_mem with ⟨earlier, operation, later, rfl, rfl⟩
  rcases exists_plan (rig.runAll earlier).1.player (rig.runAll earlier).1.clock.connected
    (single operation (by simp)) with ⟨plan, keeps⟩
  exact ⟨(keeps _ rfl rfl).toLosesOnlyRest, rig.sink_runAll earlier⟩

/-- Two runs of the same operations with different sinks stay in step. After each operation the
scores, the cursors and the clocks are the same, and so is what was asked of the clock and of the
click track. Where neither sink breaks down the deliveries are the same too. A breakdown loses
deliveries of its own pulse only, those after the one at which it happens. -/
theorem steps_sinks (rig : Rig) (left right : Sink) (operations : List Operation) :
    let leftSteps := ({ rig with sink := left } : Rig).steps
      (operations.flatMap Operation.oneByOne)
    let rightSteps := ({ rig with sink := right } : Rig).steps
      (operations.flatMap Operation.oneByOne)
    List.Forall₂ Step.SameButDeliveries leftSteps rightSteps ∧
      (∀ step ∈ leftSteps, step.LosesOnlyRest) ∧
      (left.Survives → right.Survives →
        leftSteps.map (fun step => step.report.commands) =
          rightSteps.map fun step => step.report.commands) := by
  intro leftSteps rightSteps
  have single : ∀ operation ∈ operations.flatMap Operation.oneByOne, operation.Single := by
    intro operation operation_mem
    rcases List.mem_flatMap.mp operation_mem with ⟨batch, _, operation_mem⟩
    exact Operation.single_of_mem_oneByOne operation_mem
  have inStep : List.Forall₂ Step.SameButDeliveries leftSteps rightSteps :=
    forall₂_steps single rfl rfl
  refine ⟨inStep, ?_, ?_⟩
  · intro step step_mem
    exact (losesOnlyRest_of_mem_steps single step_mem).1
  · intro leftSurvives rightSurvives
    have survived {sink : Sink} (survives : sink.Survives) :
        ∀ step ∈ ({ rig with sink } : Rig).steps (operations.flatMap Operation.oneByOne),
          step.report.result ≠ .panicked := by
      intro step step_mem broke
      rcases losesOnlyRest_of_mem_steps single step_mem with ⟨loses, sink_eq⟩
      rcases loses.exists_last broke with ⟨last, number, _, answer⟩
      rw [sink_eq] at answer
      exact survives number last answer
    have leftInStep := (List.forall₂_and_left leftSteps rightSteps).mpr
      ⟨survived leftSurvives, inStep⟩
    have bothInStep := (List.forall₂_and_left rightSteps leftSteps).mpr
      ⟨survived rightSurvives, leftInStep.flip⟩
    rw [← List.forall₂_eq_eq_eq, List.forall₂_map_left_iff, List.forall₂_map_right_iff]
    apply bothInStep.flip.imp
    intro leftStep rightStep inStep
    exact inStep.2.2.commands_eq inStep.2.1 inStep.1

/-- A sink that breaks down at its first delivery misses the second one of that pulse only. -/
example :
    let sink : Sink := ⟨fun number _ => if number = 0 then .panicked else .accepted⟩
    let steps := (fresh .unison none sink).steps
      [.read "instruments X, Y\nc", .start, .pulses [0], .pulses [95]]
    (steps.map fun step => step.report.deliveries.map Delivery.instrument) =
      [[], [], ["X"], ["X", "Y"]] := by
  decide +kernel

end Rig

end LiveScore
