import LiveScore.Proofs.Player.Answers

/-!
# The tempo that is in force

A section tells the clock its tempo when it is entered: by a start, or by the downbeat that leaves
the section before it. Nothing else does, and a load least of all. So the clock keeps the tempo told
last, which is that of the section that plays until a load puts a section with another tempo in its
place. That section has to wait until it is entered.
-/

namespace LiveScore

/-- The tempo that the section that plays asks for, if it asks for one. -/
def Playback.tempo? (playback : Playback) : Option Binary64 :=
  playback.section?.bind tempoRequest

namespace Rig

/-- If the section that plays has a tempo, then the clock has it too. -/
def InTempo (rig : Rig) : Prop :=
  ∀ sect, rig.player.playback.section? = some sect → sect.tempo.isZero = false →
    rig.clock.tempo = sect.tempo

/-- Whether an operation enters a section. -/
def enters (rig : Rig) : Operation → Bool
  | .start => true
  | operation => rig.pulsesOf operation = [0] && rig.player.playback.leavesSection

end Rig

namespace Step

/-- The step tries to load a score. -/
def isLoad (step : Step) : Bool :=
  step.report.operation.isLoad

/-- The step enters a section. -/
def enters (step : Step) : Bool :=
  step.before.enters step.report.operation

/-- The tempo that a step tells the clock by entering a section. -/
def told? (step : Step) : Option Binary64 :=
  if step.enters then step.after.player.playback.tempo? else none

/-- A load has left a section with a tempo that the clock does not have, and after that no section
was entered or loaded. -/
def Overdue (steps : List Step) : Prop :=
  ∃ earlier load since, steps = earlier ++ load :: since ∧
    load.isLoad = true ∧ ¬load.after.InTempo ∧
    ∀ step ∈ since, step.isLoad = false ∧ step.enters = false

theorem overdue_concat {steps : List Step} {last : Step} : Overdue (steps ++ [last]) ↔
    last.isLoad = true ∧ ¬last.after.InTempo ∨
      last.isLoad = false ∧ last.enters = false ∧ Overdue steps := by
  constructor
  · rintro ⟨earlier, load, since, split_eq, isLoad, behind, waits⟩
    rcases List.eq_nil_or_concat' since with rfl | ⟨between, final, rfl⟩
    · rcases List.append_inj' split_eq rfl with ⟨_, last_eq⟩
      cases last_eq
      exact Or.inl ⟨isLoad, behind⟩
    · rw [← List.cons_append, ← List.append_assoc] at split_eq
      rcases List.append_inj' split_eq rfl with ⟨steps_eq, last_eq⟩
      cases last_eq
      rcases waits last (by simp) with ⟨noLoad, stays⟩
      refine Or.inr ⟨noLoad, stays, earlier, load, between, steps_eq, isLoad, behind, ?_⟩
      intro step step_mem
      exact waits step (List.mem_append_left _ step_mem)
  · rintro (⟨isLoad, behind⟩ | ⟨noLoad, stays, earlier, load, since, rfl, isLoad, behind, waits⟩)
    · exact ⟨steps, last, [], rfl, isLoad, behind, List.forall_mem_nil _⟩
    · refine ⟨earlier, load, since ++ [last], by simp, isLoad, behind, ?_⟩
      intro step step_mem
      rcases List.mem_append.mp step_mem with between | isLast
      · exact waits step between
      · cases List.mem_singleton.mp isLast
        exact ⟨noLoad, stays⟩

end Step

namespace Playback

variable {playback : Playback}

/-- A downbeat asks for the tempo of the section that it enters. -/
theorem downbeatTempo_eq (playback : Playback) :
    playback.downbeatTempo =
      if playback.leavesSection then playback.downbeat.tempo? else none := by
  unfold downbeatTempo downbeat
  split
  · split
    · rename_i noScore
      have noSections : playback.score.sections = [] := by simpa [Score.isEmpty] using noScore
      simp [tempo?, section?, noSections]
    · rfl
  · rfl

/-- A downbeat that does not leave the section changes its measure only. -/
theorem section?_downbeat (stays : playback.leavesSection = false) :
    playback.downbeat.section? = playback.section? := by
  unfold downbeat
  split
  · rfl
  · unfold leavesSection at stays
    unfold nextMeasure
    cases entered : playback.cursor.measure with
    | none => rfl
    | some measure =>
        rw [entered] at stays
        simp only [of_decide_eq_false stays, if_false]
        rfl

/-- A start asks for the tempo of the section at which it puts the cursor. -/
theorem openingTempo_rewind (playable : playback.score.Playable) :
    playback.rewind.openingTempo = playback.rewind.tempo? := by
  have top := atTop_rewind playable
  rcases top.located.exists_section with ⟨sect, playing, found⟩
  rw [top.position_eq] at found
  rw [openingTempo, found, tempo?, playing]
  rfl

end Playback

namespace Player

variable {player : Player}

theorem tempo_requestCommands (player : Player) (request : Option Binary64) (clock : ManualClock) :
    ((player.requestCommands request).foldl ManualClock.take clock).tempo =
      request.getD clock.tempo := by
  cases request with
  | none => rfl
  | some bpm =>
      simp only [requestCommands, tempoCommands]
      split <;> rfl

theorem foldl_take_clickCommands (player : Player) (pulse : Nat) (clock : ManualClock) :
    (player.clickCommands pulse).foldl ManualClock.take clock = clock := by
  unfold clickCommands
  split
  · split <;> rfl
  · rfl

/-- The devices are asked for the tempo of a section that the pulse enters. -/
theorem tempo_deviceCommands (player : Player) (pulse : Nat) (clock : ManualClock) :
    ((player.deviceCommands pulse).foldl ManualClock.take clock).tempo =
      (if pulse = 0 then player.playback.downbeatTempo else none).getD clock.tempo := by
  unfold deviceCommands
  split
  · rename_i noScore
    have noSections : player.playback.score.sections = [] := by simpa [Score.isEmpty] using noScore
    have nothing : player.playback.downbeatTempo = none := by
      simp [Playback.downbeatTempo_eq, Playback.downbeat, Playback.tempo?, Playback.section?,
        Score.isEmpty, noSections]
    simp [nothing]
  · rw [List.foldl_append, foldl_take_clickCommands, tempo_requestCommands]

end Player

namespace Rig

variable {rig : Rig} {operation : Operation} {operations : List Operation} {pulse : Nat}

theorem inTempo_iff : rig.InTempo ↔ ∀ bpm ∈ rig.player.playback.tempo?, rig.clock.tempo = bpm := by
  unfold InTempo Playback.tempo? Playback.tempoRequest
  cases rig.player.playback.section? with
  | none => simp
  | some sect => cases asks : sect.tempo.isZero <;> simp [asks]

instance : Decidable rig.InTempo :=
  decidable_of_iff _ inTempo_iff.symm

theorem told?_of_not_enters (stays : rig.enters operation = false) :
    (rig.step operation).told? = none := by
  simp [Step.told?, Step.enters, step, report, stays]

theorem enters_of_pulse (played_eq : rig.pulsesOf operation = [pulse]) :
    rig.enters operation = (pulse = 0 && rig.player.playback.leavesSection) := by
  cases operation with
  | start => cases played_eq
  | _ => simp [enters, played_eq]

theorem tempo_run_pulse (single : operation.Single)
    (played_eq : rig.pulsesOf operation = [pulse]) :
    (rig.run operation).1.clock.tempo = (rig.step operation).told?.getD rig.clock.tempo := by
  have keeps := keepsTo_ofPulse single played_eq
  have player_eq : (rig.run operation).1.player = (rig.player.pulse pulse).1 := keeps.player_eq
  have clock_eq : (rig.run operation).1.clock =
      (rig.player.deviceCommands pulse).foldl ManualClock.take rig.clock := keeps.clock_eq
  have told_eq : (rig.step operation).told? =
      if pulse = 0 then rig.player.playback.downbeatTempo else none := by
    simp only [Step.told?, Step.enters, step, report, enters_of_pulse played_eq, player_eq,
      Player.playback_pulse]
    by_cases first : pulse = 0
    · simp [first, Playback.downbeatTempo_eq]
    · simp [first]
  rw [clock_eq, Player.tempo_deviceCommands, told_eq]

theorem tempo_run_start (reachable : rig.Reachable) :
    (rig.run .start).1.clock.tempo = (rig.step .start).told?.getD rig.clock.tempo := by
  have keeps : (rig.step .start).KeepsTo (.ofChange rig.player.start (deliveries_start _)) :=
    keepsTo_of_run (Plan.change_ofChange _) rfl rfl
  have clock_eq : (rig.run .start).1.clock =
      rig.player.start.2.foldl ManualClock.take rig.clock := keeps.clock_eq
  have told_eq : (rig.step .start).told? = rig.player.playback.rewind.tempo? := by
    simp only [Step.told?, Step.enters, step, report, enters, if_true, run, player_follow,
      Player.start]
  have opening_eq : rig.player.playback.rewind.openingTempo =
      rig.player.playback.rewind.tempo? := by
    rcases reachable.located_or_untouched with located | untouched
    · exact Playback.openingTempo_rewind located.playable
    · rw [untouched]
      rfl
  rw [clock_eq, told_eq, ← opening_eq]
  simp only [Player.start, List.foldl_append]
  split <;> simp [ManualClock.take, Player.tempo_requestCommands]

/-- The clock has the tempo that the operation tells it, or else the one from before. -/
theorem tempo_run (reachable : rig.Reachable) (single : operation.Single)
    (noTempo : ∀ bpm, operation ≠ .setTempo bpm) :
    (rig.run operation).1.clock.tempo = (rig.step operation).told?.getD rig.clock.tempo := by
  rcases rig.pulsesOf_single single with silent | ⟨pulse, played_eq⟩
  · cases operation with
    | start => exact tempo_run_start reachable
    | setTempo bpm => exact absurd rfl (noTempo bpm)
    | pulses numbers =>
        rcases single with ⟨number, rfl⟩
        cases (rig.played_singleton number).symm.trans silent
    | tick pulse =>
        have noHandler : rig.clock.connected = false := by
          simpa [pulsesOf, played_singleton] using silent
        rw [told?_of_not_enters (by simp [enters, silent])]
        simp [run, noHandler]
    | read source =>
        rw [told?_of_not_enters rfl, (rig.run_load rfl).1]
        rfl
    | loadFile path contents =>
        rw [told?_of_not_enters rfl, (rig.run_load rfl).1]
        rfl
    | _ =>
        rw [told?_of_not_enters rfl]
        rfl
  · exact tempo_run_pulse single played_eq

/-- What neither enters a section nor loads a score leaves the tempo that is asked for. -/
theorem tempo?_run (single : operation.Single) (stays : rig.enters operation = false)
    (noLoad : operation.isLoad = false) :
    (rig.run operation).1.player.playback.tempo? = rig.player.playback.tempo? := by
  have notStart : operation ≠ .start := by
    rintro rfl
    cases stays
  have noText : operation.text? = none := by
    cases operation <;> first | rfl | cases noLoad
  rw [(playback_run_of_keepsPlace (.of_text?_eq_none notStart noText)).2]
  rcases rig.pulsesOf_single single with silent | ⟨pulse, played_eq⟩
  · rw [silent]
    rfl
  · rw [played_eq, List.count_singleton]
    by_cases first : pulse = 0
    · have sameSection : rig.player.playback.leavesSection = false := by
        simpa [enters_of_pulse played_eq, first] using stays
      simp [first, Playback.tempo?, Playback.section?_downbeat sameSection]
    · simp [first]

theorem inTempo_run_of_enters (reachable : rig.Reachable) (single : operation.Single)
    (enters : rig.enters operation = true) : (rig.run operation).1.InTempo := by
  have noTempo : ∀ bpm, operation ≠ .setTempo bpm := by
    rintro bpm rfl
    cases enters
  have told_eq : (rig.step operation).told? =
      (rig.run operation).1.player.playback.tempo? := if_pos enters
  rw [inTempo_iff]
  intro bpm asked
  rw [tempo_run reachable single noTempo, told_eq, asked]
  rfl

theorem inTempo_run_iff (reachable : rig.Reachable) (single : operation.Single)
    (noTempo : ∀ bpm, operation ≠ .setTempo bpm) (noLoad : operation.isLoad = false)
    (stays : rig.enters operation = false) : (rig.run operation).1.InTempo ↔ rig.InTempo := by
  rw [inTempo_iff, inTempo_iff, tempo?_run single stays noLoad, tempo_run reachable single noTempo,
    told?_of_not_enters stays]
  rfl

/-- The clock has the tempo that was told last. -/
theorem tempo_runAll (reachable : rig.Reachable)
    (single : ∀ operation ∈ operations, operation.Single)
    (noTempo : ∀ operation ∈ operations, ∀ bpm, operation ≠ .setTempo bpm) :
    (rig.runAll operations).1.clock.tempo =
      ((rig.steps operations).filterMap Step.told?).getLast?.getD rig.clock.tempo := by
  induction operations generalizing rig with
  | nil => rfl
  | cons operation rest ih =>
      rcases List.forall_mem_cons.mp single with ⟨firstSingle, restSingle⟩
      rcases List.forall_mem_cons.mp noTempo with ⟨firstNoTempo, restNoTempo⟩
      have first := tempo_run reachable firstSingle firstNoTempo
      have last := ih (reachable.run operation) restSingle restNoTempo
      rw [first] at last
      simp only [runAll, steps, List.filterMap_cons, last]
      cases (rig.step operation).told? with
      | none => rfl
      | some bpm => simp [List.getLast?_cons]

theorem inTempo_runAll_of_start (reachable : rig.Reachable)
    (single : ∀ operation ∈ operations, operation.Single)
    (noTempo : ∀ operation ∈ operations, ∀ bpm, operation ≠ .setTempo bpm)
    (started : .start ∈ operations) :
    (rig.runAll operations).1.InTempo ↔ ¬Step.Overdue (rig.steps operations) := by
  -- From the end of the run: the last operation decides, or else what was before it stands.
  induction operations using List.reverseRecOn with
  | nil => cases started
  | append_singleton operations operation ih =>
      rcases List.forall_mem_append.mp single with ⟨restSingle, lastSingle⟩
      rcases List.forall_mem_append.mp noTempo with ⟨restNoTempo, lastNoTempo⟩
      have here := reachable.runAll operations
      have operationSingle := lastSingle operation (List.mem_singleton.mpr rfl)
      have operationNoTempo := lastNoTempo operation (List.mem_singleton.mpr rfl)
      have steps_eq : rig.steps (operations ++ [operation]) =
          rig.steps operations ++ [(rig.runAll operations).1.step operation] :=
        rig.steps_append operations [operation]
      rw [runAll_concat, steps_eq, Step.overdue_concat]
      generalize (rig.runAll operations).1 = reached at *
      cases isLoad : operation.isLoad with
      | true => simp [step, report, Step.isLoad, isLoad]
      | false =>
          cases enters : reached.enters operation with
          | true =>
              have inTempo := inTempo_run_of_enters here operationSingle enters
              simp [step, report, Step.isLoad, Step.enters, isLoad, enters, inTempo]
          | false =>
              have startedBefore : .start ∈ operations := by
                rcases List.mem_append.mp started with before | isLast
                · exact before
                · cases List.mem_singleton.mp isLast
                  cases enters
              have same := inTempo_run_iff here operationSingle operationNoTempo isLoad enters
              have before := ih restSingle restNoTempo startedBefore
              simpa [step, report, Step.isLoad, Step.enters, isLoad, enters] using same.trans before

/-- In a run whose pulses are played one by one and whose tempo is not set from outside, the clock
has the tempo that was told last, by a section that was entered and has a tempo. So once the rig was
started, the clock has the tempo of the section that plays, if it has one, except as long as a
section with another tempo, which a load has put there, waits to be entered. -/
theorem tempo_in_force (reachable : rig.Reachable)
    (single : ∀ operation ∈ operations, operation.Single)
    (noTempo : ∀ operation ∈ operations, ∀ bpm, operation ≠ .setTempo bpm) :
    (rig.runAll operations).1.clock.tempo =
        ((rig.steps operations).filterMap Step.told?).getLast?.getD rig.clock.tempo ∧
      (.start ∈ operations →
        ((rig.runAll operations).1.InTempo ↔ ¬Step.Overdue (rig.steps operations))) :=
  ⟨tempo_runAll reachable single noTempo, inTempo_runAll_of_start reachable single noTempo⟩

/-- A load gives the section that plays another tempo, which the clock is not told. The downbeat
after it leaves the section, and the next one has its tempo from the start. -/
theorem tempo_in_force_after_downbeat :
    let rig := fresh .unison none .accepting
    let loaded : List Operation := [
      .read "pattern a\ntempo 100\ninstruments X\nc\npattern b\ntempo 150\ninstruments X\nd",
      .start, .pulses [0],
      .read "pattern a\ntempo 200\ninstruments X\nc\npattern b\ntempo 150\ninstruments X\nd"]
    let operations := loaded ++ [.pulses [0]]
    rig.Reachable ∧ (∀ operation ∈ operations, operation.Single) ∧
      (∀ operation ∈ operations, ∀ bpm, operation ≠ .setTempo bpm) ∧ .start ∈ operations ∧
      Step.Overdue (rig.steps loaded) ∧ ¬Step.Overdue (rig.steps operations) ∧
      (rig.runAll operations).1.InTempo := by
  intro rig loaded operations
  have reachable : rig.Reachable := ⟨_, _, _, [], rfl⟩
  have single : ∀ operation ∈ operations, operation.Single := by
    simp [operations, loaded, Operation.Single]
  have noTempo : ∀ operation ∈ operations, ∀ bpm, operation ≠ .setTempo bpm := by
    simp [operations, loaded]
  have started : .start ∈ operations := by
    simp [operations, loaded]
  have overdue : Step.Overdue (rig.steps loaded) := by
    refine ⟨rig.steps (loaded.take 3), _, [], rfl, rfl, ?_, List.forall_mem_nil _⟩
    decide +kernel
  have inTempo : (rig.runAll operations).1.InTempo := by
    decide +kernel
  have settled := (tempo_in_force reachable single noTempo).2 started
  exact ⟨reachable, single, noTempo, started, overdue, settled.mp inTempo, inTempo⟩

/-- A downbeat that stays in its section does not tell the clock the tempo that a load gave it. -/
theorem not_inTempo_of_reload :
    ¬((fresh .standard none .accepting).runAll [
      .read "pattern a\ntempo 100\ninstruments X\nc\nc", .start, .pulses [0],
      .read "pattern a\ntempo 150\ninstruments X\nc\nc", .pulses [0]]).1.InTempo := by
  decide +kernel

end Rig

end LiveScore
