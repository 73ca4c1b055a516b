import LiveScore.Proofs.Player.Cursor
import LiveScore.Proofs.Player.Performance
import LiveScore.Proofs.Player.Sounding

/-!
# Scores that are loaded within a measure

A player does not remember what it has struck. A pulse delivers what the playback in force schedules
there, and a score that is loaded within a measure is in force from the next pulse on, at the place
and in the measure that the cursor had reached. So the release of a note that sounds is lost with
the score that struck it, unless the new one has a release of the same note, for the same
instrument, at a pulse that is still to come.
-/

namespace LiveScore

/-- The delivery of a command at this pulse. -/
def Command.deliveryAt? (pulse : Nat) : Command → Option Delivery
  | .deliver number delivery => if number = pulse then some delivery else none
  | _ => none

theorem Command.filterMap_deliveryAt?_eq_nil {commands : List Command}
    (nothing : commands.filterMap Command.delivery? = []) (pulse : Nat) :
    commands.filterMap (Command.deliveryAt? pulse) = [] := by
  rw [List.filterMap_eq_nil_iff] at nothing ⊢
  intro command command_mem
  have none_eq := nothing command command_mem
  cases command with
  | deliver number delivery => cases none_eq
  | _ => rfl

/-- Everything that a pulse delivers has its number. -/
theorem Player.deliveriesAt_pulse (player : Player) (number pulse : Nat) :
    (player.pulse number).2.filterMap (Command.deliveryAt? pulse) =
      if number = pulse then (player.pulse number).1.playback.deliveries number else [] := by
  have asked (deliveries : List Delivery) :
      (deliveries.map (Command.deliver number)).filterMap (Command.deliveryAt? pulse) =
        if number = pulse then deliveries else [] := by
    rw [List.filterMap_map]
    split <;> simp [Function.comp_def, Command.deliveryAt?, *]
  cases loaded : player.playback.score.isEmpty with
  | true =>
      have silent : (player.pulse number).2 = [] := by
        unfold Player.pulse
        rw [if_pos loaded]
      have nothing := player.deliveries_pulse number
      rw [silent, List.filterMap_nil] at nothing
      rw [silent, ← nothing, ite_self, List.filterMap_nil]
  | false =>
      rw [Player.commands_pulse loaded]
      simp only [List.filterMap_append, asked,
        Command.filterMap_deliveryAt?_eq_nil (player.deliveries_requestCommands _),
        Command.filterMap_deliveryAt?_eq_nil (player.deliveries_clickCommands _), List.nil_append]

/-- The pulses from `first` on, one by one, with other operations before each of them. -/
def interrupted (interludes : Nat → List Operation) (first count : Nat) : List Operation :=
  (List.range' first count).flatMap fun pulse => interludes pulse ++ [.pulses [pulse]]

/-- The operations before these pulses. -/
def interruptions (interludes : Nat → List Operation) (first count : Nat) : List Operation :=
  (List.range' first count).flatMap interludes

theorem interrupted_succ (interludes : Nat → List Operation) (first count : Nat) :
    interrupted interludes first (count + 1) =
      interludes first ++ .pulses [first] :: interrupted interludes (first + 1) count := by
  simp [interrupted, List.range'_succ]

namespace Playback

variable {playback : Playback} {resolver : Resolver} {slot : Slot} {instrument : String}
  {note : Note}

/-- In the measure that a part with the instrument plays, a token that is not held stands for the
note and has this slot. -/
def StrikesFor (playback : Playback) (resolver : Resolver) (slot : Slot) (instrument : String)
    (note : Note) : Prop :=
  ∃ part measure, playback.Plays part measure ∧ instrument ∈ part.instruments ∧
    ∃ legato tokens onsets, measure.CompiledFrom resolver legato tokens onsets ∧
      ∃ onset ∈ onsets, onset.voicing.held = false ∧ note ∈ onset.voicing.notes ∧
        Slot.place onset.index tokens.length legato = slot

/-- The note is struck at the start of the slot and released at its end, which is a later pulse of
the measure, by whatever playback has the token. -/
theorem StrikesFor.calls (strikes : playback.StrikesFor resolver slot instrument note) :
    slot.start < slot.stop ∧ slot.stop ≤ lastPulse ∧
      Calls (playback.deliveries slot.start) true instrument note ∧
      Calls (playback.deliveries slot.stop) false instrument note := by
  rcases strikes with ⟨part, measure, plays, instrument_mem, legato, tokens, onsets, compiled,
    onset, onset_mem, notHeld, note_mem, rfl⟩
  have struck := compiled.strikes_iff.mpr ⟨onset, onset_mem, note_mem, rfl⟩
  have released := compiled.releases_iff.mpr ⟨onset, onset_mem, notHeld, note_mem, rfl⟩
  exact ⟨Slot.start_lt_stop _ _ _, Slot.stop_le_lastPulse _ _ _,
    calls_deliveries_iff.mpr ⟨part, measure, plays, instrument_mem, struck⟩,
    calls_deliveries_iff.mpr ⟨part, measure, plays, instrument_mem, released⟩⟩

/-- Loading the score that plays already changes nothing. -/
theorem Located.load_self (located : playback.Located) :
    playback.load playback.score = playback := by
  rcases located.exists_section with ⟨sect, _, found⟩
  have hasChain := located.playable.chain_ne_nil
  rcases located.named with ⟨name, inChain, _⟩
  have position_lt := (List.getElem?_eq_some_iff.mp inChain).1
  simp [load, sync, hasChain, Nat.mod_eq_of_lt position_lt, found]

/-- Operations that neither start over nor load another score leave the playback alone. -/
theorem Located.foldl_after_eq (located : playback.Located) {operations : List Operation}
    (keep : ∀ operation ∈ operations, operation ≠ .start ∧
      ∀ score ∈ operation.loaded? resolver, score = playback.score) :
    operations.foldl (after resolver) playback = playback := by
  induction operations with
  | nil => rfl
  | cons operation rest ih =>
      rcases keep operation List.mem_cons_self with ⟨notStart, sameScore⟩
      have unchanged : playback.after resolver operation = playback := by
        rw [after_of_ne_start notStart]
        cases loaded : operation.loaded? resolver with
        | none => rfl
        | some score =>
            rw [sameScore score loaded]
            exact located.load_self
      rw [List.foldl_cons, unchanged]
      apply ih
      intro later later_mem
      exact keep later (List.mem_cons_of_mem _ later_mem)

end Playback

namespace Rig

variable {rig : Rig} {operations later : List Operation} {interludes : Nat → List Operation}
  {pulse : Nat}

/-- What a run delivers at the pulses of this number. -/
def deliveredAt (rig : Rig) (operations : List Operation) (pulse : Nat) : List Delivery :=
  ((rig.runAll operations).2.flatMap Report.commands).filterMap (Command.deliveryAt? pulse)

theorem deliveredAt_append :
    rig.deliveredAt (operations ++ later) pulse =
      rig.deliveredAt operations pulse ++ (rig.runAll operations).1.deliveredAt later pulse := by
  simp [deliveredAt, runAll_append]

theorem deliveredAt_silent (survives : rig.sink.Survives)
    (silent : ∀ operation ∈ operations, operation.plays = false) :
    rig.deliveredAt operations pulse = [] := by
  induction operations generalizing rig with
  | nil => rfl
  | cons operation rest ih =>
      have nothing := deliveries_report_of_silent survives (silent operation List.mem_cons_self)
      rw [Report.deliveries, Event.filterMap_delivery?] at nothing
      have first : rig.deliveredAt [operation] pulse = [] := by
        simp only [deliveredAt, runAll, List.flatMap_singleton]
        exact Command.filterMap_deliveryAt?_eq_nil nothing pulse
      rw [← List.singleton_append, deliveredAt_append, first, List.nil_append]
      apply ih (survives.runAll [operation])
      intro later later_mem
      exact silent later (List.mem_cons_of_mem _ later_mem)

/-- A pulse delivers under its own number what the playback that it leaves schedules there. -/
theorem deliveredAt_pulse (survives : rig.sink.Survives) (number : Nat) :
    rig.deliveredAt [.pulses [number]] pulse =
      if number = pulse then (rig.player.pulse number).1.playback.deliveries number else [] := by
  rcases playPulses_cons survives number [] with ⟨next, _, _, _, performed⟩
  have asked : (rig.report (.pulses [number])).commands = (rig.player.pulse number).2 := by
    rw [← List.append_nil (rig.player.pulse number).2]
    exact performed
  simp only [deliveredAt, runAll, List.flatMap_singleton, asked, Player.deliveriesAt_pulse]

theorem player_run_pulse (survives : rig.sink.Survives) (number : Nat) :
    (rig.run (.pulses [number])).1.player = (rig.player.pulse number).1 := by
  rcases playPulses_cons survives number [] with ⟨next, _, player_eq, last_eq, _⟩
  rw [← player_eq]
  exact congrArg Rig.player last_eq

theorem playback_runAll_of_silent (rig : Rig)
    (silent : ∀ operation ∈ operations, operation.plays = false) :
    (rig.runAll operations).1.player.playback =
      operations.foldl (Playback.after rig.player.resolver) rig.player.playback := by
  induction operations generalizing rig with
  | nil => rfl
  | cons operation rest ih =>
      have restSilent : ∀ later ∈ rest, later.plays = false := by
        intro later later_mem
        exact silent later (List.mem_cons_of_mem _ later_mem)
      rw [List.foldl_cons, ← playback_run_of_silent (silent operation List.mem_cons_self),
        ← (rig.run_cases operation).1]
      exact ih _ restSilent

/-- Within a measure a pulse delivers what the playback schedules there that the operations before
it have left. The induction is on the number of pulses. -/
theorem deliveredAt_interrupted {first count : Nat} (survives : rig.sink.Survives)
    (silent : ∀ pulse, ∀ operation ∈ interludes pulse, operation.plays = false)
    (within : first ≠ 0) :
    rig.deliveredAt (interrupted interludes first count) pulse =
      if first ≤ pulse ∧ pulse < first + count then
        ((interruptions interludes first (pulse + 1 - first)).foldl
          (Playback.after rig.player.resolver) rig.player.playback).deliveries pulse
      else [] := by
  induction count generalizing rig first with
  | zero =>
      rw [if_neg (by omega)]
      rfl
  | succ count ih =>
      have reached := survives.runAll (interludes first)
      have left := rig.playback_runAll_of_silent (silent first)
      have sameResolver := (rig.runAll_score (interludes first)).1
      rw [interrupted_succ, deliveredAt_append, deliveredAt_silent survives (silent first),
        List.nil_append]
      generalize (rig.runAll (interludes first)).1 = middle at *
      have unchanged : (middle.runAll [.pulses [first]]).1.player = middle.player := by
        rw [← middle.player.pulse_within within]
        exact player_run_pulse reached first
      have nextSurvives := reached.runAll [.pulses [first]]
      rw [← List.singleton_append, deliveredAt_append, deliveredAt_pulse reached,
        ih nextSurvives (Nat.succ_ne_zero first), unchanged, middle.player.pulse_within within,
        sameResolver, left]
      by_cases same : first = pulse
      · rw [if_pos same, if_neg (by omega), if_pos (by omega), List.append_nil, ← same,
          Nat.add_sub_cancel_left]
        simp [interruptions]
      · have sameRange : first + 1 ≤ pulse ∧ pulse < first + 1 + count ↔
            first ≤ pulse ∧ pulse < first + (count + 1) := by omega
        rw [if_neg same, List.nil_append, ← List.foldl_append]
        simp only [sameRange]
        split
        · rename_i inRange
          have oneMore : pulse + 1 - first = pulse + 1 - (first + 1) + 1 := by omega
          rw [interruptions, interruptions, oneMore, List.range'_succ, List.flatMap_cons]
        · rfl

/-- The playback that the first pulse leaves is in force until the operations after it change it. -/
theorem deliveredAt_pulse_interrupted (survives : rig.sink.Survives)
    (silent : ∀ pulse, ∀ operation ∈ interludes pulse, operation.plays = false)
    (first count : Nat) :
    rig.deliveredAt (.pulses [first] :: interrupted interludes (first + 1) count) pulse =
      (if first = pulse then (rig.player.pulse first).1.playback.deliveries first else []) ++
        if first < pulse ∧ pulse ≤ first + count then
          ((interruptions interludes (first + 1) (pulse - first)).foldl
            (Playback.after rig.player.resolver)
            (rig.player.pulse first).1.playback).deliveries pulse
        else [] := by
  have next_player : (rig.runAll [.pulses [first]]).1.player = (rig.player.pulse first).1 :=
    player_run_pulse survives first
  have nextSurvives := survives.runAll [.pulses [first]]
  have sameRange : first + 1 ≤ pulse ∧ pulse < first + 1 + count ↔
      first < pulse ∧ pulse ≤ first + count := by omega
  have sameCount : pulse + 1 - (first + 1) = pulse - first := by omega
  rw [← List.singleton_append, deliveredAt_append, deliveredAt_pulse survives,
    deliveredAt_interrupted nextSurvives silent (Nat.succ_ne_zero _), next_player,
    Player.resolver_pulse, sameCount]
  simp only [sameRange]

/-- Only a score can play a part, and the cursor stands in it. -/
theorem Placed.located_of_plays {loaded : Bool} {part : Part} {measure : Measure}
    (placed : Placed loaded rig.player.playback)
    (plays : (rig.player.pulse pulse).1.playback.Plays part measure) :
    (rig.player.pulse pulse).1.playback.Located := by
  have moves := Player.moves_pulse rig.player pulse
  cases loaded with
  | true => exact Playback.Located.moves placed moves
  | false =>
      have untouched : rig.player.playback = {} := placed
      rw [untouched] at moves
      rw [Playback.eq_of_moves_untouched moves] at plays
      rcases plays with ⟨sect, playing, _⟩
      cases playing

/-- After a strike for a slot the other pulses of the measure are played, with anything but pulses
before each of them. If until the end of the slot nothing starts over or loads another score, then
the note is released there. In general it is released at a pulse exactly if the playback that the
loads and starts since the strike have left schedules that. A score that was loaded meanwhile plays
at the position of the cursor, as its own chain has it, and in the measure that was entered. -/
theorem released_of_strikesFor {resolver : Resolver} {clickLatency : Option Duration}
    {sink : Sink} {before : List Operation} {slot : Slot} {instrument : String} {note : Note}
    (survives : sink.Survives)
    (silent : ∀ pulse, ∀ operation ∈ interludes pulse, operation.plays = false)
    (strikes : (((fresh resolver clickLatency sink).runAll before).1.player.pulse
      slot.start).1.playback.StrikesFor resolver slot instrument note) :
    let rig := ((fresh resolver clickLatency sink).runAll before).1
    let struck := (rig.player.pulse slot.start).1.playback
    let operations :=
      .pulses [slot.start] :: interrupted interludes (slot.start + 1) (95 - slot.start)
    let since pulse := interruptions interludes (slot.start + 1) (pulse - slot.start)
    slot.start < slot.stop ∧ slot.stop ≤ 95 ∧
      Calls (rig.deliveredAt operations slot.start) true instrument note ∧
      ((∀ operation ∈ since slot.stop, operation ≠ .start ∧
          ∀ score ∈ operation.loaded? resolver, score = struck.score) →
        Calls (rig.deliveredAt operations slot.stop) false instrument note) ∧
      ∀ pulse, slot.start < pulse → pulse ≤ 95 →
        (Calls (rig.deliveredAt operations pulse) false instrument note ↔
          ∃ part measure,
            ((since pulse).foldl (Playback.after resolver) struck).Plays part measure ∧
              instrument ∈ part.instruments ∧ measure.Schedules pulse false note) := by
  intro rig struck operations since
  have freshSurvives : (fresh resolver clickLatency sink).sink.Survives := survives
  have rigSurvives : rig.sink.Survives := freshSurvives.runAll before
  have sameResolver : rig.player.resolver = resolver :=
    ((fresh resolver clickLatency sink).runAll_score before).1
  rcases strikes.calls with ⟨start_lt, stop_le, calls, releases⟩
  have stop_le_95 : slot.stop ≤ 95 := stop_le
  have inForce : ∀ pulse, slot.start < pulse → pulse ≤ 95 →
      rig.deliveredAt operations pulse =
        ((since pulse).foldl (Playback.after resolver) struck).deliveries pulse := by
    intro pulse after inMeasure
    rw [deliveredAt_pulse_interrupted rigSurvives silent, if_neg (by omega), if_pos (by omega),
      List.nil_append, sameResolver]
  refine ⟨start_lt, stop_le_95, ?_, ?_, ?_⟩
  · rw [deliveredAt_pulse_interrupted rigSurvives silent, if_pos rfl, if_neg (by omega),
      List.append_nil]
    exact calls
  · intro keep
    rcases strikes with ⟨part, measure, plays, _⟩
    have start : Placed false (fresh resolver clickLatency sink).player.playback := rfl
    have located := (start.runAll before).located_of_plays plays
    rw [inForce slot.stop start_lt stop_le_95, located.foldl_after_eq keep]
    exact releases
  · intro pulse after inMeasure
    rw [inForce pulse after inMeasure]
    exact Playback.calls_deliveries_iff

/-- One token that takes the whole measure. -/
theorem strikesFor_whole :
    (((fresh .standard none .accepting).runAll [.read "pattern a\ninstruments X\nc",
      .start]).1.player.pulse 0).1.playback.StrikesFor .standard ⟨0, 95⟩ "X" .middleC := by
  have voiced : Onset.Voiced .standard none [⟨"c", 0, ⟨[.middleC], false⟩⟩] :=
    ⟨Voicing.standsFor_of_read (by decide +kernel), trivial⟩
  have compiled : (Measure.ofOnsets 1 100 [⟨"c", 0, ⟨[.middleC], false⟩⟩]).CompiledFrom .standard
      100 ["c"] [⟨"c", 0, ⟨[.middleC], false⟩⟩] := Measure.compiledFrom_ofOnsets rfl voiced 100
  refine ⟨⟨["X"], [Measure.ofOnsets 1 100 [⟨"c", 0, ⟨[.middleC], false⟩⟩]], 100⟩, _,
    ⟨⟨"a", [_], 1, 0⟩, ?_, List.mem_cons_self, ?_⟩, List.mem_cons_self,
    100, ["c"], _, compiled, _, List.mem_cons_self, rfl, List.mem_cons_self, ?_⟩
  all_goals decide +kernel

/-- A text that is no score and the old text once more do not keep the note from being released at
the end of the measure, nor does a tempo. -/
theorem released_of_strikesFor_kept :
    let before : List Operation := [.read "pattern a\ninstruments X\nc", .start]
    let rig := ((fresh .standard none .accepting).runAll before).1
    let interludes := fun pulse : Nat => if pulse = 30 then
      [.read "tempo x", .setTempo 90, .read "pattern a\ninstruments X\nc"] else []
    Sink.accepting.Survives ∧
      (∀ pulse, ∀ operation ∈ interludes pulse, operation.plays = false) ∧
      (rig.player.pulse 0).1.playback.StrikesFor .standard ⟨0, 95⟩ "X" .middleC ∧
      Calls (rig.deliveredAt (.pulses [0] :: interrupted interludes 1 95) 95) false "X"
        .middleC := by
  intro before rig interludes
  have survives : Sink.accepting.Survives := by
    intro number delivery
    exact SinkAnswer.noConfusion
  have silent : ∀ pulse, ∀ operation ∈ interludes pulse, operation.plays = false := by
    intro pulse operation operation_mem
    simp only [interludes] at operation_mem
    split at operation_mem
    · simp only [List.mem_cons, List.not_mem_nil, or_false] at operation_mem
      rcases operation_mem with rfl | rfl | rfl <;> rfl
    · cases operation_mem
  refine ⟨survives, silent, strikesFor_whole, ?_⟩
  have released := (@released_of_strikesFor interludes .standard none .accepting before ⟨0, 95⟩ "X"
    .middleC survives silent strikesFor_whole).2.2.2.1
  apply released
  intro operation operation_mem
  have since_eq : interruptions interludes 1 95 =
      [.read "tempo x", .setTempo 90, .read "pattern a\ninstruments X\nc"] := rfl
  have listed : operation ∈ interruptions interludes 1 95 := operation_mem
  rw [since_eq] at listed
  simp only [List.mem_cons, List.not_mem_nil, or_false] at listed
  rcases listed with rfl | rfl | rfl
  all_goals exact ⟨nofun, by decide +kernel⟩

/-- A rest that is loaded before the last pulse of a measure takes the place of the token that
sounds. All other pulses are played, but nothing releases the note. -/
theorem not_released_after_load :
    let before : List Operation := [.read "pattern a\ninstruments X\nc", .start]
    let rig := ((fresh .standard none .accepting).runAll before).1
    let operations := .pulses [0] :: interrupted (fun pulse =>
      if pulse = 95 then [.read "pattern a\ninstruments X\n."] else []) 1 95
    (rig.player.pulse 0).1.playback.StrikesFor .standard ⟨0, 95⟩ "X" .middleC ∧
      (rig.runAll operations).2.any Report.loads = true ∧
      Calls (rig.log operations) true "X" .middleC ∧
      ¬Calls (rig.log operations) false "X" .middleC := by
  intro before rig operations
  have loaded : (rig.runAll operations).2.any Report.loads = true := by
    decide +kernel
  have log_eq : rig.log operations = [⟨"X", .strike [.middleC]⟩] := by
    decide +kernel
  rw [log_eq]
  refine ⟨strikesFor_whole, loaded, ?_, ?_⟩
  · exact ⟨_, List.mem_cons_self, rfl, rfl⟩
  · rintro ⟨delivery, delivery_mem, _, released⟩
    cases List.mem_singleton.mp delivery_mem
    cases released

end Rig

end LiveScore
