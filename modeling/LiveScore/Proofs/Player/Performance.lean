import LiveScore.Proofs.Player.Cursor
import LiveScore.Proofs.Player.Delivery
import LiveScore.Proofs.Score.WellFormed
import Mathlib.Data.Multiset.Bind

/-!
# What a complete measure plays

In a measure of a section every part that has measures repeats one of its own, and seats each of
its instruments before it. A seat calls at each pulse what its measure has there: the notes to
release and then the notes to strike. A complete measure is nothing but these calls, pulse by pulse
and seat by seat, with a click before those of every quarter note.

The pulses of a measure meet each entry of a timetable once, because its pulses ascend and all lie
in the measure. So a seat calls the notes of its measure, each as often as they stand there.
-/

namespace LiveScore

/-- The notes that a measure strikes at a pulse, or releases if `on` is false, in the order of its
batch. -/
def Measure.notesAt (measure : Measure) (on : Bool) (pulse : Nat) : List Note :=
  (((measure.timetable.at? pulse).getD []).filter fun event => event.on = on).flatMap
    ChordEvent.notes

/-- All notes that a measure strikes, or releases if `on` is false. -/
def Measure.notes (measure : Measure) (on : Bool) : List Note :=
  measure.timetable.flatMap fun entry =>
    (entry.2.filter fun event => event.on = on).flatMap ChordEvent.notes

/-- An instrument of a part before a measure of the part. -/
structure Seat where
  instrument : String
  measure : Measure
deriving DecidableEq

namespace Seat

/-- One polarity of what a seat calls at a pulse; notes that are none are not called. -/
def call (seat : Seat) (on : Bool) (pulse : Nat) : List Delivery :=
  if seat.measure.notesAt on pulse = [] then []
  else [⟨seat.instrument, ⟨on, seat.measure.notesAt on pulse⟩⟩]

/-- What a seat has to be told at a pulse: first what ends, then what begins. -/
def calls (seat : Seat) (pulse : Nat) : List Delivery :=
  seat.call false pulse ++ seat.call true pulse

end Seat

/-- The seats of a part in a measure of its section; a part without measures has none. -/
def Part.seats (part : Part) (sectionMeasure : Nat) : List Seat :=
  match part.measures[sectionMeasure % part.measures.length]? with
  | none => []
  | some measure => part.instruments.map fun instrument => ⟨instrument, measure⟩

/-- The seats of all parts in a measure of their section, in order. -/
def Section.seats (sect : Section) (sectionMeasure : Nat) : List Seat :=
  sect.parts.flatMap fun part => part.seats sectionMeasure

/-- What the seats of a section call at a pulse, seat by seat. -/
def Section.calls (sect : Section) (sectionMeasure pulse : Nat) : List Delivery :=
  (sect.seats sectionMeasure).flatMap fun seat => seat.calls pulse

/-- The notes that some deliveries strike on an instrument, or release if `on` is false. -/
def notesCalled (on : Bool) (instrument : String) (log : List Delivery) : List Note :=
  (log.filter fun delivery => delivery.instrument = instrument ∧ delivery.event.on = on).flatMap
    fun delivery => delivery.event.notes

theorem Section.WellFormed.seats {sect : Section} {sectionMeasure : Nat}
    (wellFormed : sect.WellFormed) :
    ∀ seat ∈ sect.seats sectionMeasure, seat.measure.WellFormed := by
  intro seat seat_mem
  rcases List.mem_flatMap.mp seat_mem with ⟨part, part_mem, seat_mem⟩
  unfold Part.seats at seat_mem
  split at seat_mem
  · cases seat_mem
  · rename_i measure found
    rcases List.mem_map.mp seat_mem with ⟨instrument, _, rfl⟩
    exact (wellFormed.parts part part_mem).measures measure (List.mem_of_getElem? found)

section Timetable

variable {α : Type} {timetable : Timetable} {start count : Nat}

/-- Going through the pulses of a range meets the entries of a timetable in it one by one. The
induction is on the length of the range; its first pulse is that of the first entry or lies before
all of them. -/
theorem Timetable.flatMap_at? (ordered : timetable.Ordered)
    (within : ∀ entry ∈ timetable, start ≤ entry.1 ∧ entry.1 < start + count)
    (f : List ChordEvent → List α) (f_nil : f [] = []) :
    (List.range' start count).flatMap (fun pulse => f ((timetable.at? pulse).getD [])) =
      timetable.flatMap fun entry => f entry.2 := by
  induction count generalizing start timetable with
  | zero =>
      cases timetable with
      | nil => rfl
      | cons first rest =>
          have bounds := within first List.mem_cons_self
          omega
  | succ count ih =>
      rw [List.range'_succ, List.flatMap_cons]
      cases timetable with
      | nil => simp [f_nil]
      | cons first rest =>
          rcases List.pairwise_cons.mp ordered with ⟨first_lt, rest_ordered⟩
          by_cases atStart : first.1 = start
          · have restWithin : ∀ entry ∈ rest,
                start + 1 ≤ entry.1 ∧ entry.1 < start + 1 + count := by
              intro entry entry_mem
              have after := first_lt entry entry_mem
              have bounds := within entry (List.mem_cons_of_mem _ entry_mem)
              omega
            rw [List.flatMap_cons, ← ih rest_ordered restWithin]
            congr 1
            · rw [Timetable.at?_cons, if_pos atStart.symm, Option.getD_some]
            · refine List.flatMap_congr ?_
              intro pulse pulse_mem
              have later := (List.mem_range'_1.mp pulse_mem).1
              rw [Timetable.at?_cons, if_neg (by omega)]
          · have allWithin : ∀ entry ∈ first :: rest,
                start + 1 ≤ entry.1 ∧ entry.1 < start + 1 + count := by
              intro entry entry_mem
              have bounds := within entry entry_mem
              have firstBounds := within first List.mem_cons_self
              rcases List.mem_cons.mp entry_mem with rfl | later
              · omega
              · have after := first_lt entry later
                omega
            rw [← ih ordered allWithin, Timetable.at?_eq_none_of_lt, Option.getD_none, f_nil,
              List.nil_append]
            intro entry entry_mem
            exact (allWithin entry entry_mem).1

end Timetable

section Seats

variable {on : Bool} {instrument : String}

theorem Seat.notesCalled_calls (seat : Seat) (pulse : Nat) :
    notesCalled on instrument (seat.calls pulse) =
      if seat.instrument = instrument then seat.measure.notesAt on pulse else [] := by
  unfold notesCalled Seat.calls Seat.call
  cases on <;> split <;> split <;> split <;> simp_all

theorem notesCalled_append (log later : List Delivery) :
    notesCalled on instrument (log ++ later) =
      notesCalled on instrument log ++ notesCalled on instrument later := by
  simp only [notesCalled, List.filter_append, List.flatMap_append]

theorem notesCalled_flatMap {α : Type} (items : List α) (log : α → List Delivery) :
    notesCalled on instrument (items.flatMap log) =
      items.flatMap fun item => notesCalled on instrument (log item) := by
  simp only [notesCalled, List.filter_flatMap, List.flatMap_assoc]

/-- Over a complete measure a seat calls all notes of its measure, in their order. -/
theorem Seat.notesCalled_measure (seat : Seat) (on : Bool) (instrument : String)
    (wellFormed : seat.measure.WellFormed) :
    notesCalled on instrument ((List.range pulsesPerMeasure).flatMap seat.calls) =
      if seat.instrument = instrument then seat.measure.notes on else [] := by
  simp only [notesCalled_flatMap, Seat.notesCalled_calls]
  split
  · rw [List.range_eq_range']
    refine Timetable.flatMap_at? wellFormed.ordered ?_
      (fun batch => (batch.filter fun event => event.on = on).flatMap ChordEvent.notes) rfl
    intro entry entry_mem
    have bound := wellFormed.pulse_le entry entry_mem
    have length_eq : pulsesPerMeasure = 96 := rfl
    omega
  · simp

theorem perm_flatMap_comm {α β γ : Type} (items : List α) (others : List β)
    (f : α → β → List γ) :
    (items.flatMap fun item => others.flatMap (f item)).Perm
      (others.flatMap fun other => items.flatMap fun item => f item other) := by
  apply Multiset.coe_eq_coe.mp
  have swapped : (items : Multiset α).bind (fun item => (others : Multiset β).bind fun other =>
      (f item other : Multiset γ)) = (others : Multiset β).bind fun other =>
        (items : Multiset α).bind fun item => (f item other : Multiset γ) :=
    Multiset.bind_bind _ _
  simpa only [Multiset.coe_bind] using swapped

/-- The seats of an instrument together call the notes of their measures. -/
theorem notesCalled_seats_perm {seats : List Seat}
    (wellFormed : ∀ seat ∈ seats, seat.measure.WellFormed) :
    (notesCalled on instrument ((List.range pulsesPerMeasure).flatMap fun pulse =>
        seats.flatMap fun seat => seat.calls pulse)).Perm
      ((seats.filter fun seat => seat.instrument = instrument).flatMap fun seat =>
        seat.measure.notes on) := by
  simp only [notesCalled_flatMap]
  refine (perm_flatMap_comm _ _ _).trans (List.Perm.of_eq ?_)
  simp only [← notesCalled_flatMap]
  induction seats with
  | nil => rfl
  | cons seat rest ih =>
      have restWellFormed : ∀ other ∈ rest, other.measure.WellFormed := by
        intro other other_mem
        exact wellFormed other (List.mem_cons_of_mem _ other_mem)
      rw [List.flatMap_cons, notesCalled_append, ih restWellFormed,
        seat.notesCalled_measure on instrument (wellFormed seat List.mem_cons_self)]
      by_cases same : seat.instrument = instrument <;> simp [same]

end Seats

namespace Playback

variable {playback : Playback}

theorem partDeliveries_eq_seats (part : Part) (sectionMeasure pulse : Nat) :
    partDeliveries part sectionMeasure pulse =
      (part.seats sectionMeasure).flatMap fun seat => seat.calls pulse := by
  unfold partDeliveries Part.measureFor? Part.seats
  cases found : part.measures[sectionMeasure % part.measures.length]? with
  | none => rfl
  | some measure =>
      simp only [Option.bind_some, List.flatMap_map]
      cases scheduled : measure.timetable.at? pulse with
      | none =>
          have silent (on : Bool) : measure.notesAt on pulse = [] := by
            simp [Measure.notesAt, scheduled]
          simp [Seat.calls, Seat.call, silent]
      | some batch =>
          have notes_eq (on : Bool) : measure.notesAt on pulse = ChordEvent.notesOf on batch := by
            simp [Measure.notesAt, scheduled, ChordEvent.notesOf]
          refine List.flatMap_congr ?_
          intro instrument _
          simp only [Seat.calls, Seat.call, notes_eq, ChordEvent.merge, ChordEvent.strike,
            ChordEvent.release, List.filter_cons, List.filter_nil]
          split <;> split <;> simp_all

/-- What a playback delivers at a pulse are the calls of the seats of its section. -/
theorem deliveries_eq_seats {sect : Section} (playing : playback.section? = some sect)
    (pulse : Nat) :
    playback.deliveries pulse = sect.calls (playback.cursor.measure.getD 0) pulse := by
  simp only [deliveries, playing, Section.calls, Section.seats, List.flatMap_assoc,
    partDeliveries_eq_seats]

theorem exists_measure_nextMeasure (playback : Playback) :
    ∃ measure, playback.nextMeasure.cursor.measure = some measure := by
  unfold nextMeasure
  split
  · exact ⟨0, rfl⟩
  · split
    · exact ⟨0, rfl⟩
    · exact ⟨_, rfl⟩

end Playback

namespace Player

variable {player : Player}

/-- The quarter notes of a measure start at its pulses 0, 24, 48 and 72. -/
theorem clickCommands_eq {pulse : Nat} (inMeasure : pulse < pulsesPerMeasure) :
    player.clickCommands pulse =
      if pulse ∈ [0, 24, 48, 72] then player.clickLatency.toList.map Command.click else [] := by
  have onQuarter : pulse % pulsesPerQuarter = 0 ↔ pulse ∈ [0, 24, 48, 72] := by
    have bound : pulse < 96 := inMeasure
    have quarter_eq : pulsesPerQuarter = 24 := rfl
    rw [quarter_eq]
    simp only [List.mem_cons, List.not_mem_nil, or_false]
    omega
  unfold clickCommands
  cases player.clickLatency with
  | none => simp
  | some latency => simp [onQuarter]

theorem clickCommands_pulse (player : Player) (pulse next : Nat) :
    (player.pulse pulse).1.clickCommands next = player.clickCommands next := by
  unfold clickCommands
  rw [clickLatency_pulse]

/-- The commands of a pulse of a loaded player. -/
theorem commands_pulse (loaded : player.playback.score.isEmpty = false) (pulse : Nat) :
    (player.pulse pulse).2 =
      player.requestCommands (if pulse = 0 then player.playback.downbeatTempo else none) ++
        (player.clickCommands pulse ++
          ((player.pulse pulse).1.playback.deliveries pulse).map (Command.deliver pulse)) := by
  unfold Player.pulse
  rw [if_neg (by simp [loaded])]
  exact List.append_assoc _ _ _

end Player

namespace Rig

variable {rig : Rig} {sect : Section} {measure : Nat}

/-- A complete measure that enters a measure of a section asks for the tempo of the section, if it
is a new one, and then has at each pulse a click, if it is due, and the calls of the seats. -/
theorem commands_measure (survives : rig.sink.Survives)
    (loaded : rig.player.playback.score.isEmpty = false)
    (playing : (rig.player.pulse 0).1.playback.section? = some sect)
    (entered : (rig.player.pulse 0).1.playback.cursor.measure = some measure) :
    (rig.report .measure).commands =
      rig.player.requestCommands rig.player.playback.downbeatTempo ++
        (List.range pulsesPerMeasure).flatMap fun pulse =>
          rig.player.clickCommands pulse ++
            (sect.calls measure pulse).map (Command.deliver pulse) := by
  have loadedAfter : (rig.player.pulse 0).1.playback.score.isEmpty = false := by
    rw [(Player.moves_pulse rig.player 0).score_eq]
    exact loaded
  have delivers (pulse : Nat) :
      (rig.player.pulse 0).1.playback.deliveries pulse = sect.calls measure pulse := by
    rw [Playback.deliveries_eq_seats playing, entered, Option.getD_some]
  rw [(run_measure_commands survives).2, Player.commands_pulse loaded, delivers, if_pos rfl,
    range_pulsesPerMeasure, List.flatMap_cons]
  simp only [List.append_assoc]
  congr 3
  refine List.flatMap_congr ?_
  intro pulse pulse_mem
  have within := laterPulses_ne_zero pulse pulse_mem
  rw [Player.commands_pulse loadedAfter, Player.pulse_within _ within, delivers, if_neg within,
    Player.clickCommands_pulse]
  rfl

/-- The score of a run that has loaded one is well formed. -/
theorem runAll_wellFormed {resolver : Resolver} {clickLatency : Option Duration} {sink : Sink}
    {operations : List Operation}
    (loaded : ((fresh resolver clickLatency sink).runAll operations).2.any Report.loads = true) :
    ((fresh resolver clickLatency sink).runAll operations).1.player.playback.Located ∧
      ((fresh resolver clickLatency sink).runAll
        operations).1.player.playback.score.WellFormed := by
  have start : Placed false (fresh resolver clickLatency sink).player.playback := rfl
  have placed := start.runAll operations
  rw [loaded] at placed
  have located : Playback.Located _ := placed
  refine ⟨located, ?_⟩
  rcases ((fresh resolver clickLatency sink).runAll_score operations).2 with
    unloaded | ⟨operation, _, source, _, accepted⟩
  · exact absurd (congrArg Score.sections unloaded) located.playable.sections_ne_nil
  · exact Score.wellFormed_of_read accepted

/-- A complete measure enters this measure of this section, and plays it. -/
structure PlaysMeasure (rig : Rig) (clickLatency : Option Duration) (sect : Section)
    (measure : Nat) : Prop where
  playing : (rig.player.pulse 0).1.playback.section? = some sect
  entered : (rig.player.pulse 0).1.playback.cursor.measure = some measure
  /-- After the tempo of a new section nothing is asked of the devices but a click before the calls
  of each quarter note and the calls of the seats. -/
  commands : (rig.report .measure).commands =
    rig.player.requestCommands rig.player.playback.downbeatTempo ++
      (List.range 96).flatMap fun pulse =>
        (if pulse ∈ [0, 24, 48, 72] then clickLatency.toList.map Command.click else []) ++
          (sect.calls measure pulse).map (Command.deliver pulse)
  /-- Each seat calls the notes of its measure. -/
  seat_notes : ∀ seat ∈ sect.seats measure, ∀ on,
    notesCalled on seat.instrument ((List.range 96).flatMap seat.calls) = seat.measure.notes on
  /-- Each instrument is called the notes of its seats. -/
  instrument_notes : ∀ on instrument,
    (notesCalled on instrument (rig.report .measure).deliveries).Perm
      (((sect.seats measure).filter fun seat => seat.instrument = instrument).flatMap
        fun seat => seat.measure.notes on)

/-- In every state that a run with a score reaches, a complete measure plays a measure of a section
from its first to its last event, whatever deliveries the sink refuses. -/
theorem exists_playsMeasure {resolver : Resolver} {clickLatency : Option Duration} {sink : Sink}
    {operations : List Operation} (survives : sink.Survives)
    (loaded : ((fresh resolver clickLatency sink).runAll operations).2.any Report.loads = true) :
    ∃ sect measure, ((fresh resolver clickLatency sink).runAll operations).1.PlaysMeasure
      clickLatency sect measure := by
  rcases runAll_wellFormed loaded with ⟨located, wellFormed⟩
  have start : (fresh resolver clickLatency sink).sink.Survives := survives
  have rigSurvives := start.runAll operations
  have sameLatency : ((fresh resolver clickLatency sink).runAll operations).1.player.clickLatency =
      clickLatency := clickLatency_runAll _ _
  generalize ((fresh resolver clickLatency sink).runAll operations).1 = rig at *
  have hasScore : rig.player.playback.score.isEmpty = false := by
    simpa [Score.isEmpty] using located.playable.sections_ne_nil
  have moves := Player.moves_pulse rig.player 0
  have inRange := (located.moves moves).sectionIndex_lt
  have playing := List.getElem?_eq_getElem inRange
  rw [← moves.score_eq] at wellFormed
  have sectWellFormed := wellFormed.sections _ (List.getElem_mem inRange)
  rcases rig.player.playback.exists_measure_nextMeasure with ⟨measure, entered⟩
  have atDownbeat : (rig.player.pulse 0).1.playback = rig.player.playback.downbeat :=
    rig.player.playback_pulse 0
  have atMeasure : (rig.player.pulse 0).1.playback.cursor.measure = some measure := by
    rw [atDownbeat, Playback.downbeat, if_neg (by simp [hasScore]), entered]
  refine ⟨_, measure, playing, atMeasure, ?_, ?_, ?_⟩
  · rw [commands_measure rigSurvives hasScore playing atMeasure]
    congr 1
    refine List.flatMap_congr ?_
    intro pulse pulse_mem
    rw [Player.clickCommands_eq (List.mem_range.mp pulse_mem), sameLatency]
  · intro seat seat_mem on
    have called := seat.notesCalled_measure on seat.instrument
      (sectWellFormed.seats seat seat_mem)
    rwa [if_pos rfl] at called
  · intro on instrument
    have delivers (pulse : Nat) := Playback.deliveries_eq_seats playing pulse
    simp only [atMeasure, Option.getD_some] at delivers
    rw [(run_measure rigSurvives).2, ← atDownbeat, List.flatMap_congr fun pulse _ => delivers pulse]
    exact notesCalled_seats_perm sectWellFormed.seats

/-- A sink that refuses everything, a click track, an instrument that is named twice and a part that
repeats its only measure beside the second one of the other part. -/
theorem exists_playsMeasure_refused :
    let latency := Duration.ofMilliseconds 5
    let rig := fresh .unison (some latency) ⟨fun _ _ => .failed []⟩
    let operations : List Operation :=
      [.read "instruments X, X\nc d-\ninstruments Y\nc c c c\nc", .start, .measure]
    rig.sink.Survives ∧ (rig.runAll operations).2.any Report.loads = true ∧
      ∃ sect measure, (rig.runAll operations).1.PlaysMeasure (some latency) sect measure := by
  intro latency rig operations
  have survives : rig.sink.Survives := by
    intro number delivery
    exact SinkAnswer.noConfusion
  have loaded : (rig.runAll operations).2.any Report.loads = true := by
    decide +kernel
  exact ⟨survives, loaded, exists_playsMeasure survives loaded⟩

end Rig

end LiveScore
