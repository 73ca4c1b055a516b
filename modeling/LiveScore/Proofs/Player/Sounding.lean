import LiveScore.Proofs.Player.Delivery
import LiveScore.Proofs.Score.Agreement
import LiveScore.Proofs.Score.Hold

/-!
# What sounds after a measure

A note sounds on an instrument if the last delivery that calls it strikes it. In a complete measure
the pulse that calls a note last decides. If it is a strike, then no token of that pulse releases
the note again, although every token that is not held does so later in its measure, whatever other
parts play on the same instrument. So the note was struck by a held token.

Between measures other scores may be loaded and nothing is delivered. The last strike of a note is
therefore found by going back through the run, measure by measure.
-/

namespace LiveScore

/-- Merging a batch keeps the strikes and the releases of every note. -/
theorem ChordEvent.exists_mem_merge {batch : List ChordEvent} {on : Bool} {note : Note} :
    (∃ event ∈ merge batch, event.on = on ∧ note ∈ event.notes) ↔
      ∃ event ∈ batch, event.on = on ∧ note ∈ event.notes := by
  cases on <;> simp [merge, strike, release, notesOf, and_assoc]

section Calls

variable {log later : List Delivery} {on : Bool} {instrument : String} {note : Note}

/-- The delivery is for an instrument and holds a note. -/
def Delivery.calls (instrument : String) (note : Note) (delivery : Delivery) : Bool :=
  delivery.instrument = instrument && delivery.event.notes.contains note

/-- Some delivery strikes the note on the instrument, or releases it if `on` is false. -/
def Calls (log : List Delivery) (on : Bool) (instrument : String) (note : Note) : Prop :=
  ∃ delivery ∈ log, delivery.calls instrument note = true ∧ delivery.event.on = on

/-- No delivery calls the note on the instrument. -/
def Spares (log : List Delivery) (instrument : String) (note : Note) : Prop :=
  ∀ on, ¬Calls log on instrument note

/-- The last delivery that an instrument got of a note. -/
def lastCall? (log : List Delivery) (instrument : String) (note : Note) : Option Delivery :=
  (log.filter (Delivery.calls instrument note)).getLast?

/-- The last delivery that calls the note on the instrument strikes it. -/
def Sounds (log : List Delivery) (instrument : String) (note : Note) : Prop :=
  (lastCall? log instrument note).any (fun delivery => delivery.event.on) = true

theorem not_calls_nil : ¬Calls [] on instrument note := by
  rintro ⟨delivery, delivery_mem, _⟩
  cases delivery_mem

theorem lastCall?_append :
    lastCall? (log ++ later) instrument note =
      (lastCall? later instrument note).or (lastCall? log instrument note) := by
  rw [lastCall?, List.filter_append, List.getLast?_append]
  rfl

/-- What sounds after some more deliveries is struck by them, or sounded and is spared by them. -/
theorem Sounds.append_cases (sounds : Sounds (log ++ later) instrument note) :
    Calls later true instrument note ∨
      Sounds log instrument note ∧ Spares later instrument note := by
  rw [Sounds, lastCall?_append] at sounds
  cases found : lastCall? later instrument note with
  | some delivery =>
      rw [found] at sounds
      rcases List.mem_filter.mp (List.mem_of_getLast? found) with ⟨delivery_mem, calls⟩
      exact Or.inl ⟨delivery, delivery_mem, calls, sounds⟩
  | none =>
      rw [found] at sounds
      right
      refine ⟨sounds, ?_⟩
      rintro on ⟨delivery, delivery_mem, calls, _⟩
      rw [lastCall?, List.getLast?_eq_none_iff, List.filter_eq_nil_iff] at found
      exact found delivery delivery_mem calls

/-- What sounds after some pulses is struck by one of them and spared by the later ones, or sounded
before and is spared by all. The induction is on the number of pulses. -/
theorem Sounds.pulses_cases {count : Nat} {played : Nat → List Delivery}
    (sounds : Sounds (log ++ (List.range count).flatMap played) instrument note) :
    (∃ pulse < count, Calls (played pulse) true instrument note ∧
        ∀ next < count, pulse < next → Spares (played next) instrument note) ∨
      Sounds log instrument note ∧
        ∀ pulse < count, Spares (played pulse) instrument note := by
  induction count with
  | zero =>
      right
      refine ⟨by simpa using sounds, ?_⟩
      intro pulse impossible
      omega
  | succ count ih =>
      rw [List.range_succ, List.flatMap_append, List.flatMap_singleton, ← List.append_assoc]
        at sounds
      rcases sounds.append_cases with struck | ⟨before, spared⟩
      · left
        refine ⟨count, Nat.lt_succ_self count, struck, ?_⟩
        intro next inRange after
        omega
      · rcases ih before with ⟨pulse, inRange, struck, last⟩ | ⟨earlier, quiet⟩
        · left
          refine ⟨pulse, Nat.lt_succ_of_lt inRange, struck, ?_⟩
          intro next nextInRange after
          rcases Nat.lt_succ_iff_lt_or_eq.mp nextInRange with within | atEnd
          · exact last next within after
          · rw [atEnd]
            exact spared
        · right
          refine ⟨earlier, ?_⟩
          intro pulse inRange
          rcases Nat.lt_succ_iff_lt_or_eq.mp inRange with within | atEnd
          · exact quiet pulse within
          · rw [atEnd]
            exact spared

end Calls

namespace Playback

variable {playback : Playback} {part : Part} {measure : Measure} {on : Bool}
  {instrument : String} {note : Note} {pulse : Nat}

/-- The part belongs to the section that plays, and plays the measure. -/
def Plays (playback : Playback) (part : Part) (measure : Measure) : Prop :=
  ∃ sect, playback.section? = some sect ∧ part ∈ sect.parts ∧
    part.measureFor? (playback.cursor.measure.getD 0) = some measure

theorem Plays.mem_measures (plays : playback.Plays part measure) :
    measure ∈ playback.score.measures := by
  rcases plays with ⟨sect, playing, part_mem, found⟩
  refine List.mem_flatMap.mpr ⟨sect, List.mem_of_getElem? playing, ?_⟩
  exact List.mem_flatMap.mpr ⟨part, part_mem, List.mem_of_getElem? found⟩

theorem calls_partDeliveries_iff {sectionMeasure : Nat} :
    Calls (partDeliveries part sectionMeasure pulse) on instrument note ↔
      instrument ∈ part.instruments ∧
        ∃ measure, part.measureFor? sectionMeasure = some measure ∧
          measure.Schedules pulse on note := by
  unfold partDeliveries
  split
  · rename_i silent
    constructor
    · rintro ⟨delivery, delivery_mem, _⟩
      cases delivery_mem
    · rintro ⟨_, measure, found, batch, scheduled, _⟩
      rw [found, Option.bind_some, scheduled] at silent
      cases silent
  · rename_i batch sounding
    rcases Option.bind_eq_some_iff.mp sounding with ⟨measure, found, scheduled⟩
    constructor
    · rintro ⟨delivery, delivery_mem, calls, on_eq⟩
      rcases List.mem_flatMap.mp delivery_mem with ⟨name, name_mem, delivery_mem⟩
      rcases List.mem_map.mp delivery_mem with ⟨event, event_mem, rfl⟩
      have event_merged := (List.mem_filter.mp event_mem).1
      have called : name = instrument ∧ note ∈ event.notes := by
        simpa [Delivery.calls] using calls
      rcases called with ⟨rfl, note_mem⟩
      have merged := ChordEvent.exists_mem_merge.mp ⟨event, event_merged, on_eq, note_mem⟩
      exact ⟨name_mem, measure, found, batch, scheduled, merged⟩
    · rintro ⟨instrument_mem, other, otherFound, otherBatch, otherScheduled, inBatch⟩
      cases found.symm.trans otherFound
      cases scheduled.symm.trans otherScheduled
      rcases ChordEvent.exists_mem_merge.mpr inBatch with ⟨event, event_merged, on_eq, note_mem⟩
      have kept : event ∈ (ChordEvent.merge batch).filter fun event => event.notes ≠ [] :=
        List.mem_filter.mpr ⟨event_merged, by simpa using List.ne_nil_of_mem note_mem⟩
      refine ⟨⟨instrument, event⟩, ?_, ?_, on_eq⟩
      · exact List.mem_flatMap.mpr ⟨instrument, instrument_mem, List.mem_map_of_mem kept⟩
      · simpa [Delivery.calls] using note_mem

/-- A pulse calls a note on an instrument exactly if a part with this instrument has the note in
the measure that it plays. -/
theorem calls_deliveries_iff :
    Calls (playback.deliveries pulse) on instrument note ↔
      ∃ part measure, playback.Plays part measure ∧ instrument ∈ part.instruments ∧
        measure.Schedules pulse on note := by
  unfold deliveries
  split
  · rename_i noSection
    constructor
    · rintro ⟨delivery, delivery_mem, _⟩
      cases delivery_mem
    · rintro ⟨part, measure, ⟨sect, playing, _⟩, _⟩
      rw [noSection] at playing
      cases playing
  · rename_i sect playing
    constructor
    · rintro ⟨delivery, delivery_mem, calls⟩
      rcases List.mem_flatMap.mp delivery_mem with ⟨part, part_mem, delivery_mem⟩
      rcases calls_partDeliveries_iff.mp ⟨delivery, delivery_mem, calls⟩ with
        ⟨instrument_mem, measure, found, scheduled⟩
      exact ⟨part, measure, ⟨sect, playing, part_mem, found⟩, instrument_mem, scheduled⟩
    · rintro ⟨part, measure, ⟨other, otherPlaying, part_mem, found⟩, instrument_mem, scheduled⟩
      cases playing.symm.trans otherPlaying
      rcases calls_partDeliveries_iff.mpr ⟨instrument_mem, measure, found, scheduled⟩ with
        ⟨delivery, delivery_mem, calls⟩
      exact ⟨delivery, List.mem_flatMap.mpr ⟨part, part_mem, delivery_mem⟩, calls⟩

/-- If the playback strikes a note on an instrument and does not call it later in the measure, then
a part with the instrument holds the note from that pulse on. -/
theorem exists_holds (resolver : Resolver)
    (struck : Calls (playback.deliveries pulse) true instrument note)
    (last : ∀ next < pulsesPerMeasure, pulse < next →
      Spares (playback.deliveries next) instrument note) :
    ∃ part measure, playback.Plays part measure ∧ instrument ∈ part.instruments ∧
      measure.Holds resolver pulse note := by
  rcases calls_deliveries_iff.mp struck with
    ⟨part, measure, plays, instrument_mem, scheduled⟩
  refine ⟨part, measure, plays, instrument_mem, ?_⟩
  rcases Measure.holds_or_releases resolver scheduled with
    holds | ⟨next, inRange, after, released⟩
  · exact holds
  · have called := calls_deliveries_iff.mpr ⟨part, measure, plays, instrument_mem, released⟩
    exact absurd called (last next inRange after false)

end Playback

namespace Rig

variable {rig : Rig} {operations before : List Operation} {operation : Operation} {pulse : Nat}
  {instrument : String} {note : Note}

/-- All deliveries of some operations, in order. -/
def log (rig : Rig) (operations : List Operation) : List Delivery :=
  (rig.runAll operations).2.flatMap Report.deliveries

/-- The playback in a complete measure that follows some operations. -/
def playing (rig : Rig) (before : List Operation) : Playback :=
  (rig.runAll before).1.player.playback.downbeat

theorem log_concat :
    rig.log (operations ++ [operation]) =
      rig.log operations ++ ((rig.runAll operations).1.report operation).deliveries := by
  simp [log, runAll_concat]

/-- A run strikes a note for the last time at a pulse of the complete measure that follows the
operations `before`. -/
structure LastStrike (rig : Rig) (operations before : List Operation) (pulse : Nat)
    (instrument : String) (note : Note) : Prop where
  measured : before ++ [.measure] <+: operations
  inMeasure : pulse < pulsesPerMeasure
  struck : Calls ((rig.playing before).deliveries pulse) true instrument note
  not_later : ∀ next < pulsesPerMeasure, pulse < next →
    ¬Calls ((rig.playing before).deliveries next) true instrument note
  not_after : ∃ rest, rig.log operations = rig.log before ++
      (List.range pulsesPerMeasure).flatMap (rig.playing before).deliveries ++ rest ∧
    ¬Calls rest true instrument note

theorem LastStrike.concat (last : rig.LastStrike operations before pulse instrument note)
    (spared : ¬Calls ((rig.runAll operations).1.report operation).deliveries true instrument note) :
    rig.LastStrike (operations ++ [operation]) before pulse instrument note := by
  rcases last.not_after with ⟨rest, log_eq, notInRest⟩
  refine ⟨?_, last.inMeasure, last.struck, last.not_later,
    rest ++ ((rig.runAll operations).1.report operation).deliveries, ?_, ?_⟩
  · exact last.measured.trans (List.prefix_append _ _)
  · rw [log_concat, log_eq, List.append_assoc]
  · rintro ⟨delivery, delivery_mem, calls⟩
    rcases List.mem_append.mp delivery_mem with earlier | later
    · exact notInRest ⟨delivery, earlier, calls⟩
    · exact spared ⟨delivery, later, calls⟩

/-- A strike that nothing calls later in a complete measure is the last one of the run so far. -/
theorem LastStrike.of_measure (survives : (rig.runAll operations).1.sink.Survives)
    (inMeasure : pulse < pulsesPerMeasure)
    (struck : Calls ((rig.playing operations).deliveries pulse) true instrument note)
    (last : ∀ next < pulsesPerMeasure, pulse < next →
      Spares ((rig.playing operations).deliveries next) instrument note) :
    rig.LastStrike (operations ++ [.measure]) operations pulse instrument note := by
  refine ⟨List.prefix_rfl, inMeasure, struck, ?_, [], ?_, not_calls_nil⟩
  · intro next inRange after
    exact last next inRange after true
  · rw [log_concat, (run_measure survives).2, List.append_nil]
    rfl

/-- The induction is on the operations from the last one on: what an operation does not strike was
sounding before it. -/
theorem exists_lastStrike (resolver : Resolver) (survives : rig.sink.Survives)
    (whole : ∀ operation ∈ operations, operation = .measure ∨ operation.plays = false)
    (sounds : Sounds (rig.log operations) instrument note) :
    ∃ before pulse, rig.LastStrike operations before pulse instrument note ∧
      ∃ part measure, (rig.playing before).Plays part measure ∧ instrument ∈ part.instruments ∧
        measure.Holds resolver pulse note := by
  induction operations using List.reverseRecOn with
  | nil => cases sounds
  | append_singleton operations operation ih =>
      have wholeBefore : ∀ earlier ∈ operations, earlier = .measure ∨ earlier.plays = false := by
        intro earlier earlier_mem
        exact whole earlier (List.mem_append_left _ earlier_mem)
      have survivesAfter : (rig.runAll operations).1.sink.Survives := by
        rw [sink_runAll]
        exact survives
      rw [log_concat] at sounds
      rcases whole operation (by simp) with rfl | silent
      · rcases run_measure survivesAfter with ⟨_, delivered⟩
        rw [delivered] at sounds
        rcases sounds.pulses_cases with ⟨pulse, inMeasure, struck, last⟩ | ⟨sounded, spared⟩
        · have lastStrike := LastStrike.of_measure survivesAfter inMeasure struck last
          exact ⟨operations, pulse, lastStrike, Playback.exists_holds resolver struck last⟩
        · rcases ih wholeBefore sounded with ⟨before, pulse, last, held⟩
          refine ⟨before, pulse, last.concat ?_, held⟩
          rw [delivered]
          rintro ⟨delivery, delivery_mem, calls⟩
          rcases List.mem_flatMap.mp delivery_mem with ⟨next, inRange, delivery_mem⟩
          exact spared next (List.mem_range.mp inRange) true ⟨delivery, delivery_mem, calls⟩
      · have nothing := deliveries_report_of_silent survivesAfter silent
        rw [nothing, List.append_nil] at sounds
        rcases ih wholeBefore sounds with ⟨before, pulse, last, held⟩
        refine ⟨before, pulse, last.concat ?_, held⟩
        rw [nothing]
        exact not_calls_nil

/-- A measure that plays in a run is written in a text that the run has loaded as its score. -/
theorem exists_text_of_plays {resolver : Resolver} {clickLatency : Option Duration} {sink : Sink}
    {part : Part} {measure : Measure}
    (plays : ((fresh resolver clickLatency sink).playing before).Plays part measure) :
    ∃ operation ∈ before, ∃ source, operation.text? = some source ∧
      (Score.read resolver source).outcome =
        .ok ((fresh resolver clickLatency sink).playing before).score ∧
      ∃ legato tokens, Draft.HasLine (Directive.numberedLines source.toList) tokens ∧
        Measure.ofTokens resolver legato tokens = .ok measure := by
  have measure_mem := plays.mem_measures
  have score_eq : ((fresh resolver clickLatency sink).playing before).score =
      ((fresh resolver clickLatency sink).runAll before).1.player.playback.score := by
    unfold playing Playback.downbeat
    split
    · rfl
    · exact Playback.score_nextMeasure _
  rw [score_eq] at measure_mem ⊢
  rcases ((fresh resolver clickLatency sink).runAll_score before).2 with
    unloaded | ⟨operation, operation_mem, source, text, accepted⟩
  · rw [unloaded] at measure_mem
    cases measure_mem
  · exact ⟨operation, operation_mem, source, text, accepted,
      Score.exists_line_of_mem_measures accepted measure_mem⟩

/-- No measure line of the text has a token that ends in a hyphen. -/
def HoldsNothing (source : String) : Prop :=
  ∀ tokens ∈ (Directive.numberedLines source.toList).filterMap Outline.tokens?,
    ∀ token ∈ tokens, token.toList.getLast? ≠ some '-'

instance (source : String) : Decidable (HoldsNothing source) :=
  inferInstanceAs (Decidable (∀ tokens ∈ _, ∀ token ∈ tokens, _))

theorem HoldsNothing.not_hyphen {source : String} (holdsNothing : HoldsNothing source)
    {tokens : List String}
    (written : Draft.HasLine (Directive.numberedLines source.toList) tokens) {token : String}
    (token_mem : token ∈ tokens) : token.toList.getLast? ≠ some '-' := by
  rcases written with ⟨entry, entry_mem, reading⟩
  have tokens_mem : tokens ∈ (Directive.numberedLines source.toList).filterMap Outline.tokens? :=
    List.mem_filterMap.mpr ⟨entry, entry_mem, (Outline.means_of_read reading).tokens⟩
  exact holdsNothing tokens tokens_mem token token_mem

/-- A note was struck on an instrument for the last time by a held token: that of a part with the
instrument, in the measure that the part plays at that pulse. The measure is written in the text
from which the run got the score that plays, and the token is held in every line that can be this
one. -/
def HeldOver (rig : Rig) (resolver : Resolver) (operations : List Operation) (instrument : String)
    (note : Note) : Prop :=
  ∃ before pulse, rig.LastStrike operations before pulse instrument note ∧
    ∃ part measure, (rig.playing before).Plays part measure ∧ instrument ∈ part.instruments ∧
      measure.Holds resolver pulse note ∧
      ∃ operation ∈ before, ∃ source, operation.text? = some source ∧
        (Score.read resolver source).outcome = .ok (rig.playing before).score ∧
        ∃ legato tokens, Draft.HasLine (Directive.numberedLines source.toList) tokens ∧
          Measure.ofTokens resolver legato tokens = .ok measure

/-- After complete measures, with scores loaded or refused between them and whatever the sink
refuses, every note that sounds on an instrument is held over from its last strike. If no text that
was loaded holds a token, then nothing sounds. -/
theorem heldOver_of_sounds {resolver : Resolver} {clickLatency : Option Duration} {sink : Sink}
    {operations : List Operation} (survives : sink.Survives)
    (whole : ∀ operation ∈ operations, operation = .measure ∨ operation.plays = false) :
    let rig := fresh resolver clickLatency sink
    (∀ instrument note, Sounds (rig.log operations) instrument note →
        rig.HeldOver resolver operations instrument note) ∧
      ((∀ operation ∈ operations, ∀ source score, operation.text? = some source →
          (Score.read resolver source).outcome = .ok score → HoldsNothing source) →
        ∀ instrument note, ¬Sounds (rig.log operations) instrument note) := by
  intro rig
  have heldOver : ∀ instrument note, Sounds (rig.log operations) instrument note →
      rig.HeldOver resolver operations instrument note := by
    intro instrument note sounds
    rcases exists_lastStrike resolver survives whole sounds with
      ⟨before, pulse, last, part, measure, plays, instrument_mem, holds⟩
    exact ⟨before, pulse, last, part, measure, plays, instrument_mem, holds,
      exists_text_of_plays plays⟩
  refine ⟨heldOver, ?_⟩
  intro noHolds instrument note sounds
  rcases heldOver instrument note sounds with ⟨before, pulse, last, part, measure, _, _, holds,
    operation, operation_mem, source, text, accepted, legato, tokens, written, compiles⟩
  rcases holds legato tokens compiles with ⟨onsets, compiled, onset, onset_mem, held, _, _⟩
  rcases compiled.token_of_held onset_mem held with ⟨token_mem, hyphen⟩
  have loaded : operation ∈ operations :=
    last.measured.subset (List.mem_append_left _ operation_mem)
  have holdsNothing := noHolds operation loaded source _ text accepted
  exact holdsNothing.not_hyphen written token_mem hyphen

/-- Middle C is held over a measure of silence from another score, unless the hyphen is left out. -/
theorem heldOver_of_sounds_unison :
    let rig := fresh .unison none .accepting
    let silence : List Operation :=
      [.start, .measure, .read "tempo x", .read "instruments piano\n. .", .measure]
    Sounds (rig.log (.read "instruments piano\nc d-" :: silence)) "piano" .middleC ∧
      rig.HeldOver .unison (.read "instruments piano\nc d-" :: silence) "piano" .middleC ∧
      ∀ instrument note,
        ¬Sounds (rig.log (.read "instruments piano\nc d" :: silence)) instrument note := by
  intro rig silence
  have survives : Sink.accepting.Survives := by
    intro number delivery
    exact SinkAnswer.noConfusion
  have whole (source : String) : ∀ operation ∈ Operation.read source :: silence,
      operation = .measure ∨ operation.plays = false := by
    simp [silence, Operation.plays]
  have sounds : Sounds (rig.log (.read "instruments piano\nc d-" :: silence)) "piano"
      .middleC := by
    unfold Sounds
    decide +kernel
  refine ⟨sounds, (heldOver_of_sounds survives (whole _)).1 _ _ sounds, ?_⟩
  apply (heldOver_of_sounds survives (whole _)).2
  have holdsNothing : ∀ source ∈
      (Operation.read "instruments piano\nc d" :: silence).filterMap Operation.text?,
      HoldsNothing source := by
    decide +kernel
  intro operation operation_mem source score text _
  exact holdsNothing source (List.mem_filterMap.mpr ⟨operation, operation_mem, text⟩)

end Rig

end LiveScore
