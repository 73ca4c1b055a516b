import LiveScore.Proofs.Midi.Message
import LiveScore.Proofs.Score.Hold
import LiveScore.Proofs.Score.Measures
import Mathlib.Data.List.Forall2

/-!
# From the text to the messages

Messages are made of the notes that have a number, and any other note is left out without a word.
Nothing is left out of a score: a resolver may be expected to keep its clusters in range, the octave
that is asked of a chord is checked after the shift, and the timetable of a measure schedules the
notes of its tokens and no others. So each chord of a measure becomes one message for each of its
notes, in their order, and the number in the message is that of the note.
-/

namespace LiveScore

/-- The notes of all clusters are in range. -/
def Resolver.ClustersInRange (resolver : Resolver) : Prop :=
  ∀ token reference notes, resolver.cluster token reference = .ok notes →
    ∀ note ∈ notes, note.InRange

theorem Resolver.clustersInRange_standard : Resolver.standard.ClustersInRange :=
  fun _ _ _ reading => Cluster.inRange_of_read reading

section Voicings

variable {resolver : Resolver} {voicing : Voicing}

/-- A chord is checked when its octave is known, so it is in range with any resolver. -/
theorem Voicing.inRange_of_readChord {reference : List Char}
    (reading : readChord resolver reference = .ok voicing) :
    ∀ note ∈ voicing.notes, note.InRange := by
  simp only [readChord, bind, Except.bind] at reading
  split at reading
  · cases reading
  · split at reading
    · split at reading
      · cases reading
      · split at reading
        · cases reading
        · rename_i numbered
          cases reading
          simpa [Note.InRange, Option.isSome_iff_ne_none] using numbered
    · cases reading

theorem Voicing.inRange_of_read (clusters : resolver.ClustersInRange) {previous : Option Note}
    {token : List Char} (reading : read resolver previous token = .ok voicing) :
    ∀ note ∈ voicing.notes, note.InRange := by
  unfold read at reading
  split at reading
  · exact inRange_of_readChord reading
  · simp only [bind, Except.bind] at reading
    split at reading
    · cases reading
    · rename_i notes clusterReading
      cases reading
      exact clusters _ _ notes clusterReading

end Voicings

theorem Onset.notes_of_mem_events {onset : Onset} {count legato : Nat} {entry : Nat × ChordEvent}
    (entry_mem : entry ∈ onset.events count legato) : entry.2.notes = onset.voicing.notes := by
  simp only [events] at entry_mem
  rcases List.mem_cons.mp entry_mem with rfl | released
  · rfl
  · split at released
    · cases released
    · cases List.mem_singleton.mp released
      rfl

/-- What a measure schedules was voiced for one of its tokens. -/
theorem Measure.inRange_of_schedules {resolver : Resolver} (clusters : resolver.ClustersInRange)
    {legato : Nat} {tokens : List String} {measure : Measure}
    (compiles : ofTokens resolver legato tokens = .ok measure) {pulse : Nat} {on : Bool}
    {note : Note} (scheduled : measure.Schedules pulse on note) : note.InRange := by
  rcases exists_compiledFrom compiles with ⟨onsets, compiled⟩
  rcases (compiled.schedules_iff on).mp scheduled with
    ⟨onset, onset_mem, event, event_mem, _, note_mem⟩
  rcases compiled.voiced.exists_read onset_mem with ⟨_, reading⟩
  rw [Onset.notes_of_mem_events event_mem] at note_mem
  exact Voicing.inRange_of_read clusters reading note note_mem

namespace MidiMessage

variable {on : Bool} {event : ChordEvent} {message : MidiMessage} {note : Note}

/-- The message strikes or releases the note on a channel, and its bytes are in range. -/
structure Carries (on : Bool) (channel : Nat) (note : Note) (message : MidiMessage) : Prop where
  status_eq : message.status = (if on then 0x90 else 0x80) + channel % 16
  note_lt : message.note < 128
  velocity_lt : message.velocity < 128
  ofMidi_eq : Note.ofMidi message.note = note

/-- The notes of a chord in range become its messages, one for each and in order. -/
theorem ofChord_carries (inRange : ∀ note ∈ event.notes, note.InRange) (channel velocity : Nat) :
    List.Forall₂ (Carries event.on channel) event.notes (ofChord event channel velocity) := by
  rcases event with ⟨on, notes⟩
  simp only at inRange ⊢
  induction notes with
  | nil => exact List.Forall₂.nil
  | cons note rest ih =>
      rcases List.forall_mem_cons.mp inRange with ⟨first, restInRange⟩
      rcases first.exists_number with ⟨number, numbered, number_lt, ofMidi_eq⟩
      simp only [ofChord, List.filterMap_cons, numbered, List.map_cons]
      refine List.Forall₂.cons ⟨rfl, ?_, ?_, ?_⟩ (ih restInRange)
      · exact Nat.mod_lt number (by decide)
      · exact Nat.mod_lt velocity (by decide)
      · simp only
        rw [Nat.mod_eq_of_lt number_lt, ofMidi_eq]

end MidiMessage

namespace Score

/-- Each chord that a score schedules has its notes in range, so on every channel and with every
velocity its messages carry its notes. -/
theorem scheduled_carried {source : String} {score : Score}
    (accepted : (read .standard source).outcome = .ok score) {measure : Measure}
    (measure_mem : measure ∈ score.measures) {entry : Nat × List ChordEvent}
    (entry_mem : entry ∈ measure.timetable) {event : ChordEvent} (event_mem : event ∈ entry.2) :
    (∀ note ∈ event.notes, ∃ number ≤ 127, note.midi? = some number) ∧
      ∀ channel velocity, List.Forall₂ (MidiMessage.Carries event.on channel) event.notes
        (MidiMessage.ofChord event channel velocity) := by
  rcases exists_line_of_mem_measures accepted measure_mem with ⟨_, _, _, compiles⟩
  rcases Measure.exists_compiledFrom compiles with ⟨_, compiled⟩
  have found := compiled.ordered.at?_eq_some_of_mem entry_mem
  have inRange : ∀ note ∈ event.notes, note.InRange := by
    intro note note_mem
    have scheduled : measure.Schedules entry.1 event.on note :=
      ⟨entry.2, found, event, event_mem, rfl, note_mem⟩
    exact Measure.inRange_of_schedules Resolver.clustersInRange_standard compiles scheduled
  refine ⟨?_, MidiMessage.ofChord_carries inRange⟩
  intro note note_mem
  rcases (inRange note note_mem).exists_number with ⟨number, numbered, number_lt, _⟩
  exact ⟨number, Nat.le_of_lt_succ number_lt, numbered⟩

/-- The highest note, a note that is placed below octave 0, and a held chord over a foreign bass. -/
def edgeSource : String := "pattern a\ninstruments X\ng9 c0b . :Am7/F#:0-"

theorem scheduled_carried_edge :
    ∃ score, (read .standard edgeSource).outcome = .ok score ∧
      ∃ measure ∈ score.measures, ∃ entry ∈ measure.timetable, ∃ event ∈ entry.2,
        event.notes.length = 5 ∧
          List.Forall₂ (MidiMessage.Carries event.on 20) event.notes
            (MidiMessage.ofChord event 20 100) := by
  have scheduled : ((read .standard edgeSource).outcome.toOption.map fun score =>
      decide (∃ measure ∈ score.measures, ∃ entry ∈ measure.timetable, ∃ event ∈ entry.2,
        event.notes.length = 5)) = some true := by
    decide +kernel
  cases outcome : (read .standard edgeSource).outcome with
  | error error =>
      rw [outcome] at scheduled
      cases scheduled
  | ok score =>
      rw [outcome] at scheduled
      rcases of_decide_eq_true (Option.some.inj scheduled) with
        ⟨measure, measure_mem, entry, entry_mem, event, event_mem, length_eq⟩
      have carried := scheduled_carried outcome measure_mem entry_mem event_mem
      exact ⟨score, rfl, measure, measure_mem, entry, entry_mem, event, event_mem, length_eq,
        carried.2 20 100⟩

end Score

end LiveScore
