import LiveScore.Proofs.Score.Compilation
import LiveScore.Proofs.Text.Blank

/-!
# Held tokens

A hyphen at the end of a token is the only way to hold its notes, both in a cluster and in a chord
reference. Every other strike of a note is answered by a release of the same note at a later pulse
of the same measure: the slot of a token ends after it starts, and no slot leaves the measure.
-/

namespace LiveScore

namespace Voicing

theorem takeHold_snd (text : List Char) :
    (takeHold text).2 = true ↔ text.getLast? = some '-' := by
  unfold takeHold
  split <;> simp_all

/-- Where the octave starts makes no difference to the hold. -/
theorem splitReference_held (reference : List Char) :
    (splitReference reference).2.2 = true ↔ reference.getLast? = some '-' := by
  unfold splitReference
  split
  · rename_i name octave split
    rcases Text.splitFirst?_eq_some split with ⟨separator, found, rfl⟩
    have isColon : separator = ':' := by simpa using found
    subst isColon
    rw [takeHold_snd, List.getLast?_append]
    cases octave with
    | nil => simp
    | cons first rest => simp [List.getLast?_cons_cons]
  · exact takeHold_snd reference

theorem held_of_readChord {resolver : Resolver} {reference : List Char} {voicing : Voicing}
    (reading : readChord resolver reference = .ok voicing) :
    voicing.held = (splitReference reference).2.2 := by
  simp only [readChord, bind, Except.bind] at reading
  split at reading
  · cases reading
  · split at reading
    · split at reading
      · cases reading
      · split at reading
        · cases reading
        · cases reading
          rfl
    · cases reading

theorem held_of_readCluster {resolver : Resolver} {previous : Option Note} {cluster : List Char}
    {voicing : Voicing}
    (reading : (do
      let notes ← resolver.cluster (String.ofList (takeHold cluster).1) previous
      return ⟨notes, (takeHold cluster).2⟩ : Except ResolveError Voicing) = .ok voicing) :
    voicing.held = (takeHold cluster).2 := by
  simp only [bind, Except.bind] at reading
  split at reading
  · cases reading
  · cases reading
    rfl

/-- The notes of a token are held exactly if the token ends in a hyphen. -/
theorem held_of_read {resolver : Resolver} {previous : Option Note} {token : List Char}
    {voicing : Voicing} (reading : read resolver previous token = .ok voicing) :
    voicing.held = true ↔ token.getLast? = some '-' := by
  unfold read at reading
  split at reading
  · rename_i reference
    rw [held_of_readChord reading, splitReference_held]
    cases reference with
    | nil => simp
    | cons first rest => rw [List.getLast?_cons_cons]
  · rw [held_of_readCluster reading, takeHold_snd]

end Voicing

theorem Onset.Voiced.exists_read {resolver : Resolver} {previous : Option Note}
    {onsets : List Onset} (voiced : Onset.Voiced resolver previous onsets) {onset : Onset}
    (onset_mem : onset ∈ onsets) :
    ∃ reference, Voicing.read resolver reference onset.token.toList = .ok onset.voicing := by
  induction onsets generalizing previous with
  | nil => cases onset_mem
  | cons first rest ih =>
      rcases List.mem_cons.mp onset_mem with rfl | later
      · exact ⟨previous, voiced.1.read_eq⟩
      · exact ih voiced.2 later

namespace Measure

/-- At a pulse a measure strikes a note, or releases it. -/
def Schedules (measure : Measure) (pulse : Nat) (on : Bool) (note : Note) : Prop :=
  ∃ batch, measure.timetable.at? pulse = some batch ∧
    ∃ event ∈ batch, event.on = on ∧ note ∈ event.notes

/-- A measure strikes a note at a pulse by a held token, whatever line it is compiled from. -/
def Holds (resolver : Resolver) (measure : Measure) (pulse : Nat) (note : Note) : Prop :=
  ∀ legato tokens, ofTokens resolver legato tokens = .ok measure →
    ∃ onsets, measure.CompiledFrom resolver legato tokens onsets ∧
      ∃ onset ∈ onsets, onset.voicing.held = true ∧ note ∈ onset.voicing.notes ∧
        (Slot.place onset.index tokens.length legato).start = pulse

namespace CompiledFrom

variable {resolver : Resolver} {legato : Nat} {tokens : List String} {onsets : List Onset}
  {measure : Measure} {pulse : Nat} {note : Note}

theorem schedules_iff (compiled : measure.CompiledFrom resolver legato tokens onsets) (on : Bool) :
    measure.Schedules pulse on note ↔
      ∃ onset ∈ onsets, ∃ event, (pulse, event) ∈ onset.events tokens.length legato ∧
        event.on = on ∧ note ∈ event.notes := by
  have batch_eq := compiled.at?_eq pulse
  constructor
  · rintro ⟨batch, found, event, event_mem, rfl, note_mem⟩
    rw [found] at batch_eq
    simp only at batch_eq
    split at batch_eq
    · cases batch_eq
    · cases batch_eq
      rcases List.mem_flatMap.mp (Timetable.mem_batchAt.mp event_mem) with
        ⟨onset, onset_mem, scheduled⟩
      exact ⟨onset, onset_mem, event, scheduled, rfl, note_mem⟩
  · rintro ⟨onset, onset_mem, event, scheduled, rfl, note_mem⟩
    have event_mem := Timetable.mem_batchAt.mpr
      (List.mem_flatMap.mpr ⟨onset, onset_mem, scheduled⟩)
    rw [if_neg (List.ne_nil_of_mem event_mem)] at batch_eq
    exact ⟨_, batch_eq, event, event_mem, rfl, note_mem⟩

/-- A note is struck at the start of the slots of the onsets that contain it. -/
theorem strikes_iff (compiled : measure.CompiledFrom resolver legato tokens onsets) :
    measure.Schedules pulse true note ↔
      ∃ onset ∈ onsets, note ∈ onset.voicing.notes ∧
        (Slot.place onset.index tokens.length legato).start = pulse := by
  rw [compiled.schedules_iff]
  constructor
  · rintro ⟨onset, onset_mem, event, scheduled, struck, note_mem⟩
    simp only [Onset.events] at scheduled
    rcases List.mem_cons.mp scheduled with same | released
    · cases same
      exact ⟨onset, onset_mem, note_mem, rfl⟩
    · split at released
      · cases released
      · cases List.mem_singleton.mp released
        cases struck
  · rintro ⟨onset, onset_mem, note_mem, rfl⟩
    exact ⟨onset, onset_mem, _, List.mem_cons_self, rfl, note_mem⟩

/-- A note is released at the end of the slots of the onsets that contain it and are not held. -/
theorem releases_iff (compiled : measure.CompiledFrom resolver legato tokens onsets) :
    measure.Schedules pulse false note ↔
      ∃ onset ∈ onsets, onset.voicing.held = false ∧ note ∈ onset.voicing.notes ∧
        (Slot.place onset.index tokens.length legato).stop = pulse := by
  rw [compiled.schedules_iff]
  constructor
  · rintro ⟨onset, onset_mem, event, scheduled, released, note_mem⟩
    simp only [Onset.events] at scheduled
    rcases List.mem_cons.mp scheduled with same | later
    · cases same
      cases released
    · split at later
      · cases later
      · rename_i notHeld
        cases List.mem_singleton.mp later
        exact ⟨onset, onset_mem, by simpa using notHeld, note_mem, rfl⟩
  · rintro ⟨onset, onset_mem, notHeld, note_mem, rfl⟩
    refine ⟨onset, onset_mem, .release onset.voicing.notes, ?_, rfl, note_mem⟩
    simp [Onset.events, notHeld]

/-- An onset that is held was written as a token of the line that ends in a hyphen. -/
theorem token_of_held (compiled : measure.CompiledFrom resolver legato tokens onsets)
    {onset : Onset} (onset_mem : onset ∈ onsets) (held : onset.voicing.held = true) :
    onset.token ∈ tokens ∧ onset.token.toList.getLast? = some '-' := by
  constructor
  · have keyed : (onset.token, onset.index) ∈ sounding tokens := by
      rw [← compiled.tokens_eq]
      exact List.mem_map_of_mem onset_mem
    exact List.fst_mem_of_mem_zipIdx (List.mem_filter.mp keyed).1
  · rcases compiled.voiced.exists_read onset_mem with ⟨reference, reading⟩
    exact (Voicing.held_of_read reading).mp held

end CompiledFrom

/-- A note that a measure strikes is held, or the measure releases it at a later pulse. -/
theorem holds_or_releases (resolver : Resolver) {measure : Measure} {pulse : Nat} {note : Note}
    (struck : measure.Schedules pulse true note) :
    measure.Holds resolver pulse note ∨
      ∃ later < pulsesPerMeasure, pulse < later ∧ measure.Schedules later false note := by
  by_cases released :
      ∃ later < pulsesPerMeasure, pulse < later ∧ measure.Schedules later false note
  · right
    exact released
  · left
    intro legato tokens accepted
    rcases exists_compiledFrom accepted with ⟨onsets, compiled⟩
    rcases compiled.strikes_iff.mp struck with ⟨onset, onset_mem, note_mem, atPulse⟩
    refine ⟨onsets, compiled, onset, onset_mem, ?_, note_mem, atPulse⟩
    -- An onset that is not held would be released at the end of its own slot.
    cases held : onset.voicing.held with
    | true => rfl
    | false =>
        have longer := Slot.start_lt_stop onset.index tokens.length legato
        have onGrid := Slot.stop_le_lastPulse onset.index tokens.length legato
        have last_lt : lastPulse < pulsesPerMeasure := by decide
        have later := compiled.releases_iff.mpr ⟨onset, onset_mem, held, note_mem, rfl⟩
        exact absurd ⟨_, by omega, by omega, later⟩ released

end Measure

end LiveScore
