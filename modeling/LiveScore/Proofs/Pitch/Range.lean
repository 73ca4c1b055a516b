import LiveScore.Pitch.Resolver

/-!
# Notes in range

The numbers below 128 stand for one note each, and the notes in range are those that a number stands
for. A cluster is read note by note and each note is checked, so all notes of a cluster are in
range, wherever the octaves and the accidentals in it lead.
-/

namespace LiveScore

namespace Note

/-- The note has a MIDI number. -/
def InRange (note : Note) : Prop := note.midi?.isSome

instance (note : Note) : Decidable note.InRange :=
  inferInstanceAs (Decidable (note.midi?.isSome = true))

theorem inRange_iff {note : Note} : note.InRange ↔ 0 ≤ note.pitch ∧ note.pitch ≤ 127 := by
  simp [InRange, midi?]

theorem pitch_ofMidi {number : Nat} (number_lt : number < 128) :
    (ofMidi number).pitch = number := by
  simp only [pitch, ofMidi, Octave.saturate, PitchClass.ofSemitones]
  omega

/-- The note of a number has this number. -/
theorem midi?_ofMidi {number : Nat} (inRange : number < 128) :
    (ofMidi number).midi? = some number := by
  rw [midi?, pitch_ofMidi inRange, if_pos (by omega), Int.toNat_natCast]

/-- A pitch is spelt in one way: the octave is its quotient by twelve and the class its rest. -/
theorem pitch_injective : Function.Injective pitch := by
  rintro ⟨⟨index⟩, octave⟩ ⟨⟨otherIndex⟩, other⟩ same
  simp only [pitch] at same
  have sameNumber : octave.number = other.number := by omega
  have sameIndex : index = otherIndex := by
    apply Fin.ext
    omega
  rcases octave with ⟨number, _, _⟩
  rcases other with ⟨otherNumber, _, _⟩
  simp only at sameNumber
  subst sameNumber sameIndex
  rfl

theorem midi?_eq_some_iff {note : Note} {number : Nat} :
    note.midi? = some number ↔ number < 128 ∧ ofMidi number = note := by
  constructor
  · intro numbered
    simp only [midi?, Option.ite_none_right_eq_some, Option.some.injEq] at numbered
    rcases numbered with ⟨bounds, rfl⟩
    have number_lt : note.pitch.toNat < 128 := by omega
    refine ⟨number_lt, pitch_injective ?_⟩
    rw [pitch_ofMidi number_lt, Int.toNat_of_nonneg bounds.1]
  · rintro ⟨number_lt, rfl⟩
    exact midi?_ofMidi number_lt

theorem pitch_of_midi? {note : Note} {number : Nat} (numbered : note.midi? = some number) :
    note.pitch = number := by
  rcases midi?_eq_some_iff.mp numbered with ⟨number_lt, rfl⟩
  exact pitch_ofMidi number_lt

theorem InRange.exists_number {note : Note} (inRange : note.InRange) :
    ∃ number, note.midi? = some number ∧ number < 128 ∧ ofMidi number = note := by
  rcases Option.isSome_iff_exists.mp inRange with ⟨number, numbered⟩
  exact ⟨number, numbered, midi?_eq_some_iff.mp numbered⟩

end Note

namespace Cluster

variable {token : String} {previous : Note} {notes : List Note}

/-- A note that the check for a number lets through is in range. -/
theorem inRange_of_check {error : ResolveError} {note checked : Note}
    (passed : (if note.midi?.isNone then .error error else .ok note) = Except.ok checked) :
    checked.InRange := by
  split at passed
  · cases passed
  · rename_i numbered
    cases passed
    simpa [Note.InRange, Option.isSome_iff_ne_none] using numbered

theorem Spelling.inRange_of_note {spelling : Spelling} {note : Note}
    (reading : spelling.note token previous = .ok note) : note.InRange := by
  simp only [Spelling.note, bind, Except.bind, pure, Except.pure, throw, throwThe,
    MonadExceptOf.throw] at reading
  split at reading
  · split at reading
    · exact inRange_of_check reading
    · split at reading
      · exact inRange_of_check reading
      · cases reading
  · cases reading

/-- The induction is on the spellings; the check of each note is what keeps the next one, which is
placed beside it, from drifting away. -/
theorem inRange_of_place {spellings : List Spelling}
    (reading : place token previous spellings = .ok notes) : ∀ note ∈ notes, note.InRange := by
  induction spellings generalizing previous notes with
  | nil =>
      cases reading
      simp
  | cons spelling rest ih =>
      simp only [place, bind, Except.bind] at reading
      split at reading
      · cases reading
      · rename_i note noteReading
        split at reading
        · cases reading
        · rename_i following restReading
          cases reading
          exact List.forall_mem_cons.mpr ⟨Spelling.inRange_of_note noteReading, ih restReading⟩

theorem inRange_of_read {reference : Option Note} (reading : read token reference = .ok notes) :
    ∀ note ∈ notes, note.InRange := by
  unfold read at reading
  split at reading
  · cases reading
  · exact inRange_of_place reading

end Cluster

end LiveScore
