import LiveScore.Proofs.Pitch.Placement
import Mathlib.Data.List.Forall2

/-!
# Pinned notes

The digits of a spelling name the octave of the altered note, not that of its letter. An accidental
therefore moves a pinned note by a semitone as long as it stays among the twelve classes of an
octave. It leaves them in two places: B sharp is the C at the bottom of the octave that its digits
name, and C flat the B at the top, each an octave away from where the sign alone would lead.
-/

namespace LiveScore.Cluster

variable {token : String} {previous note : Note} {spelling : Spelling}
  {units : List Spelling} {notes : List Note}

namespace Spelling

/-- The octaves that the accidental would lead out of the octave of the letter. -/
def carry (spelling : Spelling) : Int :=
  if spelling.letter ∈ ['B', 'b'] ∧ spelling.accidental = .sharp then 1
  else if spelling.letter ∈ ['C', 'c'] ∧ spelling.accidental = .flat then -1
  else 0

/-- The number of the note is that of the natural letter in the octave of the digits, moved by the
accidental and by `shift` semitones. -/
def SoundsAt (spelling : Spelling) (shift : Int) (note : Note) : Prop :=
  ∃ natural number, PitchClass.ofLetter? spelling.letter = some natural ∧
    note.midi? = some number ∧
    (number : Int) = 12 * (Numeral.ofDigits spelling.digits + 1) + natural.index +
      spelling.accidental.semitones + shift

theorem mem_ends {letter : Char} {natural : PitchClass}
    (found : PitchClass.ofLetter? letter = some natural) :
    (letter ∈ ['B', 'b'] ↔ natural.index = 11) ∧ (letter ∈ ['C', 'c'] ↔ natural.index = 0) := by
  have ends : ∀ entry ∈ PitchClass.naturals,
      (entry.1 ∈ ['B', 'b'] ↔ entry.2 = 11) ∧ (entry.1 ∈ ['C', 'c'] ↔ entry.2 = 0) := by decide
  rw [Fin.ext_iff, Fin.ext_iff]
  exact ends _ (PitchClass.mem_naturals found)

theorem index_alter {natural : PitchClass}
    (found : PitchClass.ofLetter? spelling.letter = some natural) :
    ((natural.alter spelling.accidental).index : Int) =
      natural.index + spelling.accidental.semitones - 12 * spelling.carry := by
  rcases mem_ends found with ⟨top, bottom⟩
  simp only [PitchClass.alter, PitchClass.transpose, PitchClass.index_ofSemitones, carry, top,
    bottom]
  cases spelling.accidental with
  | natural =>
      simp [Accidental.semitones]
      omega
  | sharp =>
      simp only [Accidental.semitones]
      by_cases last : natural.index = 11
      · simp only [last]
        decide
      · simp [last]
        omega
  | flat =>
      simp only [Accidental.semitones]
      by_cases first : natural.index = 0
      · simp only [first]
        decide
      · simp [first]
        omega

theorem Denotes.soundsAt (denotes : spelling.Denotes previous note) (inRange : note.InRange)
    (pinned : spelling.digits ≠ []) : spelling.SoundsAt (-12 * spelling.carry) note := by
  rcases denotes.exists_natural with ⟨natural, found, class_eq⟩
  rcases inRange.exists_number with ⟨number, numbered, _⟩
  refine ⟨natural, number, found, numbered, ?_⟩
  have octave_eq := denotes.octave_eq pinned
  have index_eq := index_alter found
  rw [← class_eq] at index_eq
  have pitch_eq := Note.pitch_of_midi? numbered
  simp only [Note.pitch] at pitch_eq
  omega

theorem SoundsAt.pitch_sub {plainNote : Note}
    (sounds : spelling.SoundsAt (-12 * spelling.carry) note)
    (plainSounds : Spelling.SoundsAt { spelling with accidental := .natural }
      (-12 * Spelling.carry { spelling with accidental := .natural }) plainNote) :
    note.pitch - plainNote.pitch = spelling.accidental.semitones - 12 * spelling.carry := by
  rcases sounds with ⟨natural, number, found, numbered, number_eq⟩
  rcases plainSounds with ⟨plainNatural, plainNumber, plainFound, plainNumbered, plainNumber_eq⟩
  rw [found] at plainFound
  cases plainFound
  have plainCarry : Spelling.carry { spelling with accidental := .natural } = 0 := by
    simp [carry]
  rw [plainCarry] at plainNumber_eq
  simp only [Accidental.semitones] at plainNumber_eq
  rw [Note.pitch_of_midi? numbered, Note.pitch_of_midi? plainNumbered, number_eq, plainNumber_eq]
  omega

theorem natAbs_of_carry :
    (spelling.carry = 0 →
        (spelling.accidental.semitones - 12 * spelling.carry).natAbs ≤ 1) ∧
      (spelling.carry ≠ 0 →
        (spelling.accidental.semitones - 12 * spelling.carry).natAbs = 11) := by
  cases sign : spelling.accidental <;> simp only [carry, sign, Accidental.semitones] <;>
    split_ifs <;> simp_all

end Spelling

/-- Pinned spellings are read alike whatever stands before them. -/
theorem soundsAt_of_place (reading : place token previous units = .ok notes) :
    List.Forall₂ (fun spelling note => spelling.digits ≠ [] →
      spelling.SoundsAt (-12 * spelling.carry) note) units notes := by
  induction units generalizing previous notes with
  | nil =>
      cases reading
      exact .nil
  | cons spelling rest ih =>
      rcases place_cons_eq_ok_iff.mp reading with ⟨note, following, noteReading, later, rfl⟩
      refine .cons ?_ (ih later)
      intro pinned
      have inner : spelling.digits = [] → previous.octave.Inner := fun noDigits =>
        absurd noDigits pinned
      rcases (Spelling.note_eq_ok_iff inner).mp noteReading with ⟨denotes, inRange⟩
      exact denotes.soundsAt inRange pinned

/-- A pinned note sounds where its letter and its accidental lead, and an octave off for B sharp
and C flat. So the accidental makes a difference of at most one semitone, but of eleven for these
two. -/
theorem pinned_soundsAt {reference : Option Note} (reading : read token reference = .ok notes) :
    List.Forall₂ (fun spelling note => spelling.digits ≠ [] →
        spelling.SoundsAt (-12 * spelling.carry) note) (spellings token.toList) notes ∧
      ∀ plainToken plainReference plainNotes, read plainToken plainReference = .ok plainNotes →
        ∀ spelling note plainNote, (spelling, note) ∈ (spellings token.toList).zip notes →
          ({ spelling with accidental := .natural }, plainNote) ∈
            (spellings plainToken.toList).zip plainNotes →
          spelling.digits ≠ [] →
          (spelling.carry = 0 → (note.pitch - plainNote.pitch).natAbs ≤ 1) ∧
            (spelling.carry ≠ 0 → (note.pitch - plainNote.pitch).natAbs = 11) := by
  have sounds := soundsAt_of_place (place_of_read reading)
  refine ⟨sounds, ?_⟩
  intro plainToken plainReference plainNotes plainReading spelling note plainNote mem plainMem
    pinned
  have plainSounds := soundsAt_of_place (place_of_read plainReading)
  have sounds := (List.forall₂_iff_zip.mp sounds).2 mem pinned
  have plainSounds := (List.forall₂_iff_zip.mp plainSounds).2 plainMem pinned
  rw [sounds.pitch_sub plainSounds]
  exact Spelling.natAbs_of_carry

/-- B sharp, C flat and E flat in octave 4, with and without their signs. -/
theorem pinned_soundsAt_ends :
    let token := "b#4cb4eb4"
    let notes : List Note := [.ofMidi 60, .ofMidi 71, .ofMidi 63]
    read token none = .ok notes ∧
      List.Forall₂ (fun spelling note => spelling.digits ≠ [] →
        spelling.SoundsAt (-12 * spelling.carry) note) (spellings token.toList) notes ∧
      ((Note.ofMidi 60).pitch - (Note.ofMidi 71).pitch).natAbs = 11 ∧
      ((Note.ofMidi 63).pitch - (Note.ofMidi 64).pitch).natAbs ≤ 1 := by
  intro token notes
  have reading : read token none = .ok notes := by decide +kernel
  have plainReading : read "b4c4e4" none = .ok [.ofMidi 71, .ofMidi 60, .ofMidi 64] := by
    decide +kernel
  rcases pinned_soundsAt reading with ⟨sounds, differs⟩
  refine ⟨reading, sounds, ?_, ?_⟩
  · have bSharp := differs _ _ _ plainReading ⟨'b', .sharp, ['4']⟩ (.ofMidi 60) (.ofMidi 71)
      (by decide +kernel) (by decide +kernel) (by decide)
    exact bSharp.2 (by decide)
  · have eFlat := differs _ _ _ plainReading ⟨'e', .flat, ['4']⟩ (.ofMidi 63) (.ofMidi 64)
      (by decide +kernel) (by decide +kernel) (by decide)
    exact eFlat.1 (by decide)

/-- B sharp is not a semitone above the B of its octave. -/
theorem not_soundsAt_zero :
    ¬∀ token reference notes, read token reference = .ok notes →
      List.Forall₂ (fun spelling note => spelling.digits ≠ [] → spelling.SoundsAt 0 note)
        (spellings token.toList) notes := by
  intro soundAsWritten
  have reading : read "b#4" none = .ok [.middleC] := by decide +kernel
  have cut : spellings "b#4".toList = [⟨'b', .sharp, ['4']⟩] := by decide +kernel
  have sounds := soundAsWritten _ _ _ reading
  rw [cut] at sounds
  rcases sounds with _ | ⟨sounds, _⟩
  rcases sounds (by decide) with ⟨natural, number, found, numbered, number_eq⟩
  have natural_eq : natural = ⟨11⟩ := by
    apply Option.some.inj
    rw [← found]
    decide
  have number_eq_sixty : number = 60 := by
    apply Option.some.inj
    rw [← numbered]
    decide
  subst natural_eq number_eq_sixty
  revert number_eq
  decide

end LiveScore.Cluster
