import LiveScore.Proofs.Pitch.Nearest
import LiveScore.Proofs.Pitch.Spelling

/-!
# The notes of a cluster

A spelling stands for a note once the note before it is known: digits name the octave, and without
digits the note is the one of its class that lies beside the note before. A cluster is read if each
of its spellings stands for a note in range. Otherwise the first spelling that does not is to blame,
and it says why.

Placing a note beside another one compares the octaves around it, and the first and the last octave
lack a neighbour. From a reference in range no spelling comes to them: each note that is placed is
in range again, and so has octaves on both sides.
-/

namespace LiveScore.Cluster

variable {token : String} {previous note other : Note} {spelling : Spelling}
  {units : List Spelling} {notes : List Note} {error : ResolveError}

namespace Spelling

/-- The letter names a class. -/
def Named (spelling : Spelling) : Prop := spelling.letter ∈ PitchClass.letters

/-- The spelling stands for the note after the note `previous`. The note need not be in range. -/
structure Denotes (spelling : Spelling) (previous note : Note) : Prop where
  exists_natural : ∃ natural, PitchClass.ofLetter? spelling.letter = some natural ∧
    note.pitchClass = natural.alter spelling.accidental
  octave_eq : spelling.digits ≠ [] →
    note.octave.number = Numeral.ofDigits spelling.digits
  beside : spelling.digits = [] → previous.Beside note
  only : spelling.digits = [] → ∀ other : Note, other.pitchClass = note.pitchClass →
    previous.Beside other → other = note

/-- Why the spelling stands for no note in range after the note `previous`. -/
inductive Fault (token : String) (previous : Note) (spelling : Spelling) : ResolveError → Prop
  | letter (unnamed : ¬spelling.Named) :
      Fault token previous spelling (.invalidNote spelling.letter token)
  | octave (named : spelling.Named) (pinned : spelling.digits ≠ [])
      (large : 127 < Numeral.ofDigits spelling.digits) :
      Fault token previous spelling (.outOfRange token)
  | range {note : Note} (denotes : spelling.Denotes previous note) (outside : ¬note.InRange) :
      Fault token previous spelling (.outOfRange token)

theorem named_iff :
    spelling.Named ↔ ∃ natural, PitchClass.ofLetter? spelling.letter = some natural := by
  rw [Named, ← PitchClass.ofLetter?_isSome_iff, Option.isSome_iff_exists]

/-- A named spelling stands for a note, in range or not, unless its digits name no octave. -/
theorem exists_denotes (named : spelling.Named)
    (inner : spelling.digits = [] → previous.octave.Inner)
    (small : Numeral.ofDigits spelling.digits ≤ 127) : ∃ note, spelling.Denotes previous note := by
  rcases named_iff.mp named with ⟨natural, found⟩
  by_cases unpinned : spelling.digits = []
  · refine ⟨Note.nearest (natural.alter spelling.accidental) previous, ?_, ?_, ?_, ?_⟩
    · exact ⟨natural, found, Note.pitchClass_nearest _ _⟩
    · intro pinned
      exact absurd unpinned pinned
    · intro _
      exact Note.beside_nearest _ (inner unpinned)
    · intro _ other sameClass beside
      exact beside.eq sameClass (Note.beside_nearest _ (inner unpinned))
  · let octave : Octave := ⟨Numeral.ofDigits spelling.digits, by omega, by omega⟩
    refine ⟨⟨natural.alter spelling.accidental, octave⟩, ?_, ?_, ?_, ?_⟩
    · exact ⟨natural, found, rfl⟩
    · intro _
      rfl
    · intro noDigits
      exact absurd noDigits unpinned
    · intro noDigits
      exact absurd noDigits unpinned

theorem note_of_denotes (inner : spelling.digits = [] → previous.octave.Inner)
    (denotes : spelling.Denotes previous note) :
    spelling.note token previous =
      if note.InRange then .ok note else .error (.outOfRange token) := by
  rcases denotes.exists_natural with ⟨natural, named, class_eq⟩
  have checked : (if note.midi?.isNone then Except.error (ResolveError.outOfRange token)
        else .ok note) =
      if note.InRange then .ok note else .error (.outOfRange token) := by
    cases numbered : note.midi? <;> simp [Note.InRange, numbered]
  rw [← checked]
  by_cases unpinned : spelling.digits = []
  · have note_eq : Note.nearest (natural.alter spelling.accidental) previous = note :=
      ((Note.eq_nearest_iff (inner unpinned)).mpr ⟨class_eq, denotes.beside unpinned⟩).symm
    simp only [Spelling.note, named, unpinned, note_eq]
    rfl
  · have octave : Octave.ofInt? (Numeral.ofDigits spelling.digits) = some note.octave :=
      Octave.ofInt?_eq_some_iff.mpr (denotes.octave_eq unpinned)
    simp only [Spelling.note, named, unpinned, octave, ← class_eq]
    rfl

theorem note_of_not_named (unnamed : ¬spelling.Named) :
    spelling.note token previous = .error (.invalidNote spelling.letter token) := by
  have missing : PitchClass.ofLetter? spelling.letter = none := by
    simpa [named_iff, Option.eq_none_iff_forall_ne_some] using unnamed
  simp only [Spelling.note, missing]
  rfl

theorem note_of_large (named : spelling.Named) (pinned : spelling.digits ≠ [])
    (large : 127 < Numeral.ofDigits spelling.digits) :
    spelling.note token previous = .error (.outOfRange token) := by
  rcases named_iff.mp named with ⟨natural, found⟩
  have missing : Octave.ofInt? (Numeral.ofDigits spelling.digits) = none := by
    apply Octave.ofInt?_eq_none_of_lt
    omega
  simp only [Spelling.note, found, pinned, missing]
  rfl

theorem note_of_fault (inner : spelling.digits = [] → previous.octave.Inner)
    (fault : spelling.Fault token previous error) :
    spelling.note token previous = .error error := by
  cases fault with
  | letter unnamed => exact note_of_not_named unnamed
  | octave named pinned large => exact note_of_large named pinned large
  | range denotes outside => simp [note_of_denotes inner denotes, outside]

theorem denotes_or_fault (token : String)
    (inner : spelling.digits = [] → previous.octave.Inner) :
    (∃ note, spelling.Denotes previous note ∧ note.InRange) ∨
      ∃ error, spelling.Fault token previous error := by
  by_cases named : spelling.Named
  · by_cases small : Numeral.ofDigits spelling.digits ≤ 127
    · rcases exists_denotes named inner small with ⟨note, denotes⟩
      by_cases inRange : note.InRange
      · exact Or.inl ⟨note, denotes, inRange⟩
      · exact Or.inr ⟨_, .range denotes inRange⟩
    · right
      refine ⟨_, .octave named ?_ (by omega)⟩
      intro noDigits
      simp [noDigits, Numeral.ofDigits] at small
  · exact Or.inr ⟨_, .letter named⟩

theorem note_eq_ok_iff (inner : spelling.digits = [] → previous.octave.Inner) :
    spelling.note token previous = .ok note ↔ spelling.Denotes previous note ∧ note.InRange := by
  constructor
  · intro reading
    rcases denotes_or_fault token inner with ⟨found, denotes, inRange⟩ | ⟨error, fault⟩
    · rw [note_of_denotes inner denotes, if_pos inRange] at reading
      cases reading
      exact ⟨denotes, inRange⟩
    · rw [note_of_fault inner fault] at reading
      cases reading
  · rintro ⟨denotes, inRange⟩
    rw [note_of_denotes inner denotes, if_pos inRange]

end Spelling

/-- The spellings stand for the notes, each after the note before it, and all are in range. -/
inductive Placed : Note → List Spelling → List Note → Prop
  | nil {previous : Note} : Placed previous [] []
  | cons {previous note : Note} {spelling : Spelling} {units : List Spelling} {notes : List Note}
      (denotes : spelling.Denotes previous note) (inRange : note.InRange)
      (following : Placed note units notes) :
      Placed previous (spelling :: units) (note :: notes)

theorem place_cons_eq_ok_iff {rest : List Spelling} :
    place token previous (spelling :: rest) = .ok notes ↔
      ∃ note following, spelling.note token previous = .ok note ∧
        place token note rest = .ok following ∧ note :: following = notes := by
  simp only [place, bind, Except.bind]
  cases spelling.note token previous with
  | error fault => simp
  | ok note => cases later : place token note rest <;> simp [later, pure, Except.pure]

/-- The reference needs neighbours only if the first spelling is placed beside it. -/
theorem place_eq_ok_iff (inner : ∀ first, units.head? = some first → first.digits = [] →
      previous.octave.Inner) :
    place token previous units = .ok notes ↔ Placed previous units notes := by
  induction units generalizing previous notes with
  | nil =>
      constructor
      · intro reading
        cases reading
        exact .nil
      · rintro ⟨⟩
        rfl
  | cons spelling rest ih =>
      have first (note : Note) : spelling.note token previous = .ok note ↔
          spelling.Denotes previous note ∧ note.InRange :=
        Spelling.note_eq_ok_iff (inner spelling rfl)
      rw [place_cons_eq_ok_iff]
      constructor
      · rintro ⟨note, following, reading, later, rfl⟩
        rcases (first note).mp reading with ⟨denotes, inRange⟩
        -- The note is in range, so that the next spelling can be placed beside it.
        exact .cons denotes inRange ((ih fun _ _ _ => inRange.inner).mp later)
      · rintro (_ | ⟨denotes, inRange, following⟩)
        exact ⟨_, _, (first _).mpr ⟨denotes, inRange⟩,
          (ih fun _ _ _ => inRange.inner).mpr following, rfl⟩

theorem read_of_spellings_eq_nil {reference : Option Note} (empty : spellings token.toList = []) :
    read token reference = .error .emptyCluster := by
  simp only [read, empty]

theorem read_of_spellings_ne_nil {reference : Option Note}
    (nonempty : spellings token.toList ≠ []) :
    read token reference = place token (reference.getD .middleC) (spellings token.toList) := by
  simp only [read]
  split
  · contradiction
  · rename_i split
    rw [split]

theorem place_of_read {reference : Option Note} (reading : read token reference = .ok notes) :
    place token (reference.getD .middleC) (spellings token.toList) = .ok notes := by
  by_cases empty : spellings token.toList = []
  · rw [read_of_spellings_eq_nil empty] at reading
    cases reading
  · rw [← read_of_spellings_ne_nil empty]
    exact reading

end LiveScore.Cluster
