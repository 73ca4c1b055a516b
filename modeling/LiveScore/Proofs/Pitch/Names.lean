import LiveScore.Proofs.Pitch.Placement
import Mathlib.Data.Fintype.Basic
import Mathlib.Data.List.Forall2
import Mathlib.Tactic.FinCases

/-!
# Names that read back

The name of a note is a capital letter, a sharp where its class needs one, and the number of its
octave. Names can be written one after the other: a name ends in a digit and the next one starts
with a capital letter, which is no sign and no digit, so no spelling takes anything of its
neighbour. The digits pin each note, and the cluster of the names is the list of the notes.

The octave below octave 0 has a minus sign in its number, and no cluster with such a character can
be read.
-/

namespace LiveScore

/-- The letters in which names of notes are written. -/
def PitchClass.capitals : List Char := ['A', 'B', 'C', 'D', 'E', 'F', 'G']

theorem PitchClass.exists_name_eq (pitchClass : PitchClass) :
    ∃ letter ∈ capitals, ∃ accidental, pitchClass.name.toList = letter :: accidental.text ∧
      ∃ natural, ofLetter? letter = some natural ∧ pitchClass = natural.alter accidental := by
  rcases pitchClass with ⟨index⟩
  fin_cases index <;> first
    | exact ⟨_, by decide, .natural, rfl, _, rfl, rfl⟩
    | exact ⟨_, by decide, .sharp, rfl, _, rfl, rfl⟩

namespace Cluster

/-- The spelling is the name of the note. -/
structure Spelling.Names (spelling : Spelling) (note : Note) : Prop where
  text_eq : spelling.text = note.name.toList
  letter_mem : spelling.letter ∈ PitchClass.capitals
  pinned : spelling.digits ≠ []
  isDigit : ∀ c ∈ spelling.digits, Numeral.isDigit c
  denotes : ∀ previous, spelling.Denotes previous note

theorem toString_octave {number : Int} (nonneg : 0 ≤ number) (le_nine : number ≤ 9) :
    ∃ digit, (toString number).toList = [digit] ∧ Numeral.isDigit digit ∧
      number = Numeral.ofDigits [digit] := by
  have digits : ∀ n : Fin 10, (toString (n.val : Int)).toList = [Nat.digitChar n.val] ∧
      Numeral.isDigit (Nat.digitChar n.val) ∧
      (n.val : Int) = Numeral.ofDigits [Nat.digitChar n.val] := by
    decide
  have digit := digits ⟨number.toNat, by omega⟩
  simp only [Int.toNat_of_nonneg nonneg] at digit
  exact ⟨_, digit⟩

variable {token : String} {previous note : Note} {text : List Char} {units : List Spelling}
  {notes : List Note}

theorem Spelling.exists_names (inRange : note.InRange) (nonneg : 0 ≤ note.octave.number) :
    ∃ spelling : Spelling, spelling.Names note := by
  have bounds := Note.inRange_iff.mp inRange
  simp only [Note.pitch] at bounds
  rcases note.pitchClass.exists_name_eq with
    ⟨letter, letter_mem, accidental, name_eq, natural, found, class_eq⟩
  rcases toString_octave nonneg (by omega) with ⟨digit, octaveText, isDigit, octave_eq⟩
  refine ⟨⟨letter, accidental, [digit]⟩, ?_, letter_mem, ?_, ?_, ?_⟩
  · simp only [Spelling.text, Note.name, String.toList_append, name_eq, octaveText,
      List.cons_append]
  · simp
  · simpa using isDigit
  · intro previous
    refine ⟨⟨natural, found, class_eq⟩, fun _ => octave_eq, ?_, ?_⟩
    · intro noDigits
      cases noDigits
    · intro noDigits
      cases noDigits

theorem not_isDigit_of_capital {c : Char} (capital : c ∈ PitchClass.capitals) :
    Numeral.isDigit c = false ∧ c ≠ '#' ∧ c ≠ 'b' := by
  simp only [PitchClass.capitals, List.mem_cons, List.not_mem_nil, or_false] at capital
  rcases capital with rfl | rfl | rfl | rfl | rfl | rfl | rfl <;> decide

theorem ne_sign_of_isDigit {c : Char} (digit : Numeral.isDigit c) : c ≠ '#' ∧ c ≠ 'b' := by
  constructor <;> rintro rfl <;> revert digit <;> decide

/-- A name takes nothing of what starts with a capital letter. -/
theorem Spelling.Names.greedy {spelling : Spelling} (names : spelling.Names note)
    (capital : ∀ c, text.head? = some c → c ∈ PitchClass.capitals) : spelling.Greedy text := by
  refine ⟨names.isDigit, ?_, ?_⟩
  · intro _ c head
    apply ne_sign_of_isDigit
    apply names.isDigit
    cases digits : spelling.digits with
    | nil => exact absurd digits names.pinned
    | cons digit more =>
        rw [digits] at head
        cases head
        exact List.mem_cons_self
  · intro c head
    exact (not_isDigit_of_capital (capital c head)).1

/-- The names of a list of notes are cut where one ends and the next one starts. -/
theorem exists_cut_names (inRange : ∀ note ∈ notes, note.InRange)
    (nonneg : ∀ note ∈ notes, 0 ≤ note.octave.number) :
    ∃ units, List.Forall₂ Spelling.Names units notes ∧
      Cut (notes.flatMap fun note => note.name.toList) units := by
  induction notes with
  | nil => exact ⟨[], .nil, .nil⟩
  | cons note rest ih =>
      rcases List.forall_mem_cons.mp inRange with ⟨first, restInRange⟩
      rcases List.forall_mem_cons.mp nonneg with ⟨firstNonneg, restNonneg⟩
      rcases Spelling.exists_names first firstNonneg with ⟨spelling, names⟩
      rcases ih restInRange restNonneg with ⟨units, restNames, cut⟩
      refine ⟨spelling :: units, .cons names restNames, ?_⟩
      rw [List.flatMap_cons, ← names.text_eq]
      apply Cut.cons (names.greedy ?_) cut
      cases restNames with
      | nil => simp
      | cons next _ => simpa [← next.text_eq, Spelling.text] using next.letter_mem

theorem placed_of_names (inRange : ∀ note ∈ notes, note.InRange)
    (names : List.Forall₂ Spelling.Names units notes) (previous : Note) :
    Placed previous units notes := by
  induction names generalizing previous with
  | nil => exact .nil
  | cons first _ ih =>
      rcases List.forall_mem_cons.mp inRange with ⟨firstInRange, restInRange⟩
      exact .cons (first.denotes previous) firstInRange (ih restInRange _)

theorem mem_of_place (cut : Cut text units) (reading : place token previous units = .ok notes) :
    ∀ c ∈ text, c ∈ PitchClass.letters ∨ c = '#' ∨ Numeral.isDigit c := by
  induction cut generalizing previous notes with
  | nil => simp
  | @cons spelling rest others greedy _ ih =>
      rcases place_cons_eq_ok_iff.mp reading with ⟨note, following, noteReading, later, _⟩
      have named : spelling.Named := by
        by_contra unnamed
        rw [Spelling.note_of_not_named unnamed] at noteReading
        cases noteReading
      have sign : ∀ c ∈ spelling.accidental.text, c ∈ PitchClass.letters ∨ c = '#' := by
        cases spelling.accidental <;> simp [Accidental.text, PitchClass.letters]
      intro c c_mem
      simp only [Spelling.text, List.cons_append, List.append_assoc, List.mem_cons,
        List.mem_append] at c_mem
      rcases c_mem with rfl | signed | digit | c_mem
      · exact Or.inl named
      · exact (sign c signed).imp_right Or.inl
      · exact Or.inr (Or.inr (greedy.isDigit c digit))
      · exact ih later c c_mem

/-- Names read back as the notes they name if no octave number is negative. If one is, the names
are no cluster at all. -/
theorem read_join_name (inRange : ∀ note ∈ notes, note.InRange) (reference : Option Note) :
    (notes ≠ [] → (∀ note ∈ notes, 0 ≤ note.octave.number) →
        read (String.join (notes.map Note.name)) reference = .ok notes) ∧
      ((∃ note ∈ notes, note.octave.number = -1) →
        ∃ error, read (String.join (notes.map Note.name)) reference = .error error) := by
  have text_eq : (String.join (notes.map Note.name)).toList =
      notes.flatMap fun note => note.name.toList := by
    rw [String.toList_join, List.flatMap_map]
  constructor
  · intro nonempty nonneg
    rcases exists_cut_names inRange nonneg with ⟨units, names, cut⟩
    rw [← text_eq] at cut
    have units_ne_nil : units ≠ [] := by
      rintro rfl
      cases names
      exact nonempty rfl
    have pinned : ∀ first, units.head? = some first → first.digits ≠ [] := by
      intro first head
      cases names with
      | nil => cases head
      | cons firstNames _ =>
          cases head
          exact firstNames.pinned
    have placed := placed_of_names inRange names (reference.getD .middleC)
    rcases cut_iff.mp cut with rfl
    rw [read_of_spellings_ne_nil units_ne_nil]
    -- All spellings have digits, so that nothing is placed beside the reference.
    apply (place_eq_ok_iff ?_).mpr placed
    intro first head noDigits
    exact absurd noDigits (pinned first head)
  · rintro ⟨note, note_mem, below⟩
    cases reading : read (String.join (notes.map Note.name)) reference with
    | error error => exact ⟨error, rfl⟩
    | ok found =>
        have minus_mem : '-' ∈ (String.join (notes.map Note.name)).toList := by
          rw [text_eq]
          apply List.mem_flatMap_of_mem note_mem
          rw [Note.name, String.toList_append, below]
          apply List.mem_append_right
          decide
        have readable := mem_of_place (cut_iff.mpr rfl) (place_of_read reading) '-' minus_mem
        exact absurd readable (by decide)

/-- Three notes after a reference in the last octave, and the same notes after the lowest B. -/
theorem read_join_name_touching :
    let notes : List Note := [.ofMidi 59, .ofMidi 22, .ofMidi 127]
    let last : Note := ⟨.ofSemitones 0, .saturate 127⟩
    (∀ note ∈ .ofMidi 11 :: notes, note.InRange) ∧
      read "B3A#0G9" (some last) = .ok notes ∧
      ∃ error, read "B-1B3A#0G9" none = .error error := by
  intro notes last
  have inRange : ∀ note ∈ .ofMidi 11 :: notes, note.InRange := by decide
  have restInRange := (List.forall_mem_cons.mp inRange).2
  have names_eq : String.join (notes.map Note.name) = "B3A#0G9" := by decide +kernel
  have lowNames_eq : String.join ((.ofMidi 11 :: notes).map Note.name) = "B-1B3A#0G9" := by
    decide +kernel
  refine ⟨inRange, ?_, ?_⟩
  · rw [← names_eq]
    exact (read_join_name restInRange (some last)).1 (by decide) (by decide)
  · rw [← lowNames_eq]
    apply (read_join_name inRange none).2
    exact ⟨.ofMidi 11, List.mem_cons_self, by decide⟩

end Cluster

end LiveScore
