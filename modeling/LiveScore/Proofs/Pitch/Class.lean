import LiveScore.Pitch.Class

/-!
# Letters, accidentals and classes

Fourteen characters name a class, seven letters in two cases. An accidental is one character or
none, and what is taken from the front of a text tells what stands there.
-/

namespace LiveScore

namespace PitchClass

/-- The letters that name a class. -/
def letters : List Char := ['A', 'B', 'C', 'D', 'E', 'F', 'G', 'a', 'b', 'c', 'd', 'e', 'f', 'g']

/-- The letters and the semitones above C that they stand for without a sign. -/
def naturals : List (Char × Nat) :=
  [('A', 9), ('B', 11), ('C', 0), ('D', 2), ('E', 4), ('F', 5), ('G', 7), ('a', 9), ('b', 11),
    ('c', 0), ('d', 2), ('e', 4), ('f', 5), ('g', 7)]

theorem toUpper_eq_or (c : Char) : c.toUpper = c ∨ c.toNat = c.toUpper.toNat + 32 := by
  unfold Char.toUpper
  split
  · right
    rename_i lower
    have least_le : 97 ≤ c.val.toNat := UInt32.le_iff_toNat_le.mp lower.1
    have le_greatest : c.val.toNat ≤ 122 := UInt32.le_iff_toNat_le.mp lower.2
    have shifted := UInt32.toNat_add c.val ('A'.val - 'a'.val)
    have down : ('A'.val - 'a'.val).toNat = 2 ^ 32 - 32 := by decide
    simp only [Char.toNat]
    omega
  · left
    rfl

theorem eq_or_of_toUpper {c upper : Char} (upper_eq : c.toUpper = upper) :
    c = upper ∨ c = Char.ofNat (upper.toNat + 32) := by
  rcases toUpper_eq_or c with same | shifted
  · left
    exact same.symm.trans upper_eq
  · right
    rw [← upper_eq, ← shifted, Char.ofNat_toNat]

theorem mem_naturals {letter : Char} {natural : PitchClass}
    (found : ofLetter? letter = some natural) :
    (letter, (natural.index : Nat)) ∈ naturals := by
  simp only [ofLetter?] at found
  split at found
  case h_8 => cases found
  all_goals
    cases found
    rename_i upper
    rcases eq_or_of_toUpper upper with rfl | rfl <;> decide

theorem exists_ofLetter?_eq {letter : Char} {semitones : Nat}
    (letter_mem : (letter, semitones) ∈ naturals) :
    ∃ natural, ofLetter? letter = some natural ∧ (natural.index : Nat) = semitones := by
  have named : ∀ entry ∈ naturals,
      (ofLetter? entry.1).map (fun natural => (natural.index : Nat)) = some entry.2 := by decide
  exact Option.map_eq_some_iff.mp (named _ letter_mem)

theorem ofLetter?_isSome_iff {letter : Char} : (ofLetter? letter).isSome ↔ letter ∈ letters := by
  constructor
  · intro named
    rcases Option.isSome_iff_exists.mp named with ⟨natural, found⟩
    have listed : ∀ entry ∈ naturals, entry.1 ∈ letters := by decide
    exact listed _ (mem_naturals found)
  · intro mem
    have allNamed : letters.all fun letter => (ofLetter? letter).isSome := by decide
    exact List.all_eq_true.mp allNamed letter mem

theorem index_ofSemitones (semitones : Int) :
    ((ofSemitones semitones).index : Int) = semitones % 12 := by
  simp only [ofSemitones]
  omega

end PitchClass

namespace Accidental

/-- The sign itself; a natural note has none. -/
def text : Accidental → List Char
  | natural => []
  | sharp => ['#']
  | flat => ['b']

theorem ofChar?_eq_none_iff {c : Char} : ofChar? c = none ↔ c ≠ '#' ∧ c ≠ 'b' := by
  unfold ofChar?
  split <;> simp_all

theorem text_of_ofChar? {c : Char} {accidental : Accidental}
    (sign : ofChar? c = some accidental) : accidental.text = [c] := by
  unfold ofChar? at sign
  split at sign <;> cases sign <;> rfl

theorem ne_natural_of_ofChar? {c : Char} {accidental : Accidental}
    (sign : ofChar? c = some accidental) : accidental ≠ natural := by
  rintro rfl
  cases text_of_ofChar? sign

/-- What is taken stood at the front of the text, and nothing is taken only if no sign did. -/
theorem takeFirst_eq_iff {text rest : List Char} {accidental : Accidental} :
    takeFirst text = (accidental, rest) ↔ text = accidental.text ++ rest ∧
      (accidental = natural → ∀ c, rest.head? = some c → c ≠ '#' ∧ c ≠ 'b') := by
  constructor
  · intro taken
    cases text with
    | nil =>
        cases taken
        simp [Accidental.text]
    | cons c following =>
        simp only [takeFirst] at taken
        split at taken
        · rename_i sign
          cases taken
          simp [text_of_ofChar? sign, ne_natural_of_ofChar? sign]
        · rename_i noSign
          cases taken
          simp [Accidental.text, ofChar?_eq_none_iff.mp noSign]
  · rintro ⟨rfl, alone⟩
    cases accidental with
    | natural =>
        cases rest with
        | nil => rfl
        | cons c following =>
            have noSign := ofChar?_eq_none_iff.mpr (alone rfl c rfl)
            simp [Accidental.text, takeFirst, noSign]
    | sharp => rfl
    | flat => rfl

end Accidental

end LiveScore
