import LiveScore.Harmony.Symbol
import LiveScore.Proofs.Pitch.Class
import LiveScore.Proofs.Pitch.Nearest
import Mathlib.Data.List.Nodup
import Mathlib.Data.List.Perm.Basic

/-!
# The bass of a chord

The tones of a chord ascend from its root and have different classes. A bass among them comes first
when the tones below it move up an octave, and any other bass is put below the root. So the classes
are always those of the chord and of its bass, each of them once, and the first note is the bass.

It is the lowest note unless the bass is the ninth of the chord. The ninth lies more than an octave
above the root, so that the root is still below it after its move.
-/

namespace LiveScore

theorem PitchClass.transpose_zero (pitchClass : PitchClass) :
    pitchClass.transpose 0 = pitchClass := by
  rcases pitchClass with ⟨index⟩
  simp only [transpose, ofSemitones, PitchClass.mk.injEq, Fin.ext_iff]
  omega

theorem PitchClass.transpose_eq_iff {pitchClass : PitchClass} {first second : Nat} :
    pitchClass.transpose first = pitchClass.transpose second ↔ first % 12 = second % 12 := by
  constructor
  · intro same
    have sameIndex := congrArg (fun transposed => (transposed.index : Int)) same
    simp only [transpose, index_ofSemitones] at sameIndex
    omega
  · intro same
    simp only [transpose, ofSemitones, PitchClass.mk.injEq, Fin.mk.injEq]
    omega

namespace Quality

variable {quality : Quality}

theorem exists_intervals_eq (quality : Quality) : ∃ upper, quality.intervals = 0 :: upper := by
  cases quality <;> exact ⟨_, rfl⟩

theorem pairwise_intervals (quality : Quality) : quality.intervals.Pairwise (· < ·) := by
  cases quality <;> decide

/-- The tones of a chord have different classes. -/
theorem pairwise_intervals_mod (quality : Quality) :
    quality.intervals.Pairwise fun first second => first % 12 ≠ second % 12 := by
  cases quality <;> decide

/-- Only a ninth lies as far above the root as an octave. -/
theorem interval_lt_or_eq (quality : Quality) :
    ∀ interval ∈ quality.intervals, interval < 12 ∨ interval = 14 := by
  cases quality <;> decide

theorem interval_le (quality : Quality) : ∀ interval ∈ quality.intervals, interval ≤ 14 := by
  intro interval interval_mem
  have bound := quality.interval_lt_or_eq interval interval_mem
  omega

end Quality

namespace Harmony.Symbol

variable {symbol : Symbol}

/-- The class that belongs at the bottom of the chord. -/
def lowest (symbol : Symbol) : PitchClass := symbol.bass.getD symbol.root

/-- The classes of the chord tones, from the root upwards. -/
def toneClasses (symbol : Symbol) : List PitchClass :=
  symbol.quality.intervals.map fun interval : Nat => symbol.root.transpose interval

/-- The classes of the chord tones, and before them that of a bass which is none of these. -/
def classes (symbol : Symbol) : List PitchClass :=
  (symbol.bass.toList.filter fun bass => bass ∉ symbol.toneClasses) ++ symbol.toneClasses

/-- The bass is the ninth of the chord. -/
def NinthInBass (symbol : Symbol) : Prop :=
  14 ∈ symbol.quality.intervals ∧ symbol.bass = some (symbol.root.transpose 14)

/-- A note of a chord in root position. -/
def tone (symbol : Symbol) (interval : Nat) : Note :=
  Note.ofMidi (symbol.rootNote.pitch.toNat + interval)

theorem pitch_rootNote (symbol : Symbol) : symbol.rootNote.pitch = 60 + symbol.root.index := by
  simp only [Note.pitch, rootNote, rootOctave, Octave.middle, Octave.saturate]
  omega

theorem pitch_tone {interval : Nat} (small : interval ≤ 14) :
    (symbol.tone interval).pitch = symbol.rootNote.pitch + interval := by
  have root := symbol.pitch_rootNote
  simp only [tone]
  rw [Note.pitch_ofMidi (by omega)]
  omega

theorem pitchClass_tone (symbol : Symbol) (interval : Nat) :
    (symbol.tone interval).pitchClass = symbol.root.transpose interval := by
  have root := symbol.pitch_rootNote
  simp only [tone, Note.ofMidi, PitchClass.transpose, PitchClass.ofSemitones,
    PitchClass.mk.injEq, Fin.mk.injEq]
  omega

theorem tones_eq (symbol : Symbol) : symbol.tones = symbol.quality.intervals.map symbol.tone := rfl

theorem map_pitchClass_tones (symbol : Symbol) :
    symbol.tones.map Note.pitchClass = symbol.toneClasses := by
  simp [tones_eq, toneClasses, Function.comp_def, pitchClass_tone]

theorem nodup_toneClasses (symbol : Symbol) : symbol.toneClasses.Nodup := by
  simp only [toneClasses, List.Nodup, List.pairwise_map, ne_eq, PitchClass.transpose_eq_iff]
  exact symbol.quality.pairwise_intervals_mod

theorem classes_of_bass_eq_none (noBass : symbol.bass = none) :
    symbol.classes = symbol.toneClasses := by
  simp [classes, noBass]

theorem classes_of_mem {bass : PitchClass} (bass_eq : symbol.bass = some bass)
    (bass_mem : bass ∈ symbol.toneClasses) : symbol.classes = symbol.toneClasses := by
  simp [classes, bass_eq, bass_mem]

theorem classes_of_not_mem {bass : PitchClass} (bass_eq : symbol.bass = some bass)
    (foreign : bass ∉ symbol.toneClasses) : symbol.classes = bass :: symbol.toneClasses := by
  simp [classes, bass_eq, foreign]

theorem nodup_classes (symbol : Symbol) : symbol.classes.Nodup := by
  have tones := symbol.nodup_toneClasses
  cases bass_eq : symbol.bass with
  | none =>
      rw [classes_of_bass_eq_none bass_eq]
      exact tones
  | some bass =>
      by_cases bass_mem : bass ∈ symbol.toneClasses
      · rw [classes_of_mem bass_eq bass_mem]
        exact tones
      · rw [classes_of_not_mem bass_eq bass_mem]
        exact List.nodup_cons.mpr ⟨bass_mem, tones⟩

theorem interval_eq_of_transpose_eq {first second : Nat}
    (first_mem : first ∈ symbol.quality.intervals) (second_mem : second ∈ symbol.quality.intervals)
    (same : symbol.root.transpose first = symbol.root.transpose second) : first = second :=
  List.inj_on_of_nodup_map symbol.nodup_toneClasses first_mem second_mem same

theorem bassBelow_lt (symbol : Symbol) (bass : PitchClass) :
    (bassBelow symbol.rootNote bass).pitchClass = bass ∧
      (bassBelow symbol.rootNote bass).pitch < symbol.rootNote.pitch := by
  have root := symbol.pitch_rootNote
  have inner : symbol.rootNote.octave.Inner := by
    simp only [Octave.Inner, rootNote, rootOctave, Octave.middle, Octave.saturate]
    omega
  have beside := Note.beside_nearest bass inner
  have class_eq := Note.pitchClass_nearest bass symbol.rootNote
  simp only [bassBelow]
  generalize Note.nearest bass symbol.rootNote = below at beside class_eq
  simp only [Note.Beside] at beside
  split
  · have pitch_eq : below.pitch = (below.octave.number + 1) * 12 + below.pitchClass.index := rfl
    refine ⟨class_eq, ?_⟩
    rw [Note.pitch_shiftOctaves (by omega) (by omega)]
    omega
  · exact ⟨class_eq, by omega⟩

theorem pitch_lifted {interval : Nat} (small : interval ≤ 14) :
    ((symbol.tone interval).shiftOctaves 1).pitch = (symbol.tone interval).pitch + 12 := by
  have root := symbol.pitch_rootNote
  have tone := symbol.pitch_tone small
  have pitch_eq : (symbol.tone interval).pitch =
    ((symbol.tone interval).octave.number + 1) * 12 + (symbol.tone interval).pitchClass.index := rfl
  rw [Note.pitch_shiftOctaves (by omega) (by omega)]
  omega

/-- The notes have the classes of a chord, each once, and the lowest class of the chord comes first.
It is the lowest note exactly if the ninth is not in the bass. -/
structure Voiced (symbol : Symbol) (notes : List Note) : Prop where
  perm : (notes.map Note.pitchClass).Perm symbol.classes
  exists_first : ∃ first others, notes = first :: others ∧ first.pitchClass = symbol.lowest ∧
    ((∀ other ∈ others, first.pitch < other.pitch) ↔ ¬symbol.NinthInBass)

section Split

variable {before after : List Nat} {interval : Nat}
  (split : symbol.quality.intervals = before ++ interval :: after)

include split

theorem pitch_lt_of_mem_after :
    ∀ other ∈ after.map symbol.tone, (symbol.tone interval).pitch < other.pitch := by
  have ascending := symbol.quality.pairwise_intervals
  rw [split, List.pairwise_append, List.pairwise_cons] at ascending
  intro other other_mem
  rcases List.mem_map.mp other_mem with ⟨higher, higher_mem, rfl⟩
  have higher_gt := ascending.2.1.1 higher higher_mem
  have higher_le := symbol.quality.interval_le higher (by simp [split, higher_mem])
  rw [pitch_tone higher_le, pitch_tone (by omega)]
  omega

/-- The root is below a ninth, and an octave does not lift it over the ninth. -/
theorem forall_lt_add_octave_iff : (∀ lower ∈ before, interval < lower + 12) ↔ interval ≠ 14 := by
  have bound := symbol.quality.interval_lt_or_eq interval (by simp [split])
  constructor
  · rintro below rfl
    rcases symbol.quality.exists_intervals_eq with ⟨upper, intervals_eq⟩
    rw [split] at intervals_eq
    cases before with
    | nil => simp at intervals_eq
    | cons root between =>
        have root_eq : root = 0 := by
          simpa using And.left (List.cons.inj intervals_eq)
        have root_below := below root (by simp)
        omega
  · intro notNinth lower _
    omega

theorem pitch_lt_lifted_iff :
    (∀ other ∈ before.map fun lower => (symbol.tone lower).shiftOctaves 1,
      (symbol.tone interval).pitch < other.pitch) ↔ interval ≠ 14 := by
  have interval_le := symbol.quality.interval_le interval (by simp [split])
  rw [← forall_lt_add_octave_iff split, List.forall_mem_map]
  apply forall₂_congr
  intro lower lower_mem
  have lower_le := symbol.quality.interval_le lower (by simp [split, lower_mem])
  rw [pitch_lifted lower_le, pitch_tone lower_le, pitch_tone interval_le]
  omega

theorem ninthInBass_iff (bass_eq : symbol.bass = some (symbol.root.transpose interval)) :
    symbol.NinthInBass ↔ interval = 14 := by
  have interval_mem : interval ∈ symbol.quality.intervals := by
    simp [split]
  constructor
  · rintro ⟨ninth_mem, ninth_eq⟩
    apply symbol.interval_eq_of_transpose_eq interval_mem ninth_mem
    exact Option.some.inj (bass_eq.symm.trans ninth_eq)
  · rintro rfl
    exact ⟨interval_mem, bass_eq⟩

theorem invert_tones : invert symbol.tones before.length = symbol.tone interval ::
    (after.map symbol.tone ++ before.map fun lower => (symbol.tone lower).shiftOctaves 1) := by
  simp [invert, tones_eq, split, Function.comp_def]

theorem voiced_invert (bass_eq : symbol.bass = some (symbol.root.transpose interval)) :
    symbol.Voiced (invert symbol.tones before.length) := by
  constructor
  · have bass_mem : symbol.root.transpose interval ∈ symbol.toneClasses := by
      simp [toneClasses, split]
    rw [classes_of_mem bass_eq bass_mem, ← map_pitchClass_tones, invert_tones split, tones_eq,
      split]
    -- A shift by octaves keeps the class, so that only the order is new.
    simp only [List.map_cons, List.map_append, List.map_map, Note.shiftOctaves, Function.comp_def]
    exact @List.perm_append_comm _ (_ :: _) _
  · refine ⟨_, _, invert_tones split, ?_, ?_⟩
    · simp [pitchClass_tone, lowest, bass_eq]
    · rw [ninthInBass_iff split bass_eq, ← ne_eq, ← pitch_lt_lifted_iff split,
        List.forall_mem_append]
      exact and_iff_right (pitch_lt_of_mem_after split)

end Split

theorem voiced_of_bass_eq_none (noBass : symbol.bass = none) : symbol.Voiced symbol.tones := by
  constructor
  · rw [map_pitchClass_tones, classes_of_bass_eq_none noBass]
  · rcases symbol.quality.exists_intervals_eq with ⟨upper, intervals_eq⟩
    have higher : ∀ other ∈ upper.map symbol.tone, (symbol.tone 0).pitch < other.pitch :=
      pitch_lt_of_mem_after (intervals_eq.trans (List.nil_append _).symm)
    refine ⟨symbol.tone 0, upper.map symbol.tone, ?_, ?_, ?_⟩
    · simp [tones_eq, intervals_eq]
    · simp [pitchClass_tone, lowest, noBass, PitchClass.transpose_zero]
    · apply iff_of_true higher
      simp [NinthInBass, noBass]

theorem voiced_bassBelow {bass : PitchClass} (bass_eq : symbol.bass = some bass)
    (foreign : bass ∉ symbol.toneClasses) :
    symbol.Voiced (bassBelow symbol.rootNote bass :: symbol.tones) := by
  rcases symbol.bassBelow_lt bass with ⟨class_eq, below⟩
  constructor
  · rw [List.map_cons, class_eq, map_pitchClass_tones, classes_of_not_mem bass_eq foreign]
  · refine ⟨_, _, rfl, ?_, ?_⟩
    · simp [class_eq, lowest, bass_eq]
    · apply iff_of_true
      · rw [tones_eq, List.forall_mem_map]
        intro interval interval_mem
        rw [pitch_tone (symbol.quality.interval_le interval interval_mem)]
        omega
      · rintro ⟨ninth_mem, ninth_eq⟩
        apply foreign
        rw [Option.some.inj (bass_eq.symm.trans ninth_eq)]
        exact List.mem_map_of_mem ninth_mem

theorem exists_split {bass : PitchClass} {position : Nat}
    (found : symbol.tones.findIdx? (fun tone => tone.pitchClass = bass) = some position) :
    ∃ before interval after, symbol.quality.intervals = before ++ interval :: after ∧
      before.length = position ∧ symbol.root.transpose (interval : Nat) = bass := by
  rw [tones_eq, List.findIdx?_map] at found
  rcases List.findIdx?_eq_some_iff_getElem.mp found with ⟨position_lt, matched, _⟩
  refine ⟨symbol.quality.intervals.take position, symbol.quality.intervals[position],
    symbol.quality.intervals.drop (position + 1), ?_, ?_, ?_⟩
  · simp
  · simp only [List.length_take]
    omega
  · simpa [pitchClass_tone] using matched

theorem voiced_notes (symbol : Symbol) : symbol.Voiced symbol.notes := by
  simp only [notes]
  cases bass_eq : symbol.bass with
  | none => exact voiced_of_bass_eq_none bass_eq
  | some bass =>
      cases found : symbol.tones.findIdx? fun tone => tone.pitchClass = bass with
      | some position =>
          rcases exists_split found with ⟨before, interval, after, split, rfl, rfl⟩
          simpa only [found] using voiced_invert split bass_eq
      | none =>
          simp only [found]
          apply voiced_bassBelow bass_eq
          rw [List.findIdx?_eq_none_iff] at found
          simpa [← map_pitchClass_tones] using found

end Symbol

variable {name : String} {notes : List Note}

/-- The bass of a chord, or its root, is its lowest note unless it is the ninth. -/
theorem read_lowest_iff (reading : read name = .ok notes) :
    ∃ symbol, Symbol.read? name.toList = some symbol ∧
      (notes.map Note.pitchClass).Perm symbol.classes ∧ (notes.map Note.pitchClass).Nodup ∧
      ∃ first others, notes = first :: others ∧ first.pitchClass = symbol.lowest ∧
        ((∀ other ∈ others, first.pitch < other.pitch) ↔ ¬symbol.NinthInBass) := by
  simp only [read] at reading
  split at reading
  case h_1 symbol symbol_eq =>
    cases reading
    have voiced := symbol.voiced_notes
    refine ⟨symbol, symbol_eq, voiced.perm, ?_, voiced.exists_first⟩
    exact voiced.perm.nodup_iff.mpr symbol.nodup_classes
  case h_2 => cases reading

/-- The major seventh in the bass: the three tones below it move over it, and the ninth is there. -/
theorem read_lowest_iff_seventh :
    let name := "Bbmaj9 / a"
    let notes := [81, 84, 82, 86, 89].map Note.ofMidi
    read name = .ok notes ∧ ∃ symbol, Symbol.read? name.toList = some symbol ∧
      (notes.map Note.pitchClass).Perm symbol.classes ∧ (notes.map Note.pitchClass).Nodup ∧
      symbol.lowest = ⟨9⟩ ∧ ¬symbol.NinthInBass := by
  intro name notes
  have reading : read name = .ok notes := by decide +kernel
  rcases read_lowest_iff reading with
    ⟨symbol, symbol_eq, perm, nodup, first, others, notes_eq, first_eq, lowest_iff⟩
  rcases List.cons.inj notes_eq with ⟨rfl, rfl⟩
  refine ⟨reading, symbol, symbol_eq, perm, nodup, ?_, lowest_iff.mp (by decide)⟩
  rw [← first_eq]
  decide

/-- With its ninth in the bass, C9 has its root two semitones below the bass. -/
theorem not_forall_first_lowest :
    ¬∀ name notes, read name = .ok notes →
      ∃ first others, notes = first :: others ∧ ∀ other ∈ others, first.pitch < other.pitch := by
  intro firstLowest
  have reading : read "C9/D" = .ok ([74, 72, 76, 79, 82].map Note.ofMidi) := by decide +kernel
  rcases firstLowest _ _ reading with ⟨first, others, notes_eq, lowest⟩
  cases notes_eq
  have root_above := lowest (Note.ofMidi 72) (by simp)
  revert root_above
  decide

end Harmony

end LiveScore
