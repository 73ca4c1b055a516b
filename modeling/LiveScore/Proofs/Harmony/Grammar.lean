import LiveScore.Proofs.Harmony.Bytes
import LiveScore.Proofs.Text.Blank

/-!
# How chord symbols are written

A chord symbol is written as the name of its root, a suffix of its quality and, after a slash, the
name of its bass. Blanks around the two parts do not count. No suffix starts with a sign, so that a
sign behind the letter always belongs to the root, and a symbol is read in the one way in which it
can be written.

Several names may write one symbol, since a class has more than one name and a quality more than one
suffix. They stand for the same notes. Without a bass these are the tones above the root, upwards.
-/

namespace LiveScore

namespace PitchClass

/-- The text is a letter with at most one sign, which leads from the letter to the class. -/
inductive Spells (pitchClass : PitchClass) : List Char → Prop
  | intro {letter : Char} {semitones : Nat} (accidental : Accidental)
      (letter_mem : (letter, semitones) ∈ naturals)
      (index_eq : (pitchClass.index : Int) = (semitones + accidental.semitones) % 12) :
      Spells pitchClass (letter :: accidental.text)

variable {pitchClass natural : PitchClass} {letter : Char} {text : List Char}

theorem alter_eq_iff {accidental : Accidental} : natural.alter accidental = pitchClass ↔
    (pitchClass.index : Int) = (natural.index + accidental.semitones) % 12 := by
  rw [alter, transpose, ← index_ofSemitones]
  constructor
  · rintro rfl
    rfl
  · intro same
    have sameIndex : (ofSemitones (natural.index + accidental.semitones)).index =
        pitchClass.index := by
      apply Fin.ext
      omega
    exact congrArg PitchClass.mk sameIndex

theorem spells_iff : pitchClass.Spells text ↔ ∃ letter natural accidental,
    ofLetter? letter = some natural ∧ natural.alter accidental = pitchClass ∧
      text = letter :: accidental.text := by
  constructor
  · rintro ⟨accidental, letter_mem, index_eq⟩
    rcases exists_ofLetter?_eq letter_mem with ⟨natural, found, rfl⟩
    exact ⟨_, natural, accidental, found, alter_eq_iff.mpr index_eq, rfl⟩
  · rintro ⟨letter, natural, accidental, found, class_eq, rfl⟩
    exact .intro accidental (mem_naturals found) (alter_eq_iff.mp class_eq)

end PitchClass

namespace Quality

variable {suffix : String} {quality : Quality}

theorem ofSuffix?_eq_some_iff : ofSuffix? suffix = some quality ↔ (suffix, quality) ∈ suffixes := by
  constructor
  · intro found
    rcases List.lookup_eq_some_iff.mp found with ⟨before, after, split, _⟩
    rw [split]
    simp
  · intro listed
    have each : ∀ entry ∈ suffixes, ofSuffix? entry.1 = some entry.2 := by decide
    exact each _ listed

theorem head?_suffix (listed : (suffix, quality) ∈ suffixes) :
    ∀ c, suffix.toList.head? = some c → c ≠ '#' ∧ c ≠ 'b' := by
  have each : ∀ entry ∈ suffixes,
      entry.1.toList.head? ≠ some '#' ∧ entry.1.toList.head? ≠ some 'b' := by decide
  have noSign := each _ listed
  intro c head
  rw [head] at noSign
  simpa using noSign

end Quality

namespace Harmony

namespace Symbol

/-- The text is the name of a root and a suffix of a quality, with blanks around them or without. -/
inductive WritesChord (root : PitchClass) (quality : Quality) (text : List Char) : Prop
  | intro {spelling : List Char} {suffix : String} (spells : root.Spells spelling)
      (listed : (suffix, quality) ∈ Quality.suffixes)
      (text_eq : Text.trim text = spelling ++ suffix.toList)

/-- The name is a chord and, after its first slash, a bass. -/
inductive Writes : Symbol → List Char → Prop
  | plain {root : PitchClass} {quality : Quality} {name : List Char} (noSlash : '/' ∉ name)
      (chord : WritesChord root quality name) : Writes ⟨root, quality, none⟩ name
  | slash {root bass : PitchClass} {quality : Quality} {left right : List Char}
      (noSlash : '/' ∉ left) (chord : WritesChord root quality left)
      (spells : bass.Spells (Text.trim right)) :
      Writes ⟨root, quality, some bass⟩ (left ++ '/' :: right)

variable {symbol : Symbol} {root : PitchClass} {quality : Quality} {text name : List Char}

theorem exists_spelling_of_takeRoot? {suffix : List Char}
    (taken : takeRoot? text = some (root, suffix)) :
    ∃ spelling, root.Spells spelling ∧ text = spelling ++ suffix := by
  cases text with
  | nil => cases taken
  | cons letter rest =>
      rcases Option.map_eq_some_iff.mp taken with ⟨natural, found, root_eq⟩
      cases sign : Accidental.takeFirst rest with
      | mk accidental following =>
          rw [sign] at root_eq
          cases root_eq
          refine ⟨letter :: accidental.text, ?_, ?_⟩
          · exact PitchClass.spells_iff.mpr ⟨letter, natural, accidental, found, rfl, rfl⟩
          · rw [(Accidental.takeFirst_eq_iff.mp sign).1, List.cons_append]

/-- What does not start with a sign can follow a root without becoming a part of its name. -/
theorem takeRoot?_append {spelling suffix : List Char} (spells : root.Spells spelling)
    (noSign : ∀ c, suffix.head? = some c → c ≠ '#' ∧ c ≠ 'b') :
    takeRoot? (spelling ++ suffix) = some (root, suffix) := by
  rcases PitchClass.spells_iff.mp spells with ⟨letter, natural, accidental, found, rfl, rfl⟩
  have sign : Accidental.takeFirst (accidental.text ++ suffix) = (accidental, suffix) :=
    Accidental.takeFirst_eq_iff.mpr ⟨rfl, fun _ => noSign⟩
  simp [takeRoot?, found, sign]

/-- A bass is read as a root after which nothing follows. -/
theorem bass_iff_takeRoot? {bass : PitchClass} :
    PitchClass.read? text = some bass ↔ takeRoot? (Text.trim text) = some (bass, []) := by
  rw [PitchClass.read?]
  cases Text.trim text with
  | nil => simp [takeRoot?]
  | cons letter rest =>
      cases found : PitchClass.ofLetter? letter with
      | none => simp [takeRoot?, found]
      | some natural =>
          cases sign : Accidental.takeFirst rest with
          | mk accidental following => cases following <;> simp [takeRoot?, found, sign]

theorem bass_iff_spells {bass : PitchClass} :
    PitchClass.read? text = some bass ↔ bass.Spells (Text.trim text) := by
  rw [bass_iff_takeRoot?]
  constructor
  · intro taken
    rcases exists_spelling_of_takeRoot? taken with ⟨spelling, spells, text_eq⟩
    rwa [text_eq, List.append_nil]
  · intro spells
    have taken : takeRoot? (Text.trim text ++ []) = some (bass, []) :=
      takeRoot?_append spells nofun
    rwa [List.append_nil] at taken

theorem readChord?_eq_some_iff :
    readChord? text = some (root, quality) ↔ WritesChord root quality text := by
  simp only [readChord?, Option.bind_eq_bind, Option.bind_eq_some_iff]
  constructor
  · rintro ⟨⟨_, suffix⟩, taken, _, found, same⟩
    cases same
    rcases exists_spelling_of_takeRoot? taken with ⟨spelling, spells, text_eq⟩
    exact .intro spells (Quality.ofSuffix?_eq_some_iff.mp found) (by simpa using text_eq)
  · rintro ⟨spells, listed, text_eq⟩
    have taken := takeRoot?_append spells (Quality.head?_suffix listed)
    rw [text_eq, taken]
    exact ⟨_, rfl, quality, by simpa using Quality.ofSuffix?_eq_some_iff.mpr listed, rfl⟩

theorem read?_of_noSlash (noSlash : '/' ∉ name) :
    read? name = (readChord? name).map fun (root, quality) => ⟨root, quality, none⟩ := by
  have absent : ∀ c ∈ name, (c == '/') = false := by
    intro c c_mem
    exact beq_false_of_ne (ne_of_mem_of_not_mem c_mem noSlash)
  rw [read?, Text.splitFirst?_eq_none absent]
  cases readChord? name <;> rfl

theorem read?_append {left right : List Char} (noSlash : '/' ∉ left) :
    read? (left ++ '/' :: right) = (PitchClass.read? right).bind fun bass =>
      (readChord? left).map fun (root, quality) => ⟨root, quality, some bass⟩ := by
  have absent : ∀ c ∈ left, (c == '/') = false := by
    intro c c_mem
    exact beq_false_of_ne (ne_of_mem_of_not_mem c_mem noSlash)
  rw [read?, Text.splitFirst?_append absent (beq_self_eq_true '/')]
  cases bass_eq : PitchClass.read? right <;> cases chord_eq : readChord? left <;>
    simp [bass_eq, chord_eq]

/-- A symbol is read from the names that write it. -/
theorem read?_eq_some_iff_writes : read? name = some symbol ↔ symbol.Writes name := by
  constructor
  · intro reading
    by_cases slash : '/' ∈ name
    · rcases List.eq_append_cons_of_mem slash with ⟨left, right, rfl, noSlash⟩
      rw [read?_append noSlash] at reading
      rcases Option.bind_eq_some_iff.mp reading with ⟨bass, bass_eq, found⟩
      rcases Option.map_eq_some_iff.mp found with ⟨⟨root, quality⟩, chord_eq, rfl⟩
      exact .slash noSlash (readChord?_eq_some_iff.mp chord_eq)
        (bass_iff_spells.mp bass_eq)
    · rw [read?_of_noSlash slash] at reading
      rcases Option.map_eq_some_iff.mp reading with ⟨⟨root, quality⟩, chord_eq, rfl⟩
      exact .plain slash (readChord?_eq_some_iff.mp chord_eq)
  · rintro (⟨noSlash, chord⟩ | ⟨noSlash, chord, spells⟩)
    · rw [read?_of_noSlash noSlash, readChord?_eq_some_iff.mpr chord, Option.map_some]
    · rw [read?_append noSlash, bass_iff_spells.mpr spells,
        readChord?_eq_some_iff.mpr chord, Option.bind_some, Option.map_some]

theorem midi?_tone (symbol : Symbol) {interval : Nat} (small : interval ≤ 14) :
    (symbol.tone interval).midi? = some (60 + (symbol.root.index : Nat) + interval) := by
  have root := symbol.pitch_rootNote
  rw [tone, Note.midi?_ofMidi (by omega), Option.some.injEq]
  omega

theorem map_midi?_tones (symbol : Symbol) : symbol.tones.map Note.midi? =
    symbol.quality.intervals.map fun interval =>
      some (60 + (symbol.root.index : Nat) + interval) := by
  rw [tones_eq, List.map_map]
  apply List.map_congr_left
  intro interval interval_mem
  exact symbol.midi?_tone (symbol.quality.interval_le interval interval_mem)

/-- The tones ascend as the intervals do. -/
theorem pairwise_tones (symbol : Symbol) :
    symbol.tones.Pairwise fun lower higher => lower.pitch < higher.pitch := by
  rw [tones_eq, List.pairwise_map]
  apply symbol.quality.pairwise_intervals.imp_of_mem
  intro lower higher lower_mem higher_mem less
  rw [pitch_tone (symbol.quality.interval_le lower lower_mem),
    pitch_tone (symbol.quality.interval_le higher higher_mem)]
  omega

end Symbol

variable {name : String}

theorem read_of_writes {symbol : Symbol} (writes : symbol.Writes name.toList) :
    read name = .ok symbol.notes := by
  rw [read, Symbol.read?_eq_some_iff_writes.mpr writes]

theorem read_of_not_writes (unwritten : ¬∃ symbol : Symbol, symbol.Writes name.toList) :
    read name = .error (.unknownChord name) := by
  have nothing : Symbol.read? name.toList = none := by
    apply Option.eq_none_iff_forall_ne_some.mpr
    intro symbol reading
    exact unwritten ⟨symbol, Symbol.read?_eq_some_iff_writes.mp reading⟩
  rw [read, nothing]

/-- Reading always comes to an end, with the notes of the symbol that the name writes, or with an
error that holds the whole name if it writes none. Without a bass the notes ascend, and lie above
the root, in the octave of middle C with its number 60, by the intervals of the quality. Names of
one symbol stand for the same notes. -/
theorem read_iff_writes (name : String) :
    readBytes? name = some (read name) ∧
      (∀ notes, read name = .ok notes ↔
        ∃ symbol : Symbol, symbol.Writes name.toList ∧ notes = symbol.notes) ∧
      (∀ error, read name = .error error ↔
        (¬∃ symbol : Symbol, symbol.Writes name.toList) ∧ error = .unknownChord name) ∧
      (∀ root quality, Symbol.Writes ⟨root, quality, none⟩ name.toList →
        ∃ notes, read name = .ok notes ∧
          notes.Pairwise (fun lower higher => lower.pitch < higher.pitch) ∧
          notes.map Note.midi? =
            quality.intervals.map fun interval : Nat =>
              some (60 + (root.index : Nat) + interval)) ∧
      ∀ (other : String) (symbol : Symbol), symbol.Writes name.toList →
        symbol.Writes other.toList → read other = read name := by
  refine ⟨readBytes?_eq name, ?_, ?_, ?_, ?_⟩
  · intro notes
    constructor
    · intro reading
      by_cases written : ∃ symbol : Symbol, symbol.Writes name.toList
      · rcases written with ⟨symbol, writes⟩
        rw [read_of_writes writes] at reading
        cases reading
        exact ⟨symbol, writes, rfl⟩
      · rw [read_of_not_writes written] at reading
        cases reading
    · rintro ⟨symbol, writes, rfl⟩
      exact read_of_writes writes
  · intro error
    constructor
    · intro reading
      have unwritten : ¬∃ symbol : Symbol, symbol.Writes name.toList := by
        rintro ⟨symbol, writes⟩
        rw [read_of_writes writes] at reading
        cases reading
      rw [read_of_not_writes unwritten] at reading
      cases reading
      exact ⟨unwritten, rfl⟩
    · rintro ⟨unwritten, rfl⟩
      exact read_of_not_writes unwritten
  · intro root quality writes
    exact ⟨_, read_of_writes writes, Symbol.pairwise_tones _, Symbol.map_midi?_tones _⟩
  · intro other symbol writes otherWrites
    rw [read_of_writes writes, read_of_writes otherWrites]

/-- Two names of the minor seventh on the class between F and G, with blanks and another case. -/
theorem read_iff_writes_enharmonic :
    let symbol : Symbol := ⟨⟨6⟩, .minor7, none⟩
    symbol.Writes " F#m7".toList ∧ symbol.Writes "gbmin7\u3000".toList ∧
      read "gbmin7\u3000" = read " F#m7" ∧
      ∃ notes, read " F#m7" = .ok notes ∧
        notes.map Note.midi? = [some 66, some 69, some 73, some 76] := by
  intro symbol
  have sharp : symbol.Writes " F#m7".toList := by
    have letter_mem : ('F', 5) ∈ PitchClass.naturals := by decide
    have spells : PitchClass.Spells ⟨6⟩ ['F', '#'] := .intro .sharp letter_mem (by decide)
    have listed : ("m7", .minor7) ∈ Quality.suffixes := by decide
    exact .plain (by decide) (.intro spells listed (by decide +kernel))
  have flat : symbol.Writes "gbmin7\u3000".toList := by
    have letter_mem : ('g', 7) ∈ PitchClass.naturals := by decide
    have spells : PitchClass.Spells ⟨6⟩ ['g', 'b'] := .intro .flat letter_mem (by decide)
    have listed : ("min7", .minor7) ∈ Quality.suffixes := by decide
    exact .plain (by decide) (.intro spells listed (by decide +kernel))
  rcases read_iff_writes " F#m7" with ⟨_, _, _, voiced, alike⟩
  rcases voiced ⟨6⟩ .minor7 sharp with ⟨notes, reading, _, numbers⟩
  exact ⟨sharp, flat, alike _ symbol sharp flat, notes, reading, numbers⟩

end Harmony

end LiveScore
