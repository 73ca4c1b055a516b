import LiveScore.Proofs.Harmony.Inversion

/-!
# Chord symbols in bytes

A text is kept in bytes and can be cut only where a character starts. The number of a note is kept
in a single byte, and a sum of numbers must fit into it. `readBytes?` reads a chord symbol by such
cuts and sums, any of which may fail. None of them does: the second character starts where the first
one ends, a sign takes one byte, and no tone lies far above the root. So nothing is lost by reading
symbols character by character.
-/

namespace LiveScore

/-- The text from the byte of a number on, unless this byte is inside a character or behind the
text. -/
def Text.fromByte? : List Char → Nat → Option (List Char)
  | text, 0 => some text
  | [], _ + 1 => none
  | c :: rest, byte + 1 =>
    if c.utf8Size ≤ byte + 1 then fromByte? rest (byte + 1 - c.utf8Size) else none

/-- The sum of two numbers of a byte, if it fits into a byte. -/
def byteSum? (first second : Nat) : Option Nat :=
  if first + second < 256 then some (first + second) else none

theorem Text.fromByte?_cons (c : Char) (rest : List Char) (byte : Nat) :
    fromByte? (c :: rest) (c.utf8Size + byte) = fromByte? rest byte := by
  have positive := c.utf8Size_pos
  cases total : c.utf8Size + byte with
  | zero => omega
  | succ before =>
      have inside : c.utf8Size ≤ before + 1 := by omega
      rw [fromByte?, if_pos inside, ← total, Nat.add_sub_cancel_left]

theorem Text.fromByte?_zero (text : List Char) : fromByte? text 0 = some text := by
  cases text <;> rfl

theorem PitchClass.alter_natural (pitchClass : PitchClass) :
    pitchClass.alter .natural = pitchClass := pitchClass.transpose_zero

theorem Accidental.utf8Size_of_ofChar? {c : Char} {accidental : Accidental}
    (sign : ofChar? c = some accidental) : c.utf8Size = 1 := by
  unfold ofChar? at sign
  split at sign <;> first | rfl | cases sign

namespace Harmony

namespace Symbol

/-- Takes the root off the front of a symbol. The suffix is cut out from a byte on. -/
def takeRootBytes? : List Char → Option (Option (PitchClass × List Char))
  | [] => some none
  | letter :: rest =>
    match PitchClass.ofLetter? letter, rest with
    | none, _ => some none
    | some natural, [] => some (some (natural, []))
    | some natural, c :: _ =>
      match Accidental.ofChar? c with
      | some accidental =>
        (Text.fromByte? (letter :: rest) (letter.utf8Size + 1)).map fun suffix =>
          some (natural.alter accidental, suffix)
      | none =>
        (Text.fromByte? (letter :: rest) letter.utf8Size).map fun suffix => some (natural, suffix)

/-- The tones of a chord above the number of its root. -/
def tonesBytes? (root : Nat) (quality : Quality) : Option (List Note) :=
  quality.intervals.mapM fun interval => (byteSum? root interval).map Note.ofMidi

/-- Brings a bass to the bottom of a chord. -/
def voice (root : Note) (tones : List Note) : Option PitchClass → List Note
  | none => tones
  | some bass => match tones.findIdx? fun tone => tone.pitchClass = bass with
    | some position => invert tones position
    | none => bassBelow root bass :: tones

/-- The notes of a symbol without its slash, over a bass. -/
def notesBytes? (name : String) (chord : List Char) (bass : Option PitchClass) :
    Option (Except ResolveError (List Note)) := do
  let some (root, suffix) ← takeRootBytes? (Text.trim chord) | return .error (.unknownChord name)
  let some quality := Quality.ofSuffix? (String.ofList suffix)
    | return .error (.unknownChord name)
  let rootNote : Note := ⟨root, rootOctave⟩
  let some number := rootNote.midi? | return .error (.unknownChord name)
  let tones ← tonesBytes? number quality
  return .ok (voice rootNote tones bass)

end Symbol

/-- The notes that a chord symbol stands for, unless a cut or a sum fails. -/
def readBytes? (name : String) : Option (Except ResolveError (List Note)) :=
  match Text.splitFirst? (· == '/') name.toList with
  | some (chord, bass) => match PitchClass.read? bass with
    | some bass => Symbol.notesBytes? name chord (some bass)
    | none => some (.error (.unknownChord name))
  | none => Symbol.notesBytes? name name.toList none

namespace Symbol

theorem takeRootBytes?_eq (text : List Char) : takeRootBytes? text = some (takeRoot? text) := by
  cases text with
  | nil => rfl
  | cons letter rest =>
      cases natural_eq : PitchClass.ofLetter? letter with
      | none => simp [takeRootBytes?, takeRoot?, natural_eq]
      | some natural =>
          cases rest with
          | nil =>
              simp [takeRootBytes?, takeRoot?, natural_eq, Accidental.takeFirst,
                PitchClass.alter_natural]
          | cons c following =>
              cases sign : Accidental.ofChar? c with
              | none =>
                  have cut := Text.fromByte?_cons letter (c :: following) 0
                  rw [Nat.add_zero, Text.fromByte?_zero] at cut
                  simp [takeRootBytes?, takeRoot?, natural_eq, Accidental.takeFirst, sign, cut,
                    PitchClass.alter_natural]
              | some accidental =>
                  have cut := Text.fromByte?_cons letter (c :: following) 1
                  have signCut := Text.fromByte?_cons c following 0
                  rw [Accidental.utf8Size_of_ofChar? sign, Text.fromByte?_zero] at signCut
                  rw [signCut] at cut
                  simp [takeRootBytes?, takeRoot?, natural_eq, Accidental.takeFirst, sign, cut]

theorem byteSum?_rootNote (symbol : Symbol) {interval : Nat} (small : interval ≤ 14) :
    (byteSum? symbol.rootNote.pitch.toNat interval).map Note.ofMidi =
      some (symbol.tone interval) := by
  have root := symbol.pitch_rootNote
  have fits : symbol.rootNote.pitch.toNat + interval < 256 := by omega
  rw [byteSum?, if_pos fits, Option.map_some, tone]

theorem tonesBytes?_eq (symbol : Symbol) :
    tonesBytes? symbol.rootNote.pitch.toNat symbol.quality = some symbol.tones := by
  have small := symbol.quality.interval_le
  rw [tonesBytes?, tones_eq]
  generalize symbol.quality.intervals = intervals at small ⊢
  induction intervals with
  | nil => rfl
  | cons interval rest ih =>
      rcases List.forall_mem_cons.mp small with ⟨first, others⟩
      simp [symbol.byteSum?_rootNote first, ih others]

theorem midi?_rootNote (symbol : Symbol) :
    symbol.rootNote.midi? = some symbol.rootNote.pitch.toNat := by
  have root := symbol.pitch_rootNote
  rw [Note.midi?, if_pos (by omega)]

theorem notesBytes?_eq (name : String) (chord : List Char) (bass : Option PitchClass) :
    notesBytes? name chord bass = some (match readChord? chord with
      | some (root, quality) => .ok (notes ⟨root, quality, bass⟩)
      | none => .error (.unknownChord name)) := by
  simp only [notesBytes?, readChord?, takeRootBytes?_eq]
  cases root_eq : takeRoot? (Text.trim chord) with
  | none => simp
  | some found =>
      rcases found with ⟨root, suffix⟩
      cases quality_eq : Quality.ofSuffix? (String.ofList suffix) with
      | none => simp [quality_eq]
      | some quality =>
          have number := midi?_rootNote ⟨root, quality, bass⟩
          have tones := tonesBytes?_eq ⟨root, quality, bass⟩
          simp only [rootNote] at number tones
          simp [quality_eq, number, tones]
          cases bass <;> rfl

end Symbol

/-- Reading never fails on the way: it comes to the notes of the symbol, or to its error. -/
theorem readBytes?_eq (name : String) : readBytes? name = some (read name) := by
  simp only [readBytes?, read, Symbol.read?]
  cases split : Text.splitFirst? (· == '/') name.toList with
  | none =>
      simp only [Symbol.notesBytes?_eq]
      cases Symbol.readChord? name.toList <;> simp
  | some sides =>
      rcases sides with ⟨chord, bass⟩
      cases bass_eq : PitchClass.read? bass with
      | none => simp [bass_eq]
      | some bassClass =>
          simp only [bass_eq, Symbol.notesBytes?_eq]
          cases Symbol.readChord? chord <;> simp

end Harmony

end LiveScore
