import LiveScore.Proofs.Numeric.Numeral
import LiveScore.Proofs.Pitch.Nearest
import LiveScore.Proofs.Text.Blank
import LiveScore.Score.Measure
import Mathlib.Data.List.Forall2

/-!
# Chord references

A chord reference names a chord, the octave for its first note if there is one, and a hold. The
distance from the first note of the chord to that octave is cut to the range of octave numbers
before the chord is moved. With a chord that starts anywhere near the range of notes the cut makes
no difference: a chord that would have to go further ends up out of range either way, and is
refused. A chord that starts more than 127 octaves below the octave that is named, in the lowest
octaves that there are, stops short of it within the range, and so does one that comes down from
the highest octave.
-/

namespace LiveScore

/-- A number of octaves, cut to the range of octave numbers. -/
def Octave.cut (octaves : Int) : Int := max (-128) (min octaves 127)

namespace Note

/-- The note is the other one moved by a number of octaves. -/
structure MovedBy (octaves : Int) (note moved : Note) : Prop where
  pitchClass_eq : moved.pitchClass = note.pitchClass
  octave_eq : moved.octave.number = note.octave.number + octaves

/-- The note would be in range if it were moved by a number of octaves. -/
def Fits (octaves : Int) (note : Note) : Prop :=
  0 ≤ note.pitch + 12 * octaves ∧ note.pitch + 12 * octaves ≤ 127

instance (octaves : Int) (note : Note) : Decidable (note.Fits octaves) :=
  inferInstanceAs (Decidable (_ ∧ _))

variable {note : Note} {octaves : Int}

/-- A note that stops at the end of the octave numbers is out of range, as it would be without. -/
theorem inRange_shiftOctaves_iff : (note.shiftOctaves octaves).InRange ↔ note.Fits octaves := by
  have least_le := note.octave.least_le
  have le_greatest := note.octave.le_greatest
  simp only [inRange_iff, Fits, shiftOctaves, pitch, Octave.saturate]
  omega

theorem Fits.movedBy (fits : note.Fits octaves) :
    note.MovedBy octaves (note.shiftOctaves octaves) := by
  refine ⟨rfl, ?_⟩
  simp only [Fits, pitch] at fits
  simp only [shiftOctaves, Octave.saturate]
  omega

/-- Moving a note less far, as far as octave numbers go, does not take it past the range. -/
theorem Fits.cut (fits : note.Fits octaves) : note.Fits (Octave.cut octaves) := by
  have least_le := note.octave.least_le
  have le_greatest := note.octave.le_greatest
  simp only [Fits, pitch, Octave.cut] at fits ⊢
  omega

end Note

/-- The parts of the text after the colon of a chord reference. -/
structure ChordReference where
  name : List Char
  /-- What stands after a colon behind the name, without the hold. -/
  octave? : Option (List Char)
  held : Bool
deriving DecidableEq

namespace ChordReference

/-- The text of the octave, which may be empty or absent. -/
def octave (reference : ChordReference) : List Char := reference.octave?.getD []

/-- How a reference is written. -/
def text (reference : ChordReference) : List Char :=
  reference.name ++ reference.octave?.elim [] (':' :: ·) ++ if reference.held then ['-'] else []

/-- The first colon ends the name, and a hyphen at the end is a hold. -/
structure Proper (reference : ChordReference) : Prop where
  no_colon : ':' ∉ reference.name
  held_of_hyphen : reference.text.getLast? = some '-' → reference.held = true

/-- The number of octaves by which the reference asks to move a chord with this first note. It asks
for none without an octave, and for nothing if the octave is not the number of one. -/
def Asks (reference : ChordReference) (first : Note) (octaves : Int) : Prop :=
  if reference.octave = [] then octaves = 0
  else ∃ number, Numeral.Writes reference.octave number ∧ -128 ≤ number ∧ number ≤ 127 ∧
    octaves = number - first.octave.number

variable {reference : ChordReference} {first : Note} {octaves other : Int}

theorem Asks.unique (asks : reference.Asks first octaves) (asksOther : reference.Asks first other) :
    octaves = other := by
  unfold Asks at asks asksOther
  split at asks
  · rename_i unnamed
    rw [if_pos unnamed] at asksOther
    rw [asks, asksOther]
  · rename_i named
    rw [if_neg named] at asksOther
    rcases asks with ⟨number, writes, _, _, rfl⟩
    rcases asksOther with ⟨otherNumber, writesOther, _, _, rfl⟩
    rw [writes.unique writesOther]

/-- A hyphen after a text is its hold if the text has none at its end to be taken for one. -/
theorem takeHold_append {text : List Char} {held : Bool}
    (proper : held = false → text.getLast? ≠ some '-') :
    Voicing.takeHold (text ++ if held then ['-'] else []) = (text, held) := by
  cases held with
  | true => simp [Voicing.takeHold]
  | false => simp [Voicing.takeHold, proper rfl]

theorem Proper.splitReference_text (proper : reference.Proper) :
    Voicing.splitReference reference.text =
      (reference.name, reference.octave, reference.held) := by
  rcases proper with ⟨no_colon, held_of_hyphen⟩
  rcases reference with ⟨name, octave?, held⟩
  have noColon : ∀ c ∈ name, (c == ':') = false := by
    intro c c_mem
    rw [beq_eq_false_iff_ne]
    rintro rfl
    exact no_colon c_mem
  simp only [text, octave] at held_of_hyphen ⊢
  cases octave? with
  | none =>
      have unheld : held = false → name.getLast? ≠ some '-' := by
        rintro rfl hyphen
        simp [hyphen] at held_of_hyphen
      have absent : ∀ c ∈ name ++ (if held then ['-'] else []), (c == ':') = false := by
        intro c c_mem
        rcases List.mem_append.mp c_mem with inName | isHold
        · exact noColon c inName
        · split at isHold
          · rw [List.mem_singleton.mp isHold]
            rfl
          · cases isHold
      simp only [Option.elim_none, List.append_nil, Voicing.splitReference,
        Text.splitFirst?_eq_none absent, takeHold_append unheld, Option.getD_none]
  | some field =>
      have unheld : held = false → field.getLast? ≠ some '-' := by
        rintro rfl hyphen
        simp [List.getLast?_append, List.getLast?_cons, hyphen] at held_of_hyphen
      simp only [Option.elim_some, List.append_assoc, List.cons_append, Voicing.splitReference,
        Text.splitFirst?_append noColon (beq_self_eq_true ':'), takeHold_append unheld,
        Option.getD_some]

theorem readShift_of_asks (asks : reference.Asks first octaves) (token : String) :
    Voicing.readShift token first reference.octave = .ok (Octave.cut octaves) := by
  unfold Asks at asks
  unfold Voicing.readShift
  split at asks
  · rename_i unnamed
    rw [if_pos unnamed, asks]
    rfl
  · rename_i named
    rcases asks with ⟨number, writes, least_le, le_greatest, rfl⟩
    have read := Numeral.int?_eq_some_iff.mpr ⟨writes, least_le, le_greatest⟩
    have found : Octave.ofInt? number = some ⟨number, least_le, le_greatest⟩ :=
      Octave.ofInt?_eq_some_iff.mpr rfl
    rw [if_neg named, read]
    simp only [Option.bind_some, found]
    rfl

theorem readShift_of_not_asks (asksNothing : ∀ octaves, ¬reference.Asks first octaves)
    (token : String) :
    Voicing.readShift token first reference.octave = .error (.outOfRange token) := by
  have named : reference.octave ≠ [] := by
    intro unnamed
    exact asksNothing 0 (by simp [Asks, unnamed])
  have unread : Numeral.int? (-128) 127 reference.octave = none := by
    rw [Numeral.int?_eq_none_iff]
    rintro number writes ⟨least_le, le_greatest⟩
    refine asksNothing (number - first.octave.number) ?_
    rw [Asks, if_neg named]
    exact ⟨number, writes, least_le, le_greatest, rfl⟩
  simp [Voicing.readShift, named, unread]

section Reading

variable {resolver : Resolver} {rest : List Note}

theorem read_of_asks (proper : reference.Proper)
    (resolved : resolver.chord (String.ofList reference.name) = .ok (first :: rest))
    (asks : reference.Asks first octaves) (previous : Option Note) :
    Voicing.read resolver previous (':' :: reference.text) =
      if ∀ tone ∈ first :: rest, tone.Fits (Octave.cut octaves) then
        .ok ⟨(first :: rest).map (Note.shiftOctaves · (Octave.cut octaves)), reference.held⟩
      else .error (.outOfRange (String.ofList reference.text)) := by
  have unnumbered : (((first :: rest).map (Note.shiftOctaves · (Octave.cut octaves))).any
      fun note => note.midi?.isNone) =
        decide ¬∀ tone ∈ first :: rest, tone.Fits (Octave.cut octaves) := by
    rw [Bool.eq_iff_iff]
    simp only [← Note.inRange_shiftOctaves_iff, Note.InRange, List.any_map, List.any_eq_true,
      Function.comp_apply, Option.isNone_iff_eq_none, decide_eq_true_eq, not_forall,
      Option.not_isSome_iff_eq_none, exists_prop]
  simp only [Voicing.read, Voicing.readChord, proper.splitReference_text, resolved, bind,
    Except.bind, List.head?_cons, readShift_of_asks asks, unnumbered]
  by_cases fit : ∀ tone ∈ first :: rest, tone.Fits (Octave.cut octaves)
  · rw [if_pos fit, if_neg (by simpa only [decide_eq_true_eq] using not_not_intro fit)]
    rfl
  · rw [if_neg fit, if_pos (decide_eq_true fit)]
    rfl

theorem read_of_not_asks (proper : reference.Proper)
    (resolved : resolver.chord (String.ofList reference.name) = .ok (first :: rest))
    (asksNothing : ∀ octaves, ¬reference.Asks first octaves) (previous : Option Note) :
    Voicing.read resolver previous (':' :: reference.text) =
      .error (.outOfRange (String.ofList reference.text)) := by
  simp only [Voicing.read, Voicing.readChord, proper.splitReference_text, resolved, bind,
    Except.bind, List.head?_cons, readShift_of_not_asks asksNothing]

/-- A chord, given by its first note and the others, is read as its reference says: all of it is
moved by the number of octaves that the reference asks for, so that the first note lies in the
octave that is named, and it is held if the reference ends in a hyphen. If the reference asks for
nothing, or a note would leave the range, the chord is refused. -/
structure ReadAsWritten (reference : ChordReference) (first : Note) (rest : List Note)
    (outcome : Except ResolveError Voicing) : Prop where
  moved : ∀ voicing, outcome = .ok voicing → ∃ octaves, reference.Asks first octaves ∧
    List.Forall₂ (Note.MovedBy octaves) (first :: rest) voicing.notes
  octave : ∀ voicing number, outcome = .ok voicing → Numeral.Writes reference.octave number →
    voicing.notes.head?.map (fun note => note.octave.number) = some number
  inRange : ∀ voicing, outcome = .ok voicing → ∀ note ∈ voicing.notes, note.InRange
  held : ∀ voicing, outcome = .ok voicing → voicing.held = reference.held
  accepted : ∀ octaves, reference.Asks first octaves →
    (∀ tone ∈ first :: rest, tone.Fits octaves) → ∃ voicing, outcome = .ok voicing
  refused : (∀ octaves, reference.Asks first octaves →
      ∃ tone ∈ first :: rest, ¬tone.Fits octaves) →
    outcome = .error (.outOfRange (String.ofList reference.text))

/-- The reference asks for more octaves than there are octave numbers, and the chord is in range
when it is moved by as many as there are. -/
def StopsShort (reference : ChordReference) (first : Note) (rest : List Note) : Prop :=
  ∃ octaves, reference.Asks first octaves ∧ Octave.cut octaves ≠ octaves ∧
    ∀ tone ∈ first :: rest, tone.Fits (Octave.cut octaves)

/-- Only a chord at one of the two ends of the octave numbers can stop short. -/
theorem not_stopsShort (least_le : -117 ≤ first.octave.number)
    (le_greatest : first.octave.number ≤ 126) : ¬reference.StopsShort first rest := by
  rintro ⟨octaves, asks, stops, fit⟩
  have fits := fit first List.mem_cons_self
  simp only [Note.Fits, Note.pitch, Octave.cut] at fits stops
  unfold Asks at asks
  split at asks
  · omega
  · rcases asks with ⟨number, _, _, _, rfl⟩
    omega

theorem forall₂_movedBy {tones : List Note} (fit : ∀ tone ∈ tones, tone.Fits octaves) :
    List.Forall₂ (Note.MovedBy octaves) tones (tones.map (Note.shiftOctaves · octaves)) := by
  rw [List.forall₂_map_right_iff, List.forall₂_same]
  exact fun tone tone_mem => (fit tone tone_mem).movedBy

theorem readAsWritten_refused
    (leaves : ∀ octaves, reference.Asks first octaves →
      ∃ tone ∈ first :: rest, ¬tone.Fits octaves) :
    reference.ReadAsWritten first rest (.error (.outOfRange (String.ofList reference.text))) where
  moved _ accepted := by cases accepted
  octave _ _ accepted := by cases accepted
  inRange _ accepted := by cases accepted
  held _ accepted := by cases accepted
  accepted octaves asks fit := by
    rcases leaves octaves asks with ⟨tone, tone_mem, unfit⟩
    exact absurd (fit tone tone_mem) unfit
  refused _ := rfl

theorem readAsWritten_moved (asks : reference.Asks first octaves)
    (fit : ∀ tone ∈ first :: rest, tone.Fits octaves) :
    reference.ReadAsWritten first rest
      (.ok ⟨(first :: rest).map (Note.shiftOctaves · octaves), reference.held⟩) where
  moved := by
    rintro voicing ⟨⟩
    exact ⟨octaves, asks, forall₂_movedBy fit⟩
  octave := by
    rintro voicing number ⟨⟩ writes
    have octave_eq := (fit first List.mem_cons_self).movedBy.octave_eq
    rw [Asks, if_neg writes.ne_nil] at asks
    rcases asks with ⟨other, writesOther, _, _, rfl⟩
    rw [List.map_cons, List.head?_cons, Option.map_some, octave_eq, writes.unique writesOther]
    congr 1
    omega
  inRange := by
    rintro voicing ⟨⟩ note note_mem
    rcases List.mem_map.mp note_mem with ⟨tone, tone_mem, rfl⟩
    exact Note.inRange_shiftOctaves_iff.mpr (fit tone tone_mem)
  held := by
    rintro voicing ⟨⟩
    rfl
  accepted _ _ _ := ⟨_, rfl⟩
  refused leaves := by
    rcases leaves octaves asks with ⟨tone, tone_mem, unfit⟩
    exact absurd (fit tone tone_mem) unfit

/-- A chord reference is read as it is written unless it stops short, and that takes a chord from
the lowest or the highest octaves, whatever the resolver. -/
theorem readAsWritten_iff (proper : reference.Proper)
    (resolved : resolver.chord (String.ofList reference.name) = .ok (first :: rest))
    (previous : Option Note) :
    (reference.ReadAsWritten first rest (Voicing.read resolver previous (':' :: reference.text)) ↔
      ¬reference.StopsShort first rest) ∧
      (-117 ≤ first.octave.number → first.octave.number ≤ 126 →
        ¬reference.StopsShort first rest) := by
  refine ⟨⟨?_, ?_⟩, not_stopsShort⟩
  · rintro written ⟨octaves, asks, stops, fit⟩
    have read := read_of_asks proper resolved asks previous
    rw [if_pos fit] at read
    rcases written.moved _ read with ⟨other, asksOther, moved⟩
    rw [List.map_cons, List.forall₂_cons, asksOther.unique asks] at moved
    have cutShift := (fit first List.mem_cons_self).movedBy.octave_eq
    have exactShift := moved.1.octave_eq
    omega
  · intro reaches
    by_cases asksSome : ∃ octaves, reference.Asks first octaves
    · rcases asksSome with ⟨octaves, asks⟩
      rw [read_of_asks proper resolved asks previous]
      split
      · rename_i fit
        have exact_eq : Octave.cut octaves = octaves := by
          by_contra stops
          exact reaches ⟨octaves, asks, stops, fit⟩
        rw [exact_eq] at fit ⊢
        exact readAsWritten_moved asks fit
      · rename_i unfit
        refine readAsWritten_refused fun other asksOther => ?_
        rw [asksOther.unique asks]
        by_contra fit
        push Not at fit
        exact unfit fun tone tone_mem => (fit tone tone_mem).cut
    · rw [read_of_not_asks proper resolved (not_exists.mp asksSome) previous]
      refine readAsWritten_refused fun octaves asks => ?_
      exact absurd ⟨octaves, asks⟩ asksSome

/-- A chord over its own seventh, moved down to the lowest octave in range and held. -/
theorem readAsWritten_iff_held :
    let reference : ChordReference := ⟨"Am7/G".toList, some "-1".toList, true⟩
    let first : Note := ⟨⟨7⟩, .saturate 5⟩
    let rest : List Note := [⟨⟨9⟩, .saturate 5⟩, ⟨⟨0⟩, .saturate 6⟩, ⟨⟨4⟩, .saturate 6⟩]
    reference.Proper ∧ Resolver.standard.chord "Am7/G" = .ok (first :: rest) ∧
      reference.ReadAsWritten first rest (Voicing.read .standard none ":Am7/G:-1-".toList) := by
  intro reference first rest
  have proper : reference.Proper := ⟨by decide, by decide⟩
  have resolved : Resolver.standard.chord (String.ofList reference.name) = .ok (first :: rest) := by
    decide
  have near := (readAsWritten_iff proper resolved none).2 (by decide) (by decide)
  exact ⟨proper, resolved, (readAsWritten_iff proper resolved none).1.mpr near⟩

/-- Takes every chord symbol for the lowest note that there is. -/
def lowest : Resolver where
  cluster _ _ := .error .emptyCluster
  chord _ := .ok [⟨.ofSemitones 0, .saturate (-128)⟩]

/-- The lowest note stops short of octave 20, which no note in range lies in, at the bottom of the
range. -/
theorem not_readAsWritten_lowest :
    let reference : ChordReference := ⟨"X".toList, some "20".toList, false⟩
    reference.Proper ∧
      ¬reference.ReadAsWritten ⟨.ofSemitones 0, .saturate (-128)⟩ []
        (Voicing.read lowest none ":X:20".toList) := by
  intro reference
  refine ⟨⟨by decide, by decide⟩, ?_⟩
  intro written
  have read : Voicing.read lowest none ":X:20".toList =
      .ok ⟨[⟨.ofSemitones 0, .saturate (-1)⟩], false⟩ := by
    decide
  have digits : Numeral.Digits "20".toList := ⟨by decide, List.all_eq_true.mp (by decide)⟩
  have writes : Numeral.Writes reference.octave 20 := .unsigned digits
  exact absurd (written.octave _ 20 read writes) (by decide)

end Reading

end ChordReference

end LiveScore
