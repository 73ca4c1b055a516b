import LiveScore.Proofs.Score.Reference

/-!
# What a token stands for

A token of a measure line that is no rest stands for what the resolver answers: a cluster for the
notes that the resolver finds behind the note before it, a chord reference for the chord of its
name, moved to the octave that it names. This file says so without reading the token from its start,
and shows that reading finds exactly this. A hyphen at the end of a token holds the notes and is not
shown to the resolver.
-/

namespace LiveScore

/-- A text is a body and a hold, where a hyphen at the end is always the hold. -/
theorem exists_hold (text : List Char) : ∃ body held,
    text = body ++ (if held then ['-'] else []) ∧
      (held = false → body.getLast? ≠ some '-') := by
  by_cases hyphen : text.getLast? = some '-'
  · refine ⟨text.dropLast, true, ?_, nofun⟩
    exact (List.dropLast_append_getLast? '-' hyphen).symm
  · exact ⟨text, false, by simp, fun _ => hyphen⟩

namespace ChordReference

/-- Every text is that of a reference. -/
theorem exists_proper (text : List Char) :
    ∃ reference : ChordReference, reference.Proper ∧ reference.text = text := by
  by_cases colon : ':' ∈ text
  · rcases List.eq_append_cons_of_mem colon with ⟨name, field, rfl, no_colon⟩
    rcases exists_hold field with ⟨octave, held, rfl, unheld⟩
    refine ⟨⟨name, some octave, held⟩, ⟨no_colon, ?_⟩, by simp [text]⟩
    intro hyphen
    cases held with
    | true => rfl
    | false =>
        have last : (':' :: octave).getLast? ≠ some '-' := by
          cases octave with
          | nil => simp
          | cons first rest => simpa [List.getLast?_cons_cons] using unheld rfl
        simp only [text, Option.elim_some, Bool.false_eq_true, if_false, List.append_nil,
          List.getLast?_append] at hyphen
        cases found : (':' :: octave).getLast? with
        | none => simp at found
        | some c =>
            rw [found] at hyphen last
            exact absurd hyphen last
  · rcases exists_hold text with ⟨name, held, rfl, unheld⟩
    have no_colon : ':' ∉ name := fun inName => colon (List.mem_append_left _ inName)
    refine ⟨⟨name, none, held⟩, ⟨no_colon, ?_⟩, by simp [text]⟩
    intro hyphen
    cases held with
    | true => rfl
    | false => exact absurd (by simpa [text] using hyphen) (unheld rfl)

end ChordReference

theorem Note.MovedBy.eq_shiftOctaves {octaves : Int} {note moved : Note}
    (movedBy : note.MovedBy octaves moved) : moved = note.shiftOctaves octaves := by
  rcases moved with ⟨pitchClass, octave⟩
  rcases movedBy with ⟨rfl, octave_eq⟩
  have least_le := octave.least_le
  have le_greatest := octave.le_greatest
  simp only at octave_eq
  simp only [shiftOctaves, Octave.saturate, mk.injEq, true_and]
  rcases octave with ⟨number, _, _⟩
  simp only [Octave.mk.injEq] at octave_eq ⊢
  omega

theorem Note.eq_map_of_movedBy {octaves : Int} {tones notes : List Note}
    (moved : List.Forall₂ (Note.MovedBy octaves) tones notes) :
    notes = tones.map (Note.shiftOctaves · octaves) := by
  induction moved with
  | nil => rfl
  | cons first _ ih => rw [List.map_cons, ← ih, ← first.eq_shiftOctaves]

namespace Voicing

/-- What a token stands for behind the note `previous`. -/
inductive StandsFor (resolver : Resolver) (previous : Option Note) : List Char → Voicing → Prop
  /-- A cluster is what the resolver makes of it behind that note. -/
  | cluster {cluster : List Char} {held : Bool} {notes : List Note}
    (noColon : cluster.head? ≠ some ':') (unheld : held = false → cluster.getLast? ≠ some '-')
    (resolved : resolver.cluster (String.ofList cluster) previous = .ok notes) :
    StandsFor resolver previous (cluster ++ if held then ['-'] else []) ⟨notes, held⟩
  /-- A chord reference is the chord of its name, moved as far as it asks for. -/
  | chord {reference : ChordReference} {first : Note} {rest notes : List Note} {octaves : Int}
    (proper : reference.Proper)
    (resolved : resolver.chord (String.ofList reference.name) = .ok (first :: rest))
    (asks : reference.Asks first octaves)
    (moved : List.Forall₂ (Note.MovedBy (Octave.cut octaves)) (first :: rest) notes)
    (inRange : ∀ note ∈ notes, note.InRange) :
    StandsFor resolver previous (':' :: reference.text) ⟨notes, reference.held⟩

variable {resolver : Resolver} {previous : Option Note} {token : List Char} {voicing : Voicing}

/-- A token that starts with no colon is shown to the resolver without its hold. -/
theorem read_cluster {cluster : List Char} {held : Bool} (noColon : cluster.head? ≠ some ':')
    (unheld : held = false → cluster.getLast? ≠ some '-') :
    read resolver previous (cluster ++ if held then ['-'] else []) =
      (resolver.cluster (String.ofList cluster) previous).map fun notes => ⟨notes, held⟩ := by
  have plain : ∀ reference, (cluster ++ if held then ['-'] else []) ≠ ':' :: reference := by
    intro reference same
    cases cluster with
    | nil => cases held <;> simp at same
    | cons first rest =>
        rw [List.cons_append, List.cons.injEq] at same
        exact noColon (congrArg some same.1)
  unfold read
  split
  · rename_i reference same
    exact absurd same (plain reference)
  · rw [ChordReference.takeHold_append unheld]
    simp only
    cases resolver.cluster (String.ofList cluster) previous <;> rfl

theorem StandsFor.read_eq (stands : StandsFor resolver previous token voicing) :
    read resolver previous token = .ok voicing := by
  cases stands with
  | cluster noColon unheld resolved =>
      rw [read_cluster noColon unheld, resolved]
      rfl
  | @chord reference first rest notes octaves proper resolved asks moved inRange =>
      have shifted := Note.eq_map_of_movedBy moved
      have fit : ∀ tone ∈ first :: rest, tone.Fits (Octave.cut octaves) := by
        intro tone tone_mem
        rw [← Note.inRange_shiftOctaves_iff]
        apply inRange
        rw [shifted]
        exact List.mem_map_of_mem tone_mem
      rw [ChordReference.read_of_asks proper resolved asks, if_pos fit, ← shifted]

/-- A reference that is read has a chord and asks for a distance that keeps it in range. -/
theorem standsFor_of_read_chord {reference : ChordReference} (proper : reference.Proper)
    (reading : read resolver previous (':' :: reference.text) = .ok voicing) :
    StandsFor resolver previous (':' :: reference.text) voicing := by
  cases resolved : resolver.chord (String.ofList reference.name) with
  | error cause =>
      simp [read, readChord, proper.splitReference_text, resolved, bind, Except.bind] at reading
  | ok tones =>
      cases tones with
      | nil =>
          simp [read, readChord, proper.splitReference_text, resolved, bind, Except.bind, throw,
            throwThe, MonadExceptOf.throw] at reading
      | cons first rest =>
          by_cases asksSome : ∃ octaves, reference.Asks first octaves
          · rcases asksSome with ⟨octaves, asks⟩
            rw [ChordReference.read_of_asks proper resolved asks] at reading
            split at reading
            · rename_i fit
              cases reading
              refine .chord proper resolved asks (ChordReference.forall₂_movedBy fit) ?_
              intro note note_mem
              rcases List.mem_map.mp note_mem with ⟨tone, tone_mem, rfl⟩
              exact Note.inRange_shiftOctaves_iff.mpr (fit tone tone_mem)
            · cases reading
          · rw [ChordReference.read_of_not_asks proper resolved (not_exists.mp asksSome)] at reading
            cases reading

theorem standsFor_of_read (reading : read resolver previous token = .ok voicing) :
    StandsFor resolver previous token voicing := by
  by_cases colon : token.head? = some ':'
  · rcases List.head?_eq_some_iff.mp colon with ⟨text, rfl⟩
    rcases ChordReference.exists_proper text with ⟨reference, proper, rfl⟩
    exact standsFor_of_read_chord proper reading
  · rcases exists_hold token with ⟨cluster, held, rfl, unheld⟩
    have noColon : cluster.head? ≠ some ':' := by
      intro starts
      rw [List.head?_append, starts] at colon
      exact colon rfl
    rw [read_cluster noColon unheld] at reading
    cases resolved : resolver.cluster (String.ofList cluster) previous with
    | error cause =>
        rw [resolved] at reading
        cases reading
    | ok notes =>
        rw [resolved] at reading
        cases reading
        exact .cluster noColon unheld resolved

/-- Reading a token succeeds exactly with what it stands for. -/
theorem read_eq_ok_iff :
    read resolver previous token = .ok voicing ↔ StandsFor resolver previous token voicing :=
  ⟨standsFor_of_read, StandsFor.read_eq⟩

end Voicing

end LiveScore
