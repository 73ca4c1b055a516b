import LiveScore.Proofs.Score.SectionIndex
import LiveScore.Score.Reader

/-!
# The steps of a draft

Reading a score applies one line after the other to a draft and closes it at the end. This file
says once what each of these steps does when it succeeds: closing the part in progress, closing the
section in progress, the two directives that can fail, and the end of the text. It also gives the
induction along the lines, so that an invariant of a draft needs only a proof for one line.
-/

namespace LiveScore

/-- A line of a score that says something: its number and its trimmed text. -/
abbrev ScoreLine := Nat × List Char

namespace Section

@[simp]
theorem name_countMeasures (sect : Section) : sect.countMeasures.name = sect.name := rfl

@[simp]
theorem parts_countMeasures (sect : Section) : sect.countMeasures.parts = sect.parts := rfl

@[simp]
theorem tempo_countMeasures (sect : Section) : sect.countMeasures.tempo = sect.tempo := rfl

end Section

namespace Draft

variable {resolver : Resolver} {draft closed next : Draft} {number : Nat} {line : List Char}

section ClosePart

@[simp]
theorem sections_closePart (draft : Draft) : draft.closePart.sections = draft.sections := rfl

@[simp]
theorem chain_closePart (draft : Draft) : draft.closePart.chain = draft.chain := rfl

@[simp]
theorem part_closePart (draft : Draft) : draft.closePart.part = {} := rfl

@[simp]
theorem warnings_closePart (draft : Draft) : draft.closePart.warnings = draft.warnings := rfl

@[simp]
theorem name_closePart (draft : Draft) : draft.closePart.current.name = draft.current.name := by
  unfold closePart
  split <;> rfl

@[simp]
theorem tempo_closePart (draft : Draft) : draft.closePart.current.tempo = draft.current.tempo := by
  unfold closePart
  split <;> rfl

/-- A part is kept if it has an instrument. -/
theorem parts_closePart (draft : Draft) :
    draft.closePart.current.parts =
      draft.current.parts ++ if draft.part.instruments = [] then [] else [draft.part] := by
  unfold closePart
  split <;> simp

end ClosePart

section CloseSection

@[simp]
theorem currentLine_closePart (draft : Draft) : draft.closePart.currentLine = draft.currentLine :=
  rfl

theorem closeSection_of_noPart (noPart : draft.closePart.current.parts = []) :
    draft.closeSection = .ok draft.closePart := by
  simp [closeSection, noPart]

theorem closeSection_of_taken (hasPart : draft.closePart.current.parts ≠ [])
    (taken : ∃ sect ∈ draft.sections, sect.name = draft.current.name) :
    draft.closeSection = .error (.duplicateSection draft.currentLine draft.current.name) := by
  simp [closeSection, hasPart, taken]

theorem closeSection_of_fresh (hasPart : draft.closePart.current.parts ≠ [])
    (fresh : ¬∃ sect ∈ draft.sections, sect.name = draft.current.name) :
    draft.closeSection = .ok { draft.closePart with
      sections := draft.sections ++ [draft.closePart.current.countMeasures]
      current := { tempo := draft.current.tempo } } := by
  simp [closeSection, hasPart, fresh]

/-- Closing a section only fails if the section has a part and an earlier one has its name. -/
theorem closeSection_eq_error_iff {error : ScoreError} : draft.closeSection = .error error ↔
    draft.closePart.current.parts ≠ [] ∧ (∃ sect ∈ draft.sections, sect.name = draft.current.name) ∧
      error = .duplicateSection draft.currentLine draft.current.name := by
  by_cases noPart : draft.closePart.current.parts = []
  · simp [closeSection_of_noPart noPart, noPart]
  · by_cases taken : ∃ sect ∈ draft.sections, sect.name = draft.current.name
    · simp [closeSection_of_taken noPart taken, noPart, taken, eq_comm]
    · simp [closeSection_of_fresh noPart taken, taken]

/-- Closing a section either drops it, because it has no part, or keeps it under a new name. -/
theorem closeSection_eq_ok (closing : draft.closeSection = .ok closed) :
    draft.closePart.current.parts = [] ∧ closed = draft.closePart ∨
      draft.closePart.current.parts ≠ [] ∧
        (∀ sect ∈ draft.sections, sect.name ≠ draft.current.name) ∧
        closed = { draft.closePart with
          sections := draft.sections ++ [draft.closePart.current.countMeasures]
          current := { tempo := draft.current.tempo } } := by
  simp only [closeSection] at closing
  split at closing
  · rename_i noPart
    exact Or.inl ⟨noPart, (Except.ok.inj closing).symm⟩
  · rename_i hasPart
    split at closing
    · cases closing
    · rename_i fresh
      refine Or.inr ⟨hasPart, ?_, ?_⟩
      · simpa using fresh
      · simpa using (Except.ok.inj closing).symm

/-- What remains of a draft after a section is closed does not depend on whether it is kept. -/
theorem closeSection_rest (closing : draft.closeSection = .ok closed) :
    closed.chain = draft.chain ∧ closed.part = {} ∧ closed.warnings = draft.warnings ∧
      closed.current.parts = [] ∧ closed.current.tempo = draft.current.tempo := by
  rcases closeSection_eq_ok closing with ⟨noPart, rfl⟩ | ⟨_, _, rfl⟩
  · simp [noPart]
  · simp

end CloseSection

theorem step_eq_ok (stepping : draft.step resolver number line = .ok next) :
    ∃ directive, Directive.read line = .ok directive ∧
      draft.apply resolver number directive = .ok next := by
  unfold step at stepping
  split at stepping
  · rename_i directive reading
    exact ⟨directive, reading, stepping⟩
  · cases stepping

theorem apply_pattern_eq_ok {name : String}
    (applying : draft.apply resolver number (.pattern name) = .ok next) :
    ∃ closed, draft.closeSection = .ok closed ∧
      next = { closed with
        current := { name, tempo := closed.current.tempo }
        currentLine := number } := by
  simp only [apply] at applying
  cases closing : draft.closeSection with
  | error error =>
      rw [closing] at applying
      cases applying
  | ok closed =>
      rw [closing] at applying
      exact ⟨closed, rfl, (Except.ok.inj applying).symm⟩

theorem apply_measure_eq_ok {tokens : List String}
    (applying : draft.apply resolver number (.measure tokens) = .ok next) :
    ∃ measure, Measure.ofTokens resolver draft.part.legato tokens = .ok measure ∧
      next = draft.addMeasure number measure := by
  simp only [apply] at applying
  split at applying
  · rename_i measure compiled
    exact ⟨measure, compiled, (Except.ok.inj applying).symm⟩
  · cases applying

/-- What the index does not have is what no section is called. -/
theorem unlisted_eq (sections : List Section) :
    (fun name => ((SectionIndex.ofSections sections).lookup name).isNone) =
      fun name => !(sections.map Section.name).contains name := by
  funext name
  rw [Bool.eq_iff_iff, Option.isNone_iff_eq_none, SectionIndex.lookup_ofSections_eq_none_iff]
  simp

/-- A draft becomes a score if it keeps a section and its chain names only kept sections. -/
theorem finish_eq_ok {score : Score} (finishing : draft.finish = .ok score) :
    ∃ closed, draft.closeSection = .ok closed ∧ closed.sections ≠ [] ∧
      score.sections = closed.sections ∧
      score.chain =
        (if closed.chain = [] then closed.sections.map Section.name else closed.chain) ∧
      score.index = SectionIndex.ofSections closed.sections ∧
      ∀ name ∈ score.chain, name ∈ score.sections.map Section.name := by
  simp only [finish] at finishing
  cases closing : draft.closeSection with
  | error error =>
      rw [closing] at finishing
      cases finishing
  | ok closed =>
      rw [closing] at finishing
      simp only [bind, Except.bind] at finishing
      split at finishing
      · cases finishing
      · rename_i kept
        split at finishing
        · cases finishing
        · rename_i known
          cases Except.ok.inj finishing
          refine ⟨closed, rfl, kept, rfl, rfl, rfl, ?_⟩
          simpa [unlisted_eq] using known

/-- An invariant of the lines read so far that every line keeps holds of the draft at the end of the
lines, if they are accepted. The induction is on the lines to come. -/
theorem read_induction (Invariant : List ScoreLine → Draft → Prop)
    (keeps : ∀ before draft entry next, Invariant before draft →
      draft.step resolver entry.1 entry.2 = .ok next → Invariant (before ++ [entry]) next)
    {before lines : List ScoreLine} {score : Score} (start : Invariant before draft)
    (accepted : (draft.read resolver lines).outcome = .ok score) :
    ∃ last, Invariant (before ++ lines) last ∧ last.finish = .ok score ∧
      (draft.read resolver lines).warnings = last.warnings := by
  induction lines generalizing before draft with
  | nil => exact ⟨draft, by simpa using start, accepted, rfl⟩
  | cons entry rest ih =>
      simp only [read] at accepted ⊢
      split at accepted
      · rename_i next stepping
        have held := ih (keeps before draft entry next start stepping) accepted
        simpa [stepping] using held
      · cases accepted

end Draft

/-- An invariant of the lines read so far that holds at the start and is kept by every line holds of
the draft from which an accepted text gets its score. -/
theorem Score.read_induction {resolver : Resolver} {source : String} {score : Score}
    (Invariant : List ScoreLine → Draft → Prop) (start : Invariant [] {})
    (keeps : ∀ before draft entry next, Invariant before draft →
      draft.step resolver entry.1 entry.2 = .ok next → Invariant (before ++ [entry]) next)
    (accepted : (Score.read resolver source).outcome = .ok score) :
    ∃ last, Invariant (Directive.numberedLines source.toList) last ∧ last.finish = .ok score ∧
      (Score.read resolver source).warnings = last.warnings :=
  Draft.read_induction Invariant keeps start accepted

end LiveScore
