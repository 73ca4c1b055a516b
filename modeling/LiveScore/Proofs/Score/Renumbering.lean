import LiveScore.Proofs.Score.Draft

/-!
# Lines under other numbers

A draft takes the numbers of lines as they come, keeps some of them and puts them into errors and
warnings; it never compares or counts them. So reading commutes with every change of the numbers.
Only the number 0, which stands for no line, has to stay: an unnamed section has it.
-/

namespace LiveScore

/-- The error at the line that now has another number. -/
def ScoreError.renumber (position : Nat → Nat) : ScoreError → ScoreError
  | invalidLegato line value => invalidLegato (position line) value
  | invalidTempo line value => invalidTempo (position line) value
  | missingValue line directive => missingValue (position line) directive
  | unresolved line token cause => unresolved (position line) token cause
  | duplicateSection line name => duplicateSection (position line) name
  | undefinedChain name => undefinedChain name
  | noSections => noSections

/-- What a reading says of other lines. -/
def Reading.renumber (position : Nat → Nat) (reading : Reading) : Reading where
  outcome := reading.outcome.mapError (ScoreError.renumber position)
  warnings := reading.warnings.map position

namespace Draft

/-- What is being read, if the lines had other numbers. -/
def renumber (position : Nat → Nat) (draft : Draft) : Draft :=
  { draft with
    currentLine := position draft.currentLine
    warnings := draft.warnings.map position }

/-- What a line comes to under other numbers. -/
def renumberResult (position : Nat → Nat) : Except ScoreError Draft → Except ScoreError Draft
  | .ok draft => .ok (draft.renumber position)
  | .error error => .error (error.renumber position)

variable (position : Nat → Nat) (resolver : Resolver) (draft : Draft) (number : Nat)

theorem renumber_nil (none_stays : position 0 = 0) : ({} : Draft).renumber position = {} := by
  simp [renumber, none_stays]

@[simp]
theorem sections_renumber : (draft.renumber position).sections = draft.sections := rfl

@[simp]
theorem current_renumber : (draft.renumber position).current = draft.current := rfl

@[simp]
theorem part_renumber : (draft.renumber position).part = draft.part := rfl

@[simp]
theorem closePart_renumber : (draft.renumber position).closePart =
    draft.closePart.renumber position := rfl

theorem closeSection_renumber : (draft.renumber position).closeSection =
    renumberResult position draft.closeSection := by
  by_cases noPart : draft.closePart.current.parts = []
  · rw [closeSection_of_noPart noPart, closeSection_of_noPart (by simpa using noPart)]
    rfl
  · by_cases taken : ∃ sect ∈ draft.sections, sect.name = draft.current.name
    · rw [closeSection_of_taken noPart taken, closeSection_of_taken (by simpa using noPart)
        (by simpa using taken)]
      rfl
    · rw [closeSection_of_fresh noPart taken, closeSection_of_fresh (by simpa using noPart)
        (by simpa using taken)]
      rfl

theorem addMeasure_renumber (measure : Measure) :
    (draft.renumber position).addMeasure (position number) measure =
      (draft.addMeasure number measure).renumber position := by
  by_cases nobody : draft.part.instruments = [] <;> simp [addMeasure, renumber, nobody]

theorem apply_renumber (directive : Directive) :
    (draft.renumber position).apply resolver (position number) directive =
      renumberResult position (draft.apply resolver number directive) := by
  cases directive with
  | pattern name =>
      simp only [apply, closeSection_renumber]
      cases draft.closeSection with
      | ok closed => rfl
      | error error => rfl
  | instruments names => rfl
  | legato percent => rfl
  | tempo bpm => rfl
  | chain names =>
      simp only [apply]
      split <;> rfl
  | measure tokens =>
      simp only [apply, part_renumber]
      cases Measure.ofTokens resolver draft.part.legato tokens with
      | ok measure => exact congrArg Except.ok (addMeasure_renumber position draft number measure)
      | error fault => rfl

theorem step_renumber (line : List Char) :
    (draft.renumber position).step resolver (position number) line =
      renumberResult position (draft.step resolver number line) := by
  simp only [step]
  cases Directive.read line with
  | ok directive => exact apply_renumber position resolver draft number directive
  | error error => cases error <;> rfl

theorem finish_renumber : (draft.renumber position).finish =
    draft.finish.mapError (ScoreError.renumber position) := by
  simp only [finish, closeSection_renumber]
  cases draft.closeSection with
  | error error => rfl
  | ok closed =>
      simp only [renumberResult, bind, Except.bind, renumber]
      by_cases noSection : closed.sections = []
      · simp only [noSection, if_true]
        rfl
      · simp only [noSection, if_false, pure, Except.pure]
        split <;> rfl

/-- Reading lines under other numbers gives the same under these numbers. -/
theorem read_renumber (lines : List ScoreLine) :
    (draft.renumber position).read resolver (lines.map fun line => (position line.1, line.2)) =
      (draft.read resolver lines).renumber position := by
  induction lines generalizing draft with
  | nil =>
      rw [List.map_nil, read, read, finish_renumber]
      rfl
  | cons line rest ih =>
      simp only [List.map_cons, read, step_renumber]
      cases draft.step resolver line.1 line.2 with
      | ok next => exact ih next
      | error error => rfl

end Draft

end LiveScore
