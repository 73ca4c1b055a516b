import LiveScore.Proofs.Score.Draft

/-!
# Where measures come from

Every line keeps the measures that are already there and adds at most one. So the measures of a
score are those of its measure lines, except for the lines that a warning names, and each of them
was compiled from a line of the text.
-/

namespace LiveScore

/-- The measures of some parts, one part after the other. -/
def Part.allMeasures (parts : List Part) : List Measure := parts.flatMap Part.measures

/-- The measures of some sections, one section after the other. -/
def Section.allMeasures (sections : List Section) : List Measure :=
  sections.flatMap fun sect => Part.allMeasures sect.parts

/-- The measures of a score, section by section and part by part. -/
def Score.measures (score : Score) : List Measure := Section.allMeasures score.sections

namespace Draft

variable {resolver : Resolver} {draft closed next : Draft}

/-- The measures of a draft that belong to an instrument. -/
def measures (draft : Draft) : List Measure :=
  Section.allMeasures draft.sections ++ Part.allMeasures draft.current.parts ++
    if draft.part.instruments = [] then [] else draft.part.measures

theorem measures_closePart (draft : Draft) : draft.closePart.measures = draft.measures := by
  simp only [measures, sections_closePart, parts_closePart, part_closePart, if_true]
  split <;> simp [Part.allMeasures]

theorem measures_closeSection (closing : draft.closeSection = .ok closed) :
    closed.measures = draft.measures := by
  rw [← measures_closePart draft]
  rcases closeSection_eq_ok closing with ⟨_, rfl⟩ | ⟨_, _, rfl⟩
  · rfl
  · simp [measures, Section.allMeasures, Part.allMeasures]

/-- A line adds nothing to the measures, or it is a measure line and adds its measure, either to
the draft or, with a warning, to nobody. -/
theorem measures_step {number : Nat} {line : List Char}
    (stepping : draft.step resolver number line = .ok next) :
    (next.measures = draft.measures ∧ next.warnings = draft.warnings ∧
        ∀ tokens, Directive.read line ≠ .ok (.measure tokens)) ∨
      ∃ tokens measure, Directive.read line = .ok (.measure tokens) ∧
        Measure.ofTokens resolver draft.part.legato tokens = .ok measure ∧
        (next.measures = draft.measures ++ [measure] ∧ next.warnings = draft.warnings ∨
          next.measures = draft.measures ∧ next.warnings = draft.warnings ++ [number]) := by
  rcases step_eq_ok stepping with ⟨directive, reading, applying⟩
  cases directive with
  | pattern name =>
      rcases apply_pattern_eq_ok applying with ⟨closed, closing, rfl⟩
      rcases closeSection_rest closing with ⟨_, part_eq, warnings_eq, parts_eq, _⟩
      refine Or.inl ⟨?_, warnings_eq, by simp [reading]⟩
      rw [← measures_closeSection closing]
      simp [measures, part_eq, parts_eq]
  | instruments names =>
      cases Except.ok.inj applying
      refine Or.inl ⟨?_, rfl, by simp [reading]⟩
      rw [← measures_closePart draft]
      simp [measures]
  | legato percent =>
      cases Except.ok.inj applying
      exact Or.inl ⟨rfl, rfl, by simp [reading]⟩
  | tempo bpm =>
      cases Except.ok.inj applying
      exact Or.inl ⟨rfl, rfl, by simp [reading]⟩
  | chain names =>
      cases Except.ok.inj applying
      refine Or.inl ⟨?_, ?_, by simp [reading]⟩
      · split <;> rfl
      · split <;> rfl
  | measure tokens =>
      rcases apply_measure_eq_ok applying with ⟨measure, compiled, rfl⟩
      refine Or.inr ⟨tokens, measure, reading, compiled, ?_⟩
      by_cases nobody : draft.part.instruments = []
      · exact Or.inr (by simp [addMeasure, measures, nobody])
      · exact Or.inl (by simp [addMeasure, measures, nobody])

theorem measures_finish {score : Score} (finishing : draft.finish = .ok score) :
    score.measures = draft.measures := by
  rcases finish_eq_ok finishing with ⟨closed, closing, _, sections_eq, _, _⟩
  rcases closeSection_rest closing with ⟨_, part_eq, _, parts_eq, _⟩
  rw [← measures_closeSection closing]
  simp [measures, Score.measures, sections_eq, part_eq, parts_eq, Part.allMeasures]

/-- Some lines have a measure line with these tokens. -/
def HasLine (lines : List ScoreLine) (tokens : List String) : Prop :=
  ∃ entry ∈ lines, Directive.read entry.2 = .ok (.measure tokens)

/-- Every measure of a draft is compiled from one of the lines read so far. -/
def Written (resolver : Resolver) (lines : List ScoreLine) (draft : Draft) : Prop :=
  ∀ measure ∈ draft.measures, ∃ legato tokens, HasLine lines tokens ∧
    Measure.ofTokens resolver legato tokens = .ok measure

theorem Written.step {lines : List ScoreLine} {entry : ScoreLine}
    (written : Written resolver lines draft)
    (stepping : draft.step resolver entry.1 entry.2 = .ok next) :
    Written resolver (lines ++ [entry]) next := by
  have old : Written resolver (lines ++ [entry]) draft := by
    intro measure measure_mem
    rcases written measure measure_mem with ⟨legato, tokens, ⟨line, line_mem, reading⟩, compiled⟩
    exact ⟨legato, tokens, ⟨line, List.mem_append_left _ line_mem, reading⟩, compiled⟩
  intro measure measure_mem
  rcases measures_step stepping with
    ⟨same, _, _⟩ | ⟨tokens, added, reading, compiled, ⟨more, _⟩ | ⟨same, _⟩⟩
  · exact old measure (same ▸ measure_mem)
  · rcases List.mem_append.mp (more ▸ measure_mem) with kept | isNew
    · exact old measure kept
    · rw [List.mem_singleton.mp isNew]
      exact ⟨_, tokens, ⟨entry, by simp, reading⟩, compiled⟩
  · exact old measure (same ▸ measure_mem)

end Draft

/-- Each measure of a score is compiled from a measure line of its text. -/
theorem Score.exists_line_of_mem_measures {resolver : Resolver} {source : String} {score : Score}
    (accepted : (read resolver source).outcome = .ok score) {measure : Measure}
    (measure_mem : measure ∈ score.measures) :
    ∃ legato tokens, Draft.HasLine (Directive.numberedLines source.toList) tokens ∧
      Measure.ofTokens resolver legato tokens = .ok measure := by
  have start : Draft.Written resolver [] {} := by
    simp [Draft.Written, Draft.measures, Section.allMeasures, Part.allMeasures]
  rcases read_induction (Draft.Written resolver) start
    (fun _ _ _ _ written stepping => written.step stepping) accepted
    with ⟨last, written, finishing, _⟩
  rw [Draft.measures_finish finishing] at measure_mem
  exact written measure measure_mem

end LiveScore
