import LiveScore.Proofs.Clock.Tempo
import LiveScore.Proofs.Score.Agreement
import LiveScore.Proofs.Text.Blank

/-!
# Well-formed scores

Playback takes a score as it is and checks nothing. This file collects what it may rely on, and
shows that every text that is read as a score gives one with all of it. What is said of names,
legatos and tempos comes from the lines that set them. The draft only has to carry it along, through
the part and the section in progress into the sections that are kept; there the tempo of the section
in progress counts as the last one so far, since a new section starts with it.
-/

namespace LiveScore

/-- A name of an instrument as it stands between two commas. -/
structure IsInstrumentName (name : String) : Prop where
  ne_empty : name ≠ ""
  trimmed : Text.Trimmed name.toList
  no_comma : ',' ∉ name.toList

/-- A tempo of a section that was not zero is not taken back to zero by a later one. -/
def Tempo.Kept (earlier later : Binary64) : Prop := earlier ≠ 0 → later ≠ 0

/-- What holds of a measure of a score. -/
structure Measure.WellFormed (measure : Measure) : Prop where
  ordered : measure.timetable.Ordered
  pulse_le : ∀ entry ∈ measure.timetable, entry.1 ≤ 95
  batch_ne_nil : ∀ entry ∈ measure.timetable, entry.2 ≠ []

/-- What the lines of a part have to say, apart from its measures. -/
structure Part.Tidy (part : Part) : Prop where
  instruments : ∀ name ∈ part.instruments, IsInstrumentName name
  legato_le : part.legato ≤ 100

/-- What holds of a part of a score. -/
structure Part.WellFormed (part : Part) : Prop extends part.Tidy where
  instruments_ne_nil : part.instruments ≠ []
  measures : ∀ measure ∈ part.measures, measure.WellFormed

/-- What holds of a section of a score; the length is the one that is kept with the section. -/
structure Section.WellFormed (sect : Section) : Prop where
  parts_ne_nil : sect.parts ≠ []
  parts : ∀ part ∈ sect.parts, part.WellFormed
  /-- The section is as long as its longest part. -/
  longest : IsGreatest {count | ∃ part ∈ sect.parts, part.measures.length = count}
    sect.measureCount
  tempo : Tempo.Allowed sect.tempo

/-- What playback may rely on in a score; the index is the one that is kept with the score. -/
structure Score.WellFormed (score : Score) : Prop where
  sections_ne_nil : score.sections ≠ []
  names_nodup : (score.sections.map Section.name).Nodup
  index_nodup : (score.index.map Prod.fst).Nodup
  /-- The place of a name is that of the section with this name, and no other name has one. -/
  lookup_eq_some_iff : ∀ name place, score.index.lookup name = some place ↔
    ∃ sect, score.sections[place]? = some sect ∧ sect.name = name
  chain_ne_nil : score.chain ≠ []
  chain_indexed : ∀ name ∈ score.chain, (score.index.lookup name).isSome
  sectionAt?_isSome : ∀ position, (score.sectionAt? position).isSome
  sections : ∀ sect ∈ score.sections, sect.WellFormed
  tempos_kept : score.sections.Pairwise fun earlier later => Tempo.Kept earlier.tempo later.tempo

namespace Directive

theorem isInstrumentName_of_mem {rest : List Char} {name : String}
    (name_mem : name ∈ readInstruments rest) : IsInstrumentName name := by
  rcases List.mem_map.mp name_mem with ⟨trimmed, trimmed_mem, rfl⟩
  rcases List.mem_filter.mp trimmed_mem with ⟨trimmed_mem, notEmpty⟩
  rcases List.mem_map.mp trimmed_mem with ⟨piece, piece_mem, rfl⟩
  constructor
  · intro isEmpty
    apply of_decide_eq_true notEmpty
    simpa using congrArg String.toList isEmpty
  · rw [String.toList_ofList]
    exact Text.trimmed_trim piece
  · rw [String.toList_ofList]
    intro comma_mem
    exact Text.not_mem_of_mem_splitAt piece_mem (Text.mem_of_mem_trim comma_mem)

/-- What a directive may say of instruments, legatos and tempos. -/
def Tidy : Directive → Prop
  | .instruments names => ∀ name ∈ names, IsInstrumentName name
  | .legato percent => percent ≤ 100
  | .tempo bpm => Tempo.Allowed bpm ∧ bpm ≠ 0
  | _ => True

theorem tidy_of_read {line : List Char} {directive : Directive}
    (reading : read line = .ok directive) : directive.Tidy := by
  unfold read at reading
  simp only at reading
  split at reading
  · cases Except.ok.inj reading
    trivial
  · rcases Outline.readLegato_eq_ok reading with ⟨word, percent, _, _, rfl⟩
    simp only [Tidy]
    omega
  · rcases Outline.readTempo_eq_ok reading with ⟨word, bpm, _, _, isFinite, rfl⟩
    exact ⟨Or.inr (Tempo.restrict_finite isFinite), Tempo.restrict_ne_zero isFinite⟩
  · cases Except.ok.inj reading
    trivial
  · cases Except.ok.inj reading
    intro name name_mem
    exact isInstrumentName_of_mem name_mem
  · cases Except.ok.inj reading
    intro name name_mem
    exact isInstrumentName_of_mem name_mem
  · cases Except.ok.inj reading
    trivial

end Directive

namespace Draft

variable {resolver : Resolver} {draft closed next : Draft}

/-- The parts of a draft that are kept, those of the section in progress last. -/
def keptParts (draft : Draft) : List Part :=
  draft.sections.flatMap Section.parts ++ draft.current.parts

/-- The tempos of the sections of a draft, that of the section in progress last. -/
def tempos (draft : Draft) : List Binary64 :=
  draft.sections.map Section.tempo ++ [draft.current.tempo]

/-- What the lines read so far leave in a draft is as its parts and its sections need it. -/
structure Tidy (draft : Draft) : Prop where
  part : draft.part.Tidy
  keptParts : ∀ part ∈ draft.keptParts, part.instruments ≠ [] ∧ part.Tidy
  tempos : ∀ bpm ∈ draft.tempos, Tempo.Allowed bpm
  tempos_kept : draft.tempos.Pairwise Tempo.Kept

theorem tidy_part : Part.Tidy {} := ⟨by simp, by decide⟩

theorem Tidy.closePart (tidy : draft.Tidy) : draft.closePart.Tidy := by
  have tempos_eq : draft.closePart.tempos = draft.tempos := by simp [Draft.tempos]
  refine ⟨tidy_part, ?_, by rw [tempos_eq]; exact tidy.tempos, by
    rw [tempos_eq]; exact tidy.tempos_kept⟩
  intro part part_mem
  rw [Draft.keptParts, parts_closePart, sections_closePart, ← List.append_assoc] at part_mem
  rcases List.mem_append.mp part_mem with old | closed
  · exact tidy.keptParts part old
  · split at closed
    · cases closed
    · rename_i played
      rw [List.mem_singleton.mp closed]
      exact ⟨played, tidy.part⟩

theorem Tidy.closeSection (tidy : draft.Tidy) (closing : draft.closeSection = .ok closed) :
    closed.Tidy := by
  rcases closeSection_eq_ok closing with ⟨_, rfl⟩ | ⟨_, _, rfl⟩
  · exact tidy.closePart
  · have closedTidy := tidy.closePart
    have tempo_mem : draft.current.tempo ∈ draft.tempos := by simp [Draft.tempos]
    refine ⟨tidy_part, ?_, ?_, ?_⟩
    · simpa [Draft.keptParts] using closedTidy.keptParts
    · have tempos := closedTidy.tempos
      simp only [Draft.tempos, sections_closePart, tempo_closePart] at tempos ⊢
      simpa using tempos
    · have kept := tidy.tempos_kept
      simp only [Draft.tempos, List.map_append, List.map_cons, List.map_nil,
        Section.tempo_countMeasures, tempo_closePart]
      refine List.pairwise_append.mpr ⟨kept, List.pairwise_singleton _ _, ?_⟩
      intro earlier earlier_mem later later_mem
      rw [List.mem_singleton.mp later_mem]
      rcases List.mem_append.mp earlier_mem with old | last
      · exact (List.pairwise_append.mp kept).2.2 earlier old _ (List.mem_singleton_self _)
      · rw [List.mem_singleton.mp last]
        exact id

theorem Tidy.step {entry : ScoreLine} (tidy : draft.Tidy)
    (stepping : draft.step resolver entry.1 entry.2 = .ok next) : next.Tidy := by
  rcases step_eq_ok stepping with ⟨directive, reading, applying⟩
  have said := Directive.tidy_of_read reading
  cases directive with
  | pattern name =>
      rcases apply_pattern_eq_ok applying with ⟨closed, closing, rfl⟩
      rcases closeSection_rest closing with ⟨_, _, _, parts_eq, _⟩
      have closedTidy := tidy.closeSection closing
      refine ⟨closedTidy.part, ?_, closedTidy.tempos, closedTidy.tempos_kept⟩
      simpa [Draft.keptParts, parts_eq] using closedTidy.keptParts
  | instruments names =>
      cases Except.ok.inj applying
      have closedTidy := tidy.closePart
      exact ⟨⟨said, tidy_part.legato_le⟩, closedTidy.keptParts, closedTidy.tempos,
        closedTidy.tempos_kept⟩
  | legato percent =>
      cases Except.ok.inj applying
      exact ⟨⟨tidy.part.instruments, said⟩, tidy.keptParts, tidy.tempos, tidy.tempos_kept⟩
  | tempo bpm =>
      cases Except.ok.inj applying
      refine ⟨tidy.part, tidy.keptParts, ?_, ?_⟩
      · intro other other_mem
        rcases List.mem_append.mp other_mem with old | last
        · exact tidy.tempos other (List.mem_append_left _ old)
        · rw [List.mem_singleton.mp last]
          exact said.1
      · have kept := List.pairwise_append.mp tidy.tempos_kept
        refine List.pairwise_append.mpr ⟨kept.1, List.pairwise_singleton _ _, ?_⟩
        intro earlier _ later later_mem _
        rw [List.mem_singleton.mp later_mem]
        exact said.2
  | chain names =>
      cases Except.ok.inj applying
      split
      · exact tidy
      · exact ⟨tidy.part, tidy.keptParts, tidy.tempos, tidy.tempos_kept⟩
  | measure tokens =>
      rcases apply_measure_eq_ok applying with ⟨measure, _, rfl⟩
      exact ⟨⟨tidy.part.instruments, tidy.part.legato_le⟩, tidy.keptParts, tidy.tempos,
        tidy.tempos_kept⟩

end Draft

/-- Every entry of a compiled timetable is on the grid and has an event. -/
theorem Measure.CompiledFrom.wellFormed {resolver : Resolver} {legato : Nat} {tokens : List String}
    {onsets : List Onset} {measure : Measure}
    (compiled : measure.CompiledFrom resolver legato tokens onsets) : measure.WellFormed := by
  refine ⟨compiled.ordered, ?_, ?_⟩
  · intro entry entry_mem
    exact Nat.le_of_lt_succ (compiled.pulse_lt entry entry_mem)
  · intro entry entry_mem isEmpty
    have scheduled := compiled.ordered.at?_eq_some_of_mem entry_mem
    rw [compiled.at?_eq, isEmpty] at scheduled
    simp only at scheduled
    split at scheduled
    · cases scheduled
    · rename_i hasEvent
      exact hasEvent (Option.some.inj scheduled)

namespace Score

theorem measure_wellFormed_of_mem {resolver : Resolver} {source : String} {score : Score}
    {measure : Measure} (accepted : (read resolver source).outcome = .ok score)
    (measure_mem : measure ∈ score.measures) : measure.WellFormed := by
  rcases exists_line_of_mem_measures accepted measure_mem with ⟨_, _, _, compiles⟩
  rcases Measure.exists_compiledFrom compiles with ⟨onsets, compiled⟩
  exact compiled.wellFormed

theorem Playable.lookup_isSome {score : Score} (playable : score.Playable) {name : String}
    (name_mem : name ∈ score.chain) : (score.index.lookup name).isSome := by
  rcases List.mem_map.mp (playable.chain_known name name_mem) with ⟨sect, sect_mem, sameName⟩
  rcases List.mem_iff_getElem?.mp sect_mem with ⟨place, found⟩
  rw [← indexOf?, playable.indexOf?_eq_some_iff.mpr ⟨sect, found, sameName⟩]
  rfl

/-- Every text that is read as a score gives a well-formed one. -/
theorem wellFormed_of_read {resolver : Resolver} {source : String} {score : Score}
    (accepted : (read resolver source).outcome = .ok score) : score.WellFormed := by
  have playable := playable_of_read accepted
  have start : Draft.Tidy {} := by
    refine ⟨Draft.tidy_part, ?_, ?_, List.pairwise_singleton _ _⟩
    · intro part part_mem
      cases part_mem
    · intro bpm bpm_mem
      exact Or.inl (List.mem_singleton.mp bpm_mem)
  rcases read_induction (fun _ draft => draft.Tidy) start
    (fun _ _ _ _ tidy stepping => tidy.step stepping) accepted with ⟨last, tidy, finishing, _⟩
  rcases Draft.finish_eq_ok finishing with ⟨closed, closing, _, sections_eq, _, _⟩
  have closedTidy := tidy.closeSection closing
  refine ⟨playable.sections_ne_nil, playable.names_nodup, ?_, ?_, playable.chain_ne_nil, ?_, ?_, ?_,
    ?_⟩
  · rw [playable.index_eq, SectionIndex.ofSections_of_nodup playable.names_nodup,
      List.zipIdx_map_fst]
    exact playable.names_nodup
  · intro name place
    exact playable.indexOf?_eq_some_iff
  · intro name name_mem
    exact playable.lookup_isSome name_mem
  · intro position
    rcases playable.exists_sectionAt? position with ⟨_, _, _, _, found, _⟩
    rw [found]
    rfl
  · intro sect sect_mem
    have complete := playable.complete sect sect_mem
    have kept : sect ∈ closed.sections := by rwa [← sections_eq]
    refine ⟨complete.parts_ne_nil, ?_, complete.longest, ?_⟩
    · intro part part_mem
      have part_kept : part ∈ closed.keptParts :=
        List.mem_append_left _ (List.mem_flatMap.mpr ⟨sect, kept, part_mem⟩)
      rcases closedTidy.keptParts part part_kept with ⟨played, partTidy⟩
      refine ⟨partTidy, played, ?_⟩
      intro measure measure_mem
      have measure_kept : measure ∈ score.measures :=
        List.mem_flatMap.mpr ⟨sect, sect_mem, List.mem_flatMap.mpr ⟨part, part_mem, measure_mem⟩⟩
      exact measure_wellFormed_of_mem accepted measure_kept
    · exact closedTidy.tempos _ (List.mem_append_left _ (List.mem_map_of_mem kept))
  · rw [sections_eq]
    exact List.pairwise_map.mp (List.pairwise_append.mp closedTidy.tempos_kept).1

/-- Names with blanks around them and commas without a name, a legato and a tempo out of range, a
section that is dropped but sets the tempo, one without measures, and a chain that repeats one. -/
def untidySource : String :=
  "\n".intercalate ["pattern a", "instruments  X ,, Y Z,", "legato 250", "c . d- e",
    "pattern none", "tempo 0", "pattern b", "instruments W", "chain b a b"]

theorem wellFormed_of_read_untidy :
    ∃ score, (read .unison untidySource).outcome = .ok score ∧ score.WellFormed := by
  have accepted : (read .unison untidySource).outcome.toOption.isSome = true := by
    decide +kernel
  cases outcome : (read .unison untidySource).outcome with
  | error error =>
      rw [outcome] at accepted
      cases accepted
  | ok score => exact ⟨score, rfl, wellFormed_of_read outcome⟩

end Score

end LiveScore
