import LiveScore.Proofs.Score.Draft
import Mathlib.Data.List.Nodup
import Mathlib.Order.Bounds.Basic

/-!
# What playback relies on

Playback looks sections up by name and takes it for granted that there is something to find, and it
takes a section to be as long as the section says. Two facts come from the draft while it grows: a
kept section has a new name, and it is complete, with at least one part and the length of its
longest one. The others come from the end of the text: there is a section, the index is that of the
sections, and the chain names kept sections only. Together they make the section at every position
of the chain exist and be the only one of its name.
-/

namespace LiveScore

namespace Section

/-- The section has a part and is as long as its longest one. -/
structure Complete (sect : Section) : Prop where
  parts_ne_nil : sect.parts ≠ []
  longest : IsGreatest {count | ∃ part ∈ sect.parts, part.measures.length = count}
    sect.measureCount

theorem complete_countMeasures {sect : Section} (hasPart : sect.parts ≠ []) :
    sect.countMeasures.Complete := by
  refine ⟨hasPart, ?_⟩
  have longest : (sect.parts.map fun part => part.measures.length).max? =
      some sect.countMeasures.measureCount := by
    have counted : (sect.parts.map fun part => part.measures.length) ≠ [] := by simpa using hasPart
    rw [List.max?_eq_some_max counted, countMeasures, List.max?_eq_some_max counted,
      Option.getD_some]
  rcases List.max?_eq_some_iff.mp longest with ⟨attained, bound⟩
  constructor
  · simpa using attained
  · rintro count ⟨part, part_mem, rfl⟩
    exact bound _ (List.mem_map_of_mem part_mem)

end Section

/-- What is true of the sections that a draft has kept. -/
structure Draft.Sound (draft : Draft) : Prop where
  names_nodup : (draft.sections.map Section.name).Nodup
  complete : ∀ sect ∈ draft.sections, sect.Complete

namespace Draft

variable {resolver : Resolver} {draft closed next : Draft}

theorem Sound.congr (sound : draft.Sound) (same : next.sections = draft.sections) : next.Sound :=
  ⟨by rw [same]; exact sound.names_nodup, by rw [same]; exact sound.complete⟩

theorem Sound.closeSection (sound : draft.Sound) (closing : draft.closeSection = .ok closed) :
    closed.Sound := by
  rcases closeSection_eq_ok closing with ⟨_, rfl⟩ | ⟨hasPart, fresh, rfl⟩
  · exact sound.congr rfl
  · constructor
    · have absent : draft.current.name ∉ draft.sections.map Section.name := by
        intro taken
        rcases List.mem_map.mp taken with ⟨sect, sect_mem, sameName⟩
        exact fresh sect sect_mem sameName
      rw [List.map_append, List.map_cons, List.map_nil, Section.name_countMeasures, name_closePart]
      exact List.nodup_append.mpr ⟨sound.names_nodup, List.nodup_singleton _, by
        intro name name_mem other other_mem
        rw [List.mem_singleton.mp other_mem]
        rintro rfl
        exact absent name_mem⟩
    · intro sect sect_mem
      rcases List.mem_append.mp sect_mem with earlier | isLast
      · exact sound.complete sect earlier
      · rw [List.mem_singleton.mp isLast]
        exact Section.complete_countMeasures hasPart

theorem Sound.step {entry : ScoreLine} (sound : draft.Sound)
    (stepping : draft.step resolver entry.1 entry.2 = .ok next) : next.Sound := by
  rcases step_eq_ok stepping with ⟨directive, _, applying⟩
  cases directive with
  | pattern name =>
      rcases apply_pattern_eq_ok applying with ⟨closed, closing, rfl⟩
      exact (sound.closeSection closing).congr rfl
  | instruments names =>
      cases Except.ok.inj applying
      exact sound.congr rfl
  | legato percent =>
      cases Except.ok.inj applying
      exact sound.congr rfl
  | tempo bpm =>
      cases Except.ok.inj applying
      exact sound.congr rfl
  | chain names =>
      cases Except.ok.inj applying
      split
      · exact sound
      · exact sound.congr rfl
  | measure tokens =>
      rcases apply_measure_eq_ok applying with ⟨measure, _, rfl⟩
      exact sound.congr rfl

end Draft

namespace Score

/-- What playback relies on in a score. -/
structure Playable (score : Score) : Prop where
  sections_ne_nil : score.sections ≠ []
  names_nodup : (score.sections.map Section.name).Nodup
  complete : ∀ sect ∈ score.sections, sect.Complete
  index_eq : score.index = SectionIndex.ofSections score.sections
  chain_ne_nil : score.chain ≠ []
  chain_known : ∀ name ∈ score.chain, name ∈ score.sections.map Section.name

theorem playable_of_read {resolver : Resolver} {source : String} {score : Score}
    (accepted : (read resolver source).outcome = .ok score) : score.Playable := by
  have start : Draft.Sound {} := ⟨List.nodup_nil, by simp⟩
  rcases read_induction (fun _ draft => draft.Sound) start
    (fun _ _ _ _ sound stepping => sound.step stepping) accepted with ⟨last, sound, finishing, _⟩
  rcases Draft.finish_eq_ok finishing with 
    ⟨closed, closing, kept, sections_eq, chain_eq, index_eq, known⟩
  have closedSound := sound.closeSection closing
  refine ⟨?_, ?_, ?_, ?_, ?_, known⟩
  · rw [sections_eq]
    exact kept
  · rw [sections_eq]
    exact closedSound.names_nodup
  · rw [sections_eq]
    exact closedSound.complete
  · rw [sections_eq]
    exact index_eq
  · rw [chain_eq]
    split
    · simpa using kept
    · assumption

variable {score : Score}

/-- The index that a name is looked up at is that of the only section with this name. -/
theorem Playable.indexOf?_eq_some_iff (playable : score.Playable) {name : String} {index : Nat} :
    score.indexOf? name = some index ↔
      ∃ sect, score.sections[index]? = some sect ∧ sect.name = name := by
  rw [indexOf?, playable.index_eq]
  exact SectionIndex.lookup_ofSections_eq_some_iff playable.names_nodup

/-- At every position of the chain there is a section of the name written there. -/
theorem Playable.exists_sectionAt? (playable : score.Playable) (position : Nat) :
    ∃ name index sect, score.nameAt? position = some name ∧
      score.sectionAt? position = some (index, sect) ∧ score.indexOf? name = some index ∧
      score.sections[index]? = some sect ∧ sect.name = name := by
  have inChain : position % score.chain.length < score.chain.length :=
    Nat.mod_lt _ (List.length_pos_of_ne_nil playable.chain_ne_nil)
  have named : score.nameAt? position = some score.chain[position % score.chain.length] :=
    List.getElem?_eq_getElem inChain
  rcases List.mem_map.mp (playable.chain_known _ (List.getElem_mem inChain)) with
    ⟨sect, sect_mem, sameName⟩
  rcases List.mem_iff_getElem?.mp sect_mem with ⟨index, found⟩
  have looked := playable.indexOf?_eq_some_iff.mpr ⟨sect, found, sameName⟩
  refine ⟨_, index, sect, named, ?_, looked, found, sameName⟩
  simp [sectionAt?, named, looked, found]

end Score

end LiveScore
