import LiveScore.Score.Basic
import Mathlib.Data.List.Induction

/-!
# The index of sections

The index of a score is made once, from its sections, and everything that looks for a section goes
through it. A name that occurs again would take the place over. Where no name does, the index lists
the names with their places, and looking one up finds the only section that has it.
-/

namespace LiveScore

namespace SectionIndex

variable {name other : String} {place : Nat} {index : SectionIndex} {sections : List Section}

theorem mem_keys_assign :
    other ∈ (assign name place index).map Prod.fst ↔ other = name ∨ other ∈ index.map Prod.fst := by
  induction index with
  | nil => simp [assign]
  | cons entry rest ih =>
      unfold assign
      split
      · rename_i same
        simp [same]
      · rw [List.map_cons, List.mem_cons, ih, List.map_cons, List.mem_cons, or_left_comm]

theorem assign_of_fresh (fresh : name ∉ index.map Prod.fst) :
    assign name place index = index ++ [(name, place)] := by
  induction index with
  | nil => rfl
  | cons entry rest ih =>
      rw [List.map_cons, List.mem_cons, not_or] at fresh
      simp [assign, Ne.symm fresh.1, ih fresh.2]

theorem ofSections_concat (sections : List Section) (sect : Section) :
    ofSections (sections ++ [sect]) = assign sect.name sections.length (ofSections sections) := by
  simp [ofSections, List.zipIdx_append]

theorem mem_keys_ofSections :
    name ∈ (ofSections sections).map Prod.fst ↔ name ∈ sections.map Section.name := by
  induction sections using List.reverseRecOn with
  | nil => simp [ofSections]
  | append_singleton sections sect ih =>
      rw [ofSections_concat, mem_keys_assign, ih, List.map_append, List.mem_append, or_comm]
      simp

/-- A name is in the index exactly if a section has it. -/
theorem lookup_ofSections_eq_none_iff :
    (ofSections sections).lookup name = none ↔ name ∉ sections.map Section.name := by
  rw [← mem_keys_ofSections, List.lookup_eq_none_iff, List.mem_map]
  constructor
  · rintro differs ⟨entry, entry_mem, rfl⟩
    simpa using differs entry entry_mem
  · intro absent entry entry_mem
    rw [bne_iff_ne]
    rintro rfl
    exact absent ⟨entry, entry_mem, rfl⟩

/-- Sections of different names are listed in the index in their order. -/
theorem ofSections_of_nodup (nodup : (sections.map Section.name).Nodup) :
    ofSections sections = (sections.map Section.name).zipIdx := by
  induction sections using List.reverseRecOn with
  | nil => rfl
  | append_singleton sections sect ih =>
      rw [List.map_append, List.nodup_append] at nodup
      have fresh : sect.name ∉ (ofSections sections).map Prod.fst := by
        rw [mem_keys_ofSections]
        intro earlier
        exact nodup.2.2 sect.name earlier sect.name (by simp) rfl
      rw [ofSections_concat, assign_of_fresh fresh, ih nodup.1, List.map_append,
        List.zipIdx_append]
      simp

/-- Looking a name up finds the place of the only section that has it. -/
theorem lookup_ofSections_eq_some_iff (nodup : (sections.map Section.name).Nodup) :
    (ofSections sections).lookup name = some place ↔
      ∃ sect, sections[place]? = some sect ∧ sect.name = name := by
  rw [ofSections_of_nodup nodup, ← Option.map_eq_some_iff, ← List.getElem?_map,
    ← List.mk_mem_zipIdx_iff_getElem?, List.lookup_eq_some_iff]
  constructor
  · rintro ⟨before, after, split, _⟩
    rw [split]
    exact List.mem_append_right _ List.mem_cons_self
  · intro listed
    rcases List.append_of_mem listed with ⟨before, after, split⟩
    refine ⟨before, after, split, ?_⟩
    have keys : (before.map Prod.fst ++ name :: after.map Prod.fst).Nodup := by
      have same := congrArg (List.map Prod.fst) split
      rw [List.zipIdx_map_fst, List.map_append, List.map_cons] at same
      rwa [← same]
    intro entry entry_mem
    rw [bne_iff_ne]
    exact ((List.nodup_append.mp keys).2.2 entry.1 (List.mem_map_of_mem entry_mem) name
      List.mem_cons_self).symm

end SectionIndex

end LiveScore
