import LiveScore.Proofs.Score.Draft
import LiveScore.Proofs.Text.Blank

/-!
# Numbered lines

A line of a score is known by its number, counted from 1 over all lines of the text, those that say
nothing included. This file describes the lines that say something for any run of lines and any
number of its first line, so that a text can be cut between two lines. Which lines of a text say
something is also told without reading it: a line says nothing if it is blank, or if the first of
its characters that is not blank is a number sign.
-/

namespace LiveScore

namespace Text

variable {separator : Char} {text piece : List Char}

theorem splitAt_ne_nil (separator : Char) (text : List Char) : splitAt separator text ≠ [] := by
  cases text with
  | nil => simp [splitAt]
  | cons c rest =>
      unfold splitAt
      split
      · simp
      · split <;> simp

/-- A piece without the separator reaches up to the first occurrence of it. -/
theorem splitAt_append_cons (absent : separator ∉ piece) (text : List Char) :
    splitAt separator (piece ++ separator :: text) = piece :: splitAt separator text := by
  induction piece with
  | nil => simp [splitAt]
  | cons c rest ih =>
      rw [List.mem_cons, not_or] at absent
      simp [splitAt, Ne.symm absent.1, ih absent.2]

theorem splitAt_of_not_mem (absent : separator ∉ text) : splitAt separator text = [text] := by
  induction text with
  | nil => rfl
  | cons c rest ih =>
      rw [List.mem_cons, not_or] at absent
      simp [splitAt, Ne.symm absent.1, ih absent.2]

end Text

/-- A line that is blank, or whose first character that is not blank is a number sign. -/
def SaysNothing (line : List Char) : Prop :=
  (∀ c ∈ line, Text.isBlank c = true) ∨ (line.find? fun c => !Text.isBlank c) = some '#'

instance (line : List Char) : Decidable (SaysNothing line) :=
  decidable_of_iff
    (line.all Text.isBlank = true ∨ (line.find? fun c => !Text.isBlank c) = some '#')
    (or_congr List.all_eq_true Iff.rfl)

/-- The lines of a text that say something, in their order: each with its number, counted from 1
over all lines of the text, and without the blanks at its ends. -/
structure KeptLines (source : List Char) (lines : List ScoreLine) : Prop where
  ascending : lines.Pairwise fun earlier later => earlier.1 < later.1
  mem_iff : ∀ line, line ∈ lines ↔ ∃ index raw, (Text.lines source)[index]? = some raw ∧
    ¬SaysNothing raw ∧ line = (index + 1, Text.trim raw)

namespace Directive

/-- Trimming leaves nothing of a blank line, and starts any other with its first character that is
not blank. -/
theorem isSilent_trim_iff {line : List Char} :
    isSilent (Text.trim line) = true ↔ SaysNothing line := by
  have first : (Text.trimLeft line).head? = line.find? fun c => !Text.isBlank c := by
    simp [Text.trimLeft, List.find?_eq_head?_dropWhile_not]
  cases left : Text.trimLeft line with
  | nil =>
      have blank : ∀ c ∈ line, Text.isBlank c = true := List.dropWhile_eq_nil_iff.mp left
      rw [Text.trim, left]
      exact iff_of_true rfl (Or.inl blank)
  | cons c rest =>
      rw [left, List.head?_cons] at first
      have spoken : Text.isBlank c = false := by simpa using List.find?_some first.symm
      have notBlank : ¬∀ c ∈ line, Text.isBlank c = true := by
        intro blank
        simp [blank c (List.mem_of_find?_eq_some first.symm)] at spoken
      have starts : (Text.trimRight (c :: rest)).head? = some c := by
        unfold Text.trimRight
        split <;> simp [spoken]
      rw [Text.trim, left, SaysNothing, ← first]
      cases kept : Text.trimRight (c :: rest) with
      | nil => simp [kept] at starts
      | cons start more =>
          rw [kept, List.head?_cons] at starts
          cases starts
          simp [isSilent, notBlank]

/-- The lines that say something among some lines, of which the first has the number `first`. -/
def numbered (first : Nat) (lines : List (List Char)) : List ScoreLine :=
  ((lines.map Text.trim).zipIdx first).filterMap fun (line, number) =>
    if isSilent line then none else some (number, line)

variable {first : Nat} {line : List Char} {lines more : List (List Char)}

theorem numberedLines_eq (source : List Char) :
    numberedLines source = numbered 1 (Text.lines source) := rfl

theorem numbered_cons_of_silent (silent : isSilent (Text.trim line) = true) :
    numbered first (line :: lines) = numbered (first + 1) lines := by
  simp [numbered, silent]

theorem numbered_cons (spoken : isSilent (Text.trim line) = false) :
    numbered first (line :: lines) = (first, Text.trim line) :: numbered (first + 1) lines := by
  simp [numbered, spoken]

theorem numbered_append :
    numbered first (lines ++ more) =
      numbered first lines ++ numbered (first + lines.length) more := by
  simp [numbered, List.zipIdx_append]

theorem numbered_of_silent (silent : ∀ line ∈ lines, isSilent (Text.trim line) = true) :
    numbered first lines = [] := by
  induction lines generalizing first with
  | nil => rfl
  | cons line rest ih =>
      rw [List.forall_mem_cons] at silent
      rw [numbered_cons_of_silent silent.1, ih silent.2]

/-- What a line says depends on its trimmed text only. -/
theorem numbered_congr (same : lines.map Text.trim = more.map Text.trim) :
    numbered first lines = numbered first more := by
  rw [numbered, numbered, same]

theorem mem_numbered_iff {entry : ScoreLine} :
    entry ∈ numbered first lines ↔ first ≤ entry.1 ∧ isSilent entry.2 = false ∧
      ∃ raw, lines[entry.1 - first]? = some raw ∧ entry.2 = Text.trim raw := by
  rcases entry with ⟨number, line⟩
  simp only [numbered, List.mem_filterMap, Prod.exists,
    List.mk_mem_zipIdx_iff_le_and_getElem?_sub, List.getElem?_map, Option.map_eq_some_iff]
  constructor
  · rintro ⟨trimmed, index, ⟨first_le, raw, found, rfl⟩, said⟩
    split at said
    · cases said
    · rename_i spoken
      cases said
      exact ⟨first_le, by simpa using spoken, raw, found, rfl⟩
  · rintro ⟨first_le, spoken, raw, found, rfl⟩
    exact ⟨_, number, ⟨first_le, raw, found, rfl⟩, by simp [spoken]⟩

theorem numbered_ascending :
    (numbered first lines).Pairwise fun earlier later => earlier.1 < later.1 := by
  induction lines generalizing first with
  | nil => exact List.Pairwise.nil
  | cons line rest ih =>
      cases spoken : isSilent (Text.trim line) with
      | true =>
          rw [numbered_cons_of_silent spoken]
          exact ih
      | false =>
          rw [numbered_cons spoken]
          refine List.Pairwise.cons ?_ ih
          intro later later_mem
          exact Nat.lt_of_succ_le (mem_numbered_iff.mp later_mem).1

/-- The lines from which a text is read are those that say something. -/
theorem keptLines_numberedLines (source : List Char) : KeptLines source (numberedLines source) where
  ascending := numbered_ascending
  mem_iff := by
    rintro ⟨number, line⟩
    rw [numberedLines_eq, mem_numbered_iff]
    constructor
    · rintro ⟨one_le, spoken, raw, found, trimmed⟩
      refine ⟨number - 1, raw, found, ?_, ?_⟩
      · rw [← isSilent_trim_iff, ← trimmed, spoken]
        exact Bool.false_ne_true
      · rw [Nat.sub_add_cancel one_le, ← trimmed]
    · rintro ⟨index, raw, found, spoken, same⟩
      cases same
      refine ⟨Nat.le_add_left .., ?_, raw, found, rfl⟩
      rwa [← isSilent_trim_iff, Bool.not_eq_true] at spoken

end Directive

end LiveScore
