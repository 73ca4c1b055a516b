import LiveScore.Text.Blank
import Mathlib.Data.List.TakeWhile

/-!
# Trimmed texts and pieces

Trimming takes characters away at the two ends only, so what it leaves has no blank there and no
character that the text did not have. Cutting a text at a separator leaves pieces without it. A name
that is cut out of a list and trimmed therefore has neither the separator nor blanks around it. A
text with a separator is cut in two at the first one.
-/

namespace LiveScore.Text

/-- A text with no blank at either end. -/
structure Trimmed (text : List Char) : Prop where
  head : ∀ c, text.head? = some c → isBlank c = false
  last : ∀ c, text.getLast? = some c → isBlank c = false

theorem isPrefix_trimRight (text : List Char) : trimRight text <+: text := by
  induction text with
  | nil => exact List.prefix_rfl
  | cons c rest ih =>
      unfold trimRight
      split
      · split
        · exact List.nil_prefix
        · exact ⟨rest, rfl⟩
      · rename_i kept
        exact List.cons_prefix_cons.mpr ⟨rfl, ih⟩

theorem getLast?_trimRight {text : List Char} {c : Char}
    (last : (trimRight text).getLast? = some c) : isBlank c = false := by
  induction text with
  | nil => cases last
  | cons first rest ih =>
      unfold trimRight at last
      split at last
      · split at last
        · cases last
        · rename_i notBlank
          cases last
          simpa using notBlank
      · rename_i notNil
        apply ih
        rw [← last, List.getLast?_cons]
        cases kept : trimRight rest with
        | nil => exact absurd kept notNil
        | cons next more => rw [List.getLast?_cons, Option.getD_some]

theorem trimmed_trim (text : List Char) : Trimmed (trim text) := by
  constructor
  · intro c head
    -- The first character that is left is the first one after the blanks at the start.
    have first : (trimLeft text).head? = some c := by
      rcases isPrefix_trimRight (trimLeft text) with ⟨dropped, whole⟩
      rw [trim] at head
      rw [← whole, List.head?_append, head, Option.some_or]
    have kept := List.head?_dropWhile_not isBlank text
    rw [trimLeft] at first
    rw [first] at kept
    simpa using kept
  · intro c last
    exact getLast?_trimRight last

theorem mem_of_mem_trim {text : List Char} {c : Char} (c_mem : c ∈ trim text) : c ∈ text := by
  have kept : c ∈ trimLeft text := (isPrefix_trimRight _).subset c_mem
  exact (List.dropWhile_suffix isBlank).subset kept

theorem not_mem_of_mem_splitAt {separator : Char} {text piece : List Char}
    (piece_mem : piece ∈ splitAt separator text) : separator ∉ piece := by
  induction text generalizing piece with
  | nil =>
      rw [splitAt, List.mem_singleton] at piece_mem
      rw [piece_mem]
      exact List.not_mem_nil
  | cons c rest ih =>
      unfold splitAt at piece_mem
      split at piece_mem
      · rcases List.mem_cons.mp piece_mem with rfl | later
        · exact List.not_mem_nil
        · exact ih later
      · rename_i differs
        split at piece_mem
        · rw [List.mem_singleton.mp piece_mem]
          simpa using Ne.symm differs
        · rename_i first pieces split
          rcases List.mem_cons.mp piece_mem with rfl | later
          · have absent : separator ∉ first := ih (by rw [split]; exact List.mem_cons_self)
            simpa [absent] using Ne.symm differs
          · apply ih
            rw [split]
            exact List.mem_cons_of_mem _ later

theorem splitFirst?_append {p : Char → Bool} {left right : List Char} {c : Char}
    (absent : ∀ other ∈ left, p other = false) (found : p c = true) :
    splitFirst? p (left ++ c :: right) = some (left, right) := by
  induction left with
  | nil => simp [splitFirst?, found]
  | cons first rest ih =>
      rw [List.forall_mem_cons] at absent
      simp [splitFirst?, absent.1, ih absent.2]

theorem splitFirst?_eq_none {p : Char → Bool} {text : List Char}
    (absent : ∀ c ∈ text, p c = false) : splitFirst? p text = none := by
  induction text with
  | nil => rfl
  | cons first rest ih =>
      rw [List.forall_mem_cons] at absent
      simp [splitFirst?, absent.1, ih absent.2]

theorem splitFirst?_eq_some {p : Char → Bool} {text left right : List Char}
    (split : splitFirst? p text = some (left, right)) :
    ∃ c, p c = true ∧ text = left ++ c :: right := by
  induction text generalizing left with
  | nil => cases split
  | cons c rest ih =>
      simp only [splitFirst?] at split
      split at split
      · rename_i found
        cases split
        exact ⟨c, found, rfl⟩
      · cases inner : splitFirst? p rest with
        | none =>
            rw [inner] at split
            cases split
        | some sides =>
            rw [inner] at split
            cases split
            rcases ih inner with ⟨separator, found, rest_eq⟩
            exact ⟨separator, found, congrArg (c :: ·) rest_eq⟩

end LiveScore.Text
