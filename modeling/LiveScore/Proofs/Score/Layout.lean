import LiveScore.Proofs.Score.Lines
import LiveScore.Proofs.Score.Renumbering
import LiveScore.Proofs.Text.Blank
import Mathlib.Order.Monotone.Basic

/-!
# The layout of a text

Blank lines and comments can be put in anywhere, lines can be indented or followed by blanks, and
they may end as on either kind of system. None of this changes the score, and an error is reported
at the place to which its line has moved. Trimming takes care of all that happens within a line, so
the lines that say something are the same but for their numbers. A draft only copies the numbers of
lines, and reading commutes with any way of changing them.
-/

namespace LiveScore

namespace Text

variable {text blanks left right : List Char}

theorem trimRight_append_blank (blank : ∀ c ∈ blanks, isBlank c = true) (text : List Char) :
    trimRight (text ++ blanks) = trimRight text := by
  induction text with
  | nil =>
      induction blanks with
      | nil => rfl
      | cons c rest ih =>
          rw [List.forall_mem_cons] at blank
          have nothing : trimRight rest = [] := ih blank.2
          simp [trimRight, nothing, blank.1]
  | cons c rest ih => simp only [List.cons_append, trimRight, ih]

theorem trimLeft_append_blank (blank : ∀ c ∈ blanks, isBlank c = true) (text : List Char) :
    trimLeft (blanks ++ text) = trimLeft text :=
  List.dropWhile_append_of_pos blank

/-- Blanks around a text are trimmed away, also if nothing else is left of it. -/
theorem trim_append (blankLeft : ∀ c ∈ left, isBlank c = true)
    (blankRight : ∀ c ∈ right, isBlank c = true) (text : List Char) :
    trim (left ++ text ++ right) = trim text := by
  rw [trim, trim, List.append_assoc, trimLeft_append_blank blankLeft, trimLeft, trimLeft,
    List.dropWhile_append]
  split
  · rename_i onlyBlank
    rw [List.isEmpty_iff] at onlyBlank
    have nothing : right.dropWhile isBlank = [] := List.dropWhile_eq_nil_iff.mpr blankRight
    rw [onlyBlank, nothing]
  · exact trimRight_append_blank blankRight _

end Text

/-- What ends a line. -/
inductive LineEnding where
  | lineFeed
  | carriageReturn
deriving DecidableEq

namespace LineEnding

/-- The characters before the line feed. -/
def characters : LineEnding → List Char
  | lineFeed => []
  | carriageReturn => ['\x0d']

/-- The text of some lines, each but the last with its ending. -/
def join (ending : LineEnding) : List (List Char) → List Char
  | [] => []
  | [line] => line
  | line :: rest => line ++ ending.characters ++ '\n' :: ending.join rest

theorem isBlank_of_mem_characters {ending : LineEnding} {c : Char}
    (c_mem : c ∈ ending.characters) : Text.isBlank c = true := by
  cases ending with
  | lineFeed => cases c_mem
  | carriageReturn =>
      rw [List.mem_singleton.mp c_mem]
      decide

theorem not_mem_characters (ending : LineEnding) : '\n' ∉ ending.characters := by
  cases ending <;> decide

theorem join_cons (ending : LineEnding) (line : List Char) {rest : List (List Char)}
    (notNil : rest ≠ []) :
    ending.join (line :: rest) = line ++ ending.characters ++ '\n' :: ending.join rest := by
  cases rest with
  | nil => exact absurd rfl notNil
  | cons next more => rfl

/-- The lines of a text are the lines that it was joined from, up to trimming. -/
theorem map_trim_lines_join (ending : LineEnding) {lines : List (List Char)} (notNil : lines ≠ [])
    (single : ∀ line ∈ lines, '\n' ∉ line) :
    (Text.lines (ending.join lines)).map Text.trim = lines.map Text.trim := by
  induction lines with
  | nil => exact absurd rfl notNil
  | cons line rest ih =>
      rw [List.forall_mem_cons] at single
      by_cases last : rest = []
      · rw [last, join, Text.lines, Text.splitAt_of_not_mem single.1]
      · have absent : '\n' ∉ line ++ ending.characters := by
          rw [List.mem_append, not_or]
          exact ⟨single.1, ending.not_mem_characters⟩
        have trimmed : Text.trim (line ++ ending.characters) = Text.trim line :=
          Text.trim_append (List.forall_mem_nil _) (fun _ => isBlank_of_mem_characters) line
        have later : (Text.splitAt '\n' (ending.join rest)).map Text.trim = rest.map Text.trim :=
          ih last single.2
        rw [join_cons ending line last, Text.lines, Text.splitAt_append_cons absent, List.map_cons,
          List.map_cons, trimmed, later]

/-- The lines of a text are found where they were put, the last one without an ending. -/
theorem getElem?_lines_join (ending : LineEnding) {lines : List (List Char)} {index : Nat}
    {line : List Char} (single : ∀ line ∈ lines, '\n' ∉ line) (found : lines[index]? = some line) :
    ∃ raw, (Text.lines (ending.join lines))[index]? = some raw ∧
      (raw = line ∨ raw = line ++ ending.characters) := by
  induction lines generalizing index with
  | nil => cases found
  | cons first rest ih =>
      rw [List.forall_mem_cons] at single
      by_cases last : rest = []
      · rw [last] at found ⊢
        rw [join, Text.lines, Text.splitAt_of_not_mem single.1]
        exact ⟨line, found, Or.inl rfl⟩
      · have absent : '\n' ∉ first ++ ending.characters := by
          rw [List.mem_append, not_or]
          exact ⟨single.1, ending.not_mem_characters⟩
        rw [join_cons ending first last, Text.lines, Text.splitAt_append_cons absent]
        cases index with
        | zero =>
            cases found
            exact ⟨_, rfl, Or.inr rfl⟩
        | succ index => exact ih single.2 found

end LineEnding

/-- A way to lay a text out anew: the lines to put in before the line with a number, or at the end
before the number after the last one, and the blanks to put at the two ends of a line. -/
structure Layout where
  inserted : Nat → List (List Char)
  left : Nat → List Char
  right : Nat → List Char
  /-- What is put in are blank lines and comments. -/
  inserted_saysNothing : ∀ number, ∀ line ∈ inserted number, SaysNothing line ∧ '\n' ∉ line
  left_blank : ∀ number, ∀ c ∈ left number, Text.isBlank c = true ∧ c ≠ '\n'
  right_blank : ∀ number, ∀ c ∈ right number, Text.isBlank c = true ∧ c ≠ '\n'

namespace Layout

variable {number : Nat} {lines : List (List Char)}

/-- The line with a number between its blanks. -/
def layLine (layout : Layout) (number : Nat) (line : List Char) : List Char :=
  layout.left number ++ line ++ layout.right number

/-- Lays some lines out, of which the first has a number. -/
def lay (layout : Layout) : Nat → List (List Char) → List (List Char)
  | number, [] => layout.inserted number
  | number, line :: rest =>
    layout.inserted number ++ layout.layLine number line :: layout.lay (number + 1) rest

/-- The number that the line with a number gets. -/
def position (layout : Layout) : Nat → Nat
  | 0 => 0
  | number + 1 => layout.position number + (layout.inserted (number + 1)).length + 1

/-- The text after it is laid out, with one kind of line ending. -/
def apply (layout : Layout) (ending : LineEnding) (source : String) : String :=
  String.ofList (ending.join (layout.lay 1 (Text.lines source.toList)))

theorem trim_layLine (layout : Layout) (number : Nat) (line : List Char) :
    Text.trim (layout.layLine number line) = Text.trim line :=
  Text.trim_append (fun c c_mem => (layout.left_blank number c c_mem).1)
    (fun c c_mem => (layout.right_blank number c c_mem).1) line

theorem not_mem_layLine (layout : Layout) (number : Nat) {line : List Char}
    (single : '\n' ∉ line) : '\n' ∉ layout.layLine number line := by
  rw [layLine, List.mem_append, List.mem_append, not_or, not_or]
  exact ⟨⟨fun inLeft => (layout.left_blank number _ inLeft).2 rfl, single⟩,
    fun inRight => (layout.right_blank number _ inRight).2 rfl⟩

theorem lay_ne_nil (layout : Layout) (number : Nat) (notNil : lines ≠ []) :
    layout.lay number lines ≠ [] := by
  cases lines with
  | nil => exact absurd rfl notNil
  | cons line rest => simp [lay]

theorem single_of_mem_lay (layout : Layout) (single : ∀ line ∈ lines, '\n' ∉ line) :
    ∀ line ∈ layout.lay number lines, '\n' ∉ line := by
  induction lines generalizing number with
  | nil => exact fun line line_mem => (layout.inserted_saysNothing number line line_mem).2
  | cons line rest ih =>
      rw [List.forall_mem_cons] at single
      intro other other_mem
      rw [lay, List.mem_append, List.mem_cons] at other_mem
      rcases other_mem with inserted | rfl | later
      · exact (layout.inserted_saysNothing number other inserted).2
      · exact layout.not_mem_layLine number single.1
      · exact ih single.2 other later

theorem position_strictMono (layout : Layout) : StrictMono layout.position :=
  strictMono_nat_of_lt_succ fun number => by
    rw [position]
    omega

/-- The place at which the line with an index is found, among lines of which the first has the
number after `number`. -/
theorem getElem?_lay (layout : Layout) (number : Nat) {index : Nat} {line : List Char}
    (found : lines[index]? = some line) :
    (layout.lay (number + 1) lines)[layout.position (number + 1 + index) -
      (layout.position number + 1)]? = some (layout.layLine (number + 1 + index) line) := by
  induction lines generalizing number index with
  | nil => cases found
  | cons head rest ih =>
      have here : layout.position (number + 1) =
          layout.position number + (layout.inserted (number + 1)).length + 1 := rfl
      cases index with
      | zero =>
          cases found
          have index_eq : layout.position (number + 1) - (layout.position number + 1) =
              (layout.inserted (number + 1)).length := by omega
          rw [lay, Nat.add_zero, index_eq, List.getElem?_append_right (Nat.le_refl _), Nat.sub_self]
          rfl
      | succ index =>
          have after : layout.position (number + 1) < layout.position (number + 1 + 1 + index) :=
            layout.position_strictMono (by omega)
          have index_eq : layout.position (number + 1 + 1 + index) - (layout.position number + 1) =
              (layout.inserted (number + 1)).length + (layout.position (number + 1 + 1 + index) -
                (layout.position (number + 1) + 1) + 1) := by
            omega
          have number_eq : number + 1 + (index + 1) = number + 1 + 1 + index := by omega
          rw [lay, number_eq, index_eq, List.getElem?_append_right (Nat.le_add_right _ _),
            Nat.add_sub_cancel_left, List.getElem?_cons_succ]
          exact ih (number + 1) found

open Directive in
/-- The lines that say something stay the same but for their numbers. -/
theorem numbered_lay (layout : Layout) (number : Nat) (lines : List (List Char)) :
    numbered (layout.position number + 1) (layout.lay (number + 1) lines) =
      (numbered (number + 1) lines).map fun line => (layout.position line.1, line.2) := by
  have quiet (number first : Nat) : numbered first (layout.inserted number) = [] :=
    numbered_of_silent fun line line_mem =>
      isSilent_trim_iff.mpr (layout.inserted_saysNothing number line line_mem).1
  induction lines generalizing number with
  | nil => exact quiet (number + 1) _
  | cons line rest ih =>
      have position_eq : layout.position number + 1 + (layout.inserted (number + 1)).length =
          layout.position (number + 1) := by
        rw [position]
        omega
      rw [lay, numbered_append, quiet (number + 1), List.nil_append, position_eq]
      cases spoken : isSilent (Text.trim line) with
      | true =>
          have silent : isSilent (Text.trim (layout.layLine (number + 1) line)) = true := by
            rw [trim_layLine, spoken]
          rw [numbered_cons_of_silent silent, numbered_cons_of_silent spoken, ih]
      | false =>
          have laidSpoken : isSilent (Text.trim (layout.layLine (number + 1) line)) = false := by
            rw [trim_layLine, spoken]
          rw [numbered_cons laidSpoken, numbered_cons spoken, ih, trim_layLine, List.map_cons]

/-- The lines of a text have no line feed, and laying them out puts none in. -/
theorem single_of_mem_lay_lines (layout : Layout) (source : String) :
    ∀ line ∈ layout.lay 1 (Text.lines source.toList), '\n' ∉ line :=
  layout.single_of_mem_lay fun _ => Text.not_mem_of_mem_splitAt

theorem numberedLines_apply (layout : Layout) (ending : LineEnding) (source : String) :
    Directive.numberedLines (layout.apply ending source).toList =
      (Directive.numberedLines source.toList).map fun line => (layout.position line.1, line.2) := by
  have notNil : layout.lay 1 (Text.lines source.toList) ≠ [] :=
    layout.lay_ne_nil 1 (Text.splitAt_ne_nil '\n' _)
  calc Directive.numberedLines (layout.apply ending source).toList
    _ = Directive.numbered 1
          (Text.lines (ending.join (layout.lay 1 (Text.lines source.toList)))) := by
        rw [Directive.numberedLines_eq, apply, String.toList_ofList]
    _ = Directive.numbered 1 (layout.lay 1 (Text.lines source.toList)) :=
        Directive.numbered_congr
          (ending.map_trim_lines_join notNil (layout.single_of_mem_lay_lines source))
    _ = (Directive.numbered 1 (Text.lines source.toList)).map fun line =>
          (layout.position line.1, line.2) :=
        layout.numbered_lay 0 _

/-- Laying a text out anew, with either kind of line ending, changes the numbers of lines in what is
reported and nothing else: a score stays the same, and so does an error, at the new number of its
line. The line that had a number is found at its new number, between the blanks it was given. -/
theorem read_apply (layout : Layout) (ending : LineEnding) (resolver : Resolver)
    (source : String) :
    Score.read resolver (layout.apply ending source) =
        (Score.read resolver source).renumber layout.position ∧
      ∀ index line, (Text.lines source.toList)[index]? = some line →
        ∃ raw, (Text.lines (layout.apply ending source).toList)[
            layout.position (index + 1) - 1]? = some raw ∧
          (raw = layout.layLine (index + 1) line ∨
            raw = layout.layLine (index + 1) line ++ ending.characters) := by
  constructor
  · calc Score.read resolver (layout.apply ending source)
      _ = Draft.read resolver (({} : Draft).renumber layout.position)
            ((Directive.numberedLines source.toList).map fun line =>
              (layout.position line.1, line.2)) := by
          rw [Score.read, numberedLines_apply, Draft.renumber_nil layout.position rfl]
      _ = (Score.read resolver source).renumber layout.position :=
          Draft.read_renumber layout.position resolver {} _
  · intro index line found
    have laid := layout.getElem?_lay 0 found
    rw [Nat.zero_add, Nat.add_comm 1 index] at laid
    rw [apply, String.toList_ofList]
    exact ending.getElem?_lines_join (layout.single_of_mem_lay_lines source) laid

/-- A comment and a blank line before the first line, an indented comment before the third one, and
blanks of several kinds at both ends of every line. -/
def airy : Layout where
  inserted number := if number = 1 then ["# song".toList, []]
    else if number = 3 then ["\t # verse".toList] else []
  left _ := [' ', '\u3000']
  right _ := ['\t', ' ']
  inserted_saysNothing := by
    intro number line line_mem
    split at line_mem
    · rcases List.mem_cons.mp line_mem with rfl | line_mem
      · decide
      · rw [List.mem_singleton.mp line_mem]
        decide
    · split at line_mem
      · rw [List.mem_singleton.mp line_mem]
        decide
      · cases line_mem
  left_blank _ := List.forall_mem_cons.mpr
    ⟨by decide, List.forall_mem_singleton.mpr (by decide)⟩
  right_blank _ := List.forall_mem_cons.mpr
    ⟨by decide, List.forall_mem_singleton.mpr (by decide)⟩

/-- The error of the third line is reported for the sixth one. -/
theorem read_apply_airy :
    airy.apply .carriageReturn "pattern a\ntempo 90\nlegato x" =
        "\x0d\n".intercalate ["# song", "", " \u3000pattern a\t ", " \u3000tempo 90\t ",
          "\t # verse", " \u3000legato x\t "] ∧
      (Score.read .standard "pattern a\ntempo 90\nlegato x").outcome =
        .error (.invalidLegato 3 "x") ∧
      (Score.read .standard
        (airy.apply .carriageReturn "pattern a\ntempo 90\nlegato x")).outcome =
        .error (.invalidLegato 6 "x") := by
  have refused : (Score.read .standard "pattern a\ntempo 90\nlegato x").outcome =
      .error (.invalidLegato 3 "x") := by
    decide +kernel
  refine ⟨by decide +kernel, refused, ?_⟩
  rw [(airy.read_apply .carriageReturn .standard _).1, Reading.renumber]
  simp only [refused]
  rfl

end Layout

end LiveScore
