import LiveScore.Proofs.Score.Draft
import LiveScore.Proofs.Text.Blank
import Mathlib.Data.List.Infix

/-!
# The outline of a score

This file reads a score without a draft. The lines that say something are cut into blocks at the
`pattern` lines, and the lines of a block into groups at the `instruments` lines. Everything else
is a question about lists of lines: the legato at a measure is that of the last `legato` line of
its group so far, the tempo of a section that of the last `tempo` line up to the end of its block,
and the chain that of the last `chain` line of the text.

The cut is described along the text from its start, while a draft only ever sees the lines before
the current one. What links the two is how the pieces of a list change when an item is appended:
an item extends the last piece, and a heading starts another one.
-/

namespace LiveScore.Outline

section Cut

variable {α β : Type} {heading? : α → Option β} {item : α} {first title : β}
  {items body : List α} {closed : List (β × List α)}

/-- The items before the first heading, and for each heading its title and the items up to the
next one. -/
def cut (heading? : α → Option β) : List α → List α × List (β × List α)
  | [] => ([], [])
  | item :: rest =>
    let (lead, pieces) := cut heading? rest
    match heading? item with
    | some title => ([], (title, lead) :: pieces)
    | none => (item :: lead, pieces)

/-- The pieces of a list, where the items before the first heading have the title `first`. -/
def pieces (heading? : α → Option β) (first : β) (items : List α) : List (β × List α) :=
  (first, (cut heading? items).1) :: (cut heading? items).2

@[simp]
theorem pieces_nil : pieces heading? first [] = [(first, [])] := rfl

theorem pieces_cons_heading {rest : List α} (heading : heading? item = some title) :
    pieces heading? first (item :: rest) = (first, []) :: pieces heading? title rest := by
  simp [pieces, cut, heading]

theorem pieces_cons_item {rest : List α} (plain : heading? item = none) :
    pieces heading? first (item :: rest) =
      (first, item :: (cut heading? rest).1) :: (cut heading? rest).2 := by
  simp [pieces, cut, plain]

/-- A heading at the end starts an empty piece. -/
theorem pieces_concat_heading (heading : heading? item = some title) :
    pieces heading? first (items ++ [item]) = pieces heading? first items ++ [(title, [])] := by
  induction items generalizing first with
  | nil => simp [pieces, cut, heading]
  | cons other rest ih =>
      cases otherHeading : heading? other with
      | some next =>
          rw [List.cons_append, pieces_cons_heading otherHeading, pieces_cons_heading otherHeading,
            ih, List.cons_append]
      | none =>
          have later : pieces heading? first (rest ++ [item]) =
              pieces heading? first rest ++ [(title, [])] := ih
          simp only [pieces, List.cons_append, List.cons.injEq, Prod.mk.injEq, true_and] at later
          rw [List.cons_append, pieces_cons_item otherHeading, pieces_cons_item otherHeading,
            later.1, later.2, List.cons_append]

/-- Any other item at the end belongs to the last piece. -/
theorem pieces_concat_item (plain : heading? item = none)
    (split : pieces heading? first items = closed ++ [(title, body)]) :
    pieces heading? first (items ++ [item]) = closed ++ [(title, body ++ [item])] := by
  induction items generalizing first closed title body with
  | nil =>
      have alone : closed = [] := by
        cases closed with
        | nil => rfl
        | cons piece pieces => simp at split
      subst alone
      simp only [pieces_nil, List.nil_append, List.cons.injEq, Prod.mk.injEq, and_true] at split
      simp [pieces, cut, plain, split.1, ← split.2]
  | cons other rest ih =>
      cases otherHeading : heading? other with
      | some next =>
          rw [pieces_cons_heading otherHeading] at split
          rw [List.cons_append, pieces_cons_heading otherHeading]
          cases closed with
          | nil => simp [pieces] at split
          | cons piece closed =>
              simp only [List.cons_append, List.cons.injEq] at split ⊢
              exact ⟨split.1, ih split.2⟩
      | none =>
          rw [pieces_cons_item otherHeading] at split
          rw [List.cons_append, pieces_cons_item otherHeading]
          cases closed with
          | nil =>
              simp only [List.nil_append, List.cons.injEq, Prod.mk.injEq] at split
              rcases split with ⟨⟨rfl, rfl⟩, noMore⟩
              have restSplit : pieces heading? first rest =
                  [] ++ [(first, (cut heading? rest).1)] := by simp [pieces, noMore]
              have later := ih restSplit
              simp only [pieces, List.nil_append, List.cons.injEq, Prod.mk.injEq, true_and] at later
              simp [later.1, later.2]
          | cons piece closed =>
              simp only [List.cons_append, List.cons.injEq] at split
              rcases split with ⟨rfl, more⟩
              have restSplit : pieces heading? first rest =
                  ((first, (cut heading? rest).1) :: closed) ++ [(title, body)] := by
                simp [pieces, more]
              have later := ih restSplit
              simp only [pieces, List.cons_append, List.cons.injEq, Prod.mk.injEq, true_and]
                at later
              simp [later.1, later.2]

end Cut

section Lines

/-- The characters of a line up to the first blank. -/
def firstWord (line : ScoreLine) : String :=
  String.ofList (line.2.takeWhile fun c => !Text.isBlank c)

/-- Reading a line splits it behind its first word. -/
theorem split_eq (line : List Char) : Directive.split line =
    (line.takeWhile fun c => !Text.isBlank c,
      Text.trim (line.dropWhile fun c => !Text.isBlank c)) := by
  have unbroken : ∀ c ∈ line.takeWhile fun c => !Text.isBlank c, Text.isBlank c = false := by
    intro c c_mem
    simpa using List.mem_takeWhile_imp c_mem
  have whole := List.takeWhile_append_dropWhile (p := fun c => !Text.isBlank c) (l := line)
  cases rest : line.dropWhile fun c => !Text.isBlank c with
  | nil =>
      rw [rest, List.append_nil] at whole
      rw [whole] at unbroken ⊢
      rw [Directive.split, Text.splitFirst?_eq_none unbroken]
      rfl
  | cons c more =>
      have blank : Text.isBlank c = true := by
        have stopped := List.head?_dropWhile_not (fun c => !Text.isBlank c) line
        rw [rest] at stopped
        simpa using stopped
      rw [rest] at whole
      have trimmed : Text.trim (c :: more) = Text.trim more := by
        simp [Text.trim, Text.trimLeft, blank]
      rw [trimmed, Directive.split]
      nth_rewrite 1 [← whole]
      rw [Text.splitFirst?_append unbroken blank]

/-- The text after the first word of a line, if that word is the keyword. -/
def after? (keyword : String) (line : ScoreLine) : Option (List Char) :=
  if firstWord line = keyword then some (Text.trim (line.2.dropWhile fun c => !Text.isBlank c))
  else none

theorem after?_eq (keyword : String) (line : ScoreLine) : after? keyword line =
    if String.ofList (Directive.split line.2).1 = keyword then some (Directive.split line.2).2
    else none := by
  rw [after?, firstWord, split_eq]

/-- The name on a `pattern` line. -/
def title? (line : ScoreLine) : Option String := (after? "pattern" line).map String.ofList

/-- The trimmed names on an `instruments` or `instrument` line that are not empty. -/
def instruments? (line : ScoreLine) : Option (List String) :=
  ((after? "instruments" line).or (after? "instrument" line)).map fun rest =>
    (((Text.splitAt ',' rest).map Text.trim).filter (· ≠ [])).map String.ofList

/-- The percentage on a `legato` line, moved into the range from 0 to 100. -/
def legato? (line : ScoreLine) : Option Nat := do
  let word ← (Text.words (← after? "legato" line)).head?
  let percent ← Numeral.int? (-0x8000000000000000) 0x7fffffffffffffff word
  return (max 0 (min percent 100)).toNat

/-- The tempo on a `tempo` line, moved into the range from 1 to 300. -/
def tempo? (line : ScoreLine) : Option Binary64 := do
  let word ← (Text.words (← after? "tempo" line)).head?
  return (← Decimal.read? word).clamp 1 300

/-- The names on a `chain` line, if there are any. -/
def chain? (line : ScoreLine) : Option (List String) :=
  ((after? "chain" line).map fun rest => (Text.words rest).map String.ofList).filter (· ≠ [])

/-- The words that start a line that is no measure. -/
def keywords : List String := ["pattern", "legato", "tempo", "chain", "instruments", "instrument"]

/-- The tokens of a measure line. -/
def tokens? (line : ScoreLine) : Option (List String) :=
  if firstWord line ∈ keywords then none
  else some ((Text.words line.2).map String.ofList)

theorem tokens?_eq (line : ScoreLine) : tokens? line =
    if String.ofList (Directive.split line.2).1 ∈ keywords then none
    else some ((Text.words line.2).map String.ofList) := by
  rw [tokens?, firstWord, split_eq]

end Lines

section Groups

/-- A measure line by its number, with the legato in force there. -/
structure MeasureLine where
  number : Nat
  legato : Nat
  tokens : List String
deriving DecidableEq

/-- The legato after some lines of a group: that of the last `legato` line, or the full one. -/
def legatoAfter (lines : List ScoreLine) : Nat := (lines.filterMap legato?).getLast?.getD 100

/-- The measure lines of a group, each with the legato after the lines of the group up to it. -/
def measureLines (group : List ScoreLine) : List MeasureLine :=
  group.inits.filterMap fun lines => do
    let line ← lines.getLast?
    return ⟨line.1, legatoAfter lines, ← tokens? line⟩

/-- The measure of a measure line, if all its tokens stand for notes. -/
def measure? (resolver : Resolver) (line : MeasureLine) : Option Measure :=
  (Measure.ofTokens resolver line.legato line.tokens).toOption

/-- The part of a group: its instruments and the measures of all its measure lines in order. -/
def part? (resolver : Resolver) (group : List String × List ScoreLine) : Option Part := do
  let measures ← (measureLines group.2).mapM (measure? resolver)
  return { instruments := group.1, measures, legato := legatoAfter group.2 }

end Groups

section Blocks

/-- The blocks of a text with their names; the lines before the first `pattern` line have none. -/
def blocks (lines : List ScoreLine) : List (String × List ScoreLine) := pieces title? "" lines

/-- The groups of a block with their instruments; the lines before the first `instruments` line
have none. -/
def groups (block : List ScoreLine) : List (List String × List ScoreLine) :=
  pieces instruments? [] block

/-- The groups with an instrument. -/
def kept (groups : List (List String × List ScoreLine)) : List (List String × List ScoreLine) :=
  groups.filter fun group => group.1 ≠ []

/-- The tempo after some lines: that of the last `tempo` line, or zero. -/
def tempoAfter (lines : List ScoreLine) : Binary64 := (lines.filterMap tempo?).getLast?.getD 0

/-- A block with a part, and the tempo at its end. -/
structure SectionOutline where
  name : String
  tempo : Binary64
  groups : List (List String × List ScoreLine)
deriving DecidableEq

/-- The sections among some blocks. The tempo of a block is that after all lines up to its end. -/
def sections (blocks : List (String × List ScoreLine)) : List SectionOutline :=
  blocks.inits.filterMap fun upTo => do
    let block ← upTo.getLast?
    if kept (groups block.2) = [] then none
    else return ⟨block.1, tempoAfter (upTo.flatMap Prod.snd), kept (groups block.2)⟩

/-- The section of a block: its parts, as many measures as the longest of them has, and the tempo
at the end of the block. -/
def section? (resolver : Resolver) (outline : SectionOutline) : Option Section := do
  let parts ← outline.groups.mapM (part? resolver)
  let measureCount := (parts.map fun part => part.measures.length).foldl max 0
  return { name := outline.name, parts, measureCount, tempo := outline.tempo }

/-- The score of a text: its sections in order, the names on the last `chain` line or, without one,
those of the sections, and the places of the sections. -/
def score? (resolver : Resolver) (lines : List ScoreLine) : Option Score := do
  let sections ← (sections (blocks lines)).mapM (section? resolver)
  let names := sections.map Section.name
  return { sections, chain := (lines.filterMap chain?).getLast?.getD names, index := names.zipIdx }

/-- The measure lines among some groups that belong to no instrument. -/
def ignored (groups : List (List String × List ScoreLine)) : List Nat :=
  (groups.filter fun group => group.1 = []).flatMap fun group =>
    (measureLines group.2).map MeasureLine.number

end Blocks

end LiveScore.Outline
