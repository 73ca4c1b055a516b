import LiveScore.Pitch.Cluster
import LiveScore.Proofs.Pitch.Class
import Mathlib.Data.List.TakeWhile

/-!
# The spellings of a token

A token is cut into spellings greedily: each takes the accidental that follows its letter and all
digits after that. Written down again, the spellings give the token back, and there is no other cut
of it in which every spelling takes all that it can. The first character of a spelling may be any
character, also one that names no note.
-/

namespace LiveScore.Cluster

/-- The characters of a spelling. -/
def Spelling.text (spelling : Spelling) : List Char :=
  spelling.letter :: (spelling.accidental.text ++ spelling.digits)

/-- A spelling that is followed by `rest` leaves nothing there that it could have taken. -/
structure Spelling.Greedy (spelling : Spelling) (rest : List Char) : Prop where
  isDigit : ∀ c ∈ spelling.digits, Numeral.isDigit c
  noSign : spelling.accidental = .natural →
    ∀ c, (spelling.digits ++ rest).head? = some c → c ≠ '#' ∧ c ≠ 'b'
  noDigit : ∀ c, rest.head? = some c → Numeral.isDigit c = false

/-- The text is cut into spellings, each of which takes all that it can. -/
inductive Cut : List Char → List Spelling → Prop
  | nil : Cut [] []
  | cons {spelling : Spelling} {rest : List Char} {others : List Spelling}
      (greedy : spelling.Greedy rest) (restCut : Cut rest others) :
      Cut (spelling.text ++ rest) (spelling :: others)

variable {letter : Char} {text rest : List Char} {spelling : Spelling} {units : List Spelling}

theorem Spelling.Greedy.takeWhile_append (greedy : spelling.Greedy rest) :
    (spelling.digits ++ rest).takeWhile Numeral.isDigit = spelling.digits := by
  rw [List.takeWhile_append_of_pos greedy.isDigit]
  cases rest with
  | nil => simp
  | cons c following => simp [greedy.noDigit c rfl]

theorem Spelling.Greedy.dropWhile_append (greedy : spelling.Greedy rest) :
    (spelling.digits ++ rest).dropWhile Numeral.isDigit = rest := by
  rw [List.dropWhile_append_of_pos greedy.isDigit]
  cases rest with
  | nil => simp
  | cons c following => simp [greedy.noDigit c rfl]

/-- What is taken is the one spelling at the front of the text that leaves nothing it could take. -/
theorem takeSpelling_eq_iff :
    takeSpelling letter text = (spelling, rest) ↔
      letter :: text = spelling.text ++ rest ∧ spelling.Greedy rest := by
  constructor
  · intro taken
    simp only [takeSpelling] at taken
    cases sign : Accidental.takeFirst text with
    | mk accidental following =>
        rcases Accidental.takeFirst_eq_iff.mp sign with ⟨rfl, alone⟩
        rw [sign] at taken
        cases taken
        refine ⟨?_, ?_, ?_, ?_⟩
        · simp [Spelling.text]
        · intro c c_mem
          exact List.mem_takeWhile_imp c_mem
        · simpa using alone
        · intro c head
          have stopped := List.head?_dropWhile_not Numeral.isDigit following
          rw [head] at stopped
          simpa using stopped
  · rintro ⟨text_eq, greedy⟩
    rcases spelling with ⟨_, accidental, digits⟩
    simp only [Spelling.text, List.cons_append, List.append_assoc, List.cons.injEq] at text_eq
    rcases text_eq with ⟨rfl, rfl⟩
    have sign : Accidental.takeFirst (accidental.text ++ (digits ++ rest)) =
        (accidental, digits ++ rest) :=
      Accidental.takeFirst_eq_iff.mpr ⟨rfl, greedy.noSign⟩
    simp only [takeSpelling, sign, greedy.takeWhile_append, greedy.dropWhile_append]

/-- Each text has one cut into spellings. -/
theorem cut_iff : Cut text units ↔ spellings text = units := by
  constructor
  · intro cut
    induction cut with
    | nil => simp [spellings]
    | @cons spelling rest others greedy _ ih =>
        have taken : takeSpelling spelling.letter
            (spelling.accidental.text ++ spelling.digits ++ rest) = (spelling, rest) :=
          takeSpelling_eq_iff.mpr ⟨rfl, greedy⟩
        simp only [Spelling.text, List.cons_append, spellings, taken, ih]
  · rintro rfl
    -- The cut has one spelling for each step of the recursion.
    fun_induction spellings text with
    | case1 => exact .nil
    | case2 letter following ih =>
        rcases takeSpelling_eq_iff.mp (rfl : takeSpelling letter following = _) with
          ⟨text_eq, greedy⟩
        rw [text_eq]
        exact .cons greedy ih

end LiveScore.Cluster
