import LiveScore.Numeric.Numeral

/-!
# What a numeral stands for

A numeral is read in the one way in which it can be cut into a sign and digits, so reading an
integer finds the number that the text writes if the range has it, and nothing otherwise. A natural
number has no minus sign.
-/

namespace LiveScore.Numeral

/-- At least one character, and all of them digits. -/
def Digits (text : List Char) : Prop := text ≠ [] ∧ ∀ c ∈ text, isDigit c = true

/-- The text is a sign or none, followed by the digits of the number. -/
inductive Writes : List Char → Int → Prop
  | unsigned {digits : List Char} (valid : Digits digits) : Writes digits (ofDigits digits)
  | positive {digits : List Char} (valid : Digits digits) : Writes ('+' :: digits) (ofDigits digits)
  | negative {digits : List Char} (valid : Digits digits) :
      Writes ('-' :: digits) (-(ofDigits digits : Int))

/-- The text is a plus sign or none, followed by the digits of the number. -/
inductive WritesNat : List Char → Nat → Prop
  | unsigned {digits : List Char} (valid : Digits digits) : WritesNat digits (ofDigits digits)
  | positive {digits : List Char} (valid : Digits digits) :
      WritesNat ('+' :: digits) (ofDigits digits)

variable {text : List Char} {least greatest n : Int}

theorem digits?_eq_some_iff {value : Nat} :
    digits? text = some value ↔ Digits text ∧ ofDigits text = value := by
  simp [digits?, Digits]

/-- Digits do not start with a sign. -/
theorem Digits.head_ne_sign {c : Char} {rest : List Char} (valid : Digits (c :: rest)) :
    c ≠ '+' ∧ c ≠ '-' := by
  have digit := valid.2 c List.mem_cons_self
  constructor <;> rintro rfl <;> cases digit

theorem Writes.ne_nil (writes : Writes text n) : text ≠ [] := by
  cases writes with
  | unsigned valid => exact valid.1
  | positive valid => exact List.cons_ne_nil _ _
  | negative valid => exact List.cons_ne_nil _ _

theorem int?_eq_some_iff :
    int? least greatest text = some n ↔ Writes text n ∧ least ≤ n ∧ n ≤ greatest := by
  have bounded : (decide (least ≤ n) && decide (n ≤ greatest)) = true ↔
      least ≤ n ∧ n ≤ greatest := by simp
  simp only [int?, Option.filter_eq_some_iff, bounded]
  refine and_congr_left fun _ => ?_
  split
  · simp only [Option.map_eq_some_iff, digits?_eq_some_iff]
    constructor
    · rintro ⟨_, ⟨valid, rfl⟩, rfl⟩
      exact .positive valid
    · rintro (valid | valid)
      · exact absurd rfl valid.head_ne_sign.1
      · exact ⟨_, ⟨valid, rfl⟩, rfl⟩
  · simp only [Option.map_eq_some_iff, digits?_eq_some_iff]
    constructor
    · rintro ⟨_, ⟨valid, rfl⟩, rfl⟩
      exact .negative valid
    · rintro (valid | valid | valid)
      · exact absurd rfl valid.head_ne_sign.2
      · exact ⟨_, ⟨valid, rfl⟩, rfl⟩
  · rename_i noPlus noMinus
    simp only [Option.map_eq_some_iff, digits?_eq_some_iff]
    constructor
    · rintro ⟨_, ⟨valid, rfl⟩, rfl⟩
      exact .unsigned valid
    · rintro (valid | valid | valid)
      · exact ⟨_, ⟨valid, rfl⟩, rfl⟩
      · exact absurd rfl (noPlus _)
      · exact absurd rfl (noMinus _)

theorem int?_eq_none_iff :
    int? least greatest text = none ↔ ∀ n, Writes text n → ¬(least ≤ n ∧ n ≤ greatest) := by
  simp only [Option.eq_none_iff_forall_ne_some, ne_eq, int?_eq_some_iff, not_and]

theorem nat?_eq_some_iff {greatest value : Nat} :
    nat? greatest text = some value ↔ WritesNat text value ∧ value ≤ greatest := by
  simp only [nat?, Option.filter_eq_some_iff, decide_eq_true_eq]
  refine and_congr_left fun _ => ?_
  split
  · rw [digits?_eq_some_iff]
    constructor
    · rintro ⟨valid, rfl⟩
      exact .positive valid
    · rintro (valid | valid)
      · exact absurd rfl valid.head_ne_sign.1
      · exact ⟨valid, rfl⟩
  · rename_i noPlus
    rw [digits?_eq_some_iff]
    constructor
    · rintro ⟨valid, rfl⟩
      exact .unsigned valid
    · rintro (valid | valid)
      · exact ⟨valid, rfl⟩
      · exact absurd rfl (noPlus _)

theorem Writes.unique {other : Int} (writes : Writes text n) (writesOther : Writes text other) :
    n = other := by
  have first := int?_eq_some_iff.mpr ⟨writes, Int.min_le_left n other, Int.le_max_left n other⟩
  have second := int?_eq_some_iff.mpr
    ⟨writesOther, Int.min_le_right n other, Int.le_max_right n other⟩
  exact Option.some.inj (first.symm.trans second)

end LiveScore.Numeral
