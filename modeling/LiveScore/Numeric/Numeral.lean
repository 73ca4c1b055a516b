/-!
# Integer numerals

A numeral is an optional sign and at least one decimal digit, without blanks or separators. A
reader takes the range that the number must lie in and refuses everything outside it.
-/

namespace LiveScore.Numeral

/-- One of the ten digits. -/
def isDigit (c : Char) : Bool := '0' ≤ c && c ≤ '9'

/-- The value of a digit. -/
def digitValue (c : Char) : Nat := c.toNat - '0'.toNat

/-- The number that digits spell, the first one weighing most. -/
def ofDigits (digits : List Char) : Nat :=
  digits.foldl (fun value digit => 10 * value + digitValue digit) 0

/-- The number that a text spells, if it consists of digits and of at least one. -/
def digits? (text : List Char) : Option Nat :=
  if text ≠ [] ∧ text.all isDigit then some (ofDigits text) else none

/-- Reads a natural number up to `greatest`, with an optional plus sign. -/
def nat? (greatest : Nat) (text : List Char) : Option Nat :=
  let value := match text with
    | '+' :: digits => digits? digits
    | digits => digits? digits
  value.filter (· ≤ greatest)

/-- Reads an integer from `least` to `greatest`, with an optional sign. -/
def int? (least greatest : Int) (text : List Char) : Option Int :=
  let value : Option Int := match text with
    | '+' :: digits => (digits? digits).map Int.ofNat
    | '-' :: digits => (digits? digits).map fun magnitude => -Int.ofNat magnitude
    | digits => (digits? digits).map Int.ofNat
  value.filter fun n => least ≤ n && n ≤ greatest

end LiveScore.Numeral
