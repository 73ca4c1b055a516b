import LiveScore.Numeric.Binary64
import LiveScore.Numeric.Numeral

/-!
# Decimal numbers

A decimal number is an optional sign, digits with at most one point among them, and an optional
exponent; infinities and the undefined number have their names, in any case. It denotes the
nearest double.
-/

namespace LiveScore.Decimal

/-- The decimal digits of the exponent part after its letter, as an integer. -/
def exponent? (text : List Char) : Option Int :=
  match text with
  | '+' :: digits => (Numeral.digits? digits).map Int.ofNat
  | '-' :: digits => (Numeral.digits? digits).map fun magnitude => -Int.ofNat magnitude
  | digits => (Numeral.digits? digits).map Int.ofNat

/-- Reads a number without a sign: digits around at most one point, then an optional exponent. -/
def unsigned? (negative : Bool) (text : List Char) : Option Binary64 :=
  let whole := text.takeWhile Numeral.isDigit
  let afterWhole := text.dropWhile Numeral.isDigit
  let (fraction, afterFraction) := match afterWhole with
    | '.' :: rest => (rest.takeWhile Numeral.isDigit, rest.dropWhile Numeral.isDigit)
    | rest => ([], rest)
  let exponent := match afterFraction with
    | [] => some 0
    | letter :: digits => if letter = 'e' ∨ letter = 'E' then exponent? digits else none
  if whole ++ fraction = [] then none
  else exponent.map fun exponent =>
    Binary64.ofDecimal negative (Numeral.ofDigits (whole ++ fraction))
      (exponent - (fraction.length : Int))

/-- Reads a number without a sign or one of the names of the special numbers. -/
def magnitude? (negative : Bool) (text : List Char) : Option Binary64 :=
  let name := text.map Char.toLower
  if name = "inf".toList ∨ name = "infinity".toList then some (.infinite negative)
  else if name = "nan".toList then some .nan
  else unsigned? negative text

/-- Reads a decimal number as the nearest double. -/
def read? (text : List Char) : Option Binary64 :=
  match text with
  | '+' :: rest => magnitude? false rest
  | '-' :: rest => magnitude? true rest
  | rest => magnitude? false rest

end LiveScore.Decimal
