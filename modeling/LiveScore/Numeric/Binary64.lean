/-!
# Double-precision numbers

Tempos, slot positions and click lengths are IEEE 754 binary64 numbers. This file gives them as
exact rationals: an operation computes its exact result and then rounds once, to the nearest
representable number, ties to even. Every statement about a slot or a tempo is therefore a
statement about rationals and one rounding function.

Zero has two signs, so the negative zero stands beside the finite values.
-/

namespace LiveScore

/-- A double-precision number. -/
inductive Binary64 where
  /-- Not a number; the payload is not modelled. -/
  | nan
  | infinite (negative : Bool)
  /-- The zero below zero. -/
  | negativeZero
  /-- A finite number other than the negative zero. -/
  | finite (value : Rat)
deriving DecidableEq, Inhabited

namespace Binary64

/-- A power of two, as an exact number. -/
def powerOfTwo : Int → Rat
  | .ofNat exponent => Nat.pow 2 exponent
  | .negSucc exponent => mkRat 1 (Nat.pow 2 (exponent + 1))

/-- The greatest exponent of two whose power is not above a positive number. -/
def binaryExponent (q : Rat) : Int :=
  let guess : Int := (q.num.natAbs.log2 : Int) - (q.den.log2 : Int)
  if q < powerOfTwo guess then guess - 1 else guess

/-- The integer nearest to `q`; a half goes to the even neighbour. -/
def nearestEven (q : Rat) : Int :=
  let below := q.floor
  let excess := q - below
  if excess < 1 / 2 then below
  else if 1 / 2 < excess then below + 1
  else if below % 2 = 0 then below else below + 1

/-- The distance of neighbouring values around a number that is not negative. -/
def spacing (q : Rat) : Rat :=
  if q = 0 then powerOfTwo (-1074) else powerOfTwo (max (binaryExponent q - 52) (-1074))

/-- The representable multiple of the local spacing nearest to `q`, without an upper limit. -/
def nearest (q : Rat) : Rat :=
  let unit := spacing q.abs
  nearestEven (q / unit) * unit

/-- Rounds the exact result `q` of an operation; `negative` is the sign of a result that is zero. -/
def ofExact (negative : Bool) (q : Rat) : Binary64 :=
  let rounded := nearest q
  if rounded = 0 then
    if negative || q < 0 then negativeZero else finite 0
  else if powerOfTwo 1024 ≤ rounded.abs then infinite (rounded < 0)
  else finite rounded

/-- A natural number, rounded. -/
def ofNat (n : Nat) : Binary64 := ofExact false n

instance (n : Nat) : OfNat Binary64 n := ⟨ofNat n⟩

/-- The value of a finite number. -/
def value? : Binary64 → Option Rat
  | nan => none
  | infinite _ => none
  | negativeZero => some 0
  | finite value => some value

/-- The sign bit. -/
def isNegative : Binary64 → Bool
  | nan => false
  | infinite negative => negative
  | negativeZero => true
  | finite value => value < 0

/-- Neither infinite nor no number at all. -/
def isFinite (x : Binary64) : Bool := x.value?.isSome

/-- A zero of either sign. -/
def isZero (x : Binary64) : Bool := x.value? == some 0

/-- The order of numbers; a number that is not one is below and above nothing. -/
def lt : Binary64 → Binary64 → Bool
  | nan, _ => false
  | _, nan => false
  | infinite true, infinite true => false
  | infinite true, _ => true
  | infinite false, _ => false
  | _, infinite negative => !negative
  | x, y => match x.value?, y.value? with
    | some p, some q => p < q
    | _, _ => false

/-- Moves `x` into the range from `low` to `high`; what compares with nothing stays as it is. -/
def clamp (x low high : Binary64) : Binary64 :=
  let raised := if x.lt low then low else x
  if high.lt raised then high else raised

/-- The greater of two numbers; a number wins over what is not one. -/
def maximum (x y : Binary64) : Binary64 :=
  if x = nan then y
  else if y = nan then x
  else if x.lt y then y else x

/-- The sum, with the zero of an exact cancellation positive. -/
def add : Binary64 → Binary64 → Binary64
  | nan, _ => nan
  | _, nan => nan
  | infinite p, infinite q => if p = q then infinite p else nan
  | infinite p, _ => infinite p
  | _, infinite q => infinite q
  | negativeZero, negativeZero => negativeZero
  | x, y => match x.value?, y.value? with
    | some p, some q => ofExact false (p + q)
    | _, _ => nan

/-- The product. -/
def mul (x y : Binary64) : Binary64 :=
  let negative := x.isNegative != y.isNegative
  match x, y with
  | nan, _ => nan
  | _, nan => nan
  | infinite _, y => if y.isZero then nan else infinite negative
  | x, infinite _ => if x.isZero then nan else infinite negative
  | x, y => match x.value?, y.value? with
    | some p, some q => ofExact negative (p * q)
    | _, _ => nan

/-- The quotient; a number other than zero divided by a zero is infinite. -/
def div (x y : Binary64) : Binary64 :=
  let negative := x.isNegative != y.isNegative
  match x, y with
  | nan, _ => nan
  | _, nan => nan
  | infinite _, infinite _ => nan
  | infinite _, _ => infinite negative
  | _, infinite _ => ofExact negative 0
  | x, y => match x.value?, y.value? with
    | some p, some q =>
      if q = 0 then if p = 0 then nan else infinite negative else ofExact negative (p / q)
    | _, _ => nan

instance : Add Binary64 := ⟨add⟩
instance : Mul Binary64 := ⟨mul⟩
instance : Div Binary64 := ⟨div⟩

/-- The integer nearest to a finite number; a half goes away from zero. -/
def roundHalfAway? (x : Binary64) : Option Int :=
  x.value?.map fun q => if q < 0 then -(-q + 1 / 2).floor else (q + 1 / 2).floor

/-- The natural number below a number, cut to the range from `0` to `limit`. -/
def truncateTo (limit : Nat) : Binary64 → Nat
  | nan => 0
  | infinite negative => if negative then 0 else limit
  | negativeZero => 0
  | finite value => min value.floor.toNat limit

/-- A decimal number with more places than these before its point is infinite. -/
def decimalOverflow : Int := 310

/-- A decimal number whose first digit stands further than this behind its point is zero. -/
def decimalUnderflow : Int := -330

/-- The double nearest to `digits` times a power of ten. The two limits keep an absurd exponent
from building a number of that size. -/
def ofDecimal (negative : Bool) (digits : Nat) (exponent : Int) : Binary64 :=
  let leading : Int := (Nat.toDigits 10 digits).length + exponent
  if digits = 0 then ofExact negative 0
  else if decimalOverflow < leading then infinite negative
  else if leading < decimalUnderflow then ofExact negative 0
  else
    let magnitude : Rat := match exponent with
      | .ofNat places => (digits * Nat.pow 10 places : Nat)
      | .negSucc places => mkRat digits (Nat.pow 10 (places + 1))
    ofExact negative (if negative then -magnitude else magnitude)

/-- The 64 bits of the interchange format, as a natural number. -/
def toBits (x : Binary64) : Nat :=
  let sign : Nat := if x.isNegative then 0x8000000000000000 else 0
  match x with
  | nan => 0x7ff8000000000000
  | infinite _ => sign + 0x7ff0000000000000
  | negativeZero => sign
  | finite value =>
    if value = 0 then 0
    else
      let exponent := binaryExponent value.abs
      let significand := (value.abs / spacing value.abs).floor.toNat
      if exponent < -1022 then sign + significand
      else sign + (exponent + 1023).toNat * 0x10000000000000 + (significand - 0x10000000000000)

end Binary64

end LiveScore
