import LiveScore.Numeric.Binary64

/-!
# The shortest decimal of a double

A finite double is written with the fewest digits that read back as it, in positional notation. For
each number of digits only the two neighbours of the value on that decimal grid can read back; of
two that do, the nearer one is taken.
-/

namespace LiveScore.Binary64

/-- A power of ten, as an exact number. -/
def powerOfTen : Int → Rat
  | .ofNat exponent => Nat.pow 10 exponent
  | .negSucc exponent => mkRat 1 (Nat.pow 10 (exponent + 1))

/-- The place of the first digit of a positive number: the greatest exponent of ten whose power is
not above it. -/
def decimalExponent (q : Rat) : Int :=
  if 1 ≤ q then ((Nat.toDigits 10 q.floor.toNat).length : Int) - 1
  else -((Nat.toDigits 10 ((q.den + q.num.toNat - 1) / q.num.toNat - 1)).length : Int)

/-- A multiple of a power of ten next to `q` that reads back as `q`. -/
def neighbour? (q : Rat) (exponent : Int) : Option Nat :=
  let unit := powerOfTen exponent
  let below := (q / unit).floor.toNat
  let readsBack (digits : Nat) : Bool := nearest (digits * unit) = q
  let gap (digits : Nat) : Rat := (digits * unit - q).abs
  match readsBack below, readsBack (below + 1) with
  | true, true => if gap (below + 1) < gap below then some (below + 1) else some below
  | true, false => some below
  | false, true => some (below + 1)
  | false, false => none

/-- The digits and the exponent of the shortest decimal of a positive representable rational,
searching from one digit up. -/
def shortestFrom (q : Rat) (leading : Int) : Nat → Nat → Nat × Int
  | 0, _ => (0, 0)
  | count + 1, digits =>
    let exponent := leading + 1 - digits
    match neighbour? q exponent with
    | some value => if value = Nat.pow 10 digits then (1, leading + 1) else (value, exponent)
    | none => shortestFrom q leading count (digits + 1)

/-- Digits times a power of ten in positional notation, with at least one digit on either side of
the point. -/
def positional (digits : Nat) : Int → String
  | .ofNat zeros => toString (digits * Nat.pow 10 zeros) ++ ".0"
  | .negSucc places =>
    let places := places + 1
    let text := Nat.toDigits 10 digits
    let padded := List.replicate (places + 1 - text.length) '0' ++ text
    let whole := padded.take (padded.length - places)
    let fraction := padded.drop (padded.length - places)
    String.ofList (whole ++ '.' :: fraction)

/-- The text of a number with a point in it. -/
def text : Binary64 → String
  | nan => "NaN"
  | infinite negative => if negative then "-inf" else "inf"
  | negativeZero => "-0.0"
  | finite value =>
    if value = 0 then "0.0"
    else
      let (digits, exponent) := shortestFrom value.abs (decimalExponent value.abs) 17 1
      let sign := if value < 0 then "-" else ""
      sign ++ positional digits exponent

end LiveScore.Binary64
