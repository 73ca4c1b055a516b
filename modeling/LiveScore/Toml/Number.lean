import LiveScore.Numeric.Decimal
import LiveScore.Toml.Cursor

/-!
# TOML numbers and dates

An integer has 64 bits and may be written in four bases; single underscores may separate its digits.
A number with a fraction or an exponent is a double. Digits that start like a date or a time must be
one.
-/

namespace LiveScore.Toml

/-- A value that is written without quotes or brackets. -/
inductive Number where
  | integer (value : Int)
  | float (value : Binary64)
  | dateTime

namespace Number

/-- The value of a hexadecimal digit. -/
def digitOf? (base : Nat) (c : Char) : Option Nat :=
  let value :=
    if '0' ≤ c ∧ c ≤ '9' then some (c.toNat - '0'.toNat)
    else if 'a' ≤ c ∧ c ≤ 'f' then some (c.toNat - 'a'.toNat + 10)
    else if 'A' ≤ c ∧ c ≤ 'F' then some (c.toNat - 'A'.toNat + 10)
    else none
  value.filter (· < base)

/-- The digits of a run, each underscore standing between two of them. -/
def separated? : List Char → Option (List Char)
  | [] => some []
  | '_' :: _ => none
  | [c] => some [c]
  | c :: '_' :: d :: rest => (separated? (d :: rest)).map (c :: ·)
  | [_, '_'] => none
  | c :: rest => (separated? rest).map (c :: ·)

/-- Reads at least one digit of a base. -/
def readDigits (base : Nat) (problem : Problem) (cursor : Cursor) :
    Except Error (List Char × Cursor) :=
  let (run, next) := cursor.takeWhile fun c => c = '_' || (digitOf? base c).isSome
  match separated? run with
  | some (c :: digits) => .ok (c :: digits, next)
  | _ => cursor.fail problem

/-- The number that digits spell in a base. -/
def ofDigits (base : Nat) (digits : List Char) : Nat :=
  digits.foldl (fun value c => base * value + (digitOf? base c).getD 0) 0

/-- The least and the greatest integer. -/
def integerLimits : Int × Int := (-0x8000000000000000, 0x7fffffffffffffff)

/-- An integer, if it is within the limits. -/
def checked (start : Cursor) (value : Int) : Except Error Number :=
  if integerLimits.1 ≤ value ∧ value ≤ integerLimits.2 then .ok (.integer value)
  else start.fail .numberTooLarge

/-- Reads an integer in another base, behind its two characters of prefix. -/
def readBased (base : Nat) (cursor : Cursor) : Except Error (Number × Cursor) := do
  let (digits, next) ← readDigits base .badInteger (cursor.skip 2)
  return (← checked cursor (ofDigits base digits), next)

/-- Reads the digits before a fraction or exponent: a zero stands alone. -/
def readWhole (cursor : Cursor) : Except Error (List Char × Cursor) :=
  if cursor.has '0' then .ok (['0'], cursor.skip 1) else readDigits 10 .badInteger cursor

/-- Reads a fraction and an exponent, each of them optional, as they are written. -/
def readFraction (cursor : Cursor) : Except Error (List Char × Cursor) := do
  let (fraction, cursor) ←
    if cursor.has '.' then
      let (digits, cursor) ← readDigits 10 .badFloat (cursor.skip 1)
      pure ('.' :: digits, cursor)
    else pure ([], cursor)
  if cursor.has 'e' || cursor.has 'E' then
    let cursor := cursor.skip 1
    let signed := cursor.has '+' || cursor.has '-'
    let sign := if signed then cursor.rest.take 1 else []
    let cursor := if signed then cursor.skip 1 else cursor
    let (digits, cursor) ← readDigits 10 .badFloat cursor
    return (fraction ++ 'e' :: sign ++ digits, cursor)
  else return (fraction, cursor)

/-- Reads a decimal number with an optional sign. -/
def readDecimal (cursor : Cursor) : Except Error (Number × Cursor) := do
  let negative := cursor.has '-'
  let next := if negative || cursor.has '+' then cursor.skip 1 else cursor
  if next.hasText "inf" then return (.float (.infinite negative), next.skip 3)
  if next.hasText "nan" then return (.float .nan, next.skip 3)
  let (whole, next) ← readWhole next
  let (fraction, rest) ← readFraction next
  let sign := if negative then ['-'] else []
  if fraction = [] then
    let magnitude : Int := ofDigits 10 whole
    return (← checked cursor (if negative then -magnitude else magnitude), next)
  match Decimal.read? (sign ++ whole ++ fraction) with
  | some value =>
    if value = .infinite false then cursor.fail .badFloat else return (.float value, rest)
  | none => cursor.fail .badFloat

/-! ### Dates and times -/

/-- Takes a number of so many digits. -/
def fixed? (length : Nat) (cursor : Cursor) : Option (Nat × Cursor) :=
  let digits := cursor.rest.take length
  if digits.length = length ∧ digits.all Numeral.isDigit then
    some (Numeral.ofDigits digits, cursor.skip length)
  else none

/-- Takes one character, if it is this one. -/
def char? (c : Char) (cursor : Cursor) : Option Cursor :=
  if cursor.has c then some (cursor.skip 1) else none

/-- The number of days of a month. -/
def daysIn (year month : Nat) : Nat :=
  if month = 2 then
    if year % 4 = 0 ∧ (year % 100 ≠ 0 ∨ year % 400 = 0) then 29 else 28
  else if month = 4 ∨ month = 6 ∨ month = 9 ∨ month = 11 then 30
  else 31

/-- A year and a dash come next. -/
def startsDate (cursor : Cursor) : Bool :=
  ((fixed? 4 cursor).bind fun (_, next) => char? '-' next).isSome

/-- An hour and a colon come next. -/
def startsTime (cursor : Cursor) : Bool :=
  ((fixed? 2 cursor).bind fun (_, next) => char? ':' next).isSome

/-- Takes a date. -/
def date? (cursor : Cursor) : Option Cursor := do
  let (year, cursor) ← fixed? 4 cursor
  let (month, cursor) ← fixed? 2 (← char? '-' cursor)
  let (day, cursor) ← fixed? 2 (← char? '-' cursor)
  if 1 ≤ month ∧ month ≤ 12 ∧ 1 ≤ day ∧ day ≤ daysIn year month then some cursor else none

/-- Takes a time of day. -/
def time? (cursor : Cursor) : Option Cursor := do
  let (hour, cursor) ← fixed? 2 cursor
  let (minute, cursor) ← fixed? 2 (← char? ':' cursor)
  let (second, cursor) ← fixed? 2 (← char? ':' cursor)
  if 23 < hour ∨ 59 < minute ∨ 60 < second then none
  else if cursor.has '.' then
    let (digits, cursor) := (cursor.skip 1).takeWhile Numeral.isDigit
    if digits = [] then none else some cursor
  else some cursor

/-- Takes the offset of a time if there is one. -/
def offset? (cursor : Cursor) : Option Cursor :=
  if cursor.has 'Z' || cursor.has 'z' then some (cursor.skip 1)
  else if cursor.has '+' || cursor.has '-' then do
    let (hour, cursor) ← fixed? 2 (cursor.skip 1)
    let (minute, cursor) ← fixed? 2 (← char? ':' cursor)
    if 23 < hour ∨ 59 < minute then none else some cursor
  else some cursor

/-- Takes a date with an optional time, or a time. -/
def dateTime? (cursor : Cursor) : Option Cursor :=
  if startsDate cursor then do
    let next ← date? cursor
    let separated := next.has 'T' || next.has 't' || next.has ' '
    if separated && startsTime (next.skip 1) then offset? (← time? (next.skip 1)) else some next
  else time? cursor

/-- Reads a number, a date or a time. -/
def read (cursor : Cursor) : Except Error (Number × Cursor) :=
  if startsDate cursor || startsTime cursor then
    match dateTime? cursor with
    | some next => .ok (.dateTime, next)
    | none => cursor.fail .badDateTime
  else if cursor.hasText "0x" then readBased 16 cursor
  else if cursor.hasText "0o" then readBased 8 cursor
  else if cursor.hasText "0b" then readBased 2 cursor
  else readDecimal cursor

end Number

end LiveScore.Toml
