import LiveScore.Numeric.Decimal
import LiveScore.Yaml.Event

/-!
# The meaning of scalars

A plain scalar without a tag is null, a truth value, a number or a text, as its characters say.
Integers may be written in four bases. A run of digits with a needless zero in front is a text.
-/

namespace LiveScore.Yaml

/-- What a scalar denotes. -/
inductive Meaning where
  | null
  | boolean (value : Bool)
  | integer (value : Int)
  /-- An integer beyond 64 bits; `negative` tells which of the ranges of 128 bits holds it. -/
  | wideInteger (value : Int)
  | float (value : Binary64)
  | string (value : String)
deriving DecidableEq

namespace Meaning

/-- Reads a truth value. -/
def boolean? (text : String) : Option Bool :=
  if text = "true" ∨ text = "True" ∨ text = "TRUE" then some true
  else if text = "false" ∨ text = "False" ∨ text = "FALSE" then some false
  else none

/-- The text is one of the spellings of null. -/
def isNull (text : String) : Bool :=
  text = "null" || text = "Null" || text = "NULL" || text = "~"

/-- Reads at least one digit of a base up to sixteen. -/
def digits? (base : Nat) (text : List Char) : Option Nat :=
  if text = [] then none
  else (text.mapM fun c => (Quoted.hexValue? c).filter (· < base)).map
    fun digits => digits.foldl (fun value digit => base * value + digit) 0

/-- Reads the digits after the letter that tells a base other than ten. -/
def based? : List Char → Option Nat
  | '0' :: 'x' :: digits => digits? 16 digits
  | '0' :: 'o' :: digits => digits? 8 digits
  | '0' :: 'b' :: digits => digits? 2 digits
  | _ => none

/-- The text without a plus sign in front. -/
def withoutPlus : List Char → List Char
  | '+' :: rest => rest
  | text => text

/-- The text without a sign in front. -/
def withoutSign : List Char → List Char
  | '+' :: rest => rest
  | '-' :: rest => rest
  | text => text

/-- Digits with a needless zero in front are no number. -/
def hasNeedlessZero (text : List Char) : Bool :=
  match withoutSign text with
  | '0' :: c :: rest => (c :: rest).all Numeral.isDigit
  | _ => false

/-- Reads a natural number up to a limit, with an optional plus sign. -/
def natural? (limit : Nat) (text : List Char) : Option Nat :=
  let bare := withoutPlus text
  match (based? bare).filter (· ≤ limit) with
  | some value => some value
  | none =>
    if hasNeedlessZero text then none else (Numeral.digits? bare).filter (· ≤ limit)

/-- Reads a number below zero, or zero with a minus sign, down to a limit. -/
def negative? (limit : Nat) : List Char → Option Int
  | '-' :: magnitude =>
    let value := match (based? magnitude).filter (· ≤ limit) with
      | some value => some value
      | none =>
        if hasNeedlessZero magnitude then none else (Numeral.digits? magnitude).filter (· ≤ limit)
    value.map fun magnitude => -(magnitude : Int)
  | _ => none

/-- Reads a finite decimal number, or the name of another. -/
def float? (text : String) : Option Binary64 :=
  let bare := withoutPlus text.toList
  let positive := String.ofList bare
  if bare ≠ text.toList ∧ withoutSign bare ≠ bare then none
  else if positive = ".inf" ∨ positive = ".Inf" ∨ positive = ".INF" then some (.infinite false)
  else if text = "-.inf" ∨ text = "-.Inf" ∨ text = "-.INF" then some (.infinite true)
  else if text = ".nan" ∨ text = ".NaN" ∨ text = ".NAN" then some .nan
  else (Decimal.read? bare).filter Binary64.isFinite

/-- Reads an integer of at most 128 bits. -/
def integer? (text : List Char) : Option Meaning :=
  ((natural? 0xffffffffffffffff text).map fun value => integer value)
    <|> (negative? 0x8000000000000000 text).map integer
    <|> (natural? 0xffffffffffffffffffffffffffffffff text).map (fun value => wideInteger value)
    <|> (negative? 0x80000000000000000000000000000000 text).map wideInteger

/-- What a plain scalar without a tag denotes. -/
def ofPlain (text : String) : Meaning :=
  if text = "" ∨ isNull text then null
  else match boolean? text with
    | some value => boolean value
    | none => match integer? text.toList with
      | some meaning => meaning
      | none =>
        if hasNeedlessZero text.toList then .string text
        else match float? text with
          | some value => float value
          | none => .string text

end Meaning

/-! ### Tags -/

/-- The tag of the truth values. -/
def boolTag : String := "tag:yaml.org,2002:bool"

/-- The tag of integers. -/
def intTag : String := "tag:yaml.org,2002:int"

/-- The tag of numbers with a fraction. -/
def floatTag : String := "tag:yaml.org,2002:float"

/-- The tag of null. -/
def nullTag : String := "tag:yaml.org,2002:null"

/-- What a scalar denotes, or the kind of value that its tag demands in vain. -/
def Scalar.meaning (scalar : Scalar) : Except String Meaning :=
  let text := scalar.text
  match scalar.tag with
  | some tag =>
    if tag = boolTag then
      match Meaning.boolean? text with
      | some value => .ok (.boolean value)
      | none => .error "a boolean"
    else if tag = intTag then
      match Meaning.integer? text.toList with
      | some meaning => .ok meaning
      | none => .error "an integer"
    else if tag = floatTag then
      match Meaning.float? text with
      | some value => .ok (.float value)
      | none => .error "a float"
    else if tag = nullTag then
      if Meaning.isNull text then .ok .null else .error "null"
    else if tag.toList.head? = some '!' ∧ text = "" then .ok .null
    else .ok (.string text)
  | none => .ok (if scalar.style = .plain then .ofPlain text else .string text)

/-- A truth value is written plainly, or as a literal block with its tag. -/
def Scalar.boolean? (scalar : Scalar) : Option Bool :=
  if scalar.style = .plain ∨ (scalar.style = .literal ∧ scalar.tag = some boolTag) then
    Meaning.boolean? scalar.text
  else none

/-- A natural number is written plainly, or as a literal block with its tag. -/
def Scalar.natural? (scalar : Scalar) (limit : Nat) : Option Nat :=
  if scalar.style = .plain ∨ (scalar.style = .literal ∧ scalar.tag = some intTag) then
    Meaning.natural? limit scalar.text.toList
  else none

end LiveScore.Yaml
