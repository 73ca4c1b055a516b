/-!
# YAML text

The text of a YAML stream with the place reached in it. Places are counted in characters from the
start, in lines and in columns. Five characters break lines; a carriage return and a line feed
together break one line. Within a scalar the three common breaks count as a line feed.
-/

namespace LiveScore.Yaml

/-- A place in a text. -/
structure Mark where
  index : Nat := 0
  line : Nat := 0
  column : Nat := 0
deriving DecidableEq, Inhabited

/-- The place in words; the start of the text has no line to speak of. -/
def Mark.describe (mark : Mark) : String :=
  if mark.line ≠ 0 ∨ mark.column ≠ 0 then s!"line {mark.line + 1} column {mark.column + 1}"
  else s!"position {mark.index}"

/-- A text from some place on. -/
structure Source where
  rest : List Char
  mark : Mark := {}
deriving Inhabited

/-- A space or a tab. -/
def isBlank (c : Char) : Bool := c = ' ' || c = '\t'

/-- A line break. -/
def isBreak (c : Char) : Bool :=
  c = '\n' || c = '\r' || c = '\u0085' || c = '\u2028' || c = '\u2029'

/-- A character of a name: a letter, a digit, a hyphen or an underscore, of ASCII. -/
def isNameChar (c : Char) : Bool := c.isAlphanum || c = '-' || c = '_'

/-- A character that a YAML stream may hold. -/
def isAllowed (c : Char) : Bool :=
  let n := c.toNat
  n = 0x09 || n = 0x0a || n = 0x0d || (0x20 ≤ n && n ≤ 0x7e) || n = 0x85
    || (0xa0 ≤ n && n ≤ 0xd7ff) || (0xe000 ≤ n && n ≤ 0xfffd) || 0x10000 ≤ n

namespace Source

/-- The character some places ahead. -/
def peek? (source : Source) (ahead : Nat) : Option Char := source.rest[ahead]?

/-- A character stands some places ahead. -/
def hasAt (source : Source) (ahead : Nat) (c : Char) : Bool := source.peek? ahead == some c

/-- The next character is this one. -/
def has (source : Source) (c : Char) : Bool := source.hasAt 0 c

/-- The character some places ahead passes a test. -/
def testAt (source : Source) (ahead : Nat) (test : Char → Bool) : Bool :=
  (source.peek? ahead).any test

/-- Nothing comes next. -/
def atEnd (source : Source) : Bool := source.rest.isEmpty

/-- A blank, a line break or the end of the text stands some places ahead. -/
def separatesAt (source : Source) (ahead : Nat) : Bool :=
  (source.peek? ahead).all fun c => isBlank c || isBreak c

/-- A line break or the end of the text comes next. -/
def lineEnds (source : Source) : Bool := (source.peek? 0).all isBreak

/-- Passes characters that break no line. -/
def skip (source : Source) (count : Nat) : Source where
  rest := source.rest.drop count
  mark := { source.mark with
    index := source.mark.index + count
    column := source.mark.column + count }

/-- Leaves out a line break of some characters. -/
def skipBreak (source : Source) (count : Nat) : Source where
  rest := source.rest.drop count
  mark := { index := source.mark.index + count, line := source.mark.line + 1, column := 0 }

/-- Takes the line break that is next, if there is one, as the character that it means. -/
def takeBreak (source : Source) : List Char × Source :=
  match source.rest with
  | '\r' :: '\n' :: _ => (['\n'], source.skipBreak 2)
  | c :: _ =>
    if c = '\r' ∨ c = '\n' ∨ c = '\u0085' then (['\n'], source.skipBreak 1)
    else if isBreak c then ([c], source.skipBreak 1)
    else ([], source)
  | [] => ([], source)

/-- Takes the longest run of characters that satisfy a test; no line break may satisfy it. -/
def takeWhile (source : Source) (test : Char → Bool) : List Char × Source :=
  let run := source.rest.takeWhile test
  (run, source.skip run.length)

/-- Passes the longest run of characters that satisfy a test; no line break may satisfy it. -/
def skipWhile (source : Source) (test : Char → Bool) : Source := (source.takeWhile test).2

/-- A document marker made of this character comes next. -/
def atMarker (source : Source) (c : Char) : Bool :=
  source.mark.column = 0 && source.has c && source.hasAt 1 c && source.hasAt 2 c
    && source.separatesAt 3

/-- A document marker comes next. -/
def atAnyMarker (source : Source) : Bool := source.atMarker '-' || source.atMarker '.'

end Source

end LiveScore.Yaml
