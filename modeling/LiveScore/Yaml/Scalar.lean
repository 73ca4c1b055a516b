import LiveScore.Yaml.Error

/-!
# YAML scalars

A scalar is a text in one of five styles. Plain and quoted scalars may go over several lines: blanks
around a line break are dropped, a single break becomes a space and further breaks are kept. Block
scalars keep their lines, or join them when folded, and treat the breaks at their end as told.

The loops over the characters of a scalar count down a number that starts at the length of what
remains of the text, since each round passes at least one character.
-/

namespace LiveScore.Yaml

/-- How a scalar is written. -/
inductive ScalarStyle where
  /-- Without any mark. -/
  | plain
  | singleQuoted
  | doubleQuoted
  | literal
  | folded
deriving DecidableEq

/-- The blanks and breaks between two words of a scalar. -/
structure Gap where
  blanks : List Char := []
  firstBreak : List Char := []
  laterBreaks : List Char := []
  broken : Bool := false
deriving Inhabited

namespace Gap

/-- What a gap contributes to the text. -/
def text (gap : Gap) : List Char :=
  if gap.broken then
    if gap.firstBreak = ['\n'] then
      if gap.laterBreaks = [] then [' '] else gap.laterBreaks
    else gap.firstBreak ++ gap.laterBreaks
  else gap.blanks

/-- Takes the line break that is next into the gap. -/
def addBreak (gap : Gap) (source : Source) : Gap × Source :=
  let (lineBreak, source) := source.takeBreak
  if gap.broken then ({ gap with laterBreaks := gap.laterBreaks ++ lineBreak }, source)
  else ({ gap with blanks := [], firstBreak := lineBreak, broken := true }, source)

/-- Takes a blank, which counts only as long as no line has ended. -/
def addBlank (gap : Gap) (source : Source) : Gap × Source :=
  let kept := if gap.broken then gap.blanks else gap.blanks ++ source.rest.take 1
  ({ gap with blanks := kept }, source.skip 1)

end Gap

/-! ### Plain scalars -/

namespace Plain

/-- A plain scalar as far as it has been read. -/
structure State where
  text : List Char := []
  gap : Gap := {}
  source : Source
deriving Inhabited

/-- A character comes next that ends a plain scalar. -/
def atIndicator (inFlow : Bool) (source : Source) : Bool :=
  (source.has ':' && source.separatesAt 1)
    || (inFlow && source.testAt 0 fun c => [',', '[', ']', '\x7b', '\x7d'].contains c)

/-- A colon comes next that is not allowed in a plain scalar in a flow collection. -/
def atStrayColon (inFlow : Bool) (source : Source) : Bool :=
  inFlow && source.has ':'
    && source.testAt 1 fun c => [',', '?', '[', ']', '\x7b', '\x7d'].contains c

/-- Reads the characters of one word, up to a blank, a break, an indicator or the end. -/
def readWord (inFlow : Bool) (start : Mark) : Nat → State → Except SyntaxError State
  | 0, state => .ok state
  | count + 1, state =>
    if state.source.separatesAt 0 then .ok state
    else if atStrayColon inFlow state.source then
      .error (.within .plainScalar start .colonInPlain state.source.mark)
    else if atIndicator inFlow state.source then .ok state
    else
      readWord inFlow start count
        { text := state.text ++ state.gap.text ++ state.source.rest.take 1
          source := state.source.skip 1 }

/-- Reads the blanks and breaks after a word. A tab may not stand in for indentation. -/
def readGap (indent : Int) (start : Mark) : Nat → Gap → Source → Except SyntaxError (Gap × Source)
  | 0, gap, source => .ok (gap, source)
  | count + 1, gap, source =>
    if source.testAt 0 isBlank then
      if gap.broken && (source.mark.column : Int) < indent && source.has '\t' then
        .error (.within .plainScalar start .tabInPlain source.mark)
      else
        let (gap, source) := gap.addBlank source
        readGap indent start count gap source
    else if source.testAt 0 isBreak then
      let (gap, source) := gap.addBreak source
      readGap indent start count gap source
    else .ok (gap, source)

/-- Reads words and gaps until the scalar ends. -/
def readWords (inFlow : Bool) (indent : Int) (start : Mark) :
    Nat → State → Except SyntaxError State
  | 0, state => .ok state
  | count + 1, state => do
    if state.source.atAnyMarker || state.source.has '#' then return state
    let state ← readWord inFlow start state.source.rest.length state
    unless state.source.testAt 0 fun c => isBlank c || isBreak c do return state
    let (gap, source) ← readGap indent start state.source.rest.length state.gap state.source
    let state := { state with gap, source }
    if !inFlow && (source.mark.column : Int) < indent then return state
    readWords inFlow indent start count state

/-- Reads a plain scalar in a block of a given indentation. The flag tells whether a line has ended
after it. -/
def read (inFlow : Bool) (indent : Int) (source : Source) :
    Except SyntaxError (List Char × Bool × Source) := do
  let state ← readWords inFlow (indent + 1) source.mark source.rest.length { source }
  return (state.text, state.gap.broken, state.source)

end Plain

/-! ### Quoted scalars -/

namespace Quoted

/-- What the character after a backslash stands for. -/
def escapeOf? (c : Char) : Option Char :=
  match c with
  | '0' => some '\x00'
  | 'a' => some '\x07'
  | 'b' => some '\x08'
  | 't' => some '\t'
  | '\t' => some '\t'
  | 'n' => some '\n'
  | 'v' => some '\x0b'
  | 'f' => some '\x0c'
  | 'r' => some '\r'
  | 'e' => some '\x1b'
  | ' ' => some ' '
  | '"' => some '"'
  | '/' => some '/'
  | '\\' => some '\\'
  | 'N' => some '\u0085'
  | '_' => some '\u00a0'
  | 'L' => some '\u2028'
  | 'P' => some '\u2029'
  | _ => none

/-- The number of hexadecimal digits after the letter of a numeric escape. -/
def escapeDigits? (c : Char) : Option Nat :=
  match c with
  | 'x' => some 2
  | 'u' => some 4
  | 'U' => some 8
  | _ => none

/-- The value of a hexadecimal digit. -/
def hexValue? (c : Char) : Option Nat :=
  if '0' ≤ c ∧ c ≤ '9' then some (c.toNat - '0'.toNat)
  else if 'a' ≤ c ∧ c ≤ 'f' then some (c.toNat - 'a'.toNat + 10)
  else if 'A' ≤ c ∧ c ≤ 'F' then some (c.toNat - 'A'.toNat + 10)
  else none

/-- The character with a code point, if it has one. -/
def charOf? (codePoint : Nat) : Option Char :=
  if h : codePoint.isValidChar then some (Char.ofNatAux codePoint h) else none

/-- Reads what a backslash introduces, other than a line break. -/
def readEscape (start : Mark) (source : Source) : Except SyntaxError (Char × Source) :=
  let fail (problem : Problem) (source : Source) :=
    Except.error (SyntaxError.within .escapeSequence start problem source.mark)
  match source.peek? 1 with
  | none => fail .unknownEscape source
  | some letter =>
    match escapeOf? letter, escapeDigits? letter with
    | some c, _ => .ok (c, source.skip 2)
    | none, none => fail .unknownEscape source
    | none, some count =>
      let source := source.skip 2
      let digits := (source.rest.take count).mapM hexValue?
      match digits with
      | none => fail .missingHexDigit source
      | some digits =>
        if digits.length < count then fail .missingHexDigit source
        else match charOf? (digits.foldl (fun value digit => 16 * value + digit) 0) with
          | some c => .ok (c, source.skip count)
          | none => fail .invalidCodePoint source

/-- Reads the characters up to the closing quote, a blank or a break. The gap that is returned is
broken if the line ended with a backslash. -/
def readWord (single : Bool) (start : Mark) :
    Nat → List Char → Source → Except SyntaxError (List Char × Gap × Source)
  | 0, text, source => .ok (text, {}, source)
  | count + 1, text, source =>
    if source.separatesAt 0 then .ok (text, {}, source)
    else if single && source.has '\x27' && source.hasAt 1 '\x27' then
      readWord single start count (text ++ ['\x27']) (source.skip 2)
    else if source.has (if single then '\x27' else '"') then .ok (text, {}, source)
    else if !single && source.has '\\' then
      if source.testAt 1 isBreak then
        .ok (text, { broken := true }, (source.skip 1).takeBreak.2)
      else match readEscape start source with
        | .ok (c, source) => readWord single start count (text ++ [c]) source
        | .error error => .error error
    else readWord single start count (text ++ source.rest.take 1) (source.skip 1)

/-- Reads the blanks and breaks after a word. -/
def readGap : Nat → Gap → Source → Gap × Source
  | 0, gap, source => (gap, source)
  | count + 1, gap, source =>
    if source.testAt 0 isBlank then
      let (gap, source) := gap.addBlank source
      readGap count gap source
    else if source.testAt 0 isBreak then
      let (gap, source) := gap.addBreak source
      readGap count gap source
    else (gap, source)

/-- Reads words and gaps up to the closing quote. -/
def readWords (single : Bool) (start : Mark) :
    Nat → List Char → Source → Except SyntaxError (List Char × Source)
  | 0, text, source => .ok (text, source)
  | count + 1, text, source => do
    if source.atAnyMarker then
      throw (.within .quotedScalar start .markerInQuotes source.mark)
    if source.atEnd then throw (.within .quotedScalar start .endInQuotes source.mark)
    let (text, gap, source) ← readWord single start source.rest.length text source
    if source.has (if single then '\x27' else '"') then return (text, source.skip 1)
    let (gap, source) := readGap source.rest.length gap source
    readWords single start count (text ++ gap.text) source

/-- Reads a quoted scalar from its opening quotation mark on. -/
def read (single : Bool) (source : Source) : Except SyntaxError (List Char × Source) :=
  readWords single source.mark (source.rest.length + 1) [] (source.skip 1)

end Quoted

/-! ### Block scalars -/

namespace Block

/-- What happens to the breaks at the end of a block. -/
inductive Chomping where
  | strip
  | clip
  | keep
deriving DecidableEq

/-- Reads a sign for the breaks at the end. -/
def readChomping (source : Source) : Option (Chomping × Source) :=
  if source.has '+' then some (.keep, source.skip 1)
  else if source.has '-' then some (.strip, source.skip 1)
  else none

/-- Reads a digit for the indentation. -/
def readIncrement (start : Mark) (source : Source) :
    Except SyntaxError (Option (Nat × Source)) :=
  match source.peek? 0 with
  | some c =>
    if c = '0' then .error (.within .blockScalar start .zeroIndentation source.mark)
    else if c.isDigit then .ok (some (c.toNat - '0'.toNat, source.skip 1))
    else .ok none
  | none => .ok none

/-- Reads the header of a block: a sign and a digit in either order, each of them optional. -/
def readHeader (start : Mark) (source : Source) :
    Except SyntaxError (Chomping × Nat × Source) := do
  match readChomping source with
  | some (chomping, source) =>
    match ← readIncrement start source with
    | some (increment, source) => return (chomping, increment, source)
    | none => return (chomping, 0, source)
  | none =>
    match ← readIncrement start source with
    | some (increment, source) =>
      match readChomping source with
      | some (chomping, source) => return (chomping, increment, source)
      | none => return (.clip, increment, source)
    | none => return (.clip, 0, source)

/-- Reads indentation and empty lines. An indentation of zero is not yet known, and `widest` is the
deepest one seen so far. -/
def readBreaks (indent : Nat) (start : Mark) :
    Nat → Nat → List Char → Source → Except SyntaxError (Nat × List Char × Source)
  | 0, widest, breaks, source => .ok (widest, breaks, source)
  | count + 1, widest, breaks, source =>
    let spaces := (source.rest.takeWhile (· = ' ')).length
    let wanted := if indent = 0 then spaces else min spaces (indent - source.mark.column)
    let source := source.skip wanted
    let widest := max widest source.mark.column
    if (indent = 0 || source.mark.column < indent) && source.has '\t' then
      .error (.within .blockScalar start .tabInIndentation source.mark)
    else if source.testAt 0 isBreak then
      let (lineBreak, source) := source.takeBreak
      readBreaks indent start count widest (breaks ++ lineBreak) source
    else .ok (widest, breaks, source)

/-- A block as far as it has been read. -/
structure State where
  text : List Char := []
  lastBreak : List Char := []
  laterBreaks : List Char := []
  startsBlank : Bool := false
  source : Source
deriving Inhabited

/-- What joins the last line to one that starts with a blank, or does not. -/
def joint (folded : Bool) (state : State) (startsBlank : Bool) : List Char :=
  if folded && state.lastBreak = ['\n'] && !state.startsBlank && !startsBlank then
    if state.laterBreaks = [] then [' '] else state.laterBreaks
  else state.lastBreak ++ state.laterBreaks

/-- Reads the lines of a block. -/
def readLines (folded : Bool) (indent : Nat) (start : Mark) :
    Nat → State → Except SyntaxError State
  | 0, state => .ok state
  | count + 1, state => do
    if state.source.mark.column ≠ indent || state.source.atEnd then return state
    let startsBlank := state.source.testAt 0 isBlank
    let (line, source) := state.source.takeWhile fun c => !isBreak c
    let (lastBreak, source) := source.takeBreak
    let (_, laterBreaks, source) ← readBreaks indent start (source.rest.length + 1) 0 [] source
    readLines folded indent start count
      { text := state.text ++ joint folded state startsBlank ++ line
        lastBreak, laterBreaks, startsBlank, source }

/-- Reads a block scalar from its indicator on, within a block of a given indentation. -/
def read (folded : Bool) (parentIndent : Int) (source : Source) :
    Except SyntaxError (List Char × Source) := do
  let start := source.mark
  let (chomping, increment, source) ← readHeader start (source.skip 1)
  let source := source.skipWhile isBlank
  let source := if source.has '#' then source.skipWhile fun c => !isBreak c else source
  unless source.lineEnds do throw (.within .blockScalar start .missingLineEnd source.mark)
  let source := source.takeBreak.2
  let stated := if increment = 0 then 0 else (max parentIndent 0).toNat + increment
  let (widest, laterBreaks, source) ←
    readBreaks stated start (source.rest.length + 1) 0 [] source
  let indent := if stated = 0 then max (max widest (parentIndent + 1).toNat) 1 else stated
  let state ← readLines folded indent start (source.rest.length + 1) { laterBreaks, source }
  let ending := match chomping with
    | .strip => []
    | .clip => state.lastBreak
    | .keep => state.lastBreak ++ state.laterBreaks
  return (state.text ++ ending, state.source)

end Block

end LiveScore.Yaml
