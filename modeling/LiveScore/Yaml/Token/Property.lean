import LiveScore.Yaml.Token.Basic

/-!
# Directives, anchors and tags

The tokens that say something about a document or about the node that follows them.
-/

namespace LiveScore.Yaml

/-! ### Anchors -/

/-- A character that cannot stand in the name of an anchor. -/
def endsName (c : Char) : Bool :=
  isBlank c || isBreak c || ['?', ':', ',', ']', '\x7d', '%', '@', '\x60'].contains c

/-- Reads the name of an anchor or alias from its indicator on. -/
def readName (context : Context) (source : Source) : Except SyntaxError (String × Source) :=
  let (name, rest) := (source.skip 1).takeWhile isNameChar
  if name = [] ∨ !(rest.peek? 0).all endsName then
    .error (.within context source.mark .missingName rest.mark)
  else .ok (String.ofList name, rest)

/-! ### Tags -/

namespace TagUri

/-- A character that a tag may hold as it is, a percent sign introducing an octet. Brackets and
commas are such characters only where they cannot belong to a flow collection. -/
def isChar (delimited : Bool) (c : Char) : Bool :=
  let marks :=
    [';', '/', '?', ':', '@', '&', '=', '+', '$', '.', '%', '!', '~', '*', '\x27', '(', ')']
  isNameChar c || marks.contains c || (delimited && [',', '[', ']'].contains c)

/-- The number of octets of a character that starts with a given octet, and the part of the code
point that the octet holds. -/
def leading? (octet : Nat) : Option (Nat × Nat) :=
  if octet < 0x80 then some (1, octet)
  else if 0xc0 ≤ octet ∧ octet < 0xe0 then some (2, octet - 0xc0)
  else if 0xe0 ≤ octet ∧ octet < 0xf0 then some (3, octet - 0xe0)
  else if 0xf0 ≤ octet ∧ octet < 0xf8 then some (4, octet - 0xf0)
  else none

/-- Reads an octet written with a percent sign and two hexadecimal digits. -/
def readOctet (fail : Problem → Mark → SyntaxError) (source : Source) :
    Except SyntaxError (Nat × Source) :=
  match source.rest with
  | '%' :: high :: low :: _ =>
    match Quoted.hexValue? high, Quoted.hexValue? low with
    | some high, some low => .ok (16 * high + low, source.skip 3)
    | _, _ => .error (fail .missingOctet source.mark)
  | _ => .error (fail .missingOctet source.mark)

/-- Reads the octets of a character after its first. -/
def readTrailing (fail : Problem → Mark → SyntaxError) :
    Nat → Nat → Source → Except SyntaxError (Nat × Source)
  | 0, codePoint, source => .ok (codePoint, source)
  | count + 1, codePoint, source => do
    let (octet, next) ← readOctet fail source
    if octet < 0x80 ∨ 0xc0 ≤ octet then throw (fail .badTrailingOctet source.mark)
    readTrailing fail count (64 * codePoint + (octet - 0x80)) next

/-- Reads a character written in octets. -/
def readEscape (fail : Problem → Mark → SyntaxError) (source : Source) :
    Except SyntaxError (Char × Source) := do
  let (octet, next) ← readOctet fail source
  match leading? octet with
  | none => throw (fail .badLeadingOctet source.mark)
  | some (length, codePoint) =>
    let (codePoint, next) ← readTrailing fail (length - 1) codePoint next
    return ((Quoted.charOf? codePoint).getD '\ufffd', next)

/-- Reads the characters of a tag. -/
def readChars (delimited : Bool) (fail : Problem → Mark → SyntaxError) :
    Nat → List Char → Source → Except SyntaxError (List Char × Source)
  | 0, text, source => .ok (text, source)
  | count + 1, text, source => do
    if !source.testAt 0 (isChar delimited) then return (text, source)
    if source.has '%' then
      let (c, source) ← readEscape fail source
      readChars delimited fail count (text ++ [c]) source
    else readChars delimited fail count (text ++ source.rest.take 1) (source.skip 1)

/-- Reads the rest of a tag after its first characters; there must be something to it. -/
def read (delimited : Bool) (context : Context) (start : Mark) (first : List Char)
    (source : Source) : Except SyntaxError (String × Source) := do
  let (text, next) ←
    readChars delimited (.within context start) source.rest.length (first.drop 1) source
  if first = [] ∧ next.mark = source.mark then
    throw (.within context start .missingTagUri next.mark)
  return (String.ofList text, next)

end TagUri

/-- Reads an exclamation mark, the name after it, and the exclamation mark that closes it if there
is one. -/
def readTagHandle (context : Context) (start : Mark) (source : Source) :
    Except SyntaxError (List Char × Source) :=
  if source.has '!' then
    let (name, next) := (source.skip 1).takeWhile isNameChar
    if next.has '!' then .ok ('!' :: name ++ ['!'], next.skip 1) else .ok ('!' :: name, next)
  else .error (.within context start .missingTagMark source.mark)

/-- Reads a tag: one in angle brackets is written in full; one with two exclamation marks has a
handle; any other belongs to the handle of a single mark; a mark alone is a tag of its own. -/
def readTag (inFlow : Bool) (source : Source) : Except SyntaxError (TagName × Source) := do
  let start := source.mark
  let (name, rest) ←
    if source.hasAt 1 '<' then
      let (suffix, rest) ← TagUri.read true .tagUri start [] (source.skip 2)
      unless rest.has '>' do throw (.within .tag start .missingTagEnd rest.mark)
      pure (TagName.mk "" suffix, rest.skip 1)
    else
      let (handle, rest) ← readTagHandle .tag start source
      if handle.length ≥ 2 ∧ handle.getLast? = some '!' then
        let (suffix, rest) ← TagUri.read false .tagUri start [] rest
        pure (TagName.mk (String.ofList handle) suffix, rest)
      else
        let (suffix, rest) ← TagUri.read false .tagUri start handle rest
        pure (if suffix = "" then TagName.mk "" "!" else TagName.mk "!" suffix, rest)
  if !rest.separatesAt 0 && !(inFlow && rest.has ',') then
    throw (.within .tag start .missingTagSeparator rest.mark)
  return (name, rest)

/-! ### Directives -/

namespace Directive

/-- Reads a number of at most nine digits. -/
def readNumber (start : Mark) (source : Source) : Except SyntaxError (Nat × Source) :=
  let (digits, rest) := source.takeWhile Char.isDigit
  if digits.length > 9 then
    .error (.within .versionDirective start .longVersion (source.skip 9).mark)
  else if digits = [] then .error (.within .versionDirective start .missingVersion rest.mark)
  else .ok (digits.foldl (fun value digit => 10 * value + (digit.toNat - '0'.toNat)) 0, rest)

/-- Reads the two numbers of a version. -/
def readVersion (start : Mark) (source : Source) : Except SyntaxError (TokenKind × Source) := do
  let (major, source) ← readNumber start (source.skipWhile isBlank)
  unless source.has '.' do
    throw (.within .versionDirective start .missingVersionPoint source.mark)
  let (minor, source) ← readNumber start (source.skip 1)
  return (.versionDirective major minor, source)

/-- Reads a handle and what it stands for. -/
def readTagHandle (start : Mark) (source : Source) : Except SyntaxError (TokenKind × Source) := do
  let source := source.skipWhile isBlank
  let (handle, source) ← Yaml.readTagHandle .tagDirectiveMark start source
  if handle ≠ ['!'] ∧ handle.getLast? ≠ some '!' then
    throw (.within .tagDirectiveHandle start .missingTagMark source.mark)
  unless source.testAt 0 isBlank do throw (.within .tagDirective start .missingBlank source.mark)
  let (uri, source) ← TagUri.read true .tagDirectiveUri start [] (source.skipWhile isBlank)
  unless source.separatesAt 0 do
    throw (.within .tagDirective start .missingTagSeparator source.mark)
  return (.tagDirective (String.ofList handle) uri, source)

/-- Reads a directive with the line that it stands in. The token ends before blanks and comment. -/
def read (source : Source) : Except SyntaxError (Token × Source) := do
  let start := source.mark
  let (name, source) := (source.skip 1).takeWhile isNameChar
  if name = [] then throw (.within .directive start .missingDirectiveName source.mark)
  unless source.separatesAt 0 do throw (.within .directive start .badDirectiveName source.mark)
  let (kind, source) ←
    if name = ['Y', 'A', 'M', 'L'] then readVersion start source
    else if name = ['T', 'A', 'G'] then readTagHandle start source
    else throw (.within .directive start .unknownDirective source.mark)
  let stop := source.mark
  let source := source.skipWhile isBlank
  let source := if source.has '#' then source.skipWhile fun c => !isBreak c else source
  unless source.lineEnds do throw (.within .directive start .missingLineEnd source.mark)
  return ({ kind, start, stop }, source.takeBreak.2)

end Directive

end LiveScore.Yaml
