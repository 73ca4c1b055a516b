import LiveScore.Toml.Cursor

/-!
# TOML texts and keys

A text stands between double quotes, with escapes, or between single quotes, as it is; three quotes
in a row enclose a text of several lines. A key is a run of simple characters or a text of one line,
and keys with points between them form a path.

The loops count down a number that starts at the length of the rest of the document.
-/

namespace LiveScore.Toml

namespace Text

/-- The value of a hexadecimal digit. -/
def hexValue? (c : Char) : Option Nat :=
  if '0' ≤ c ∧ c ≤ '9' then some (c.toNat - '0'.toNat)
  else if 'a' ≤ c ∧ c ≤ 'f' then some (c.toNat - 'a'.toNat + 10)
  else if 'A' ≤ c ∧ c ≤ 'F' then some (c.toNat - 'A'.toNat + 10)
  else none

/-- Reads a code point of so many hexadecimal digits. -/
def readCodePoint (digits : Nat) (cursor : Cursor) : Except Error (Char × Cursor) :=
  match (cursor.rest.take digits).mapM hexValue? with
  | none => cursor.fail (.badCodePoint digits)
  | some values =>
    let codePoint := values.foldl (fun value digit => 16 * value + digit) 0
    if h : values.length = digits ∧ codePoint.isValidChar then
      .ok (Char.ofNatAux codePoint h.2, cursor.skip digits)
    else cursor.fail (.badCodePoint digits)

/-- Reads what a backslash introduces. -/
def readEscape (cursor : Cursor) : Except Error (Char × Cursor) :=
  let next := cursor.skip 2
  match (cursor.skip 1).peek? with
  | some 'b' => .ok ('\x08', next)
  | some 't' => .ok ('\t', next)
  | some 'n' => .ok ('\n', next)
  | some 'f' => .ok ('\x0c', next)
  | some 'r' => .ok ('\r', next)
  | some '"' => .ok ('"', next)
  | some '\\' => .ok ('\\', next)
  | some 'u' => readCodePoint 4 next
  | some 'U' => readCodePoint 8 next
  | _ => (cursor.skip 1).fail .badEscape

/-- What a text on one line is called in messages. -/
def lineKind (quote : Char) : String := if quote = '"' then "basic string" else "literal string"

/-- What a text over several lines is called in messages. -/
def blockKind (quote : Char) : String :=
  if quote = '"' then "multiline basic string" else "multiline literal string"

/-- Reads the rest of a text of one line up to its closing quote. -/
def readLine (quote : Char) : Nat → List Char → Cursor → Except Error (List Char × Cursor)
  | 0, _, cursor => cursor.fail (.badText (lineKind quote))
  | count + 1, text, cursor =>
    match cursor.peek? with
    | none => cursor.fail (.badText (lineKind quote))
    | some c =>
      if c = quote then .ok (text, cursor.skip 1)
      else if quote = '"' ∧ c = '\\' then
        match readEscape cursor with
        | .ok (c, cursor) => readLine quote count (text ++ [c]) cursor
        | .error error => .error error
      else if isPrintable c then readLine quote count (text ++ [c]) (cursor.skip 1)
      else cursor.fail (.badText (lineKind quote))

/-- Passes a backslash that ends its line, with all blanks and line breaks after it. -/
def skipFold? (cursor : Cursor) : Option Cursor :=
  let afterBlanks := (cursor.skip 1).skipBlanks
  afterBlanks.lineBreak?.map fun length =>
    skipAll afterBlanks.rest.length (afterBlanks.skip length)
where
  skipAll : Nat → Cursor → Cursor
    | 0, cursor => cursor
    | count + 1, cursor =>
      let cursor := cursor.skipBlanks
      match cursor.lineBreak? with
      | some length => skipAll count (cursor.skip length)
      | none => cursor

/-- Reads the rest of a text of several lines. Up to two quotes may stand before the closing ones.
-/
def readBlock (quote : Char) : Nat → List Char → Cursor → Except Error (List Char × Cursor)
  | 0, _, cursor => cursor.fail (.badText (blockKind quote))
  | count + 1, text, cursor =>
    match cursor.peek?, cursor.lineBreak? with
    | none, _ => cursor.fail (.badText (blockKind quote))
    | some _, some length => readBlock quote count (text ++ ['\n']) (cursor.skip length)
    | some c, none =>
      if c = quote then
        let quotes := (cursor.rest.takeWhile (· = quote)).length
        if 3 ≤ quotes then
          let kept := min (quotes - 3) 2
          .ok (text ++ List.replicate kept quote, cursor.skip (kept + 3))
        else readBlock quote count (text ++ List.replicate quotes quote) (cursor.skip quotes)
      else if quote = '"' ∧ c = '\\' then
        match skipFold? cursor with
        | some cursor => readBlock quote count text cursor
        | none => match readEscape cursor with
          | .ok (c, cursor) => readBlock quote count (text ++ [c]) cursor
          | .error error => .error error
      else if isPrintable c then readBlock quote count (text ++ [c]) (cursor.skip 1)
      else cursor.fail (.badText (blockKind quote))

/-- Reads a text from its opening quote on. -/
def read (quote : Char) (cursor : Cursor) : Except Error (String × Cursor) := do
  let count := cursor.rest.length
  let (text, cursor) ←
    if [quote, quote, quote].isPrefixOf cursor.rest then
      let cursor := cursor.skip 3
      readBlock quote count [] (cursor.skip (cursor.lineBreak?.getD 0))
    else readLine quote count [] (cursor.skip 1)
  return (String.ofList text, cursor)

end Text

namespace Key

/-- Reads a single key. -/
def read (cursor : Cursor) : Except Error (String × Cursor) := do
  match cursor.peek? with
  | some '"' =>
    let (text, cursor) ← Text.readLine '"' cursor.rest.length [] (cursor.skip 1)
    return (String.ofList text, cursor)
  | some '\x27' =>
    let (text, cursor) ← Text.readLine '\x27' cursor.rest.length [] (cursor.skip 1)
    return (String.ofList text, cursor)
  | _ =>
    let (name, next) := cursor.takeWhile isKeyChar
    if name = [] then cursor.fail .badKey else return (String.ofList name, next)

/-- Reads keys with points between them, and the blanks around them. -/
def readPath : Nat → Cursor → Except Error (List String × Cursor)
  | 0, cursor => cursor.fail .badKey
  | count + 1, cursor => do
    let (key, cursor) ← read cursor.skipBlanks
    let cursor := cursor.skipBlanks
    if cursor.has '.' then
      let (keys, cursor) ← readPath count (cursor.skip 1)
      return (key :: keys, cursor)
    else return ([key], cursor)

/-- How deep values may be nested. -/
def depthLimit : Nat := 80

/-- Where the first key of a path stands. -/
def place (cursor : Cursor) : Span :=
  let start := cursor.skipBlanks
  match read start with
  | .ok (_, next) => ⟨start.offset, next.offset⟩
  | .error _ => ⟨start.offset, start.offset⟩

/-- Reads a path of keys. -/
def path (cursor : Cursor) : Except Error (List String × Cursor) := do
  let (keys, next) ← readPath cursor.rest.length cursor
  if depthLimit ≤ keys.length then cursor.fail .tooDeep
  return (keys, next)

end Key

end LiveScore.Toml
