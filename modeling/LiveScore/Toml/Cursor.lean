import LiveScore.Toml.Error

/-!
# TOML text

The text of a TOML document from some place on, with the small pieces of the grammar: blanks, line
breaks and comments.
-/

namespace LiveScore.Toml

/-- A text from some place on. -/
structure Cursor where
  rest : List Char
  offset : Nat := 0
deriving Inhabited

/-- A space or a tab. -/
def isBlank (c : Char) : Bool := c = ' ' || c = '\t'

/-- A character that may stand in a text or a comment. -/
def isPrintable (c : Char) : Bool := c = '\t' || (' ' ≤ c && c ≤ '~') || 0x80 ≤ c.toNat

/-- A character of a key without quotes. -/
def isKeyChar (c : Char) : Bool := c.isAlphanum || c = '_' || c = '-'

namespace Cursor

/-- The next character. -/
def peek? (cursor : Cursor) : Option Char := cursor.rest.head?

/-- The next character is this one. -/
def has (cursor : Cursor) (c : Char) : Bool := cursor.peek? == some c

/-- A text comes next. -/
def hasText (cursor : Cursor) (text : String) : Bool := text.toList.isPrefixOf cursor.rest

/-- Leaves out some characters. -/
def skip (cursor : Cursor) (count : Nat) : Cursor where
  rest := cursor.rest.drop count
  offset := cursor.offset + count

/-- Takes characters as long as they pass a test. -/
def takeWhile (cursor : Cursor) (test : Char → Bool) : List Char × Cursor :=
  let run := cursor.rest.takeWhile test
  (run, cursor.skip run.length)

/-- Fails at this place. -/
def fail {α : Type} (cursor : Cursor) (problem : Problem) : Except Error α :=
  .error (.at problem cursor.offset)

/-- Leaves out spaces and tabs. -/
def skipBlanks (cursor : Cursor) : Cursor := (cursor.takeWhile isBlank).2

/-- The number of characters of the line break that is next. -/
def lineBreak? (cursor : Cursor) : Option Nat :=
  match cursor.rest with
  | '\n' :: _ => some 1
  | '\r' :: '\n' :: _ => some 2
  | _ => none

/-- Passes a comment if there is one. -/
def skipComment (cursor : Cursor) : Cursor :=
  if cursor.has '#' then (cursor.takeWhile isPrintable).2 else cursor

/-- Passes the rest of a line, which may hold a comment but nothing else. -/
def endLine (cursor : Cursor) (problem : Problem) : Except Error Cursor :=
  let cursor := cursor.skipBlanks.skipComment
  match cursor.lineBreak? with
  | some length => .ok (cursor.skip length)
  | none => if cursor.rest = [] then .ok cursor else cursor.fail problem

/-- Passes blanks, comments and line breaks. -/
def skipSpace : Nat → Cursor → Cursor
  | 0, cursor => cursor
  | count + 1, cursor =>
    let next := cursor.skipBlanks
    let afterComment := next.skipComment
    match afterComment.lineBreak? with
    | some length => skipSpace count (afterComment.skip length)
    | none => next

end Cursor

end LiveScore.Toml
