import LiveScore.Toml.Number
import LiveScore.Toml.Text

/-!
# TOML values and tables

A table maps keys to values and tables, in the order in which they came. A key may be given once;
the tables on the way to a key come into being by being named, and a table that came into being this
way may still be given a header, or keys of its own, but not both.

The content of an array or an inline table is checked and then forgotten: no setting is nested.
-/

namespace LiveScore.Toml

/-- A value. -/
inductive Value where
  | string (text : String)
  | integer (value : Int)
  | float (value : Binary64)
  | boolean (value : Bool)
  | dateTime
  | array
  | inlineTable

/-- The name of a value's type. -/
def Value.typeName : Value → String
  | string _ => "string"
  | integer _ => "integer"
  | float _ => "float"
  | boolean _ => "boolean"
  | dateTime => "datetime"
  | array => "array"
  | inlineTable => "inline table"

/-- How a table came into being. -/
inductive Origin where
  | header
  | headerPath
  | keyPath
deriving DecidableEq

/-- What a key leads to. -/
inductive Entry where
  | value (value : Value) (span : Span)
  | table (origin : Origin) (entries : List (String × Entry)) (span : Span)
  /-- An array of tables, of which only the last can still grow. -/
  | tables (last : List (String × Entry)) (span : Span)

/-- A table that can grow. -/
structure Table where
  origin : Origin := .header
  entries : List (String × Entry) := []
  span : Span := ⟨0, 0⟩

namespace Table

/-- A table as an entry of another one. -/
def toEntry (table : Table) : Entry := .table table.origin table.entries table.span

/-- The table with an entry under a key, in the place of one that was there. -/
def put (table : Table) (key : String) (entry : Entry) : Table :=
  let present := table.entries.any fun item => item.1 = key
  { table with
    entries :=
      if present then table.entries.map fun item => if item.1 = key then (key, entry) else item
      else table.entries ++ [(key, entry)] }

/-- The table without a key. -/
def erase (table : Table) (key : String) : Table :=
  { table with entries := table.entries.filter fun item => item.1 ≠ key }

/-- Changes the table at the end of a path. The tables on the way come into being as told by
`origin`; a key's path may not lead into a table with a header of its own. -/
def update (origin : Origin) (place : Span) (change : Table → Except Problem Table)
    (walked : List String) : List String → Table → Except Problem Table
  | [], table => change table
  | key :: path, table => do
    let walked := walked ++ [key]
    match table.entries.lookup key with
    | none =>
      let inner ← update origin place change walked path { origin, span := place }
      return table.put key inner.toEntry
    | some (.value value _) => throw (.notTable walked value.typeName (origin ≠ .keyPath))
    | some (.tables last span) =>
      let inner ← update origin place change walked path { entries := last, span }
      return table.put key (.tables inner.entries span)
    | some (.table inside entries span) =>
      if origin = .keyPath ∧ inside = .header then throw (.repeatedKey key none)
      let inner ← update origin place change walked path { origin := inside, entries, span }
      return table.put key inner.toEntry

/-- Gives a key of a table its value, `holder` being the path of the table where it is known. -/
def insert (key : String) (entry : Entry) (dotted : Bool) (holder : Option (List String))
    (table : Table) : Except Problem Table :=
  if decide (table.origin = .keyPath) != dotted then .error (.repeatedKey key none)
  else if (table.entries.lookup key).isSome then .error (.repeatedKey key holder)
  else .ok (table.put key entry)

/-- Puts an entry under a path and a key, and makes the tables on the way. -/
def assign (table : Table) (path : List String) (key : String) (entry : Entry) (place : Span)
    (holder : Option (List String)) : Except Problem Table :=
  update .keyPath place (insert key entry (path ≠ []) holder) [] path table

end Table

/-! ### Values -/

/-- The values that are written as words. -/
def words : List (String × Value) :=
  [("true", .boolean true), ("false", .boolean false), ("inf", .float (.infinite false)),
    ("nan", .float .nan)]

/-- A character with which a number may begin. -/
def startsNumber (c : Char) : Bool := c = '+' || c = '-' || c.isDigit

mutual

/-- Reads a value, `depth` brackets deep. -/
def readValue (depth : Nat) : Nat → Cursor → Except Error (Value × Cursor)
  | 0, cursor => cursor.fail .badValue
  | count + 1, cursor =>
    match cursor.peek? with
    | none => cursor.fail .badValue
    | some c =>
      if c = '"' ∨ c = '\x27' then do
        let (text, cursor) ← Text.read c cursor
        return (.string text, cursor)
      else if c = '[' then
        if Key.depthLimit ≤ depth + 1 then cursor.fail .tooDeep
        else readItems (depth + 1) true count (cursor.skip 1)
      else if c = '\x7b' then
        if Key.depthLimit ≤ depth + 1 then cursor.fail .tooDeep
        else readPairs (depth + 1) true {} count (cursor.skip 1).skipBlanks
      else if startsNumber c then do
        let (number, cursor) ← Number.read cursor
        match number with
        | .integer value => return (.integer value, cursor)
        | .float value => return (.float value, cursor)
        | .dateTime => return (.dateTime, cursor)
      else if c = '_' then cursor.fail .badInteger
      else if c = '.' then cursor.fail .badFloat
      else match words.find? fun word => cursor.hasText word.1 with
        | some word => .ok (word.2, cursor.skip word.1.length)
        | none =>
          if c = 't' ∨ c = 'f' then cursor.fail .badBoolean else cursor.fail .badValue

/-- Reads the items of an array up to its closing bracket. A comma may follow the last one. -/
def readItems (depth : Nat) (first : Bool) : Nat → Cursor → Except Error (Value × Cursor)
  | 0, cursor => cursor.fail .unclosedArray
  | count + 1, cursor => do
    let cursor := cursor.skipSpace cursor.rest.length
    if cursor.has ']' then return (.array, cursor.skip 1)
    let cursor ←
      if first then pure cursor
      else if cursor.has ',' then pure ((cursor.skip 1).skipSpace cursor.rest.length)
      else cursor.fail .unclosedArray
    if cursor.has ']' && !first then return (.array, cursor.skip 1)
    if cursor.rest = [] then cursor.fail .unclosedArray
    let (_, cursor) ← readValue depth count cursor
    readItems depth false count cursor

/-- Reads the pairs of an inline table up to its closing brace. It goes over one line, and no comma
follows the last pair. -/
def readPairs (depth : Nat) (first : Bool) (table : Table) :
    Nat → Cursor → Except Error (Value × Cursor)
  | 0, cursor => cursor.fail .unclosedInlineTable
  | count + 1, cursor => do
    if cursor.has '\x7d' then return (.inlineTable, cursor.skip 1)
    let start ←
      if first then pure cursor
      else if cursor.has ',' then pure (cursor.skip 1).skipBlanks
      else cursor.fail .unclosedInlineTable
    if start.rest = [] ∨ start.has '\x7d' then start.fail .unclosedInlineTable
    let (path, cursor) ← Key.path start
    unless cursor.has '=' do cursor.fail .missingEquals
    let (value, cursor) ← readValue depth count (cursor.skip 1).skipBlanks
    let span : Span := ⟨start.offset, cursor.offset⟩
    match table.assign path.dropLast (path.getLast?.getD "") (.value value span) span none with
    | .ok table => readPairs depth false table count cursor.skipBlanks
    | .error problem => start.fail problem

end

end LiveScore.Toml
