import LiveScore.Toml.Value

/-!
# TOML documents

A document is a sequence of lines: blank ones, comments, keys with their values, and headers, which
tell the table that the following keys belong to. A table is put into the document when the next
header comes, or at the end.
-/

namespace LiveScore.Toml

/-- A document as far as it has been read. -/
structure Draft where
  root : Table := {}
  current : Table := {}
  path : List String := []
  inArray : Bool := false

namespace Draft

/-- The last key of a path. -/
def lastKey (path : List String) : String := path.getLast?.getD ""

/-- Puts the current table into its place. An array of tables stands where its tables stand, from
the first to the last. -/
def close (draft : Draft) : Except Problem Table :=
  if draft.path = [] then .ok draft.current
  else
    let key := lastKey draft.path
    let place (parent : Table) : Except Problem Table :=
      match draft.inArray, parent.entries.lookup key with
      | true, none => .ok (parent.put key (.tables draft.current.entries draft.current.span))
      | true, some (.tables _ span) =>
        let whole : Span := ⟨span.start, draft.current.span.stop⟩
        .ok (parent.put key (.tables draft.current.entries whole))
      | false, none | false, some (.table .headerPath _ _) =>
        .ok (parent.put key draft.current.toEntry)
      | _, _ => .error (.repeatedTable key draft.path.dropLast)
    draft.root.update .headerPath draft.current.span place [] draft.path.dropLast

/-- Starts the table that a header names. A table that has only been named on the way to another
keeps what it holds. -/
def openTable (draft : Draft) (path : List String) (place span : Span) :
    Except Problem Draft := do
  let root ← draft.close
  let key := lastKey path
  let mut held : List (String × Entry) := []
  match entryAt root path with
  | some (.table .headerPath entries _) => held := entries
  | some _ => throw (.repeatedTable key path.dropLast)
  | none => pure ()
  let root ← root.update .headerPath place (fun parent => .ok (parent.erase key)) [] path.dropLast
  return { root, path, current := { entries := held, span } }
where
  entryAt (table : Table) : List String → Option Entry
    | [] => none
    | [key] => table.entries.lookup key
    | key :: path =>
      match table.entries.lookup key with
      | some (.table origin entries span) => entryAt { origin, entries, span } path
      | some (.tables last span) => entryAt { entries := last, span } path
      | _ => none

/-- Starts another table of the array that a header names. -/
def openItem (draft : Draft) (path : List String) (place span : Span) :
    Except Problem Draft := do
  let root ← draft.close
  let key := lastKey path
  let check (parent : Table) : Except Problem Table :=
    match parent.entries.lookup key with
    | none | some (.tables _ _) => .ok parent
    | some _ => .error (.repeatedTable key path.dropLast)
  let root ← root.update .headerPath place check [] path.dropLast
  return { root, path, current := { span }, inArray := true }

/-- Reads a header with its line. -/
def readHeader (draft : Draft) (cursor : Cursor) : Except Error (Draft × Cursor) := do
  let double := cursor.hasText "[["
  let width := if double then 2 else 1
  let closing := if double then "]]" else "]"
  let (path, next) ← Key.path (cursor.skip width)
  let place := Key.place (cursor.skip width)
  unless next.hasText closing do next.fail (.badTableHeader closing)
  let next := next.skip width
  let span : Span := ⟨cursor.offset, next.offset⟩
  let rest ← next.endLine .missingLineEnd
  match if double then draft.openItem path place span else draft.openTable path place span with
  | .ok draft => return (draft, rest)
  | .error problem => cursor.fail problem

/-- Reads a key with its value and the rest of the line. A table with a header stands from there to
its last value. -/
def readPair (draft : Draft) (cursor : Cursor) : Except Error (Draft × Cursor) := do
  let (path, next) ← Key.path cursor
  unless next.has '=' do next.fail .missingEquals
  let start := (next.skip 1).skipBlanks
  let (value, next) ← readValue 0 (start.rest.length + 1) start
  let span : Span := ⟨start.offset, next.offset⟩
  let rest ← next.endLine .missingLineEnd
  match draft.current.assign path.dropLast (lastKey path) (.value value span)
      (Key.place cursor) (some draft.path) with
  | .ok current =>
    let current := { current with span := ⟨current.span.start, span.stop⟩ }
    return ({ draft with current }, rest)
  | .error problem => cursor.fail problem

/-- Reads the lines of a document. -/
def readLines : Nat → Draft → Cursor → Except Error Draft
  | 0, draft, _ => .ok draft
  | count + 1, draft, cursor => do
    let cursor := cursor.skipBlanks
    match cursor.peek? with
    | none => return draft
    | some c =>
      let (draft, cursor) ←
        if c = '#' then pure (draft, ← cursor.endLine .badComment)
        else if c = '[' then draft.readHeader cursor
        else match cursor.lineBreak? with
          | some length => pure (draft, cursor.skip length)
          | none => draft.readPair cursor
      readLines count draft cursor

end Draft

/-- Reads a document. A byte-order mark may stand before it. -/
def read (text : String) : Except Error Table := do
  let cursor : Cursor := { rest := text.toList }
  let cursor := if cursor.has '\ufeff' then cursor.skip 1 else cursor
  let draft ← Draft.readLines (cursor.rest.length + 1) {} cursor
  match draft.close with
  | .ok table => return table
  | .error problem => cursor.fail problem

end LiveScore.Toml
