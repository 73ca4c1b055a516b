/-!
# Errors in TOML text

What can be wrong with a TOML document and where. The report of an error shows the line in question
and marks the place in it.
-/

namespace LiveScore.Toml

/-- A stretch of a text, in characters from its start. -/
structure Span where
  start : Nat
  stop : Nat
deriving DecidableEq, Inhabited

/-- What is wrong at a place. -/
inductive Problem where
  | badKey
  | missingEquals
  | missingLineEnd
  | badComment
  | badValue
  | badTableHeader (close : String)
  | badText (kind : String)
  | badEscape
  | badCodePoint (digits : Nat)
  | unclosedArray
  | unclosedInlineTable
  | badInteger
  | badFloat
  | badDateTime
  | badBoolean
  | numberTooLarge
  | tooDeep
  | repeatedKey (key : String) (table : Option (List String))
  | repeatedTable (key : String) (table : List String)
  /-- A path through something that is no table. -/
  | notTable (path : List String) (actual : String) (inHeader : Bool)
deriving DecidableEq

/-- A path as it is written. -/
def joinPath (path : List String) : String := ".".intercalate path

/-- The words about a key that is given twice. -/
def repeated (key : String) (table : Option (List String)) : String :=
  s!"duplicate key `{key}`" ++ match table with
    | none => ""
    | some [] => " in document root"
    | some path => s!" in table `{joinPath path}`"

/-- The sentence that reports a problem. -/
def Problem.message : Problem → String
  | badKey => "invalid key"
  | missingEquals => "expected `.`, `=`"
  | missingLineEnd => "expected newline, `#`"
  | badComment => ""
  | badValue => "invalid string\nexpected `\"`, `'`"
  | badTableHeader close => s!"invalid table header\nexpected `.`, `{close}`"
  | badText kind => s!"invalid {kind}"
  | badEscape =>
    "invalid escape sequence\nexpected `b`, `f`, `n`, `r`, `t`, `u`, `U`, `\\`, `\"`"
  | badCodePoint digits => s!"invalid unicode {digits}-digit hex code"
  | unclosedArray => "invalid array\nexpected `]`"
  | unclosedInlineTable => "invalid inline table\nexpected `\x7d`"
  | badInteger => "invalid integer"
  | badFloat => "invalid floating-point number"
  | badDateTime => "invalid date-time"
  | badBoolean => "invalid boolean"
  | numberTooLarge => "number too large to fit in target type"
  | tooDeep => "recursion limit exceeded"
  | repeatedKey key table => repeated key table
  | repeatedTable key table => "invalid table header\n" ++ repeated key (some table)
  | notTable path actual inHeader =>
    (if inHeader then "invalid table header\n" else "")
      ++ s!"dotted key `{joinPath path}` attempted to extend non-table type ({actual})"

/-- A problem at a place. -/
structure Error where
  problem : Problem
  span : Span
deriving DecidableEq

/-- A problem with one character. -/
def Error.at (problem : Problem) (offset : Nat) : Error := ⟨problem, offset, offset + 1⟩

/-- A line of a text by the number of lines before it. -/
def lineAt (text : List Char) (line : Nat) : List Char :=
  match line with
  | 0 => text.takeWhile (· ≠ '\n')
  | line + 1 => lineAt ((text.dropWhile (· ≠ '\n')).drop 1) line

/-- The number of bytes that characters take. -/
def byteCount (chars : List Char) : Nat := (String.ofList chars).utf8ByteSize

/-- The characters of a text that a span covers. -/
def Span.chars (span : Span) (text : List Char) : List Char :=
  (text.drop span.start).take (span.stop - span.start)

/-- The number of columns before a stretch, given what stands before it on its line. A column is a
character; before a stretch that starts outside ASCII it is a byte. -/
def Span.column (span : Span) (text inLine : List Char) : Nat :=
  match text[span.start]? with
  | some c => if c.toNat < 0x80 then inLine.length else byteCount inLine
  | none => inLine.length

/-- The report of a message about a stretch of a text: the place in words, the line with its number,
a mark under the stretch for each of its bytes, and the message. -/
def report (text : String) (span : Span) (message : String) : String :=
  let chars := text.toList
  let before := chars.take (min span.start (chars.length - 1))
  let inLine := (before.reverse.takeWhile (· ≠ '\n')).reverse
  let line := before.count '\n'
  let column := span.column chars inLine + (span.start - before.length)
  let content := lineAt chars line
  let number := toString (line + 1)
  let gutter := String.ofList (List.replicate (number.length + 1) ' ') ++ "|"
  let marked := max 1 (min (byteCount (span.chars chars)) (byteCount content))
  s!"TOML parse error at line {number}, column {column + 1}\n{gutter}\n"
    ++ s!"{number} | {String.ofList content}\n" ++ gutter
    ++ String.ofList (List.replicate (column + 1) ' ' ++ List.replicate marked '^')
    ++ s!"\n{message}\n"

end LiveScore.Toml
