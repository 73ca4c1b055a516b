import LiveScore.Yaml.Meaning

/-!
# Writing YAML texts

A text is written as the value of a key of a block mapping so that it reads back as a text: plainly
where nothing in it would be taken for something else, in single quotes otherwise, as a literal
block if it has several lines, and in double quotes if a character of it needs an escape.
-/

namespace LiveScore.Yaml.Written

/-- A character that is written as it is. -/
def isPrintable (c : Char) : Bool :=
  let n := c.toNat
  n = 0x0a || (0x20 ≤ n && n ≤ 0x7e) || (0xa0 ≤ n && n ≤ 0xd7ff)
    || (0xe000 ≤ n && n ≤ 0xfffd && n ≠ 0xfeff) || 0x10000 ≤ n

/-- Somewhere, a character that passes one test is followed by one that passes another. -/
def adjacent (p q : Char → Bool) : List Char → Bool
  | c :: d :: rest => (p c && q d) || adjacent p q (d :: rest)
  | _ => false

/-- Whether a character that satisfies `p` stands before white space or the end. -/
def beforeSpace (p : Char → Bool) : List Char → Bool
  | [] => false
  | [c] => p c
  | c :: d :: rest => (p c && (isBlank d || isBreak d)) || beforeSpace p (d :: rest)

/-- The space, and no other blank. -/
def isSpace (c : Char) : Bool := c = ' '

/-- The characters with which no bare scalar begins. -/
def indicators : List Char :=
  ['#', ',', '[', ']', '\x7b', '\x7d', '&', '*', '!', '|', '>', '\x27', '"', '%', '@', '\x60']

/-- Whether something in a text would be taken for structure. -/
def hasIndicator (text : List Char) : Bool :=
  ['-', '-', '-'].isPrefixOf text || ['.', '.', '.'].isPrefixOf text
    || text.head?.any indicators.contains
    || ((text.take 1 = ['?'] || text.take 1 = ['-'])
      && text[1]?.all fun c => isBlank c || isBreak c)
    || beforeSpace (· = ':') text
    || adjacent (fun c => isBlank c || isBreak c) (· = '#') text

/-- A space or a line break stands at one of the ends. -/
def hasBareEnd (text : List Char) : Bool :=
  let isBare (c : Char) := isSpace c || isBreak c
  text.head?.any isBare || text.getLast?.any isBare

/-- Whether a text is not to be written without escapes. -/
def needsEscape (text : List Char) : Bool :=
  text.any (fun c => !isPrintable c) || adjacent isSpace isBreak text

/-- Whether a text may stand without quotes. -/
def allowsPlain (text : List Char) : Bool :=
  !(hasIndicator text || hasBareEnd text || needsEscape text || text.any isBreak)

/-- A text may be written in single quotes. -/
def allowsSingle (text : List Char) : Bool := !(needsEscape text || adjacent isBreak isSpace text)

/-- A text may be written as a block scalar. -/
def allowsBlock (text : List Char) : Bool :=
  !(text = [] || needsEscape text || text.getLast?.any isSpace)

/-- Whether a text without quotes would be read as a text. -/
def readsAsText (text : String) : Bool :=
  match Meaning.ofPlain text with
  | .string _ => !Meaning.hasNeedlessZero text.toList
  | _ => false

/-- The style in which a text is written. -/
def style (text : String) : ScalarStyle :=
  let chars := text.toList
  if chars.contains '\n' then if allowsBlock chars then .literal else .doubleQuoted
  else if readsAsText text && allowsPlain chars then .plain
  else if allowsSingle chars then .singleQuoted
  else .doubleQuoted

/-! ### The styles -/

/-- The columns by which the lines of a value are indented. -/
def indentation : List Char := [' ', ' ']

/-- A number in hexadecimal, filled up with zeros. -/
def hexadecimal (digits : Nat) (n : Nat) : List Char :=
  let text := (Nat.toDigits 16 n).map Char.toUpper
  List.replicate (digits - text.length) '0' ++ text

/-- The letters after the backslash of a character that has a short escape. -/
def shortEscapes : List (Char × Char) :=
  [('\x00', '0'), ('\x07', 'a'), ('\x08', 'b'), ('\t', 't'), ('\n', 'n'), ('\x0b', 'v'),
    ('\x0c', 'f'), ('\r', 'r'), ('\x1b', 'e'), ('"', '"'), ('\\', '\\'), ('\u0085', 'N'),
    ('\u00a0', '_'), ('\u2028', 'L'), ('\u2029', 'P')]

/-- A character between double quotes. -/
def escape (c : Char) : List Char :=
  if isPrintable c && !isBreak c && c ≠ '"' && c ≠ '\\' then [c]
  else match shortEscapes.lookup c with
    | some letter => ['\\', letter]
    | none =>
      let n := c.toNat
      if n ≤ 0xff then ['\\', 'x'] ++ hexadecimal 2 n
      else if n ≤ 0xffff then ['\\', 'u'] ++ hexadecimal 4 n
      else ['\\', 'U'] ++ hexadecimal 8 n

/-- Characters with the indentation before each that starts a line. An apostrophe is written twice
if `single` says so. -/
def indented (single : Bool) : Bool → List Char → List Char
  | _, [] => []
  | atStart, c :: rest =>
    if isBreak c then c :: indented single true rest
    else
      (if atStart then indentation else []) ++ (if single && c = '\x27' then [c, c] else [c])
        ++ indented single false rest

/-- A text in single quotes. -/
def singleQuoted (text : List Char) : List Char :=
  let ending := if text.getLast?.any isBreak then indentation else []
  '\x27' :: indented true false text ++ ending ++ ['\x27']

/-- The header of a block: the indentation where the first line does not show it, and what becomes
of the breaks at the end. -/
def blockHeader (text : List Char) : List Char :=
  let indent := if text.head?.any fun c => isSpace c || isBreak c then ['2'] else []
  let chomp := match text.reverse with
    | last :: before =>
      if !isBreak last then ['-'] else if before.head?.all isBreak then ['+'] else []
    | [] => ['-']
  '|' :: indent ++ chomp

/-- A text as a block scalar. -/
def block (text : List Char) : List Char := blockHeader text ++ '\n' :: indented false true text

/-- What follows a key and its colon: a space, the text and a line break. -/
def value (text : String) : String :=
  let chars := text.toList
  let written := match style text with
    | .plain => chars
    | .singleQuoted => singleQuoted chars
    | .doubleQuoted => '"' :: chars.flatMap escape ++ ['"']
    | .literal => block chars
    | .folded => block chars
  let ended := (style text = .literal) && chars.getLast?.any isBreak
  String.ofList (' ' :: written ++ if ended then [] else ['\n'])

end LiveScore.Yaml.Written
