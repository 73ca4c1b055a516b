/-!
# Quoted text

Messages show a path between double quotes. Quotes and backslashes in it are escaped with a
backslash, the common control characters have a letter, and every other character without a shape
of its own is given by its code point in hexadecimal digits.
-/

namespace LiveScore.Text

/-- The code point of a character in lower-case hexadecimal digits, without leading zeros. -/
def hexadecimal (c : Char) : List Char := Nat.toDigits 16 c.toNat

/-- Ranges of code points without a shape of their own: controls, format characters, separators
other than the space, and the areas for private use. -/
def shapelessRanges : List (Nat × Nat) :=
  [(0x00, 0x1f), (0x7f, 0xa0), (0xad, 0xad), (0x600, 0x605), (0x61c, 0x61c), (0x6dd, 0x6dd),
    (0x70f, 0x70f), (0x890, 0x891), (0x8e2, 0x8e2), (0x1680, 0x1680), (0x180e, 0x180e),
    (0x2000, 0x200f), (0x2028, 0x202f), (0x205f, 0x206f), (0x3000, 0x3000), (0xe000, 0xf8ff),
    (0xfeff, 0xfeff), (0xfff0, 0xfffb), (0xfffe, 0xffff), (0x110bd, 0x110bd), (0x110cd, 0x110cd),
    (0x13430, 0x1343f), (0x1bca0, 0x1bca3), (0x1d173, 0x1d17a), (0xe0000, 0x10ffff)]

/-- Ranges of the marks that combine with the character before them. -/
def combiningRanges : List (Nat × Nat) :=
  [(0x300, 0x36f), (0x483, 0x489), (0x591, 0x5bd), (0x5bf, 0x5bf), (0x5c1, 0x5c2), (0x5c4, 0x5c5),
    (0x5c7, 0x5c7), (0x610, 0x61a), (0x64b, 0x65f), (0x670, 0x670), (0x6d6, 0x6dc), (0x6df, 0x6e4),
    (0x6e7, 0x6e8), (0x6ea, 0x6ed), (0x711, 0x711), (0x730, 0x74a), (0x93a, 0x93a), (0x93c, 0x93c),
    (0x941, 0x948), (0x94d, 0x94d), (0x951, 0x957), (0xe31, 0xe31), (0xe34, 0xe3a), (0xe47, 0xe4e),
    (0x1ab0, 0x1ace), (0x1dc0, 0x1dff), (0x200c, 0x200c), (0x20d0, 0x20f0), (0x302a, 0x302f),
    (0x3099, 0x309a), (0xfe00, 0xfe0f), (0xfe20, 0xfe2f), (0xff9e, 0xff9f), (0xe0020, 0xe007f),
    (0xe0100, 0xe01ef)]

/-- A code point lies in one of some ranges. -/
def inRanges (ranges : List (Nat × Nat)) (codePoint : Nat) : Bool :=
  ranges.any fun (first, last) => first ≤ codePoint && codePoint ≤ last

/-- A character that is shown as it is, and not by its number. -/
def isShown (c : Char) : Bool :=
  c = ' ' || !(inRanges shapelessRanges c.toNat || inRanges combiningRanges c.toNat)

/-- The characters that show a character between quotes. -/
def escaped (c : Char) : List Char :=
  match c with
  | '"' => ['\\', '"']
  | '\\' => ['\\', '\\']
  | '\t' => ['\\', 't']
  | '\n' => ['\\', 'n']
  | '\r' => ['\\', 'r']
  | '\x00' => ['\\', '0']
  | c => if isShown c then [c] else ['\\', 'u', '\x7b'] ++ hexadecimal c ++ ['\x7d']

/-- A text in quotation marks, with everything escaped that would not be shown. -/
def quoted (text : String) : String :=
  String.ofList ('"' :: text.toList.flatMap escaped ++ ['"'])

/-- The characters that show a character of a path; apostrophes are escaped, too. -/
def escapedInPath (c : Char) : List Char := if c = '\x27' then ['\\', c] else escaped c

/-- A path in quotation marks, with everything escaped that would not be shown. -/
def quotedPath (path : String) : String :=
  String.ofList ('"' :: path.toList.flatMap escapedInPath ++ ['"'])

end LiveScore.Text
