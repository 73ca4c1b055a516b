/-!
# Chord qualities

A chord quality fixes the intervals of a chord above its root and has one or more suffixes that
name it in a chord symbol. Suffixes are matched whole and with their case.
-/

namespace LiveScore

/-- The quality of a chord. -/
inductive Quality where
  | major
  | minor
  | diminished
  | augmented
  | sus2
  | sus4
  | sixth
  | minorSixth
  | dominant7
  | major7
  | minor7
  | diminished7
  | halfDiminished7
  | dominant9
  | major9
  | minor9
  | add9
deriving DecidableEq

namespace Quality

/-- The semitones of the chord tones above the root, upwards. -/
def intervals : Quality → List Nat
  | major => [0, 4, 7]
  | minor => [0, 3, 7]
  | diminished => [0, 3, 6]
  | augmented => [0, 4, 8]
  | sus2 => [0, 2, 7]
  | sus4 => [0, 5, 7]
  | sixth => [0, 4, 7, 9]
  | minorSixth => [0, 3, 7, 9]
  | dominant7 => [0, 4, 7, 10]
  | major7 => [0, 4, 7, 11]
  | minor7 => [0, 3, 7, 10]
  | diminished7 => [0, 3, 6, 9]
  | halfDiminished7 => [0, 3, 6, 10]
  | dominant9 => [0, 4, 7, 10, 14]
  | major9 => [0, 4, 7, 11, 14]
  | minor9 => [0, 3, 7, 10, 14]
  | add9 => [0, 4, 7, 14]

/-- Each name of a quality in chord symbols, with the quality; a name occurs once. -/
def suffixes : List (String × Quality) :=
  [("", major), ("maj", major), ("M", major), ("m", minor), ("min", minor), ("dim", diminished),
    ("aug", augmented), ("+", augmented), ("sus2", sus2), ("sus4", sus4), ("sus", sus4),
    ("6", sixth), ("m6", minorSixth), ("7", dominant7), ("maj7", major7), ("M7", major7),
    ("m7", minor7), ("min7", minor7), ("dim7", diminished7), ("m7b5", halfDiminished7),
    ("9", dominant9), ("maj9", major9), ("m9", minor9), ("add9", add9)]

/-- The quality that a suffix stands for, if it is known. -/
def ofSuffix? (suffix : String) : Option Quality := suffixes.lookup suffix

end Quality

end LiveScore
