/-!
# Unresolved notation

The reasons why a cluster or a chord symbol stands for no notes.
-/

namespace LiveScore

/-- Why a piece of notation stands for no notes. -/
inductive ResolveError where
  /-- The cluster has no note. -/
  | emptyCluster
  /-- A note of the cluster does not start with a letter from A to G. -/
  | invalidNote (found : Char) (token : String)
  /-- A note has no MIDI number. -/
  | outOfRange (token : String)
  /-- The symbol names no chord. -/
  | unknownChord (symbol : String)
deriving DecidableEq

/-- The sentence that reports the error. -/
def ResolveError.message : ResolveError → String
  | emptyCluster => "empty note cluster"
  | invalidNote found token => s!"invalid note '{found}' in cluster '{token}'"
  | outOfRange token => s!"note out of MIDI range in '{token}'"
  | unknownChord symbol => s!"unknown chord '{symbol}'"

end LiveScore
