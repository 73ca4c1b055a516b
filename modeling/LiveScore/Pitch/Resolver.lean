import LiveScore.Harmony.Symbol
import LiveScore.Pitch.Cluster

/-!
# Resolvers

A resolver gives notes to the two kinds of notation in a measure. The score reader works with any
resolver; the standard one reads clusters and chord symbols.
-/

namespace LiveScore

/-- The meaning of clusters and of chord symbols. -/
structure Resolver where
  cluster : String → Option Note → Except ResolveError (List Note)
  chord : String → Except ResolveError (List Note)

/-- The resolver of clusters and chord names that the program comes with. -/
def Resolver.standard : Resolver where
  cluster := Cluster.read
  chord := Harmony.read

end LiveScore
