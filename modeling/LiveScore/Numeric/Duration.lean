import LiveScore.Numeric.Binary64

/-!
# Durations

Spans of time as whole numbers of nanoseconds, and their exchange with seconds in double
precision. A number of seconds becomes a span only if it is a number and not negative; it is
rounded to the nearest nanosecond, ties to even.
-/

namespace LiveScore

/-- A span of time. -/
structure Duration where
  nanoseconds : Nat
deriving DecidableEq, Inhabited

namespace Duration

/-- Nanoseconds in a second. -/
def nanosecondsPerSecond : Nat := 1000000000

/-- Nanoseconds in a millisecond. -/
def nanosecondsPerMillisecond : Nat := 1000000

/-- A time that is told in milliseconds. -/
def ofMilliseconds (milliseconds : Nat) : Duration := ⟨milliseconds * nanosecondsPerMillisecond⟩

/-- The whole milliseconds of a time. -/
def toMilliseconds (duration : Duration) : Nat :=
  duration.nanoseconds / nanosecondsPerMillisecond

/-- The span of a number of seconds, if there is one. -/
def ofSeconds? (seconds : Binary64) : Option Duration :=
  match seconds.value? with
  | none => none
  | some value =>
    if value < 0 then none
    else some ⟨(Binary64.nearestEven (value * nanosecondsPerSecond)).toNat⟩

/-- The number of seconds in a span: the whole seconds and the rest, added in double precision. -/
def toSeconds (duration : Duration) : Binary64 :=
  Binary64.ofNat (duration.nanoseconds / nanosecondsPerSecond) +
    Binary64.ofNat (duration.nanoseconds % nanosecondsPerSecond) /
      Binary64.ofNat nanosecondsPerSecond

/-- The shorter one of two times. -/
def shorter (first second : Duration) : Duration :=
  ⟨min first.nanoseconds second.nanoseconds⟩

end Duration

end LiveScore
