import LiveScore.Score.Basic

/-!
# Playback

Playback is a score together with a cursor: a position in the chain, the section found there and
the measure last entered. Only the first pulse of a measure moves the cursor, and only starting and
loading replace it. What a pulse plays is a function of the score and the cursor.
-/

namespace LiveScore

/-- Where in a score playback is. -/
structure Cursor where
  chainPosition : Nat := 0
  sectionIndex : Nat := 0
  /-- The measure of the section; none before the first downbeat. -/
  measure : Option Nat := none
deriving DecidableEq, Inhabited

/-- The cursor in terms of the score. -/
structure Position where
  chainPosition : Nat
  sectionName : String
  /-- The measure of the section; none before the first downbeat. -/
  measure : Option Nat
deriving DecidableEq

/-- Notes that an instrument starts or stops. -/
structure Delivery where
  instrument : String
  event : ChordEvent
deriving DecidableEq

/-- A score and the place reached in it. -/
structure Playback where
  score : Score := {}
  cursor : Cursor := {}
deriving DecidableEq, Inhabited

namespace Playback

/-- Finds the section again after the position in the chain or the score has changed. -/
def sync (playback : Playback) : Playback :=
  if playback.score.chain = [] then { playback with cursor := {} }
  else
    let position := playback.cursor.chainPosition % playback.score.chain.length
    let index := match playback.score.sectionAt? position with
      | some (index, _) => index
      | none => playback.cursor.sectionIndex
    { playback with
      cursor := { playback.cursor with chainPosition := position, sectionIndex := index } }

/-- Goes over to another score, where the cursor stays if the score has its place. -/
def load (playback : Playback) (score : Score) : Playback := { playback with score }.sync

/-- Goes back to the top of the chain. -/
def rewind (playback : Playback) : Playback := { playback with cursor := {} }.sync

/-- The section that the cursor is in, if there is one. -/
def section? (playback : Playback) : Option Section :=
  playback.score.sections[playback.cursor.sectionIndex]?

/-- The place reached, if there is a section. -/
def position? (playback : Playback) : Option Position :=
  playback.section?.map fun sect =>
    ⟨playback.cursor.chainPosition, sect.name, playback.cursor.measure⟩

/-- The tempo that a section asks for; a tempo of zero asks for none. -/
def tempoRequest (sect : Section) : Option Binary64 :=
  if sect.tempo.isZero then none else some sect.tempo

/-- The tempo that the first section of the chain asks for, if it does. -/
def openingTempo (playback : Playback) : Option Binary64 :=
  (playback.score.sectionAt? 0).bind fun entry => tempoRequest entry.2

/-- Enters the next measure: that of the section, or the first one of the next section. -/
def nextMeasure (playback : Playback) : Playback :=
  match playback.cursor.measure with
  | none => { playback with cursor := { playback.cursor with measure := some 0 } }
  | some measure =>
    if (playback.section?.map Section.measureCount).getD 0 ≤ measure + 1 then
      let cursor := { playback.cursor with chainPosition := playback.cursor.chainPosition + 1 }
      let synced := { playback with cursor }.sync
      { synced with cursor := { synced.cursor with measure := some 0 } }
    else { playback with cursor := { playback.cursor with measure := some (measure + 1) } }

/-- Whether entering the next measure leaves the section. -/
def leavesSection (playback : Playback) : Bool :=
  match playback.cursor.measure with
  | none => false
  | some measure => (playback.section?.map Section.measureCount).getD 0 ≤ measure + 1

/-- The tempo that entering the next measure asks for: a section asks when it is entered from the
one before. -/
def downbeatTempo (playback : Playback) : Option Binary64 :=
  if playback.leavesSection then playback.nextMeasure.section?.bind tempoRequest else none

/-- What one part plays at a pulse of a measure of its section: for each instrument the notes to
release and then the notes to strike. -/
def partDeliveries (part : Part) (sectionMeasure pulse : Nat) : List Delivery :=
  match (part.measureFor? sectionMeasure).bind fun measure => measure.timetable.at? pulse with
  | none => []
  | some batch =>
    part.instruments.flatMap fun instrument =>
      ((ChordEvent.merge batch).filter fun event => event.notes ≠ []).map fun event =>
        ⟨instrument, event⟩

/-- What plays at a pulse of the current measure, part by part. -/
def deliveries (playback : Playback) (pulse : Nat) : List Delivery :=
  match playback.section? with
  | none => []
  | some sect => sect.parts.flatMap fun part =>
    partDeliveries part (playback.cursor.measure.getD 0) pulse

end Playback

end LiveScore
