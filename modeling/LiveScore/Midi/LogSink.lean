import LiveScore.Player.Playback

/-!
# The logging sink

Without an instrument the notes go to the log: one record per delivery.
-/

namespace LiveScore

/-- A record of the log: a message with named texts. -/
structure LogRecord where
  message : String
  fields : List (String × String)
deriving DecidableEq

/-- The record of a delivery, with the names of the notes between blanks. -/
def LogRecord.ofDelivery (delivery : Delivery) : LogRecord where
  message := if delivery.event.on then "note on" else "note off"
  fields :=
    [("instrument", delivery.instrument), ("on", if delivery.event.on then "true" else "false"),
      ("notes", " ".intercalate (delivery.event.notes.map Note.name))]

end LiveScore
