import LiveScore.Proofs.Player.Answers
import LiveScore.Proofs.Player.Performance
import LiveScore.Proofs.Player.Sounding

/-!
# Retriggered notes

A note that ends and starts again at one pulse is to be released first. Each seat calls its releases
before its strikes, so it never releases what it has just struck. But the seats call one after the
other, and nothing looks across them: a note is swallowed exactly if a seat strikes it and a later
seat of the same instrument releases it. This takes an instrument that a section names twice, in one
part or in two.
-/

namespace LiveScore

section Precedes

variable {α β : Type} {p q : α → Prop} {items longer : List α}

/-- An item of the first kind stands somewhere before one of the second kind. -/
def Precedes (p q : α → Prop) (items : List α) : Prop :=
  ∃ first second, [first, second].Sublist items ∧ p first ∧ q second

theorem Precedes.of_sublist (precedes : Precedes p q items) (inLonger : items.Sublist longer) :
    Precedes p q longer := by
  rcases precedes with ⟨first, second, inItems, isFirst, isSecond⟩
  exact ⟨first, second, inItems.trans inLonger, isFirst, isSecond⟩

theorem not_precedes_iff :
    ¬Precedes p q items ↔ items.Pairwise fun first second => p first → ¬q second := by
  rw [List.pairwise_iff_forall_sublist]
  constructor
  · intro apart first second inItems isFirst isSecond
    exact apart ⟨first, second, inItems, isFirst, isSecond⟩
  · rintro apart ⟨first, second, inItems, isFirst, isSecond⟩
    exact apart inItems isFirst isSecond

instance [DecidablePred p] [DecidablePred q] : Decidable (Precedes p q items) :=
  decidable_of_iff _ (not_iff_comm.mp not_precedes_iff)

/-- In lists one after the other, none of which has a pair of its own, the pairs are made by two
different lists. -/
theorem precedes_flatMap_iff {give : β → List α} (alone : ∀ item, ¬Precedes p q (give item))
    {givers : List β} :
    Precedes p q (givers.flatMap give) ↔
      Precedes (fun giver => ∃ item ∈ give giver, p item) (fun giver => ∃ item ∈ give giver, q item)
        givers := by
  rw [← not_iff_not, not_precedes_iff, not_precedes_iff, List.pairwise_flatMap]
  constructor
  · rintro ⟨_, apart⟩
    refine apart.imp ?_
    rintro first second kept ⟨item, item_mem, isFirst⟩ ⟨other, other_mem, isSecond⟩
    exact kept item item_mem other other_mem isFirst isSecond
  · intro apart
    refine ⟨fun giver _ => not_precedes_iff.mp (alone giver), apart.imp ?_⟩
    intro first second kept item item_mem other other_mem isFirst isSecond
    exact kept ⟨item, item_mem, isFirst⟩ ⟨other, other_mem, isSecond⟩

end Precedes

/-- The delivery strikes the note on the instrument, or releases it if `on` is false. -/
def Delivery.CallsAs (on : Bool) (instrument : String) (note : Note) (delivery : Delivery) : Prop :=
  delivery.calls instrument note = true ∧ delivery.event.on = on

/-- The note is struck on the instrument and then released. -/
def Swallows (log : List Delivery) (instrument : String) (note : Note) : Prop :=
  Precedes (Delivery.CallsAs true instrument note) (Delivery.CallsAs false instrument note) log

instance (on : Bool) (instrument : String) (note : Note) :
    DecidablePred (Delivery.CallsAs on instrument note) :=
  fun delivery => inferInstanceAs
    (Decidable (delivery.calls instrument note = true ∧ delivery.event.on = on))

instance (log : List Delivery) (instrument : String) (note : Note) :
    Decidable (Swallows log instrument note) :=
  inferInstanceAs (Decidable (Precedes _ _ log))

theorem Measure.mem_notesAt {measure : Measure} {on : Bool} {pulse : Nat} {note : Note} :
    note ∈ measure.notesAt on pulse ↔ measure.Schedules pulse on note := by
  unfold notesAt Schedules
  cases measure.timetable.at? pulse <;> simp [and_assoc]

instance (measure : Measure) (pulse : Nat) (on : Bool) (note : Note) :
    Decidable (measure.Schedules pulse on note) :=
  decidable_of_iff _ Measure.mem_notesAt

namespace Seat

variable {seat : Seat} {seats : List Seat} {on : Bool} {instrument : String} {note : Note}
  {pulse : Nat}

/-- The seat is one of the instrument, and its measure has the note at the pulse. -/
def Has (on : Bool) (pulse : Nat) (instrument : String) (note : Note) (seat : Seat) : Prop :=
  seat.instrument = instrument ∧ seat.measure.Schedules pulse on note

/-- A seat of the instrument strikes the note, and one behind it releases it. -/
def Collide (seats : List Seat) (pulse : Nat) (instrument : String) (note : Note) : Prop :=
  Precedes (Has true pulse instrument note) (Has false pulse instrument note) seats

instance : DecidablePred (Has on pulse instrument note) :=
  fun seat => inferInstanceAs
    (Decidable (seat.instrument = instrument ∧ seat.measure.Schedules pulse on note))

instance : Decidable (Collide seats pulse instrument note) :=
  inferInstanceAs (Decidable (Precedes _ _ seats))

theorem mem_call {delivery : Delivery} :
    delivery ∈ seat.call on pulse ↔ seat.measure.notesAt on pulse ≠ [] ∧
      delivery = ⟨seat.instrument, on, seat.measure.notesAt on pulse⟩ := by
  unfold call
  split <;> simp [*]

theorem mem_calls {delivery : Delivery} :
    delivery ∈ seat.calls pulse ↔ ∃ on, delivery ∈ seat.call on pulse := by
  simp [calls, Bool.exists_bool]

theorem calls_iff_has :
    Calls (seat.calls pulse) on instrument note ↔ seat.Has on pulse instrument note := by
  rw [Has, ← Measure.mem_notesAt]
  constructor
  · rintro ⟨delivery, delivery_mem, calls, rfl⟩
    rcases mem_calls.mp delivery_mem with ⟨_, called⟩
    rcases mem_call.mp called with ⟨_, rfl⟩
    simpa [Delivery.calls] using calls
  · rintro ⟨rfl, note_mem⟩
    have called := mem_call.mpr ⟨List.ne_nil_of_mem note_mem, rfl⟩
    exact ⟨_, mem_calls.mpr ⟨on, called⟩, by simpa [Delivery.calls] using note_mem, rfl⟩

/-- A seat on its own releases before it strikes. -/
theorem not_swallows_calls (seat : Seat) : ¬Swallows (seat.calls pulse) instrument note := by
  have single (on : Bool) : (seat.call on pulse).Pairwise fun first second =>
      first.CallsAs true instrument note → ¬second.CallsAs false instrument note := by
    unfold call
    split <;> simp
  refine not_precedes_iff.mpr (List.pairwise_append.mpr ⟨single false, single true, ?_⟩)
  intro first first_mem second _ struck
  rcases mem_call.mp first_mem with ⟨_, rfl⟩
  cases struck.2

/-- Seats that call one after the other swallow what they collide over. -/
theorem swallows_flatMap_iff :
    Swallows (seats.flatMap fun seat => seat.calls pulse) instrument note ↔
      Collide seats pulse instrument note := by
  have calling (on : Bool) : (fun seat : Seat => Calls (seat.calls pulse) on instrument note) =
      Has on pulse instrument note := funext fun seat => propext calls_iff_has
  rw [Swallows, precedes_flatMap_iff not_swallows_calls, Collide, ← calling true, ← calling false]
  rfl

theorem not_collide_of_nodup (single : (seats.map Seat.instrument).Nodup) :
    ¬Collide seats pulse instrument note := by
  refine not_precedes_iff.mpr ((List.pairwise_map.mp single).imp ?_)
  intro first second differ strikes releases
  exact differ (strikes.1.trans releases.1.symm)

end Seat

theorem Section.map_instrument_seats_sublist (sect : Section) (sectionMeasure : Nat) :
    ((sect.seats sectionMeasure).map Seat.instrument).Sublist
      (sect.parts.flatMap Part.instruments) := by
  rw [Section.seats, List.map_flatMap]
  refine List.Sublist.flatMap_right sect.parts ?_
  intro part _
  unfold Part.seats
  split
  · exact List.nil_sublist _
  · simp [Function.comp_def]

namespace Playback

/-- The seats that call in the measure of a playback, in the order in which they do. -/
def seats (playback : Playback) : List Seat :=
  match playback.section? with
  | none => []
  | some sect => sect.seats (playback.cursor.measure.getD 0)

theorem deliveries_eq_flatMap (playback : Playback) (pulse : Nat) :
    playback.deliveries pulse = playback.seats.flatMap fun seat => seat.calls pulse := by
  cases playing : playback.section? with
  | none => simp [deliveries, seats, playing]
  | some sect =>
      rw [deliveries_eq_seats playing, seats, playing]
      rfl

theorem nodup_seats {playback : Playback} (single : ∀ sect ∈ playback.score.sections,
    (sect.parts.flatMap Part.instruments).Nodup) :
    (playback.seats.map Seat.instrument).Nodup := by
  unfold seats
  split
  · exact List.nodup_nil
  · rename_i sect playing
    exact (single sect (List.mem_of_getElem? playing)).sublist
      (sect.map_instrument_seats_sublist _)

end Playback

namespace Rig

/-- A pulse swallows a note if the seats collide over it and the sink lives to hear all of them, and
only then. They never do if no section names an instrument twice. -/
theorem swallows_iff_collide (rig : Rig) (pulse : Nat) (instrument : String) (note : Note) :
    let step := rig.step (.pulses [pulse])
    let playback := step.after.player.playback
    (Swallows step.report.deliveries instrument note →
        Seat.Collide playback.seats pulse instrument note) ∧
      (Seat.Collide playback.seats pulse instrument note → step.report.result ≠ .panicked →
        Swallows step.report.deliveries instrument note) ∧
      ((∀ sect ∈ playback.score.sections, (sect.parts.flatMap Part.instruments).Nodup) →
        ¬Swallows step.report.deliveries instrument note) := by
  intro step playback
  have keeps : step.KeepsTo (.ofPulse rig.player pulse) :=
    keepsTo_ofPulse ⟨pulse, rfl⟩ (rig.played_singleton pulse)
  rcases keeps.exists_lost with ⟨lost, due_eq, complete⟩
  have called : step.report.deliveries ++ lost =
      playback.seats.flatMap fun seat => seat.calls pulse := by
    rw [← Playback.deliveries_eq_flatMap, ← due_eq, keeps.due_eq]
    exact congrArg (fun player => player.playback.deliveries pulse) keeps.player_eq.symm
  have collide (swallows : Swallows step.report.deliveries instrument note) :
      Seat.Collide playback.seats pulse instrument note := by
    rw [← Seat.swallows_flatMap_iff, ← called]
    exact swallows.of_sublist (List.sublist_append_left _ _)
  refine ⟨collide, ?_, ?_⟩
  · intro collides survived
    rw [complete survived, List.append_nil] at called
    rw [called]
    exact Seat.swallows_flatMap_iff.mpr collides
  · intro single swallows
    exact Seat.not_collide_of_nodup (Playback.nodup_seats single) (collide swallows)

/-- Middle C ends and starts again half-way through the measure of an instrument that its part names
twice, and of two instruments. -/
theorem swallows_iff_collide_twice :
    let playing (source : String) : Rig := ((fresh .standard none .accepting).runAll
      [.read source, .start, .pulses (List.range 48)]).1
    let twice := (playing "instruments X, X\nc c").step (.pulses [48])
    let once := (playing "instruments X, Y\nc c").step (.pulses [48])
    Swallows twice.report.deliveries "X" .middleC ∧
      ∀ instrument note, ¬Swallows once.report.deliveries instrument note := by
  intro playing twice once
  have collides : Seat.Collide twice.after.player.playback.seats 48 "X" .middleC := by
    decide +kernel
  have survived : twice.report.result ≠ .panicked := by
    decide +kernel
  have single : ∀ sect ∈ once.after.player.playback.score.sections,
      (sect.parts.flatMap Part.instruments).Nodup := by
    decide +kernel
  constructor
  · exact (swallows_iff_collide (playing "instruments X, X\nc c") 48 "X" .middleC).2.1 collides
      survived
  · intro instrument note
    exact (swallows_iff_collide (playing "instruments X, Y\nc c") 48 instrument note).2.2 single

/-- One part strikes middle C at the pulse at which another part of the same instrument lets go of
it. The part that lets go is the second one, and so it silences the note. -/
theorem swallows_between_parts :
    let source := "pattern a\ninstruments X\nd c\ninstruments X\nc ."
    let rig := ((fresh .standard none .accepting).runAll
      [.read source, .start, .pulses (List.range 48)]).1
    let deliveries := (rig.step (.pulses [48])).report.deliveries
    rig.Reachable ∧
      (Score.read .standard source).outcome = .ok rig.player.playback.score ∧
      deliveries = [⟨"X", .release [.ofMidi 62]⟩, ⟨"X", .strike [.middleC]⟩,
        ⟨"X", .release [.middleC]⟩] ∧
      Swallows deliveries "X" .middleC := by
  intro source rig deliveries
  refine ⟨⟨_, _, _, _, rfl⟩, ?_, ?_, ?_⟩
  all_goals decide +kernel

end Rig

end LiveScore
