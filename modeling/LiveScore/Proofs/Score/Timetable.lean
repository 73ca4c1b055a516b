import LiveScore.Score.Basic
import Mathlib.Data.List.Induction

/-!
# Timetables

A timetable is kept in ascending order of its pulses, so that each pulse has one entry. In an
ordered timetable, scheduling an event appends it to the batch of its pulse and leaves every other
pulse alone. A timetable that is built from a list of events therefore has at each pulse the events
of that pulse, in the order of the list.
-/

namespace LiveScore.Timetable

/-- The entries of a timetable are in ascending order, one for each pulse. -/
def Ordered (timetable : Timetable) : Prop :=
  timetable.Pairwise fun entry later => entry.1 < later.1

/-- The timetable of some events, each with its pulse, scheduled one after the other. -/
def ofEvents (events : List (Nat × ChordEvent)) : Timetable :=
  events.foldl (fun timetable event => timetable.schedule event.1 event.2) []

/-- What happens at a pulse, in order. -/
def batchAt (events : List (Nat × ChordEvent)) (pulse : Nat) : List ChordEvent :=
  (events.filter fun event => event.1 = pulse).map Prod.snd

@[simp]
theorem ofEvents_nil : ofEvents [] = [] := rfl

@[simp]
theorem ofEvents_append (events later : List (Nat × ChordEvent)) :
    ofEvents (events ++ later) =
      later.foldl (fun timetable event => timetable.schedule event.1 event.2) (ofEvents events) :=
  List.foldl_append

theorem ofEvents_concat (events : List (Nat × ChordEvent)) (event : Nat × ChordEvent) :
    ofEvents (events ++ [event]) = (ofEvents events).schedule event.1 event.2 := by
  simp

@[simp]
theorem batchAt_append (events later : List (Nat × ChordEvent)) (pulse : Nat) :
    batchAt (events ++ later) pulse = batchAt events pulse ++ batchAt later pulse := by
  simp [batchAt]

theorem mem_batchAt {events : List (Nat × ChordEvent)} {pulse : Nat} {event : ChordEvent} :
    event ∈ batchAt events pulse ↔ (pulse, event) ∈ events := by
  simp [batchAt]

/-- An entry after scheduling is an old one at another pulse, or that of the event. -/
theorem mem_schedule {pulse : Nat} {event : ChordEvent} {timetable : Timetable}
    {entry : Nat × List ChordEvent} (entry_mem : entry ∈ timetable.schedule pulse event) :
    entry ∈ timetable ∨ entry.1 = pulse ∧ event ∈ entry.2 := by
  induction timetable with
  | nil =>
      simp only [schedule, List.mem_singleton] at entry_mem
      simp [entry_mem]
  | cons first rest ih =>
      rcases first with ⟨other, batch⟩
      simp only [schedule] at entry_mem
      split at entry_mem
      · rcases List.mem_cons.mp entry_mem with rfl | old
        · simp
        · exact Or.inl old
      · split at entry_mem
        · rename_i same
          rcases List.mem_cons.mp entry_mem with rfl | old
          · simp [same]
          · exact Or.inl (List.mem_cons_of_mem _ old)
        · rcases List.mem_cons.mp entry_mem with rfl | later
          · exact Or.inl List.mem_cons_self
          · exact (ih later).imp_left (List.mem_cons_of_mem _)

theorem ordered_schedule {timetable : Timetable} (ordered : timetable.Ordered) (pulse : Nat)
    (event : ChordEvent) : (timetable.schedule pulse event).Ordered := by
  induction timetable with
  | nil => simp [schedule, Ordered]
  | cons first rest ih =>
      rcases first with ⟨other, batch⟩
      rcases List.pairwise_cons.mp ordered with ⟨first_lt, rest_ordered⟩
      simp only [schedule]
      split
      · rename_i before
        refine List.pairwise_cons.mpr ⟨?_, ordered⟩
        intro entry entry_mem
        rcases List.mem_cons.mp entry_mem with rfl | later
        · exact before
        · exact Nat.lt_trans before (first_lt entry later)
      · split
        · exact List.pairwise_cons.mpr ⟨first_lt, rest_ordered⟩
        · refine List.pairwise_cons.mpr ⟨?_, ih rest_ordered⟩
          intro entry entry_mem
          rcases mem_schedule entry_mem with old | ⟨atPulse, _⟩
          · exact first_lt entry old
          · simp only
            omega

@[simp]
theorem at?_nil (pulse : Nat) : at? [] pulse = none := rfl

@[simp]
theorem at?_cons (key : Nat) (batch : List ChordEvent) (rest : Timetable) (pulse : Nat) :
    at? ((key, batch) :: rest) pulse = if pulse = key then some batch else at? rest pulse := by
  by_cases same : pulse = key
  · simp [at?, same]
  · simp [at?, List.lookup_cons, same, beq_eq_false_iff_ne.mpr same]

/-- Pulses before all entries have no batch. -/
theorem at?_eq_none_of_lt {timetable : Timetable} {pulse : Nat}
    (before : ∀ entry ∈ timetable, pulse < entry.1) : timetable.at? pulse = none := by
  refine List.lookup_eq_none_iff.mpr ?_
  intro entry entry_mem
  exact bne_iff_ne.mpr (Nat.ne_of_lt (before entry entry_mem))

/-- An entry of an ordered timetable is found at its pulse. -/
theorem Ordered.at?_eq_some_of_mem {timetable : Timetable} (ordered : timetable.Ordered)
    {entry : Nat × List ChordEvent} (entry_mem : entry ∈ timetable) :
    timetable.at? entry.1 = some entry.2 := by
  induction timetable with
  | nil => cases entry_mem
  | cons first rest ih =>
      rcases List.pairwise_cons.mp ordered with ⟨first_lt, rest_ordered⟩
      rw [at?_cons]
      rcases List.mem_cons.mp entry_mem with rfl | later
      · rw [if_pos rfl]
      · have differs := Nat.ne_of_gt (first_lt entry later)
        rw [if_neg differs, ih rest_ordered later]

/-- Scheduling appends to the batch of the pulse and changes no other batch. -/
theorem at?_schedule {timetable : Timetable} (ordered : timetable.Ordered) (pulse other : Nat)
    (event : ChordEvent) :
    (timetable.schedule pulse event).at? other =
      if other = pulse then some ((timetable.at? pulse).getD [] ++ [event])
      else timetable.at? other := by
  induction timetable with
  | nil => simp [schedule]
  | cons first rest ih =>
      rcases first with ⟨key, batch⟩
      rcases List.pairwise_cons.mp ordered with ⟨first_lt, rest_ordered⟩
      simp only [schedule]
      split
      · rename_i before
        have absent : at? ((key, batch) :: rest) pulse = none := by
          refine at?_eq_none_of_lt ?_
          intro entry entry_mem
          rcases List.mem_cons.mp entry_mem with rfl | later
          · exact before
          · exact Nat.lt_trans before (first_lt entry later)
        rw [absent]
        simp
      · split
        · rename_i same
          subst same
          by_cases atPulse : other = pulse <;> simp [atPulse]
        · rename_i differs
          rw [at?_cons, at?_cons, at?_cons, ih rest_ordered, if_neg differs]
          by_cases atKey : other = key
          · subst atKey
            simp [Ne.symm differs]
          · simp [atKey]

theorem ordered_ofEvents (events : List (Nat × ChordEvent)) : (ofEvents events).Ordered := by
  induction events using List.reverseRecOn with
  | nil => exact List.Pairwise.nil
  | append_singleton events event ih =>
      rw [ofEvents_concat]
      exact ordered_schedule ih _ _

/-- Every entry of a timetable has an event, and each of its events was scheduled there. -/
theorem ofEvents_entries (events : List (Nat × ChordEvent)) :
    ∀ entry ∈ ofEvents events, ∃ event, (entry.1, event) ∈ events := by
  induction events using List.reverseRecOn with
  | nil => simp
  | append_singleton events event ih =>
      intro entry entry_mem
      rw [ofEvents_concat] at entry_mem
      rcases mem_schedule entry_mem with old | ⟨atPulse, _⟩
      · rcases ih entry old with ⟨scheduled, scheduled_mem⟩
        exact ⟨scheduled, List.mem_append_left _ scheduled_mem⟩
      · exact ⟨event.2, by simp [atPulse]⟩

/-- At each pulse stand the events of that pulse in the order in which they were scheduled; a pulse
without events has no entry. -/
theorem at?_ofEvents (events : List (Nat × ChordEvent)) (pulse : Nat) :
    (ofEvents events).at? pulse =
      if batchAt events pulse = [] then none else some (batchAt events pulse) := by
  induction events using List.reverseRecOn with
  | nil => rfl
  | append_singleton events event ih =>
      rw [ofEvents_concat, at?_schedule (ordered_ofEvents events), batchAt_append]
      by_cases atPulse : pulse = event.1
      · have own : batchAt [event] pulse = [event.2] := by simp [batchAt, atPulse]
        subst atPulse
        by_cases silent : batchAt events event.1 = [] <;> simp [ih, own, silent]
      · have own : batchAt [event] pulse = [] := by simp [batchAt, Ne.symm atPulse]
        simp [atPulse, own, ih]

end LiveScore.Timetable
