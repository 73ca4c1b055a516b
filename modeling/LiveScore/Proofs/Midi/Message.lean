import LiveScore.Midi.Message
import LiveScore.Proofs.Pitch.Range
import Mathlib.Data.List.Basic

/-!
# What messages do

The status of a message says in its upper half whether the message starts or ends a note, and in its
lower half on which channel. Every number below 128 is the number of a note, which is written back
as that number, so the messages that release remembered numbers carry just these numbers.

A connection is silent once each message that started a note is followed by one that ends it.
-/

namespace LiveScore

namespace MidiMessage

/-- The kind of the message: its status less the channel. -/
def kind (message : MidiMessage) : Nat := message.status / 16 * 16

/-- The channel that a message is for. -/
def channel (message : MidiMessage) : Nat := message.status % 16

/-- The message is a note-on. -/
def StartsNote (message : MidiMessage) : Prop := message.kind = noteOn

/-- The message ends the note that another message starts. -/
structure Ends (off start : MidiMessage) : Prop where
  kind_eq : off.kind = noteOff
  channel_eq : off.channel = start.channel
  note_eq : off.note = start.note

/-- After each message that starts a note there is one that ends it. -/
def Silenced (sent : List MidiMessage) : Prop :=
  ∀ earlier start later, sent = earlier ++ start :: later → start.StartsNote →
    ∃ off ∈ later, off.Ends start

variable {message off start : MidiMessage} {event : ChordEvent} {channel velocity : Nat}

instance : Decidable message.StartsNote :=
  inferInstanceAs (Decidable (message.kind = noteOn))

instance : Decidable (off.Ends start) :=
  decidable_of_iff (off.kind = noteOff ∧ off.channel = start.channel ∧ off.note = start.note)
    ⟨fun ⟨kind, channel, note⟩ => ⟨kind, channel, note⟩,
      fun ends => ⟨ends.kind_eq, ends.channel_eq, ends.note_eq⟩⟩

theorem channel_of_mem_ofChord (message_mem : message ∈ ofChord event channel velocity) :
    message.channel = channel % 16 := by
  simp only [ofChord, List.mem_map] at message_mem
  rcases message_mem with ⟨number, _, rfl⟩
  simp only [MidiMessage.channel, noteOn, noteOff]
  split <;> omega

theorem note_lt_of_mem_ofChord (message_mem : message ∈ ofChord event channel velocity) :
    message.note < 128 := by
  simp only [ofChord, List.mem_map] at message_mem
  rcases message_mem with ⟨number, _, rfl⟩
  exact Nat.mod_lt number (by decide)

/-- Releasing the notes of numbers gives one message for each number. -/
theorem ofChord_release_ofMidi {numbers : List Nat}
    (inRange : ∀ number ∈ numbers, number < 128) (channel velocity : Nat) :
    ofChord (.release (numbers.map Note.ofMidi)) channel velocity =
      numbers.map fun number => ⟨noteOff + channel % 16, number, velocity % 128⟩ := by
  have readBack : (numbers.map Note.ofMidi).filterMap Note.midi? = numbers := by
    rw [List.filterMap_map]
    calc
      numbers.filterMap (Note.midi? ∘ Note.ofMidi) = numbers.filterMap some :=
        List.filterMap_congr fun number number_mem => Note.midi?_ofMidi (inRange number number_mem)
      _ = numbers := List.filterMap_some
  simp only [ofChord, ChordEvent.release, readBack]
  apply List.map_congr_left
  intro number number_mem
  rw [Nat.mod_eq_of_lt (inRange number number_mem)]
  rfl

theorem silenced_nil : Silenced [] := by
  intro earlier start later split_eq _
  simp at split_eq

theorem silenced_cons {rest : List MidiMessage} :
    Silenced (message :: rest) ↔
      (message.StartsNote → ∃ off ∈ rest, off.Ends message) ∧ Silenced rest := by
  constructor
  · intro silenced
    refine ⟨silenced [] message rest rfl, ?_⟩
    intro earlier start later split_eq
    exact silenced (message :: earlier) start later (by rw [split_eq, List.cons_append])
  · rintro ⟨ended, restSilenced⟩ earlier start later split_eq starts
    cases earlier with
    | nil =>
        rw [List.nil_append, List.cons.injEq] at split_eq
        rcases split_eq with ⟨rfl, rfl⟩
        exact ended starts
    | cons first earlier =>
        rw [List.cons_append, List.cons.injEq] at split_eq
        exact restSilenced earlier start later split_eq.2 starts

instance decidableSilenced : DecidablePred Silenced
  | [] => isTrue silenced_nil
  | message :: rest =>
    have : Decidable (Silenced rest) := decidableSilenced rest
    decidable_of_iff ((message.StartsNote → ∃ off ∈ rest, off.Ends message) ∧ Silenced rest)
      silenced_cons.symm

/-- Messages that end all notes that were started before them, and start none, silence. -/
theorem silenced_append {sent offs : List MidiMessage}
    (ended : ∀ start ∈ sent, start.StartsNote → ∃ off ∈ offs, off.Ends start)
    (startsNone : ∀ off ∈ offs, ¬off.StartsNote) : Silenced (sent ++ offs) := by
  induction sent with
  | nil =>
      intro earlier start later split_eq starts
      have start_mem : start ∈ offs := by
        rw [← List.nil_append offs, split_eq]
        exact List.mem_append_right _ List.mem_cons_self
      exact absurd starts (startsNone start start_mem)
  | cons start rest ih =>
      rcases List.forall_mem_cons.mp ended with ⟨first, restEnded⟩
      refine silenced_cons.mpr ⟨?_, ih restEnded⟩
      intro starts
      rcases first starts with ⟨off, off_mem, ends⟩
      exact ⟨off, List.mem_append_right rest off_mem, ends⟩

end MidiMessage

end LiveScore
