import LiveScore.Proofs.Click.Length
import LiveScore.Proofs.Click.Rendering

/-!
# Clicks in time

A voice is asked to queue clicks, to follow tempos and to render, in any order and at any times; the
time may step back. A click is known by the number of the call that queued it. It waits until a
render comes when it is due or later, and that render takes it off the queue and starts the tone at
its first frame. A render that takes no click goes on with the tone.

How long the tone sounds is a matter of accounts: what a render adds to and what is left of the tone
behind it come to what was left before, so from one start to the next the tone adds to as many
frames at most as a click has.
-/

namespace LiveScore

namespace ClickVoice

section Queue

variable {voice : ClickVoice} {now : Nat}

/-- Wherever the voice stands, a render at this time starts the tone at its first frame. -/
def Restarts (voice : ClickVoice) (now : Nat) : Prop :=
  ∀ remembered data channels,
    ({ voice with position := remembered } : ClickVoice).render now data channels =
      ({ voice.consume now with position := some 0 } : ClickVoice).sound data channels

theorem consume_of_due (due : ∃ due ∈ voice.pending, due ≤ now) :
    voice.consume now = { voice with
      pending := voice.pending.filter fun due => now < due
      position := some 0 } := by
  have fewer : (voice.pending.filter fun due => now < due).length < voice.pending.length := by
    rw [List.length_filter_lt_length_iff_exists]
    simpa using due
  simp [consume, fewer]

theorem restarts_iff : voice.Restarts now ↔ ∃ due ∈ voice.pending, due ≤ now := by
  constructor
  · intro restarts
    by_contra waiting
    push Not at waiting
    -- A silent voice stays silent if no click is due.
    have silent : ({ voice with position := none } : ClickVoice).consume now = _ :=
      consume_of_forall_lt waiting
    have started := congrArg (fun rendered => rendered.1.position) (restarts none [] 0)
    rw [render_eq, silent] at started
    simp [sound, mix_nil] at started
  · intro due remembered data channels
    have consumed : ({ voice with position := remembered } : ClickVoice).consume now = _ :=
      consume_of_due due
    rw [render_eq, consumed, consume_of_due due]

/-- Without a click that is due a render goes on where the voice stands. -/
theorem consume_of_not_restarts (goesOn : ¬voice.Restarts now) : voice.consume now = voice := by
  rw [restarts_iff] at goesOn
  push Not at goesOn
  exact consume_of_forall_lt goesOn

end Queue

end ClickVoice

/-- Something that is asked of a voice. -/
inductive VoiceCall where
  | trigger (due : Nat)
  | setTempo (bpm : Binary64)
  | render (now : Nat) (data : List Float32) (channels : Nat)

/-- A click that was queued. -/
structure Click where
  /-- The number of the call that queued it. -/
  number : Nat
  due : Nat
deriving DecidableEq

namespace VoiceCall

/-- The instant from which a call wants a click to sound. -/
def due? : VoiceCall → Option Nat
  | trigger due => some due
  | _ => none

/-- The call is a render, and the time has come for a click that is due then. -/
def reaches (due : Nat) : VoiceCall → Bool
  | render now _ _ => due ≤ now
  | _ => false

theorem due?_eq_some_iff {call : VoiceCall} {due : Nat} :
    call.due? = some due ↔ call = .trigger due := by
  cases call <;> simp [due?]

theorem reaches_iff {call : VoiceCall} {due : Nat} :
    call.reaches due = true ↔
      ∃ now data channels, call = .render now data channels ∧ due ≤ now := by
  cases call <;> simp [reaches]

end VoiceCall

namespace ClickVoice

variable {voice : ClickVoice} {calls : List VoiceCall} {call : VoiceCall} {click : Click}
  {number now : Nat}

/-- The clicks that some calls queue, in their order. -/
def queued (calls : List VoiceCall) : List Click :=
  calls.zipIdx.filterMap fun entry => entry.1.due?.map (Click.mk entry.2)

/-- The clicks that no render has reached when the calls are over. -/
def waiting (calls : List VoiceCall) : List Click :=
  (queued calls).filter fun click =>
    (calls.drop (click.number + 1)).all fun later => !later.reaches click.due

/-- A call behind the one that queued the click is a render at or after the time when it is due. -/
def Reaches (calls : List VoiceCall) (click : Click) (number : Nat) : Prop :=
  click.number < number ∧
    ∃ now data channels, calls[number]? = some (.render now data channels) ∧ click.due ≤ now

theorem mem_queued_iff :
    click ∈ queued calls ↔ calls[click.number]? = some (.trigger click.due) := by
  rcases click with ⟨number, due⟩
  simp only [queued, List.mem_filterMap, Prod.exists, List.mem_zipIdx_iff_getElem?]
  constructor
  · rintro ⟨call, index, call_eq, click_eq⟩
    simp only [Option.map_eq_some_iff, VoiceCall.due?_eq_some_iff, Click.mk.injEq] at click_eq
    rcases click_eq with ⟨_, rfl, rfl, rfl⟩
    exact call_eq
  · intro call_eq
    exact ⟨_, number, call_eq, rfl⟩

theorem mem_waiting_iff : click ∈ waiting calls ↔
    calls[click.number]? = some (.trigger click.due) ∧
      ∀ number, ¬Reaches calls click number := by
  rw [waiting, List.mem_filter, mem_queued_iff]
  apply and_congr_right
  intro _
  simp only [List.all_eq_true, List.mem_iff_getElem?, List.getElem?_drop, Bool.not_eq_true']
  constructor
  · rintro unreached number ⟨behind, now, data, channels, call_eq, due_le⟩
    have index_eq : click.number + 1 + (number - (click.number + 1)) = number := by omega
    have kept := unreached _ ⟨number - (click.number + 1), by rw [index_eq, call_eq]⟩
    simp [VoiceCall.reaches] at kept
    omega
  · rintro unreached call ⟨index, call_eq⟩
    rw [← Bool.not_eq_true, VoiceCall.reaches_iff]
    rintro ⟨now, data, channels, rfl, due_le⟩
    exact unreached _ ⟨by omega, now, data, channels, call_eq, due_le⟩

theorem mem_waiting_take_iff : click ∈ waiting (calls.take number) ↔
    calls[click.number]? = some (.trigger click.due) ∧ click.number < number ∧
      ∀ earlier < number, ¬Reaches calls click earlier := by
  have reaches_take (earlier : Nat) : Reaches (calls.take number) click earlier ↔
      earlier < number ∧ Reaches calls click earlier := by
    by_cases before : earlier < number
    · simp [Reaches, before, List.getElem?_take_of_lt before]
    · simp [Reaches, before]
  rw [mem_waiting_iff]
  by_cases before : click.number < number
  · simp [before, reaches_take, List.getElem?_take_of_lt before]
  · simp [before]

/-- A click leaves the queue in the first call that reaches it. -/
theorem leaves_iff :
    click ∈ waiting (calls.take number) ∧ click ∉ waiting (calls.take (number + 1)) ↔
      calls[click.number]? = some (.trigger click.due) ∧ Reaches calls click number ∧
        ∀ earlier < number, ¬Reaches calls click earlier := by
  rw [mem_waiting_take_iff, mem_waiting_take_iff]
  constructor
  · rintro ⟨⟨queued, before, unreached⟩, taken⟩
    refine ⟨queued, ?_, unreached⟩
    by_contra unreachedNow
    apply taken
    refine ⟨queued, by omega, ?_⟩
    intro earlier earlier_lt
    rcases Nat.lt_or_eq_of_le (Nat.le_of_lt_succ earlier_lt) with older | rfl
    · exact unreached earlier older
    · exact unreachedNow
  · rintro ⟨queued, reached, unreached⟩
    refine ⟨⟨queued, reached.1, unreached⟩, ?_⟩
    rintro ⟨_, _, unreachedSince⟩
    exact unreachedSince number (Nat.lt_succ_self number) reached

theorem queued_concat (calls : List VoiceCall) (call : VoiceCall) :
    queued (calls ++ [call]) = queued calls ++ (call.due?.map (Click.mk calls.length)).toList := by
  cases call <;> simp [queued, List.zipIdx_append, VoiceCall.due?]

theorem number_lt_of_mem_queued (click_mem : click ∈ queued calls) :
    click.number < calls.length :=
  (List.getElem?_eq_some_iff.mp (mem_queued_iff.mp click_mem)).1

/-- A call takes the clicks that it reaches, and may queue one of its own. -/
theorem waiting_concat (calls : List VoiceCall) (call : VoiceCall) :
    waiting (calls ++ [call]) = (waiting calls).filter (fun click => !call.reaches click.due) ++
      (call.due?.map (Click.mk calls.length)).toList := by
  rw [waiting, waiting, queued_concat, List.filter_append, List.filter_filter]
  apply congrArg₂ (· ++ ·)
  · apply List.filter_congr
    intro click click_mem
    have within : click.number + 1 ≤ calls.length := number_lt_of_mem_queued click_mem
    simp [List.drop_append_of_le_length within, Bool.and_comm]
  · cases call.due? <;> simp

/-- Asks something of a voice; what is rendered is left out. -/
def serve (voice : ClickVoice) : VoiceCall → ClickVoice
  | .trigger due => voice.trigger due
  | .setTempo bpm => voice.setTempo bpm
  | .render now data channels => (voice.render now data channels).1

/-- The voice when some calls have been served. -/
def after (voice : ClickVoice) (calls : List VoiceCall) : ClickVoice := calls.foldl serve voice

theorem after_concat (voice : ClickVoice) (calls : List VoiceCall) (call : VoiceCall) :
    voice.after (calls ++ [call]) = (voice.after calls).serve call := by
  simp [after]

theorem pending_serve (voice : ClickVoice) (call : VoiceCall) :
    (voice.serve call).pending =
      voice.pending.filter (fun due => !call.reaches due) ++ call.due?.toList := by
  cases call with
  | trigger due => simp [serve, trigger, VoiceCall.reaches, VoiceCall.due?]
  | setTempo bpm => simp [serve, setTempo, VoiceCall.reaches, VoiceCall.due?]
  | render now data channels =>
      simp [serve, render_eq, pending_sound, consume, VoiceCall.reaches, VoiceCall.due?,
        ← decide_not]

/-- The queue of a new voice holds the clicks that wait. -/
theorem pending_after (empty : voice.pending = []) (calls : List VoiceCall) :
    (voice.after calls).pending = (waiting calls).map Click.due := by
  induction calls using List.reverseRecOn with
  | nil => simpa [waiting, queued, after] using empty
  | append_singleton calls call ih =>
      rw [after_concat, pending_serve, ih, waiting_concat]
      cases call.due? <;> simp [List.filter_map, Function.comp_def]

/-- The frames to which a call adds sound. -/
def framesIn (voice : ClickVoice) : VoiceCall → Nat
  | .render now data channels => (voice.consume now).soundingFrames data channels
  | _ => 0

/-- The frames to which calls add sound. -/
def soundedFrames (voice : ClickVoice) : List VoiceCall → Nat
  | [] => 0
  | call :: rest => voice.framesIn call + (voice.serve call).soundedFrames rest

/-- The call neither tells a tempo nor starts the tone over. -/
def Continues (voice : ClickVoice) : VoiceCall → Prop
  | .trigger _ => True
  | .setTempo _ => False
  | .render now _ _ => ¬voice.Restarts now

/-- All through the calls the tone goes on at one tempo. -/
def Undisturbed (voice : ClickVoice) (calls : List VoiceCall) : Prop :=
  ∀ before call later, calls = before ++ call :: later → (voice.after before).Continues call

theorem Undisturbed.head {rest : List VoiceCall} (undisturbed : voice.Undisturbed (call :: rest)) :
    voice.Continues call :=
  undisturbed [] call rest rfl

theorem Undisturbed.tail {rest : List VoiceCall} (undisturbed : voice.Undisturbed (call :: rest)) :
    (voice.serve call).Undisturbed rest := by
  intro before next later split
  exact undisturbed (call :: before) next later (by simp [split])

theorem framesLeft_serve (continues : voice.Continues call) :
    voice.framesIn call + (voice.serve call).framesLeft = voice.framesLeft := by
  cases call with
  | trigger due => simp [framesIn, serve, trigger, framesLeft]
  | setTempo bpm => exact continues.elim
  | render now data channels =>
      have unmoved := consume_of_not_restarts continues
      simpa [framesIn, serve, render_eq, unmoved] using voice.framesLeft_sound data channels

/-- While the tone goes on at one tempo, what is added was left and is left no longer. -/
theorem framesLeft_after (undisturbed : voice.Undisturbed calls) :
    voice.soundedFrames calls + (voice.after calls).framesLeft = voice.framesLeft := by
  induction calls generalizing voice with
  | nil => simp [soundedFrames, after]
  | cons call rest ih =>
      have first := framesLeft_serve undisturbed.head
      have later := ih undisturbed.tail
      simp only [soundedFrames, after, List.foldl_cons] at later ⊢
      omega

theorem soundedFrames_le (now : Nat) (data : List Float32) (channels : Nat)
    (undisturbed : (voice.render now data channels).1.Undisturbed calls) :
    voice.soundedFrames (.render now data channels :: calls) ≤ voice.length := by
  have first := (voice.consume now).framesLeft_sound data channels
  have bound : (voice.consume now).framesLeft ≤ voice.length := (voice.consume now).framesLeft_le
  have later := framesLeft_after undisturbed
  simp only [soundedFrames, framesIn, serve, render_eq] at later ⊢
  omega

theorem sampleRate_serve (voice : ClickVoice) (call : VoiceCall) :
    (voice.serve call).sampleRate = voice.sampleRate := by
  cases call with
  | trigger due => rfl
  | setTempo bpm => rfl
  | render now data channels =>
      simp only [serve, render_eq, sound]
      split <;> rfl

/-- The length is that of some tempo. -/
theorem exists_length_eq (sampleRate : Nat) (calls : List VoiceCall) :
    ((ofSampleRate sampleRate).after calls).sampleRate = sampleRate ∧
      ∃ bpm, ((ofSampleRate sampleRate).after calls).length = lengthAt sampleRate bpm := by
  induction calls using List.reverseRecOn with
  | nil => exact ⟨rfl, startTempo, rfl⟩
  | append_singleton calls call ih =>
      rcases ih with ⟨sampleRate_eq, bpm, length_eq⟩
      rw [after_concat]
      refine ⟨(sampleRate_serve _ _).trans sampleRate_eq, ?_⟩
      cases call with
      | trigger due => exact ⟨bpm, length_eq⟩
      | setTempo told => exact ⟨told, by simp [serve, setTempo, sampleRate_eq]⟩
      | render now data channels =>
          refine ⟨bpm, Eq.trans ?_ length_eq⟩
          simp only [serve, render_eq, sound]
          split <;> rfl

/-- A new voice that was asked for anything holds the clicks that no render has reached since they
were queued, and each click leaves the queue in the first render that comes when it is due or later.
A render starts the tone over exactly if a click that waits is due, and otherwise goes on with it.
From one start to the next, at one tempo, the tone adds to as many frames at most as a click has:
one at least, and otherwise thirty milliseconds of them at most, at any tempo. -/
theorem clicks_in_time (sampleRate : Nat) (isWord : sampleRate < 4294967296)
    (calls : List VoiceCall) :
    let voice := (ofSampleRate sampleRate).after calls
    voice.pending = (waiting calls).map Click.due ∧
      (∀ click number,
        click ∈ waiting (calls.take number) ∧ click ∉ waiting (calls.take (number + 1)) ↔
          calls[click.number]? = some (.trigger click.due) ∧ Reaches calls click number ∧
            ∀ earlier < number, ¬Reaches calls click earlier) ∧
      (∀ now, voice.Restarts now ↔ ∃ click ∈ waiting calls, click.due ≤ now) ∧
      (∀ now data channels,
        (¬voice.Restarts now → voice.render now data channels = voice.sound data channels) ∧
          (voice.render now data channels).2 = data.mapIdx fun index sample =>
            if index / max channels 1 < voice.framesIn (.render now data channels) then
              sample +
                voice.sample ((voice.consume now).position.getD 0 + index / max channels 1)
            else sample) ∧
      (∀ now data channels later, (voice.render now data channels).1.Undisturbed later →
        voice.soundedFrames (.render now data channels :: later) ≤ voice.length) ∧
      1 ≤ voice.length ∧ voice.length ≤ max 1 (sampleRate * 30 / 1000) ∧
      ∀ bpm : Binary64, (Duration.ofSeconds? (60 / bpm.maximum 1 / 8)).isSome := by
  intro voice
  have queue : voice.pending = (waiting calls).map Click.due := pending_after rfl calls
  rcases exists_length_eq sampleRate calls with ⟨_, bpm, length_eq⟩
  refine ⟨queue, ?_, ?_, ?_, ?_, ?_, ?_, ?_⟩
  · intro click number
    exact leaves_iff
  · intro now
    rw [restarts_iff, queue]
    simp
  · intro now data channels
    refine ⟨?_, ?_⟩
    · intro goesOn
      rw [render_eq, consume_of_not_restarts goesOn]
    · rw [render_eq, sound_snd]
      rfl
  · intro now data channels later
    exact soundedFrames_le now data channels
  · rw [length_eq]
    exact Nat.le_max_left _ _
  · rw [length_eq]
    exact lengthAt_le isWord bpm
  · intro bpm
    rcases exists_eighthOfBeat bpm with ⟨eighth, found, _⟩
    simp [found]

/-- Of three clicks one is reached. Time steps back, and a click that is queued late but due early
starts the tone again. -/
theorem clicks_in_time_stepping_back :
    let calls : List VoiceCall := [.trigger 10, .trigger 30, .render 20 [0, 0] 2, .trigger 5,
      .setTempo .nan, .render 4 [0] 0]
    let voice := (ofSampleRate 48000).after calls
    48000 < 4294967296 ∧ voice.pending = [30, 5] ∧ voice.length ≤ 1440 ∧
      voice.Restarts 5 ∧ ¬voice.Restarts 4 := by
  intro calls voice
  have isWord : 48000 < 4294967296 := by decide
  rcases clicks_in_time 48000 isWord calls with
    ⟨queue, _, restarts_iff, _, _, _, length_le, _⟩
  have waiting_eq : waiting calls = [⟨1, 30⟩, ⟨3, 5⟩] := rfl
  rw [waiting_eq] at queue restarts_iff
  refine ⟨isWord, queue, length_le, ?_, ?_⟩
  · rw [restarts_iff]
    simp
  · rw [restarts_iff]
    simp

end ClickVoice

end LiveScore
