import LiveScore.Click.Voice
import Mathlib.Algebra.Order.Ring.Nat

/-!
# Rendering frame by frame

Rendering takes the clicks that are due off the queue and then mixes the tone that sounds, which
adds to as many frames of the buffer as are left of the tone and leaves the others alone.

A buffer may be cut between any two frames: mixing goes on where it was, and the clicks that were
due are gone, so nothing starts over. The voice forgets a tone that has run out only at the first
frame behind it. A cut right there leaves it at a frame beyond the tone, which comes to the same.
-/

namespace LiveScore.ClickVoice

variable {voice : ClickVoice} {channels position now index : Nat}
  {first second data : List Float32}

theorem mix_nil (voice : ClickVoice) (channels position : Nat) :
    voice.mix channels position [] = (some position, []) := by
  simp [mix]

theorem mix_of_length_le (ended : voice.length ≤ position) (nonempty : data ≠ []) :
    voice.mix channels position data = (none, data) := by
  cases data with
  | nil => exact absurd rfl nonempty
  | cons sample rest => simp [mix, ended]

/-- One frame is mixed, which is cut if the buffer ends in it. -/
theorem mix_of_lt_length (sounding : position < voice.length) (nonempty : data ≠ []) :
    voice.mix channels position data =
      ((voice.mix channels (position + 1) (data.drop (channels + 1))).1,
        (data.take (channels + 1)).map (· + voice.sample position) ++
          (voice.mix channels (position + 1) (data.drop (channels + 1))).2) := by
  cases data with
  | nil => exact absurd rfl nonempty
  | cons sample rest =>
      rw [mix, if_neg (Nat.not_le.mpr sounding)]
      rfl

/-- Induction along the frames of a buffer, as far as the tone sounds. -/
theorem mix_induction (voice : ClickVoice) (channels : Nat) {motive : Nat → List Float32 → Prop}
    (nil : ∀ position, motive position [])
    (ended : ∀ position data, data ≠ [] → voice.length ≤ position → motive position data)
    (frame : ∀ position data, data ≠ [] → position < voice.length →
      motive (position + 1) (data.drop (channels + 1)) → motive position data)
    (position : Nat) (data : List Float32) : motive position data := by
  fun_induction voice.mix channels position data with
  | case1 position => exact nil position
  | case2 position sample rest ended' => exact ended position _ (List.cons_ne_nil _ _) ended'
  | case3 position sample rest sounding _ _ _ _ ih =>
      exact frame position _ (List.cons_ne_nil _ _) (Nat.lt_of_not_le sounding) ih

/-- The tone depends neither on the place that the voice remembers nor on the queue. -/
theorem mix_congr (remembered : Option Nat) (pending : List Nat) (position : Nat)
    (data : List Float32) :
    ({ voice with position := remembered, pending } : ClickVoice).mix channels position data =
      voice.mix channels position data := by
  induction position, data using mix_induction voice channels with
  | nil position => simp only [mix_nil]
  | ended position data nonempty ended =>
      rw [mix_of_length_le ended nonempty]
      exact mix_of_length_le ended nonempty
  | frame position data nonempty sounding ih =>
      rw [mix_of_lt_length sounding nonempty, ← ih]
      exact mix_of_lt_length sounding nonempty

/-- A buffer that is cut between two frames: the second piece goes on where the first one came to,
and stays as it is if the tone ran out before. -/
theorem mix_append (aligned : channels + 1 ∣ first.length) (second : List Float32) :
    voice.mix channels position (first ++ second) =
      match voice.mix channels position first with
      | (none, mixed) => (none, mixed ++ second)
      | (some reached, mixed) =>
        let behind := voice.mix channels reached second
        (behind.1, mixed ++ behind.2) := by
  induction position, first using mix_induction voice channels with
  | nil position => simp [mix_nil]
  | ended position first nonempty ended =>
      have longer : first ++ second ≠ [] := List.append_ne_nil_of_left_ne_nil nonempty second
      rw [mix_of_length_le ended nonempty, mix_of_length_le ended longer]
  | frame position first nonempty sounding ih =>
      have longer : first ++ second ≠ [] := List.append_ne_nil_of_left_ne_nil nonempty second
      have frame_le : channels + 1 ≤ first.length :=
        Nat.le_of_dvd (List.length_pos_iff.mpr nonempty) aligned
      have aligned' : channels + 1 ∣ (first.drop (channels + 1)).length := by
        rw [List.length_drop]
        exact Nat.dvd_sub aligned (Nat.dvd_refl _)
      rw [mix_of_lt_length sounding nonempty, mix_of_lt_length sounding longer,
        List.take_append_of_le_length frame_le, List.drop_append_of_le_length frame_le, ih aligned']
      rcases voice.mix channels (position + 1) (first.drop (channels + 1)) with
        ⟨_ | reached, mixed⟩ <;> simp

/-- The frames of a buffer if they have `channels + 1` samples; the last one may be cut. -/
def frameCount (channels : Nat) (data : List Float32) : Nat :=
  (data.length + channels) / (channels + 1)

@[simp]
theorem frameCount_nil (channels : Nat) : frameCount channels [] = 0 := by
  simp [frameCount, Nat.div_eq_zero_iff]

theorem frameCount_drop (nonempty : data ≠ []) :
    frameCount channels data = frameCount channels (data.drop (channels + 1)) + 1 := by
  have pos := List.length_pos_iff.mpr nonempty
  rw [frameCount, frameCount, List.length_drop, ← Nat.add_div_right _ (Nat.succ_pos _)]
  rcases Nat.le_total data.length (channels + 1) with cut | whole
  · have one : (data.length - (channels + 1) + channels + (channels + 1)) / (channels + 1) = 1 :=
      Nat.div_eq_of_lt_le (by omega) (by omega)
    rw [one]
    exact Nat.div_eq_of_lt_le (by omega) (by omega)
  · congr 1
    omega

theorem div_lt_frameCount (index_lt : index < data.length) :
    index / (channels + 1) < frameCount channels data := by
  rw [frameCount, Nat.lt_iff_add_one_le, ← Nat.add_div_right _ (Nat.succ_pos _)]
  exact Nat.div_le_div_right (by omega)

/-- Mixing comes to the end of the buffer, or stops at the first frame behind the tone. -/
theorem mix_fst (voice : ClickVoice) (channels position : Nat) (data : List Float32) :
    (voice.mix channels position data).1 =
      if data = [] ∨ position + frameCount channels data ≤ voice.length then
        some (position + frameCount channels data)
      else none := by
  induction position, data using mix_induction voice channels with
  | nil position => simp [mix_nil]
  | ended position data nonempty ended =>
      have beyond : ¬position + frameCount channels data ≤ voice.length := by
        rw [frameCount_drop nonempty]
        omega
      simp [mix_of_length_le ended nonempty, nonempty, beyond]
  | frame position data nonempty sounding ih =>
      rw [mix_of_lt_length sounding nonempty, ih, frameCount_drop nonempty]
      rcases eq_or_ne (data.drop (channels + 1)) [] with last | more
      · have within : position + 1 ≤ voice.length := sounding
        simp [last, within]
      · simp [nonempty, more, Nat.add_assoc, Nat.add_comm 1]

/-- The tone is added to the samples of as many frames as are left of it. -/
theorem mix_snd (voice : ClickVoice) (channels position : Nat) (data : List Float32) :
    (voice.mix channels position data).2 = data.mapIdx fun index sample =>
      if position + index / (channels + 1) < voice.length then
        sample + voice.sample (position + index / (channels + 1))
      else sample := by
  induction position, data using mix_induction voice channels with
  | nil position => simp [mix_nil]
  | ended position data nonempty ended =>
      rw [mix_of_length_le ended nonempty]
      apply List.ext_getElem (by simp)
      intro index _ _
      have beyond : ¬position + index / (channels + 1) < voice.length :=
        Nat.not_lt.mpr (ended.trans (Nat.le_add_right position _))
      simp [beyond]
  | frame position data nonempty sounding ih =>
      rw [mix_of_lt_length sounding nonempty, ih]
      conv_rhs => rw [← List.take_append_drop (channels + 1) data, List.mapIdx_append]
      apply congrArg₂ (· ++ ·)
      · apply List.ext_getElem (by simp)
        intro index index_lt _
        have inFrame : index / (channels + 1) = 0 := by
          apply Nat.div_eq_of_lt
          simp only [List.length_map, List.length_take] at index_lt
          omega
        simp [inFrame, sounding]
      · apply List.ext_getElem (by simp)
        intro index index_lt _
        have whole : min (channels + 1) data.length = channels + 1 := by
          simp only [List.length_mapIdx, List.length_drop] at index_lt
          omega
        simp [whole, Nat.add_assoc, Nat.add_comm 1]

/-- Mixes the tone that sounds, if one does. -/
def sound (voice : ClickVoice) (data : List Float32) (channels : Nat) :
    ClickVoice × List Float32 :=
  match voice.position with
  | none => (voice, data)
  | some position =>
    ({ voice with position := (voice.mix (channels - 1) position data).1 },
      (voice.mix (channels - 1) position data).2)

theorem render_eq (voice : ClickVoice) (now : Nat) (data : List Float32) (channels : Nat) :
    voice.render now data channels = (voice.consume now).sound data channels := by
  unfold render sound
  split <;> simp [*]

theorem pending_sound (voice : ClickVoice) (data : List Float32) (channels : Nat) :
    (voice.sound data channels).1.pending = voice.pending := by
  unfold sound
  split <;> rfl

/-- The frames of a buffer to which sound is added. -/
def soundingFrames (voice : ClickVoice) (data : List Float32) (channels : Nat) : Nat :=
  match voice.position with
  | none => 0
  | some position => min (frameCount (channels - 1) data) (voice.length - position)

/-- The frames that are left of the tone. -/
def framesLeft (voice : ClickVoice) : Nat :=
  match voice.position with
  | none => 0
  | some position => voice.length - position

theorem framesLeft_le (voice : ClickVoice) : voice.framesLeft ≤ voice.length := by
  unfold framesLeft
  split <;> omega

theorem sound_snd (voice : ClickVoice) (data : List Float32) (channels : Nat) :
    (voice.sound data channels).2 = data.mapIdx fun index sample =>
      if index / max channels 1 < voice.soundingFrames data channels then
        sample + voice.sample (voice.position.getD 0 + index / max channels 1)
      else sample := by
  have size_eq : max channels 1 = channels - 1 + 1 := by omega
  cases position_eq : voice.position with
  | none =>
      apply List.ext_getElem
      · simp [sound, position_eq]
      · simp [sound, soundingFrames, position_eq]
  | some position =>
      apply List.ext_getElem
      · simp [sound, position_eq, mix_snd]
      · intro index _ index_lt
        have inBuffer : index / (channels - 1 + 1) < frameCount (channels - 1) data :=
          div_lt_frameCount (by simpa using index_lt)
        have within_iff : position + index / (channels - 1 + 1) < voice.length ↔
            index / (channels - 1 + 1) < voice.length - position := by
          generalize index / (channels - 1 + 1) = frame
          omega
        simp [sound, soundingFrames, position_eq, mix_snd, size_eq, inBuffer, within_iff]

/-- What is added in a render is no longer left for later ones. -/
theorem framesLeft_sound (voice : ClickVoice) (data : List Float32) (channels : Nat) :
    voice.soundingFrames data channels + (voice.sound data channels).1.framesLeft =
      voice.framesLeft := by
  cases position_eq : voice.position with
  | none => simp [sound, soundingFrames, framesLeft, position_eq]
  | some position =>
      simp only [sound, soundingFrames, framesLeft, position_eq, mix_fst]
      by_cases nothing : data = []
      · simp [nothing]
      · by_cases within : position + frameCount (channels - 1) data ≤ voice.length
        · simp only [nothing, within, or_true, if_true]
          omega
        · simp only [nothing, within, or_false, if_false]
          omega

theorem sound_append (aligned : max channels 1 ∣ first.length) (second : List Float32) :
    voice.sound (first ++ second) channels =
      let before := voice.sound first channels
      ((before.1.sound second channels).1, before.2 ++ (before.1.sound second channels).2) := by
  have aligned' : channels - 1 + 1 ∣ first.length := by
    rwa [show channels - 1 + 1 = max channels 1 by omega]
  cases position_eq : voice.position with
  | none => simp [sound, position_eq]
  | some position =>
      simp only [sound, position_eq, mix_append aligned' second]
      rcases voice.mix (channels - 1) position first with ⟨_ | reached, mixed⟩
      · rfl
      · simp only [mix_congr]

theorem consume_of_forall_lt (waiting : ∀ due ∈ voice.pending, now < due) :
    voice.consume now = voice := by
  have unmoved : voice.pending.filter (fun due => now < due) = voice.pending := by
    simpa using waiting
  simp [consume, unmoved]

theorem lt_of_mem_pending_render {due : Nat}
    (due_mem : due ∈ (voice.render now data channels).1.pending) : now < due := by
  rw [render_eq, pending_sound] at due_mem
  simp only [consume, List.mem_filter] at due_mem
  simpa using due_mem.2

theorem render_append (aligned : max channels 1 ∣ first.length) (second : List Float32) :
    voice.render now (first ++ second) channels =
      let before := voice.render now first channels
      ((before.1.render now second channels).1,
        before.2 ++ (before.1.render now second channels).2) := by
  have consumed : (voice.render now first channels).1.consume now =
      (voice.render now first channels).1 :=
    consume_of_forall_lt fun _ => lt_of_mem_pending_render
  simp only [render_eq (voice.render now first channels).1, consumed]
  simp only [render_eq voice, sound_append aligned]

/-- Renders the pieces of a buffer one after the other, all at the same time. -/
def renderPieces (voice : ClickVoice) (now channels : Nat) :
    List (List Float32) → ClickVoice × List Float32
  | [] => (voice, [])
  | piece :: rest =>
    let (voice, rendered) := voice.render now piece channels
    let (voice, later) := voice.renderPieces now channels rest
    (voice, rendered ++ later)

theorem renderPieces_concat {pieces : List (List Float32)}
    (aligned : ∀ piece ∈ pieces, max channels 1 ∣ piece.length) (last : List Float32) :
    voice.renderPieces now channels (pieces ++ [last]) =
      voice.render now (pieces.flatten ++ last) channels := by
  induction pieces generalizing voice with
  | nil => simp [renderPieces]
  | cons piece rest ih =>
      have rendered : (voice.render now piece channels).1.renderPieces now channels
          (rest ++ [last]) = _ :=
        ih fun other other_mem => aligned other (List.mem_cons_of_mem piece other_mem)
      rw [List.flatten_cons, List.append_assoc, render_append (aligned piece List.mem_cons_self)]
      simp [renderPieces, rendered]

/-- A buffer that is cut between two frames gives the same samples, and leaves the voice in the same
state, as the whole buffer does at the same time. So does a buffer that is cut between any frames;
only the end of the last piece may cut a frame. -/
theorem render_of_cut (voice : ClickVoice) (now channels : Nat) (first second : List Float32)
    (aligned : max channels 1 ∣ first.length) :
    let before := voice.render now first channels
    let behind := before.1.render now second channels
    voice.render now (first ++ second) channels = (behind.1, before.2 ++ behind.2) ∧
      ∀ pieces last, (∀ piece ∈ pieces, max channels 1 ∣ piece.length) →
        voice.renderPieces now channels (pieces ++ [last]) =
          voice.render now (pieces.flatten ++ last) channels :=
  ⟨render_append aligned second, fun _ last aligned => renderPieces_concat aligned last⟩

/-- A voice that stands behind its shortened tone starts over, and the tone runs out at the cut. -/
theorem render_of_cut_at_end :
    let voice : ClickVoice := ⟨48000, 2, some 9, [7, 12]⟩
    let first : List Float32 := [0, 0.5, 0, 0.5]
    let second : List Float32 := [1, 1, 1]
    let before := voice.render 7 first 2
    let behind := before.1.render 7 second 2
    max 2 1 ∣ first.length ∧ before.1 = ⟨48000, 2, some 2, [12]⟩ ∧
      behind.1 = ⟨48000, 2, none, [12]⟩ ∧
      voice.render 7 (first ++ second) 2 = (⟨48000, 2, none, [12]⟩, before.2 ++ second) := by
  intro voice first second before behind
  have aligned : max 2 1 ∣ first.length := by decide
  have before_eq : before.1 = ⟨48000, 2, some 2, [12]⟩ := by
    simp [before, voice, first, render, consume, mix]
  have behind_eq : behind = (⟨48000, 2, none, [12]⟩, second) := by
    simp [behind, before_eq, second, render, consume, mix]
  refine ⟨aligned, before_eq, congrArg Prod.fst behind_eq, ?_⟩
  rw [(render_of_cut voice 7 2 first second aligned).1]
  simp only [before, behind] at behind_eq
  rw [behind_eq]

end LiveScore.ClickVoice
