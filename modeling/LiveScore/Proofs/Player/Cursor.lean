import LiveScore.Proofs.Player.Run
import LiveScore.Proofs.Score.Playable

/-!
# The cursor stays in the score

The cursor is moved along one score while other scores of any shape are put in its place. It keeps
a position of the chain and, beside it, the index of the section that is named there. Finding the
section again brings both back into range in every score that a text can give, and nothing else
writes them. So the cursor stands in the score after every run, from the first score that is loaded
on; until then it was never touched.
-/

namespace LiveScore

namespace Playback

variable {playback next : Playback}

/-- The cursor stands at a name of the chain and at the section of this name. -/
structure Located (playback : Playback) : Prop where
  playable : playback.score.Playable
  named : ∃ name, playback.score.chain[playback.cursor.chainPosition]? = some name ∧
    playback.score.indexOf? name = some playback.cursor.sectionIndex

/-- The measure of the cursor has no part in where it stands. -/
theorem Located.congr (located : playback.Located) (sameScore : next.score = playback.score)
    (samePosition : next.cursor.chainPosition = playback.cursor.chainPosition)
    (sameIndex : next.cursor.sectionIndex = playback.cursor.sectionIndex) : next.Located := by
  constructor
  · rw [sameScore]
    exact located.playable
  · rw [sameScore, samePosition, sameIndex]
    exact located.named

/-- In a playable score, finding the section again is all the cursor needs, wherever it was. -/
theorem located_sync (playable : playback.score.Playable) : playback.sync.Located := by
  rcases playable.exists_sectionAt? playback.cursor.chainPosition with
    ⟨name, index, sect, named, found, looked, _, _⟩
  have inChain : playback.cursor.chainPosition % playback.score.chain.length <
      playback.score.chain.length :=
    Nat.mod_lt _ (List.length_pos_of_ne_nil playable.chain_ne_nil)
  -- The section is looked up at the reduced position, where the same name stands.
  have found' : playback.score.sectionAt?
      (playback.cursor.chainPosition % playback.score.chain.length) = some (index, sect) := by
    simpa only [Score.sectionAt?, Score.nameAt?, Nat.mod_eq_of_lt inChain] using found
  constructor
  · rw [score_sync]
    exact playable
  · simp only [sync, if_neg playable.chain_ne_nil, found']
    exact ⟨name, named, looked⟩

theorem located_load {score : Score} (playback : Playback) (playable : score.Playable) :
    (playback.load score).Located :=
  located_sync playable

theorem Located.rewind (located : playback.Located) : playback.rewind.Located :=
  located_sync located.playable

theorem Located.nextMeasure (located : playback.Located) : playback.nextMeasure.Located := by
  unfold Playback.nextMeasure
  split
  · exact located.congr rfl rfl rfl
  · split
    · have moved : ({ playback with cursor := { playback.cursor with
          chainPosition := playback.cursor.chainPosition + 1 } } : Playback).sync.Located :=
        located_sync located.playable
      exact moved.congr rfl rfl rfl
    · exact located.congr rfl rfl rfl

theorem Located.moves (located : playback.Located) (moves : Moves playback next) :
    next.Located := by
  induction moves with
  | refl => exact located
  | tail _ move ih =>
      cases move with
      | rewind => exact ih.rewind
      | downbeat _ => exact ih.nextMeasure

/-- Without a score the cursor does not move. -/
theorem eq_of_moves_untouched (moves : Moves {} next) : next = {} := by
  induction moves with
  | refl => rfl
  | tail _ move ih =>
      subst ih
      cases move with
      | rewind => rfl
      | downbeat loaded => cases loaded

/-- The cursor is in range, also of the list of sections. -/
theorem Located.sectionIndex_lt (located : playback.Located) :
    playback.cursor.sectionIndex < playback.score.sections.length := by
  rcases located.named with ⟨name, _, looked⟩
  rcases located.playable.indexOf?_eq_some_iff.mp looked with ⟨sect, found, _⟩
  exact (List.getElem?_eq_some_iff.mp found).1

/-- The section that plays is the one at the position of the cursor. -/
theorem Located.exists_section (located : playback.Located) :
    ∃ sect, playback.section? = some sect ∧
      playback.score.sectionAt? playback.cursor.chainPosition =
        some (playback.cursor.sectionIndex, sect) := by
  rcases located.named with ⟨name, inChain, looked⟩
  have position_lt := (List.getElem?_eq_some_iff.mp inChain).1
  have found := List.getElem?_eq_getElem located.sectionIndex_lt
  refine ⟨_, found, ?_⟩
  simp [Score.sectionAt?, Score.nameAt?, Nat.mod_eq_of_lt position_lt, inChain, looked, found]

/-- The place reported is that of the cursor, under the name that the chain has there. -/
theorem Located.position?_eq {name : String} (located : playback.Located)
    (inChain : playback.score.chain[playback.cursor.chainPosition]? = some name) :
    playback.position? =
      some ⟨playback.cursor.chainPosition, name, playback.cursor.measure⟩ := by
  rcases located.named with ⟨chainName, inChain', looked⟩
  rcases located.playable.indexOf?_eq_some_iff.mp looked with ⟨sect, found, sameName⟩
  have same : chainName = name := Option.some.inj (inChain'.symm.trans inChain)
  rw [position?, section?, found, ← same, ← sameName]
  rfl

end Playback

namespace Rig

/-- The cursor stands in the score if one was loaded, and is untouched otherwise. -/
def Placed (loaded : Bool) (playback : Playback) : Prop :=
  if loaded then playback.Located else playback = {}

/-- An operation keeps the cursor placed; from the first score on it stands in the score. -/
theorem Placed.run {rig : Rig} {loaded : Bool} (placed : Placed loaded rig.player.playback)
    (operation : Operation) :
    Placed (loaded || (rig.report operation).loads) (rig.run operation).1.player.playback := by
  rcases (rig.run_cases operation).2 with
    ⟨source, score, _, loads, accepted, replaced⟩ | ⟨quiet, moves⟩
  · rw [loads, Bool.or_true, replaced]
    exact Playback.located_load _ (Score.playable_of_read accepted)
  · rw [quiet, Bool.or_false]
    cases loaded with
    | true => exact Playback.Located.moves placed moves
    | false =>
        have untouched : rig.player.playback = {} := placed
        rw [untouched] at moves
        exact Playback.eq_of_moves_untouched moves

theorem Placed.runAll {rig : Rig} {loaded : Bool} (placed : Placed loaded rig.player.playback)
    (operations : List Operation) :
    Placed (loaded || (rig.runAll operations).2.any Report.loads)
      (rig.runAll operations).1.player.playback := by
  induction operations generalizing rig loaded with
  | nil => simpa [Rig.runAll] using placed
  | cons operation rest ih =>
      have later := ih (placed.run operation)
      simpa [Rig.runAll, Bool.or_assoc] using later

/-- After every run, whatever its texts and pulses and however the sink answered, either a score was
loaded, and then it has a section, the cursor is at a position of its chain and at the index of the
section named there, and the place reported is this one; or no score was loaded, and then the cursor
is untouched and no place is reported. A pulse that comes next finds its section in range, before
and after it moves the cursor, or does nothing at all. -/
theorem runAll_cursor (resolver : Resolver) (clickLatency : Option Duration) (sink : Sink)
    (operations : List Operation) :
    let run := (fresh resolver clickLatency sink).runAll operations
    let playback := run.1.player.playback
    if run.2.any Report.loads then
      playback.score.sections ≠ [] ∧
        playback.cursor.chainPosition < playback.score.chain.length ∧
        playback.cursor.sectionIndex < playback.score.sections.length ∧
        (∃ name, playback.score.chain[playback.cursor.chainPosition]? = some name ∧
          playback.score.indexOf? name = some playback.cursor.sectionIndex ∧
          run.1.player.position? =
            some ⟨playback.cursor.chainPosition, name, playback.cursor.measure⟩) ∧
        ∀ pulse, (run.1.player.pulse pulse).1.playback.cursor.sectionIndex <
          (run.1.player.pulse pulse).1.playback.score.sections.length
    else
      playback.score = {} ∧ playback.cursor = {} ∧ run.1.player.position? = none ∧
        ∀ pulse, run.1.player.pulse pulse = (run.1.player, []) := by
  intro run playback
  have start : Placed false (fresh resolver clickLatency sink).player.playback := rfl
  have placed : Placed (run.2.any Report.loads) playback := start.runAll operations
  cases loaded : run.2.any Report.loads with
  | false =>
      rw [loaded] at placed
      have untouched : run.1.player.playback = {} := placed
      rw [if_neg Bool.false_ne_true]
      refine ⟨congrArg Playback.score untouched, congrArg Playback.cursor untouched, ?_, ?_⟩
      · rw [Player.position?, untouched]
        rfl
      · intro pulse
        apply if_pos
        rw [untouched]
        rfl
  | true =>
      rw [loaded] at placed
      have located : playback.Located := placed
      rcases located.named with ⟨name, inChain, looked⟩
      rw [if_pos rfl]
      refine ⟨located.playable.sections_ne_nil, (List.getElem?_eq_some_iff.mp inChain).1,
        located.sectionIndex_lt, ⟨name, inChain, looked, located.position?_eq inChain⟩, ?_⟩
      intro pulse
      apply Playback.Located.sectionIndex_lt
      exact located.moves (Player.moves_pulse run.1.player pulse)

end Rig

end LiveScore
