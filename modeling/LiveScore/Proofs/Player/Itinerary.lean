import LiveScore.Proofs.Player.Performance
import Mathlib.Logic.Function.Iterate

/-!
# The order in which a score plays

The places of a score are the measures of the sections of its chain, written down one after the
other; a section without measures still takes one. Downbeats go through this list and start over at
its end. The list is cut at the positions of the chain, and the offset of a position is the length
of the list before it, so the place after another one is its successor in the list or the first one.

The cursor does not know the list. It compares its measure with the length of the section and its
position with the length of the chain, which is what finding the successor comes down to. Only
pulses with the number 0 that are played move it, whatever else is done and whether or not the sink
survives their deliveries.
-/

namespace LiveScore

namespace Score

variable {score : Score} {count index : Nat} {place : Nat × Nat}

/-- The number of measures of the section at a position of the chain. -/
def measuresAt (score : Score) (position : Nat) : Nat :=
  ((score.sectionAt? position).map fun entry => entry.2.measureCount).getD 0

/-- The places of the first positions of the chain: each position with each measure of its section,
or with the measure 0 if it has none. -/
def places (score : Score) (count : Nat) : List (Nat × Nat) :=
  (List.range count).flatMap fun position =>
    (List.range (max 1 (score.measuresAt position))).map fun measure => (position, measure)

/-- The places of the whole chain. -/
def itinerary (score : Score) : List (Nat × Nat) := score.places score.chain.length

/-- The place after another one: the next measure of the section, or the first one of the section
at the next position. -/
def nextPlace (score : Score) (place : Nat × Nat) : Nat × Nat :=
  if score.measuresAt place.1 ≤ place.2 + 1 then ((place.1 + 1) % score.chain.length, 0)
  else (place.1, place.2 + 1)

theorem places_succ (score : Score) (count : Nat) :
    score.places (count + 1) = score.places count ++
      (List.range (max 1 (score.measuresAt count))).map fun measure => (count, measure) := by
  simp [places, List.range_succ]

theorem length_places_succ (score : Score) (count : Nat) :
    (score.places (count + 1)).length =
      (score.places count).length + max 1 (score.measuresAt count) := by
  simp [places_succ]

/-- A place stands in the list as far behind the places of its position as its measure says. -/
theorem getElem?_places_eq_some_iff :
    (score.places count)[index]? = some place ↔
      place.1 < count ∧ place.2 < max 1 (score.measuresAt place.1) ∧
        index = (score.places place.1).length + place.2 := by
  induction count with
  | zero => simp [places]
  | succ count ih =>
      rw [places_succ, List.getElem?_append]
      by_cases earlier : index < (score.places count).length
      · rw [if_pos earlier, ih]
        constructor
        · rintro ⟨before, inSection, offset⟩
          exact ⟨Nat.lt_succ_of_lt before, inSection, offset⟩
        · rintro ⟨before, inSection, offset⟩
          refine ⟨?_, inSection, offset⟩
          rcases Nat.lt_succ_iff_lt_or_eq.mp before with before | isLast
          · exact before
          · rw [isLast] at offset
            omega
      · rw [if_neg earlier]
        constructor
        · intro found
          rcases List.getElem?_eq_some_iff.mp found with ⟨inRange, rfl⟩
          simp only [List.length_map, List.length_range] at inRange
          simp only [List.getElem_map, List.getElem_range]
          omega
        · rintro ⟨before, inSection, offset⟩
          rcases Nat.lt_succ_iff_lt_or_eq.mp before with before | isLast
          · have found := ih.mpr ⟨before, inSection, offset⟩
            exact absurd (List.getElem?_eq_some_iff.mp found).1 earlier
          · rcases place with ⟨position, measure⟩
            simp only at isLast inSection offset
            subst isLast
            have behind : index - (score.places position).length = measure := by omega
            rw [List.getElem?_map, behind, List.getElem?_range inSection]
            rfl

theorem itinerary_zero (hasChain : score.chain ≠ []) : score.itinerary[0]? = some (0, 0) := by
  refine getElem?_places_eq_some_iff.mpr ⟨List.length_pos_of_ne_nil hasChain, ?_, rfl⟩
  exact Nat.lt_of_lt_of_le Nat.zero_lt_one (Nat.le_max_left _ _)

/-- Going on in the list, and from its end to its start, leads to the next place. -/
theorem itinerary_succ (found : score.itinerary[index]? = some place) :
    score.itinerary[(index + 1) % score.itinerary.length]? = some (score.nextPlace place) := by
  have stays {next : Nat × Nat} (atNext : score.itinerary[index + 1]? = some next) :
      score.itinerary[(index + 1) % score.itinerary.length]? = some next := by
    rw [Nat.mod_eq_of_lt (List.getElem?_eq_some_iff.mp atNext).1]
    exact atNext
  rcases getElem?_places_eq_some_iff.mp found with ⟨inChain, inSection, offset⟩
  unfold nextPlace
  split
  · rename_i ended
    have atEnd : index + 1 = (score.places (place.1 + 1)).length := by
      rw [length_places_succ]
      omega
    by_cases lastPosition : place.1 + 1 = score.chain.length
    · have hasChain : score.chain ≠ [] := List.ne_nil_of_length_pos (by omega)
      rw [atEnd, lastPosition, itinerary, Nat.mod_self, Nat.mod_self]
      exact itinerary_zero hasChain
    · rw [Nat.mod_eq_of_lt (by omega : place.1 + 1 < score.chain.length)]
      apply stays
      refine getElem?_places_eq_some_iff.mpr ⟨by simp only; omega, ?_, atEnd⟩
      exact Nat.lt_of_lt_of_le Nat.zero_lt_one (Nat.le_max_left _ _)
  · rename_i goesOn
    apply stays
    refine getElem?_places_eq_some_iff.mpr ⟨inChain, ?_, ?_⟩
    · simp only
      omega
    · simp only
      omega

end Score

namespace Playback

variable {playback : Playback} {place : Nat × Nat}

/-- The cursor stands at a place of its score. -/
structure Visits (playback : Playback) (place : Nat × Nat) : Prop where
  located : playback.Located
  position_eq : playback.cursor.chainPosition = place.1
  measure_eq : playback.cursor.measure = some place.2

theorem chainPosition_sync (playback : Playback) (hasChain : playback.score.chain ≠ []) :
    playback.sync.cursor.chainPosition =
      playback.cursor.chainPosition % playback.score.chain.length := by
  simp [sync, hasChain]

/-- A downbeat goes from a place to the next one. -/
theorem Visits.nextMeasure (visits : playback.Visits place) :
    playback.nextMeasure.Visits (playback.score.nextPlace place) := by
  have moved := visits.located.nextMeasure
  rcases visits.located.exists_section with ⟨sect, playing, found⟩
  have length_eq : playback.score.measuresAt place.1 = sect.measureCount := by
    rw [← visits.position_eq, Score.measuresAt, found]
    rfl
  refine ⟨moved, ?_, ?_⟩
  · unfold Playback.nextMeasure Score.nextPlace
    simp only [visits.measure_eq, playing, Option.map_some, Option.getD_some, length_eq]
    split
    · have hasChain := visits.located.playable.chain_ne_nil
      rw [← visits.position_eq]
      exact chainPosition_sync _ hasChain
    · exact visits.position_eq
  · unfold Playback.nextMeasure Score.nextPlace
    simp only [visits.measure_eq, playing, Option.map_some, Option.getD_some, length_eq]
    split <;> rfl

theorem downbeat_eq (located : playback.Located) : playback.downbeat = playback.nextMeasure := by
  have hasSection := located.playable.sections_ne_nil
  simp [downbeat, Score.isEmpty, hasSection]

/-- The cursor is back at the top of the chain of a score and has not entered a measure. -/
structure AtTop (playback : Playback) (score : Score) : Prop where
  score_eq : playback.score = score
  located : playback.Located
  position_eq : playback.cursor.chainPosition = 0
  measure_eq : playback.cursor.measure = none

theorem atTop_rewind (playable : playback.score.Playable) :
    playback.rewind.AtTop playback.score := by
  refine ⟨score_rewind _, located_sync playable, ?_, ?_⟩
  · have reduced := chainPosition_sync { playback with cursor := {} } playable.chain_ne_nil
    rw [rewind, reduced, Nat.zero_mod]
  · simp [rewind, sync, playable.chain_ne_nil]

/-- From the top of the chain each downbeat leads to the next place of the itinerary. The induction
is on the downbeats after the first one, which enters the measure 0 wherever it starts. -/
theorem AtTop.exists_visits {score : Score} (top : playback.AtTop score) (count : Nat) :
    ∃ place, score.itinerary[count % score.itinerary.length]? = some place ∧
      (downbeat^[count + 1] playback).score = score ∧
      (downbeat^[count + 1] playback).Visits place := by
  induction count with
  | zero =>
      have first : playback.nextMeasure.cursor = { playback.cursor with measure := some 0 } := by
        simp [nextMeasure, top.measure_eq]
      refine ⟨(0, 0), ?_, ?_, ?_⟩
      · rw [Nat.zero_mod, ← top.score_eq]
        exact Score.itinerary_zero top.located.playable.chain_ne_nil
      · simp [downbeat_eq top.located, top.score_eq]
      · simp only [zero_add, Function.iterate_one, downbeat_eq top.located]
        refine ⟨top.located.nextMeasure, ?_, ?_⟩
        · rw [first, ← top.position_eq]
        · rw [first]
  | succ count ih =>
      rcases ih with ⟨place, found, score_eq, visits⟩
      rw [Function.iterate_succ_apply', downbeat_eq visits.located]
      refine ⟨score.nextPlace place, ?_, ?_, ?_⟩
      · have next := Score.itinerary_succ found
        rwa [Nat.mod_add_mod] at next
      · rw [score_nextMeasure, score_eq]
      · rw [← score_eq]
        exact visits.nextMeasure

end Playback

/-- Keeps the place: neither starts over nor puts another score in place. -/
def Operation.KeepsPlace (resolver : Resolver) (operation : Operation) : Prop :=
  operation ≠ .start ∧ ∀ source, operation.text? = some source →
    ∃ error, (Score.read resolver source).outcome = .error error

theorem Operation.KeepsPlace.of_text?_eq_none {resolver : Resolver} {operation : Operation}
    (notStart : operation ≠ .start) (noText : operation.text? = none) :
    operation.KeepsPlace resolver := by
  refine ⟨notStart, ?_⟩
  intro source text
  rw [noText] at text
  cases text

theorem Operation.KeepsPlace.after_eq {resolver : Resolver} {operation : Operation}
    (keeps : operation.KeepsPlace resolver) (playback : Playback) :
    playback.after resolver operation = playback := by
  have nothing : operation.loaded? resolver = none := by
    unfold loaded?
    cases text : operation.text? with
    | none => rfl
    | some source =>
        rcases keeps.2 source text with ⟨error, rejected⟩
        rw [Option.bind_some, rejected]
        rfl
  rw [Playback.after_of_ne_start keeps.1, nothing]
  rfl

namespace Rig

variable {rig : Rig} {operation : Operation} {operations : List Operation}

/-- The pulses of a list that are played before the sink breaks down, the last one included. -/
def played (rig : Rig) : List Nat → List Nat
  | [] => []
  | pulse :: rest =>
    let (next, _, survived) := rig.follow (rig.player.pulse pulse)
    pulse :: if survived then next.played rest else []

/-- The pulses that an operation plays. -/
def pulsesOf (rig : Rig) : Operation → List Nat
  | .pulses numbers => rig.played numbers
  | .tick pulse => if rig.clock.connected then rig.played [pulse] else []
  | _ => []

/-- How often a run plays the first pulse of a measure. -/
def downbeats (rig : Rig) : List Operation → Nat
  | [] => 0
  | operation :: rest => (rig.pulsesOf operation).count 0 + (rig.run operation).1.downbeats rest

theorem playback_playPulses (rig : Rig) (pulses : List Nat) :
    (rig.playPulses pulses).1.player.playback =
      Playback.downbeat^[(rig.played pulses).count 0] rig.player.playback := by
  induction pulses generalizing rig with
  | nil => rfl
  | cons pulse rest ih =>
      have later : ∀ next : Rig, next.player = (rig.player.pulse pulse).1 → ∀ pulses : List Nat,
          Playback.downbeat^[pulses.count 0] next.player.playback =
            Playback.downbeat^[(pulse :: pulses).count 0] rig.player.playback := by
        intro next player_eq pulses
        rw [player_eq, Player.playback_pulse, List.count_cons]
        by_cases first : pulse = 0 <;> simp [first]
      simp only [playPulses, played]
      split
      · rw [ih]
        exact later _ (player_follow _ _) _
      · exact later _ (player_follow _ _) []

/-- An operation that keeps the place changes the playback by the downbeats that it plays. -/
theorem playback_run_of_keepsPlace (keeps : operation.KeepsPlace rig.player.resolver) :
    (rig.run operation).1.player.resolver = rig.player.resolver ∧
      (rig.run operation).1.player.playback =
        Playback.downbeat^[(rig.pulsesOf operation).count 0] rig.player.playback := by
  refine ⟨(rig.run_cases operation).1, ?_⟩
  cases operation with
  | pulses numbers => exact rig.playback_playPulses numbers
  | tick pulse =>
      simp only [run, pulsesOf]
      split
      · exact rig.playback_playPulses [pulse]
      · rfl
  | _ =>
      rw [playback_run_of_silent rfl, keeps.after_eq]
      rfl

theorem playback_runAll_of_keepsPlace
    (keeps : ∀ operation ∈ operations, operation.KeepsPlace rig.player.resolver) :
    (rig.runAll operations).1.player.playback =
      Playback.downbeat^[rig.downbeats operations] rig.player.playback := by
  induction operations generalizing rig with
  | nil => rfl
  | cons operation rest ih =>
      rcases playback_run_of_keepsPlace (keeps operation List.mem_cons_self) with
        ⟨resolver_eq, playback_eq⟩
      have restKeeps : ∀ later ∈ rest,
          later.KeepsPlace (rig.run operation).1.player.resolver := by
        intro later later_mem
        rw [resolver_eq]
        exact keeps later (List.mem_cons_of_mem _ later_mem)
      simp only [runAll, downbeats]
      rw [ih restKeeps, playback_eq, ← Function.iterate_add_apply, Nat.add_comm]

/-- After a start the cursor waits at the top of the chain; from the first downbeat on it is at the
place of the itinerary that the number of downbeats says, going round. Stops, tempos, other pulses
and texts that are no scores leave it where it is. At each place every part plays its own measure,
counted modulo the number of those that it has. -/
theorem position?_of_downbeats {source : String}
    (accepted : (Score.read rig.player.resolver source).outcome =
      .ok rig.player.playback.score)
    (keeps : ∀ operation ∈ operations, operation.KeepsPlace rig.player.resolver) :
    let score := rig.player.playback.score
    let started := (rig.run .start).1
    let last := (started.runAll operations).1
    let count := started.downbeats operations
    (count = 0 → ∃ name, score.chain[0]? = some name ∧
        last.player.position? = some ⟨0, name, none⟩) ∧
      (0 < count → ∃ position measure index sect,
        score.itinerary[(count - 1) % score.itinerary.length]? = some (position, measure) ∧
          score.sectionAt? position = some (index, sect) ∧
          last.player.position? = some ⟨position, sect.name, some measure⟩ ∧
          (∀ pulse, last.player.playback.deliveries pulse = sect.calls measure pulse) ∧
          ∀ part ∈ sect.parts, 0 < part.measures.length →
            ∃ chosen, part.measures[measure % part.measures.length]? = some chosen ∧
              part.seats measure = part.instruments.map fun instrument => ⟨instrument, chosen⟩) ∧
      ∀ operation, operation.KeepsPlace rig.player.resolver → 0 ∉ last.pulsesOf operation →
        (last.run operation).1.player.position? = last.player.position? := by
  intro score started last count
  have started_eq : started.player =
      { rig.player with playback := rig.player.playback.rewind } := by
    simp only [started, run, player_follow, Player.start]
  have resolver_eq : started.player.resolver = rig.player.resolver := by rw [started_eq]
  have top : started.player.playback.AtTop score := by
    rw [started_eq]
    exact Playback.atTop_rewind (Score.playable_of_read accepted)
  have last_eq : last.player.playback = Playback.downbeat^[count] started.player.playback := by
    rw [← resolver_eq] at keeps
    exact playback_runAll_of_keepsPlace keeps
  refine ⟨?_, ?_, ?_⟩
  · intro noDownbeat
    rw [noDownbeat, Function.iterate_zero_apply] at last_eq
    rcases top.located.named with ⟨name, inChain, _⟩
    refine ⟨name, by rw [← inChain, top.position_eq, top.score_eq], ?_⟩
    rw [Player.position?, last_eq, top.located.position?_eq inChain, top.position_eq,
      top.measure_eq]
  · intro hasDownbeat
    rcases top.exists_visits (count - 1) with ⟨⟨position, measure⟩, found, score_eq, visits⟩
    rw [Nat.sub_add_cancel hasDownbeat, ← last_eq] at score_eq visits
    rcases visits.located.exists_section with ⟨sect, playing, looked⟩
    rw [score_eq, visits.position_eq] at looked
    refine ⟨position, measure, _, sect, found, looked, ?_, ?_, ?_⟩
    · rw [Player.position?, Playback.position?, playing, visits.position_eq, visits.measure_eq]
      rfl
    · intro pulse
      rw [Playback.deliveries_eq_seats playing, visits.measure_eq]
      rfl
    · intro part _ hasMeasure
      have chosen := List.getElem?_eq_getElem (Nat.mod_lt measure hasMeasure)
      refine ⟨_, chosen, ?_⟩
      rw [Part.seats, chosen]
  · intro operation keepsPlace noDownbeat
    have lastResolver_eq : last.player.resolver = rig.player.resolver :=
      (started.runAll_score operations).1.trans resolver_eq
    rw [← lastResolver_eq] at keepsPlace
    have unmoved := (playback_run_of_keepsPlace keepsPlace).2
    rw [List.count_eq_zero.mpr noDownbeat, Function.iterate_zero_apply] at unmoved
    rw [Player.position?, Player.position?, unmoved]

/-- Five downbeats go once round a chain with a section without measures at both ends, although the
sink breaks down at every delivery. -/
theorem position?_of_downbeats_panicking :
    let rig := ((fresh .unison none ⟨fun _ _ => .panicked⟩).run (.read ("\n".intercalate
      ["chain b a b", "pattern a", "instruments X", "c", "c", "pattern b", "instrument Y"]))).1
    let operations : List Operation := [.pulses [7], .pulses [0, 1, 0, 0], .stop, .tick 0,
      .read "tempo x", .setTempo 90, .tick 0, .tick 95, .pulses [0, 3]]
    (rig.run .start).1.downbeats operations = 5 ∧
      ∃ position measure index sect,
        rig.player.playback.score.itinerary[0]? = some (position, measure) ∧
          rig.player.playback.score.sectionAt? position = some (index, sect) ∧
          ((rig.run .start).1.runAll operations).1.player.position? =
            some ⟨position, sect.name, some measure⟩ := by
  intro rig operations
  have accepted : (Score.read rig.player.resolver ("\n".intercalate ["chain b a b", "pattern a",
      "instruments X", "c", "c", "pattern b", "instrument Y"])).outcome =
        .ok rig.player.playback.score := by
    decide +kernel
  have rejected : (Score.read rig.player.resolver "tempo x").outcome =
      .error (.invalidTempo 1 "x") := by
    decide +kernel
  have keeps : ∀ operation ∈ operations, operation.KeepsPlace rig.player.resolver := by
    intro operation operation_mem
    simp only [operations, List.mem_cons, List.not_mem_nil, or_false] at operation_mem
    rcases operation_mem with rfl | rfl | rfl | rfl | rfl | rfl | rfl | rfl | rfl
    on_goal 5 =>
      refine ⟨nofun, ?_⟩
      rintro source ⟨⟩
      exact ⟨_, rejected⟩
    all_goals exact .of_text?_eq_none nofun rfl
  have count_eq : (rig.run .start).1.downbeats operations = 5 := by
    decide +kernel
  have entered := (position?_of_downbeats accepted keeps).2.1
  rw [count_eq] at entered
  rcases entered (Nat.succ_pos 4) with ⟨position, measure, index, sect, found, looked, atPlace, _⟩
  have round : (5 - 1) % rig.player.playback.score.itinerary.length = 0 := by
    decide +kernel
  rw [round] at found
  exact ⟨count_eq, position, measure, index, sect, found, looked, atPlace⟩

end Rig

end LiveScore
