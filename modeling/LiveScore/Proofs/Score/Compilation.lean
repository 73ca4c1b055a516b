import LiveScore.Proofs.Score.Grid
import LiveScore.Proofs.Score.Timetable
import LiveScore.Proofs.Score.Voicing
import LiveScore.Score.Reader

/-!
# What a measure line compiles to

The loop over the tokens of a line keeps a timetable and the chords written so far. This file
describes its result without the loop. The tokens that are no rests are the onsets of the line;
each is read after the last note of the onset before it, strikes its notes at the start of its slot
and, unless it is held, releases them at the end. The timetable has exactly these events, in the
order of the onsets.

The reference note passes from onset to onset through the chords of the measure, so the invariant
of the loop is that the last chord written is that of the last onset.
-/

namespace LiveScore

/-- Takes every cluster and every chord symbol for middle C. -/
def Resolver.unison : Resolver where
  cluster _ _ := .ok [.middleC]
  chord _ := .ok [.middleC]

/-- A token of a measure line that is no rest, with its index among all tokens of the line, rests
included, and what it stands for. -/
structure Onset where
  token : String
  index : Nat
  voicing : Voicing
deriving DecidableEq

namespace Onset

/-- What the onset of a line of `count` tokens schedules, each event with its pulse. -/
def events (count legato : Nat) (onset : Onset) : List (Nat × ChordEvent) :=
  let slot := Slot.place onset.index count legato
  (slot.start, .strike onset.voicing.notes) ::
    if onset.voicing.held then [] else [(slot.stop, .release onset.voicing.notes)]

/-- Each onset is what its token stands for behind the last note of the onset before it, and the
first one behind `previous`. An onset without notes leaves nothing for the next one to stand
behind. -/
def Voiced (resolver : Resolver) : Option Note → List Onset → Prop
  | _, [] => True
  | previous, onset :: rest =>
    Voicing.StandsFor resolver previous onset.token.toList onset.voicing ∧
      Voiced resolver onset.voicing.notes.getLast? rest

theorem pulse_lt_of_mem_events {count legato : Nat} {onset : Onset} {event : Nat × ChordEvent}
    (event_mem : event ∈ onset.events count legato) : event.1 < pulsesPerMeasure := by
  have start_bound := Slot.start_lt_lastPulse onset.index count legato
  have stop_bound := Slot.stop_le_lastPulse onset.index count legato
  have last_lt : lastPulse < pulsesPerMeasure := by decide
  simp only [events] at event_mem
  rcases List.mem_cons.mp event_mem with rfl | released
  · simp only
    omega
  · split at released
    · simp at released
    · rw [List.mem_singleton.mp released]
      simp only
      omega

end Onset

namespace Measure

/-- The tokens of a line that are no rests, each with its index in the line. -/
def sounding (tokens : List String) : List (String × Nat) :=
  tokens.zipIdx.filter fun entry => entry.1 ≠ "."

/-- The measure that some onsets of a line of `count` tokens make. -/
def ofOnsets (count legato : Nat) (onsets : List Onset) : Measure where
  timetable := Timetable.ofEvents (onsets.flatMap (Onset.events count legato))
  chords := onsets.map fun onset => .strike onset.voicing.notes

/-- Adds onsets to a measure of `count` tokens in order. -/
def addOnsets (count legato : Nat) (measure : Measure) (onsets : List Onset) : Measure :=
  onsets.foldl (fun measure onset =>
    measure.add (Slot.place onset.index count legato) onset.voicing) measure

@[simp]
theorem lastNote?_add (measure : Measure) (slot : Slot) (voicing : Voicing) :
    (measure.add slot voicing).lastNote? = voicing.notes.getLast? := by
  simp [add, lastNote?, ChordEvent.strike]

theorem addOnsets_eq_ofOnsets (count legato : Nat) (onsets : List Onset) :
    addOnsets count legato {} onsets = ofOnsets count legato onsets := by
  induction onsets using List.reverseRecOn with
  | nil => rfl
  | append_singleton onsets onset ih =>
      have step : addOnsets count legato {} (onsets ++ [onset]) =
          (ofOnsets count legato onsets).add
            (Slot.place onset.index count legato) onset.voicing := by
        rw [← ih]
        simp [addOnsets]
      rw [step]
      cases held : onset.voicing.held <;> simp [ofOnsets, add, Onset.events, held]

/-- The loop over the tokens accepts a line exactly if its onsets can be voiced, and then adds them
in order. The induction runs over the remaining tokens; the reference note is read off the measure
made so far. -/
theorem addTokens_eq_ok_iff {resolver : Resolver} {legato count index : Nat} {tokens : List String}
    {measure result : Measure} :
    addTokens resolver legato count index measure tokens = .ok result ↔
      ∃ onsets : List Onset,
        onsets.map (fun onset => (onset.token, onset.index)) =
          (tokens.zipIdx index).filter (fun entry => entry.1 ≠ rest) ∧
        Onset.Voiced resolver measure.lastNote? onsets ∧
        result = measure.addOnsets count legato onsets := by
  induction tokens generalizing index measure with
  | nil =>
      simp only [addTokens, Except.ok.injEq, List.zipIdx_nil, List.filter_nil,
        List.map_eq_nil_iff]
      constructor
      · rintro rfl
        exact ⟨[], rfl, trivial, rfl⟩
      · rintro ⟨onsets, rfl, _, rfl⟩
        rfl
  | cons token tokens ih =>
      by_cases silent : token = rest
      · simp only [addTokens, silent, if_true, ih]
        simp
      · simp only [addTokens, silent, if_false]
        cases reading : Voicing.read resolver measure.lastNote? token.toList with
        | error cause =>
            simp only [reduceCtorEq, false_iff]
            rintro ⟨onsets, keys, voiced, _⟩
            rw [List.zipIdx_cons, List.filter_cons_of_pos (by simpa using silent)] at keys
            rcases List.map_eq_cons_iff.mp keys with ⟨onset, later, rfl, key, _⟩
            simp only [Prod.mk.injEq] at key
            have accepted := voiced.1.read_eq
            rw [key.1, reading] at accepted
            cases accepted
        | ok voicing =>
            simp only [ih, lastNote?_add]
            rw [List.zipIdx_cons, List.filter_cons_of_pos (by simpa using silent)]
            constructor
            · rintro ⟨onsets, keys, voiced, rfl⟩
              refine ⟨⟨token, index, voicing⟩ :: onsets, ?_,
                ⟨Voicing.standsFor_of_read reading, voiced⟩, rfl⟩
              simpa using keys
            · rintro ⟨onsets, keys, voiced, rfl⟩
              rcases List.map_eq_cons_iff.mp keys with ⟨onset, later, rfl, key, laterKeys⟩
              rcases onset with ⟨_, _, found⟩
              simp only [Prod.mk.injEq] at key
              rcases key with ⟨rfl, rfl⟩
              have same : voicing = found := by
                have accepted := voiced.1.read_eq
                simp only [reading, Except.ok.injEq] at accepted
                exact accepted
              subst same
              exact ⟨later, laterKeys, voiced.2, rfl⟩

/-- A line of tokens compiles exactly if its onsets can be voiced, and then to their measure. -/
theorem ofTokens_eq_ok_iff {resolver : Resolver} {legato : Nat} {tokens : List String}
    {measure : Measure} :
    ofTokens resolver legato tokens = .ok measure ↔
      ∃ onsets : List Onset,
        onsets.map (fun onset => (onset.token, onset.index)) = sounding tokens ∧
        Onset.Voiced resolver none onsets ∧
        measure = ofOnsets tokens.length legato onsets := by
  simp only [ofTokens, addTokens_eq_ok_iff, addOnsets_eq_ofOnsets]
  rfl

/-- A measure is what a line of tokens with these onsets says at a legato, and nothing else: each
pulse has the events that the onsets schedule there, in their order, and no pulse lies outside. -/
structure CompiledFrom (resolver : Resolver) (legato : Nat) (tokens : List String)
    (onsets : List Onset) (measure : Measure) : Prop where
  tokens_eq : onsets.map (fun onset => (onset.token, onset.index)) = sounding tokens
  voiced : Onset.Voiced resolver none onsets
  at?_eq : ∀ pulse, measure.timetable.at? pulse =
    let batch := Timetable.batchAt (onsets.flatMap (Onset.events tokens.length legato)) pulse
    if batch = [] then none else some batch
  ordered : measure.timetable.Ordered
  pulse_lt : ∀ entry ∈ measure.timetable, entry.1 < 96
  chords_eq : measure.chords = onsets.map fun onset => .strike onset.voicing.notes

theorem compiledFrom_ofOnsets {resolver : Resolver} {tokens : List String} {onsets : List Onset}
    (tokens_eq : onsets.map (fun onset => (onset.token, onset.index)) = sounding tokens)
    (voiced : Onset.Voiced resolver none onsets) (legato : Nat) :
    (ofOnsets tokens.length legato onsets).CompiledFrom resolver legato tokens onsets where
  tokens_eq := tokens_eq
  voiced := voiced
  at?_eq pulse := Timetable.at?_ofEvents _ pulse
  ordered := Timetable.ordered_ofEvents _
  pulse_lt := by
    intro entry entry_mem
    rcases Timetable.ofEvents_entries _ entry entry_mem with ⟨event, scheduled⟩
    rcases List.mem_flatMap.mp scheduled with ⟨onset, _, event_mem⟩
    exact Onset.pulse_lt_of_mem_events event_mem
  chords_eq := rfl

theorem exists_compiledFrom {resolver : Resolver} {legato : Nat} {tokens : List String}
    {measure : Measure} (accepted : ofTokens resolver legato tokens = .ok measure) :
    ∃ onsets, measure.CompiledFrom resolver legato tokens onsets := by
  rcases ofTokens_eq_ok_iff.mp accepted with ⟨onsets, tokens_eq, voiced, rfl⟩
  exact ⟨onsets, compiledFrom_ofOnsets tokens_eq voiced legato⟩

/-- A line of tokens that compiles gives the measure of its onsets, and a score in the making gets
this measure for the line whatever it holds already: only the legato in force counts. -/
theorem ofTokens_compiles {resolver : Resolver} {legato : Nat} {tokens : List String}
    {measure : Measure} (accepted : ofTokens resolver legato tokens = .ok measure) :
    (∃ onsets, measure.CompiledFrom resolver legato tokens onsets) ∧
      ∀ (draft : Draft) (number : Nat) (line : List Char), draft.part.legato = legato →
        Directive.read line = .ok (.measure tokens) →
        draft.step resolver number line = .ok (draft.addMeasure number measure) := by
  refine ⟨exists_compiledFrom accepted, ?_⟩
  intro draft number line sameLegato reading
  simp only [Draft.step, reading, Draft.apply, sameLegato, accepted]

/-- A cluster, a rest, a held cluster that comes to lie below the one before it, a held chord in a
lower octave, and a cluster behind the last note of that chord, as such and as the first line of a
score. -/
theorem ofTokens_compiles_held :
    let tokens := ["g4", ".", "c-", ":Am/C:3-", "f"]
    ∃ measure, ofTokens .standard 100 tokens = .ok measure ∧
      (∃ onsets, measure.CompiledFrom .standard 100 tokens onsets) ∧
      ({} : Draft).step .standard 1 "g4 . c- :Am/C:3- f".toList =
        .ok (({} : Draft).addMeasure 1 measure) := by
  intro tokens
  have compiles : (ofTokens .standard 100 tokens).toOption.isSome = true := by decide +kernel
  cases accepted : ofTokens .standard 100 tokens with
  | error cause =>
      rw [accepted] at compiles
      cases compiles
  | ok measure =>
      rcases ofTokens_compiles accepted with ⟨compiled, placed⟩
      refine ⟨measure, rfl, compiled, placed {} 1 _ rfl ?_⟩
      decide +kernel

end Measure

end LiveScore
