import LiveScore.Proofs.Numeric.Numeral
import LiveScore.Proofs.Score.Agreement

/-!
# What is wrong with a line

A line can be at fault by itself: a directive lacks its value, the value is no number, or a token of
a measure stands for no notes. This file says what a line has to carry for each of these errors,
without a draft. A draft adds one more way to fail, at a `pattern` line and at the end of the text:
the section that ends there can have the name of an earlier one.

Whether a token stands for notes depends on the tokens before it in the line only. The legato in
force takes no part in it, which is why a line has the same faults wherever it stands.
-/

namespace LiveScore

section Tokens

variable {resolver : Resolver} {legato count index : Nat} {measure : Measure}
  {tokens : List String} {token : String} {cause : ResolveError}

/-- The first of the tokens that stands for no notes, and why. Those before it that are no rests
stand for notes, and the token is read after the last note of the last one. -/
def Unresolved (resolver : Resolver) (tokens : List String) (token : String)
    (cause : ResolveError) : Prop :=
  ∃ before after, ∃ onsets : List Onset, tokens = before ++ token :: after ∧
    token ≠ Measure.rest ∧
    onsets.map (fun onset => (onset.token, onset.index)) = Measure.sounding before ∧
    Onset.Voiced resolver none onsets ∧
    Voicing.read resolver (onsets.getLast?.bind fun onset => onset.voicing.notes.getLast?)
      token.toList = .error cause

namespace Measure

theorem lastNote?_ofOnsets (count legato : Nat) (onsets : List Onset) :
    (ofOnsets count legato onsets).lastNote? =
      onsets.getLast?.bind fun onset => onset.voicing.notes.getLast? := by
  simp [lastNote?, ofOnsets, ChordEvent.strike, Option.bind_map]

/-- The loop over the tokens fails at the first token that stands for no notes. The induction runs
over the tokens; those before the failing one have been added to the measure. -/
theorem addTokens_eq_error_iff :
    addTokens resolver legato count index measure tokens = .error (token, cause) ↔
      ∃ before after reached, tokens = before ++ token :: after ∧ token ≠ rest ∧
        addTokens resolver legato count index measure before = .ok reached ∧
        Voicing.read resolver reached.lastNote? token.toList = .error cause := by
  induction tokens generalizing index measure with
  | nil => simp [addTokens]
  | cons first tokens ih =>
      simp only [List.cons_eq_append_iff]
      by_cases silent : first = rest
      · simp only [addTokens, silent, if_true, ih]
        constructor
        · rintro ⟨before, after, reached, rfl, sounds, added, reading⟩
          refine ⟨rest :: before, after, reached, Or.inr ⟨before, rfl, rfl⟩, sounds, ?_, reading⟩
          simpa [addTokens] using added
        · rintro ⟨before, after, reached, ⟨rfl, same⟩ | ⟨tail, rfl, rfl⟩, sounds, added, reading⟩
          · exact absurd (List.cons.inj same).1 sounds
          · refine ⟨tail, after, reached, rfl, sounds, ?_, reading⟩
            simpa [addTokens] using added
      · cases voiced : Voicing.read resolver measure.lastNote? first.toList with
        | error fault =>
            simp only [addTokens, silent, if_false, voiced, Except.error.injEq, Prod.mk.injEq]
            constructor
            · rintro ⟨rfl, rfl⟩
              exact ⟨[], tokens, measure, Or.inl ⟨rfl, rfl⟩, silent, rfl, voiced⟩
            · rintro ⟨before, after, reached, ⟨rfl, same⟩ | ⟨tail, rfl, rfl⟩, _, added, reading⟩
              · cases added
                rcases List.cons.inj same with ⟨rfl, rfl⟩
                rw [voiced] at reading
                exact ⟨rfl, Except.error.inj reading⟩
              · simp [addTokens, silent, voiced] at added
        | ok voicing =>
            simp only [addTokens, silent, if_false, voiced, ih]
            constructor
            · rintro ⟨before, after, reached, rfl, sounds, added, reading⟩
              refine ⟨first :: before, after, reached, Or.inr ⟨before, rfl, rfl⟩, sounds, ?_,
                reading⟩
              simpa [addTokens, silent, voiced] using added
            · rintro ⟨before, after, reached, ⟨rfl, same⟩ | ⟨tail, rfl, rfl⟩, sounds, added,
                reading⟩
              · cases added
                rcases List.cons.inj same with ⟨rfl, rfl⟩
                rw [voiced] at reading
                cases reading
              · refine ⟨tail, after, reached, rfl, sounds, ?_, reading⟩
                simpa [addTokens, silent, voiced] using added

theorem ofTokens_eq_error_iff :
    ofTokens resolver legato tokens = .error (token, cause) ↔
      Unresolved resolver tokens token cause := by
  simp only [ofTokens, addTokens_eq_error_iff, addTokens_eq_ok_iff, addOnsets_eq_ofOnsets]
  constructor
  · rintro ⟨before, after, reached, split, sounds, ⟨onsets, tokens_eq, voiced, rfl⟩, reading⟩
    rw [lastNote?_ofOnsets] at reading
    exact ⟨before, after, onsets, split, sounds, tokens_eq, voiced, reading⟩
  · rintro ⟨before, after, onsets, split, sounds, tokens_eq, voiced, reading⟩
    refine ⟨before, after, _, split, sounds, ⟨onsets, tokens_eq, voiced, rfl⟩, ?_⟩
    rwa [lastNote?_ofOnsets]

end Measure

end Tokens

namespace Outline

variable {resolver : Resolver} {line : ScoreLine} {error : ScoreError}

/-- The first word after a directive on a line that has the directive. -/
def value? (directive : String) (line : ScoreLine) : Option (List Char) :=
  (after? directive line).bind fun rest => (Text.words rest).head?

/-- The directive stands on the line without a value. -/
def LacksValue (directive : String) (line : ScoreLine) : Prop :=
  (after? directive line).isSome ∧ value? directive line = none

/-- An error that a line carries by itself, whatever stands around it. -/
inductive Carries (resolver : Resolver) (line : ScoreLine) : ScoreError → Prop
  | missingValue {directive : String} (valued : directive = "legato" ∨ directive = "tempo")
      (lacks : LacksValue directive line) :
      Carries resolver line (.missingValue line.1 directive)
  /-- The word after the directive writes no integer of 64 bits. -/
  | invalidLegato {word : List Char} (given : value? "legato" line = some word)
      (invalid : ∀ n, Numeral.Writes word n →
        ¬(Directive.leastLegato ≤ n ∧ n ≤ Directive.greatestLegato)) :
      Carries resolver line (.invalidLegato line.1 (String.ofList word))
  /-- The word after the directive is no number, or none that is finite. -/
  | invalidTempo {word : List Char} (given : value? "tempo" line = some word)
      (invalid : ∀ bpm, Decimal.read? word = some bpm → bpm.isFinite = false) :
      Carries resolver line (.invalidTempo line.1 (String.ofList word))
  | unresolved {tokens : List String} {token : String} {cause : ResolveError}
      (measure : tokens? line = some tokens) (unresolved : Unresolved resolver tokens token cause) :
      Carries resolver line (.unresolved line.1 token cause)

/-- Nothing is wrong with the line by itself. -/
def Sound (resolver : Resolver) (line : ScoreLine) : Prop :=
  ∀ error, ¬Carries resolver line error

section Values

variable {rest word : List Char} {fault : DirectiveError}

theorem readLegato_eq_error_iff : Directive.readLegato rest = .error fault ↔
    Text.words rest = [] ∧ fault = .missingValue "legato" ∨
      ∃ word, (Text.words rest).head? = some word ∧
        (∀ n, Numeral.Writes word n →
          ¬(Directive.leastLegato ≤ n ∧ n ≤ Directive.greatestLegato)) ∧
        fault = .invalidLegato (String.ofList word) := by
  unfold Directive.readLegato Directive.value
  cases Text.words rest with
  | nil =>
      simp only [bind, Except.bind, List.head?_nil, reduceCtorEq, false_and, exists_false,
        or_false, true_and, Except.error.injEq]
      exact eq_comm
  | cons word more =>
      simp only [bind, Except.bind, ← Numeral.int?_eq_none_iff, List.head?_cons, reduceCtorEq,
        false_and, false_or, Option.some.injEq, exists_eq_left']
      cases Numeral.int? Directive.leastLegato Directive.greatestLegato word with
      | none => simp [throw, throwThe, MonadExceptOf.throw, eq_comm]
      | some percent => simp [pure, Except.pure]

theorem readTempo_eq_error_iff : Directive.readTempo rest = .error fault ↔
    Text.words rest = [] ∧ fault = .missingValue "tempo" ∨
      ∃ word, (Text.words rest).head? = some word ∧
        (∀ bpm, Decimal.read? word = some bpm → bpm.isFinite = false) ∧
        fault = .invalidTempo (String.ofList word) := by
  unfold Directive.readTempo Directive.value
  cases Text.words rest with
  | nil =>
      simp only [bind, Except.bind, List.head?_nil, reduceCtorEq, false_and, exists_false,
        or_false, true_and, Except.error.injEq]
      exact eq_comm
  | cons word more =>
      have finite_iff : (∀ bpm, Decimal.read? word = some bpm → bpm.isFinite = false) ↔
          (Decimal.read? word).filter Binary64.isFinite = none := by
        rw [Option.filter_eq_none_iff]
        simp only [Bool.not_eq_true]
      simp only [bind, Except.bind, finite_iff, List.head?_cons, reduceCtorEq, false_and, false_or,
        Option.some.injEq, exists_eq_left']
      cases (Decimal.read? word).filter Binary64.isFinite with
      | none => simp [throw, throwThe, MonadExceptOf.throw, eq_comm]
      | some bpm => simp [pure, Except.pure]

theorem after?_eq_some_iff {keyword : String} : after? keyword line = some rest ↔
    String.ofList (Directive.split line.2).1 = keyword ∧ (Directive.split line.2).2 = rest := by
  simp [after?_eq]

theorem read_of_legato (said : after? "legato" line = some rest) :
    Directive.read line.2 = Directive.readLegato rest := by
  rcases after?_eq_some_iff.mp said with ⟨keyword, rfl⟩
  simp [Directive.read, keyword]

theorem read_of_tempo (said : after? "tempo" line = some rest) :
    Directive.read line.2 = Directive.readTempo rest := by
  rcases after?_eq_some_iff.mp said with ⟨keyword, rfl⟩
  simp [Directive.read, keyword]

theorem read_of_title {name : String} (titled : title? line = some name) :
    Directive.read line.2 = .ok (.pattern name) := by
  rcases Option.map_eq_some_iff.mp titled with ⟨rest, said, rfl⟩
  rcases after?_eq_some_iff.mp said with ⟨keyword, rfl⟩
  simp [Directive.read, keyword]

theorem read_of_tokens {tokens : List String} (measure : tokens? line = some tokens) :
    Directive.read line.2 = .ok (.measure tokens) := by
  rw [tokens?_eq] at measure
  split at measure
  · cases measure
  · rename_i noKeyword
    cases measure
    simp only [keywords, List.mem_cons, List.not_mem_nil, or_false, not_or] at noKeyword
    unfold Directive.read
    simp only
    split <;> simp_all

theorem read_eq_error (reading : Directive.read line.2 = .error fault) :
    (∃ rest, after? "legato" line = some rest ∧ Directive.readLegato rest = .error fault) ∨
      ∃ rest, after? "tempo" line = some rest ∧ Directive.readTempo rest = .error fault := by
  unfold Directive.read at reading
  simp only at reading
  split at reading
  case h_2 keyword => exact Or.inl ⟨_, after?_eq_some_iff.mpr ⟨keyword, rfl⟩, reading⟩
  case h_3 keyword => exact Or.inr ⟨_, after?_eq_some_iff.mpr ⟨keyword, rfl⟩, reading⟩
  all_goals cases reading

end Values

section Step

variable {draft : Draft}

theorem step_eq_error_of_read {fault : DirectiveError}
    (reading : Directive.read line.2 = .error fault) :
    draft.step resolver line.1 line.2 = .error (Draft.locate line.1 fault) := by
  simp only [Draft.step, reading]

theorem step_eq_apply {directive : Directive} (reading : Directive.read line.2 = .ok directive) :
    draft.step resolver line.1 line.2 = draft.apply resolver line.1 directive := by
  simp only [Draft.step, reading]

/-- What a line carries by itself is found in whatever state the draft is. -/
theorem Carries.step_eq_error (carries : Carries resolver line error) (draft : Draft) :
    draft.step resolver line.1 line.2 = .error error := by
  cases carries with
  | missingValue valued lacks =>
      rcases Option.isSome_iff_exists.mp lacks.1 with ⟨rest, said⟩
      have noWord : Text.words rest = [] := by simpa [value?, said] using lacks.2
      rcases valued with rfl | rfl
      · exact step_eq_error_of_read ((read_of_legato said).trans
          (readLegato_eq_error_iff.mpr (Or.inl ⟨noWord, rfl⟩)))
      · exact step_eq_error_of_read ((read_of_tempo said).trans
          (readTempo_eq_error_iff.mpr (Or.inl ⟨noWord, rfl⟩)))
  | invalidLegato given invalid =>
      rcases Option.bind_eq_some_iff.mp given with ⟨rest, said, first⟩
      exact step_eq_error_of_read ((read_of_legato said).trans
        (readLegato_eq_error_iff.mpr (Or.inr ⟨_, first, invalid, rfl⟩)))
  | invalidTempo given invalid =>
      rcases Option.bind_eq_some_iff.mp given with ⟨rest, said, first⟩
      exact step_eq_error_of_read ((read_of_tempo said).trans
        (readTempo_eq_error_iff.mpr (Or.inr ⟨_, first, invalid, rfl⟩)))
  | unresolved measure unresolved =>
      rw [step_eq_apply (read_of_tokens measure), Draft.apply,
        Measure.ofTokens_eq_error_iff.mpr unresolved]

theorem carries_of_read_eq_error {fault : DirectiveError}
    (reading : Directive.read line.2 = .error fault) :
    Carries resolver line (Draft.locate line.1 fault) := by
  rcases read_eq_error reading with ⟨rest, said, failing⟩ | ⟨rest, said, failing⟩
  · rcases readLegato_eq_error_iff.mp failing with
      ⟨noWord, rfl⟩ | ⟨word, first, invalid, rfl⟩
    · exact .missingValue (Or.inl rfl) ⟨by simp [said], by simp [value?, said, noWord]⟩
    · exact .invalidLegato (by simp [value?, said, first]) invalid
  · rcases readTempo_eq_error_iff.mp failing with
      ⟨noWord, rfl⟩ | ⟨word, first, invalid, rfl⟩
    · exact .missingValue (Or.inr rfl) ⟨by simp [said], by simp [value?, said, noWord]⟩
    · exact .invalidTempo (by simp [value?, said, first]) invalid

/-- A line fails for what it carries itself, or because it ends a section that cannot be kept. -/
theorem step_eq_error_iff : draft.step resolver line.1 line.2 = .error error ↔
    Carries resolver line error ∨ (title? line).isSome ∧ draft.closeSection = .error error := by
  constructor
  · intro failing
    cases reading : Directive.read line.2 with
    | error fault =>
        rw [step_eq_error_of_read reading] at failing
        rw [← Except.error.inj failing]
        exact Or.inl (carries_of_read_eq_error reading)
    | ok directive =>
        have meaning := means_of_read reading
        rw [step_eq_apply reading] at failing
        cases directive with
        | pattern name =>
            refine Or.inr ⟨by rw [meaning.title]; rfl, ?_⟩
            cases closing : draft.closeSection with
            | error _ =>
                rw [Draft.apply, closing] at failing
                exact failing
            | ok _ =>
                rw [Draft.apply, closing] at failing
                cases failing
        | measure tokens =>
            rw [Draft.apply] at failing
            split at failing
            · cases failing
            · rename_i token cause unread
              rw [← Except.error.inj failing]
              exact Or.inl (.unresolved meaning.tokens (Measure.ofTokens_eq_error_iff.mp unread))
        | instruments names => cases failing
        | legato percent => cases failing
        | tempo bpm => cases failing
        | chain names => cases failing
  · rintro (carries | ⟨titled, failing⟩)
    · exact carries.step_eq_error draft
    · rcases Option.isSome_iff_exists.mp titled with ⟨name, titled⟩
      rw [step_eq_apply (read_of_title titled), Draft.apply, failing]
      rfl

end Step

end Outline

end LiveScore
