import LiveScore.Proofs.Score.Compilation
import LiveScore.Proofs.Score.Lines
import LiveScore.Proofs.Score.Measures
import LiveScore.Proofs.Score.Outline
import LiveScore.Proofs.Score.Playable

/-!
# Reading agrees with the outline

A draft holds what the outline says of the lines read so far: the sections of the finished blocks,
the parts of the finished groups of the current block, and the part of the current group. This is
kept by every line, because appending a line to a text either starts a block, starts a group or
extends the current group. At the end of the text the current block is finished as well, and the
draft and the outline give the same score.
-/

namespace LiveScore.Outline

variable {resolver : Resolver} {line : ScoreLine} {lines : List ScoreLine}

section Directives

/-- What a line says in the outline, given the directive as which it is read. -/
structure Means (line : ScoreLine) (directive : Directive) : Prop where
  title : title? line = match directive with
    | .pattern name => some name
    | _ => none
  instruments : instruments? line = match directive with
    | .instruments names => some names
    | _ => none
  legato : legato? line = match directive with
    | .legato percent => some percent
    | _ => none
  tempo : tempo? line = match directive with
    | .tempo bpm => some bpm
    | _ => none
  chain : chain? line = match directive with
    | .chain names => if names = [] then none else some names
    | _ => none
  tokens : tokens? line = match directive with
    | .measure tokens => some tokens
    | _ => none

theorem readLegato_eq_ok {rest : List Char} {directive : Directive}
    (reading : Directive.readLegato rest = .ok directive) :
    ∃ word percent, (Text.words rest).head? = some word ∧
      Numeral.int? (-0x8000000000000000) 0x7fffffffffffffff word = some percent ∧
      directive = .legato (max 0 (min percent 100)).toNat := by
  unfold Directive.readLegato Directive.value at reading
  cases words : Text.words rest with
  | nil =>
      rw [words] at reading
      cases reading
  | cons word more =>
      rw [words] at reading
      simp only [bind, Except.bind] at reading
      split at reading
      · rename_i percent number
        refine ⟨word, percent, rfl, number, ?_⟩
        rw [← Except.ok.inj reading]
        congr 1
        unfold fullLegato
        omega
      · cases reading

theorem readTempo_eq_ok {rest : List Char} {directive : Directive}
    (reading : Directive.readTempo rest = .ok directive) :
    ∃ word bpm, (Text.words rest).head? = some word ∧ Decimal.read? word = some bpm ∧
      bpm.isFinite = true ∧ directive = .tempo (bpm.clamp 1 300) := by
  unfold Directive.readTempo Directive.value at reading
  cases words : Text.words rest with
  | nil =>
      rw [words] at reading
      cases reading
  | cons word more =>
      rw [words] at reading
      simp only [bind, Except.bind] at reading
      split at reading
      · rename_i bpm finite
        rcases Option.filter_eq_some_iff.mp finite with ⟨number, isFinite⟩
        exact ⟨word, bpm, rfl, number, isFinite, (Except.ok.inj reading).symm⟩
      · cases reading

theorem means_of_read {directive : Directive} (reading : Directive.read line.2 = .ok directive) :
    Means line directive := by
  unfold Directive.read at reading
  simp only at reading
  split at reading
  · rename_i keyword
    cases Except.ok.inj reading
    constructor <;>
      simp [title?, instruments?, legato?, tempo?, chain?, tokens?_eq, after?_eq, keyword, keywords]
  · rename_i keyword
    rcases readLegato_eq_ok reading with ⟨word, percent, first, number, rfl⟩
    constructor <;>
      simp [title?, instruments?, legato?, tempo?, chain?, tokens?_eq, after?_eq, keyword, keywords,
        first, number]
  · rename_i keyword
    rcases readTempo_eq_ok reading with ⟨word, bpm, first, number, _, rfl⟩
    constructor <;>
      simp [title?, instruments?, legato?, tempo?, chain?, tokens?_eq, after?_eq, keyword, keywords,
        first, number]
  · rename_i keyword
    cases Except.ok.inj reading
    constructor <;>
      simp [title?, instruments?, legato?, tempo?, chain?, tokens?_eq, after?_eq, keyword, keywords,
        Option.filter]
  · rename_i keyword
    cases Except.ok.inj reading
    constructor <;>
      simp [title?, instruments?, legato?, tempo?, chain?, tokens?_eq, after?_eq, keyword, keywords,
        Directive.readInstruments]
  · rename_i keyword
    cases Except.ok.inj reading
    constructor <;>
      simp [title?, instruments?, legato?, tempo?, chain?, tokens?_eq, after?_eq, keyword, keywords,
        Directive.readInstruments]
  · cases Except.ok.inj reading
    constructor <;>
      simp_all [title?, instruments?, legato?, tempo?, chain?, tokens?_eq, after?_eq, keywords]

end Directives

section Concat

theorem legatoAfter_concat (lines : List ScoreLine) (line : ScoreLine) :
    legatoAfter (lines ++ [line]) = (legato? line).getD (legatoAfter lines) := by
  cases legato : legato? line <;> simp [legatoAfter, legato]

theorem tempoAfter_concat (lines : List ScoreLine) (line : ScoreLine) :
    tempoAfter (lines ++ [line]) = (tempo? line).getD (tempoAfter lines) := by
  cases tempo : tempo? line <;> simp [tempoAfter, tempo]

theorem measureLines_concat (group : List ScoreLine) (line : ScoreLine) :
    measureLines (group ++ [line]) = measureLines group ++
      ((tokens? line).map fun tokens =>
        ⟨line.1, legatoAfter (group ++ [line]), tokens⟩).toList := by
  cases tokens : tokens? line <;> simp [measureLines, tokens]

theorem sections_concat (blocks : List (String × List ScoreLine))
    (block : String × List ScoreLine) :
    sections (blocks ++ [block]) = sections blocks ++
      if kept (groups block.2) = [] then []
      else
        [⟨block.1, tempoAfter ((blocks ++ [block]).flatMap Prod.snd), kept (groups block.2)⟩] := by
  by_cases noPart : kept (groups block.2) = [] <;> simp [sections, noPart]

theorem kept_append (groups later : List (List String × List ScoreLine)) :
    kept (groups ++ later) = kept groups ++ kept later := by
  simp [kept]

theorem ignored_append (groups later : List (List String × List ScoreLine)) :
    ignored (groups ++ later) = ignored groups ++ ignored later := by
  simp [ignored]

theorem mapM_append_of_eq_some {α β : Type} {f : α → Option β} {items more : List α}
    {results others : List β} (first : items.mapM f = some results)
    (second : more.mapM f = some others) :
    (items ++ more).mapM f = some (results ++ others) := by
  simp [first, second]

theorem eq_nil_iff_of_mapM {α β : Type} {f : α → Option β} {items : List α} {results : List β}
    (mapped : items.mapM f = some results) : items = [] ↔ results = [] := by
  cases items with
  | nil => simp_all
  | cons item rest =>
      simp only [List.mapM_cons, Option.bind_eq_bind, Option.bind_eq_some_iff] at mapped
      rcases mapped with ⟨result, _, others, _, same⟩
      cases same
      simp

theorem instruments_of_part? {group : List String × List ScoreLine} {part : Part}
    (compiled : part? resolver group = some part) : part.instruments = group.1 := by
  simp only [part?, Option.bind_eq_bind, Option.bind_eq_some_iff] at compiled
  rcases compiled with ⟨measures, _, same⟩
  cases same
  rfl

theorem legato_of_part? {group : List String × List ScoreLine} {part : Part}
    (compiled : part? resolver group = some part) : part.legato = legatoAfter group.2 := by
  simp only [part?, Option.bind_eq_bind, Option.bind_eq_some_iff] at compiled
  rcases compiled with ⟨measures, _, same⟩
  cases same
  rfl

/-- The longest part is found from either side, and none of no parts is longer than nothing. -/
theorem longest_eq (parts : List Part) : (parts.map fun part => part.measures.length).max?.getD 0 =
    (parts.map fun part => part.measures.length).foldl max 0 := by
  cases parts with
  | nil => rfl
  | cons part rest =>
      rw [List.map_cons, List.max?_cons', Option.getD_some, List.foldl_cons, Nat.zero_max]

/-- A line that is no measure can only change the legato of its group. -/
theorem part?_concat_of_no_tokens {names : List String} {group : List ScoreLine} {part : Part}
    (compiled : part? resolver (names, group) = some part) (silent : tokens? line = none) :
    part? resolver (names, group ++ [line]) =
      some { part with legato := (legato? line).getD part.legato } := by
  rw [legato_of_part? compiled]
  simp only [part?, Option.bind_eq_bind, Option.bind_eq_some_iff] at compiled
  rcases compiled with ⟨measures, mapped, same⟩
  cases same
  simp [part?, measureLines_concat, silent, mapped, legatoAfter_concat]

/-- A measure line adds its measure at the legato of its group so far. -/
theorem part?_concat_of_tokens {names tokens : List String} {group : List ScoreLine} {part : Part}
    {measure : Measure} (compiled : part? resolver (names, group) = some part)
    (written : tokens? line = some tokens) (noLegato : legato? line = none)
    (accepted : Measure.ofTokens resolver part.legato tokens = .ok measure) :
    part? resolver (names, group ++ [line]) =
      some { part with measures := part.measures ++ [measure] } := by
  rw [legato_of_part? compiled] at accepted
  simp only [part?, Option.bind_eq_bind, Option.bind_eq_some_iff] at compiled
  rcases compiled with ⟨measures, mapped, same⟩
  cases same
  simp [part?, measureLines_concat, written, noLegato, mapped, legatoAfter_concat, measure?,
    accepted, Except.toOption]

end Concat

section Reflection

/-- How far the outline of a text has come: the finished blocks, the title and the lines of the
current one, its finished groups, and the instruments and the lines of the current group. -/
structure Progress where
  closed : List (String × List ScoreLine)
  title : String
  body : List ScoreLine
  heads : List (List String × List ScoreLine)
  names : List String
  group : List ScoreLine

/-- A draft holds what the outline says of the lines read so far. -/
structure Reflects (resolver : Resolver) (lines : List ScoreLine) (progress : Progress)
    (draft : Draft) : Prop where
  blocks_eq : blocks lines = progress.closed ++ [(progress.title, progress.body)]
  groups_eq : groups progress.body = progress.heads ++ [(progress.names, progress.group)]
  sections_eq : (sections progress.closed).mapM (section? resolver) = some draft.sections
  name_eq : draft.current.name = progress.title
  tempo_eq : draft.current.tempo = tempoAfter ((blocks lines).flatMap Prod.snd)
  parts_eq : (kept progress.heads).mapM (part? resolver) = some draft.current.parts
  part_eq : part? resolver (progress.names, progress.group) = some draft.part
  chain_eq : draft.chain = (lines.filterMap chain?).getLast?.getD []
  warnings_eq : draft.warnings = ignored ((blocks lines).flatMap fun block => groups block.2)

variable {progress : Progress} {draft next : Draft}

theorem reflects_nil : Reflects resolver [] ⟨[], "", [], [], [], []⟩ {} where
  blocks_eq := rfl
  groups_eq := rfl
  sections_eq := rfl
  name_eq := rfl
  tempo_eq := rfl
  parts_eq := rfl
  part_eq := rfl
  chain_eq := rfl
  warnings_eq := rfl

/-- Finishing the current group turns it into a part if it has an instrument. -/
theorem Reflects.closePart (reflects : Reflects resolver lines progress draft) :
    (kept (groups progress.body)).mapM (part? resolver) =
      some draft.closePart.current.parts := by
  rw [reflects.groups_eq, kept_append, Draft.parts_closePart]
  refine mapM_append_of_eq_some reflects.parts_eq ?_
  rw [instruments_of_part? reflects.part_eq]
  by_cases noNames : progress.names = [] <;> simp [kept, noNames, reflects.part_eq]

/-- Finishing the current block turns it into a section if it has a part. -/
theorem Reflects.closeSection {closed : Draft} (reflects : Reflects resolver lines progress draft)
    (closing : draft.closeSection = .ok closed) :
    (sections (blocks lines)).mapM (section? resolver) = some closed.sections := by
  have parts := reflects.closePart
  have tempo := reflects.tempo_eq
  rw [reflects.blocks_eq] at tempo ⊢
  rw [sections_concat]
  rcases Draft.closeSection_eq_ok closing with ⟨noPart, rfl⟩ | ⟨hasPart, _, rfl⟩
  · rw [if_pos ((eq_nil_iff_of_mapM parts).mpr noPart), List.append_nil]
    exact reflects.sections_eq
  · rw [if_neg (mt (eq_nil_iff_of_mapM parts).mp hasPart)]
    refine mapM_append_of_eq_some reflects.sections_eq ?_
    have compiled : section? resolver ⟨progress.title, draft.current.tempo,
        kept (groups progress.body)⟩ = some draft.closePart.current.countMeasures := by
      simp only [section?, parts]
      rw [← reflects.name_eq, ← Draft.name_closePart, ← Draft.tempo_closePart]
      simp [Section.countMeasures, longest_eq]
    rw [← tempo]
    simp [compiled]

/-- A line that starts neither a block nor a group extends the current group. -/
theorem Reflects.extend (reflects : Reflects resolver lines progress draft)
    (noTitle : title? line = none) (noNames : instruments? line = none)
    (sections_eq : next.sections = draft.sections)
    (name_eq : next.current.name = draft.current.name)
    (parts_eq : next.current.parts = draft.current.parts)
    (tempo_eq : next.current.tempo = (tempo? line).getD draft.current.tempo)
    (part_eq : part? resolver (progress.names, progress.group ++ [line]) = some next.part)
    (chain_eq : next.chain = (chain? line).getD draft.chain)
    (warnings_eq : next.warnings = draft.warnings ++
      if progress.names = [] then ((tokens? line).map fun _ => line.1).toList else []) :
    Reflects resolver (lines ++ [line])
      { progress with body := progress.body ++ [line], group := progress.group ++ [line] }
      next := by
  have blocks_concat : blocks (lines ++ [line]) =
      progress.closed ++ [(progress.title, progress.body ++ [line])] :=
    pieces_concat_item noTitle reflects.blocks_eq
  have groups_concat : groups (progress.body ++ [line]) =
      progress.heads ++ [(progress.names, progress.group ++ [line])] :=
    pieces_concat_item noNames reflects.groups_eq
  refine ⟨blocks_concat, groups_concat, ?_, ?_, ?_, ?_, part_eq, ?_, ?_⟩
  · rw [sections_eq, reflects.sections_eq]
  · rw [name_eq, reflects.name_eq]
  · rw [tempo_eq, reflects.tempo_eq, reflects.blocks_eq, blocks_concat, ← tempoAfter_concat]
    simp
  · rw [parts_eq, reflects.parts_eq]
  · rw [chain_eq, reflects.chain_eq]
    cases named : chain? line <;> simp [named]
  · rw [warnings_eq, reflects.warnings_eq, reflects.blocks_eq, blocks_concat]
    simp only [List.flatMap_append, List.flatMap_cons, List.flatMap_nil, List.append_nil,
      reflects.groups_eq, groups_concat, ignored_append, List.append_assoc]
    congr 2
    by_cases nobody : progress.names = []
    · cases written : tokens? line <;> simp [ignored, nobody, measureLines_concat, written]
    · simp [ignored, nobody]

/-- A line that is neither a heading nor a measure sets the legato, the tempo or the chain. -/
theorem Reflects.set (reflects : Reflects resolver lines progress draft)
    (noTitle : title? line = none) (noNames : instruments? line = none)
    (silent : tokens? line = none) :
    Reflects resolver (lines ++ [line])
      { progress with body := progress.body ++ [line], group := progress.group ++ [line] }
      { draft with
        chain := (chain? line).getD draft.chain
        current := { draft.current with tempo := (tempo? line).getD draft.current.tempo }
        part := { draft.part with legato := (legato? line).getD draft.part.legato } } := by
  have compiled := part?_concat_of_no_tokens reflects.part_eq silent
  refine reflects.extend noTitle noNames rfl rfl rfl rfl compiled rfl ?_
  simp [silent]

/-- A `pattern` line finishes the current block and starts another one. -/
theorem Reflects.startBlock {name : String} (reflects : Reflects resolver lines progress draft)
    (meaning : Means line (.pattern name))
    (applying : draft.apply resolver line.1 (.pattern name) = .ok next) :
    Reflects resolver (lines ++ [line]) ⟨blocks lines, name, [], [], [], []⟩ next := by
  rcases Draft.apply_pattern_eq_ok applying with ⟨closed, closing, rfl⟩
  rcases Draft.closeSection_rest closing with ⟨chain_eq, part_eq, warnings_eq, parts_eq, tempo_eq⟩
  have sections_eq := reflects.closeSection closing
  have blocks_concat : blocks (lines ++ [line]) = blocks lines ++ [(name, [])] :=
    pieces_concat_heading meaning.title
  refine ⟨blocks_concat, rfl, sections_eq, rfl, ?_, rfl, ?_, ?_, ?_⟩
  · rw [blocks_concat]
    simp [tempo_eq, reflects.tempo_eq]
  · simp only [part_eq]
    rfl
  · simp [chain_eq, reflects.chain_eq, meaning.chain]
  · simp only [warnings_eq, reflects.warnings_eq, blocks_concat]
    simp [ignored, groups, measureLines]

/-- An `instruments` line finishes the current group and starts another one. -/
theorem Reflects.startGroup {names : List String}
    (reflects : Reflects resolver lines progress draft) (meaning : Means line (.instruments names))
    (applying : draft.apply resolver line.1 (.instruments names) = .ok next) :
    Reflects resolver (lines ++ [line])
      { progress with
        body := progress.body ++ [line]
        heads := groups progress.body
        names
        group := [] } next := by
  cases Except.ok.inj applying
  have blocks_concat : blocks (lines ++ [line]) =
      progress.closed ++ [(progress.title, progress.body ++ [line])] :=
    pieces_concat_item meaning.title reflects.blocks_eq
  have groups_concat : groups (progress.body ++ [line]) = groups progress.body ++ [(names, [])] :=
    pieces_concat_heading meaning.instruments
  refine ⟨blocks_concat, groups_concat, reflects.sections_eq, ?_, ?_, reflects.closePart, rfl,
    ?_, ?_⟩
  · simp [reflects.name_eq]
  · have unchanged := tempoAfter_concat ((blocks lines).flatMap Prod.snd) line
    rw [meaning.tempo] at unchanged
    simp only [Draft.tempo_closePart, reflects.tempo_eq, Option.getD_none] at unchanged ⊢
    rw [← unchanged, reflects.blocks_eq, blocks_concat]
    simp
  · simp [reflects.chain_eq, meaning.chain]
  · simp only [Draft.warnings_closePart, reflects.warnings_eq, reflects.blocks_eq, blocks_concat]
    simp only [List.flatMap_append, List.flatMap_cons, List.flatMap_nil, List.append_nil,
      groups_concat, ignored_append]
    simp [ignored, measureLines]

/-- Every line that a draft accepts keeps it in step with the outline. -/
theorem Reflects.step (reflects : Reflects resolver lines progress draft)
    (stepping : draft.step resolver line.1 line.2 = .ok next) :
    ∃ progress, Reflects resolver (lines ++ [line]) progress next := by
  rcases Draft.step_eq_ok stepping with ⟨directive, reading, applying⟩
  have meaning := means_of_read reading
  cases directive with
  | pattern name => exact ⟨_, reflects.startBlock meaning applying⟩
  | instruments names => exact ⟨_, reflects.startGroup meaning applying⟩
  | legato percent =>
      cases Except.ok.inj applying
      have reflected := reflects.set meaning.title meaning.instruments meaning.tokens
      rw [meaning.legato, meaning.tempo, meaning.chain] at reflected
      exact ⟨_, reflected⟩
  | tempo bpm =>
      cases Except.ok.inj applying
      have reflected := reflects.set meaning.title meaning.instruments meaning.tokens
      rw [meaning.legato, meaning.tempo, meaning.chain] at reflected
      exact ⟨_, reflected⟩
  | chain names =>
      have reflected := reflects.set meaning.title meaning.instruments meaning.tokens
      rw [meaning.legato, meaning.tempo, meaning.chain] at reflected
      simp only [Draft.apply] at applying
      cases Except.ok.inj applying
      by_cases unnamed : names = []
      · simp only [if_pos unnamed] at reflected ⊢
        exact ⟨_, reflected⟩
      · simp only [if_neg unnamed] at reflected ⊢
        exact ⟨_, reflected⟩
  | measure tokens =>
      rcases Draft.apply_measure_eq_ok applying with ⟨measure, accepted, rfl⟩
      have compiled :=
        part?_concat_of_tokens reflects.part_eq meaning.tokens meaning.legato accepted
      refine ⟨_, reflects.extend meaning.title meaning.instruments rfl rfl rfl ?_ ?_ ?_ ?_⟩
      · simp [meaning.tempo, Draft.addMeasure]
      · simpa [Draft.addMeasure] using compiled
      · simp [meaning.chain, Draft.addMeasure]
      · have instruments := instruments_of_part? reflects.part_eq
        simp only at instruments
        by_cases nobody : progress.names = [] <;>
          simp [Draft.addMeasure, instruments, nobody, meaning.tokens]

/-- At the end of the text the sections are those of all blocks. -/
theorem Reflects.finish {score : Score} (reflects : Reflects resolver lines progress draft)
    (finishing : draft.finish = .ok score) (names_nodup : (score.sections.map Section.name).Nodup) :
    score? resolver lines = some score := by
  rcases Draft.finish_eq_ok finishing with
    ⟨closed, closing, _, sections_eq, chain_eq, index_eq, _⟩
  have compiled := reflects.closeSection closing
  have chain_last := reflects.chain_eq
  rw [← (Draft.closeSection_rest closing).1] at chain_last
  have chain_getD : score.chain =
      (lines.filterMap chain?).getLast?.getD (closed.sections.map Section.name) := by
    rw [chain_eq, chain_last]
    cases last : (lines.filterMap chain?).getLast? with
    | none => simp
    | some names =>
        -- A `chain` line without names sets no chain, so the last one set has a name.
        have named : names ≠ [] := by
          rcases List.mem_filterMap.mp (List.mem_of_getLast? last) with ⟨line, _, said⟩
          simpa using (Option.filter_eq_some_iff.mp said).2
        simp [named]
  have index_zip : score.index = (closed.sections.map Section.name).zipIdx := by
    rw [sections_eq] at names_nodup
    rw [index_eq, SectionIndex.ofSections_of_nodup names_nodup]
  rw [score?, compiled]
  change some (Score.mk closed.sections _ _) = some score
  rw [← chain_getD, ← index_zip, ← sections_eq]

end Reflection

/-- Every measure line is counted once: as a measure of the draft or as a warning. -/
theorem length_measures_step {draft next : Draft}
    (counted : draft.measures.length + draft.warnings.length = (lines.filterMap tokens?).length)
    (stepping : draft.step resolver line.1 line.2 = .ok next) :
    next.measures.length + next.warnings.length =
      ((lines ++ [line]).filterMap tokens?).length := by
  rw [List.filterMap_append, List.length_append, ← counted]
  rcases Draft.measures_step stepping with
    ⟨same, quiet, noMeasure⟩ | ⟨tokens, added, reading, _, ⟨more, quiet⟩ | ⟨same, warned⟩⟩
  · rcases Draft.step_eq_ok stepping with ⟨directive, reading, _⟩
    have silent : tokens? line = none := by
      rw [(means_of_read reading).tokens]
      cases directive with
      | measure tokens => exact absurd reading (noMeasure tokens)
      | _ => rfl
    simp [same, quiet, silent]
  · simp [more, quiet, (means_of_read reading).tokens]
    omega
  · simp [same, warned, (means_of_read reading).tokens]
    omega

/-- Whenever reading a text gives a score, it is the score of the outline of the lines that say
something: block by block, group by group and line by line. Each section is as long as its longest
part, the warnings name exactly the measure lines of groups without an instrument, and every measure
line of the text is either a measure of the score or named by a warning. -/
theorem read_eq_outline {source : String} {score : Score}
    (accepted : (Score.read resolver source).outcome = .ok score) :
    ∃ lines, KeptLines source.toList lines ∧ score? resolver lines = some score ∧
      (∀ sect ∈ score.sections,
        IsGreatest {count | ∃ part ∈ sect.parts, part.measures.length = count}
          sect.measureCount) ∧
      (Score.read resolver source).warnings =
        ignored ((blocks lines).flatMap fun block => groups block.2) ∧
      score.measures.length + (Score.read resolver source).warnings.length =
        (lines.filterMap tokens?).length := by
  have playable := Score.playable_of_read accepted
  rcases Score.read_induction
    (fun before draft => (∃ progress, Reflects resolver before progress draft) ∧
      draft.measures.length + draft.warnings.length = (before.filterMap tokens?).length)
    ⟨⟨_, reflects_nil⟩, rfl⟩
    (fun _ _ _ _ ⟨⟨_, reflects⟩, counted⟩ stepping =>
      ⟨reflects.step stepping, length_measures_step counted stepping⟩)
    accepted with ⟨last, ⟨⟨progress, reflects⟩, counted⟩, finishing, warnings_eq⟩
  refine ⟨_, Directive.keptLines_numberedLines source.toList,
    reflects.finish finishing playable.names_nodup, ?_, ?_, ?_⟩
  · intro sect sect_mem
    exact (playable.complete sect sect_mem).longest
  · rw [warnings_eq, reflects.warnings_eq]
  · rw [warnings_eq, Draft.measures_finish finishing]
    exact counted

/-- A text with measures that nobody plays, names that are blank, a legato that changes within a
group and is out of range, a block without a part, a tempo out of range in it and a chain. -/
def sample : String :=
  "\n".intercalate ["tempo 90", "c", "pattern a", "d", "instruments X, ,Y", "legato 50", "e- .",
    "legato 250", "f", "instrument ,", "g", "pattern empty", "tempo 400", "pattern b", "chain b a",
    "instruments Z", "c d", "# end"]

theorem read_eq_outline_sample :
    ∃ score, (Score.read .unison sample).outcome = .ok score ∧
      ∃ lines, KeptLines sample.toList lines ∧ score? .unison lines = some score ∧
        (∀ sect ∈ score.sections,
          IsGreatest {count | ∃ part ∈ sect.parts, part.measures.length = count}
            sect.measureCount) ∧
        (Score.read .unison sample).warnings =
          ignored ((blocks lines).flatMap fun block => groups block.2) ∧
        score.measures.length + (Score.read .unison sample).warnings.length =
          (lines.filterMap tokens?).length := by
  have accepted : (Score.read .unison sample).outcome.toOption.isSome = true := by
    decide +kernel
  cases outcome : (Score.read .unison sample).outcome with
  | error error =>
      rw [outcome] at accepted
      cases accepted
  | ok score => exact ⟨score, rfl, read_eq_outline outcome⟩

end LiveScore.Outline
