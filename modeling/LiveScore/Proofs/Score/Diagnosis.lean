import LiveScore.Proofs.Score.Faults
import LiveScore.Proofs.Score.Lines

/-!
# Which error is reported

Reading stops at the first thing that is wrong. This file says for every error what a text has to
look like for it to be the one that is reported, without a draft, and so that exactly one can be.
The lines before the fault are accepted: nothing is wrong with them by themselves, and the sections
that end among them have different names. A repeated name only shows when the section ends, at the
next `pattern` line or at the end of the text, but what is reported is the line that named it.

Nothing after the first fault is read, so a text that starts with the same lines has the same error.
-/

namespace LiveScore

namespace Draft

variable {resolver : Resolver} {draft : Draft} {lines : List ScoreLine} {error : ScoreError}

/-- What the lines make of a draft, before the end of the text. -/
def run (resolver : Resolver) (draft : Draft) (lines : List ScoreLine) : Except ScoreError Draft :=
  lines.foldlM (fun draft line => draft.step resolver line.1 line.2) draft

theorem run_append (lines more : List ScoreLine) :
    draft.run resolver (lines ++ more) =
      (draft.run resolver lines).bind fun reached => reached.run resolver more := by
  rw [run, List.foldlM_append]
  rfl

theorem run_concat {reached : Draft} (running : draft.run resolver lines = .ok reached)
    (line : ScoreLine) :
    draft.run resolver (lines ++ [line]) = reached.step resolver line.1 line.2 := by
  rw [run_append, running]
  change (reached.step resolver line.1 line.2).bind pure = _
  cases reached.step resolver line.1 line.2 <;> rfl

end Draft

namespace Outline

variable {resolver : Resolver} {draft next : Draft} {line : ScoreLine} {lines : List ScoreLine}
  {error : ScoreError} {number : Nat} {name : String}

section Blocks

variable {front body : List ScoreLine}

theorem blocks_of_untitled (untitled : ∀ line ∈ lines, title? line = none) :
    blocks lines = [("", lines)] := by
  induction lines using List.reverseRecOn with
  | nil => rfl
  | append_singleton lines line ih =>
      rw [List.forall_mem_append, List.forall_mem_singleton] at untitled
      have alone : pieces title? "" lines = [] ++ [("", lines)] := ih untitled.1
      exact pieces_concat_item untitled.2 alone

/-- The last `pattern` line starts the last block. -/
theorem blocks_append_title (titled : title? line = some name)
    (untitled : ∀ line ∈ body, title? line = none) :
    blocks (front ++ line :: body) = blocks front ++ [(name, body)] := by
  induction body using List.reverseRecOn with
  | nil => exact pieces_concat_heading titled
  | append_singleton body last ih =>
      rw [List.forall_mem_append, List.forall_mem_singleton] at untitled
      rw [← List.cons_append, ← List.append_assoc]
      exact pieces_concat_item untitled.2 (ih untitled.1)

/-- A title at the end leaves the blocks before it as they were. -/
theorem dropLast_blocks_concat (titled : title? line = some name) :
    (blocks (lines ++ [line])).dropLast = blocks lines := by
  have longer : blocks (lines ++ [line]) = blocks lines ++ [(name, [])] :=
    pieces_concat_heading titled
  rw [longer, List.dropLast_concat]

theorem exists_last_block (lines : List ScoreLine) :
    ∃ closed title body, blocks lines = closed ++ [(title, body)] :=
  ⟨_, _, _, (List.dropLast_append_getLast (List.cons_ne_nil _ _)).symm⟩

/-- Lines have one last `pattern` line. -/
theorem last_title_unique {front' body' : List ScoreLine} {line' : ScoreLine} {name' : String}
    (same : front ++ line :: body = front' ++ line' :: body') (titled : title? line = some name)
    (untitled : ∀ line ∈ body, title? line = none) (titled' : title? line' = some name')
    (untitled' : ∀ line ∈ body', title? line = none) : line = line' := by
  have last : blocks (front ++ line :: body) = blocks front ++ [(name, body)] :=
    blocks_append_title titled untitled
  rw [same, blocks_append_title titled' untitled'] at last
  have sameBody : body' = body := (Prod.mk.inj (List.cons.inj (List.append_inj' last rfl).2).1).2
  exact (List.cons.inj (List.append_inj' same (by rw [sameBody]; rfl)).2).1

/-- The names of the sections among some blocks. -/
def names (blocks : List (String × List ScoreLine)) : List String :=
  (sections blocks).map SectionOutline.name

theorem names_concat (blocks : List (String × List ScoreLine)) (block : String × List ScoreLine) :
    names (blocks ++ [block]) =
      names blocks ++ if kept (groups block.2) = [] then [] else [block.1] := by
  by_cases noPart : kept (groups block.2) = [] <;> simp [names, sections_concat, noPart]

theorem name_of_section? {outline : SectionOutline} {sect : Section}
    (compiled : section? resolver outline = some sect) : sect.name = outline.name := by
  simp only [section?, Option.bind_eq_bind, Option.bind_eq_some_iff] at compiled
  rcases compiled with ⟨parts, _, same⟩
  cases same
  rfl

/-- Compiling sections keeps their names. -/
theorem names_eq_of_mapM {blocks : List (String × List ScoreLine)} {compiled : List Section}
    (mapped : (sections blocks).mapM (section? resolver) = some compiled) :
    names blocks = compiled.map Section.name := by
  rw [names]
  generalize sections blocks = outlines at mapped ⊢
  induction outlines generalizing compiled with
  | nil =>
      cases mapped
      rfl
  | cons outline rest ih =>
      simp only [List.mapM_cons, Option.bind_eq_bind, Option.bind_eq_some_iff] at mapped
      rcases mapped with ⟨sect, first, others, later, same⟩
      cases same
      rw [List.map_cons, List.map_cons, ih later, name_of_section? first]

end Blocks

/-- Lines that are accepted: nothing is wrong with any by itself, and the blocks that have ended are
kept under different names. -/
def Accepted (resolver : Resolver) (lines : List ScoreLine) : Prop :=
  (∀ line ∈ lines, Sound resolver line) ∧ (names (blocks lines).dropLast).Nodup

/-- The last block of the lines is kept under the name of an earlier section. The number is that of
the `pattern` line at which the block starts. -/
def EndsRepeated (lines : List ScoreLine) (number : Nat) (name : String) : Prop :=
  ∃ front text body, lines = front ++ (number, text) :: body ∧
    title? (number, text) = some name ∧ (∀ line ∈ body, title? line = none) ∧
    kept (groups body) ≠ [] ∧ name ∈ names (blocks front)

section Reached

/-- What is true of a draft after some lines: they have no fault, it is in step with their outline,
its names are distinct, and it knows the line that named the section in progress. -/
structure Reached (resolver : Resolver) (lines : List ScoreLine) (draft : Draft) : Prop where
  sound : ∀ line ∈ lines, Sound resolver line
  reflects : ∃ progress, Reflects resolver lines progress draft
  draft_sound : draft.Sound
  titled : (∀ line ∈ lines, title? line = none) ∨ ∃ front text body,
    lines = front ++ (draft.currentLine, text) :: body ∧
      title? (draft.currentLine, text) = some draft.current.name ∧
      ∀ line ∈ body, title? line = none

theorem reached_nil : Reached resolver [] {} where
  sound := List.forall_mem_nil _
  reflects := ⟨_, reflects_nil⟩
  draft_sound := ⟨List.nodup_nil, List.forall_mem_nil _⟩
  titled := Or.inl (List.forall_mem_nil _)

/-- Only a `pattern` line names a section. -/
theorem current_of_untitled (untitled : title? line = none)
    (stepping : draft.step resolver line.1 line.2 = .ok next) :
    next.currentLine = draft.currentLine ∧ next.current.name = draft.current.name := by
  rcases Draft.step_eq_ok stepping with ⟨directive, reading, applying⟩
  have meaning := means_of_read reading
  cases directive with
  | pattern name =>
      rw [meaning.title] at untitled
      cases untitled
  | instruments names =>
      cases Except.ok.inj applying
      simp
  | legato percent =>
      cases Except.ok.inj applying
      simp
  | tempo bpm =>
      cases Except.ok.inj applying
      simp
  | chain names =>
      cases Except.ok.inj applying
      split <;> simp
  | measure tokens =>
      rcases Draft.apply_measure_eq_ok applying with ⟨measure, _, rfl⟩
      simp [Draft.addMeasure]

theorem Reached.step (reached : Reached resolver lines draft)
    (stepping : draft.step resolver line.1 line.2 = .ok next) :
    Reached resolver (lines ++ [line]) next where
  sound := by
    rw [List.forall_mem_append, List.forall_mem_singleton]
    refine ⟨reached.sound, fun error carries => ?_⟩
    rw [carries.step_eq_error draft] at stepping
    cases stepping
  reflects := by
    rcases reached.reflects with ⟨progress, reflects⟩
    exact reflects.step stepping
  draft_sound := reached.draft_sound.step stepping
  titled := by
    cases titled : title? line with
    | some name =>
        rw [step_eq_apply (read_of_title titled)] at stepping
        rcases Draft.apply_pattern_eq_ok stepping with ⟨closed, _, rfl⟩
        exact Or.inr ⟨lines, line.2, [], rfl, titled, List.forall_mem_nil _⟩
    | none =>
        rcases current_of_untitled titled stepping with ⟨sameLine, sameName⟩
        rw [sameLine, sameName]
        rcases reached.titled with untitled | ⟨front, text, body, rfl, heads, untitled⟩
        · left
          rw [List.forall_mem_append, List.forall_mem_singleton]
          exact ⟨untitled, titled⟩
        · refine Or.inr ⟨front, text, body ++ [line], by simp, heads, ?_⟩
          rw [List.forall_mem_append, List.forall_mem_singleton]
          exact ⟨untitled, titled⟩

/-- The induction is on the lines that are still to come. -/
theorem Reached.run {more : List ScoreLine} {last : Draft} (reached : Reached resolver lines draft)
    (running : draft.run resolver more = .ok last) : Reached resolver (lines ++ more) last := by
  induction more generalizing lines draft with
  | nil =>
      cases running
      rwa [List.append_nil]
  | cons line rest ih =>
      rw [Draft.run, List.foldlM_cons] at running
      cases stepping : draft.step resolver line.1 line.2 with
      | error fault =>
          rw [stepping] at running
          cases running
      | ok next =>
          rw [stepping] at running
          rw [List.append_cons]
          exact ih (reached.step stepping) running

theorem reached_of_run (running : Draft.run resolver {} lines = .ok draft) :
    Reached resolver lines draft :=
  reached_nil.run running

theorem Reached.accepted (reached : Reached resolver lines draft) : Accepted resolver lines := by
  rcases reached.reflects with ⟨progress, reflects⟩
  refine ⟨reached.sound, ?_⟩
  rw [reflects.blocks_eq, List.dropLast_concat, names_eq_of_mapM reflects.sections_eq]
  exact reached.draft_sound.names_nodup

theorem Reflects.closed_of_untitled {progress : Progress}
    (reflects : Reflects resolver lines progress draft)
    (untitled : ∀ line ∈ lines, title? line = none) : progress.closed = [] := by
  have split : [] ++ [("", lines)] = progress.closed ++ [(progress.title, progress.body)] := by
    rw [← reflects.blocks_eq, blocks_of_untitled untitled, List.nil_append]
  exact (List.append_inj' split rfl).1.symm

theorem Reflects.last_block {front body : List ScoreLine} {progress : Progress}
    (reflects : Reflects resolver (front ++ line :: body) progress draft)
    (titled : title? line = some name) (untitled : ∀ line ∈ body, title? line = none) :
    progress.closed = blocks front ∧ progress.title = name ∧ progress.body = body := by
  have split := reflects.blocks_eq
  rw [blocks_append_title titled untitled] at split
  rcases List.append_inj' split rfl with ⟨sameClosed, sameLast⟩
  rcases Prod.mk.inj (List.cons.inj sameLast).1 with ⟨sameTitle, sameBody⟩
  exact ⟨sameClosed.symm, sameTitle.symm, sameBody.symm⟩

/-- Closing the section in progress fails if the lines end with a repeated name, and at the line
that named it. -/
theorem Reached.closeSection_eq_error_iff (reached : Reached resolver lines draft) :
    draft.closeSection = .error error ↔
      ∃ number name, EndsRepeated lines number name ∧ error = .duplicateSection number name := by
  rcases reached.reflects with ⟨progress, reflects⟩
  have parts_iff : draft.closePart.current.parts = [] ↔ kept (groups progress.body) = [] :=
    (eq_nil_iff_of_mapM reflects.closePart).symm
  have taken_iff : (∃ sect ∈ draft.sections, sect.name = draft.current.name) ↔
      draft.current.name ∈ names progress.closed := by
    rw [names_eq_of_mapM reflects.sections_eq, List.mem_map]
  rw [Draft.closeSection_eq_error_iff, ne_eq, parts_iff, taken_iff]
  constructor
  · rintro ⟨hasPart, taken, rfl⟩
    rcases reached.titled with untitled | ⟨front, text, body, rfl, titled, untitled⟩
    · -- The text before the first title is the first block, so no name is taken yet.
      rw [reflects.closed_of_untitled untitled] at taken
      cases taken
    · rcases reflects.last_block titled untitled with ⟨closed_eq, _, body_eq⟩
      rw [closed_eq] at taken
      rw [body_eq] at hasPart
      exact ⟨_, _, ⟨front, text, body, rfl, titled, untitled, hasPart, taken⟩, rfl⟩
  · rintro ⟨number, name, ⟨front, text, body, rfl, titled, untitled, hasPart, taken⟩, rfl⟩
    rcases reflects.last_block titled untitled with ⟨closed_eq, title_eq, body_eq⟩
    rw [body_eq, closed_eq, reflects.name_eq, title_eq]
    refine ⟨hasPart, taken, ?_⟩
    rcases reached.titled with none_titled | ⟨front', text', body', same, titled', untitled'⟩
    · rw [none_titled (number, text) (by simp)] at titled
      cases titled
    · have sameHead := last_title_unique same titled untitled titled' untitled'
      rw [(Prod.mk.inj sameHead).1]

theorem nodup_names_dropLast (distinct : (names (blocks lines)).Nodup) :
    (names (blocks lines).dropLast).Nodup := by
  rcases exists_last_block lines with ⟨closed, title, body, split⟩
  rw [split, names_concat] at distinct
  rw [split, List.dropLast_concat]
  exact (List.nodup_append.mp distinct).1

/-- The blocks that have ended stay the same, but for the last one that a title can end. -/
theorem Accepted.of_concat (accepted : Accepted resolver (lines ++ [line])) :
    Accepted resolver lines := by
  rcases accepted with ⟨sound, distinct⟩
  rw [List.forall_mem_append] at sound
  refine ⟨sound.1, ?_⟩
  cases titled : title? line with
  | some name =>
      rw [dropLast_blocks_concat titled] at distinct
      exact nodup_names_dropLast distinct
  | none =>
      rcases exists_last_block lines with ⟨closed, title, body, split⟩
      have longer : blocks (lines ++ [line]) = closed ++ [(title, body ++ [line])] :=
        pieces_concat_item titled split
      rw [longer, List.dropLast_concat] at distinct
      rwa [split, List.dropLast_concat]

theorem EndsRepeated.not_nodup (repeated : EndsRepeated lines number name) :
    ¬(names (blocks lines)).Nodup := by
  rcases repeated with ⟨front, text, body, rfl, titled, untitled, hasPart, taken⟩
  rw [blocks_append_title titled untitled, names_concat, if_neg hasPart, List.nodup_append]
  rintro ⟨_, _, apart⟩
  exact apart name taken name List.mem_cons_self rfl

theorem Reached.exists_closed (reached : Reached resolver lines draft)
    (distinct : (names (blocks lines)).Nodup) : ∃ closed, draft.closeSection = .ok closed := by
  cases closing : draft.closeSection with
  | ok closed => exact ⟨closed, rfl⟩
  | error error =>
      rcases reached.closeSection_eq_error_iff.mp closing with ⟨_, _, repeated, _⟩
      exact absurd distinct repeated.not_nodup

/-- Accepted lines are read to their end. The induction adds one line after the other. -/
theorem exists_run (accepted : Accepted resolver lines) :
    ∃ reached, Draft.run resolver {} lines = .ok reached := by
  induction lines using List.reverseRecOn with
  | nil => exact ⟨{}, rfl⟩
  | append_singleton lines line ih =>
      rcases ih accepted.of_concat with ⟨draft, running⟩
      rw [Draft.run_concat running]
      cases stepping : draft.step resolver line.1 line.2 with
      | ok next => exact ⟨next, rfl⟩
      | error error =>
          rcases step_eq_error_iff.mp stepping with carries | ⟨titled, closing⟩
          · exact absurd carries (accepted.1 line (by simp) error)
          · rcases Option.isSome_iff_exists.mp titled with ⟨name, titled⟩
            have distinct := accepted.2
            rw [dropLast_blocks_concat titled] at distinct
            rcases (reached_of_run running).exists_closed distinct with ⟨closed, closes⟩
            rw [closes] at closing
            cases closing

end Reached

section Blames

theorem Reached.chain_eq {closed : Draft} (reached : Reached resolver lines draft)
    (closing : draft.closeSection = .ok closed) :
    closed.chain = (lines.filterMap chain?).getLast?.getD [] := by
  rcases reached.reflects with ⟨progress, reflects⟩
  rw [(Draft.closeSection_rest closing).1, reflects.chain_eq]

theorem Reached.names_eq {closed : Draft} (reached : Reached resolver lines draft)
    (closing : draft.closeSection = .ok closed) :
    names (blocks lines) = closed.sections.map Section.name := by
  rcases reached.reflects with ⟨progress, reflects⟩
  exact names_eq_of_mapM (reflects.closeSection closing)

end Blames

end Outline

end LiveScore
