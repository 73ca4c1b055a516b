import LiveScore.CommandLine.Arguments
import LiveScore.Proofs.Numeric.Numeral
import Mathlib.Data.List.Induction

/-!
# Groups of arguments

Words are understood if they can be cut into groups: an option with the value that it takes, an
option without one, or the path of a score. There is one way to read a group wherever it stands,
because an option takes its value before anything looks at it, so what the words ask for is
collected from the groups: the score is the only one, an option with a value counts where it stands
last, and one without a value counts wherever it stands.

The order of the groups matters only among those of one option. Putting groups in another order that
keeps this one changes nothing.
-/

namespace LiveScore.Arguments

/-- Words that belong together. -/
inductive Group where
  | config (file : String)
  | latency (text : String) (milliseconds : Nat)
  | click
  | listMidi
  | help
  | shortHelp
  | score (path : String)
deriving DecidableEq

namespace Group

/-- The option that a group starts with; a score has none. -/
def option? : Group → Option String
  | config _ => some "--config"
  | latency _ _ => some "--latency"
  | click => some "--click"
  | listMidi => some "--list-midi"
  | help => some "--help"
  | shortHelp => some "-h"
  | score _ => none

/-- The word after the option, or the score. -/
def value? : Group → Option String
  | config file => some file
  | latency text _ => some text
  | score path => some path
  | _ => none

/-- The words that a group consists of. -/
def words (group : Group) : List String := group.option?.toList ++ group.value?.toList

/-- A latency is a natural number of 64 bits, and a score does not look like an option. -/
def Valid : Group → Prop
  | latency text milliseconds =>
      Numeral.WritesNat text.toList milliseconds ∧ milliseconds < Nat.pow 2 64
  | score path => path.toList.head? ≠ some '-'
  | _ => True

/-- The settings file that a group names. -/
def config? : Group → Option String
  | config file => some file
  | _ => none

/-- The latency that a group tells. -/
def latency? : Group → Option Nat
  | latency _ milliseconds => some milliseconds
  | _ => none

/-- The score that a group names. -/
def score? : Group → Option String
  | score path => some path
  | _ => none

end Group

/-- The words are those of the groups from left to right, of which at most one is a score. -/
structure Splits (words : List String) (groups : List Group) : Prop where
  words_eq : words = groups.flatMap Group.words
  valid : ∀ group ∈ groups, group.Valid
  scores : (groups.filterMap Group.score?).length ≤ 1

/-- What groups ask for: the last value of each kind, and the options without a value that occur. -/
def ofGroups (groups : List Group) : Arguments where
  score := (groups.filterMap Group.score?).getLast?
  config := (groups.filterMap Group.config?).getLast?
  click := .click ∈ groups
  latencyMs := (groups.filterMap Group.latency?).getLast?
  listMidi := .listMidi ∈ groups
  help := .help ∈ groups ∨ .shortHelp ∈ groups

/-- Two lists of groups that differ in the order of groups with different options only. -/
def Reordered (groups other : List Group) : Prop :=
  ∀ option : Option String,
    groups.filter (fun group => group.option? = option) =
      other.filter fun group => group.option? = option

/-- What is asked for when a group follows. -/
def add (taken : Arguments) : Group → Arguments
  | .config file => { taken with config := some file }
  | .latency _ milliseconds => { taken with latencyMs := some milliseconds }
  | .click => { taken with click := true }
  | .listMidi => { taken with listMidi := true }
  | .help => { taken with help := true }
  | .shortHelp => { taken with help := true }
  | .score path => { taken with score := some path }

variable {taken arguments : Arguments} {words rest : List String} {groups other : List Group}
  {group : Group}

namespace WordKind

/-- The words of a kind. -/
def Fits : WordKind → String → Prop
  | config, word => word = "--config"
  | latency, word => word = "--latency"
  | click, word => word = "--click"
  | listMidi, word => word = "--list-midi"
  | help, word => word = "--help" ∨ word = "-h"
  | unknown, word => word.toList.head? = some '-'
  | score, word => word.toList.head? ≠ some '-'

theorem fits_ofWord (word : String) : (ofWord word).Fits word := by
  unfold ofWord
  split_ifs <;> assumption

theorem fits_of_ofWord {kind : WordKind} {word : String} (kind_eq : ofWord word = kind) :
    kind.Fits word := by
  rw [← kind_eq]
  exact fits_ofWord word

theorem ofWord_of_head?_ne {path : String} (noHyphen : path.toList.head? ≠ some '-') :
    ofWord path = .score := by
  have fits := fits_ofWord path
  cases kind : ofWord path with
  | score => rfl
  | unknown =>
      rw [kind] at fits
      exact absurd fits noHyphen
  | help =>
      rw [kind] at fits
      rcases fits with rfl | rfl <;> exact absurd rfl noHyphen
  | _ =>
      rw [kind] at fits
      cases fits
      exact absurd rfl noHyphen

end WordKind

theorem lt_iff_le_greatestLatency {milliseconds : Nat} :
    milliseconds < Nat.pow 2 64 ↔ milliseconds ≤ greatestLatency := by
  have successor : Nat.pow 2 64 = greatestLatency + 1 := rfl
  rw [successor, Nat.lt_succ_iff]

/-- A group is read as a whole, whatever follows. -/
theorem readAfter_words (valid : group.Valid) :
    readAfter taken (group.words ++ rest) =
      if taken.score.isSome ∧ group.score?.isSome then .error .secondScore
      else readAfter (taken.add group) rest := by
  cases group with
  | latency text milliseconds =>
      have reading := Numeral.nat?_eq_some_iff.mpr (valid.imp_right lt_iff_le_greatestLatency.mp)
      simp [Group.words, Group.option?, Group.value?, Group.score?, readAfter, WordKind.ofWord,
        reading, add]
  | score path =>
      have kind := WordKind.ofWord_of_head?_ne valid
      cases rest <;>
        simp [Group.words, Group.option?, Group.value?, Group.score?, readAfter, kind, add]
  | _ =>
      cases rest <;>
        simp [Group.words, Group.option?, Group.value?, Group.score?, readAfter, WordKind.ofWord,
          add]

theorem score_add (taken : Arguments) (group : Group) :
    (taken.add group).score = group.score?.or taken.score := by
  cases group <;> rfl

/-- What the groups from left to right ask for, one after the other. -/
theorem readAfter_flatMap (valid : ∀ group ∈ groups, group.Valid) :
    readAfter taken (groups.flatMap Group.words) =
      if taken.score.toList.length + (groups.filterMap Group.score?).length ≤ 1 then
        .ok (groups.foldl add taken)
      else .error .secondScore := by
  induction groups generalizing taken with
  | nil => cases score : taken.score <;> simp [readAfter]
  | cons group rest ih =>
      rcases List.forall_mem_cons.mp valid with ⟨first, others⟩
      rw [List.flatMap_cons, readAfter_words first, ih others, score_add, List.filterMap_cons,
        List.foldl_cons]
      cases group.score? <;> cases taken.score <;> grind

theorem ofGroups_concat (groups : List Group) (group : Group) :
    ofGroups (groups ++ [group]) = (ofGroups groups).add group := by
  cases group <;> simp [ofGroups, add, Group.score?, Group.config?, Group.latency?]

theorem foldl_add (groups : List Group) : groups.foldl add {} = ofGroups groups := by
  induction groups using List.reverseRecOn with
  | nil => rfl
  | append_singleton groups group ih =>
      rw [List.foldl_append, List.foldl_cons, List.foldl_nil, ih, ofGroups_concat]

theorem read_flatMap (valid : ∀ group ∈ groups, group.Valid) :
    read (groups.flatMap Group.words) =
      if (groups.filterMap Group.score?).length ≤ 1 then .ok (ofGroups groups)
      else .error .secondScore := by
  rw [read, readAfter_flatMap valid, foldl_add]
  simp

theorem exists_groups_cons (group : Group) (valid : group.Valid)
    (split : ∃ groups : List Group, rest = groups.flatMap Group.words ∧
      ∀ group ∈ groups, group.Valid) :
    ∃ groups : List Group, group.words ++ rest = groups.flatMap Group.words ∧
      ∀ group ∈ groups, group.Valid := by
  rcases split with ⟨groups, rfl, others⟩
  exact ⟨group :: groups, rfl, List.forall_mem_cons.mpr ⟨valid, others⟩⟩

/-- Words that are understood can be cut into groups. The induction follows the reader, which takes
one group in each step. -/
theorem exists_groups_of_readAfter (reading : readAfter taken words = .ok arguments) :
    ∃ groups : List Group, words = groups.flatMap Group.words ∧
      ∀ group ∈ groups, group.Valid := by
  fun_induction readAfter taken words with
  | case1 => exact ⟨[], rfl, nofun⟩
  | case3 taken word config file rest ih =>
      cases WordKind.fits_of_ofWord config
      exact exists_groups_cons (.config file) trivial (ih reading)
  | case5 taken word latency text rest milliseconds number ih =>
      cases WordKind.fits_of_ofWord latency
      have valid := (Numeral.nat?_eq_some_iff.mp number).imp_right lt_iff_le_greatestLatency.mpr
      exact exists_groups_cons (.latency text milliseconds) valid (ih reading)
  | case7 taken word rest click ih =>
      cases WordKind.fits_of_ofWord click
      exact exists_groups_cons .click trivial (ih reading)
  | case8 taken word rest listMidi ih =>
      cases WordKind.fits_of_ofWord listMidi
      exact exists_groups_cons .listMidi trivial (ih reading)
  | case9 taken word rest help ih =>
      rcases WordKind.fits_of_ofWord help with rfl | rfl
      · exact exists_groups_cons .help trivial (ih reading)
      · exact exists_groups_cons .shortHelp trivial (ih reading)
  | case12 taken word rest score free ih =>
      have noHyphen := WordKind.fits_of_ofWord score
      exact exists_groups_cons (.score word) noHyphen (ih reading)
  | case2 | case4 | case6 | case10 | case11 => cases reading

namespace Reordered

variable (reordered : Reordered groups other)

include reordered

theorem mem_iff (group : Group) : group ∈ groups ↔ group ∈ other := by
  have same := congrArg (group ∈ ·) (reordered group.option?)
  simpa using same

/-- What is taken from the groups of one option does not change. -/
theorem filterMap_eq {α : Type} {part : Group → Option α} (option : Option String)
    (only : ∀ group : Group, group.option? ≠ option → part group = none) :
    groups.filterMap part = other.filterMap part := by
  have filtered : ∀ list : List Group,
      (list.filter fun group => group.option? = option).filterMap part = list.filterMap part := by
    intro list
    rw [List.filterMap_filter]
    congr 1
    funext group
    by_cases same : group.option? = option
    · simp [same]
    · simp [same, only group same]
  rw [← filtered groups, ← filtered other, reordered option]

theorem scores_eq : groups.filterMap Group.score? = other.filterMap Group.score? := by
  apply reordered.filterMap_eq none
  intro group differs
  cases group with
  | score path => exact absurd rfl differs
  | _ => rfl

theorem ofGroups_eq : ofGroups groups = ofGroups other := by
  have configs : groups.filterMap Group.config? = other.filterMap Group.config? := by
    apply reordered.filterMap_eq (some "--config")
    intro group differs
    cases group with
    | config file => exact absurd rfl differs
    | _ => rfl
  have latencies : groups.filterMap Group.latency? = other.filterMap Group.latency? := by
    apply reordered.filterMap_eq (some "--latency")
    intro group differs
    cases group with
    | latency text milliseconds => exact absurd rfl differs
    | _ => rfl
  simp only [ofGroups, reordered.scores_eq, configs, latencies, reordered.mem_iff]

end Reordered

/-- Words are understood if they split into groups, and ask for what the groups do. The order of
groups with different options does not matter, not even if there are too many scores. -/
theorem read_iff_splits (words : List String) :
    (∀ arguments, read words = .ok arguments ↔
        ∃ groups, Splits words groups ∧ arguments = ofGroups groups) ∧
      ∀ groups other : List Group, words = groups.flatMap Group.words →
        (∀ group ∈ groups, group.Valid) → Reordered groups other →
          read (other.flatMap Group.words) = read words := by
  constructor
  · intro arguments
    constructor
    · intro reading
      rcases exists_groups_of_readAfter reading with ⟨groups, rfl, valid⟩
      rw [read_flatMap valid] at reading
      split at reading
      · rename_i scores
        cases reading
        exact ⟨groups, ⟨rfl, valid, scores⟩, rfl⟩
      · cases reading
    · rintro ⟨groups, ⟨rfl, valid, scores⟩, rfl⟩
      rw [read_flatMap valid, if_pos scores]
  · rintro groups other rfl valid reordered
    have otherValid : ∀ group ∈ other, group.Valid :=
      fun group group_mem => valid group ((reordered.mem_iff group).mpr group_mem)
    rw [read_flatMap valid, read_flatMap otherValid, reordered.scores_eq, reordered.ofGroups_eq]

/-- An option is taken as the name of a file, and of two files and two latencies the last one
counts, also in another order of the groups. -/
theorem read_iff_splits_repeated :
    let groups : List Group := [.config "--help", .latency "+040" 40, .score "song.txt", .shortHelp,
      .latency "7" 7, .config ""]
    let other : List Group := [.score "song.txt", .latency "+040" 40, .config "--help",
      .latency "7" 7, .config "", .shortHelp]
    let arguments : Arguments :=
      { score := some "song.txt", config := some "", latencyMs := some 7, help := true }
    (∀ group ∈ groups, group.Valid) ∧ Reordered groups other ∧
      read ["--config", "--help", "--latency", "+040", "song.txt", "-h", "--latency", "7",
        "--config", ""] = .ok arguments ∧
      read ["song.txt", "--latency", "+040", "--config", "--help", "--latency", "7", "--config", "",
        "-h"] = .ok arguments := by
  intro groups other arguments
  have writes (text : String) (n : Nat) (reading : Numeral.nat? 100 text.toList = some n) :
      (Group.latency text n).Valid := by
    rcases Numeral.nat?_eq_some_iff.mp reading with ⟨writes, small⟩
    exact ⟨writes, Nat.lt_of_le_of_lt small (by decide)⟩
  have noHyphen : (Group.score "song.txt").Valid := by
    rw [Group.Valid]
    decide
  have valid : ∀ group ∈ groups, group.Valid := by
    simp only [groups, List.forall_mem_cons]
    exact ⟨trivial, writes _ _ (by decide), noHyphen, trivial, writes _ _ (by decide), trivial,
      nofun⟩
  have reordered : Reordered groups other := by
    rintro (_ | word)
    · rfl
    · by_cases config : word = "--config"
      · subst config
        rfl
      · by_cases latency : word = "--latency"
        · subst latency
          rfl
        · have others : "--config" ≠ word ∧ "--latency" ≠ word := ⟨Ne.symm config, Ne.symm latency⟩
          simp [groups, other, Group.option?, List.filter_cons, others]
  rcases read_iff_splits (groups.flatMap Group.words) with ⟨accepts, keeps⟩
  have reading := (accepts arguments).mpr ⟨groups, ⟨rfl, valid, by decide⟩, by decide⟩
  exact ⟨valid, reordered, reading, (keeps groups other rfl valid reordered).trans reading⟩

end LiveScore.Arguments
