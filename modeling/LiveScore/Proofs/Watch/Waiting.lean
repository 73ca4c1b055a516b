import LiveScore.Watch.Reload
import Mathlib.Order.Nat

/-!
# How long a changed score waits

A change of the score is told when the score has been left alone for long enough, and then in the
first round that looks at the time. A round looks whatever it hears of the score, and also if it
hears of nothing, but not if it hears of another file. So the news of other files hold the change up
for as long as they keep coming: a change that is due is told in every round but those.

What a round can come to is said once, in `Outcome`. Until something is told, the watch remembers
the latest change.
-/

namespace LiveScore

/-- The score was created or modified. -/
def News.isChange : News → Bool
  | .score .created => true
  | .score .modified => true
  | _ => false

/-- The score was removed, and nothing has taken its place. -/
def WatchRound.Cancels (round : WatchRound) : Prop :=
  round.news = .score .removed ∧ round.present = false

namespace Watch

variable {watch next : Watch} {round change : WatchRound} {rounds : List WatchRound}
  {told : Option ScoreChange} {first last index time : Nat}

/-- The change that a round knows of, its own news included. -/
def known (watch : Watch) (round : WatchRound) : Option Nat :=
  if round.news.isChange then some round.time else watch.changed

/-- What a round can come to. -/
inductive Outcome (watch : Watch) (round : WatchRound) : Watch → Option ScoreChange → Prop
  | ignores (other : round.news = .otherFile) : Outcome watch round watch none
  | cancels (cancels : round.Cancels) :
    Outcome watch round { watch with changed := none } (some .removed)
  | waits (looks : round.news ≠ .otherFile) (kept : ¬round.Cancels)
    (early : ∀ time, watch.known round = some time → round.time - time < watch.patience) :
    Outcome watch round { watch with changed := watch.known round } none
  | tells {time : Nat} (looks : round.news ≠ .otherFile) (kept : ¬round.Cancels)
    (known : watch.known round = some time) (due : watch.patience ≤ round.time - time) :
    Outcome watch round { watch with changed := none } (some (report round.contents))

theorem outcome_of_look (looks : round.news ≠ .otherFile) (kept : ¬round.Cancels)
    (looked : watch.step round = { watch with changed := watch.known round }.look round) :
    Outcome watch round (watch.step round).1 (watch.step round).2 := by
  rw [looked, look]
  cases known : watch.known round with
  | none =>
      have early : ∀ time, watch.known round = some time → round.time - time < watch.patience := by
        simp [known]
      simpa [known] using Outcome.waits looks kept early
  | some changed =>
      by_cases due : watch.patience ≤ round.time - changed
      · simpa [due] using Outcome.tells looks kept known due
      · have early : ∀ time, watch.known round = some time →
            round.time - time < watch.patience := by
          simpa [known] using due
        simpa [due, known] using Outcome.waits looks kept early

theorem outcome_step (watch : Watch) (round : WatchRound) :
    Outcome watch round (watch.step round).1 (watch.step round).2 := by
  rcases round with ⟨news, time, present, contents⟩
  cases news with
  | otherFile => exact .ignores rfl
  | quiet => exact outcome_of_look nofun nofun rfl
  | score change =>
      cases change with
      | created => exact outcome_of_look nofun nofun rfl
      | modified => exact outcome_of_look nofun nofun rfl
      | other => exact outcome_of_look nofun nofun rfl
      | removed =>
          cases present with
          | false => exact .cancels ⟨rfl, rfl⟩
          | true => exact outcome_of_look nofun nofun rfl

theorem Outcome.patience_eq (outcome : watch.Outcome round next told) :
    next.patience = watch.patience := by
  cases outcome <;> rfl

/-- What a round knows of is kept for the next one unless something is told. -/
theorem Outcome.changed_eq (outcome : watch.Outcome round next none) :
    next.changed = watch.known round := by
  cases outcome with
  | ignores other => simp [known, other, News.isChange]
  | waits looks kept early => rfl

theorem Outcome.told_of_due (outcome : watch.Outcome round next told) (kept : ¬round.Cancels)
    (known : watch.known round = some time) (due : time + watch.patience ≤ round.time) :
    told = if round.news = .otherFile then none else some (report round.contents) := by
  cases outcome with
  | ignores other => simp [other]
  | cancels cancels => exact absurd cancels kept
  | waits looks kept early =>
      have early := early time known
      omega
  | tells looks kept known due => simp [looks]

theorem run_concat (watch : Watch) (rounds : List WatchRound) (round : WatchRound) :
    watch.run (rounds ++ [round]) =
      (((watch.run rounds).1.step round).1,
        (watch.run rounds).2 ++ [((watch.run rounds).1.step round).2]) := by
  induction rounds generalizing watch with
  | nil => rfl
  | cons earlier rest ih => simp [run, ih]

/-- The watch before the round of a number. -/
def before (watch : Watch) (rounds : List WatchRound) (index : Nat) : Watch :=
  (watch.run (rounds.take index)).1

theorem before_succ (found : rounds[index]? = some round) :
    watch.before rounds (index + 1) = ((watch.before rounds index).step round).1 := by
  simp [before, List.take_add_one, found, run_concat]

theorem getElem?_run (watch : Watch) (rounds : List WatchRound) (index : Nat) :
    (watch.run rounds).2[index]? =
      rounds[index]?.map fun round => ((watch.before rounds index).step round).2 := by
  induction rounds generalizing watch index with
  | nil => simp [run]
  | cons round rest ih =>
      cases index with
      | zero => simp [run, before]
      | succ index =>
          have later := ih (watch.step round).1 index
          simpa [run, before] using later

/-- The round of a number as a step of the watch before it. -/
theorem outcome_run (found : rounds[index]? = some round)
    (told_eq : (watch.run rounds).2[index]? = some told) :
    (watch.before rounds index).Outcome round (watch.before rounds (index + 1)) told := by
  have outcome := outcome_step (watch.before rounds index) round
  rw [getElem?_run, found] at told_eq
  cases told_eq
  rwa [before_succ found]

theorem patience_run (watch : Watch) (rounds : List WatchRound) :
    (watch.run rounds).1.patience = watch.patience := by
  induction rounds generalizing watch with
  | nil => rfl
  | cons round rest ih => exact (ih _).trans (outcome_step watch round).patience_eq

/-- From a change on the watch remembers it, as long as the score does not change again and nothing
is told. The induction is on the rounds since then. -/
theorem changed_before (change_eq : rounds[first]? = some change)
    (isChange : change.news.isChange = true) (later : first + 1 ≤ last)
    (last_le : last ≤ rounds.length)
    (latest : ∀ index other, first < index → index < last → rounds[index]? = some other →
      other.news.isChange = false)
    (untold : ∀ index, first ≤ index → index < last → (watch.run rounds).2[index]? = some none) :
    (watch.before rounds last).changed = some change.time := by
  induction last, later using Nat.le_induction with
  | base =>
      have outcome := outcome_run change_eq (untold first le_rfl (Nat.lt_succ_self first))
      simp [outcome.changed_eq, known, isChange]
  | succ last later ih =>
      have remembered := ih (by omega)
        (fun index other above below => latest index other above (by omega))
        (fun index above below => untold index above (by omega))
      have found : rounds[last]? = some rounds[last] := List.getElem?_eq_getElem last_le
      have outcome := outcome_run found (untold last (by omega) (Nat.lt_succ_self last))
      have noChange := latest last _ later (Nat.lt_succ_self last) found
      simp [outcome.changed_eq, known, noChange, remembered]

/-- A change of the score that nothing was told about, and no other change has followed, is told in
the first round after the patience of the watch which is not about another file, unless the score is
removed in it. A round about another file tells nothing. -/
theorem told_unless_otherFile (watch : Watch) (rounds : List WatchRound) {first last : Nat}
    {change round : WatchRound} (change_eq : rounds[first]? = some change)
    (round_eq : rounds[last]? = some round) (ordered : first ≤ last)
    (isChange : change.news.isChange = true)
    (latest : ∀ index other, first < index → index ≤ last → rounds[index]? = some other →
      other.news.isChange = false)
    (untold : ∀ index, first ≤ index → index < last → (watch.run rounds).2[index]? = some none)
    (kept : ¬round.Cancels) (due : change.time + watch.patience ≤ round.time) :
    (watch.run rounds).2[last]? =
      some (if round.news = .otherFile then none else some (report round.contents)) := by
  have outcome := outcome_step (watch.before rounds last) round
  have known_eq : (watch.before rounds last).known round = some change.time := by
    rcases Nat.eq_or_lt_of_le ordered with rfl | later
    · rw [change_eq] at round_eq
      cases round_eq
      simp [known, isChange]
    · have last_lt := (List.getElem?_eq_some_iff.mp round_eq).1
      have remembered := changed_before change_eq isChange later last_lt.le
        (fun index other above below => latest index other above below.le) untold
      have noChange := latest last round later le_rfl round_eq
      simp [known, noChange, remembered]
  have patience_eq : (watch.before rounds last).patience = watch.patience := patience_run _ _
  rw [getElem?_run, round_eq, Option.map_some,
    outcome.told_of_due kept known_eq (by rwa [patience_eq])]

/-- A score that is replaced in three steps is told in the first quiet round, two rounds after its
time has come. -/
theorem told_unless_otherFile_quiet :
    let watch : Watch := { patience := 10 }
    let rounds : List WatchRound := [⟨.score .modified, 3, true, .ok "older"⟩,
      ⟨.score .removed, 4, true, .ok "old"⟩, ⟨.score .created, 5, true, .ok "old"⟩,
      ⟨.otherFile, 15, true, .ok "new"⟩, ⟨.otherFile, 16, true, .ok "new"⟩,
      ⟨.quiet, 36, true, .ok "new"⟩]
    (watch.run rounds).2.take 5 = List.replicate 5 none ∧
      (watch.run rounds).2[5]? = some (some (.modified "new")) := by
  intro watch rounds
  refine ⟨by decide, ?_⟩
  have latest : ∀ index other, 2 < index → index ≤ 5 → rounds[index]? = some other →
      other.news.isChange = false := by
    intro index other above below found
    have cases : index = 3 ∨ index = 4 ∨ index = 5 := by omega
    rcases cases with rfl | rfl | rfl <;> cases found <;> rfl
  have untold : ∀ index, 2 ≤ index → index < 5 → (watch.run rounds).2[index]? = some none := by
    intro index above below
    have cases : index = 2 ∨ index = 3 ∨ index = 4 := by omega
    rcases cases with rfl | rfl | rfl <;> rfl
  exact told_unless_otherFile watch rounds rfl rfl (by decide) rfl latest untold nofun (by decide)

/-- A change is not told in a round about another file, though its time has come. -/
theorem not_told_among_other_files :
    let rounds : List WatchRound := [⟨.score .modified, 0, true, .ok "new"⟩,
      ⟨.otherFile, 5, true, .ok "new"⟩, ⟨.otherFile, 10, true, .ok "new"⟩,
      ⟨.otherFile, 15, true, .ok "new"⟩]
    rounds.Pairwise (fun earlier later => earlier.time ≤ later.time) ∧
      ((⟨8, none⟩ : Watch).run rounds).2 = [none, none, none, none] := by
  decide

end Watch

end LiveScore
