import LiveScore.Proofs.Watch.Waiting

/-!
# Bursts of changes

A watch reloads the score for its latest change, and only if nothing has been told since then. Each
further change makes it wait anew, so changes that follow each other closely are told once, after
the last of them, whatever is heard of other files in between.

A change that is still to be told is `Pending`. What the watch remembers at any time is exactly the
pending change, which is shown by induction on the rounds. A score that is removed and not replaced
is told at once, and its pending change is forgotten.
-/

namespace LiveScore

/-- What is told is about the contents of the score: they are new, or cannot be read. -/
def ScoreChange.isReload : ScoreChange → Bool
  | .modified _ => true
  | .removed => false
  | .unreadable _ => true

namespace Watch

/-- In the round of a number the watch tells about the contents of the score. -/
def Reloads (watch : Watch) (rounds : List WatchRound) (index : Nat) : Prop :=
  ∃ told : ScoreChange, (watch.run rounds).2[index]? = some (some told) ∧ told.isReload = true

/-- The score does not change between two rounds. -/
def Unchanged (rounds : List WatchRound) (first last : Nat) : Prop :=
  ∀ index round, first < index → index < last → rounds[index]? = some round →
    round.news.isChange = false

/-- The score changed in the round `first`. Up to the round `last` it did not change again, and
before that round nothing was told about it. -/
structure Pending (watch : Watch) (rounds : List WatchRound) (first last : Nat)
    (change : WatchRound) : Prop where
  change_eq : rounds[first]? = some change
  isChange : change.news.isChange = true
  first_le : first ≤ last
  unchanged : Unchanged rounds first (last + 1)
  untold : ∀ index, first ≤ index → index < last → (watch.run rounds).2[index]? = some none

/-- Changes in the rounds `first` to `last`, each of which comes less than `patience` after the one
before it. -/
inductive Burst (patience : Nat) (rounds : List WatchRound) : Nat → Nat → Prop
  | single {index : Nat} {change : WatchRound} (change_eq : rounds[index]? = some change)
      (isChange : change.news.isChange = true) : Burst patience rounds index index
  | extend {first last next : Nat} {change other : WatchRound}
      (burst : Burst patience rounds first last) (later : last < next)
      (change_eq : rounds[last]? = some change) (other_eq : rounds[next]? = some other)
      (isChange : other.news.isChange = true) (unchanged : Unchanged rounds last next)
      (soon : other.time < change.time + patience) : Burst patience rounds first next

variable {watch next : Watch} {round change : WatchRound} {rounds : List WatchRound}
  {told : Option ScoreChange} {first last index time : Nat}

theorem isReload_report (contents : Except ReadError String) :
    (report contents).isReload = true := by
  cases contents <;> rfl

theorem known_of_isChange (isChange : round.news.isChange = true) :
    watch.known round = some round.time := by
  simp [known, isChange]

theorem known_of_not_isChange (noChange : round.news.isChange = false) :
    watch.known round = watch.changed := by
  simp [known, noChange]

namespace Outcome

/-- What is remembered after a round was known in it, and the round told nothing. -/
theorem known_of_changed (outcome : watch.Outcome round next told)
    (remembered : next.changed = some time) : told = none ∧ watch.known round = some time := by
  cases outcome with
  | ignores other => exact ⟨rfl, by simpa [known, other, News.isChange] using remembered⟩
  | cancels cancels => cases remembered
  | waits looks kept early => exact ⟨rfl, remembered⟩
  | tells looks kept known due => cases remembered

theorem reloads_iff (outcome : watch.Outcome round next told) :
    (∃ reload, told = some reload ∧ reload.isReload = true) ↔
      round.news ≠ .otherFile ∧ ¬round.Cancels ∧
        ∃ time, watch.known round = some time ∧ watch.patience ≤ round.time - time := by
  cases outcome with
  | ignores other => simp [other]
  | cancels cancels => simp [cancels, ScoreChange.isReload]
  | waits looks kept early =>
      simp only [reduceCtorEq, false_and, exists_false, false_iff]
      rintro ⟨_, _, time, known_eq, due⟩
      exact absurd due (early time known_eq).not_ge
  | @tells time looks kept known_eq due =>
      simp only [Option.some.injEq, exists_eq_left', isReload_report, true_iff]
      exact ⟨looks, kept, time, known_eq, due⟩

theorem removed_iff (outcome : watch.Outcome round next told) :
    told = some .removed ↔ round.Cancels := by
  cases outcome with
  | ignores other => simp [WatchRound.Cancels, other]
  | cancels cancels => simp [cancels]
  | waits looks kept early => simp [kept]
  | tells looks kept known due =>
      refine iff_of_false ?_ kept
      cases round.contents <;> nofun

end Outcome

theorem exists_told (watch : Watch) (found : rounds[index]? = some round) :
    ∃ told, (watch.run rounds).2[index]? = some told ∧
      (watch.before rounds index).Outcome round (watch.before rounds (index + 1)) told := by
  have told_eq := getElem?_run watch rounds index
  rw [found, Option.map_some] at told_eq
  exact ⟨_, told_eq, outcome_run found told_eq⟩

theorem time_le (ordered : rounds.Pairwise fun earlier later => earlier.time ≤ later.time)
    (change_eq : rounds[first]? = some change) (round_eq : rounds[last]? = some round)
    (first_le : first ≤ last) : change.time ≤ round.time := by
  rcases List.getElem?_eq_some_iff.mp change_eq with ⟨_, rfl⟩
  rcases List.getElem?_eq_some_iff.mp round_eq with ⟨_, rfl⟩
  rcases Nat.eq_or_lt_of_le first_le with rfl | earlier
  · exact Nat.le_refl _
  · exact List.pairwise_iff_getElem.mp ordered _ _ _ _ earlier

theorem Unchanged.mono {stop : Nat} (unchanged : Unchanged rounds first last)
    (stop_le : stop ≤ last) : Unchanged rounds first stop :=
  fun index round above below => unchanged index round above (below.trans_le stop_le)

namespace Pending

theorem of_isChange (round_eq : rounds[last]? = some round)
    (isChange : round.news.isChange = true) : watch.Pending rounds last last round where
  change_eq := round_eq
  isChange := isChange
  first_le := Nat.le_refl last
  unchanged := by
    intro index other above below
    omega
  untold := by
    intro index above below
    omega

theorem succ (pending : watch.Pending rounds first last change)
    (untold : (watch.run rounds).2[last]? = some none) (round_eq : rounds[last + 1]? = some round)
    (noChange : round.news.isChange = false) : watch.Pending rounds first (last + 1) change where
  change_eq := pending.change_eq
  isChange := pending.isChange
  first_le := pending.first_le.trans (Nat.le_succ last)
  unchanged := by
    intro index other above below other_eq
    rcases Nat.eq_or_lt_of_le (Nat.le_of_lt_succ below) with rfl | earlier
    · rw [round_eq] at other_eq
      cases other_eq
      exact noChange
    · exact pending.unchanged index other above earlier other_eq
  untold := by
    intro index above below
    rcases Nat.eq_or_lt_of_le (Nat.le_of_lt_succ below) with rfl | earlier
    · exact untold
    · exact pending.untold index above earlier

/-- Only the latest change is pending. -/
theorem first_eq {other : WatchRound} (pending : watch.Pending rounds first last change)
    (other_eq : rounds[index]? = some other) (isChange : other.news.isChange = true)
    (index_le : index ≤ last) (unchanged : Unchanged rounds index (last + 1)) :
    first = index := by
  rcases Nat.lt_trichotomy first index with earlier | same | later
  · have noChange :=
      pending.unchanged index other earlier (Nat.lt_succ_of_le index_le) other_eq
    rw [isChange] at noChange
    cases noChange
  · exact same
  · have noChange := unchanged first change later
      (Nat.lt_succ_of_le pending.first_le) pending.change_eq
    rw [pending.isChange] at noChange
    cases noChange

theorem known_eq (pending : watch.Pending rounds first last change)
    (round_eq : rounds[last]? = some round) :
    (watch.before rounds last).known round = some change.time := by
  rcases Nat.eq_or_lt_of_le pending.first_le with rfl | later
  · rw [pending.change_eq] at round_eq
    cases round_eq
    exact known_of_isChange pending.isChange
  · have last_lt := (List.getElem?_eq_some_iff.mp round_eq).1
    have remembered := changed_before pending.change_eq pending.isChange later last_lt.le
      (fun index other above below => pending.unchanged index other above (by omega))
      pending.untold
    have noChange := pending.unchanged last round later (Nat.lt_succ_self last) round_eq
    rw [known_of_not_isChange noChange, remembered]

end Pending

/-- What is known in a round of a watch that started afresh is a pending change. The induction is on
the rounds: what was remembered before a round was known in the one before it. -/
theorem exists_pending (fresh : watch.changed = none) (round_eq : rounds[last]? = some round)
    (known_eq : (watch.before rounds last).known round = some time) :
    ∃ first change, watch.Pending rounds first last change ∧ change.time = time := by
  induction last generalizing round with
  | zero =>
      cases isChange : round.news.isChange with
      | true =>
          rw [known_of_isChange isChange] at known_eq
          exact ⟨0, round, .of_isChange round_eq isChange, Option.some.inj known_eq⟩
      | false =>
          have remembered : watch.changed = some time := by
            rwa [known_of_not_isChange isChange] at known_eq
          rw [fresh] at remembered
          cases remembered
  | succ last ih =>
      cases isChange : round.news.isChange with
      | true =>
          rw [known_of_isChange isChange] at known_eq
          exact ⟨last + 1, round, .of_isChange round_eq isChange, Option.some.inj known_eq⟩
      | false =>
          rw [known_of_not_isChange isChange] at known_eq
          have last_lt := (List.getElem?_eq_some_iff.mp round_eq).1
          have earlier_eq : rounds[last]? = some rounds[last] :=
            List.getElem?_eq_getElem (Nat.lt_of_succ_lt last_lt)
          rcases exists_told watch earlier_eq with ⟨told, told_eq, outcome⟩
          rcases outcome.known_of_changed known_eq with ⟨rfl, known_before⟩
          rcases ih earlier_eq known_before with ⟨first, change, pending, change_time⟩
          exact ⟨first, change, pending.succ told_eq round_eq isChange, change_time⟩

theorem reloads_iff_of_told (told_eq : (watch.run rounds).2[index]? = some told) :
    watch.Reloads rounds index ↔ ∃ reload, told = some reload ∧ reload.isReload = true := by
  simp [Reloads, told_eq]

/-- The score is reloaded in the first round that looks after the patience for a pending change. -/
theorem reloads_iff_pending (fresh : watch.changed = none)
    (ordered : rounds.Pairwise fun earlier later => earlier.time ≤ later.time)
    (round_eq : rounds[last]? = some round) :
    watch.Reloads rounds last ↔ round.news ≠ .otherFile ∧ ¬round.Cancels ∧
      ∃ first change, watch.Pending rounds first last change ∧
        change.time + watch.patience ≤ round.time := by
  rcases exists_told watch round_eq with ⟨told, told_eq, outcome⟩
  have patience_eq : (watch.before rounds last).patience = watch.patience := patience_run _ _
  rw [reloads_iff_of_told told_eq, outcome.reloads_iff, patience_eq]
  refine and_congr_right fun _ => and_congr_right fun _ => ?_
  constructor
  · rintro ⟨time, known_eq, due⟩
    rcases exists_pending fresh round_eq known_eq with ⟨first, change, pending, rfl⟩
    have inOrder := time_le ordered pending.change_eq round_eq pending.first_le
    exact ⟨first, change, pending, by omega⟩
  · rintro ⟨first, change, pending, due⟩
    exact ⟨change.time, pending.known_eq round_eq, by omega⟩

theorem Reloads.exists_pending (reloads : watch.Reloads rounds index)
    (fresh : watch.changed = none)
    (ordered : rounds.Pairwise fun earlier later => earlier.time ≤ later.time) :
    ∃ round first change, rounds[index]? = some round ∧ watch.Pending rounds first index change ∧
      change.time + watch.patience ≤ round.time := by
  have found : ∃ round, rounds[index]? = some round := by
    rcases reloads with ⟨told, told_eq, _⟩
    rw [getElem?_run, Option.map_eq_some_iff] at told_eq
    exact told_eq.imp fun _ => And.left
  rcases found with ⟨round, round_eq⟩
  rcases (reloads_iff_pending fresh ordered round_eq).mp reloads with
    ⟨_, _, first, change, pending, due⟩
  exact ⟨round, first, change, round_eq, pending, due⟩

namespace Burst

variable {patience : Nat}

theorem exists_last (burst : Burst patience rounds first last) :
    ∃ change, rounds[last]? = some change ∧ change.news.isChange = true := by
  cases burst with
  | single change_eq isChange => exact ⟨_, change_eq, isChange⟩
  | extend burst later change_eq other_eq isChange unchanged soon => exact ⟨_, other_eq, isChange⟩

/-- The next change of a burst comes before the latest one is due, in whatever round between them
the watch looks. -/
theorem not_reloads (burst : Burst watch.patience rounds first last)
    (fresh : watch.changed = none)
    (ordered : rounds.Pairwise fun earlier later => earlier.time ≤ later.time)
    (first_le : first ≤ index) (before_last : index < last) : ¬watch.Reloads rounds index := by
  induction burst with
  | single change_eq isChange => omega
  | @extend last next change other burst later change_eq other_eq isChange unchanged soon ih =>
      by_cases before : index < last
      · exact ih before
      · intro reloads
        rcases reloads.exists_pending fresh ordered with
          ⟨round, latest, _, round_eq, pending, due⟩
        rcases burst.exists_last with ⟨_, last_eq, last_isChange⟩
        have latest_eq : latest = last :=
          pending.first_eq last_eq last_isChange (by omega) (unchanged.mono (by omega))
        subst latest_eq
        have change_same := pending.change_eq
        rw [change_eq] at change_same
        cases change_same
        have inOrder := time_le ordered round_eq other_eq (by omega)
        omega

/-- Between a burst and the next change, what is reloaded is the last change of the burst. -/
theorem pending_last {stop : Nat} (burst : Burst watch.patience rounds first last)
    (unchanged : Unchanged rounds last stop) (fresh : watch.changed = none)
    (ordered : rounds.Pairwise fun earlier later => earlier.time ≤ later.time)
    (first_le : first ≤ index) (before_stop : index < stop) (reloads : watch.Reloads rounds index) :
    ∃ change, watch.Pending rounds last index change := by
  have last_le : last ≤ index := by
    by_contra early
    exact burst.not_reloads fresh ordered first_le (Nat.lt_of_not_le early) reloads
  rcases reloads.exists_pending fresh ordered with ⟨round, latest, change, _, pending, _⟩
  rcases burst.exists_last with ⟨_, last_eq, isChange⟩
  have latest_eq := pending.first_eq last_eq isChange last_le (unchanged.mono before_stop)
  subst latest_eq
  exact ⟨change, pending⟩

end Burst

theorem Pending.not_reloads (pending : watch.Pending rounds first last change)
    (first_le : first ≤ index) (before_last : index < last) : ¬watch.Reloads rounds index := by
  rintro ⟨told, told_eq, _⟩
  rw [pending.untold index first_le before_last] at told_eq
  cases told_eq

/-- The score is reloaded for a pending change only, once its time has come. So a burst, up to the
next change after it, is told at most once, and not before its last change. A removal is told if
the score is gone, and what was pending then is not told any more. -/
theorem bursts_collapse (watch : Watch) (rounds : List WatchRound) (fresh : watch.changed = none)
    (ordered : rounds.Pairwise fun earlier later => earlier.time ≤ later.time) :
    (∀ last round, rounds[last]? = some round →
        (watch.Reloads rounds last ↔ round.news ≠ .otherFile ∧ ¬round.Cancels ∧
          ∃ first change, watch.Pending rounds first last change ∧
            change.time + watch.patience ≤ round.time)) ∧
      (∀ first last stop, Burst watch.patience rounds first last → Unchanged rounds last stop →
        ∀ index, first ≤ index → index < stop → watch.Reloads rounds index →
          last ≤ index ∧
            ∀ other, first ≤ other → other < stop → watch.Reloads rounds other → other = index) ∧
      (∀ (index : Nat) (round : WatchRound), rounds[index]? = some round →
        ((watch.run rounds).2[index]? = some (some .removed) ↔ round.Cancels)) ∧
      (∀ removal index, (watch.run rounds).2[removal]? = some (some .removed) →
        removal < index → watch.Reloads rounds index →
          ∃ first change, removal < first ∧ watch.Pending rounds first index change) := by
  refine ⟨?_, ?_, ?_, ?_⟩
  · intro last round round_eq
    exact reloads_iff_pending fresh ordered round_eq
  · intro first last stop burst unchanged index first_le before_stop reloads
    rcases burst.pending_last unchanged fresh ordered first_le before_stop reloads with
      ⟨_, pending⟩
    refine ⟨pending.first_le, ?_⟩
    intro other first_le_other other_lt otherReloads
    rcases burst.pending_last unchanged fresh ordered first_le_other other_lt otherReloads with
      ⟨_, otherPending⟩
    -- Of two reloads for the last change, the earlier one would have been told before the later.
    rcases Nat.lt_trichotomy other index with earlier | same | later
    · exact absurd otherReloads (pending.not_reloads otherPending.first_le earlier)
    · exact same
    · exact absurd reloads (otherPending.not_reloads pending.first_le later)
  · intro index round round_eq
    rcases exists_told watch round_eq with ⟨told, told_eq, outcome⟩
    rw [told_eq, Option.some.injEq]
    exact outcome.removed_iff
  · intro removal index removed later reloads
    rcases reloads.exists_pending fresh ordered with ⟨_, first, change, _, pending, _⟩
    refine ⟨first, change, ?_, pending⟩
    by_contra early
    rw [pending.untold removal (Nat.le_of_not_lt early) later] at removed
    cases removed

/-- A change is forgotten with the score that it was made to. The score comes back and changes
again, with news of another file in between, and is read once after that. -/
theorem bursts_collapse_recreated :
    let watch : Watch := { patience := 10 }
    let rounds : List WatchRound := [⟨.score .modified, 3, true, .ok "old"⟩,
      ⟨.score .removed, 8, false, .error .missing⟩, ⟨.otherFile, 9, false, .error .missing⟩,
      ⟨.score .created, 12, true, .ok ""⟩, ⟨.score .removed, 15, true, .ok "a"⟩,
      ⟨.otherFile, 18, true, .ok "ab"⟩, ⟨.score .modified, 21, true, .ok "abc"⟩,
      ⟨.quiet, 30, true, .ok "abc"⟩, ⟨.score .other, 31, true, .ok "abc"⟩,
      ⟨.quiet, 51, true, .ok "abc"⟩]
    Burst 10 rounds 3 6 ∧ (watch.run rounds).2[1]? = some (some .removed) ∧
      watch.Reloads rounds 8 ∧
      (∀ other, 3 ≤ other → other < 10 → watch.Reloads rounds other → other = 8) ∧
      ∃ first change, 1 < first ∧ watch.Pending rounds first 8 change := by
  intro watch rounds
  have ordered : rounds.Pairwise fun earlier later => earlier.time ≤ later.time := by decide
  have between : Unchanged rounds 3 6 := by
    intro index other above below found
    have cases : index = 4 ∨ index = 5 := by omega
    rcases cases with rfl | rfl <;> cases found <;> rfl
  have after : Unchanged rounds 6 10 := by
    intro index other above below found
    have cases : index = 7 ∨ index = 8 ∨ index = 9 := by omega
    rcases cases with rfl | rfl | rfl <;> cases found <;> rfl
  have burst : Burst 10 rounds 3 6 :=
    .extend (.single rfl rfl) (by decide) rfl rfl rfl between (by decide)
  have removed : (watch.run rounds).2[1]? = some (some .removed) := rfl
  have reloads : watch.Reloads rounds 8 := ⟨.modified "abc", rfl, rfl⟩
  rcases bursts_collapse watch rounds rfl ordered with ⟨_, once, _, forgotten⟩
  refine ⟨burst, removed, reloads, ?_, forgotten 1 8 removed (by decide) reloads⟩
  exact (once 3 6 10 burst after 8 (by decide) (by decide) reloads).2

end Watch

end LiveScore
