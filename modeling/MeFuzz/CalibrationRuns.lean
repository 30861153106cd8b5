import MeFuzz.CalibrationStage

namespace MeFuzz.CalibrationStage

open Corpus (Error)
open Procedure

/-!
# How often a calibration runs the target

The loop only depends on a few counters and on a verdict for each run.  Runs that errored
make it longer without coming closer to its end.
-/

instance {property : Verdict → Prop} [DecidablePred property] :
    Decidable (∀ verdict, property verdict) :=
  decidable_of_iff (property .calm ∧ property .unstable ∧ property .bad)
    ⟨fun ⟨calm, unstable, bad⟩ verdict => by cases verdict <;> assumption,
      fun all => ⟨all _, all _, all _⟩⟩

/-- All ways in which seven runs can come out. -/
theorem ends_iff_of_seven :
    ∀ a b c d e f g,
      Counters.start.ends [a, b, c, d, e, f, g] ↔ SevenSuffice [a, b, c, d, e, f, g] := by
  decide +kernel

theorem ends_iff_sevenSuffice
    {verdicts : List Verdict}
    (seven : verdicts.length = 7) :
    Counters.start.ends verdicts ↔ SevenSuffice verdicts := by
  obtain ⟨a, b, c, d, e, f, g, rfl⟩ :
      ∃ a b c d e f g, verdicts = [a, b, c, d, e, f, g] := by
    match verdicts, seven with
    | [a, b, c, d, e, f, g], _ => exact ⟨a, b, c, d, e, f, g, rfl⟩
  exact ends_iff_of_seven a b c d e f g

theorem Counters.hasErrors_after
    (counters : Counters)
    (verdict : Verdict) :
    (counters.after verdict).hasErrors = (counters.hasErrors || decide (verdict = .bad)) := by
  cases verdict with
  | calm =>
      simp [after]
  | unstable =>
      simp [after]
  | bad =>
      cases errors : counters.hasErrors <;> simp [after, errors]

section

variable {Entry : Type} [DecidableEq Entry]
variable {default maxValue : Entry}

theorem compareMaps_histories
    {idx : Nat}
    {firsts curs histories : List Entry}
    (stable : (compareMaps maxValue idx firsts curs histories).2 = []) :
    (compareMaps maxValue idx firsts curs histories).1 = histories := by
  induction firsts generalizing idx curs histories with
  | nil =>
      rfl
  | cons first firsts ih =>
      cases curs with
      | nil =>
          rfl
      | cons cur curs =>
          cases histories with
          | nil =>
              rfl
          | cons history histories =>
              rw [compareMaps] at stable ⊢
              split at stable
              · cases stable
              · next same =>
                  rw [if_neg same]
                  exact congrArg (history :: ·) (ih stable)

omit [DecidableEq Entry] in
theorem resize_of_long
    {mapLen : Nat}
    {history : List Entry}
    (long : mapLen ≤ history.length) :
    resize default mapLen history = history := by
  unfold resize
  rw [Nat.sub_eq_zero_of_le long, List.replicate_zero, List.append_nil]

omit [DecidableEq Entry] in
theorem resize_resize (mapLen : Nat) (history : List Entry) :
    resize default mapLen (resize default mapLen history) = resize default mapLen history := by
  refine resize_of_long ?_
  unfold resize
  rw [List.length_append, List.length_replicate]
  omega

variable {tracks : Bool}
variable {mapFirst history : List Entry}
variable {now : Calibration Entry}
variable {counters : Counters}
variable {run : TargetRun Entry}

/-- The counters are those of the loop; until something is unstable, so is the history. -/
structure Matches
    (default : Entry)
    (tracks : Bool)
    (mapFirst history : List Entry)
    (now : Calibration Entry)
    (counters : Counters) : Prop where
  i : now.i = counters.i
  iter : now.iter = counters.iter
  hasErrors : now.hasErrors = counters.hasErrors
  unstable : counters.unstable ↔ now.unstableEntries ≠ []
  tracked : now.unstableEntries ≠ [] → tracks
  history :
    now.unstableEntries = [] →
    resize default mapFirst.length now.historyMap = resize default mapFirst.length history

omit [DecidableEq Entry] in
theorem matches_start (history : List Entry) (runs : Nat) (totalTime : Nat) :
    Matches default tracks mapFirst history
      { start history with runs := runs, totalTime := totalTime } Counters.start where
  i := rfl
  iter := rfl
  hasErrors := rfl
  unstable := iff_of_false Bool.false_ne_true fun impossible => impossible rfl
  tracked impossible := absurd rfl impossible
  history _ := rfl

theorem Matches.trackStability_unstable
    (matched : Matches default true mapFirst history now counters)
    (unstable : now.unstableEntries ≠ [])
    (map : List Entry)
    {shown : Verdict}
    (isGood : shown ≠ .bad) :
    Matches default true mapFirst history
      { trackStability default maxValue mapFirst map now with i := now.i + 1 }
      (counters.after shown) := by
  have known : counters.unstable = true := matched.unstable.mpr unstable
  have still :
      (trackStability default maxValue mapFirst map now).unstableEntries ≠ [] :=
    List.append_ne_nil_of_left_ne_nil unstable _
  have raised :
      (trackStability default maxValue mapFirst map now).iter = raise counters.iter := by
    rw [← matched.iter]
    exact if_pos still
  have after :
      counters.after shown =
        { counters with i := counters.i + 1, iter := raise counters.iter } := by
    cases shown with
    | calm =>
        rw [Counters.after, known, if_pos rfl]
    | unstable =>
        rw [Counters.after, ← known]
    | bad =>
        exact absurd rfl isGood
  rw [after]
  exact
    { i := congrArg Nat.succ matched.i
      iter := raised
      hasErrors := matched.hasErrors
      unstable := iff_of_true known still
      tracked := fun _ => rfl
      history := fun impossible => absurd impossible still }

theorem Matches.trackStability
    (matched : Matches default true mapFirst history now counters)
    (map : List Entry) :
    Matches default true mapFirst history
      { trackStability default maxValue mapFirst map now with i := now.i + 1 }
      (counters.after
        (if ShowsUnstable default maxValue mapFirst map history then .unstable
        else .calm)) := by
  by_cases unstable : now.unstableEntries = []
  · have unknown : counters.unstable = false := by
      rw [← Bool.not_eq_true, matched.unstable]
      exact fun impossible => impossible unstable
    have entries :
        (CalibrationStage.trackStability default maxValue mapFirst map now).unstableEntries =
          (compareMaps maxValue 0 mapFirst map
            (resize default mapFirst.length history)).2 := by
      unfold CalibrationStage.trackStability
      rw [unstable, matched.history unstable]
      rfl
    have iter :
        (CalibrationStage.trackStability default maxValue mapFirst map now).iter =
          if (compareMaps maxValue 0 mapFirst map
            (resize default mapFirst.length history)).2 ≠ [] then raise counters.iter
          else counters.iter := by
      unfold CalibrationStage.trackStability
      rw [unstable, matched.history unstable, matched.iter]
      rfl
    by_cases shows : ShowsUnstable default maxValue mapFirst map history
    · rw [if_pos shows, Counters.after]
      exact
        { i := congrArg Nat.succ matched.i
          iter := iter.trans (if_pos shows)
          hasErrors := matched.hasErrors
          unstable := iff_of_true rfl (entries ▸ shows)
          tracked := fun _ => rfl
          history := fun impossible => absurd (entries.symm.trans impossible) shows }
    · have stable := not_not.mp shows
      rw [if_neg shows, Counters.after, unknown]
      exact
        { i := congrArg Nat.succ matched.i
          iter := iter.trans (if_neg shows)
          hasErrors := matched.hasErrors
          unstable := iff_of_false Bool.false_ne_true fun impossible =>
            impossible (entries.trans stable)
          tracked := fun impossible => absurd (entries.trans stable) impossible
          history := fun _ => by
            change resize default _ (compareMaps maxValue 0 mapFirst map _).1 = _
            rw [matched.history unstable, compareMaps_histories stable]
            exact resize_resize _ _ }
  · refine matched.trackStability_unstable unstable map ?_
    split
    · exact fun impossible => nomatch impossible
    · exact fun impossible => nomatch impossible

theorem runAgain_bad
    (matched : Matches default tracks mapFirst history now counters)
    {exitKind : ExitKind}
    {time : Nat}
    (began : run.pre = .ok ())
    (ended : run.target = .ok (exitKind, time))
    (isBad : exitKind ≠ .ok)
    (logs : counters.hasErrors = false → run.log = .ok ()) :
    ∃ next,
      (runAgain default maxValue tracks mapFirst run).outcome now = (.ok (), next) ∧
        next.runs = now.runs + 1 ∧
        Matches default tracks mapFirst history next (counters.after .bad) := by
  unfold runAgain
  rw [began, outcome_bind_ok (outcome_lift _), outcome_bind_ok (outcome_modify _), runTarget,
    ended, outcome_bind_ok (outcome_lift _)]
  simp only
  rw [if_pos isBad, outcome_bind_ok outcome_get]
  simp only
  rw [matched.hasErrors]
  cases errors : counters.hasErrors with
  | true =>
      rw [if_neg (fun impossible => impossible rfl), Counters.after, if_pos errors]
      exact ⟨_, rfl, rfl,
        ⟨matched.i, matched.iter, errors.symm, matched.unstable, matched.tracked,
          matched.history⟩⟩
  | false =>
      rw [if_pos Bool.false_ne_true, logs errors, outcome_bind_ok (outcome_lift _),
        Counters.after, if_neg (by rw [errors]; exact Bool.false_ne_true)]
      exact ⟨_, rfl, rfl,
        ⟨matched.i, congrArg raise matched.iter, rfl, matched.unstable, matched.tracked,
          matched.history⟩⟩

omit [DecidableEq Entry] in
theorem Matches.untracked
    (matched : Matches default false mapFirst history now counters) :
    Matches default false mapFirst history { now with i := now.i + 1 }
      (counters.after .calm) := by
  have unstable : now.unstableEntries = [] :=
    not_not.mp fun unstable => Bool.false_ne_true (matched.tracked unstable)
  have unknown : counters.unstable = false := by
    rw [← Bool.not_eq_true, matched.unstable]
    exact fun impossible => impossible unstable
  rw [Counters.after, unknown]
  exact
    { i := congrArg Nat.succ matched.i
      iter := matched.iter
      hasErrors := matched.hasErrors
      unstable := unknown ▸ matched.unstable
      tracked := matched.tracked
      history := matched.history }

omit [DecidableEq Entry] in
theorem Matches.passed
    (matched : Matches default tracks mapFirst history now counters)
    (runs totalTime : Nat) :
    Matches default tracks mapFirst history
      { now with runs := runs, totalTime := totalTime } counters :=
  ⟨matched.i, matched.iter, matched.hasErrors, matched.unstable, matched.tracked,
    matched.history⟩

theorem runAgain_good
    (matched : Matches default tracks mapFirst history now counters)
    {shown : Verdict}
    (isVerdict : verdict default maxValue tracks mapFirst history run = some shown)
    {time : Nat}
    (ended : run.target = .ok (.ok, time)) :
    ∃ next,
      (runAgain default maxValue tracks mapFirst run).outcome now = (.ok (), next) ∧
        next.runs = now.runs + 1 ∧
        Matches default tracks mapFirst history next (counters.after shown) := by
  obtain ⟨pre, target, log, post, map⟩ := run
  cases ended
  cases pre with
  | error _ =>
      cases isVerdict
  | ok _ =>
  cases post with
  | error _ =>
      cases isVerdict
  | ok _ =>
  cases tracks with
  | false =>
      have isCalm : shown = .calm := by
        cases map <;> cases isVerdict <;> rfl
      exact ⟨_, rfl, rfl, isCalm ▸ (matched.passed _ _).untracked⟩
  | true =>
      cases map with
      | none =>
          cases isVerdict
      | some map =>
          have compared :
              shown =
                if ShowsUnstable default maxValue mapFirst map history then Verdict.unstable
                else .calm := by
            by_cases shows : ShowsUnstable default maxValue mapFirst map history
            · have isUnstable := (if_pos ⟨rfl, shows⟩).symm.trans isVerdict
              rw [if_pos shows, Option.some.inj isUnstable]
            · have isCalm := (if_neg fun both => shows both.2).symm.trans isVerdict
              rw [if_neg shows, Option.some.inj isCalm]
          exact ⟨_, rfl, rfl, compared ▸ (matched.passed _ _).trackStability map⟩

theorem runAgain_matches
    (matched : Matches default tracks mapFirst history now counters)
    {shown : Verdict}
    (isVerdict : verdict default maxValue tracks mapFirst history run = some shown)
    (logs : shown = .bad → counters.hasErrors = false → run.log = .ok ()) :
    ∃ next,
      (runAgain default maxValue tracks mapFirst run).outcome now = (.ok (), next) ∧
        next.runs = now.runs + 1 ∧
        Matches default tracks mapFirst history next (counters.after shown) := by
  cases began : run.pre with
  | error _ =>
      rw [verdict, began] at isVerdict
      cases isVerdict
  | ok _ =>
  cases ended : run.target with
  | error _ =>
      rw [verdict, began, ended] at isVerdict
      cases isVerdict
  | ok result =>
  obtain ⟨exitKind, time⟩ := result
  by_cases isGood : exitKind = .ok
  · rw [isGood] at ended
    exact runAgain_good matched isVerdict ended
  · rw [verdict, began, ended] at isVerdict
    have isBad := (if_pos isGood).symm.trans isVerdict
    cases isBad
    exact runAgain_bad matched began ended isGood (logs rfl)

/-- The first bad run has to be logged. -/
def LogFails (errors : Bool) (shown : Option Verdict) (run : TargetRun Entry) : Prop :=
  shown = some .bad ∧ errors = false ∧ ∃ error, run.log = .error error

/-- The target is not run at all. -/
def CannotBegin (run : TargetRun Entry) : Prop :=
  ∃ error, run.pre = .error error

theorem runAgain_fails
    (fails :
      verdict default maxValue tracks mapFirst history run = none ∨
        LogFails now.hasErrors (verdict default maxValue tracks mapFirst history run) run) :
    ∃ error next,
      (runAgain default maxValue tracks mapFirst run).outcome now = (.error error, next) ∧
        (CannotBegin run ∧ next.runs = now.runs ∨
          ¬CannotBegin run ∧ next.runs = now.runs + 1) := by
  obtain ⟨pre, target, log, post, map⟩ := run
  cases pre with
  | error error =>
      exact ⟨error, now, rfl, .inl ⟨⟨error, rfl⟩, rfl⟩⟩
  | ok _ =>
  have begins : ¬CannotBegin (⟨.ok (), target, log, post, map⟩ : TargetRun Entry) :=
    fun ⟨_, impossible⟩ => nomatch impossible
  cases target with
  | error error =>
      exact ⟨error, _, rfl, .inr ⟨begins, rfl⟩⟩
  | ok result =>
  obtain ⟨exitKind, time⟩ := result
  by_cases isGood : exitKind = .ok
  · subst isGood
    cases post with
    | error error =>
        exact ⟨error, _, rfl, .inr ⟨begins, rfl⟩⟩
    | ok _ =>
    rcases fails with fails | ⟨isBad, -, -⟩
    · cases map with
      | none =>
          cases tracks with
          | true =>
              exact ⟨mapNotFound, _, rfl, .inr ⟨begins, rfl⟩⟩
          | false =>
              cases fails
      | some map =>
          simp only [verdict, ne_eq, not_true_eq_false, if_false] at fails
          split at fails <;> cases fails
    · cases map with
      | none =>
          cases tracks <;> cases isBad
      | some map =>
          simp only [verdict, ne_eq, not_true_eq_false, if_false] at isBad
          split at isBad <;> cases isBad
  · have isBad :
        verdict default maxValue tracks mapFirst history
          ⟨.ok (), .ok (exitKind, time), log, post, map⟩ = some .bad :=
      if_pos isGood
    rw [isBad] at fails
    obtain ⟨-, noErrors, error, fails⟩ := fails.resolve_left (Option.some_ne_none _)
    cases fails
    refine ⟨error, { now with runs := now.runs + 1 }, ?_, .inr ⟨begins, rfl⟩⟩
    unfold runAgain
    simp only
    rw [outcome_bind_ok (outcome_lift _), outcome_bind_ok (outcome_modify _), runTarget,
      outcome_bind_ok (outcome_lift _)]
    simp only
    rw [if_pos isGood, outcome_bind_ok outcome_get]
    simp only
    rw [noErrors, if_pos Bool.false_ne_true]
    exact outcome_bind_error (outcome_lift _)

theorem runTarget_runs
    (least : Nat) :
    Keeps (fun now => least ≤ now.runs)
      (runTarget default maxValue tracks mapFirst run) := by
  refine Keeps.bind (.of_left fun _ holds => holds) ?_
  rintro ⟨exitKind, time⟩
  simp only
  split
  · refine Keeps.get.bind fun _ => ?_
    split
    · refine Keeps.bind (.of_left fun _ holds => holds) fun _ => ?_
      exact Keeps.modify fun _ holds => holds
    · exact .pure
  · refine (Keeps.modify fun _ holds => ?_).bind fun _ => ?_
    · exact holds
    refine Keeps.bind (.of_left fun _ holds => holds) fun _ => ?_
    split
    · split
      · refine (Keeps.modify fun _ holds => ?_).bind fun _ => Keeps.modify fun _ holds => ?_
        · exact holds
        · exact holds
      · exact Keeps.bind (.of_left fun _ holds => holds) fun _ =>
          Keeps.modify fun _ holds => holds
    · exact Keeps.modify fun _ holds => holds

theorem runAgain_runs
    (least : Nat) :
    Keeps (fun now => least ≤ now.runs)
      (runAgain default maxValue tracks mapFirst run) := by
  refine Keeps.bind (.of_left fun _ holds => holds) fun _ => ?_
  refine (Keeps.modify fun _ holds => ?_).bind fun _ => runTarget_runs least
  exact Nat.le_succ_of_le holds

variable {later : Nat → TargetRun Entry}
variable {index : Nat}

theorem runLoop_runs
    (least fuel : Nat) :
    Keeps (fun now => least ≤ now.runs)
      (runLoop default maxValue tracks mapFirst later fuel index) := by
  induction fuel generalizing index with
  | zero =>
      exact .pure
  | succ fuel ih =>
      refine Keeps.get.bind fun _ => ?_
      split
      · exact (runAgain_runs least).bind fun _ => ih
      · exact .pure

/-- What the run at an index shows. -/
def verdictAt
    (default maxValue : Entry)
    (tracks : Bool)
    (mapFirst history : List Entry)
    (later : Nat → TargetRun Entry)
    (index : Nat) : Option Verdict :=
  verdict default maxValue tracks mapFirst history (later index)

/-- The loop is at its end, or a run fails. -/
def Settles
    (default maxValue : Entry)
    (tracks : Bool)
    (mapFirst history : List Entry)
    (later : Nat → TargetRun Entry) : Nat → Nat → Counters → Prop
  | 0, index, counters => counters.iter ≤ counters.i ∨ CannotBegin (later index)
  | more + 1, index, counters =>
      counters.iter ≤ counters.i ∨
        (verdictAt default maxValue tracks mapFirst history later index = none ∨
          LogFails counters.hasErrors
            (verdictAt default maxValue tracks mapFirst history later index) (later index)) ∨
        ∃ shown,
          verdictAt default maxValue tracks mapFirst history later index = some shown ∧
            Settles default maxValue tracks mapFirst history later more (index + 1)
              (counters.after shown)

/-- The loop comes to an end with that many runs at most. -/
def Exits
    (default maxValue : Entry)
    (tracks : Bool)
    (mapFirst : List Entry)
    (later : Nat → TargetRun Entry)
    (more index : Nat)
    (now : Calibration Entry) : Prop :=
  ∃ fuel answer next,
    (runLoop default maxValue tracks mapFirst later fuel index).outcome now = (answer, next) ∧
      answer ≠ .ok none ∧
      next.runs ≤ now.runs + more

theorem outcome_runLoop_done
    {fuel : Nat}
    (done : now.iter ≤ now.i) :
    (runLoop default maxValue tracks mapFirst later (fuel + 1) index).outcome now =
      (.ok (some ()), now) := by
  rw [runLoop, outcome_bind_ok outcome_get, if_neg (Nat.not_lt_of_le done)]
  rfl

theorem outcome_runLoop_goesOn
    {fuel : Nat}
    (goesOn : now.i < now.iter) :
    (runLoop default maxValue tracks mapFirst later (fuel + 1) index).outcome now =
      outcome
        (do
          runAgain default maxValue tracks mapFirst (later index)
          runLoop default maxValue tracks mapFirst later fuel (index + 1))
        now := by
  rw [runLoop, outcome_bind_ok outcome_get, if_pos goesOn]

theorem exits_after_run
    {next : Calibration Entry}
    {more : Nat}
    (goesOn : now.i < now.iter)
    (returned :
      (runAgain default maxValue tracks mapFirst (later index)).outcome now = (.ok (), next))
    (counted : next.runs = now.runs + 1) :
    Exits default maxValue tracks mapFirst later (more + 1) index now ↔
      Exits default maxValue tracks mapFirst later more (index + 1) next := by
  constructor
  · rintro ⟨fuel, answer, last, ended, exits, few⟩
    cases fuel with
    | zero =>
        cases ended
        exact absurd rfl exits
    | succ fuel =>
        rw [outcome_runLoop_goesOn goesOn, outcome_bind_ok returned] at ended
        exact ⟨fuel, answer, last, ended, exits, by omega⟩
  · rintro ⟨fuel, answer, last, ended, exits, few⟩
    refine ⟨fuel + 1, answer, last, ?_, exits, by omega⟩
    rw [outcome_runLoop_goesOn goesOn, outcome_bind_ok returned]
    exact ended

theorem exits_zero_iff
    (goesOn : now.i < now.iter) :
    Exits default maxValue tracks mapFirst later 0 index now ↔ CannotBegin (later index) := by
  constructor
  · rintro ⟨fuel, answer, last, ended, exits, few⟩
    cases fuel with
    | zero =>
        cases ended
        exact absurd rfl exits
    | succ fuel =>
        by_contra begins
        have began : (later index).pre = .ok () := by
          cases pre : (later index).pre with
          | ok _ => rfl
          | error error => exact absurd ⟨error, pre⟩ begins
        have counted :
            now.runs + 1 ≤
              ((runLoop default maxValue tracks mapFirst later (fuel + 1) index).outcome
                now).2.runs := by
          rw [outcome_runLoop_goesOn goesOn, runAgain, began, bind_assoc,
            outcome_bind_ok (outcome_lift _), bind_assoc, outcome_bind_ok (outcome_modify _)]
          exact
            ((runTarget_runs (now.runs + 1)).bind fun _ => runLoop_runs (now.runs + 1) fuel).left
              (Nat.le_refl _)
        rw [ended] at counted
        exact absurd few (Nat.not_le_of_lt counted)
  · rintro ⟨error, fails⟩
    refine ⟨1, .error error, now, ?_, (fun impossible => nomatch impossible), Nat.le_refl _⟩
    rw [outcome_runLoop_goesOn goesOn]
    refine outcome_bind_error ?_
    rw [runAgain, fails]
    exact outcome_bind_error (outcome_lift _)

theorem exits_iff_settles
    (more : Nat)
    (matched : Matches default tracks mapFirst history now counters) :
    Exits default maxValue tracks mapFirst later more index now ↔
      Settles default maxValue tracks mapFirst history later more index counters := by
  induction more generalizing index now counters with
  | zero =>
      unfold Settles
      by_cases done : now.iter ≤ now.i
      · refine iff_of_true ⟨1, _, _, outcome_runLoop_done done, ?_, Nat.le_refl _⟩ (.inl ?_)
        · exact fun impossible => nomatch impossible
        · rw [← matched.iter, ← matched.i]
          exact done
      · rw [exits_zero_iff (Nat.lt_of_not_le done), ← matched.iter, ← matched.i]
        exact (or_iff_right done).symm
  | succ more ih =>
      unfold Settles
      by_cases done : now.iter ≤ now.i
      · refine iff_of_true ⟨1, _, _, outcome_runLoop_done done, ?_, Nat.le_add_right _ _⟩
          (.inl ?_)
        · exact fun impossible => nomatch impossible
        · rw [← matched.iter, ← matched.i]
          exact done
      · have goesOn : now.i < now.iter := Nat.lt_of_not_le done
        rw [← matched.iter, ← matched.i, or_iff_right done]
        by_cases fails :
            verdictAt default maxValue tracks mapFirst history later index = none ∨
              LogFails counters.hasErrors
                (verdictAt default maxValue tracks mapFirst history later index) (later index)
        · refine iff_of_true ?_ (.inl fails)
          rw [← matched.hasErrors] at fails
          obtain ⟨error, next, failed, counted⟩ := runAgain_fails fails
          refine ⟨1, .error error, next, ?_, (fun impossible => nomatch impossible), by omega⟩
          rw [outcome_runLoop_goesOn goesOn]
          exact outcome_bind_error failed
        · rw [or_iff_right fails]
          obtain ⟨notNone, logs⟩ := not_or.mp fails
          obtain ⟨shown, isShown⟩ := Option.ne_none_iff_exists'.mp notNone
          obtain ⟨next, returned, counted, matchedNext⟩ :=
            runAgain_matches matched isShown fun isBad noErrors => by
              cases log : (later index).log with
              | ok _ => rfl
              | error error => exact absurd ⟨isBad ▸ isShown, noErrors, error, log⟩ logs
          rw [exits_after_run goesOn returned counted, ih matchedNext]
          constructor
          · exact fun settles => ⟨shown, isShown, settles⟩
          · rintro ⟨other, isOther, settles⟩
            cases isShown.symm.trans isOther
            exact settles

/-- A run fails, or it is the first bad one and cannot be logged. -/
def FailsAt
    (default maxValue : Entry)
    (tracks : Bool)
    (mapFirst history : List Entry)
    (later : Nat → TargetRun Entry)
    (index : Nat) : Prop :=
  verdictAt default maxValue tracks mapFirst history later index = none ∨
    verdictAt default maxValue tracks mapFirst history later index = some .bad ∧
      (∀ earlier < index,
        verdictAt default maxValue tracks mapFirst history later earlier ≠ some .bad) ∧
      ∃ error, (later index).log = .error error

/-- The first bad run is the one that finds no errors yet. -/
theorem failsAt_iff
    (errors :
      counters.hasErrors ↔
        ∃ earlier < index,
          verdictAt default maxValue tracks mapFirst history later earlier = some .bad) :
    FailsAt default maxValue tracks mapFirst history later index ↔
      verdictAt default maxValue tracks mapFirst history later index = none ∨
        LogFails counters.hasErrors
          (verdictAt default maxValue tracks mapFirst history later index) (later index) := by
  unfold FailsAt LogFails
  refine or_congr_right (and_congr_right fun _ => and_congr_left fun _ => ?_)
  rw [← Bool.not_eq_true, errors]
  constructor
  · rintro none ⟨earlier, before, isBad⟩
    exact none earlier before isBad
  · exact fun none earlier before isBad => none ⟨earlier, before, isBad⟩

/-- Unless something fails, the loop follows its counters. -/
theorem settles_iff
    (more : Nat)
    (errors :
      counters.hasErrors ↔
        ∃ earlier < index,
          verdictAt default maxValue tracks mapFirst history later earlier = some .bad) :
    Settles default maxValue tracks mapFirst history later more index counters ↔
      (∃ failing, index ≤ failing ∧ failing < index + more ∧
          FailsAt default maxValue tracks mapFirst history later failing) ∨
        CannotBegin (later (index + more)) ∨
        counters.ends
          ((List.range' index more).filterMap
            (verdictAt default maxValue tracks mapFirst history later)) := by
  induction more generalizing index counters with
  | zero =>
      have noIndex :
          ¬∃ failing, index ≤ failing ∧ failing < index + 0 ∧
            FailsAt default maxValue tracks mapFirst history later failing := by
        rintro ⟨failing, fromHere, toHere, -⟩
        omega
      rw [or_iff_right noIndex, Settles, or_comm]
      exact or_congr_right decide_eq_true_iff.symm
  | succ more ih =>
      unfold Settles
      rw [← failsAt_iff errors]
      by_cases fails : FailsAt default maxValue tracks mapFirst history later index
      · exact iff_of_true (.inr (.inl fails)) (.inl ⟨index, Nat.le_refl _, by omega, fails⟩)
      · obtain ⟨shown, isShown⟩ :
            ∃ shown,
              verdictAt default maxValue tracks mapFirst history later index = some shown :=
          Option.ne_none_iff_exists'.mp fun isNone => fails (.inl isNone)
        have errorsLater :
            (counters.after shown).hasErrors ↔
              ∃ earlier < index + 1,
                verdictAt default maxValue tracks mapFirst history later earlier =
                  some .bad := by
          rw [Counters.hasErrors_after, Bool.or_eq_true, errors, decide_eq_true_iff]
          constructor
          · rintro (⟨earlier, before, isBad⟩ | rfl)
            · exact ⟨earlier, Nat.lt_succ_of_lt before, isBad⟩
            · exact ⟨index, Nat.lt_succ_self index, isShown⟩
          · rintro ⟨earlier, before, isBad⟩
            rcases Nat.lt_succ_iff_lt_or_eq.mp before with before | rfl
            · exact .inl ⟨earlier, before, isBad⟩
            · exact .inr (Option.some.inj (isShown.symm.trans isBad))
        have onlyShown :
            (∃ other,
              verdictAt default maxValue tracks mapFirst history later index = some other ∧
                Settles default maxValue tracks mapFirst history later more (index + 1)
                  (counters.after other)) ↔
              Settles default maxValue tracks mapFirst history later more (index + 1)
                (counters.after shown) := by
          constructor
          · rintro ⟨other, isOther, settles⟩
            cases isShown.symm.trans isOther
            exact settles
          · exact fun settles => ⟨shown, isShown, settles⟩
        have failsLater :
            (∃ failing, index ≤ failing ∧ failing < index + (more + 1) ∧
              FailsAt default maxValue tracks mapFirst history later failing) ↔
              ∃ failing, index + 1 ≤ failing ∧ failing < index + 1 + more ∧
                FailsAt default maxValue tracks mapFirst history later failing := by
          refine exists_congr fun failing => ?_
          constructor
          · rintro ⟨fromHere, toHere, failsThere⟩
            have notHere : failing ≠ index := fun same => fails (same ▸ failsThere)
            exact ⟨by omega, by omega, failsThere⟩
          · rintro ⟨fromHere, toHere, failsThere⟩
            exact ⟨by omega, by omega, failsThere⟩
        have follows :
            counters.ends
                ((List.range' index (more + 1)).filterMap
                  (verdictAt default maxValue tracks mapFirst history later)) =
              (counters.iter ≤ counters.i ∨
                (counters.after shown).ends
                  ((List.range' (index + 1) more).filterMap
                    (verdictAt default maxValue tracks mapFirst history later))) := by
          rw [List.range'_succ, List.filterMap_cons_some isShown, Counters.ends,
            Bool.or_eq_true, decide_eq_true_iff]
        rw [or_iff_right fails, onlyShown, ih errorsLater, failsLater, follows,
          show index + 1 + more = index + (more + 1) by omega]
        exact or_left_comm.trans (or_congr_right or_left_comm)

/-- One of the seven runs after the first one fails, the next cannot begin, or they suffice. -/
def WithinMaximum
    (default maxValue : Entry)
    (tracks : Bool)
    (mapFirst history : List Entry)
    (later : Nat → TargetRun Entry) : Prop :=
  (∃ failing < 7, FailsAt default maxValue tracks mapFirst history later failing) ∨
    CannotBegin (later 7) ∨
    SevenSuffice
      ((List.range 7).filterMap (verdictAt default maxValue tracks mapFirst history later))

theorem exits_iff_withinMaximum
    (matched : Matches default tracks mapFirst history now Counters.start) :
    Exits default maxValue tracks mapFirst later 7 0 now ↔
      WithinMaximum default maxValue tracks mapFirst history later := by
  have noErrors :
      Counters.start.hasErrors ↔
        ∃ earlier < 0,
          verdictAt default maxValue tracks mapFirst history later earlier = some .bad :=
    iff_of_false Bool.false_ne_true fun ⟨_, impossible, _⟩ => Nat.not_lt_zero _ impossible
  rw [exits_iff_settles 7 matched, settles_iff 7 noErrors]
  unfold WithinMaximum
  simp only [Nat.zero_le, true_and, Nat.zero_add, List.range_eq_range']
  by_cases fails :
      ∃ failing < 7, FailsAt default maxValue tracks mapFirst history later failing
  · exact iff_of_true (.inl fails) (.inl fails)
  · refine or_congr_right (or_congr_right (ends_iff_sevenSuffice ?_))
    rw [List.filterMap_length_eq_length.mpr ?_, List.length_range']
    intro index inside
    have before : index < 7 := by
      rw [List.mem_range'_1] at inside
      omega
    rw [Option.isSome_iff_ne_none]
    exact fun isNone => fails ⟨index, before, .inl isNone⟩

/-- The map of a first run that does not fail. -/
def mapOfFirst (run : TargetRun Entry) : Option (List Entry) :=
  match run.pre, run.target, run.log, run.post with
  | .ok _, .ok (.ok, _), _, .ok _ => run.map
  | .ok _, .ok _, .ok _, .ok _ => run.map
  | _, _, _, _ => none

omit [DecidableEq Entry] in
theorem runFirst_map
    {mapFirst : List Entry}
    (isFirst : mapOfFirst run = some mapFirst) :
    ∃ totalTime,
      (runFirst run).outcome (start history) =
        (.ok mapFirst, { start history with runs := 1, totalTime := totalTime }) := by
  obtain ⟨pre, target, log, post, map⟩ := run
  rcases pre with _ | _
  · cases isFirst
  rcases target with _ | ⟨exitKind, time⟩
  · cases isFirst
  rcases post with _ | _
  · cases exitKind <;> cases log <;> cases isFirst
  cases exitKind with
  | ok =>
      cases isFirst
      exact ⟨time, rfl⟩
  | _ =>
      cases log with
      | error _ =>
          cases isFirst
      | ok _ =>
          cases isFirst
          exact ⟨1000000000, rfl⟩

omit [DecidableEq Entry] in
theorem runFirst_fails
    (fails : mapOfFirst run = none) :
    ∃ error next,
      (runFirst run).outcome (start history) = (.error error, next) ∧ next.runs ≤ 1 := by
  obtain ⟨pre, target, log, post, map⟩ := run
  rcases pre with error | _
  · exact ⟨error, _, rfl, Nat.zero_le 1⟩
  rcases target with error | ⟨exitKind, time⟩
  · exact ⟨error, _, rfl, Nat.le_refl 1⟩
  cases exitKind with
  | ok =>
      rcases post with error | _
      · exact ⟨error, _, rfl, Nat.le_refl 1⟩
      · have noMap : map = none := fails
        rw [noMap]
        exact ⟨mapNotFound, _, rfl, Nat.le_refl 1⟩
  | _ =>
      rcases log with error | _
      · exact ⟨error, _, rfl, Nat.le_refl 1⟩
      rcases post with error | _
      · exact ⟨error, _, rfl, Nat.le_refl 1⟩
      · have noMap : map = none := fails
        rw [noMap]
        exact ⟨mapNotFound, _, rfl, Nat.le_refl 1⟩

/--
The stage ends after eight runs at most, if and only if its first run fails, or the other
seven stay within the maximum.
-/
theorem calibration_is_bounded_iff
    (default maxValue : Entry)
    (tracks : Bool)
    (history : List Entry)
    (first : TargetRun Entry)
    (later : Nat → TargetRun Entry) :
    (∃ fuel answer next,
        (perform default maxValue tracks first later fuel).outcome (start history) =
          (answer, next) ∧
        answer ≠ .ok none ∧
        next.runs ≤ calStageMax) ↔
      ∀ mapFirst,
        mapOfFirst first = some mapFirst →
        WithinMaximum default maxValue tracks mapFirst history later := by
  cases isFirst : mapOfFirst first with
  | none =>
      obtain ⟨error, next, failed, few⟩ := @runFirst_fails _ history _ isFirst
      refine iff_of_true ⟨0, .error error, next, outcome_bind_error failed, ?_, ?_⟩ ?_
      · exact fun impossible => nomatch impossible
      · exact Nat.le_trans few (by decide)
      · exact fun _ impossible => nomatch impossible
  | some mapFirst =>
      obtain ⟨totalTime, returned⟩ := @runFirst_map _ history _ _ isFirst
      have matched :
          Matches default tracks mapFirst history
            { start history with runs := 1, totalTime := totalTime } Counters.start :=
        matches_start history 1 totalTime
      have loops :
          (∃ fuel answer next,
            (perform default maxValue tracks first later fuel).outcome (start history) =
              (answer, next) ∧
            answer ≠ .ok none ∧
            next.runs ≤ calStageMax) ↔
            Exits default maxValue tracks mapFirst later 7 0
              { start history with runs := 1, totalTime := totalTime } := by
        refine exists_congr fun fuel => exists_congr fun answer => exists_congr fun next => ?_
        have performed :
            (perform default maxValue tracks first later fuel).outcome (start history) =
              (runLoop default maxValue tracks mapFirst later fuel 0).outcome
                { start history with runs := 1, totalTime := totalTime } :=
          outcome_bind_ok returned
        rw [performed]
        exact Iff.rfl
      rw [loops, exits_iff_withinMaximum matched]
      constructor
      · rintro within _ ⟨⟩
        exact within
      · exact fun within => within mapFirst rfl

end

/-- A crash that takes a microsecond. -/
def crashingRun : TargetRun Nat where
  pre := .ok ()
  target := .ok (.crash, 1000)
  log := .ok ()
  post := .ok ()
  map := some [1]

/-- Each crash leaves `i` where it is, so the loop has no end. -/
theorem crashes_never_end
    {fuel index : Nat}
    {now : Calibration Nat}
    (goesOn : now.i < now.iter) :
    ((runLoop 0 255 true [1] (fun _ => crashingRun) fuel index).outcome now).1 = .ok none := by
  induction fuel generalizing index now with
  | zero =>
      rfl
  | succ fuel ih =>
      rw [outcome_runLoop_goesOn goesOn]
      cases errors : now.hasErrors with
      | true =>
          have returned :
              (runAgain 0 255 true [1] crashingRun).outcome now =
                (.ok (), { now with runs := now.runs + 1 }) := by
            obtain ⟨i, iter, hasErrors, totalTime, unstableEntries, historyMap, runs⟩ := now
            cases errors
            rfl
          rw [outcome_bind_ok returned]
          exact ih goesOn
      | false =>
          have returned :
              (runAgain 0 255 true [1] crashingRun).outcome now =
                (.ok (),
                  { now with
                    runs := now.runs + 1
                    hasErrors := true
                    iter := raise now.iter }) := by
            obtain ⟨i, iter, hasErrors, totalTime, unstableEntries, historyMap, runs⟩ := now
            cases errors
            rfl
          rw [outcome_bind_ok returned]
          refine ih (Nat.lt_of_lt_of_le goesOn ?_)
          unfold raise
          split
          · exact Nat.le_add_right _ _
          · exact Nat.le_refl _

/-- An entry that ends well at first and crashes from then on. -/
theorem crashing_target_is_not_bounded :
    ¬∃ fuel answer next,
      (perform 0 255 true { crashingRun with target := .ok (.ok, 1000) }
          (fun _ => crashingRun) fuel).outcome (start []) = (answer, next) ∧
        answer ≠ .ok none ∧
        next.runs ≤ calStageMax := by
  rintro ⟨fuel, answer, next, ended, exits, -⟩
  refine exits ?_
  have neverEnds :
      ((perform 0 255 true { crashingRun with target := .ok (.ok, 1000) }
          (fun _ => crashingRun) fuel).outcome (start [])).1 = .ok none := by
    obtain ⟨totalTime, returned⟩ :=
      @runFirst_map Nat [] { crashingRun with target := .ok (.ok, 1000) } [1] rfl
    unfold perform
    rw [outcome_bind_ok returned]
    exact crashes_never_end (show 1 < 4 by decide)
  rw [ended] at neverEnds
  exact neverEnds

end MeFuzz.CalibrationStage
