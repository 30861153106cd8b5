import MeFuzz.Procedures

namespace MeFuzz.SyncFromDisk

/-!
# Importing files from a directory

The stage goes through a directory and evaluates the files that are not older than the
newest one it knows of.  What it finds each time is a listing of the directory, with what
becomes of each entry; the log of the files evaluated is kept beside the state.
-/

/-- The entries of a directory that are left to read, those of its directories inside. -/
inductive Listing (Path Time : Type) where
  | done
  /-- Reading the directory fails before these. -/
  | broken (rest : Listing Path Time)
  /-- The attributes of the entry cannot be read, or it is neither file nor directory. -/
  | other (rest : Listing Path Time)
  | file (path : Path) (len : Nat) (modified : Option Time) (rest : Listing Path Time)
  | dir (inner rest : Listing Path Time)

/-- What the load callback and the evaluation answer. -/
structure Calls (Path Input : Type) where
  loadCallback : Path → Option Input
  evaluateInput : Path → Input → Bool

/-- The call that made a `perform` fail. -/
inductive Error where
  | readDir
  | loadCallback
  | evaluateInput

/-- `SyncFromDiskMetadata`. -/
structure SyncFromDiskMetadata (Time : Type) where
  lastTime : Time

variable {Path Time Input : Type} [LinearOrder Time]

/-- The later of the newest times. -/
def maxOf (maxTime : Option Time) (time : Time) : Time :=
  match maxTime with
  | none => time
  | some t => max t time

/-- The file is older than the newest one known of. -/
def IsOlder (last : Option Time) (time : Time) : Prop :=
  match last with
  | none => False
  | some l => time < l

instance (last : Option Time) (time : Time) : Decidable (IsOlder last time) :=
  match last with
  | none => inferInstanceAs (Decidable False)
  | some l => inferInstanceAs (Decidable (time < l))

/-- A file is loaded and evaluated. -/
def importFile
    (calls : Calls Path Input)
    (path : Path) : Procedure Error (List Path) PUnit :=
  match calls.loadCallback path with
  | none => throw .loadCallback
  | some input =>
      if calls.evaluateInput path input then modify (· ++ [path])
      else throw .evaluateInput

/-- `load_from_directory`, with the newest time so far. -/
def loadFromDirectory
    (calls : Calls Path Input)
    (last : Option Time) :
    Listing Path Time → Option Time → Procedure Error (List Path) (Option Time)
  | .done, maxTime => pure maxTime
  | .broken _, _ => throw .readDir
  | .other rest, maxTime => loadFromDirectory calls last rest maxTime
  | .file path len modified rest, maxTime =>
      match modified with
      | none => loadFromDirectory calls last rest maxTime
      | some time =>
          if len > 0 ∧ ¬ IsOlder last time then do
            importFile calls path
            loadFromDirectory calls last rest (some (maxOf maxTime time))
          else loadFromDirectory calls last rest maxTime
  | .dir inner rest, maxTime => do
      let dirMaxTime ← loadFromDirectory calls last inner none
      match dirMaxTime with
      | none => loadFromDirectory calls last rest maxTime
      | some time => loadFromDirectory calls last rest (some (maxOf maxTime time))

/-- A file with something in it. -/
structure File (Path Time : Type) where
  path : Path
  time : Time

/-- What there is to read, in the order in which it is read; `none` where it fails. -/
def Listing.visits : Listing Path Time → List (Option (File Path Time))
  | .done => []
  | .broken rest => none :: rest.visits
  | .other rest => rest.visits
  | .file path len modified rest =>
      match modified with
      | none => rest.visits
      | some time => if len > 0 then some ⟨path, time⟩ :: rest.visits else rest.visits
  | .dir inner rest => inner.visits ++ rest.visits

/-- The files that are there. -/
def Listing.files (listing : Listing Path Time) : List (File Path Time) :=
  listing.visits.reduceOption

/-- What the stage works on. -/
structure State (Path Time : Type) where
  metadata : Option (SyncFromDiskMetadata Time)
  evaluated : List Path

/-- The last time that the stage remembers. -/
def State.last (state : State Path Time) : Option Time :=
  state.metadata.map SyncFromDiskMetadata.lastTime

/-- `perform`. -/
def State.perform
    (calls : Calls Path Input)
    (listing : Listing Path Time)
    (state : State Path Time) : Except Error Unit × State Path Time :=
  match (loadFromDirectory calls state.last listing none).outcome state.evaluated with
  | (.error error, evaluated) => (.error error, { state with evaluated := evaluated })
  | (.ok none, evaluated) => (.ok (), { state with evaluated := evaluated })
  | (.ok (some maxTime), evaluated) => (.ok (), ⟨some ⟨maxTime⟩, evaluated⟩)

/-- The file can be loaded and evaluated. -/
def Calls.Works (calls : Calls Path Input) (path : Path) : Prop :=
  ∃ input, calls.loadCallback path = some input ∧ calls.evaluateInput path input

instance (calls : Calls Path Input) (path : Path) : Decidable (calls.Works path) :=
  match isInput : calls.loadCallback path with
  | none => .isFalse fun ⟨_, isSome, _⟩ => by rw [isInput] at isSome; cases isSome
  | some input =>
      decidable_of_iff (calls.evaluateInput path input)
        ⟨fun evaluates => ⟨input, isInput, evaluates⟩, fun ⟨other, isSome, evaluates⟩ => by
          rw [isInput] at isSome
          cases isSome
          exact evaluates⟩

section

variable (calls : Calls Path Input) (last : Option Time)

/-- Nothing that is read fails. -/
def Completes (visits : List (Option (File Path Time))) : Prop :=
  ∀ visit ∈ visits,
    ∃ file, visit = some file ∧ (IsOlder last file.time ∨ calls.Works file.path)

/-- The files that are evaluated before anything fails. -/
def reached : List (Option (File Path Time)) → List (File Path Time)
  | [] => []
  | none :: _ => []
  | some file :: rest =>
      if IsOlder last file.time then reached rest
      else if calls.Works file.path then file :: reached rest
      else []

/-- The newest time after some files. -/
def newest (maxTime : Option Time) (files : List (File Path Time)) : Option Time :=
  files.foldl (fun maxTime file => some (maxOf maxTime file.time)) maxTime

/-- What a pass over the visits returns, and what it has evaluated. -/
structure Swept
    (visits : List (Option (File Path Time)))
    (maxTime : Option Time)
    (evaluated : List Path)
    (outcome : Except Error (Option Time) × List Path) : Prop where
  evaluated : outcome.2 = evaluated ++ (reached calls last visits).map File.path
  returned :
    Completes calls last visits →
      outcome.1 = .ok (newest maxTime (reached calls last visits))
  failed : ¬ Completes calls last visits → ∃ error, outcome.1 = .error error

end

section

variable {calls : Calls Path Input} {last : Option Time}

theorem completes_cons
    {file : File Path Time}
    {rest : List (Option (File Path Time))} :
    Completes calls last (some file :: rest) ↔
      (IsOlder last file.time ∨ calls.Works file.path) ∧ Completes calls last rest := by
  unfold Completes
  rw [List.forall_mem_cons]
  refine and_congr_left fun _ => ?_
  constructor
  · rintro ⟨_, same, fine⟩
    cases same
    exact fine
  · intro fine
    exact ⟨file, rfl, fine⟩

theorem not_completes_none
    (rest : List (Option (File Path Time))) :
    ¬ Completes calls last (none :: rest) := by
  intro completes
  obtain ⟨file, isSome, _⟩ := completes none List.mem_cons_self
  cases isSome

theorem completes_append
    {front back : List (Option (File Path Time))} :
    Completes calls last (front ++ back) ↔
      Completes calls last front ∧ Completes calls last back :=
  List.forall_mem_append

theorem reached_append
    (front back : List (Option (File Path Time))) :
    (Completes calls last front →
        reached calls last (front ++ back) =
          reached calls last front ++ reached calls last back) ∧
      (¬ Completes calls last front →
        reached calls last (front ++ back) = reached calls last front) := by
  induction front with
  | nil =>
      exact ⟨fun _ => rfl, fun incomplete => absurd (fun _ member => by cases member) incomplete⟩
  | cons visit rest ih =>
      cases visit with
      | none =>
          exact ⟨fun completes => absurd completes (not_completes_none rest), fun _ => rfl⟩
      | some file =>
          rw [completes_cons, List.cons_append, reached, reached]
          by_cases isOlder : IsOlder last file.time
          · simpa [isOlder] using ih
          · by_cases works : calls.Works file.path
            · simpa [isOlder, works] using ih
            · simp [isOlder, works]

theorem newest_eq
    (maxTime : Option Time)
    (files : List (File Path Time)) :
    newest maxTime files =
      match newest none files with
      | none => maxTime
      | some time => some (maxOf maxTime time) := by
  induction files using List.reverseRecOn with
  | nil =>
      rfl
  | append_singleton front file ih =>
      unfold newest at ih ⊢
      rw [List.foldl_concat, List.foldl_concat, ih]
      cases front.foldl (fun maxTime file => some (maxOf maxTime file.time)) none with
      | none =>
          rfl
      | some time =>
          cases maxTime with
          | none =>
              rfl
          | some t =>
              simp only [maxOf, max_assoc]

theorem newest_eq_some
    {files : List (File Path Time)}
    {time : Time}
    (isNewest : newest none files = some time) :
    ∃ file ∈ files, file.time = time := by
  induction files using List.reverseRecOn generalizing time with
  | nil =>
      cases isNewest
  | append_singleton front file ih =>
      unfold newest at ih isNewest
      rw [List.foldl_concat] at isNewest
      have isMax := Option.some.inj isNewest
      cases isFront : front.foldl (fun maxTime file => some (maxOf maxTime file.time)) none with
      | none =>
          rw [isFront] at isMax
          exact ⟨file, by simp, isMax⟩
      | some t =>
          rw [isFront] at isMax
          rcases max_choice t file.time with isFirst | isSecond
          · obtain ⟨other, member, isTime⟩ := ih isFront
            exact ⟨other, List.mem_append_left _ member,
              isTime.trans (isFirst.symm.trans isMax)⟩
          · exact ⟨file, by simp, isSecond.symm.trans isMax⟩

theorem outcome_importFile
    {path : Path}
    {evaluated : List Path} :
    (calls.Works path →
        (importFile calls path).outcome evaluated = (.ok ⟨⟩, evaluated ++ [path])) ∧
      (¬ calls.Works path →
        ∃ error, (importFile calls path).outcome evaluated = (.error error, evaluated)) := by
  unfold importFile Calls.Works
  cases calls.loadCallback path with
  | none =>
      simp
  | some input =>
      by_cases evaluates : calls.evaluateInput path input = true
      · simp [evaluates]
      · simp [evaluates]

section

variable {file : File Path Time} {rest back : List (Option (File Path Time))}
variable {maxTime : Option Time} {evaluated : List Path}
variable {outcome : Except Error (Option Time) × List Path}

theorem Swept.skip
    (isOlder : IsOlder last file.time)
    (swept : Swept calls last rest maxTime evaluated outcome) :
    Swept calls last (some file :: rest) maxTime evaluated outcome := by
  have sameReached : reached calls last (some file :: rest) = reached calls last rest :=
    if_pos isOlder
  have sameCompletes :
      Completes calls last (some file :: rest) ↔ Completes calls last rest := by
    rw [completes_cons, and_iff_right (.inl isOlder)]
  constructor
  · rw [sameReached]
    exact swept.evaluated
  · rw [sameReached, sameCompletes]
    exact swept.returned
  · rw [sameCompletes]
    exact swept.failed

theorem Swept.take
    (notOlder : ¬ IsOlder last file.time)
    (works : calls.Works file.path)
    (swept :
      Swept calls last rest (some (maxOf maxTime file.time)) (evaluated ++ [file.path])
        outcome) :
    Swept calls last (some file :: rest) maxTime evaluated outcome := by
  have isReached :
      reached calls last (some file :: rest) = file :: reached calls last rest := by
    rw [reached, if_neg notOlder, if_pos works]
  have sameCompletes :
      Completes calls last (some file :: rest) ↔ Completes calls last rest := by
    rw [completes_cons, and_iff_right (.inr works)]
  constructor
  · rw [isReached, swept.evaluated, List.map_cons, List.append_assoc,
      List.singleton_append]
  · rw [isReached, sameCompletes]
    exact swept.returned
  · rw [sameCompletes]
    exact swept.failed

theorem Swept.fail
    {error : Error}
    (notOlder : ¬ IsOlder last file.time)
    (broken : ¬ calls.Works file.path) :
    Swept calls last (some file :: rest) maxTime evaluated (.error error, evaluated) := by
  have isReached : reached calls last (some file :: rest) = [] := by
    rw [reached, if_neg notOlder, if_neg broken]
  constructor
  · rw [isReached]
    exact (List.append_nil _).symm
  · intro completes
    rcases (completes_cons.mp completes).1 with isOlder | works
    · exact absurd isOlder notOlder
    · exact absurd works broken
  · exact fun _ => ⟨error, rfl⟩

theorem Swept.append
    {front : List (Option (File Path Time))}
    {between : Option Time}
    (completes : Completes calls last front)
    (isBetween : between = newest maxTime (reached calls last front))
    (swept :
      Swept calls last back between
        (evaluated ++ (reached calls last front).map File.path) outcome) :
    Swept calls last (front ++ back) maxTime evaluated outcome := by
  have isReached := (reached_append front back).1 completes
  have sameCompletes :
      Completes calls last (front ++ back) ↔ Completes calls last back := by
    rw [completes_append, and_iff_right completes]
  constructor
  · rw [isReached, swept.evaluated, List.map_append, List.append_assoc]
  · rw [isReached, sameCompletes, newest, List.foldl_append]
    subst isBetween
    exact swept.returned
  · rw [sameCompletes]
    exact swept.failed

theorem Swept.stop
    {front : List (Option (File Path Time))}
    {other : Option Time}
    {error : Error}
    {log : List Path}
    (incomplete : ¬ Completes calls last front)
    (swept : Swept calls last front other evaluated (.error error, log)) :
    Swept calls last (front ++ back) maxTime evaluated (.error error, log) := by
  constructor
  · rw [(reached_append front back).2 incomplete]
    exact swept.evaluated
  · exact fun completes => absurd (completes_append.mp completes).1 incomplete
  · exact fun _ => ⟨error, rfl⟩

end

theorem swept_loadFromDirectory
    (listing : Listing Path Time) :
    ∀ (maxTime : Option Time) (evaluated : List Path),
      Swept calls last listing.visits maxTime evaluated
        ((loadFromDirectory calls last listing maxTime).outcome evaluated) := by
  induction listing with
  | done =>
      intro maxTime evaluated
      refine ⟨(List.append_nil _).symm, fun _ => rfl, fun incomplete => ?_⟩
      exact absurd (fun _ member => by cases member) incomplete
  | broken rest _ =>
      intro maxTime evaluated
      refine ⟨(List.append_nil _).symm, fun completes => ?_, fun _ => ⟨.readDir, rfl⟩⟩
      exact absurd completes (not_completes_none _)
  | other rest ih =>
      exact ih
  | file path len modified rest ih =>
      intro maxTime evaluated
      cases modified with
      | none =>
          exact ih maxTime evaluated
      | some time =>
          rw [loadFromDirectory, Listing.visits]
          by_cases isFilled : len > 0
          · rw [if_pos isFilled]
            by_cases isOlder : IsOlder last time
            · rw [if_neg fun both => both.2 isOlder]
              exact (ih maxTime evaluated).skip isOlder
            · rw [if_pos ⟨isFilled, isOlder⟩]
              by_cases works : calls.Works path
              · rw [Procedure.outcome_bind_ok (outcome_importFile.1 works)]
                exact (ih _ _).take isOlder works
              · obtain ⟨error, failed⟩ := outcome_importFile.2 works
                rw [Procedure.outcome_bind_error failed]
                exact .fail isOlder works
          · rw [if_neg isFilled, if_neg fun both => isFilled both.1]
            exact ih maxTime evaluated
  | dir inner rest innerHypothesis restHypothesis =>
      intro maxTime evaluated
      have innerSwept := innerHypothesis none evaluated
      rw [loadFromDirectory, Listing.visits, Procedure.outcome_bind]
      by_cases completes : Completes calls last inner.visits
      · have returned := innerSwept.returned completes
        have logged := innerSwept.evaluated
        have merged := newest_eq maxTime (reached calls last inner.visits)
        generalize (loadFromDirectory calls last inner none).outcome evaluated = result
          at returned logged ⊢
        obtain ⟨_, log⟩ := result
        dsimp only at returned logged ⊢
        subst returned logged
        cases isNewest : newest none (reached calls last inner.visits) with
        | none =>
            rw [isNewest] at merged
            exact .append completes merged.symm (restHypothesis _ _)
        | some time =>
            rw [isNewest] at merged
            exact .append completes merged.symm (restHypothesis _ _)
      · obtain ⟨error, failed⟩ := innerSwept.failed completes
        generalize (loadFromDirectory calls last inner none).outcome evaluated = result
          at innerSwept failed ⊢
        obtain ⟨_, log⟩ := result
        dsimp only at failed ⊢
        subst failed
        exact innerSwept.stop completes

theorem mem_reached_of_completes
    {listing : Listing Path Time}
    {file : File Path Time}
    (completes : Completes calls last listing.visits) :
    file ∈ reached calls last listing.visits ↔
      file ∈ listing.files ∧ ¬ IsOlder last file.time := by
  unfold Listing.files
  generalize listing.visits = visits at completes
  induction visits with
  | nil =>
      simp [reached]
  | cons visit rest ih =>
      obtain ⟨one, rfl, fine⟩ := completes visit List.mem_cons_self
      have later := ih (completes_cons.mp completes).2
      rw [List.reduceOption_cons_of_some, List.mem_cons, reached]
      by_cases isOlder : IsOlder last one.time
      · rw [if_pos isOlder, later]
        constructor
        · exact fun both => ⟨.inr both.1, both.2⟩
        · rintro ⟨rfl | isLater, notOlder⟩
          · exact absurd isOlder notOlder
          · exact ⟨isLater, notOlder⟩
      · rw [if_neg isOlder, if_pos (fine.resolve_left isOlder), List.mem_cons, later]
        constructor
        · rintro (rfl | both)
          · exact ⟨.inl rfl, isOlder⟩
          · exact ⟨.inr both.1, both.2⟩
        · rintro ⟨rfl | isLater, notOlder⟩
          · exact .inl rfl
          · exact .inr ⟨isLater, notOlder⟩

theorem mem_files_of_reached
    {listing : Listing Path Time}
    {file : File Path Time}
    (isReached : file ∈ reached calls last listing.visits) :
    file ∈ listing.files := by
  unfold Listing.files
  generalize listing.visits = visits at isReached
  induction visits with
  | nil =>
      cases isReached
  | cons visit rest ih =>
      cases visit with
      | none =>
          cases isReached
      | some one =>
          rw [List.reduceOption_cons_of_some, List.mem_cons]
          rw [reached] at isReached
          split at isReached
          · exact .inr (ih isReached)
          · split at isReached
            · rcases List.mem_cons.mp isReached with rfl | isLater
              · exact .inl rfl
              · exact .inr (ih isLater)
            · cases isReached

theorem reached_none
    {listing : Listing Path Time}
    (completes : Completes calls none listing.visits) :
    reached calls none listing.visits = listing.files := by
  unfold Listing.files
  generalize listing.visits = visits at completes
  induction visits with
  | nil =>
      rfl
  | cons visit rest ih =>
      obtain ⟨one, rfl, fine⟩ := completes visit List.mem_cons_self
      have notOlder : ¬ IsOlder none one.time := not_false
      rw [List.reduceOption_cons_of_some, reached, if_neg notOlder,
        if_pos (fine.resolve_left notOlder),
        ih (completes_cons.mp completes).2]

end

/-- A `perform`, with the directory that it finds. -/
structure Perform (Path Time Input : Type) where
  calls : Calls Path Input
  listing : Listing Path Time

/-- The state, the files that were there last, and those there when a `perform` returned. -/
structure History (Path Time : Type) where
  state : State Path Time
  files : List (File Path Time)
  seen : List Path

/-- Nothing was found yet. -/
def History.initial : History Path Time :=
  ⟨⟨none, []⟩, [], []⟩

/-- Files are only added to the directory, none of them older than those that are there. -/
structure Grows (before after : List (File Path Time)) : Prop where
  distinct : (after.map File.path).Nodup
  kept : ∀ file ∈ before, file ∈ after
  later : ∀ file ∈ after, file ∉ before → ∀ other ∈ before, other.time ≤ file.time

/-- Nothing fails. -/
def History.Returns
    (history : History Path Time)
    (perform : Perform Path Time Input) : Prop :=
  Completes perform.calls history.state.last perform.listing.visits

/-- The files that are evaluated. -/
def History.imports
    (history : History Path Time)
    (perform : Perform Path Time Input) : List (File Path Time) :=
  reached perform.calls history.state.last perform.listing.visits

/-- What there is after a `perform`. -/
def History.next
    (history : History Path Time)
    (perform : Perform Path Time Input) : History Path Time :=
  let performed := history.state.perform perform.calls perform.listing
  { state := performed.2
    files := perform.listing.files
    seen :=
      match performed.1 with
      | .ok _ => perform.listing.files.map File.path
      | .error _ => history.seen }

/-- A `perform` in a directory that grows. -/
def Step (Path Time Input : Type) [LinearOrder Time] :
    StepRelation (History Path Time) (Perform Path Time Input) :=
  fun history perform next =>
    Grows history.files perform.listing.files ∧ next = history.next perform

/-- Every file that was there when a `perform` returned was evaluated once. -/
def ImportedOnce [DecidableEq Path] (history : History Path Time) : Prop :=
  ∀ path ∈ history.seen, history.state.evaluated.count path = 1

/--
A `perform` that returns is the first that evaluates a file, and one that fails does so
before it comes to a file that was there when another one returned.
-/
def Single
    (history : History Path Time)
    (perform : Perform Path Time Input) : Prop :=
  (history.Returns perform → history.state.evaluated = []) ∧
    (¬ history.Returns perform →
      ∀ file ∈ history.imports perform, file.path ∉ history.seen)

section

variable {history : History Path Time} {perform : Perform Path Time Input}

/-- What a `perform` that returns leaves behind. -/
theorem next_of_completes
    (completes : history.Returns perform) :
    (history.next perform).seen = perform.listing.files.map File.path ∧
      (history.next perform).state.evaluated =
        history.state.evaluated ++ (history.imports perform).map File.path ∧
      (history.next perform).state.last =
        match newest none (history.imports perform) with
        | none => history.state.last
        | some time => some time := by
  have swept :
      Swept perform.calls history.state.last perform.listing.visits none
        history.state.evaluated _ :=
    swept_loadFromDirectory perform.listing none history.state.evaluated
  have returned := swept.returned completes
  have logged := swept.evaluated
  unfold History.next State.perform History.imports
  dsimp only
  generalize
    (loadFromDirectory perform.calls history.state.last perform.listing none).outcome
      history.state.evaluated = result at returned logged ⊢
  obtain ⟨_, log⟩ := result
  dsimp only at returned logged
  subst returned logged
  cases newest none
      (reached perform.calls history.state.last perform.listing.visits) with
  | none =>
      exact ⟨rfl, rfl, rfl⟩
  | some time =>
      exact ⟨rfl, rfl, rfl⟩

/-- What a `perform` that fails leaves behind. -/
theorem next_of_not_completes
    (incomplete : ¬ history.Returns perform) :
    (history.next perform).seen = history.seen ∧
      (history.next perform).state.evaluated =
        history.state.evaluated ++ (history.imports perform).map File.path ∧
      (history.next perform).state.last = history.state.last := by
  have swept :
      Swept perform.calls history.state.last perform.listing.visits none
        history.state.evaluated _ :=
    swept_loadFromDirectory perform.listing none history.state.evaluated
  obtain ⟨error, failed⟩ := swept.failed incomplete
  have logged := swept.evaluated
  unfold History.next State.perform History.imports
  dsimp only
  generalize
    (loadFromDirectory perform.calls history.state.last perform.listing none).outcome
      history.state.evaluated = result at failed logged ⊢
  obtain ⟨_, log⟩ := result
  dsimp only at failed logged
  subst failed logged
  exact ⟨rfl, rfl, rfl⟩

/-- What the stage remembers of files that are there. -/
structure Known (history : History Path Time) : Prop where
  evaluated : ∀ path ∈ history.state.evaluated, ∃ file ∈ history.files, file.path = path
  last :
    ∀ time, history.state.last = some time →
      ∃ file ∈ history.files, file.time = time ∧ file.path ∈ history.state.evaluated
  seen : ∀ path ∈ history.seen, ∃ file ∈ history.files, file.path = path

omit [LinearOrder Time] in
theorem known_initial : Known (History.initial : History Path Time) where
  evaluated := fun _ member => by cases member
  last := fun _ isSome => by cases isSome
  seen := fun _ member => by cases member

/-- It is still there after a `perform`. -/
theorem Known.next
    (known : Known history)
    (grows : Grows history.files perform.listing.files) :
    Known (history.next perform) := by
  have keeps :
      ∀ {path}, (∃ file ∈ history.files, file.path = path) →
        ∃ file ∈ (history.next perform).files, file.path = path := by
    rintro path ⟨file, member, isPath⟩
    exact ⟨file, grows.kept file member, isPath⟩
  have arrived :
      ∀ path ∈
          (history.imports perform).map File.path,
        ∃ file ∈ (history.next perform).files, file.path = path := by
    intro path member
    obtain ⟨file, isReached, isPath⟩ := List.mem_map.mp member
    exact ⟨file, mem_files_of_reached isReached, isPath⟩
  have still :
      ∀ time, history.state.last = some time →
        ∃ file ∈ (history.next perform).files,
          file.time = time ∧
            file.path ∈
              history.state.evaluated ++
                (history.imports perform).map File.path := by
    intro time isLast
    obtain ⟨file, member, isTime, isEvaluated⟩ := known.last time isLast
    exact ⟨file, grows.kept file member, isTime, List.mem_append_left _ isEvaluated⟩
  by_cases completes : history.Returns perform
  · obtain ⟨isSeen, isEvaluated, isLast⟩ := next_of_completes completes
    constructor
    · rw [isEvaluated]
      intro path member
      rcases List.mem_append.mp member with before | now
      · exact keeps (known.evaluated path before)
      · exact arrived path now
    · rw [isLast, isEvaluated]
      cases isNewest :
          newest none
            (history.imports perform) with
      | none =>
          exact still
      | some newestTime =>
          rintro time ⟨⟩
          obtain ⟨file, isReached, isTime⟩ := newest_eq_some isNewest
          exact ⟨file, mem_files_of_reached isReached, isTime,
            List.mem_append_right _ (List.mem_map_of_mem isReached)⟩
    · rw [isSeen]
      intro path member
      exact List.mem_map.mp member
  · obtain ⟨isSeen, isEvaluated, isLast⟩ := next_of_not_completes completes
    constructor
    · rw [isEvaluated]
      intro path member
      rcases List.mem_append.mp member with before | now
      · exact keeps (known.evaluated path before)
      · exact arrived path now
    · rw [isLast, isEvaluated]
      exact still
    · rw [isSeen]
      exact fun path member => keeps (known.seen path member)

omit [LinearOrder Time] in
theorem Known.last_eq_none
    (known : Known history)
    (nothing : history.state.evaluated = []) :
    history.state.last = none := by
  cases isLast : history.state.last with
  | none =>
      rfl
  | some time =>
      obtain ⟨_, _, _, isEvaluated⟩ := known.last time isLast
      rw [nothing] at isEvaluated
      cases isEvaluated

/-- After something was evaluated, a `perform` that returns evaluates it again. -/
theorem Known.evaluated_again
    (known : Known history)
    (grows : Grows history.files perform.listing.files)
    (returns : history.Returns perform)
    (something : history.state.evaluated ≠ []) :
    ∃ file ∈ history.imports perform, file.path ∈ history.state.evaluated := by
  cases isLast : history.state.last with
  | none =>
      obtain ⟨path, isEvaluated⟩ := List.exists_mem_of_ne_nil _ something
      obtain ⟨file, isFile, rfl⟩ := known.evaluated path isEvaluated
      refine ⟨file, (mem_reached_of_completes returns).mpr ⟨grows.kept file isFile, ?_⟩,
        isEvaluated⟩
      rw [isLast]
      exact not_false
  | some time =>
      obtain ⟨file, isFile, isTime, isEvaluated⟩ := known.last time isLast
      refine ⟨file, (mem_reached_of_completes returns).mpr ⟨grows.kept file isFile, ?_⟩,
        isEvaluated⟩
      rw [isLast, isTime]
      exact lt_irrefl time

variable [DecidableEq Path]

/-- A `perform` keeps the files imported once exactly if it is single. -/
theorem importedOnce_next_iff
    (known : Known history)
    (once : ImportedOnce history)
    (grows : Grows history.files perform.listing.files) :
    ImportedOnce (history.next perform) ↔ Single history perform := by
  unfold ImportedOnce Single
  by_cases returns : history.Returns perform
  · obtain ⟨isSeen, isEvaluated, _⟩ := next_of_completes returns
    rw [isSeen, isEvaluated]
    constructor
    · intro onceNext
      refine ⟨fun _ => ?_, fun fails => absurd returns fails⟩
      by_contra something
      obtain ⟨file, isImported, before⟩ := known.evaluated_again grows returns something
      have counted :=
        onceNext file.path (List.mem_map_of_mem (mem_files_of_reached isImported))
      have earlier := List.count_pos_iff.mpr before
      have now :=
        List.count_pos_iff.mpr
          (List.mem_map_of_mem (f := File.path) isImported)
      rw [List.count_append] at counted
      omega
    · intro single path isPath
      have nothing := single.1 returns
      have isNone := known.last_eq_none nothing
      have allFiles : history.imports perform = perform.listing.files := by
        unfold History.Returns at returns
        unfold History.imports
        rw [isNone] at returns ⊢
        exact reached_none returns
      rw [nothing, List.nil_append, allFiles]
      exact List.count_eq_one_of_mem grows.distinct isPath
  · obtain ⟨isSeen, isEvaluated, _⟩ := next_of_not_completes returns
    rw [isSeen, isEvaluated]
    constructor
    · intro onceNext
      refine ⟨fun completes => absurd completes returns, fun _ file isImported seen => ?_⟩
      have counted := onceNext file.path seen
      have before := once file.path seen
      have now :=
        List.count_pos_iff.mpr
          (List.mem_map_of_mem (f := File.path) isImported)
      rw [List.count_append] at counted
      omega
    · intro single path seen
      have fresh : path ∉ (history.imports perform).map File.path := by
        intro member
        obtain ⟨file, isImported, rfl⟩ := List.mem_map.mp member
        exact single.2 returns file isImported seen
      rw [List.count_append, List.count_eq_zero_of_not_mem fresh]
      exact once path seen

end

/-- What is known, and each file imported once. -/
structure Settled [DecidableEq Path] (history : History Path Time) : Prop where
  known : Known history
  once : ImportedOnce history

/--
All along a run each file was evaluated once that was there when a `perform` returned, if
and only if none returns after a file was evaluated, and none that fails comes to a file
again that was there when another one returned.
-/
theorem always_importedOnce_iff
    [DecidableEq Path]
    (performs : List (Perform Path Time Input)) :
    Run.Always (Step Path Time Input) ImportedOnce .initial performs ↔
      Run.Everywhere (Step Path Time Input) Single .initial performs := by
  have started : Settled (History.initial : History Path Time) :=
    ⟨known_initial, fun _ member => by cases member⟩
  refine Run.always_iff_everywhere_of_invariant
    (fun {history} (settled : Settled history) => settled.once) ?_ ?_ started performs
  · rintro history perform _ settled single ⟨grows, rfl⟩
    exact ⟨settled.known.next grows,
      (importedOnce_next_iff settled.known settled.once grows).mpr single⟩
  · rintro history perform _ settled ⟨grows, rfl⟩ onceNext
    exact (importedOnce_next_iff settled.known settled.once grows).mp onceNext

/-- Files that came after a `perform` returned are not older than what it remembers. -/
structure Ready (history : History Path Time) : Prop where
  known : Known history
  imported : ∀ path ∈ history.seen, path ∈ history.state.evaluated
  newer :
    ∀ file ∈ history.files, file.path ∉ history.seen →
      ∀ time, history.state.last = some time → time ≤ file.time

theorem Ready.next
    {history : History Path Time}
    {perform : Perform Path Time Input}
    (ready : Ready history)
    (grows : Grows history.files perform.listing.files) :
    Ready (history.next perform) := by
  have newer :
      ∀ file ∈ perform.listing.files, file.path ∉ history.seen →
        ∀ time, history.state.last = some time → time ≤ file.time := by
    intro file isFile unseen time isLast
    by_cases before : file ∈ history.files
    · exact ready.newer file before unseen time isLast
    · obtain ⟨other, isOther, rfl, _⟩ := ready.known.last time isLast
      exact grows.later file isFile before other isOther
  by_cases returns : history.Returns perform
  · obtain ⟨isSeen, isEvaluated, _⟩ := next_of_completes returns
    refine ⟨ready.known.next grows, ?_, ?_⟩
    · rw [isSeen, isEvaluated]
      intro path member
      obtain ⟨file, isFile, rfl⟩ := List.mem_map.mp member
      by_cases isOlder : IsOlder history.state.last file.time
      · refine List.mem_append_left _ (ready.imported file.path ?_)
        by_contra unseen
        cases isLast : history.state.last with
        | none =>
            rw [isLast] at isOlder
            exact isOlder
        | some time =>
            rw [isLast] at isOlder
            exact (newer file isFile unseen time isLast).not_gt isOlder
      · exact List.mem_append_right _
          (List.mem_map_of_mem ((mem_reached_of_completes returns).mpr ⟨isFile, isOlder⟩))
    · rw [isSeen]
      exact fun file isFile unseen => absurd (List.mem_map_of_mem isFile) unseen
  · obtain ⟨isSeen, isEvaluated, isLast⟩ := next_of_not_completes returns
    refine ⟨ready.known.next grows, ?_, ?_⟩
    · rw [isSeen, isEvaluated]
      exact fun path seen => List.mem_append_left _ (ready.imported path seen)
    · rw [isSeen, isLast]
      exact newer

/-- A directory with one file, that can be loaded and evaluated. -/
def oneFile : Perform Unit Nat Unit where
  calls := ⟨some, fun _ _ => true⟩
  listing := .file () 1 (some 5) .done

/-- A file that the stage has just imported is imported again. -/
theorem imported_twice :
    ¬ Run.Always (Step Unit Nat Unit) ImportedOnce .initial [oneFile, oneFile] := by
  intro always
  have grows : Grows ([] : List (File Unit Nat)) oneFile.listing.files :=
    ⟨by decide, fun _ member => (by cases member), fun _ _ _ _ member => (by cases member)⟩
  have stays : Grows oneFile.listing.files oneFile.listing.files :=
    ⟨by decide, fun _ member => member, fun _ member other => absurd member other⟩
  have run :
      Run (Step Unit Nat Unit) .initial [oneFile, oneFile]
        ((History.initial.next oneFile).next oneFile) :=
    .cons ⟨grows, rfl⟩ (.cons ⟨stays, rfl⟩ (.nil _))
  have once := always _ _ List.prefix_rfl run () (by decide)
  exact absurd once (by decide)

end MeFuzz.SyncFromDisk
