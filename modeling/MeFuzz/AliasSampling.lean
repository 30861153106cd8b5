import Mathlib.Algebra.BigOperators.Group.List.Basic
import Mathlib.Algebra.Order.BigOperators.Group.List
import Mathlib.Tactic.Linarith
import MeFuzz.WeightedScheduler

namespace MeFuzz.Scheduler.AliasSampling

open Corpus (CorpusId InMemoryCorpus)

/-!
# Sampling from exact alias tables

The tables of the weighted scheduler are made here over any kind of numbers.  Binary
floating point gives the tables of the scheduler.  With rational weights each entry is
drawn with its part of the sum of the weights: a pair of the queues hands on just what
the small entry lacks, and what is left over at the end has the probability one.
-/

section

variable {Number : Type}

/-- `alias_table` and `alias_probability`. -/
structure AliasTables (Number : Type) where
  aliasTable : CorpusId → Option CorpusId
  aliasProbability : CorpusId → Option Number

/-- Tables without entries. -/
def AliasTables.empty : AliasTables Number :=
  ⟨fun _ => none, fun _ => none⟩

/-- An entry with its own probability and an alias for the rest. -/
def AliasTables.withAlias
    (tables : AliasTables Number)
    (a : CorpusId)
    (probability : Number)
    (g : CorpusId) : AliasTables Number where
  aliasTable := Function.update tables.aliasTable a (some g)
  aliasProbability :=
    Function.update tables.aliasProbability a (some probability)

variable [Add Number] [Sub Number] [Mul Number] [Div Number]
variable [LT Number] [DecidableLT Number] [OfScientific Number]

/-- An entry that is left over. -/
def AliasTables.withoutAlias
    (tables : AliasTables Number)
    (id : CorpusId) : AliasTables Number :=
  { tables with
    aliasProbability := Function.update tables.aliasProbability id (some 1.0) }

/--
The loop that pairs the queues `s_arr` and `l_arr`, whose tops are the heads here.  It
goes on while neither is empty; no fuel, no result.
-/
def pairQueues :
    Nat → (CorpusId → Number) → List CorpusId → List CorpusId → AliasTables Number →
      Option (List CorpusId × List CorpusId × AliasTables Number)
  | _, _, [], l, tables => some ([], l, tables)
  | _, _, s, [], tables => some (s, [], tables)
  | 0, _, _ :: _, _ :: _, _ => none
  | fuel + 1, p, a :: s, g :: l, tables =>
      let tables := tables.withAlias a (p a) g
      let p := Function.update p g (p g + (p a - 1.0))
      if p g < 1.0 then pairQueues fuel p (g :: s) l tables
      else pairQueues fuel p s (g :: l) tables

/-- `p_arr`: the weights, scaled to one on average. -/
def scaled
    (ofNat : Nat → Number)
    (ids : List CorpusId)
    (weights : CorpusId → Number)
    (sum : Number)
    (id : CorpusId) : Number :=
  weights id * ofNat ids.length / sum

/-- The sum of the weights, in the order of the entries. -/
def total (ids : List CorpusId) (weights : CorpusId → Number) : Number :=
  ids.foldl (fun sum id => sum + weights id) 0.0

/-- `WeightedScheduler::create_alias_table`, given the weights of the entries. -/
def createAliasTable
    (ofNat : Nat → Number)
    (fuel : Nat)
    (ids : List CorpusId)
    (weights : CorpusId → Number) : Option (AliasTables Number) := do
  let p := scaled ofNat ids weights (total ids weights)
  let (s, l, tables) ←
    pairQueues fuel p (ids.filter fun id => p id < 1.0)
      (ids.filter fun id => ¬p id < 1.0) .empty
  pure ((l ++ s).foldl AliasTables.withoutAlias tables)

end

/-- The same tables. -/
def AliasTables.ofFloat (tables : WeightedScheduler.AliasTables) : AliasTables Float :=
  ⟨tables.aliasTable, tables.aliasProbability⟩

theorem pairQueues_float
    (fuel : Nat)
    (p : CorpusId → Float)
    (s l : List CorpusId)
    (tables : WeightedScheduler.AliasTables)
    (enough : s.length + l.length ≤ fuel) :
    pairQueues fuel p s l (.ofFloat tables) =
      some
        (let paired := WeightedScheduler.pairQueues fuel p s l tables
        (paired.1, paired.2.1, .ofFloat paired.2.2)) := by
  induction fuel generalizing p s l tables with
  | zero =>
      cases s with
      | nil =>
          rw [pairQueues]
          rfl
      | cons a s =>
          simp at enough
  | succ fuel ih =>
      cases s with
      | nil =>
          rw [pairQueues]
          rfl
      | cons a s =>
          cases l with
          | nil =>
              rw [pairQueues]
              · rfl
              · exact nofun
          | cons g l =>
              rw [List.length_cons, List.length_cons] at enough
              rw [pairQueues, WeightedScheduler.pairQueues]
              dsimp only
              split
              · refine ih _ (g :: s) l (tables.withAlias a (p a) g) ?_
                rw [List.length_cons]
                omega
              · refine ih _ s (g :: l) (tables.withAlias a (p a) g) ?_
                rw [List.length_cons]
                omega

theorem foldl_withoutAlias_float
    (left : List CorpusId)
    (tables : WeightedScheduler.AliasTables) :
    left.foldl AliasTables.withoutAlias (.ofFloat tables) =
      .ofFloat (left.foldl WeightedScheduler.AliasTables.withoutAlias tables) := by
  induction left generalizing tables with
  | nil =>
      rfl
  | cons first left ih =>
      exact ih (tables.withoutAlias first)

/-- The scheduler makes these tables in floating point. -/
theorem createAliasTable_float
    (ids : List CorpusId)
    (weights : CorpusId → Float) :
    createAliasTable Float.ofNat ids.length ids weights =
      some
        (.ofFloat (WeightedScheduler.makeTables ids weights (total ids weights))) := by
  let p := scaled Float.ofNat ids weights (total ids weights)
  let s := ids.filter fun id => p id < 1.0
  let l := ids.filter fun id => ¬p id < 1.0
  have length : s.length + l.length = ids.length := by
    simp only [s, l, decide_not]
    exact (List.length_eq_length_filter_add _).symm
  have pairs :=
    pairQueues_float (s.length + l.length) p s l .empty (le_refl _)
  unfold createAliasTable WeightedScheduler.makeTables
  rw [← length]
  refine (congrArg (Option.bind · _) pairs).trans ?_
  exact congrArg some (foldl_withoutAlias_float _ _)

/--
The part of the draws of one entry that another one gets: the entry is kept with its
probability, and otherwise its alias is taken.
-/
def AliasTables.share (tables : AliasTables ℚ) (picked id : CorpusId) : ℚ :=
  match tables.aliasProbability picked with
  | none => 0
  | some probability =>
      (if picked = id then probability else 0) +
        if tables.aliasTable picked = some id then 1 - probability else 0

/-- How often an entry is selected, where one of the entries is drawn uniformly. -/
def AliasTables.selection
    (tables : AliasTables ℚ)
    (ids : List CorpusId)
    (id : CorpusId) : ℚ :=
  (ids.map fun picked => 1 / (ids.length : ℚ) * tables.share picked id).sum

/--
While the queues are paired, every entry still gets its whole weight: the shares of the
entries that are done, and what it has itself while it waits.
-/
structure Conserved
    (ids : List CorpusId)
    (goal : CorpusId → ℚ)
    (done rest : List CorpusId)
    (p : CorpusId → ℚ)
    (tables : AliasTables ℚ) : Prop where
  parts : (done ++ rest).Perm ids
  total : (rest.map p).sum = rest.length
  given :
    ∀ id,
      id ∈ ids →
      (done.map fun picked => tables.share picked id).sum +
          (if id ∈ rest then p id else 0) =
        goal id
  settled :
    ∀ id ∈ done,
      ∃ probability g,
        tables.aliasProbability id = some probability ∧
          0 ≤ probability ∧ probability ≤ 1 ∧
          tables.aliasTable id = some g ∧ g ∈ ids
  waiting : ∀ id ∈ rest, tables.aliasTable id = none

variable {ids done rest others : List CorpusId}
variable {goal p : CorpusId → ℚ}
variable {tables : AliasTables ℚ}
variable {a g : CorpusId}

theorem Conserved.perm
    (conserved : Conserved ids goal done rest p tables)
    (same : others.Perm rest) :
    Conserved ids goal done others p tables where
  parts := (same.append_left done).trans conserved.parts
  total := by
    rw [(same.map p).sum_eq, same.length_eq]
    exact conserved.total
  given := fun id isId => by
    simp only [same.mem_iff]
    exact conserved.given id isId
  settled := conserved.settled
  waiting := fun id waits => conserved.waiting id (same.mem_iff.mp waits)

theorem share_withAlias_of_ne
    {picked : CorpusId}
    (different : picked ≠ a)
    (probability : ℚ)
    (id : CorpusId) :
    (tables.withAlias a probability g).share picked id = tables.share picked id := by
  unfold AliasTables.share AliasTables.withAlias
  simp only [Function.update_of_ne different]

theorem share_withAlias_self (probability : ℚ) (id : CorpusId) :
    (tables.withAlias a probability g).share a id =
      (if id = a then probability else 0) + if id = g then 1 - probability else 0 := by
  unfold AliasTables.share AliasTables.withAlias
  simp only [Function.update_self, Option.some.injEq, eq_comm]

theorem Conserved.nodup
    (conserved : Conserved ids goal done rest p tables)
    (distinct : ids.Nodup) :
    (done ++ rest).Nodup :=
  conserved.parts.nodup_iff.mpr distinct

theorem Conserved.pair
    (conserved : Conserved ids goal done (a :: g :: others) p tables)
    (distinct : ids.Nodup)
    (notNegative : 0 ≤ p a)
    (notAbove : p a ≤ 1) :
    Conserved ids goal (a :: done) (g :: others)
      (Function.update p g (p g + (p a - 1.0)))
      (tables.withAlias a (p a) g) := by
  have nodup := conserved.nodup distinct
  obtain ⟨-, nodupRest, apart⟩ := List.nodup_append.mp nodup
  obtain ⟨aWaitsOnce, nodupOthers⟩ := List.nodup_cons.mp nodupRest
  obtain ⟨gWaitsOnce, -⟩ := List.nodup_cons.mp nodupOthers
  have aNotDone : a ∉ done := fun isDone =>
    apart a isDone a List.mem_cons_self rfl
  have differ : a ≠ g := fun same => aWaitsOnce (same ▸ List.mem_cons_self)
  have isEntry : ∀ id ∈ a :: g :: others, id ∈ ids := fun id waits =>
    conserved.parts.mem_iff.mp (List.mem_append_right _ waits)
  have one : (1.0 : ℚ) = 1 := by norm_num
  refine ⟨?_, ?_, ?_, ?_, ?_⟩
  · exact List.perm_middle.symm.trans conserved.parts
  · have before := conserved.total
    have sameOthers :
        others.map (Function.update p g (p g + (p a - 1.0))) = others.map p := by
      refine List.map_congr_left fun id isOther => Function.update_of_ne ?_ _ _
      rintro rfl
      exact gWaitsOnce isOther
    rw [List.map_cons, List.sum_cons, sameOthers, Function.update_self, one]
    simp only [List.map_cons, List.sum_cons, List.length_cons, Nat.cast_add,
      Nat.cast_one] at before ⊢
    linarith
  · intro id isId
    have before := conserved.given id isId
    have sameDone :
        (done.map fun picked => (tables.withAlias a (p a) g).share picked id) =
          done.map fun picked => tables.share picked id := by
      refine List.map_congr_left fun picked isDone => share_withAlias_of_ne ?_ (p a) id
      rintro rfl
      exact aNotDone isDone
    rw [List.map_cons, List.sum_cons, sameDone, share_withAlias_self]
    by_cases isSmall : id = a
    · subst isSmall
      rw [if_pos rfl, if_neg differ, if_neg aWaitsOnce]
      rw [if_pos List.mem_cons_self] at before
      linarith
    · by_cases isLarge : id = g
      · subst isLarge
        rw [if_neg isSmall, if_pos rfl, if_pos List.mem_cons_self, Function.update_self,
          one]
        rw [if_pos (List.mem_cons_of_mem _ List.mem_cons_self)] at before
        linarith
      · rw [if_neg isSmall, if_neg isLarge, Function.update_of_ne isLarge]
        simp only [List.mem_cons, isSmall, false_or] at before ⊢
        linarith
  · intro id isDone
    unfold AliasTables.withAlias
    rcases List.mem_cons.mp isDone with rfl | before
    · refine
        ⟨p id, g, Function.update_self _ _ _, notNegative, notAbove,
          Function.update_self _ _ _, isEntry g ?_⟩
      exact List.mem_cons_of_mem _ List.mem_cons_self
    · have different : id ≠ a := fun same => aNotDone (same ▸ before)
      dsimp only
      rw [Function.update_of_ne different, Function.update_of_ne different]
      exact conserved.settled id before
  · intro id waits
    have different : id ≠ a := fun same => aWaitsOnce (same ▸ waits)
    exact
      (Function.update_of_ne different _ _).trans
        (conserved.waiting id (List.mem_cons_of_mem _ waits))

/-- The entries are in the queues that their probabilities ask for. -/
structure Queued (p : CorpusId → ℚ) (s l : List CorpusId) : Prop where
  small : ∀ id ∈ s, 0 ≤ p id ∧ p id < 1
  large : ∀ id ∈ l, 1 ≤ p id

variable {s l : List CorpusId}

theorem Queued.pair
    (queued : Queued p (a :: s) (g :: l))
    (gWaitsOnce : g ∉ s ++ l)
    (left : ℚ) :
    Queued (Function.update p g left) s l := by
  rw [List.mem_append, not_or] at gWaitsOnce
  constructor
  · intro id isSmall
    have different : id ≠ g := by
      rintro rfl
      exact gWaitsOnce.1 isSmall
    rw [Function.update_of_ne different]
    exact queued.small id (List.mem_cons_of_mem _ isSmall)
  · intro id isLarge
    have different : id ≠ g := by
      rintro rfl
      exact gWaitsOnce.2 isLarge
    rw [Function.update_of_ne different]
    exact queued.large id (List.mem_cons_of_mem _ isLarge)

theorem Queued.cons_small
    (queued : Queued p s l)
    (isSmall : 0 ≤ p g ∧ p g < 1) :
    Queued p (g :: s) l :=
  ⟨List.forall_mem_cons.mpr ⟨isSmall, queued.small⟩, queued.large⟩

theorem Queued.cons_large
    (queued : Queued p s l)
    (isLarge : 1 ≤ p g) :
    Queued p s (g :: l) :=
  ⟨queued.small, List.forall_mem_cons.mpr ⟨isLarge, queued.large⟩⟩

theorem pairQueues_conserves
    (distinct : ids.Nodup)
    (fuel : Nat)
    (conserved : Conserved ids goal done (s ++ l) p tables)
    (queued : Queued p s l)
    (enough : s.length + l.length ≤ fuel) :
    ∃ s' l' tables' done' p',
      pairQueues fuel p s l tables = some (s', l', tables') ∧
        Conserved ids goal done' (s' ++ l') p' tables' ∧
        Queued p' s' l' ∧ (s' = [] ∨ l' = []) := by
  induction fuel generalizing s l done p tables with
  | zero =>
      obtain ⟨isEmpty, -⟩ := Nat.add_eq_zero_iff.mp (Nat.le_zero.mp enough)
      obtain rfl := List.length_eq_zero_iff.mp isEmpty
      exact ⟨[], l, tables, done, p, by rw [pairQueues], conserved, queued, .inl rfl⟩
  | succ fuel ih =>
      cases s with
      | nil =>
          exact ⟨[], l, tables, done, p, by rw [pairQueues], conserved, queued, .inl rfl⟩
      | cons a s =>
          cases l with
          | nil =>
              refine ⟨a :: s, [], tables, done, p, ?_, conserved, queued, .inr rfl⟩
              rw [pairQueues]
              exact nofun
          | cons g l =>
              rw [List.length_cons, List.length_cons] at enough
              obtain ⟨notNegative, isBelow⟩ := queued.small a List.mem_cons_self
              have notBelow := queued.large g List.mem_cons_self
              have paired :=
                (conserved.perm (List.perm_middle.symm.cons a)).pair distinct
                  notNegative isBelow.le
              have gWaitsOnce : g ∉ s ++ l :=
                (List.nodup_cons.mp
                  (List.nodup_append.mp (paired.nodup distinct)).2.1).1
              have later := queued.pair gWaitsOnce (p g + (p a - 1.0))
              have isLeft :
                  Function.update p g (p g + (p a - 1.0)) g = p g + (p a - 1.0) :=
                Function.update_self _ _ _
              have one : (1.0 : ℚ) = 1 := by norm_num
              rw [pairQueues]
              split
              · rename_i isSmall
                refine ih paired (later.cons_small ⟨?_, ?_⟩) ?_
                · rw [isLeft, one]
                  linarith
                · exact one ▸ isSmall
                · rw [List.length_cons]
                  omega
              · rename_i isLarge
                refine
                  ih (paired.perm List.perm_middle)
                    (later.cons_large ?_) ?_
                · exact not_lt.mp (one ▸ isLarge)
                · rw [List.length_cons]
                  omega

theorem left_over_one
    (total : ((s ++ l).map p).sum = (s ++ l).length)
    (queued : Queued p s l)
    (isDone : s = [] ∨ l = []) :
    ∀ id ∈ s ++ l, p id = 1 := by
  have ones : ∀ left : List CorpusId, (left.map fun _ => (1 : ℚ)).sum = left.length := by
    intro left
    simp
  rcases isDone with rfl | rfl
  · rw [List.nil_append] at total ⊢
    by_contra someOther
    push Not at someOther
    obtain ⟨id, isLeft, notOne⟩ := someOther
    have more :=
      List.sum_lt_sum (fun _ => (1 : ℚ)) p queued.large
        ⟨id, isLeft, lt_of_le_of_ne (queued.large id isLeft) (Ne.symm notOne)⟩
    rw [ones, total] at more
    exact absurd more (lt_irrefl _)
  · rw [List.append_nil] at total ⊢
    have isEmpty : s = [] := by
      by_contra notEmpty
      have less :=
        List.sum_lt_sum_of_ne_nil notEmpty p (fun _ => (1 : ℚ)) fun id isSmall =>
          (queued.small id isSmall).2
      rw [ones, total] at less
      exact absurd less (lt_irrefl _)
    rw [isEmpty]
    exact nofun

theorem foldl_withoutAlias
    (left : List CorpusId)
    (tables : AliasTables ℚ) :
    (left.foldl AliasTables.withoutAlias tables).aliasTable = tables.aliasTable ∧
      ∀ id,
        (left.foldl AliasTables.withoutAlias tables).aliasProbability id =
          if id ∈ left then some 1 else tables.aliasProbability id := by
  have one : (1.0 : ℚ) = 1 := by norm_num
  induction left generalizing tables with
  | nil =>
      exact ⟨rfl, fun _ => rfl⟩
  | cons first left ih =>
      obtain ⟨sameAlias, probabilities⟩ := ih (tables.withoutAlias first)
      refine ⟨sameAlias, fun id => ?_⟩
      rw [List.foldl_cons, probabilities]
      by_cases isLater : id ∈ left
      · simp [isLater]
      · by_cases same : id = first
        · simp [same, AliasTables.withoutAlias, one]
        · simp [isLater, same, AliasTables.withoutAlias]

theorem sum_left_over
    {left : List CorpusId}
    (distinct : left.Nodup)
    (id : CorpusId) :
    (left.map fun picked => if picked = id then (1 : ℚ) else 0).sum =
      if id ∈ left then 1 else 0 := by
  induction left with
  | nil =>
      rfl
  | cons first left ih =>
      obtain ⟨apart, distinctLeft⟩ := List.nodup_cons.mp distinct
      rw [List.map_cons, List.sum_cons, ih distinctLeft]
      by_cases same : first = id
      · subst same
        simp [apart]
      · simp [same, Ne.symm same]

/-- Every entry has its probability, and an alias where that is below one. -/
def Complete (ids : List CorpusId) (tables : AliasTables ℚ) : Prop :=
  ∀ id ∈ ids,
    ∃ probability,
      tables.aliasProbability id = some probability ∧
        0 ≤ probability ∧ probability ≤ 1 ∧
        (probability < 1 → ∃ g ∈ ids, tables.aliasTable id = some g)

/-- Every entry gets what it is meant to get. -/
def Distributes
    (ids : List CorpusId)
    (goal : CorpusId → ℚ)
    (tables : AliasTables ℚ) : Prop :=
  ∀ id ∈ ids, (ids.map fun picked => tables.share picked id).sum = goal id

variable {left : List CorpusId}

theorem Conserved.complete
    (conserved : Conserved ids goal done rest p tables)
    (distinct : ids.Nodup)
    (isLeft : left.Perm rest) :
    Complete ids (left.foldl AliasTables.withoutAlias tables) := by
  obtain ⟨-, -, apart⟩ := List.nodup_append.mp (conserved.nodup distinct)
  obtain ⟨sameAlias, probabilities⟩ := foldl_withoutAlias left tables
  intro id isId
  rw [sameAlias, probabilities]
  rcases List.mem_append.mp (conserved.parts.mem_iff.mpr isId) with isDone | waits
  · obtain ⟨probability, g, isProbability, notNegative, notAbove, isAlias, isEntry⟩ :=
      conserved.settled id isDone
    have notLeft : id ∉ left := fun waits =>
      apart id isDone id (isLeft.mem_iff.mp waits) rfl
    rw [if_neg notLeft]
    exact ⟨probability, isProbability, notNegative, notAbove, fun _ => ⟨g, isEntry, isAlias⟩⟩
  · rw [if_pos (isLeft.mem_iff.mpr waits)]
    exact ⟨1, rfl, zero_le_one, le_refl 1, fun below => absurd below (lt_irrefl 1)⟩

theorem Conserved.distributes
    (conserved : Conserved ids goal done rest p tables)
    (distinct : ids.Nodup)
    (isLeft : left.Perm rest)
    (ones : ∀ id ∈ rest, p id = 1) :
    Distributes ids goal (left.foldl AliasTables.withoutAlias tables) := by
  obtain ⟨-, distinctRest, apart⟩ := List.nodup_append.mp (conserved.nodup distinct)
  obtain ⟨sameAlias, probabilities⟩ := foldl_withoutAlias left tables
  intro id isId
  have ofDone :
      (done.map fun picked =>
          (left.foldl AliasTables.withoutAlias tables).share picked id) =
        done.map fun picked => tables.share picked id := by
    refine List.map_congr_left fun picked isDone => ?_
    have notLeft : picked ∉ left := fun waits =>
      apart picked isDone picked (isLeft.mem_iff.mp waits) rfl
    unfold AliasTables.share
    rw [sameAlias, probabilities, if_neg notLeft]
  have ofRest :
      (rest.map fun picked =>
          (left.foldl AliasTables.withoutAlias tables).share picked id) =
        rest.map fun picked => if picked = id then (1 : ℚ) else 0 := by
    refine List.map_congr_left fun picked waits => ?_
    unfold AliasTables.share
    rw [sameAlias, probabilities, if_pos (isLeft.mem_iff.mpr waits),
      conserved.waiting picked waits]
    simp
  rw [← (conserved.parts.map _).sum_eq, List.map_append, List.sum_append, ofDone, ofRest,
    sum_left_over distinctRest, ← conserved.given id isId]
  congr 1
  split
  · rename_i waits
    exact (ones id waits).symm
  · rfl

theorem total_eq (ids : List CorpusId) (weights : CorpusId → ℚ) :
    total ids weights = (ids.map weights).sum := by
  have start : (0.0 : ℚ) = 0 := by norm_num
  rw [total, List.sum_eq_foldl, List.foldl_map, start]

variable {weights : CorpusId → ℚ}

theorem total_pos
    (positive : ∀ id ∈ ids, 0 < weights id)
    (notEmpty : ids ≠ []) :
    0 < total ids weights := by
  rw [total_eq]
  refine List.sum_pos _ ?_ ?_
  · intro weight isWeight
    obtain ⟨id, isId, rfl⟩ := List.mem_map.mp isWeight
    exact positive id isId
  · exact mt List.map_eq_nil_iff.mp notEmpty

theorem sum_scaled (positive : ∀ id ∈ ids, 0 < weights id) :
    (ids.map (scaled Nat.cast ids weights (total ids weights))).sum = ids.length := by
  by_cases isEmpty : ids = []
  · rw [isEmpty]
    rfl
  have notZero := (total_pos positive isEmpty).ne'
  have factors :
      ids.map (scaled Nat.cast ids weights (total ids weights)) =
        ids.map fun id => weights id * (ids.length / total ids weights) :=
    List.map_congr_left fun id _ => mul_div_assoc _ _ _
  rw [factors, List.sum_map_mul_right, ← total_eq, mul_div_cancel₀ _ notZero]

theorem conserved_start
    (positive : ∀ id ∈ ids, 0 < weights id)
    (isRest : rest.Perm ids) :
    Conserved ids (scaled Nat.cast ids weights (total ids weights)) [] rest
      (scaled Nat.cast ids weights (total ids weights)) .empty := by
  refine ⟨isRest, ?_, ?_, nofun, fun _ _ => rfl⟩
  · rw [(isRest.map _).sum_eq, isRest.length_eq]
    exact sum_scaled positive
  · intro id isId
    rw [if_pos (isRest.mem_iff.mpr isId)]
    exact zero_add _

theorem Distributes.selection_eq
    (distributes :
      Distributes ids (scaled Nat.cast ids weights (total ids weights)) tables)
    {id : CorpusId}
    (isId : id ∈ ids) :
    tables.selection ids id = weights id / total ids weights := by
  have notZero : (ids.length : ℚ) ≠ 0 :=
    Nat.cast_ne_zero.mpr (List.length_pos_of_mem isId).ne'
  unfold AliasTables.selection
  rw [List.sum_map_mul_left, distributes id isId, scaled]
  field_simp

/--
The tables are made for any entries and positive weights.  Every entry has a probability
between zero and one, and an alias where that is below one, and it is selected with its
part of the sum of the weights.
-/
theorem alias_tables_sample_by_weight
    {Testcase : Type}
    (corpus : InMemoryCorpus Testcase)
    (weights : CorpusId → ℚ)
    (positive : ∀ id ∈ corpus.ids, 0 < weights id) :
    ∃ fuel tables,
      createAliasTable Nat.cast fuel corpus.ids weights = some tables ∧
        Complete corpus.ids tables ∧
        ∀ id ∈ corpus.ids,
          tables.selection corpus.ids id = weights id / total corpus.ids weights := by
  have distinct : corpus.ids.Nodup := (InMemoryCorpus.sorted_ids corpus).imp ne_of_lt
  let p := scaled Nat.cast corpus.ids weights (total corpus.ids weights)
  let s := corpus.ids.filter fun id => p id < 1.0
  let l := corpus.ids.filter fun id => ¬p id < 1.0
  have one : (1.0 : ℚ) = 1 := by norm_num
  have parts : (s ++ l).Perm corpus.ids := by
    simp only [s, l, decide_not]
    exact List.filter_append_perm _ _
  have queued : Queued p s l := by
    constructor
    · intro id isSmall
      obtain ⟨isId, isBelow⟩ := List.mem_filter.mp isSmall
      refine ⟨?_, one ▸ of_decide_eq_true isBelow⟩
      have notEmpty := List.ne_nil_of_mem isId
      have weight := positive id isId
      have sum := total_pos positive notEmpty
      exact div_nonneg (mul_nonneg weight.le (Nat.cast_nonneg _)) sum.le
    · intro id isLarge
      obtain ⟨-, notBelow⟩ := List.mem_filter.mp isLarge
      exact not_lt.mp (one ▸ of_decide_eq_true notBelow)
  obtain ⟨s', l', tables, done, p', pairs, conserved, queuedLeft, isDone⟩ :=
    pairQueues_conserves distinct (s.length + l.length) (conserved_start positive parts)
      queued (le_refl _)
  have isLeft : (l' ++ s').Perm (s' ++ l') := List.perm_append_comm
  have ones := left_over_one conserved.total queuedLeft isDone
  refine
    ⟨s.length + l.length, (l' ++ s').foldl AliasTables.withoutAlias tables, ?_,
      conserved.complete distinct isLeft, ?_⟩
  · exact congrArg (Option.bind · _) pairs
  · intro id isId
    exact (conserved.distributes distinct isLeft ones).selection_eq isId

/-- A corpus of two entries. -/
def twoEntries : InMemoryCorpus Unit :=
  ((InMemoryCorpus.new : InMemoryCorpus Unit).add ()).2.add () |>.2

/-- The first entry weighs one, the second three. -/
def oneAndThree (id : CorpusId) : ℚ :=
  if id = 0 then 1 else 3

theorem alias_tables_sample_by_weight_one_and_three :
    ∃ fuel tables,
      createAliasTable Nat.cast fuel twoEntries.ids oneAndThree = some tables ∧
        Complete twoEntries.ids tables ∧
        ∀ id ∈ twoEntries.ids,
          tables.selection twoEntries.ids id =
            oneAndThree id / total twoEntries.ids oneAndThree := by
  refine alias_tables_sample_by_weight twoEntries oneAndThree ?_
  intro id _
  unfold oneAndThree
  split
  · exact one_pos
  · exact three_pos

example :
    (createAliasTable Nat.cast 2 [0, 1] oneAndThree).map
        (fun tables => tables.selection [0, 1] 1) =
      some (3 / 4) := by
  decide +kernel

end MeFuzz.Scheduler.AliasSampling
