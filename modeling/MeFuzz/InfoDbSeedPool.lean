import Mathlib.Data.List.Sort
import Mathlib.Data.Prod.Lex
import MeFuzz.InfoDbState

namespace MeFuzz.InfoDb

/-!
# Reading seeds back

A seed is split between the tree, which orders it, and a file, which holds its
input.  Seeds are read back under the bare identifier, and the tree is read
from its end.
-/

/-- One call of `AddSeed`. -/
structure AddSeedCall where
  write : SeedWrite
  tc : Testcase
  evalData : EvaluatingData

/-- The entry that a call puts into the tree. -/
def AddSeedCall.entry (call : AddSeedCall) : Seed × Testcase :=
  ({ id := call.tc.id
     crash := call.evalData.hasCrash
     newCov := call.evalData.newCov
     createdAt := call.tc.createdAt
     fuzzerID := ⟨0, 0⟩ },
    { call.tc with inputData := [] })

/-- How interesting a seed is: crashes first, then new branches, then youth. -/
abbrev Rank := Bool ×ₗ Nat ×ₗ Int ×ₗ Nat

def rankOf (key : Seed) : Rank :=
  toLex (key.crash, toLex (key.newCov,
    toLex (key.createdAt.ext, key.createdAt.nsec)))

def AddSeedCall.rank (call : AddSeedCall) : Rank :=
  rankOf call.entry.1

/-- What a failed `GetByID` reports. -/
inductive GetError where
  | notFoundSeed (id : UInt64)
  | failedToGetInput (res : Testcase)
  deriving Repr, DecidableEq

namespace SeedPool

/-- `NewSeedPool` without initial seeds, on a disk that holds some files. -/
def newSeedPool
    (corpusDirName : String)
    (disk : List (List String × Bytes)) : SeedPool where
  seeds := []
  bloom := []
  corpusDir := corpusDirName
  files := disk

/-- The `os.ReadFile` of a seed. -/
def readFile (pool : SeedPool) (id : UInt64) : Option Bytes :=
  pool.files.lookup [pool.corpusDir, toString id]

/-- The loop of `GetByID`: the last testcase with this identifier. -/
def getByIDLoop
    (id : UInt64) :
    List (Seed × Testcase) → Option Testcase → Option Testcase
  | [], res => res
  | entry :: rest, res =>
      getByIDLoop id rest (if entry.2.id = id then some entry.2 else res)

/-- `GetByID`. -/
def getByID (pool : SeedPool) (id : UInt64) : Except GetError Testcase :=
  match getByIDLoop id pool.seeds none with
  | none => .error (.notFoundSeed id)
  | some res =>
      match pool.readFile res.id with
      | none => .error (.failedToGetInput res)
      | some input => .ok { res with inputData := input }

/--
The loop of `GetMostInterestingIDs`, with the entries that the iterator still
has before it, the closest one first.
-/
def mostInterestingLoop
    (pool : SeedPool) :
    Nat → List (Seed × Testcase) → List Testcase
  | 0, _ => []
  | count + 1, [] => mostInterestingLoop pool count []
  | count + 1, entry :: before =>
      match pool.readFile entry.2.id with
      | none => mostInterestingLoop pool count before
      | some input =>
          { entry.2 with inputData := input } ::
            mostInterestingLoop pool count before

/-- `GetMostInterestingIDs`. -/
def getMostInterestingIDs (pool : SeedPool) (count : Nat) : List Testcase :=
  mostInterestingLoop pool count pool.seeds.reverse

/-- A pool after some calls of `AddSeed`. -/
def addSeeds (pool : SeedPool) (calls : List AddSeedCall) : SeedPool :=
  calls.foldl
    (fun pool call => (pool.addSeed call.write call.tc call.evalData).1) pool

/-- The calls that returned no error. -/
def added (calls : List AddSeedCall) : List AddSeedCall :=
  calls.filter fun call => call.write.succeeds

/-- Every testcase that was added is got back as it was. -/
def RoundTrips (calls : List AddSeedCall) (pool : SeedPool) : Prop :=
  ∀ call ∈ added calls, pool.getByID call.tc.id = .ok call.tc

/-- Of two entries, the first is at least as interesting. -/
def Above (first second : Seed × Testcase) : Prop :=
  rankOf second.1 ≤ rankOf first.1

/-- Asked for some seeds, the pool gives the most interesting ones, in order. -/
def MostInterestingFirst
    (calls : List AddSeedCall)
    (pool : SeedPool) : Prop :=
  ∃ ranked : List (Seed × Testcase),
    ranked.Perm ((added calls).map AddSeedCall.entry) ∧
      ranked.Pairwise Above ∧
      ∀ count,
        (pool.getMostInterestingIDs count).map Testcase.id =
          (ranked.take count).map fun entry => entry.2.id

theorem seedCmp_neg_iff
    {a b : Seed}
    (different : a.id ≠ b.id)
    (aRange : a.newCov < 2 ^ 63)
    (bRange : b.newCov < 2 ^ 63) :
    seedCmp a b ≠ 0 ∧ (seedCmp a b < 0 ↔ rankOf b ≤ rankOf a) := by
  have noOverflow :
      ((b.newCov : Int) - (a.newCov : Int)).bmod (2 ^ 64) =
        (b.newCov : Int) - (a.newCov : Int) :=
    Int.bmod_eq_of_le (by omega) (by omega)
  unfold seedCmp
  rw [if_neg different, noOverflow]
  simp only [rankOf, Prod.Lex.toLex_le_toLex, Time.before]
  cases a.crash <;> cases b.crash <;> simp
  all_goals
    split
    · split <;> omega
    · omega

instance : DecidableRel Above :=
  fun _ _ => inferInstanceAs (Decidable (_ ≤ _))

instance : Std.Total Above where
  total _ _ := le_total _ _

instance : IsTrans (Seed × Testcase) Above where
  trans _ _ _ higher lower := le_trans lower higher

theorem put_eq_orderedInsert
    {key : Seed}
    {value : Testcase}
    {seeds : List (Seed × Testcase)}
    (fresh : ∀ entry ∈ seeds, key.id ≠ entry.1.id)
    (keyRange : key.newCov < 2 ^ 63)
    (seedsRange : ∀ entry ∈ seeds, entry.1.newCov < 2 ^ 63) :
    put key value seeds = seeds.orderedInsert Above (key, value) := by
  induction seeds with
  | nil =>
      rfl
  | cons entry rest ih =>
      obtain ⟨differ, above⟩ :=
        seedCmp_neg_iff (fresh entry List.mem_cons_self) keyRange
          (seedsRange entry List.mem_cons_self)
      have inserted :=
        ih
          (fun other inRest => fresh other (List.mem_cons_of_mem _ inRest))
          (fun other inRest =>
            seedsRange other (List.mem_cons_of_mem _ inRest))
      rw [put, if_neg differ, List.orderedInsert_cons, inserted]
      exact if_congr above rfl rfl

/-- The pool holds just what was added, in order, and the disk as it was. -/
structure Stores
    (start : SeedPool)
    (done : List AddSeedCall)
    (pool : SeedPool) : Prop where
  seeds : pool.seeds.Perm (done.map AddSeedCall.entry)
  ordered : pool.seeds.Pairwise Above
  corpusDir : pool.corpusDir = start.corpusDir
  readFile : ∀ id, pool.readFile id = start.readFile id

theorem addSeed_readFile
    (pool : SeedPool)
    (write : SeedWrite)
    (tc : Testcase)
    (evalData : EvaluatingData)
    (id : UInt64) :
    (pool.addSeed write tc evalData).1.readFile id = pool.readFile id := by
  unfold addSeed
  split
  · simp [readFile, List.lookup_cons]
  · rfl

theorem Stores.addSeed
    {start pool : SeedPool}
    {done : List AddSeedCall}
    {call : AddSeedCall}
    (stores : Stores start done pool)
    (fresh : call.tc.id ∉ done.map fun call => call.tc.id)
    (callRange : call.evalData.newCov < 2 ^ 63)
    (doneRange : ∀ call ∈ done, call.evalData.newCov < 2 ^ 63)
    (succeeds : call.write.succeeds = true) :
    Stores start (done ++ [call])
      (pool.addSeed call.write call.tc call.evalData).1 := by
  have seeds :
      (pool.addSeed call.write call.tc call.evalData).1.seeds =
        put call.entry.1 call.entry.2 pool.seeds := by
    rw [SeedPool.addSeed, if_pos succeeds]
    rfl
  have inserted :
      put call.entry.1 call.entry.2 pool.seeds =
        pool.seeds.orderedInsert Above call.entry := by
    apply put_eq_orderedInsert
    · intro entry inPool same
      obtain ⟨other, isDone, rfl⟩ :=
        List.mem_map.mp (stores.seeds.subset inPool)
      exact fresh (List.mem_map.mpr ⟨other, isDone, same.symm⟩)
    · exact callRange
    · intro entry inPool
      obtain ⟨other, isDone, rfl⟩ :=
        List.mem_map.mp (stores.seeds.subset inPool)
      exact doneRange other isDone
  constructor
  · rw [seeds, inserted, List.map_append]
    calc
      pool.seeds.orderedInsert Above call.entry
      _ |>.Perm (call.entry :: pool.seeds) :=
        List.perm_orderedInsert ..
      _ |>.Perm (call.entry :: done.map AddSeedCall.entry) :=
        stores.seeds.cons _
      _ |>.Perm (done.map AddSeedCall.entry ++ [call].map AddSeedCall.entry) :=
        (List.perm_append_singleton _ _).symm
  · rw [seeds, inserted]
    exact stores.ordered.orderedInsert _ _
  · rw [SeedPool.addSeed, if_pos succeeds]
    exact stores.corpusDir
  · intro id
    rw [addSeed_readFile, stores.readFile]

theorem addSeeds_append_singleton
    (pool : SeedPool)
    (earlier : List AddSeedCall)
    (call : AddSeedCall) :
    pool.addSeeds (earlier ++ [call]) =
      ((pool.addSeeds earlier).addSeed call.write call.tc
        call.evalData).1 := by
  simp [addSeeds]

theorem stores_addSeeds
    (corpusDirName : String)
    (disk : List (List String × Bytes))
    {calls : List AddSeedCall}
    (distinct : ((added calls).map fun call => call.tc.id).Nodup)
    (range : ∀ call ∈ added calls, call.evalData.newCov < 2 ^ 63) :
    Stores (newSeedPool corpusDirName disk) (added calls)
      (addSeeds (newSeedPool corpusDirName disk) calls) := by
  induction calls using List.reverseRecOn with
  | nil =>
      exact ⟨.nil, .nil, rfl, fun _ => rfl⟩
  | append_singleton earlier call ih =>
      rw [addSeeds_append_singleton]
      by_cases succeeds : call.write.succeeds = true
      · have addedOne : added (earlier ++ [call]) = added earlier ++ [call] := by
          simp [added, succeeds]
        rw [addedOne] at distinct range ⊢
        rw [List.map_append, List.nodup_append] at distinct
        have earlierRange :
            ∀ other ∈ added earlier, other.evalData.newCov < 2 ^ 63 :=
          fun other isAdded => range other (List.mem_append_left _ isAdded)
        have stores := ih distinct.1 earlierRange
        refine stores.addSeed ?_ ?_ earlierRange succeeds
        · intro isAdded
          exact distinct.2.2 _ isAdded _ (by simp) rfl
        · exact range call (by simp)
      · have addedNone : added (earlier ++ [call]) = added earlier := by
          simp [added, succeeds]
        rw [addedNone] at distinct range ⊢
        rw [addSeed, if_neg succeeds]
        exact ih distinct range

theorem getByIDLoop_eq
    {id : UInt64}
    {found : Testcase}
    {seeds : List (Seed × Testcase)}
    (only : ∀ entry ∈ seeds, entry.2.id = id → entry.2 = found)
    (res : Option Testcase)
    (present : res = some found ∨ ∃ entry ∈ seeds, entry.2.id = id) :
    getByIDLoop id seeds res = some found := by
  induction seeds generalizing res with
  | nil =>
      rcases present with found | ⟨entry, isIn, -⟩
      · exact found
      · cases isIn
  | cons entry rest ih =>
      rw [getByIDLoop]
      apply ih
      · intro other inRest
        exact only other (List.mem_cons_of_mem _ inRest)
      · by_cases same : entry.2.id = id
        · rw [if_pos same, only entry List.mem_cons_self same]
          exact .inl rfl
        · rw [if_neg same]
          rcases present with found | ⟨other, isIn, sameOther⟩
          · exact .inl found
          · rcases List.mem_cons.mp isIn with rfl | inRest
            · exact absurd sameOther same
            · exact .inr ⟨other, inRest, sameOther⟩

theorem Stores.getByID
    {start pool : SeedPool}
    {done : List AddSeedCall}
    {call : AddSeedCall}
    (stores : Stores start done pool)
    (distinct : (done.map fun call => call.tc.id).Nodup)
    (isDone : call ∈ done) :
    pool.getByID call.tc.id = .ok call.tc ↔
      start.readFile call.tc.id = some call.tc.inputData := by
  have found :
      getByIDLoop call.tc.id pool.seeds none = some call.entry.2 := by
    apply getByIDLoop_eq
    · intro entry inPool same
      obtain ⟨other, otherDone, rfl⟩ :=
        List.mem_map.mp (stores.seeds.subset inPool)
      rw [List.inj_on_of_nodup_map distinct otherDone isDone same]
    · refine .inr ⟨call.entry, ?_, rfl⟩
      exact stores.seeds.mem_iff.mpr (List.mem_map_of_mem isDone)
  have read :
      pool.readFile call.entry.2.id = start.readFile call.tc.id :=
    stores.readFile call.tc.id
  simp only [SeedPool.getByID, found, read]
  cases start.readFile call.tc.id with
  | none =>
      simp
  | some input =>
      constructor
      · intro got
        have same := congrArg Testcase.inputData (Except.ok.inj got)
        exact congrArg some same
      · intro same
        rw [Option.some.inj same]
        rfl

theorem mostInterestingLoop_eq
    {pool : SeedPool}
    {before : List (Seed × Testcase)}
    (readable :
      ∀ entry ∈ before, ∃ input, pool.readFile entry.2.id = some input)
    (count : Nat) :
    (mostInterestingLoop pool count before).map Testcase.id =
      (before.take count).map fun entry => entry.2.id := by
  induction count generalizing before with
  | zero =>
      rfl
  | succ count ih =>
      cases before with
      | nil =>
          rw [mostInterestingLoop, ih (by simp)]
          simp
      | cons entry before =>
          obtain ⟨input, read⟩ := readable entry List.mem_cons_self
          have rest :=
            @ih before fun other isBefore =>
              readable other (List.mem_cons_of_mem _ isBefore)
          simp only [mostInterestingLoop, read, List.map_cons,
            List.take_succ_cons, rest]

theorem eq_of_map_eq
    {α β : Type}
    {key : α → β}
    {first second : List α}
    (apart : ∀ a ∈ first, ∀ b ∈ second, key a = key b → a = b)
    (same : first.map key = second.map key) :
    first = second := by
  induction first generalizing second with
  | nil =>
      exact (List.map_eq_nil_iff.mp same.symm).symm
  | cons a first ih =>
      cases second with
      | nil =>
          simp at same
      | cons b second =>
          obtain ⟨head, tail⟩ := List.cons.inj same
          rw [apart a List.mem_cons_self b List.mem_cons_self head,
            ih _ tail]
          intro c inFirst d inSecond
          exact apart c (List.mem_cons_of_mem _ inFirst) d
            (List.mem_cons_of_mem _ inSecond)

theorem Stores.mostInterestingFirst
    {start pool : SeedPool}
    {calls : List AddSeedCall}
    (stores : Stores start (added calls) pool)
    (distinct : ((added calls).map fun call => call.tc.id).Nodup)
    (files :
      ∀ call ∈ added calls,
        start.readFile call.tc.id = some call.tc.inputData) :
    MostInterestingFirst calls pool ↔
      ∀ first ∈ added calls, ∀ second ∈ added calls,
        first.rank = second.rank := by
  have down :
      pool.seeds.reverse.Perm ((added calls).map AddSeedCall.entry) :=
    (List.reverse_perm _).trans stores.seeds
  have readable :
      ∀ entry ∈ pool.seeds.reverse,
        ∃ input, pool.readFile entry.2.id = some input := by
    intro entry inPool
    obtain ⟨call, isAdded, rfl⟩ := List.mem_map.mp (down.subset inPool)
    exact ⟨_, (stores.readFile _).trans (files call isAdded)⟩
  have answer := mostInterestingLoop_eq readable
  constructor
  · rintro ⟨ranked, isRanking, ordered, first⟩
    have sameIds :
        pool.seeds.reverse.map (fun entry => entry.2.id) =
          ranked.map fun entry => entry.2.id := by
      have all := (answer pool.seeds.length).symm.trans (first _)
      have length : ranked.length = pool.seeds.length :=
        (isRanking.trans stores.seeds.symm).length_eq
      rwa [← length, List.take_length, length, ← List.length_reverse,
        List.take_length] at all
    have same : pool.seeds.reverse = ranked := by
      refine eq_of_map_eq ?_ sameIds
      intro entry inPool other inRanking sameId
      obtain ⟨call, isAdded, rfl⟩ := List.mem_map.mp (down.subset inPool)
      obtain ⟨otherCall, otherAdded, rfl⟩ :=
        List.mem_map.mp (isRanking.subset inRanking)
      rw [List.inj_on_of_nodup_map distinct isAdded otherAdded sameId]
    subst same
    have upwards : pool.seeds.Pairwise (flip Above) :=
      List.pairwise_reverse.mp ordered
    have ties : ∀ entry ∈ pool.seeds, Above entry entry :=
      fun entry _ => le_refl (rankOf entry.1)
    have tied := stores.ordered.forall_of_forall_of_flip ties upwards
    intro first firstAdded second secondAdded
    have inPool :
        ∀ call ∈ added calls, call.entry ∈ pool.seeds := by
      intro call isAdded
      exact stores.seeds.mem_iff.mpr (List.mem_map_of_mem isAdded)
    exact le_antisymm
      (tied (inPool second secondAdded) (inPool first firstAdded))
      (tied (inPool first firstAdded) (inPool second secondAdded))
  · intro tied
    refine ⟨pool.seeds.reverse, down, ?_, answer⟩
    refine List.pairwise_of_forall_mem_list ?_
    intro first firstIn second secondIn
    obtain ⟨call, isAdded, rfl⟩ := List.mem_map.mp (down.subset firstIn)
    obtain ⟨other, otherAdded, rfl⟩ := List.mem_map.mp (down.subset secondIn)
    exact (tied other otherAdded call isAdded).le

/--
For every sequence of calls with distinct identifiers, the pool gives back what
was added, and in the right order, if and only if somebody else had put each
input on the disk under its bare identifier, and no two seeds differ in rank.
-/
theorem pool_answers_iff
    {corpusDirName : String}
    {disk : List (List String × Bytes)}
    {calls : List AddSeedCall}
    (distinct : ((added calls).map fun call => call.tc.id).Nodup)
    (range : ∀ call ∈ added calls, call.evalData.newCov < 2 ^ 63) :
    (RoundTrips calls (addSeeds (newSeedPool corpusDirName disk) calls) ∧
        MostInterestingFirst calls
          (addSeeds (newSeedPool corpusDirName disk) calls)) ↔
      (∀ call ∈ added calls,
          disk.lookup [corpusDirName, toString call.tc.id] =
            some call.tc.inputData) ∧
        ∀ first ∈ added calls, ∀ second ∈ added calls,
          first.rank = second.rank := by
  have stores := stores_addSeeds corpusDirName disk distinct range
  have roundTrips :
      RoundTrips calls (addSeeds (newSeedPool corpusDirName disk) calls) ↔
        ∀ call ∈ added calls,
          disk.lookup [corpusDirName, toString call.tc.id] =
            some call.tc.inputData :=
    forall₂_congr fun call isAdded => stores.getByID distinct isAdded
  rw [roundTrips]
  exact and_congr_right fun files =>
    stores.mostInterestingFirst distinct files

/-- A crash found by the first fuzzer of node 1. -/
def crashCall : AddSeedCall where
  write := ⟨1700000000, true⟩
  tc := ⟨5, ⟨1, 1⟩, [7], 1, 1, ⟨1700000000, 0⟩⟩
  evalData := ⟨fun _ => 0, true, 0⟩

theorem pool_answers_iff_crash :
    (RoundTrips [crashCall] (addSeeds (newSeedPool "corpus" []) [crashCall]) ∧
        MostInterestingFirst [crashCall]
          (addSeeds (newSeedPool "corpus" []) [crashCall])) ↔
      (∀ call ∈ added [crashCall],
          ([] : List (List String × Bytes)).lookup
              ["corpus", toString call.tc.id] =
            some call.tc.inputData) ∧
        ∀ first ∈ added [crashCall], ∀ second ∈ added [crashCall],
          first.rank = second.rank :=
  pool_answers_iff (by decide) (by decide)

/-- A later testcase of the same fuzzer, which only opens three branches. -/
def coverageCall : AddSeedCall where
  write := ⟨1700000001, true⟩
  tc := ⟨9, ⟨1, 1⟩, [8], 2, 2, ⟨1700000001, 0⟩⟩
  evalData := ⟨fun _ => 0, false, 3⟩

/--
An added crash cannot be got back, as its input is looked for in the wrong
place; and with the inputs there, the least interesting seed comes first.
-/
theorem added_crash_is_lost :
    (addSeeds (newSeedPool "corpus" []) [crashCall]).getByID 5 =
        .error (.failedToGetInput crashCall.entry.2) ∧
      (addSeeds (newSeedPool "corpus" []) [crashCall]).getMostInterestingIDs
          1 = [] ∧
      ¬(RoundTrips [crashCall]
            (addSeeds (newSeedPool "corpus" []) [crashCall]) ∧
          MostInterestingFirst [crashCall]
            (addSeeds (newSeedPool "corpus" []) [crashCall])) ∧
      (addSeeds
            (newSeedPool "corpus"
              [(["corpus", "5"], [7]), (["corpus", "9"], [8])])
            [crashCall, coverageCall]).getMostInterestingIDs 1 =
        [coverageCall.tc] := by
  have lost :
      (addSeeds (newSeedPool "corpus" []) [crashCall]).getByID 5 =
        .error (.failedToGetInput crashCall.entry.2) := by
    decide +kernel
  refine ⟨lost, by decide +kernel, ?_, by decide +kernel⟩
  rintro ⟨roundTrips, -⟩
  have got := roundTrips crashCall List.mem_cons_self
  rw [show crashCall.tc.id = 5 from rfl, lost] at got
  cases got

end SeedPool

end MeFuzz.InfoDb
