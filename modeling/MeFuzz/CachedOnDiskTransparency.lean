import MeFuzz.CachedOnDiskCorpus

namespace MeFuzz.Corpus.OnDisk

/-!
# The cache in front of the disk is not seen

Three things know the input of a testcase: its file, the testcase while it is
loaded, and the list of cached ids.  Every testcase keeps a file of its own
that holds what was stored last, and exactly the cached testcases are loaded.
-/

variable {Input : Type}
variable {codec : Codec Input}

/-- A testcase has a file with the input, and the input itself if it is loaded. -/
structure BackedBy
    (codec : Codec Input)
    (files : String → Option Bytes)
    (testcase : Testcase Input)
    (name : String)
    (input : Input) : Prop where
  filename : testcase.filename = some name
  file : files name = some (codec.toFile input)
  loaded : ∀ other, testcase.input = some other → other = input

/-- Every testcase has a file of its own with what was stored last. -/
structure Backed
    (codec : Codec Input)
    (corpus : InMemoryOnDiskCorpus Input)
    (stored : CorpusId → Option Input) : Prop where
  entry :
    ∀ idx testcase, corpus.inner.find idx = some testcase →
      ∃ name input,
        stored idx = some input ∧
          BackedBy codec corpus.disk.files testcase name input
  missing : ∀ idx, corpus.inner.find idx = none → stored idx = none
  apart :
    ∀ idx other testcase otherTestcase name,
      corpus.inner.find idx = some testcase →
      corpus.inner.find other = some otherTestcase →
      testcase.filename = some name →
      otherTestcase.filename = some name →
      idx = other

/-- No other testcase has a file of this name. -/
def NameFree
    (corpus : InMemoryOnDiskCorpus Input)
    (idx : CorpusId)
    (name : String) : Prop :=
  ∀ other testcase, other ≠ idx → corpus.inner.find other = some testcase →
    testcase.filename ≠ some name

theorem find_written
    {corpus : InMemoryOnDiskCorpus Input}
    {idx : CorpusId}
    {input : Input}
    {name : String}
    {locks : List String}
    (other : CorpusId) :
    (corpus.written codec idx input name locks).inner.find other =
      if other = idx then
        (corpus.inner.find other).map fun _ => ⟨none, some name⟩
      else corpus.inner.find other :=
  InMemoryCorpus.find_modify

namespace Backed

variable {corpus : InMemoryOnDiskCorpus Input}
variable {stored : CorpusId → Option Input}

/-- The other testcases stay backed when one is written or taken out. -/
theorem of_others
    (backed : Backed codec corpus stored)
    {idx : CorpusId}
    {after : InMemoryOnDiskCorpus Input}
    {storedAfter : CorpusId → Option Input}
    {name : String}
    (sameFind :
      ∀ other, other ≠ idx →
        after.inner.find other = corpus.inner.find other)
    (sameStored : ∀ other, other ≠ idx → storedAfter other = stored other)
    (sameFiles :
      ∀ other testcase file, other ≠ idx →
        corpus.inner.find other = some testcase →
        testcase.filename = some file →
        after.disk.files file = corpus.disk.files file)
    (free : NameFree corpus idx name)
    (here :
      ∀ testcase, after.inner.find idx = some testcase →
        ∃ input,
          storedAfter idx = some input ∧
            BackedBy codec after.disk.files testcase name input)
    (gone : after.inner.find idx = none → storedAfter idx = none) :
    Backed codec after storedAfter := by
  have nameHere :
      ∀ testcase, after.inner.find idx = some testcase →
        testcase.filename = some name := by
    intro testcase found
    obtain ⟨input, _, backedBy⟩ := here testcase found
    exact backedBy.filename
  have nameElsewhere :
      ∀ other testcase, other ≠ idx →
        after.inner.find other = some testcase →
        testcase.filename ≠ some name := by
    intro other testcase different found
    rw [sameFind other different] at found
    exact free other testcase different found
  constructor
  · intro other testcase found
    by_cases isIdx : other = idx
    · subst isIdx
      obtain ⟨input, isStored, backedBy⟩ := here testcase found
      exact ⟨name, input, isStored, backedBy⟩
    · rw [sameFind other isIdx] at found
      obtain ⟨otherName, input, isStored, backedBy⟩ :=
        backed.entry other testcase found
      refine ⟨otherName, input, (sameStored other isIdx).trans isStored,
        backedBy.filename, ?_, backedBy.loaded⟩
      exact (sameFiles other testcase otherName isIdx found
        backedBy.filename).trans backedBy.file
  · intro other missing
    by_cases isIdx : other = idx
    · exact isIdx ▸ gone (isIdx ▸ missing)
    · rw [sameStored other isIdx]
      exact backed.missing other ((sameFind other isIdx).symm.trans missing)
  · intro first second testcase otherTestcase fileName foundFirst foundSecond
      namedFirst namedSecond
    by_cases isFirst : first = idx
    · by_cases isSecond : second = idx
      · exact isFirst.trans isSecond.symm
      · subst isFirst
        obtain rfl :=
          Option.some.inj ((nameHere testcase foundFirst).symm.trans namedFirst)
        exact absurd namedSecond
          (nameElsewhere second otherTestcase isSecond foundSecond)
    · by_cases isSecond : second = idx
      · subst isSecond
        obtain rfl :=
          Option.some.inj
            ((nameHere otherTestcase foundSecond).symm.trans namedSecond)
        exact absurd namedFirst
          (nameElsewhere first testcase isFirst foundFirst)
      · rw [sameFind first isFirst] at foundFirst
        rw [sameFind second isSecond] at foundSecond
        exact backed.apart first second testcase otherTestcase fileName
          foundFirst foundSecond namedFirst namedSecond

theorem written
    (backed : Backed codec corpus stored)
    {idx : CorpusId}
    {input : Input}
    {name : String}
    {before : InMemoryOnDiskCorpus Input}
    (sameFind :
      ∀ other, other ≠ idx →
        before.inner.find other = corpus.inner.find other)
    (sameFiles :
      ∀ other testcase file, other ≠ idx →
        corpus.inner.find other = some testcase →
        testcase.filename = some file →
        before.disk.files file = corpus.disk.files file)
    (there : ∃ testcase, before.inner.find idx = some testcase)
    (free : NameFree corpus idx name)
    (locks : List String) :
    Backed codec (before.written codec idx input name locks)
      (Function.update stored idx (some input)) := by
  obtain ⟨testcase, found⟩ := there
  have finds := @find_written Input codec before idx input name locks
  refine backed.of_others ?_ ?_ ?_ free ?_ ?_
  · intro other different
    rw [finds, if_neg different]
    exact sameFind other different
  · exact fun other different => Function.update_of_ne different _ _
  · intro other testcase file different isOther named
    have otherFile : file ≠ name := by
      rintro rfl
      exact free other testcase different isOther named
    exact (Function.update_of_ne otherFile _ _).trans
      (sameFiles other testcase file different isOther named)
  · intro after foundAfter
    rw [finds, if_pos rfl, found] at foundAfter
    cases foundAfter
    refine ⟨input, Function.update_self _ _ _, rfl, ?_, ?_⟩
    · exact Function.update_self _ _ _
    · rintro other ⟨⟩
  · intro missing
    rw [finds, if_pos rfl, found] at missing
    cases missing

theorem add
    (backed : Backed codec corpus stored)
    {testcase : Testcase Input}
    {input : Input}
    (loaded : testcase.input = some input)
    (free :
      ∀ name, corpus.savedName codec testcase corpus.inner.nextId = some name →
        NameFree corpus corpus.inner.nextId name) :
    ∃ name locks,
      corpus.add codec testcase =
          .ok
            (corpus.inner.nextId,
              { corpus with inner := (corpus.inner.add testcase).2 }.written
                codec corpus.inner.nextId input name locks) ∧
        Backed codec
          ({ corpus with inner := (corpus.inner.add testcase).2 }.written
            codec corpus.inner.nextId input name locks)
          (Function.update stored corpus.inner.nextId (some input)) := by
  let before : InMemoryOnDiskCorpus Input :=
    { corpus with inner := (corpus.inner.add testcase).2 }
  have finds :
      ∀ other,
        before.inner.find other =
          if other = corpus.inner.nextId then some testcase
          else corpus.inner.find other :=
    fun other => InMemoryCorpus.find_add
  have found : before.inner.find corpus.inner.nextId = some testcase := by
    rw [finds, if_pos rfl]
  obtain ⟨name, locks, named, saves⟩ :=
    @InMemoryOnDiskCorpus.saved_eq Input codec before testcase
      corpus.inner.nextId input found loaded
  refine ⟨name, locks, ?_, ?_⟩
  · change (before.saved codec corpus.inner.nextId >>= _) = _
    rw [saves]
    rfl
  · refine @written _ _ _ _ backed _ _ _ before ?_
      (fun _ _ _ _ _ _ => rfl) ⟨testcase, found⟩ (free name named) locks
    intro other different
    rw [finds, if_neg different]

theorem removeTestcase
    (backed : Backed codec corpus stored)
    {idx : CorpusId}
    {entry : Testcase Input}
    (found : corpus.inner.find idx = some entry)
    (inner : InMemoryCorpus (Testcase Input)) :
    ∃ file,
      entry.filename = some file ∧
        { corpus with inner := inner }.removeTestcase entry =
          .ok
            { corpus.disk with
              files := Function.update corpus.disk.files file none } := by
  obtain ⟨file, input, _, backedBy⟩ := backed.entry idx entry found
  refine ⟨file, backedBy.filename, ?_⟩
  simp only [InMemoryOnDiskCorpus.removeTestcase, backedBy.filename,
    backedBy.file]

theorem otherFile
    (backed : Backed codec corpus stored)
    {idx : CorpusId}
    {entry : Testcase Input}
    (found : corpus.inner.find idx = some entry)
    {removed : String}
    (named : entry.filename = some removed) :
    ∀ other testcase file, other ≠ idx →
      corpus.inner.find other = some testcase →
      testcase.filename = some file →
      Function.update corpus.disk.files removed none file =
        corpus.disk.files file := by
  intro other testcase file different isOther namedOther
  rw [Function.update_of_ne]
  rintro rfl
  exact different
    (backed.apart other idx testcase entry file isOther found namedOther named)

theorem replace
    (backed : Backed codec corpus stored)
    {idx : CorpusId}
    {entry testcase : Testcase Input}
    {input : Input}
    (found : corpus.inner.find idx = some entry)
    (loaded : testcase.input = some input)
    (free :
      ∀ name, corpus.savedName codec testcase idx = some name →
        NameFree corpus idx name) :
    ∃ (before : InMemoryOnDiskCorpus Input) (name : String)
      (locks : List String),
      before.inner = corpus.inner.modify idx (fun _ => testcase) ∧
        corpus.replace codec idx testcase =
          .ok (entry, before.written codec idx input name locks) ∧
        Backed codec (before.written codec idx input name locks)
          (Function.update stored idx (some input)) := by
  let inner := corpus.inner.modify idx fun _ => testcase
  obtain ⟨file, namedEntry, removes⟩ := backed.removeTestcase found inner
  let before : InMemoryOnDiskCorpus Input :=
    { corpus with
      inner := inner
      disk :=
        { corpus.disk with
          files := Function.update corpus.disk.files file none } }
  have finds :
      ∀ other,
        before.inner.find other =
          if other = idx then
            (corpus.inner.find other).map fun _ => testcase
          else corpus.inner.find other :=
    fun other => InMemoryCorpus.find_modify
  have foundNow : before.inner.find idx = some testcase := by
    rw [finds, if_pos rfl, found]
    rfl
  obtain ⟨name, locks, named, saves⟩ :=
    @InMemoryOnDiskCorpus.saved_eq Input codec before testcase idx input
      foundNow loaded
  refine ⟨before, name, locks, rfl, ?_, ?_⟩
  · rw [InMemoryOnDiskCorpus.replace, InMemoryCorpus.replace_eq, found]
    simp only [ok_bind]
    change ({ corpus with inner := inner }.removeTestcase entry >>= _) = _
    rw [removes]
    change (before.saved codec idx >>= _) = _
    rw [saves]
    rfl
  · refine @written _ _ _ _ backed _ _ _ before ?_
      (backed.otherFile found namedEntry) ⟨testcase, foundNow⟩ (free name named) locks
    intro other different
    rw [finds, if_neg different]

theorem remove
    (backed : Backed codec corpus stored)
    {idx : CorpusId}
    {entry : Testcase Input}
    (found : corpus.inner.find idx = some entry) :
    ∃ disk,
      corpus.remove idx =
          .ok
            (entry,
              { corpus with
                inner := corpus.inner.removed idx
                disk := disk }) ∧
        Backed codec
          { corpus with inner := corpus.inner.removed idx, disk := disk }
          (Function.update stored idx none) := by
  obtain ⟨file, named, removes⟩ :=
    backed.removeTestcase found (corpus.inner.removed idx)
  have finds :
      ∀ other,
        (corpus.inner.removed idx).find other =
          if other = idx then none else corpus.inner.find other :=
    fun other => InMemoryCorpus.find_removed
  refine
    ⟨{ corpus.disk with
        files := Function.update corpus.disk.files file none }, ?_, ?_⟩
  · rw [InMemoryOnDiskCorpus.remove, InMemoryCorpus.remove_eq, found]
    simp only [ok_bind]
    change
      ({ corpus with inner := corpus.inner.removed idx }.removeTestcase
        entry >>= _) = _
    rw [removes]
    rfl
  · refine @of_others _ _ _ _ backed idx _ _ file ?_ ?_
      (backed.otherFile found named) ?_ ?_ ?_
    · intro other different
      exact (finds other).trans (if_neg different)
    · exact fun other different => Function.update_of_ne different _ _
    · intro other testcase different isOther namedOther
      exact different
        (backed.apart other idx testcase entry file isOther found namedOther
          named)
    · intro testcase foundNow
      rw [finds, if_pos rfl] at foundNow
      cases foundNow
    · intro _
      exact Function.update_self _ _ _

theorem modify
    (backed : Backed codec corpus stored)
    {idx : CorpusId}
    {change : Testcase Input → Testcase Input}
    (sameFile :
      ∀ testcase, corpus.inner.find idx = some testcase →
        (change testcase).filename = testcase.filename)
    (loaded :
      ∀ testcase input other,
        corpus.inner.find idx = some testcase →
        stored idx = some input →
        (∀ before, testcase.input = some before → before = input) →
        (change testcase).input = some other →
        other = input) :
    Backed codec { corpus with inner := corpus.inner.modify idx change }
      stored := by
  have finds :
      ∀ other,
        (corpus.inner.modify idx change).find other =
          if other = idx then (corpus.inner.find other).map change
          else corpus.inner.find other :=
    fun other => InMemoryCorpus.find_modify
  have origin :
      ∀ other testcase,
        (corpus.inner.modify idx change).find other = some testcase →
        ∃ before,
          corpus.inner.find other = some before ∧
            testcase.filename = before.filename ∧
            (testcase = before ∨ other = idx ∧ testcase = change before) := by
    intro other testcase found
    rw [finds] at found
    split at found
    · rename_i isIdx
      obtain ⟨before, foundBefore, rfl⟩ := Option.map_eq_some_iff.mp found
      exact ⟨before, foundBefore, sameFile before (isIdx ▸ foundBefore),
        .inr ⟨isIdx, rfl⟩⟩
    · exact ⟨testcase, found, rfl, .inl rfl⟩
  constructor
  · intro other testcase found
    obtain ⟨before, foundBefore, sameName, change⟩ :=
      origin other testcase found
    obtain ⟨name, input, isStored, backedBy⟩ :=
      backed.entry other before foundBefore
    refine ⟨name, input, isStored, sameName.trans backedBy.filename,
      backedBy.file, ?_⟩
    rcases change with rfl | ⟨rfl, rfl⟩
    · exact backedBy.loaded
    · exact fun content =>
        loaded before input content foundBefore isStored backedBy.loaded
  · intro other missing
    rw [finds] at missing
    apply backed.missing other
    split at missing
    · exact Option.map_eq_none_iff.mp missing
    · exact missing
  · intro first second testcase otherTestcase name foundFirst foundSecond
      namedFirst namedSecond
    obtain ⟨beforeFirst, foundFirst, sameFirst, _⟩ :=
      origin first testcase foundFirst
    obtain ⟨beforeSecond, foundSecond, sameSecond, _⟩ :=
      origin second otherTestcase foundSecond
    exact backed.apart first second beforeFirst beforeSecond name foundFirst
      foundSecond (sameFirst ▸ namedFirst) (sameSecond ▸ namedSecond)

end Backed

namespace CachedOnDiskCorpus

/-- The testcase of an id. -/
def find
    (corpus : CachedOnDiskCorpus Input)
    (idx : CorpusId) : Option (Testcase Input) :=
  corpus.inner.inner.find idx

/-- The cached ids are those whose input is loaded, and fit the cache. -/
structure Cached (corpus : CachedOnDiskCorpus Input) : Prop where
  nodup : corpus.cachedIndexes.Nodup
  loaded :
    ∀ idx,
      idx ∈ corpus.cachedIndexes ↔
        ∃ testcase,
          corpus.find idx = some testcase ∧ testcase.input.isSome = true
  room : corpus.cachedIndexes.length ≤ corpus.cacheMaxLen

variable {corpus : CachedOnDiskCorpus Input}
variable {idx : CorpusId}

theorem Cached.of_unloaded
    (cached : Cached corpus)
    {inner : InMemoryOnDiskCorpus Input}
    (notCached : idx ∉ corpus.cachedIndexes)
    (same :
      ∀ other, other ≠ idx → inner.inner.find other = corpus.find other)
    (unloaded :
      ∀ testcase, inner.inner.find idx = some testcase →
        testcase.input = none) :
    Cached { corpus with inner := inner } where
  nodup := cached.nodup
  loaded := by
    intro other
    by_cases isIdx : other = idx
    · subst isIdx
      refine ⟨fun isCached => absurd isCached notCached, ?_⟩
      rintro ⟨testcase, found, loaded⟩
      rw [unloaded testcase found] at loaded
      cases loaded
    · rw [find, same other isIdx]
      exact cached.loaded other
  room := cached.room

theorem evict_room
    (borrowed : CorpusId → Bool)
    (fuel borrowedNum : Nat)
    (room : corpus.cachedIndexes.length < corpus.cacheMaxLen) :
    evict borrowed (fuel + 1) borrowedNum corpus = .ok corpus := by
  rw [evict, if_pos room]

theorem evict_full
    (borrowed : CorpusId → Bool)
    {taken rest : List CorpusId}
    {evicted : CorpusId}
    {fuel borrowedNum : Nat}
    (split : corpus.cachedIndexes = taken ++ evicted :: rest)
    (isTaken : ∀ id ∈ taken, borrowed id = true)
    (isFree : borrowed evicted = false)
    (full : corpus.cachedIndexes.length = corpus.cacheMaxLen)
    (live :
      ∀ id ∈ corpus.cachedIndexes,
        ∃ testcase, corpus.find id = some testcase)
    (fewer : borrowedNum + taken.length < corpus.cacheMaxLen)
    (enough : taken.length + 2 ≤ fuel) :
    evict borrowed fuel borrowedNum corpus =
      .ok
        ({ corpus with cachedIndexes := rest ++ taken }.modify evicted
          ({ · with input := none })) := by
  induction taken generalizing corpus rest fuel borrowedNum with
  | nil =>
      obtain ⟨fuel, rfl⟩ : ∃ less, fuel = less + 2 :=
        ⟨fuel - 2, by simp at enough; omega⟩
      obtain ⟨testcase, found⟩ := live evicted (by rw [split]; simp)
      have gets := InMemoryCorpus.get_eq_ok.mpr found
      have notRoom :
          ¬corpus.cachedIndexes.length < corpus.cacheMaxLen := by
        omega
      rw [evict, if_neg notRoom, split]
      simp only [List.nil_append, gets, isFree, List.append_nil]
      refine evict_room borrowed fuel borrowedNum ?_
      have length := congrArg List.length split
      simp only [List.nil_append, List.length_cons] at length
      simp only [modify]
      omega
  | cons id taken ih =>
      obtain ⟨fuel, rfl⟩ : ∃ less, fuel = less + 1 :=
        ⟨fuel - 1, by simp at enough; omega⟩
      obtain ⟨testcase, found⟩ := live id (by rw [split]; simp)
      have gets := InMemoryCorpus.get_eq_ok.mpr found
      have notRoom :
          ¬corpus.cachedIndexes.length < corpus.cacheMaxLen := by
        omega
      have length := congrArg List.length split
      simp only [List.length_append, List.length_cons] at length fewer enough
      have notLast : corpus.cacheMaxLen ≠ borrowedNum + 1 := by
        omega
      rw [evict, if_neg notRoom, split]
      simp only [List.cons_append, gets, isTaken id List.mem_cons_self,
        if_true, if_neg notLast]
      have evicts :=
        @ih
          { corpus with
            cachedIndexes := taken ++ evicted :: (rest ++ [id]) }
          (rest ++ [id]) fuel (borrowedNum + 1) rfl
          (fun other isOther => isTaken other (List.mem_cons_of_mem _ isOther))
          (by simp; omega)
          (fun other isOther => live other (by
            rw [split]
            simp only [List.mem_append, List.mem_cons, List.not_mem_nil,
              or_false] at isOther ⊢
            tauto))
          (by simp; omega) (by omega)
      simpa using evicts

theorem Cached.removed
    (cached : Cached corpus)
    {disk : Disk} :
    Cached
      { corpus with
        inner :=
          { corpus.inner with
            inner := corpus.inner.inner.removed idx
            disk := disk }
        cachedIndexes := corpus.cachedIndexes.filter fun e => e ≠ idx } where
  nodup := cached.nodup.filter _
  loaded := by
    intro other
    rw [List.mem_filter, decide_eq_true_iff, cached.loaded other, find, find,
      InMemoryCorpus.find_removed]
    by_cases isIdx : other = idx
    · simp [isIdx]
    · simp [isIdx]
  room := (List.length_filter_le _ _).trans cached.room

theorem Cached.load
    (cached : Cached corpus)
    (notCached : idx ∉ corpus.cachedIndexes)
    {next : CachedOnDiskCorpus Input}
    {kept : List CorpusId}
    (dropped : CorpusId → Prop)
    (indexes : next.cachedIndexes = kept ++ [idx])
    (nodup : kept.Nodup)
    (isKept :
      ∀ other,
        other ∈ kept ↔ other ∈ corpus.cachedIndexes ∧ ¬dropped other)
    (here :
      ∃ testcase,
        next.find idx = some testcase ∧ testcase.input.isSome = true)
    (unloaded :
      ∀ other testcase, dropped other → other ≠ idx →
        next.find other = some testcase → testcase.input = none)
    (same :
      ∀ other, ¬dropped other → other ≠ idx →
        next.find other = corpus.find other)
    (room : kept.length < next.cacheMaxLen) :
    Cached next where
  nodup := by
    rw [indexes, List.nodup_append]
    refine ⟨nodup, List.nodup_singleton idx, ?_⟩
    intro other isKeptOther id isIdx sameId
    rw [List.mem_singleton] at isIdx
    exact notCached
      (((isKept idx).mp (isIdx ▸ sameId ▸ isKeptOther)).1)
  loaded := by
    intro other
    rw [indexes, List.mem_append, List.mem_singleton, isKept other]
    by_cases isIdx : other = idx
    · subst isIdx
      exact ⟨fun _ => here, fun _ => .inr rfl⟩
    · by_cases isDropped : dropped other
      · constructor
        · rintro (⟨_, notDropped⟩ | isIdxThen)
          · exact absurd isDropped notDropped
          · exact absurd isIdxThen isIdx
        · rintro ⟨testcase, found, loaded⟩
          rw [unloaded other testcase isDropped isIdx found] at loaded
          cases loaded
      · rw [same other isDropped isIdx, ← cached.loaded other]
        exact ⟨fun isCached => isCached.elim And.left
            fun isIdxThen => absurd isIdxThen isIdx,
          fun isCached => .inl ⟨isCached, isDropped⟩⟩
  room := by
    rw [indexes, List.length_append]
    exact room

/-- There is room for a testcase, or one of the cached can be evicted. -/
def HasRoom
    (corpus : CachedOnDiskCorpus Input)
    (borrowed : CorpusId → Bool) : Prop :=
  corpus.cachedIndexes.length < corpus.cacheMaxLen ∨
    ∃ id ∈ corpus.cachedIndexes, borrowed id = false

/-- A testcase that is not loaded is loaded from its file. -/
theorem get_loads
    {stored : CorpusId → Option Input}
    (backed : Backed codec corpus.inner stored)
    (cached : Cached corpus)
    {testcase : Testcase Input}
    (found : corpus.find idx = some testcase)
    (unloaded : testcase.input = none)
    {borrowed : CorpusId → Bool}
    (free : borrowed idx = false)
    (hasRoom : corpus.HasRoom borrowed) :
    ∃ input next,
      stored idx = some input ∧
        corpus.get codec borrowed idx =
          .ok ({ testcase with input := some input }, next) ∧
        Backed codec next.inner stored ∧
        Cached next ∧
        next.cacheMaxLen = corpus.cacheMaxLen := by
  obtain ⟨name, input, isStored, backedBy⟩ :=
    backed.entry idx testcase found
  have notCached : idx ∉ corpus.cachedIndexes := by
    intro isCached
    obtain ⟨other, foundOther, loaded⟩ := (cached.loaded idx).mp isCached
    obtain rfl := Option.some.inj (found.symm.trans foundOther)
    rw [unloaded] at loaded
    cases loaded
  have loads :
      testcase.loadInput codec corpus.inner.disk =
        .ok { testcase with input := some input } := by
    simp only [Testcase.loadInput, unloaded, backedBy.filename,
      backedBy.file, Option.bind_some, codec.reads]
  have gets := InMemoryCorpus.get_eq_ok.mpr found
  let loaded : Testcase Input := { testcase with input := some input }
  let before := corpus.modify idx fun _ => loaded
  have findsBefore :
      ∀ other,
        before.find other =
          if other = idx then (corpus.find other).map fun _ => loaded
          else corpus.find other :=
    fun other => InMemoryCorpus.find_modify
  have foundBefore : before.find idx = some loaded := by
    rw [findsBefore, if_pos rfl, found]
    rfl
  have backedBefore : Backed codec before.inner stored := by
    refine backed.modify ?_ ?_
    · intro other foundOther
      obtain rfl := Option.some.inj (found.symm.trans foundOther)
      rfl
    · intro _ storedInput other _ isStoredToo _ isLoaded
      exact (Option.some.inj isLoaded).symm.trans
        (Option.some.inj (isStored.symm.trans isStoredToo))
  have result :
      ∀ after : CachedOnDiskCorpus Input,
        evict borrowed
            (corpus.cachedIndexes.length + corpus.cacheMaxLen + 1) 0 before =
          .ok after →
        after.find idx = some loaded →
        corpus.get codec borrowed idx =
          .ok
            (loaded,
              { after with cachedIndexes := after.cachedIndexes ++ [idx] }) := by
    intro after evicts foundAfter
    have getsAfter := InMemoryCorpus.get_eq_ok.mpr foundAfter
    rw [CachedOnDiskCorpus.get, gets, ok_bind, unloaded, free, loads]
    change (evict borrowed _ 0 before >>= _) = _
    rw [evicts, ok_bind]
    dsimp only
    rw [getsAfter, ok_bind]
  by_cases room : corpus.cachedIndexes.length < corpus.cacheMaxLen
  · refine ⟨input, _, isStored,
      result before (evict_room borrowed _ 0 room) foundBefore,
      backedBefore, ?_, rfl⟩
    exact
      cached.load notCached (fun _ => False) rfl cached.nodup
        (fun _ => ⟨fun isCached => ⟨isCached, id⟩, And.left⟩)
        ⟨loaded, foundBefore, rfl⟩ (fun _ _ isDropped => absurd isDropped id)
        (fun other _ different =>
          (findsBefore other).trans (if_neg different)) room
  · have full : corpus.cachedIndexes.length = corpus.cacheMaxLen :=
      Nat.le_antisymm cached.room (Nat.le_of_not_lt room)
    obtain ⟨freeId, isCached, isFree⟩ := hasRoom.resolve_left room
    have finds :
        (corpus.cachedIndexes.find? fun id => !borrowed id).isSome := by
      rw [List.find?_isSome]
      exact ⟨freeId, isCached, by rw [isFree]; rfl⟩
    obtain ⟨evicted, findsEvicted⟩ := Option.isSome_iff_exists.mp finds
    obtain ⟨evictedFree, taken, rest, split, isTaken⟩ :=
      List.find?_eq_some_iff_append.mp findsEvicted
    have isEvictedCached : evicted ∈ corpus.cachedIndexes := by
      rw [split]
      simp
    have different : evicted ≠ idx := fun same =>
      notCached (same ▸ isEvictedCached)
    have live :
        ∀ id ∈ before.cachedIndexes,
          ∃ testcase, before.find id = some testcase := by
      intro id isCachedId
      obtain ⟨other, foundOther, _⟩ := (cached.loaded id).mp isCachedId
      rw [findsBefore, foundOther]
      split
      · exact ⟨loaded, rfl⟩
      · exact ⟨other, rfl⟩
    have length := congrArg List.length split
    simp only [List.length_append, List.length_cons] at length
    have evicts :=
      @evict_full Input before borrowed taken rest evicted
        (corpus.cachedIndexes.length + corpus.cacheMaxLen + 1) 0 split
        (fun id isTakenId => by simpa using isTaken id isTakenId)
        (by simpa using evictedFree) full live
        (by change _ < corpus.cacheMaxLen; omega) (by omega)
    let after :=
      { before with cachedIndexes := rest ++ taken }.modify evicted
        ({ · with input := none })
    have findsAfter :
        ∀ other,
          after.find other =
            if other = evicted then
              (before.find other).map ({ · with input := none })
            else before.find other :=
      fun other => InMemoryCorpus.find_modify
    have foundAfter : after.find idx = some loaded := by
      rw [findsAfter, if_neg different.symm, foundBefore]
    have backedAfter : Backed codec after.inner stored :=
      backedBefore.modify (fun _ _ => rfl)
        fun _ _ _ _ _ _ isLoaded => by cases isLoaded
    have nodup : (rest ++ taken).Nodup ∧ evicted ∉ rest ++ taken := by
      have nodupCached := cached.nodup
      rw [split, List.nodup_middle, List.nodup_cons,
        (List.perm_append_comm).nodup_iff,
        (List.perm_append_comm).mem_iff] at nodupCached
      exact ⟨nodupCached.2, nodupCached.1⟩
    refine ⟨input, _, isStored, result after evicts foundAfter,
      backedAfter, ?_, rfl⟩
    refine
      cached.load notCached (· = evicted) rfl nodup.1 ?_
        ⟨loaded, foundAfter, rfl⟩ ?_ ?_ ?_
    · intro other
      change
        other ∈ rest ++ taken ↔ other ∈ corpus.cachedIndexes ∧ ¬other = evicted
      rw [split]
      simp only [List.mem_append, List.mem_cons]
      constructor
      · intro isKept
        refine ⟨isKept.elim (fun later => .inr (.inr later)) .inl, ?_⟩
        rintro rfl
        exact nodup.2 (List.mem_append.mpr isKept)
      · rintro ⟨isEarlier | isEvicted | isLater, notEvicted⟩
        · exact .inr isEarlier
        · exact absurd isEvicted notEvicted
        · exact .inl isLater
    · rintro other testcase rfl _ foundOther
      rw [CachedOnDiskCorpus.find] at foundOther
      have mapped := (findsAfter other).symm.trans foundOther
      rw [if_pos rfl] at mapped
      obtain ⟨_, _, rfl⟩ := Option.map_eq_some_iff.mp mapped
      rfl
    · intro other notEvicted notIdx
      exact (findsAfter other).trans
        ((if_neg notEvicted).trans
          ((findsBefore other).trans (if_neg notIdx)))
    · change (rest ++ taken).length < corpus.cacheMaxLen
      rw [List.length_append]
      omega

theorem get_loaded
    {testcase : Testcase Input}
    (found : corpus.find idx = some testcase)
    (loaded : testcase.input.isSome = true)
    (borrowed : CorpusId → Bool) :
    corpus.get codec borrowed idx = .ok (testcase, corpus) := by
  have gets := InMemoryCorpus.get_eq_ok.mpr found
  obtain ⟨input, isLoaded⟩ := Option.isSome_iff_exists.mp loaded
  rw [CachedOnDiskCorpus.get, gets, ok_bind, isLoaded]
  rfl

end CachedOnDiskCorpus

/-- A call on a corpus, with the testcases that are borrowed meanwhile. -/
inductive Call (Input : Type) where
  | add (testcase : Testcase Input)
  | replace (idx : CorpusId) (testcase : Testcase Input)
  | remove (idx : CorpusId)
  | get (borrowed : CorpusId → Bool) (idx : CorpusId)

/-- What a call returns. -/
inductive Answer (Input : Type) where
  | added (idx : CorpusId)
  | replaced (testcase : Testcase Input)
  | removed (testcase : Testcase Input)
  | got (testcase : Testcase Input)
  deriving DecidableEq

/-- A corpus, and the input that was stored last for each of its ids. -/
structure State (Input : Type) where
  corpus : CachedOnDiskCorpus Input
  stored : CorpusId → Option Input

/-- Make a call. -/
def perform
    (codec : Codec Input)
    (corpus : CachedOnDiskCorpus Input) :
    Call Input → Except Error (Answer Input × CachedOnDiskCorpus Input)
  | .add testcase => do
      let (idx, corpus) ← corpus.add codec testcase
      .ok (.added idx, corpus)
  | .replace idx testcase => do
      let (entry, corpus) ← corpus.replace codec idx testcase
      .ok (.replaced entry, corpus)
  | .remove idx => do
      let (testcase, corpus) ← corpus.remove idx
      .ok (.removed testcase, corpus)
  | .get borrowed idx => do
      let (testcase, corpus) ← corpus.get codec borrowed idx
      .ok (.got testcase, corpus)

/-- What is stored once a call has succeeded. -/
def record
    (stored : CorpusId → Option Input) :
    Call Input → Answer Input → CorpusId → Option Input
  | .add testcase, .added idx => Function.update stored idx testcase.input
  | .replace idx testcase, _ => Function.update stored idx testcase.input
  | .remove idx, _ => Function.update stored idx none
  | _, _ => stored

/-- A call succeeds, or it fails for an id that is not there. -/
inductive Step
    (codec : Codec Input) :
    StepRelation (State Input)
      (Call Input × Except Error (Answer Input)) where
  | done
      {state : State Input}
      {call : Call Input}
      {answer : Answer Input}
      {corpus : CachedOnDiskCorpus Input} :
      perform codec state.corpus call = .ok (answer, corpus) →
      Step codec state (call, .ok answer)
        ⟨corpus, record state.stored call answer⟩
  | failed
      {state : State Input}
      {call : Call Input}
      {idx : CorpusId} :
      perform codec state.corpus call = .error (indexNotFound idx) →
      Step codec state (call, .error (indexNotFound idx)) state

/-- A testcase has an input, and is saved to a file of its own. -/
def Stores
    (codec : Codec Input)
    (corpus : CachedOnDiskCorpus Input)
    (idx : CorpusId)
    (testcase : Testcase Input) : Prop :=
  testcase.input.isSome = true ∧
    ∀ name, corpus.inner.savedName codec testcase idx = some name →
      NameFree corpus.inner idx name

/--
The calls that the cache is not seen by: no cached testcase is replaced, and
none has to be loaded while it, or the whole of a full cache, is borrowed.
-/
def Unseen
    (codec : Codec Input)
    (corpus : CachedOnDiskCorpus Input) : Call Input → Prop
  | .add testcase => Stores codec corpus corpus.inner.inner.nextId testcase
  | .replace idx testcase =>
      idx ∉ corpus.cachedIndexes ∧ Stores codec corpus idx testcase
  | .remove _ => True
  | .get borrowed idx =>
      idx ∈ corpus.cachedIndexes ∨
        borrowed idx = false ∧ corpus.HasRoom borrowed

/-- Files, loaded testcases and the cached ids agree. -/
structure Kept
    (codec : Codec Input)
    (state : State Input) : Prop where
  backed : Backed codec state.corpus.inner state.stored
  cached : state.corpus.Cached
  positive : 0 < state.corpus.cacheMaxLen

namespace Kept

variable {state : State Input}
variable {corpus : CachedOnDiskCorpus Input}
variable {answer : Answer Input}
variable {idx : CorpusId}
variable {testcase : Testcase Input}

theorem opened
    (dirPath : String)
    (metaFormat : Bool)
    (disk : Disk)
    {cacheMaxLen : Nat}
    (positive : 0 < cacheMaxLen) :
    Kept codec
      ⟨⟨⟨.new, dirPath, metaFormat, disk⟩, [], cacheMaxLen⟩, fun _ => none⟩ where
  backed :=
    { entry := fun _ _ found => by cases found
      missing := fun _ _ => rfl
      apart := fun _ _ _ _ _ found _ _ _ => by cases found }
  cached :=
    { nodup := List.nodup_nil
      loaded := fun _ =>
        ⟨fun isCached => absurd isCached List.not_mem_nil,
          fun ⟨_, found, _⟩ => by cases found⟩
      room := Nat.zero_le _ }
  positive := positive

theorem add
    (kept : Kept codec state)
    (stores : Stores codec state.corpus state.corpus.inner.inner.nextId testcase)
    (performed :
      perform codec state.corpus (.add testcase) = .ok (answer, corpus)) :
    Kept codec ⟨corpus, record state.stored (.add testcase) answer⟩ := by
  obtain ⟨input, loaded⟩ := Option.isSome_iff_exists.mp stores.1
  obtain ⟨name, locks, adds, backed⟩ := kept.backed.add loaded stores.2
  rw [perform, CachedOnDiskCorpus.add, adds] at performed
  cases performed
  have absent :
      state.corpus.inner.inner.nextId ∉ state.corpus.cachedIndexes := by
    intro isCached
    obtain ⟨other, found, _⟩ := (kept.cached.loaded _).mp isCached
    exact absurd
      (InMemoryCorpus.lt_nextId (InMemoryCorpus.mem_ids.mpr ⟨other, found⟩))
      (Nat.lt_irrefl _)
  refine ⟨?_, kept.cached.of_unloaded absent ?_ ?_, kept.positive⟩
  · simpa only [record, loaded] using backed
  · intro other different
    rw [find_written, if_neg different]
    exact InMemoryCorpus.find_add.trans (if_neg different)
  · intro after found
    rw [find_written, if_pos rfl, InMemoryCorpus.find_add, if_pos rfl] at found
    cases found
    rfl

theorem replace
    (kept : Kept codec state)
    (notCached : idx ∉ state.corpus.cachedIndexes)
    (stores : Stores codec state.corpus idx testcase)
    (performed :
      perform codec state.corpus (.replace idx testcase) =
        .ok (answer, corpus)) :
    Kept codec ⟨corpus, record state.stored (.replace idx testcase) answer⟩ := by
  obtain ⟨input, loaded⟩ := Option.isSome_iff_exists.mp stores.1
  cases found : state.corpus.inner.inner.find idx with
  | none =>
      rw [perform, CachedOnDiskCorpus.replace, InMemoryOnDiskCorpus.replace,
        InMemoryCorpus.replace_eq, found] at performed
      cases performed
  | some entry =>
      obtain ⟨before, name, locks, inner, replaces, backed⟩ :=
        kept.backed.replace found loaded stores.2
      rw [perform, CachedOnDiskCorpus.replace, replaces] at performed
      cases performed
      refine ⟨?_, kept.cached.of_unloaded notCached ?_ ?_, kept.positive⟩
      · simpa only [record, loaded] using backed
      · intro other different
        rw [find_written, if_neg different, inner]
        exact InMemoryCorpus.find_modify.trans (if_neg different)
      · intro after foundAfter
        rw [find_written, if_pos rfl] at foundAfter
        obtain ⟨_, _, rfl⟩ := Option.map_eq_some_iff.mp foundAfter
        rfl

theorem remove
    (kept : Kept codec state)
    (performed :
      perform codec state.corpus (.remove idx) = .ok (answer, corpus)) :
    Kept codec ⟨corpus, record state.stored (.remove idx) answer⟩ := by
  cases found : state.corpus.inner.inner.find idx with
  | none =>
      rw [perform, CachedOnDiskCorpus.remove, InMemoryOnDiskCorpus.remove,
        InMemoryCorpus.remove_eq, found] at performed
      cases performed
  | some entry =>
      obtain ⟨disk, removes, backed⟩ := kept.backed.remove found
      rw [perform, CachedOnDiskCorpus.remove, removes] at performed
      cases performed
      exact ⟨backed, kept.cached.removed, kept.positive⟩

theorem get
    (kept : Kept codec state)
    {borrowed : CorpusId → Bool}
    {input : Input}
    (isStored : state.stored idx = some input)
    (unseen : Unseen codec state.corpus (.get borrowed idx)) :
    ∃ testcase next,
      state.corpus.get codec borrowed idx = .ok (testcase, next) ∧
        testcase.input = some input ∧
        Kept codec ⟨next, state.stored⟩ := by
  cases found : state.corpus.find idx with
  | none =>
      rw [kept.backed.missing idx found] at isStored
      cases isStored
  | some testcase =>
      obtain ⟨name, storedInput, isStoredToo, backedBy⟩ :=
        kept.backed.entry idx testcase found
      obtain rfl := Option.some.inj (isStored.symm.trans isStoredToo)
      cases content : testcase.input with
      | some other =>
          refine ⟨testcase, state.corpus,
            CachedOnDiskCorpus.get_loaded found (content ▸ rfl) borrowed, ?_,
            kept⟩
          rw [content, backedBy.loaded other content]
      | none =>
          have notCached : idx ∉ state.corpus.cachedIndexes := by
            intro isCached
            obtain ⟨other, foundOther, loaded⟩ :=
              (kept.cached.loaded idx).mp isCached
            obtain rfl := Option.some.inj (found.symm.trans foundOther)
            rw [content] at loaded
            cases loaded
          obtain ⟨free, hasRoom⟩ := unseen.resolve_left notCached
          obtain ⟨loadedInput, next, isStoredLoaded, gets, backed, cached,
            sameMaxLen⟩ :=
            CachedOnDiskCorpus.get_loads kept.backed kept.cached found content
              free hasRoom
          obtain rfl := Option.some.inj (isStored.symm.trans isStoredLoaded)
          exact ⟨_, next, gets, rfl, backed, cached,
            sameMaxLen ▸ kept.positive⟩

theorem step
    (kept : Kept codec state)
    {label : Call Input × Except Error (Answer Input)}
    {next : State Input}
    (taken :
      (Step codec).guarded
        (fun state label => Unseen codec state.corpus label.1)
        state label next) :
    Kept codec next := by
  obtain ⟨unseen, taken⟩ := taken
  cases taken with
  | failed _ =>
      exact kept
  | @done _ call answer corpus performed =>
      cases call with
      | add testcase =>
          exact kept.add unseen performed
      | replace idx testcase =>
          exact kept.replace unseen.1 unseen.2 performed
      | remove idx =>
          exact kept.remove performed
      | get borrowed idx =>
          cases found : state.corpus.inner.inner.find idx with
          | none =>
              rw [perform, CachedOnDiskCorpus.get, InMemoryCorpus.get_eq,
                found] at performed
              cases performed
          | some testcase =>
              obtain ⟨_, input, isStored, _⟩ :=
                kept.backed.entry idx testcase found
              obtain ⟨_, _, gets, _, keptNext⟩ := kept.get isStored unseen
              rw [perform, gets] at performed
              cases performed
              exact keptNext

end Kept

end MeFuzz.Corpus.OnDisk
