import MeFuzz.TestcaseStorage

namespace MeFuzz.Corpus

/-!
# The linked storage refines the ordered one

The items of the hash map are threaded on the list of ids: each item names the
ids before and after its own.  Inserting extends the thread at its end, and
removing closes it over the gap.
-/

variable {Testcase : Type*}

section

variable {front back : List CorpusId}
variable {id : CorpusId}

theorem getLast?_eq_some_iff
    (nodup : (front ++ id :: back).Nodup) :
    (front ++ id :: back).getLast? = some id ↔ back = [] := by
  constructor
  · intro isLast
    rcases List.eq_nil_or_concat' back with isNil | ⟨rest, last, rfl⟩
    · exact isNil
    · have atEnd :
          (front ++ id :: (rest ++ [last])).getLast? = some last := by
        simp [List.getLast?_append, List.getLast?_cons]
      have same : last = id := Option.some.inj (atEnd.symm.trans isLast)
      subst same
      rw [List.nodup_middle, List.nodup_cons] at nodup
      exact absurd (by simp) nodup.1
  · rintro rfl
    simp

theorem head?_eq_some_iff
    (nodup : (front ++ id :: back).Nodup) :
    (front ++ id :: back).head? = some id ↔ front = [] := by
  constructor
  · intro isFirst
    cases front with
    | nil =>
        rfl
    | cons first rest =>
        have same : first = id := by
          simpa using isFirst
        subst same
        rw [List.nodup_middle, List.nodup_cons] at nodup
        exact absurd (by simp) nodup.1
  · rintro rfl
    simp

theorem head?_append_cons
    (nonempty : front ≠ []) :
    (front ++ id :: back).head? = front.head? ∧
      (front ++ back).head? = front.head? := by
  cases front with
  | nil =>
      exact absurd rfl nonempty
  | cons first rest =>
      exact ⟨rfl, rfl⟩

theorem getLast?_append_cons
    (nonempty : back ≠ []) :
    (front ++ id :: back).getLast? = back.getLast? ∧
      (front ++ back).getLast? = back.getLast? := by
  rcases List.eq_nil_or_concat' back with isNil | ⟨rest, last, rfl⟩
  · exact absurd isNil nonempty
  · simp [List.getLast?_append, List.getLast?_cons]

end

/-- The ids that a step leads to, one after the other, as far as `fuel` goes. -/
def walk
    (step : CorpusId → Option CorpusId) :
    Nat → Option CorpusId → List CorpusId
  | 0, _ => []
  | _, none => []
  | fuel + 1, some id => id :: walk step fuel (step id)

/-- A step leads from each id of a list to the one behind it. -/
def Follows
    (step : CorpusId → Option CorpusId)
    (ids : List CorpusId) : Prop :=
  ∀ before id after, ids = before ++ id :: after → step id = after.head?

theorem walk_eq
    {step : CorpusId → Option CorpusId}
    {ids : List CorpusId}
    (follows : Follows step ids)
    {fuel : Nat}
    (enough : ids.length ≤ fuel) :
    walk step fuel ids.head? = ids := by
  induction ids generalizing fuel with
  | nil =>
      cases fuel <;> rfl
  | cons id rest ih =>
      obtain ⟨fuel, rfl⟩ : ∃ less, fuel = less + 1 :=
        ⟨fuel - 1, by simp at enough; omega⟩
      have followsRest : Follows step rest := fun before other after split =>
        follows (id :: before) other after (by rw [split]; rfl)
      have next : step id = rest.head? := follows [] id rest rfl
      rw [List.head?_cons, walk, next,
        ih followsRest (by simpa using enough)]

theorem walk_reverse_eq
    {step : CorpusId → Option CorpusId}
    {ids : List CorpusId}
    (leads :
      ∀ before id after, ids = before ++ id :: after →
        step id = before.getLast?)
    {fuel : Nat}
    (enough : ids.length ≤ fuel) :
    walk step fuel ids.getLast? = ids.reverse := by
  have follows : Follows step ids.reverse := by
    intro before id after split
    have forwards : ids = after.reverse ++ id :: before.reverse := by
      rw [← List.reverse_reverse ids, split]
      simp
    rw [leads _ _ _ forwards, List.getLast?_reverse]
  rw [← List.head?_reverse]
  exact walk_eq follows (by simpa using enough)

namespace BTree.TestcaseStorage

variable {storage : TestcaseStorage Testcase}

theorem next_eq
    {before after : List CorpusId}
    {idx : CorpusId}
    (split : storage.map.keys = before ++ idx :: after) :
    storage.next idx = after.head? := by
  unfold next
  rw [OrderedMap.filter_from split]
  exact if_neg (not_not.mpr rfl)

theorem prev_eq
    {before after : List CorpusId}
    {idx : CorpusId}
    (split : storage.map.keys = before ++ idx :: after) :
    storage.prev idx = before.getLast? := by
  unfold prev
  rw [OrderedMap.filter_upto split, List.reverse_concat, ← List.head?_reverse]
  exact if_neg (not_not.mpr rfl)

theorem next_of_absent
    {idx : CorpusId}
    (absent : idx ∉ storage.map.keys) :
    storage.next idx = none := by
  unfold next
  split
  · rfl
  · rename_i thisId range from_
    have isKey : thisId ∈ storage.map.keys := by
      have inRange : thisId ∈ storage.map.keys.filter fun id => idx ≤ id := by
        rw [from_]
        exact List.mem_cons_self
      exact List.mem_of_mem_filter inRange
    have apart : idx ≠ thisId := fun same => absent (same ▸ isKey)
    exact if_pos apart

theorem prev_of_absent
    {idx : CorpusId}
    (absent : idx ∉ storage.map.keys) :
    storage.prev idx = none := by
  unfold prev
  split
  · rfl
  · rename_i thisId range upto
    have isKey : thisId ∈ storage.map.keys := by
      have inRange : thisId ∈ storage.map.keys.filter fun id => id ≤ idx := by
        rw [← List.mem_reverse, upto]
        exact List.mem_cons_self
      exact List.mem_of_mem_filter inRange
    have apart : idx ≠ thisId := fun same => absent (same ▸ isKey)
    exact if_pos apart

end BTree.TestcaseStorage

namespace Linked

/-- The items are those of the ids, each linked to its neighbours. -/
structure Threaded
    (map : TestcaseStorageMap Testcase)
    (keys : List CorpusId)
    (value : CorpusId → Option Testcase) : Prop where
  present :
    ∀ before id after, keys = before ++ id :: after →
      ∃ testcase,
        value id = some testcase ∧
          map.lookup id =
            some ⟨testcase, before.getLast?, after.head?⟩
  absent : ∀ id ∉ keys, map.lookup id = none

variable {map : TestcaseStorageMap Testcase}
variable {keys : List CorpusId}
variable {value : CorpusId → Option Testcase}

theorem Threaded.isSome
    (threaded : Threaded map keys value)
    {id : CorpusId}
    (isKey : id ∈ keys) :
    (map.lookup id).isSome := by
  obtain ⟨before, after, split⟩ := List.append_of_mem isKey
  obtain ⟨testcase, _, item⟩ := threaded.present before id after split
  rw [item]
  rfl

theorem updateNeighbour_eq
    (change : TestcaseStorageItem Testcase → TestcaseStorageItem Testcase)
    {neighbour : Option CorpusId}
    (there : ∀ id, neighbour = some id → (map.lookup id).isSome) :
    ∃ updated,
      updateNeighbour map change neighbour = some updated ∧
        ∀ id,
          updated.lookup id =
            if neighbour = some id then (map.lookup id).map change
            else map.lookup id := by
  cases neighbour with
  | none =>
      exact ⟨map, rfl, fun id => rfl⟩
  | some other =>
      obtain ⟨item, found⟩ := Option.isSome_iff_exists.mp (there other rfl)
      refine ⟨map.insert other (change item), ?_, ?_⟩
      · simp [updateNeighbour, updateItem, found]
      · intro id
        by_cases same : id = other
        · subst same
          simp [found]
        · rw [Finmap.lookup_insert_of_ne _ same, if_neg]
          simpa using Ne.symm same

theorem Threaded.extend
    (threaded : Threaded map keys value)
    (nodup : keys.Nodup)
    {idx : CorpusId}
    (above : ∀ id ∈ keys, id < idx)
    {updated : TestcaseStorageMap Testcase}
    (lookups :
      ∀ id,
        updated.lookup id =
          if keys.getLast? = some id then
            (map.lookup id).map ({ · with next := some idx })
          else map.lookup id)
    {valueNow : CorpusId → Option Testcase}
    (same : ∀ id, id ≠ idx → valueNow id = value id)
    {testcase : Testcase}
    (new : valueNow idx = some testcase) :
    Threaded
      (updated.insert idx
        { testcase := testcase, prev := keys.getLast?, next := none })
      (keys ++ [idx]) valueNow := by
  constructor
  · intro before id after split
    rcases List.eq_nil_or_concat' after with rfl | ⟨later, last, rfl⟩
    · obtain ⟨rfl, isIdx⟩ := List.append_inj' split rfl
      obtain rfl : idx = id := by simpa using isIdx
      exact ⟨testcase, new, Finmap.lookup_insert _⟩
    · have splitKeys :
          keys = before ++ id :: later ∧ [idx] = [last] :=
        List.append_inj' (by simpa using split) rfl
      obtain ⟨rfl, isLast⟩ := splitKeys
      obtain rfl : idx = last := by simpa using isLast
      obtain ⟨earlier, isValue, item⟩ :=
        threaded.present before id later rfl
      have apart : id ≠ idx := Nat.ne_of_lt (above id (by simp))
      refine ⟨earlier, (same id apart).trans isValue, ?_⟩
      rw [Finmap.lookup_insert_of_ne _ apart, lookups, item]
      by_cases atEnd : later = []
      · rw [if_pos ((getLast?_eq_some_iff nodup).mpr atEnd), atEnd]
        rfl
      · rw [if_neg (mt (getLast?_eq_some_iff nodup).mp atEnd)]
        cases later with
        | nil =>
            exact absurd rfl atEnd
        | cons next rest =>
            rfl
  · intro id notThere
    simp only [List.mem_append, List.mem_singleton, not_or] at notThere
    rw [Finmap.lookup_insert_of_ne _ notThere.2, lookups,
      threaded.absent id notThere.1]
    split <;> rfl

/-- The thread closes over an id that is taken out. -/
theorem Threaded.close
    {front back : List CorpusId}
    {idx : CorpusId}
    (threaded : Threaded map (front ++ idx :: back) value)
    (nodup : (front ++ idx :: back).Nodup)
    {updated : TestcaseStorageMap Testcase}
    (lookups :
      ∀ id, id ≠ idx →
        updated.lookup id =
          (map.lookup id).map fun item =>
            { testcase := item.testcase
              prev :=
                if back.head? = some id then front.getLast? else item.prev
              next :=
                if front.getLast? = some id then back.head?
                else item.next })
    (gone : updated.lookup idx = none)
    {valueNow : CorpusId → Option Testcase}
    (same : ∀ id, id ≠ idx → valueNow id = value id) :
    Threaded updated (front ++ back) valueNow := by
  have nodupParts : (front ++ back).Nodup :=
    (List.nodup_middle.mp nodup).of_cons
  have notIn : idx ∉ front ++ back :=
    (List.nodup_cons.mp (List.nodup_middle.mp nodup)).1
  constructor
  · intro before id after split
    have apart : id ≠ idx := by
      rintro rfl
      exact notIn (by rw [split]; simp)
    have behind :
        ∀ middle,
          before = front ++ middle →
          back = middle ++ id :: after →
          ∃ testcase,
            valueNow id = some testcase ∧
              updated.lookup id =
                some ⟨testcase, before.getLast?, after.head?⟩ := by
      rintro middle rfl rfl
      obtain ⟨testcase, isValue, item⟩ :=
        threaded.present (front ++ idx :: middle) id after (by simp)
      have notLast : front.getLast? ≠ some id := fun isLast =>
        (List.nodup_append.mp nodupParts).2.2 id
          (List.mem_of_getLast? isLast) id (by simp) rfl
      refine ⟨testcase, (same id apart).trans isValue, ?_⟩
      rw [lookups id apart, item]
      simp only [Option.map_some, if_neg notLast]
      by_cases isFirst : middle = []
      · subst isFirst
        simp
      · have notFirst : (middle ++ id :: after).head? ≠ some id :=
          mt (head?_eq_some_iff (List.nodup_append.mp nodupParts).2.1).mp
            isFirst
        obtain ⟨lastThen, lastNow⟩ :=
          @getLast?_append_cons front middle idx isFirst
        rw [if_neg notFirst, lastThen, lastNow]
    have ahead :
        ∀ middle,
          front = before ++ id :: middle →
          after = middle ++ back →
          ∃ testcase,
            valueNow id = some testcase ∧
              updated.lookup id =
                some ⟨testcase, before.getLast?, after.head?⟩ := by
      rintro middle rfl rfl
      obtain ⟨testcase, isValue, item⟩ :=
        threaded.present before id (middle ++ idx :: back) (by simp)
      have notFirst : back.head? ≠ some id := fun isFirst =>
        (List.nodup_append.mp nodupParts).2.2 id (by simp) id
          (List.mem_of_head? isFirst) rfl
      refine ⟨testcase, (same id apart).trans isValue, ?_⟩
      rw [lookups id apart, item]
      simp only [Option.map_some, if_neg notFirst]
      by_cases isLast : middle = []
      · subst isLast
        simp
      · have notLast : (before ++ id :: middle).getLast? ≠ some id :=
          mt (getLast?_eq_some_iff (List.nodup_append.mp nodupParts).1).mp
            isLast
        obtain ⟨firstThen, firstNow⟩ :=
          @head?_append_cons middle back idx isLast
        rw [if_neg notLast, firstThen, firstNow]
    rcases List.append_eq_append_iff.mp split with
      ⟨middle, beforeSplit, backSplit⟩ | ⟨middle, frontSplit, afterSplit⟩
    · exact behind middle beforeSplit backSplit
    · cases middle with
      | nil =>
          exact behind [] (by simpa using frontSplit.symm)
            (by simpa using afterSplit.symm)
      | cons first middle =>
          obtain ⟨rfl, rfl⟩ := List.cons.inj afterSplit
          exact ahead middle frontSplit rfl
  · intro id notThere
    by_cases isIdx : id = idx
    · exact isIdx ▸ gone
    · rw [lookups id isIdx, threaded.absent id (by
        simp only [List.mem_append, not_or, List.mem_cons] at notThere ⊢
        exact ⟨notThere.1, isIdx, notThere.2⟩)]
      rfl

namespace TestcaseStorage

/-- A linked storage holds what an ordered one holds. -/
structure Refines
    (linked : TestcaseStorage Testcase)
    (ordered : BTree.TestcaseStorage Testcase) : Prop where
  keys : linked.keys = ordered.map.keys
  progressiveIdx : linked.progressiveIdx = ordered.progressiveIdx
  threaded : Threaded linked.map ordered.map.keys ordered.map.get
  firstIdx : linked.firstIdx = ordered.map.keys.head?
  lastIdx : linked.lastIdx = ordered.map.keys.getLast?

variable {linked : TestcaseStorage Testcase}
variable {ordered : BTree.TestcaseStorage Testcase}

theorem refines_new :
    Refines (new : TestcaseStorage Testcase) BTree.TestcaseStorage.new where
  keys := rfl
  progressiveIdx := rfl
  threaded := by
    constructor
    · intro before id after split
      exact absurd split.symm (by simp [BTree.TestcaseStorage.new])
    · intro id _
      exact Finmap.lookup_empty id
  firstIdx := rfl
  lastIdx := rfl

theorem insert_refines
    (refines : Refines linked ordered)
    (testcase : Testcase) :
    ∃ inserted,
      linked.insert testcase = some (ordered.progressiveIdx, inserted) ∧
        Refines inserted (ordered.inserted testcase) := by
  have threaded := refines.threaded
  have above := ordered.below
  have keys :
      (ordered.inserted testcase).map.keys =
        ordered.map.keys ++ [ordered.progressiveIdx] :=
    OrderedMap.keys_insert_of_above above
  have there :
      ∀ id, ordered.map.keys.getLast? = some id →
        (linked.map.lookup id).isSome :=
    fun id isLast => threaded.isSome (List.mem_of_getLast? isLast)
  obtain ⟨updated, updates, lookups⟩ :=
    updateNeighbour_eq
      ({ · with next := some ordered.progressiveIdx }) there
  let inserted : TestcaseStorage Testcase :=
    { map :=
        updated.insert ordered.progressiveIdx
          { testcase := testcase
            prev := ordered.map.keys.getLast?
            next := none }
      keys := insertKey linked.keys ordered.progressiveIdx
      progressiveIdx := ordered.progressiveIdx + 1
      firstIdx :=
        if linked.firstIdx.isNone then some ordered.progressiveIdx
        else linked.firstIdx
      lastIdx := some ordered.progressiveIdx }
  refine ⟨inserted, ?_, ?_⟩
  · simp [insert, refines.progressiveIdx, refines.lastIdx, updates, inserted]
  · refine ⟨?_, rfl, ?_, ?_, ?_⟩
    · rw [keys, ← insertKey_of_above above, ← refines.keys]
    · rw [keys]
      refine threaded.extend ordered.map.nodup_keys above lookups ?_ ?_
      · exact fun id apart => OrderedMap.get_insert_of_ne apart
      · exact OrderedMap.get_insert_self
    · simp only [inserted, keys, refines.firstIdx]
      cases ordered.map.keys <;> rfl
    · simp [inserted, keys]

theorem Refines.get_eq
    (refines : Refines linked ordered)
    (idx : CorpusId) :
    linked.get idx = ordered.get idx := by
  unfold get BTree.TestcaseStorage.get
  by_cases isKey : idx ∈ ordered.map.keys
  · obtain ⟨before, after, split⟩ := List.append_of_mem isKey
    obtain ⟨testcase, isValue, item⟩ :=
      refines.threaded.present before idx after split
    rw [item, isValue]
    rfl
  · rw [refines.threaded.absent idx isKey, OrderedMap.get_eq_none.mpr isKey]
    rfl

theorem replace_refines
    (refines : Refines linked ordered)
    (idx : CorpusId)
    (testcase : Testcase) :
    (linked.replace idx testcase).1 = (ordered.replace idx testcase).1 ∧
      Refines (linked.replace idx testcase).2
        (ordered.replace idx testcase).2 := by
  have sameGet : (linked.map.lookup idx).map (·.testcase) =
      ordered.map.get idx :=
    refines.get_eq idx
  have keys : (ordered.replace idx testcase).2.map.keys = ordered.map.keys :=
    OrderedMap.keys_modify
  have values :
      ∀ id,
        (ordered.replace idx testcase).2.map.get id =
          if id = idx then (ordered.map.get id).map fun _ => testcase
          else ordered.map.get id :=
    fun id => OrderedMap.get_modify
  unfold replace
  cases found : linked.map.lookup idx with
  | none =>
      rw [found] at sameGet
      refine ⟨sameGet, ?_⟩
      refine ⟨refines.keys.trans keys.symm, refines.progressiveIdx, ?_,
        keys ▸ refines.firstIdx, keys ▸ refines.lastIdx⟩
      have unchanged :
          (ordered.replace idx testcase).2.map.get = ordered.map.get := by
        funext id
        rw [values id]
        split
        · rename_i isIdx
          rw [isIdx, ← sameGet]
          rfl
        · rfl
      rw [keys, unchanged]
      exact refines.threaded
  | some entry =>
      rw [found] at sameGet
      refine ⟨sameGet, ?_⟩
      refine ⟨refines.keys.trans keys.symm, refines.progressiveIdx, ?_,
        keys ▸ refines.firstIdx, keys ▸ refines.lastIdx⟩
      rw [keys]
      constructor
      · intro before id after split
        obtain ⟨earlier, isValue, item⟩ :=
          refines.threaded.present before id after split
        by_cases isIdx : id = idx
        · subst isIdx
          refine ⟨testcase, ?_, ?_⟩
          · rw [values id, if_pos rfl, isValue]
            rfl
          · obtain rfl := Option.some.inj (found.symm.trans item)
            exact Finmap.lookup_insert _
        · refine ⟨earlier, ?_, ?_⟩
          · rw [values id, if_neg isIdx, isValue]
          · rw [Finmap.lookup_insert_of_ne _ isIdx, item]
      · intro id notThere
        have isIdx : id ≠ idx := by
          rintro rfl
          rw [refines.threaded.absent id notThere] at found
          cases found
        rw [Finmap.lookup_insert_of_ne _ isIdx]
        exact refines.threaded.absent id notThere

theorem remove_refines
    (refines : Refines linked ordered)
    (idx : CorpusId) :
    ∃ removed,
      linked.remove idx = some ((ordered.remove idx).1, removed) ∧
        Refines removed (ordered.remove idx).2 := by
  have values :
      ∀ id, id ≠ idx →
        (ordered.remove idx).2.map.get id = ordered.map.get id :=
    fun id apart => OrderedMap.get_erase_of_ne apart
  have keysThen : (ordered.remove idx).2.map.keys =
      ordered.map.keys.filter fun id => id ≠ idx :=
    OrderedMap.keys_erase
  by_cases isKey : idx ∈ ordered.map.keys
  · obtain ⟨before, after, split⟩ := List.append_of_mem isKey
    have nodup := ordered.map.nodup_keys
    have threaded := refines.threaded
    have keys : (ordered.remove idx).2.map.keys = before ++ after :=
      OrderedMap.keys_erase_of_split split
    rw [split] at nodup threaded
    obtain ⟨testcase, isValue, item⟩ :=
      threaded.present before idx after rfl
    have notIn : idx ∉ before ++ after :=
      (List.nodup_cons.mp (List.nodup_middle.mp nodup)).1
    have kept :
        ∀ id ∈ before ++ after,
          ((linked.map.erase idx).lookup id).isSome := by
      intro id isId
      have apart : id ≠ idx := fun same => notIn (same ▸ isId)
      rw [Finmap.lookup_erase_ne apart]
      refine threaded.isSome ?_
      simp only [List.mem_append, List.mem_cons] at isId ⊢
      exact isId.imp_right .inr
    obtain ⟨first, updatesFirst, lookupsFirst⟩ :=
      updateNeighbour_eq ({ · with next := after.head? }) fun id isLast =>
        kept id (List.mem_append_left _ (List.mem_of_getLast? isLast))
    obtain ⟨second, updatesSecond, lookupsSecond⟩ :=
      @updateNeighbour_eq _ first ({ · with prev := before.getLast? })
        after.head? fun id isFirst => by
          have there :=
            kept id (List.mem_append_right _ (List.mem_of_head? isFirst))
          rw [lookupsFirst]
          split
          · rw [Option.isSome_map]
            exact there
          · exact there
    let removed : TestcaseStorage Testcase :=
      { linked with
        map := second
        keys := removeKey linked.keys idx
        firstIdx :=
          if before.getLast?.isNone then after.head? else linked.firstIdx
        lastIdx :=
          if after.head?.isNone then before.getLast? else linked.lastIdx }
    refine ⟨removed, ?_, ?_⟩
    · simp [remove, BTree.TestcaseStorage.remove, item, isValue,
        updatesFirst, updatesSecond, removed]
    · refine ⟨?_, refines.progressiveIdx, ?_, ?_, ?_⟩
      · rw [keys]
        have sorted := ordered.map.sorted_keys
        rw [split] at sorted
        simp only [removed, refines.keys, split]
        exact removeKey_of_split sorted
      · rw [keys]
        refine threaded.close nodup ?_ ?_ values
        · intro id apart
          rw [lookupsSecond, lookupsFirst, Finmap.lookup_erase_ne apart]
          cases linked.map.lookup id with
          | none =>
              split <;> split <;> rfl
          | some other =>
              split <;> split <;> rfl
        · rw [lookupsSecond, lookupsFirst, Finmap.lookup_erase]
          split <;> split <;> rfl
      · rw [keys]
        simp only [removed, refines.firstIdx, split]
        cases before with
        | nil =>
            rfl
        | cons front rest =>
            simp
      · rw [keys]
        simp only [removed, refines.lastIdx, split]
        cases after with
        | nil =>
            simp
        | cons next rest =>
            simp
  · have absent := refines.threaded.absent idx isKey
    have noValue := OrderedMap.get_eq_none.mpr isKey
    refine ⟨linked, ?_, ?_⟩
    · unfold remove BTree.TestcaseStorage.remove
      rw [absent, noValue]
    · have keys : (ordered.remove idx).2.map.keys = ordered.map.keys := by
        rw [keysThen, List.filter_eq_self]
        intro id isId
        have apart : id ≠ idx := fun same => isKey (same ▸ isId)
        simpa using apart
      refine ⟨refines.keys.trans keys.symm, refines.progressiveIdx, ?_,
        keys ▸ refines.firstIdx, keys ▸ refines.lastIdx⟩
      have unchanged :
          (ordered.remove idx).2.map.get = ordered.map.get := by
        funext id
        by_cases isIdx : id = idx
        · rw [isIdx, noValue]
          exact OrderedMap.get_erase_self
        · exact values id isIdx
      rw [keys, unchanged]
      exact refines.threaded

end TestcaseStorage

end Linked

/-- A call that changes a storage. -/
inductive Call (Testcase : Type*) where
  | insert (testcase : Testcase)
  | replace (idx : CorpusId) (testcase : Testcase)
  | remove (idx : CorpusId)

/-- What such a call returns. -/
inductive Answer (Testcase : Type*) where
  | inserted (idx : CorpusId)
  | replaced (testcase : Option Testcase)
  | removed (testcase : Option Testcase)
  deriving DecidableEq

/-- The id that was given out, if any. -/
def Answer.inserted? : Answer Testcase → Option CorpusId
  | .inserted idx => some idx
  | .replaced _ => none
  | .removed _ => none

/-- A call on the linked storage; `none` when it panics. -/
def Linked.TestcaseStorage.perform
    (storage : Linked.TestcaseStorage Testcase) :
    Call Testcase → Option (Answer Testcase × Linked.TestcaseStorage Testcase)
  | .insert testcase =>
      (storage.insert testcase).map fun after => (.inserted after.1, after.2)
  | .replace idx testcase =>
      some
        (.replaced (storage.replace idx testcase).1,
          (storage.replace idx testcase).2)
  | .remove idx =>
      (storage.remove idx).map fun after => (.removed after.1, after.2)

/-- The calls one after the other. -/
def Linked.TestcaseStorage.run
    (storage : Linked.TestcaseStorage Testcase) :
    List (Call Testcase) →
    Option (List (Answer Testcase) × Linked.TestcaseStorage Testcase)
  | [] => some ([], storage)
  | call :: calls => do
      let (answer, storage) ← storage.perform call
      let (answers, storage) ← run storage calls
      some (answer :: answers, storage)

/-- A call on the ordered storage. -/
def BTree.TestcaseStorage.perform
    (storage : BTree.TestcaseStorage Testcase) :
    Call Testcase → Answer Testcase × BTree.TestcaseStorage Testcase
  | .insert testcase =>
      (.inserted (storage.insert testcase).1, (storage.insert testcase).2)
  | .replace idx testcase =>
      (.replaced (storage.replace idx testcase).1,
        (storage.replace idx testcase).2)
  | .remove idx =>
      (.removed (storage.remove idx).1, (storage.remove idx).2)

/-- The calls one after the other. -/
def BTree.TestcaseStorage.run
    (storage : BTree.TestcaseStorage Testcase) :
    List (Call Testcase) →
    List (Answer Testcase) × BTree.TestcaseStorage Testcase
  | [] => ([], storage)
  | call :: calls =>
      ((storage.perform call).1 :: (run (storage.perform call).2 calls).1,
        (run (storage.perform call).2 calls).2)

/--
The stored ids are the sorted vector, which is the walk forwards and the walk
backwards.
-/
structure Listed
    (get : CorpusId → Option Testcase)
    (keys : List CorpusId)
    (first last : Option CorpusId)
    (next prev : CorpusId → Option CorpusId) : Prop where
  sorted : keys.Pairwise (· < ·)
  stored : ∀ id, (get id).isSome ↔ id ∈ keys
  forwards : ∀ fuel ≥ keys.length, walk next fuel first = keys
  backwards : ∀ fuel ≥ keys.length, walk prev fuel last = keys.reverse

/-- Two storages that no query tells apart. -/
structure SameAnswers
    (linked : Linked.TestcaseStorage Testcase)
    (ordered : BTree.TestcaseStorage Testcase) : Prop where
  keys : linked.keys = ordered.keys
  first : linked.first = ordered.first
  last : linked.last = ordered.last
  next : ∀ idx, linked.next idx = ordered.next idx
  prev : ∀ idx, linked.prev idx = ordered.prev idx
  nth : ∀ nth, linked.nth nth = ordered.nth nth
  get : ∀ idx, linked.get idx = ordered.get idx

theorem BTree.TestcaseStorage.listed
    (storage : BTree.TestcaseStorage Testcase) :
    Listed storage.get storage.keys storage.first storage.last storage.next
      storage.prev where
  sorted := by
    rw [storage.keys_eq]
    exact storage.map.sorted_keys
  stored := by
    intro id
    rw [storage.keys_eq, OrderedMap.mem_keys, Option.isSome_iff_exists]
    rfl
  forwards := by
    rw [storage.keys_eq]
    intro fuel enough
    exact walk_eq (fun _ _ _ split => next_eq split) enough
  backwards := by
    rw [storage.keys_eq]
    intro fuel enough
    exact walk_reverse_eq (fun _ _ _ split => prev_eq split) enough

namespace Linked.TestcaseStorage.Refines

variable {linked : Linked.TestcaseStorage Testcase}
variable {ordered : BTree.TestcaseStorage Testcase}

theorem sameAnswers (refines : Refines linked ordered) :
    SameAnswers linked ordered where
  keys := refines.keys.trans ordered.keys_eq.symm
  first := refines.firstIdx
  last := refines.lastIdx
  next := by
    intro idx
    unfold next
    by_cases isKey : idx ∈ ordered.map.keys
    · obtain ⟨before, after, split⟩ := List.append_of_mem isKey
      obtain ⟨_, _, item⟩ := refines.threaded.present before idx after split
      rw [item, BTree.TestcaseStorage.next_eq split]
    · rw [refines.threaded.absent idx isKey,
        BTree.TestcaseStorage.next_of_absent isKey]
  prev := by
    intro idx
    unfold prev
    by_cases isKey : idx ∈ ordered.map.keys
    · obtain ⟨before, after, split⟩ := List.append_of_mem isKey
      obtain ⟨_, _, item⟩ := refines.threaded.present before idx after split
      rw [item, BTree.TestcaseStorage.prev_eq split]
    · rw [refines.threaded.absent idx isKey,
        BTree.TestcaseStorage.prev_of_absent isKey]
  nth := by
    intro nth
    unfold TestcaseStorage.nth BTree.TestcaseStorage.nth
    rw [refines.keys, ordered.keys_eq]
  get := refines.get_eq

theorem perform
    (refines : Refines linked ordered)
    (call : Call Testcase) :
    ∃ linkedNext,
      linked.perform call = some ((ordered.perform call).1, linkedNext) ∧
        Refines linkedNext (ordered.perform call).2 := by
  cases call with
  | insert testcase =>
      obtain ⟨inserted, inserts, refinesNext⟩ :=
        insert_refines refines testcase
      refine ⟨inserted, ?_, refinesNext⟩
      simp only [TestcaseStorage.perform, inserts]
      rfl
  | replace idx testcase =>
      obtain ⟨same, refinesNext⟩ := replace_refines refines idx testcase
      refine ⟨_, ?_, refinesNext⟩
      simp only [TestcaseStorage.perform, same]
      rfl
  | remove idx =>
      obtain ⟨removed, removes, refinesNext⟩ := remove_refines refines idx
      refine ⟨removed, ?_, refinesNext⟩
      simp only [TestcaseStorage.perform, removes]
      rfl

theorem run
    (refines : Refines linked ordered)
    (calls : List (Call Testcase)) :
    ∃ linkedFinal,
      linked.run calls = some ((ordered.run calls).1, linkedFinal) ∧
        Refines linkedFinal (ordered.run calls).2 := by
  induction calls generalizing linked ordered with
  | nil =>
      exact ⟨linked, rfl, refines⟩
  | cons call calls ih =>
      obtain ⟨linkedNext, performs, refinesNext⟩ := refines.perform call
      obtain ⟨linkedFinal, runs, refinesFinal⟩ :=
        ih refinesNext
      refine ⟨linkedFinal, ?_, refinesFinal⟩
      simp only [TestcaseStorage.run, performs, Option.bind_eq_bind,
        Option.bind_some, runs]
      rfl

end Linked.TestcaseStorage.Refines

theorem BTree.TestcaseStorage.perform_inserted
    (storage : BTree.TestcaseStorage Testcase)
    (call : Call Testcase) :
    (∀ idx, (storage.perform call).1.inserted? = some idx →
      idx = storage.progressiveIdx ∧
        (storage.perform call).2.progressiveIdx = idx + 1) ∧
      storage.progressiveIdx ≤ (storage.perform call).2.progressiveIdx := by
  cases call with
  | insert testcase =>
      refine ⟨?_, Nat.le_succ _⟩
      rintro idx ⟨⟩
      exact ⟨rfl, rfl⟩
  | replace idx testcase =>
      refine ⟨?_, Nat.le_refl _⟩
      rintro idx ⟨⟩
  | remove idx =>
      refine ⟨?_, Nat.le_refl _⟩
      rintro idx ⟨⟩

theorem BTree.TestcaseStorage.run_inserted
    (storage : BTree.TestcaseStorage Testcase)
    (calls : List (Call Testcase)) :
    (∀ idx ∈ (storage.run calls).1.filterMap Answer.inserted?,
      storage.progressiveIdx ≤ idx) ∧
      ((storage.run calls).1.filterMap Answer.inserted?).Pairwise (· < ·) := by
  induction calls generalizing storage with
  | nil =>
      exact ⟨by simp [run], .nil⟩
  | cons call calls ih =>
      obtain ⟨given, grows⟩ := storage.perform_inserted call
      obtain ⟨later, increasing⟩ :=
        ih (storage.perform call).2
      have laterThen :
          ∀ idx ∈ ((storage.perform call).2.run calls).1.filterMap
              Answer.inserted?,
            storage.progressiveIdx ≤ idx :=
        fun idx isGiven => grows.trans (later idx isGiven)
      rw [run, List.filterMap_cons]
      cases answer : (storage.perform call).1.inserted? with
      | none =>
          exact ⟨laterThen, increasing⟩
      | some idx =>
          obtain ⟨isCounter, next⟩ := given idx answer
          refine ⟨?_, List.pairwise_cons.mpr ⟨?_, increasing⟩⟩
          · intro other isGiven
            cases isGiven with
            | head =>
                exact Nat.le_of_eq isCounter.symm
            | tail _ isLater =>
                exact laterThen other isLater
          · intro other isLater
            have above := later other isLater
            rw [next] at above
            exact above

/--
Whatever is inserted, replaced and removed, both storages list their ids in
order, forwards and backwards, they never give an id out again, and no call and
no query tells them apart.
-/
theorem storages_refine_ordered_map (calls : List (Call Testcase)) :
    ∃ answers linked ordered,
      Linked.TestcaseStorage.new.run calls = some (answers, linked) ∧
        BTree.TestcaseStorage.new.run calls = (answers, ordered) ∧
        Listed linked.get linked.keys linked.first linked.last linked.next
          linked.prev ∧
        Listed ordered.get ordered.keys ordered.first ordered.last
          ordered.next ordered.prev ∧
        SameAnswers linked ordered ∧
        (answers.filterMap Answer.inserted?).Pairwise (· < ·) := by
  obtain ⟨linked, runs, refines⟩ :=
    (Linked.TestcaseStorage.refines_new).run calls
  have same := refines.sameAnswers
  have listed := (BTree.TestcaseStorage.new.run calls).2.listed
  refine ⟨_, linked, _, runs, rfl, ?_, listed, same,
    (BTree.TestcaseStorage.new.run_inserted calls).2⟩
  have sameGet := funext same.get
  have sameNext := funext same.next
  have samePrev := funext same.prev
  rw [sameGet, same.keys, same.first, same.last, sameNext, samePrev]
  exact listed

end MeFuzz.Corpus
