import MeFuzz.MapObservers

namespace MeFuzz.Feedbacks

/-!
# Classes of hit counts

After an execution the observers of hit counts replace each byte of the map by its
class.  One observer does so byte by byte, the other one takes two bytes at a time and
looks their classes up in a table of all words.
-/

set_option maxRecDepth 2000 in
/-- `COUNT_CLASS_LOOKUP`. -/
def countClassLookup : List UInt8 :=
  [0, 1, 2, 4, 8, 8, 8, 8, 16, 16, 16, 16, 16, 16, 16, 16, 32, 32, 32, 32, 32, 32, 32, 32, 32, 32,
   32, 32, 32, 32, 32, 32, 64, 64, 64, 64, 64, 64, 64, 64, 64, 64, 64, 64, 64, 64, 64, 64, 64, 64,
   64, 64, 64, 64, 64, 64, 64, 64, 64, 64, 64, 64, 64, 64, 64, 64, 64, 64, 64, 64, 64, 64, 64, 64,
   64, 64, 64, 64, 64, 64, 64, 64, 64, 64, 64, 64, 64, 64, 64, 64, 64, 64, 64, 64, 64, 64, 64, 64,
   64, 64, 64, 64, 64, 64, 64, 64, 64, 64, 64, 64, 64, 64, 64, 64, 64, 64, 64, 64, 64, 64, 64, 64,
   64, 64, 64, 64, 64, 64, 128, 128, 128, 128, 128, 128, 128, 128, 128, 128, 128, 128, 128, 128,
   128, 128, 128, 128, 128, 128, 128, 128, 128, 128, 128, 128, 128, 128, 128, 128, 128, 128, 128,
   128, 128, 128, 128, 128, 128, 128, 128, 128, 128, 128, 128, 128, 128, 128, 128, 128, 128, 128,
   128, 128, 128, 128, 128, 128, 128, 128, 128, 128, 128, 128, 128, 128, 128, 128, 128, 128, 128,
   128, 128, 128, 128, 128, 128, 128, 128, 128, 128, 128, 128, 128, 128, 128, 128, 128, 128, 128,
   128, 128, 128, 128, 128, 128, 128, 128, 128, 128, 128, 128, 128, 128, 128, 128, 128, 128, 128,
   128, 128, 128, 128, 128, 128, 128, 128, 128, 128, 128, 128, 128, 128, 128, 128, 128, 128, 128]

/-- The class at an index of the table. -/
def classAt (index : Nat) : UInt8 :=
  countClassLookup.getD index 0

/-- The class of a hit count. -/
def countClass (count : UInt8) : UInt8 :=
  classAt count.toNat

/-- The classes of two indexes as a word. -/
def classWord (i j : Nat) : UInt16 :=
  ((classAt i).toUInt16 <<< 8) ||| (classAt j).toUInt16

/-- `init_count_class_16`: the table of all words. -/
def initCountClass16 : Array UInt16 :=
  (List.range 256).foldl
    (fun table i =>
      (List.range 256).foldl
        (fun table j => table.setIfInBounds ((i <<< 8) + j) (classWord i j)) table)
    (Array.replicate 65536 0)

/-- The order of the bytes of a word in memory. -/
inductive ByteOrder where
  | little
  | big

/-- Two bytes of memory read as a word. -/
def ByteOrder.word : ByteOrder → UInt8 → UInt8 → UInt16
  | .little, first, second => (second.toUInt16 <<< 8) ||| first.toUInt16
  | .big, first, second => (first.toUInt16 <<< 8) ||| second.toUInt16

/-- A word written to two bytes of memory. -/
def ByteOrder.bytes : ByteOrder → UInt16 → UInt8 × UInt8
  | .little, word => (word.toUInt8, (word >>> 8).toUInt8)
  | .big, word => ((word >>> 8).toUInt8, word.toUInt8)

/-- The loop over the words at the start of a map. -/
def classifyWords (order : ByteOrder) : Nat → List UInt8 → List UInt8
  | 0, map => map
  | cnt + 1, first :: second :: rest =>
      let item := initCountClass16.getD (order.word first second).toNat 0
      (order.bytes item).1 :: (order.bytes item).2 :: classifyWords order cnt rest
  | _ + 1, map => map

/-- `HitcountsMapObserver::post_exec` on the slice of its base. -/
def hitcountsPostExec (order : ByteOrder) (map : List UInt8) : List UInt8 :=
  let len := map.length
  let map :=
    if len % 2 ≠ 0 then map.set (len - 1) (countClass (map.getD (len - 1) 0)) else map
  classifyWords order (len / 2) map

/-- `HitcountsIterableMapObserver::post_exec` on the usable part of its base. -/
def hitcountsIterablePostExec (usableCount : Nat) (map : List UInt8) : List UInt8 :=
  (map.take usableCount).map countClass ++ map.drop usableCount

namespace Observer

/-- `post_exec` of an observer: those of hit counts do theirs, then that of their base. -/
def postExec (order : ByteOrder) : Observer UInt8 → List UInt8 → List UInt8
  | .hitcounts base, map => base.postExec order (hitcountsPostExec order map)
  | .hitcountsIterable base, map =>
      base.postExec order
        (hitcountsIterablePostExec base.toMapObserver.usableCount map)
  | _, map => map

/-- How often an observer classifies the hit counts. -/
def classifications {T : Type} : Observer T → Nat
  | .hitcounts base => base.classifications + 1
  | .hitcountsIterable base => base.classifications + 1
  | _ => 0

/-- The part of a map that an observer uses. -/
def usable (observer : Observer UInt8) (map : List UInt8) : List UInt8 :=
  map.take observer.toMapObserver.usableCount

end Observer

theorem getD_foldl_setIfInBounds
    {Item Value : Type}
    {place : Item → Nat}
    {value : Item → Value}
    {items : List Item}
    {item : Item}
    {table : Array Value}
    {default : Value}
    (isItem : item ∈ items)
    (agree : ∀ other ∈ items, place other = place item → value other = value item)
    (inTable : place item < table.size) :
    (items.foldl (fun table item => table.setIfInBounds (place item) (value item))
        table).getD (place item) default =
      value item := by
  induction items using List.reverseRecOn with
  | nil =>
      cases isItem
  | append_singleton front last ih =>
      have size :
          ∀ items : List Item,
            (items.foldl
                (fun table item => table.setIfInBounds (place item) (value item))
                table).size =
              table.size := by
        intro items
        induction items using List.reverseRecOn with
        | nil =>
            rfl
        | append_singleton front last ih =>
            rw [List.foldl_concat, Array.size_setIfInBounds, ih]
      rw [List.foldl_concat, Array.getD_eq_getD_getElem?, Array.getElem?_setIfInBounds]
      by_cases same : place last = place item
      · rw [if_pos same, if_pos (by rw [size, same]; exact inTable)]
        exact agree last (List.mem_append_right _ List.mem_cons_self) same
      · rw [if_neg same, ← Array.getD_eq_getD_getElem?]
        refine ih ?_ fun other isOther =>
          agree other (List.mem_append_left _ isOther)
        rcases List.mem_append.mp isItem with isFront | isLast
        · exact isFront
        · exact absurd (congrArg place (List.mem_singleton.mp isLast)).symm same

theorem getD_initCountClass16
    {i j : Nat}
    (iBelow : i < 256)
    (jBelow : j < 256) :
    initCountClass16.getD ((i <<< 8) + j) 0 = classWord i j := by
  let pairs := (List.range 256).flatMap fun i => (List.range 256).map fun j => (i, j)
  have mem_pairs : ∀ pair : Nat × Nat, pair ∈ pairs ↔ pair.1 < 256 ∧ pair.2 < 256 := by
    rintro ⟨i, j⟩
    simp [pairs]
  have table :
      initCountClass16 =
        pairs.foldl
          (fun table pair =>
            table.setIfInBounds ((pair.1 <<< 8) + pair.2) (classWord pair.1 pair.2))
          (Array.replicate 65536 0) := by
    simp only [initCountClass16, pairs, List.foldl_flatMap, List.foldl_map]
  rw [table]
  refine
    @getD_foldl_setIfInBounds _ _ (fun pair : Nat × Nat => (pair.1 <<< 8) + pair.2)
      (fun pair => classWord pair.1 pair.2) pairs (i, j) _ _ ?_ ?_ ?_
  · exact (mem_pairs (i, j)).mpr ⟨iBelow, jBelow⟩
  · rintro ⟨other, another⟩ isPair same
    obtain ⟨otherBelow, anotherBelow⟩ := (mem_pairs _).mp isPair
    simp only [Nat.shiftLeft_eq] at same otherBelow anotherBelow
    obtain ⟨rfl, rfl⟩ : other = i ∧ another = j := by omega
    rfl
  · rw [Array.size_replicate, Nat.shiftLeft_eq]
    omega

theorem toNat_word (high low : UInt8) :
    ((high.toUInt16 <<< 8) ||| low.toUInt16).toNat = (high.toNat <<< 8) + low.toNat := by
  have highBelow := high.toNat_lt
  have lowBelow := low.toNat_lt
  have fits : high.toNat <<< 8 < 65536 := by
    rw [Nat.shiftLeft_eq]
    omega
  rw [UInt16.toNat_or, UInt16.toNat_shiftLeft, UInt8.toNat_toUInt16, UInt8.toNat_toUInt16,
    Nat.shiftLeft_add_eq_or_of_lt lowBelow]
  simp [Nat.mod_eq_of_lt fits]

theorem bytes_word (high low : UInt8) :
    (((high.toUInt16 <<< 8) ||| low.toUInt16) >>> 8).toUInt8 = high ∧
      ((high.toUInt16 <<< 8) ||| low.toUInt16).toUInt8 = low := by
  have highBelow := high.toNat_lt
  have lowBelow := low.toNat_lt
  constructor
  · apply UInt8.toNat_inj.mp
    rw [UInt16.toNat_toUInt8, UInt16.toNat_shiftRight, toNat_word, Nat.shiftLeft_eq]
    simp [Nat.shiftRight_eq_div_pow]
    omega
  · apply UInt8.toNat_inj.mp
    rw [UInt16.toNat_toUInt8, toNat_word, Nat.shiftLeft_eq]
    omega

theorem bytes_item (order : ByteOrder) (first second : UInt8) :
    order.bytes (initCountClass16.getD (order.word first second).toNat 0) =
      (countClass first, countClass second) := by
  have item :
      ∀ high low : UInt8,
        initCountClass16.getD
            ((high.toUInt16 <<< 8) ||| low.toUInt16).toNat 0 =
          classWord high.toNat low.toNat := by
    intro high low
    rw [toNat_word]
    exact getD_initCountClass16 high.toNat_lt low.toNat_lt
  cases order with
  | little =>
      rw [ByteOrder.word, item, ByteOrder.bytes, classWord]
      exact Prod.ext (bytes_word _ _).2 (bytes_word _ _).1
  | big =>
      rw [ByteOrder.word, item, ByteOrder.bytes, classWord]
      exact Prod.ext (bytes_word _ _).1 (bytes_word _ _).2

theorem classifyWords_eq
    (order : ByteOrder)
    {cnt : Nat}
    {map : List UInt8}
    (fits : 2 * cnt ≤ map.length) :
    classifyWords order cnt map =
      (map.take (2 * cnt)).map countClass ++ map.drop (2 * cnt) := by
  induction cnt generalizing map with
  | zero =>
      rfl
  | succ cnt ih =>
      match map, fits with
      | first :: second :: rest, fits =>
          have restFits : 2 * cnt ≤ rest.length := by
            simp only [List.length_cons] at fits
            omega
          rw [classifyWords, bytes_item, ih restFits]
          rfl

theorem hitcountsPostExec_eq (order : ByteOrder) (map : List UInt8) :
    hitcountsPostExec order map = map.map countClass := by
  unfold hitcountsPostExec
  dsimp only
  by_cases isOdd : map.length % 2 ≠ 0
  · obtain rfl | ⟨front, last, rfl⟩ := List.eq_nil_or_concat' map
    · exact absurd rfl isOdd
    · have half : 2 * ((front ++ [last]).length / 2) = front.length := by
        simp only [List.length_append, List.length_singleton] at isOdd ⊢
        omega
      have fits : 2 * ((front ++ [last]).length / 2) ≤ (front ++ [countClass last]).length := by
        rw [half, List.length_append]
        exact Nat.le_add_right _ _
      have lastIndex : (front ++ [last]).length - 1 = front.length := by
        simp
      rw [if_pos isOdd, lastIndex, List.set_append_right _ _ le_rfl,
        List.getD_append_right _ _ _ _ le_rfl, Nat.sub_self]
      change classifyWords order _ (front ++ [countClass last]) = _
      rw [classifyWords_eq order fits, half, List.take_left', List.drop_left',
        List.map_append]
      · rfl
      · rfl
      · rfl
  · have half : 2 * (map.length / 2) = map.length := by
      omega
    rw [if_neg isOdd, classifyWords_eq order half.le, half, List.take_length,
      List.drop_length, List.append_nil]

theorem take_hitcountsIterablePostExec
    (usableCount : Nat)
    (map : List UInt8) :
    (hitcountsIterablePostExec usableCount map).take usableCount =
      (map.take usableCount).map countClass := by
  unfold hitcountsIterablePostExec
  rw [List.take_append, List.take_of_length_le (by simp)]
  by_cases fits : usableCount ≤ map.length
  · simp [fits]
  · simp [List.drop_of_length_le (not_le.mp fits).le]

namespace Observer

theorem classifications_hitcounts (base : Observer UInt8) :
    (hitcounts base).classifications = base.classifications + 1 :=
  rfl

theorem classifications_hitcountsIterable (base : Observer UInt8) :
    (hitcountsIterable base).classifications = base.classifications + 1 :=
  rfl

theorem usable_hitcounts
    (base : Observer UInt8)
    (map : List UInt8) :
    (hitcounts base).usable map = base.usable map :=
  rfl

theorem usable_hitcountsIterable
    (base : Observer UInt8)
    (map : List UInt8) :
    (hitcountsIterable base).usable map = base.usable map :=
  rfl

theorem usable_postExec (order : ByteOrder) :
    ∀ (observer : Observer UInt8) (map : List UInt8),
      observer.usable (observer.postExec order map) =
        (observer.usable map).map (countClass^[observer.classifications])
  | .std _, _ => by
      simp [postExec, classifications]
  | .const _ _, _ => by
      simp [postExec, classifications]
  | .variableSized _, _ => by
      simp [postExec, classifications]
  | .multi _, _ => by
      simp [postExec, classifications]
  | .owned _, _ => by
      simp [postExec, classifications]
  | .hitcounts base, map => by
      have inner := usable_postExec order base (hitcountsPostExec order map)
      rw [postExec, classifications, usable_hitcounts, usable_hitcounts, inner,
        Function.iterate_succ, ← List.map_map, hitcountsPostExec_eq]
      exact congrArg (List.map _) List.map_take.symm
  | .hitcountsIterable base, map => by
      have inner :=
        usable_postExec order base
          (hitcountsIterablePostExec base.toMapObserver.usableCount map)
      rw [postExec, classifications, usable_hitcountsIterable, usable_hitcountsIterable,
        inner, Function.iterate_succ, ← List.map_map, usable, usable,
        take_hitcountsIterablePostExec]

/--
Whatever the base, the map and the order of bytes, both observers of hit counts leave
the same usable part.  Each of its bytes is replaced by its class, once more than the
base does so itself.
-/
theorem hitcounts_observers_agree
    (order : ByteOrder)
    (base : Observer UInt8)
    (map : List UInt8) :
    (hitcounts base).usable ((hitcounts base).postExec order map) =
        (hitcountsIterable base).usable ((hitcountsIterable base).postExec order map) ∧
      (hitcounts base).usable ((hitcounts base).postExec order map) =
        (base.usable map).map (countClass^[base.classifications + 1]) := by
  have words := usable_postExec order (.hitcounts base) map
  have bytes := usable_postExec order (.hitcountsIterable base) map
  rw [classifications_hitcounts] at words
  rw [classifications_hitcountsIterable] at bytes
  exact ⟨words.trans bytes.symm, words⟩

end Observer

end MeFuzz.Feedbacks
