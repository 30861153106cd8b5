import Mathlib

namespace MeFuzz.CoreLists

/-!
# Lists of cores on the command line

A list has numbers and ranges of numbers between its commas.  This module gives
what such a list means on its own, and compares what the parser returns with it.
-/

/-- `usize::MAX`. -/
def usizeMax : Nat := 2 ^ 64 - 1

/-- `IntErrorKind`. -/
inductive IntErrorKind where
  | empty
  | invalidDigit
  | posOverflow
  deriving Repr, DecidableEq

/-- `Error`, as far as the parser fails with it. -/
inductive Error where
  | parseInt (kind : IntErrorKind)
  | illegalArgument (message : String)
  | coreIds (message : String)
  deriving Repr, DecidableEq

/-- `CoreId`. -/
structure CoreId where
  id : Nat
  deriving Repr, DecidableEq

/-- `Cores`. -/
structure Cores where
  cmdline : String
  ids : List CoreId
  deriving Repr, DecidableEq

/-- The digits of a number, after those that make up a value. -/
def parseDigits : Nat → List Char → Except IntErrorKind Nat
  | value, [] => .ok value
  | value, c :: rest =>
      if c.isDigit then
        if usizeMax < 10 * value then .error .posOverflow
        else
          let value := 10 * value + (c.toNat - '0'.toNat)
          if usizeMax < value then .error .posOverflow
          else parseDigits value rest
      else .error .invalidDigit

/-- `str::parse::<usize>`. -/
def parse (text : List Char) : Except IntErrorKind Nat :=
  match text with
  | [] => .error .empty
  | c :: rest =>
      if (c = '+' ∨ c = '-') ∧ rest = [] then .error .invalidDigit
      else if c = '+' then parseDigits 0 rest
      else parseDigits 0 (c :: rest)

/-- The numbers from one up to another one. -/
def inclusive (first last : Nat) : List CoreId :=
  (List.range' first (last + 1 - first)).map CoreId.mk

/-- `?` on a number. -/
def number (text : List Char) : Except Error Nat :=
  (parse text).mapError .parseInt

/-- One pass of the loop of `from_cmdline`. -/
def pushItem (cores : List CoreId) (csv : List Char) : Except Error (List CoreId) :=
  match csv.splitOn '-' with
  | [single] => do
      let id ← number single
      pure (cores ++ [⟨id⟩])
  | [first, last] => do
      let first ← number first
      let last ← number last
      pure (cores ++ inclusive first last)
  | _ => pure cores

/-- `Cores::from_cmdline`, where the system may have told how many cores it has. -/
def fromCmdline (coreIds : Except Error Nat) (args : String) : Except Error Cores := do
  let cores ←
    if args = "all" then do
      let numCores ← coreIds
      pure ((List.range numCores).map CoreId.mk)
    else (args.toList.splitOn ',').foldlM pushItem []
  if cores = [] then
    throw (.illegalArgument s!"No cores specified! parsed: {args}")
  pure
    { cmdline := args
      ids := cores }

/-- A number is written with digits, perhaps after a plus sign. -/
def Numeral (text : List Char) (value : Nat) : Prop :=
  ∃ digits,
    (text = digits ∨ text = '+' :: digits) ∧
      digits ≠ [] ∧ (∀ c ∈ digits, c.isDigit = true) ∧
        value = Nat.ofDigitChars 10 digits 0 ∧ value ≤ usizeMax

/-- An item of a list. -/
inductive Item where
  | number (id : Nat)
  | range (first last : Nat)
  deriving Repr, DecidableEq

/-- How an item is written. -/
def Item.Spelled : Item → List Char → Prop
  | .number id, text => Numeral text id
  | .range first last, text =>
      ∃ left right,
        text = left ++ '-' :: right ∧ Numeral left first ∧ Numeral right last

/-- The cores of an item. -/
def Item.cores : Item → List CoreId
  | .number id => [⟨id⟩]
  | .range first last => inclusive first last

/-- A text is a list of items, with commas between them. -/
def Lists (args : List Char) (items : List Item) : Prop :=
  items ≠ [] ∧
    ∃ texts,
      args = [','].intercalate texts ∧ List.Forall₂ Item.Spelled items texts

theorem le_ofDigitChars
    (digits : List Char)
    (value : Nat) :
    value ≤ Nat.ofDigitChars 10 digits value := by
  induction digits generalizing value with
  | nil =>
      simp
  | cons c rest ih =>
      rw [Nat.ofDigitChars_cons]
      exact (by omega : value ≤ _).trans (ih _)

theorem parseDigits_eq_ok_iff
    {digits : List Char}
    {start value : Nat}
    (small : start ≤ usizeMax) :
    parseDigits start digits = .ok value ↔
      (∀ c ∈ digits, c.isDigit = true) ∧
        value = Nat.ofDigitChars 10 digits start ∧ value ≤ usizeMax := by
  induction digits generalizing start with
  | nil =>
      simp only [parseDigits, Except.ok.injEq, Nat.ofDigitChars_nil]
      constructor
      · rintro rfl
        exact ⟨by simp, rfl, small⟩
      · rintro ⟨_, rfl, _⟩
        rfl
  | cons c rest ih =>
      have grows :=
        le_ofDigitChars rest (10 * start + (c.toNat - '0'.toNat))
      rw [parseDigits, Nat.ofDigitChars_cons, List.forall_mem_cons]
      split
      next isDigit =>
        split
        · simp only [reduceCtorEq, false_iff]
          omega
        · dsimp only
          split
          · simp only [reduceCtorEq, false_iff]
            omega
          · rw [ih (by omega)]
            simp [isDigit]
      next notDigit =>
        simp [notDigit]

theorem numeral_of_digits
    {digits : List Char}
    {value : Nat}
    (some : digits ≠ []) :
    parseDigits 0 digits = .ok value ↔
      digits ≠ [] ∧ (∀ c ∈ digits, c.isDigit = true) ∧
        value = Nat.ofDigitChars 10 digits 0 ∧ value ≤ usizeMax := by
  rw [parseDigits_eq_ok_iff (Nat.zero_le _)]
  exact (and_iff_right some).symm

theorem parse_eq_ok_iff
    {text : List Char}
    {value : Nat} :
    parse text = .ok value ↔ Numeral text value := by
  unfold parse
  cases text with
  | nil =>
      simp [Numeral]
  | cons c rest =>
      dsimp only
      by_cases lone : (c = '+' ∨ c = '-') ∧ rest = []
      · obtain ⟨isSign, rfl⟩ := lone
        simp only [isSign, and_self, if_true, reduceCtorEq, false_iff]
        rintro ⟨digits, isText, some, areDigits, _⟩
        rcases isText with rfl | isText
        · have isDigit := areDigits c (List.mem_singleton.mpr rfl)
          rcases isSign with rfl | rfl <;> exact absurd isDigit (by decide)
        · exact some (List.cons.inj isText).2.symm
      · rw [if_neg lone]
        by_cases plus : c = '+'
        · subst plus
          have some : rest ≠ [] := fun none => lone ⟨.inl rfl, none⟩
          rw [if_pos rfl, numeral_of_digits some]
          constructor
          · exact fun written => ⟨rest, .inr rfl, written⟩
          · rintro ⟨digits, isText, others, areDigits, written⟩
            rcases isText with rfl | isText
            · exact absurd (areDigits '+' (List.mem_cons_self ..)) (by decide)
            · obtain rfl := (List.cons.inj isText).2
              exact ⟨others, areDigits, written⟩
        · rw [if_neg plus, numeral_of_digits (List.cons_ne_nil c rest)]
          constructor
          · exact fun written => ⟨c :: rest, .inl rfl, written⟩
          · rintro ⟨digits, isText, written⟩
            rcases isText with rfl | isText
            · exact written
            · exact absurd (List.cons.inj isText).1 plus

theorem number_eq_ok_iff
    {text : List Char}
    {value : Nat} :
    number text = .ok value ↔ Numeral text value := by
  rw [← parse_eq_ok_iff]
  unfold number
  cases parse text <;> simp [Except.mapError]

theorem Numeral.not_mem
    {text : List Char}
    {value : Nat}
    (numeral : Numeral text value)
    {c : Char}
    (notDigit : c.isDigit = false)
    (notPlus : c ≠ '+') :
    c ∉ text := by
  obtain ⟨digits, isText, _, areDigits, _⟩ := numeral
  have notIn : c ∉ digits := by
    intro member
    rw [areDigits c member] at notDigit
    cases notDigit
  rcases isText with rfl | rfl
  · exact notIn
  · simp [notPlus, notIn]

theorem Item.Spelled.not_mem
    {item : Item}
    {text : List Char}
    (spelled : item.Spelled text) :
    ',' ∉ text := by
  cases item with
  | number id =>
      exact Numeral.not_mem spelled (by decide) (by decide)
  | range first last =>
      obtain ⟨left, right, rfl, isFirst, isLast⟩ := spelled
      have notLeft := isFirst.not_mem (c := ',') (by decide) (by decide)
      have notRight := isLast.not_mem (c := ',') (by decide) (by decide)
      simp [notLeft, notRight]

theorem splitOn_range
    {left right : List Char}
    (notLeft : '-' ∉ left)
    (notRight : '-' ∉ right) :
    (left ++ '-' :: right).splitOn '-' = [left, right] := by
  rw [List.splitOn_append_cons_self_of_not_mem notLeft,
    List.splitOn_eq_singleton notRight]

theorem dash_cases
    {text : List Char}
    (dashes : text.count '-' ≤ 1) :
    '-' ∉ text ∨
    ∃ left right, text = left ++ '-' :: right ∧ '-' ∉ left ∧ '-' ∉ right := by
  by_cases member : '-' ∈ text
  · obtain ⟨left, right, rfl⟩ := List.append_of_mem member
    rw [List.count_append, List.count_cons_self] at dashes
    exact .inr ⟨left, right, rfl, List.count_eq_zero.mp (by omega),
      List.count_eq_zero.mp (by omega)⟩
  · exact .inl member

theorem pushItem_eq_ok_iff
    {cores after : List CoreId}
    {csv : List Char}
    (dashes : csv.count '-' ≤ 1) :
    pushItem cores csv = .ok after ↔
      ∃ item : Item, item.Spelled csv ∧ after = cores ++ item.cores := by
  unfold pushItem
  rcases dash_cases dashes with none | ⟨left, right, rfl, notLeft, notRight⟩
  · rw [List.splitOn_eq_singleton none]
    dsimp only
    constructor
    · intro pushed
      cases read : number csv with
      | error error =>
          rw [read] at pushed
          cases pushed
      | ok id =>
          rw [read] at pushed
          cases pushed
          exact ⟨.number id, number_eq_ok_iff.mp read, rfl⟩
    · rintro ⟨item, spelled, rfl⟩
      cases item with
      | number id =>
          rw [number_eq_ok_iff.mpr spelled]
          rfl
      | range first last =>
          obtain ⟨left, right, rfl, _⟩ := spelled
          simp at none
  · rw [splitOn_range notLeft notRight]
    dsimp only
    constructor
    · intro pushed
      cases isFirst : number left with
      | error error =>
          rw [isFirst] at pushed
          cases pushed
      | ok first =>
          cases isLast : number right with
          | error error =>
              rw [isFirst, isLast] at pushed
              cases pushed
          | ok last =>
              rw [isFirst, isLast] at pushed
              cases pushed
              exact ⟨.range first last,
                ⟨left, right, rfl, number_eq_ok_iff.mp isFirst,
                  number_eq_ok_iff.mp isLast⟩, rfl⟩
    · rintro ⟨item, spelled, rfl⟩
      cases item with
      | number id =>
          have noDash := Numeral.not_mem spelled (c := '-') (by decide) (by decide)
          simp at noDash
      | range first last =>
          obtain ⟨otherLeft, otherRight, same, isFirst, isLast⟩ := spelled
          have split := congrArg (List.splitOn '-') same
          rw [splitOn_range notLeft notRight,
            splitOn_range (isFirst.not_mem (by decide) (by decide))
              (isLast.not_mem (by decide) (by decide))] at split
          obtain ⟨rfl, rest⟩ := List.cons.inj split
          obtain rfl := (List.cons.inj rest).1
          rw [number_eq_ok_iff.mpr isFirst, number_eq_ok_iff.mpr isLast]
          rfl

/-- An item with more dashes meets neither length check: it is left out without an error. -/
theorem pushItem_of_more_dashes
    (cores : List CoreId)
    {csv : List Char}
    (dashes : 1 < csv.count '-') :
    pushItem cores csv = .ok cores := by
  obtain ⟨left, right, rfl, notLeft⟩ :=
    List.eq_append_cons_of_mem (List.count_pos_iff.mp (Nat.zero_lt_of_lt dashes))
  rw [List.count_append, List.count_cons_self, List.count_eq_zero.mpr notLeft] at dashes
  obtain ⟨middle, last, rfl, notMiddle⟩ :=
    List.eq_append_cons_of_mem
      (List.count_pos_iff.mp (show 0 < right.count '-' by omega))
  unfold pushItem
  rw [List.splitOn_append_cons_self_of_not_mem notLeft,
    List.splitOn_append_cons_self_of_not_mem notMiddle]
  cases parts : last.splitOn '-' with
  | nil =>
      exact absurd parts (List.splitOn_ne_nil _ _)
  | cons part rest =>
      rfl

theorem foldlM_pushItem_eq_ok_iff
    {texts : List (List Char)}
    (dashes : ∀ text ∈ texts, text.count '-' ≤ 1)
    {cores after : List CoreId} :
    texts.foldlM pushItem cores = .ok after ↔
      ∃ items, List.Forall₂ Item.Spelled items texts ∧
        after = cores ++ items.flatMap Item.cores := by
  induction texts generalizing cores with
  | nil =>
      constructor
      · intro pushed
        cases pushed
        exact ⟨[], .nil, by simp⟩
      · rintro ⟨items, spelled, rfl⟩
        cases spelled
        simp [pure, Except.pure]
  | cons text rest ih =>
      obtain ⟨first, others⟩ := List.forall_mem_cons.mp dashes
      rw [List.foldlM_cons]
      constructor
      · intro pushed
        cases pushes : pushItem cores text with
        | error error =>
            rw [pushes] at pushed
            cases pushed
        | ok middle =>
            rw [pushes] at pushed
            obtain ⟨item, spelled, rfl⟩ := (pushItem_eq_ok_iff first).mp pushes
            obtain ⟨items, areSpelled, rfl⟩ :=
              (ih others).mp pushed
            exact ⟨item :: items, .cons spelled areSpelled, by simp⟩
      · rintro ⟨items, spelled, rfl⟩
        cases spelled with
        | cons isFirst areOthers =>
            rename_i item items
            rw [(pushItem_eq_ok_iff first).mpr ⟨item, isFirst, rfl⟩]
            exact (ih others).mpr
              ⟨items, areOthers, by simp⟩

theorem not_mem_of_spelled
    {items : List Item}
    {texts : List (List Char)}
    (spelled : List.Forall₂ Item.Spelled items texts) :
    ∀ text ∈ texts, ',' ∉ text := by
  induction spelled with
  | nil =>
      simp
  | cons isFirst _ ih =>
      exact List.forall_mem_cons.mpr ⟨isFirst.not_mem, ih⟩

theorem lists_iff
    {args : List Char}
    {items : List Item} :
    Lists args items ↔ List.Forall₂ Item.Spelled items (args.splitOn ',') := by
  constructor
  · rintro ⟨some, texts, rfl, spelled⟩
    rw [List.splitOn_intercalate]
    · exact spelled
    · exact not_mem_of_spelled spelled
    · rintro rfl
      cases spelled
      exact some rfl
  · intro spelled
    refine ⟨?_, args.splitOn ',', (List.intercalate_splitOn ',').symm, spelled⟩
    rintro rfl
    cases split : args.splitOn ',' with
    | nil =>
        exact List.splitOn_ne_nil ',' args split
    | cons text rest =>
        rw [split] at spelled
        cases spelled

theorem fromCmdline_eq_ok
    {coreIds : Except Error Nat}
    {args : String}
    (notAll : args ≠ "all")
    {cores : Cores} :
    fromCmdline coreIds args = .ok cores ↔
      (args.toList.splitOn ',').foldlM pushItem [] = .ok cores.ids ∧
        cores.ids ≠ [] ∧ cores.cmdline = args := by
  obtain ⟨cmdline, ids⟩ := cores
  unfold fromCmdline
  rw [if_neg notAll]
  cases (args.toList.splitOn ',').foldlM pushItem [] with
  | error error =>
      constructor
      · intro accepted
        cases accepted
      · rintro ⟨pushes, _⟩
        cases pushes
  | ok pushed =>
      change
        (if pushed = [] then Except.error _ else Except.ok (Cores.mk args pushed)) =
            _ ↔
          _
      by_cases none : pushed = []
      · rw [if_pos none]
        constructor
        · intro accepted
          cases accepted
        · rintro ⟨same, some, _⟩
          exact absurd ((Except.ok.inj same).symm.trans none) some
      · rw [if_neg none, Except.ok.injEq, Except.ok.injEq, Cores.mk.injEq]
        constructor
        · rintro ⟨rfl, rfl⟩
          exact ⟨rfl, none, rfl⟩
        · rintro ⟨rfl, _, rfl⟩
          exact ⟨rfl, rfl⟩

/--
A list in which no item has a second dash is accepted just if its items are
numbers and ranges that give a core at least, and the cores are those of the items.
-/
theorem fromCmdline_eq_ok_iff
    (coreIds : Except Error Nat)
    (args : String)
    (notAll : args ≠ "all")
    (dashes : ∀ text ∈ args.toList.splitOn ',', text.count '-' ≤ 1)
    (cores : Cores) :
    fromCmdline coreIds args = .ok cores ↔
      ∃ items,
        Lists args.toList items ∧ items.flatMap Item.cores ≠ [] ∧
          cores =
            { cmdline := args
              ids := items.flatMap Item.cores } := by
  rw [fromCmdline_eq_ok notAll, foldlM_pushItem_eq_ok_iff dashes]
  simp only [← lists_iff, List.nil_append]
  constructor
  · rintro ⟨⟨items, lists, areIds⟩, some, rfl⟩
    rw [areIds] at some
    exact ⟨items, lists, some, by rw [← areIds]⟩
  · rintro ⟨items, lists, some, rfl⟩
    exact ⟨⟨items, lists, rfl⟩, some, rfl⟩

/-- The list in the help of the command line. -/
def helpCores : Cores where
  cmdline := "1,2-4,6"
  ids := [⟨1⟩, ⟨2⟩, ⟨3⟩, ⟨4⟩, ⟨6⟩]

/-- It is accepted, and so it is a list. -/
theorem lists_helpCores :
    ∃ items,
      Lists "1,2-4,6".toList items ∧ items.flatMap Item.cores ≠ [] ∧
        helpCores =
          { cmdline := "1,2-4,6"
            ids := items.flatMap Item.cores } :=
  (fromCmdline_eq_ok_iff (.ok 1) "1,2-4,6" (by decide) (by decide) helpCores).mp
    (by decide +kernel)

/-- A range that goes down is a list, but it gives no core and is refused. -/
theorem descending_range_is_refused :
    Lists "4-2".toList [.range 4 2] ∧
      ∀ coreIds cores, fromCmdline coreIds "4-2" ≠ .ok cores := by
  have four : Numeral ['4'] 4 := parse_eq_ok_iff.mp (by decide)
  have two : Numeral ['2'] 2 := parse_eq_ok_iff.mp (by decide)
  refine ⟨⟨by simp, [['4', '-', '2']], rfl, ?_⟩, ?_⟩
  · exact .cons ⟨['4'], ['2'], rfl, four, two⟩ .nil
  · intro coreIds cores accepted
    have pushes : ("4-2".toList.splitOn ',').foldlM pushItem [] = .ok [] := by
      decide +kernel
    obtain ⟨returned, some, _⟩ := (fromCmdline_eq_ok (by decide)).mp accepted
    rw [pushes] at returned
    exact some (Except.ok.inj returned).symm

end MeFuzz.CoreLists
