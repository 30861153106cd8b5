import MeFuzz.Procedures
import MeFuzz.TokenMutators

namespace MeFuzz.Observers

open Mutators (CmpValues fromNeBytes)

/-!
# The log of comparisons

After an execution the values that the target has logged for its comparisons become
metadata, those of loop counters left out.  The headers of the log, which say how many
executions were logged and in what form, are whatever the target has written there.
-/

/-- The AFL++ `CMP_MAP_W`. -/
def aflCmpMapW : Nat :=
  65536

/-- The AFL++ `CMP_MAP_H`. -/
def aflCmpMapH : Nat :=
  32

/-- The AFL++ `CMP_MAP_RTN_H`. -/
def aflCmpMapRtnH : Nat :=
  aflCmpMapH / 4

/-- The AFL++ `CMP_TYPE_INS`. -/
def aflCmpTypeIns : Nat :=
  1

/-- `AFLCmpHeader`, with the first byte the lowest. -/
structure AFLCmpHeader where
  data : BitVec 64

namespace AFLCmpHeader

variable (self : AFLCmpHeader)

def hits : Nat :=
  (self.data.extractLsb' 0 24).toNat

def shape : Nat :=
  (self.data.extractLsb' 48 5).toNat

def type : Nat :=
  (self.data.extractLsb' 53 2).toNat

end AFLCmpHeader

/-- `AFLCmpOperands`, as far as it is read. -/
structure AFLCmpOperands where
  v0 : UInt64
  v1 : UInt64

/-- `AFLCmpFnOperands`, as far as it is read. -/
structure AFLCmpFnOperands where
  v0 : Bytes
  v1 : Bytes

/-- `AFLCmpVals`, the bytes that both members of the union are read from. -/
structure AFLCmpVals where
  bytes : Nat → UInt8

namespace AFLCmpVals

variable (self : AFLCmpVals)

/-- So many bytes from an offset on. -/
def sliceAt (offset len : Nat) : Bytes :=
  (List.range len).map fun i => self.bytes (offset + i)

/-- An element of `operands`. -/
def operands (idx execution : Nat) : AFLCmpOperands :=
  let offset := (idx * aflCmpMapH + execution) * 32
  { v0 := UInt64.ofNat (fromNeBytes (self.sliceAt offset 8))
    v1 := UInt64.ofNat (fromNeBytes (self.sliceAt (offset + 8) 8)) }

/-- An element of `fn_operands`. -/
def fnOperands (idx execution : Nat) : AFLCmpFnOperands :=
  let offset := (idx * aflCmpMapRtnH + execution) * 64
  { v0 := self.sliceAt offset 31
    v1 := self.sliceAt (offset + 32) 31 }

end AFLCmpVals

/-- `AFLCmpMap`.  The headers that count are those below `aflCmpMapW`. -/
structure AFLCmpMap where
  headers : Nat → AFLCmpHeader
  vals : AFLCmpVals

/-- A slot of the log. -/
inductive Slot where
  | operands (idx execution : Nat)
  | fnOperands (idx execution : Nat)

/-- The metadata of the state, and the slots that were read. -/
structure Observation where
  metadata : Option (List CmpValues)
  reads : List Slot

/-- What an observer does; it fails where it panics. -/
abbrev Observing :=
  Procedure Unit Observation

/-- A slot is read. -/
def Observation.read (slot : Slot) (self : Observation) : Observation :=
  { self with reads := self.reads ++ [slot] }

/-- A value is pushed to the list of the metadata. -/
def Observation.push (val : CmpValues) (self : Observation) : Observation :=
  { self with metadata := self.metadata.map (· ++ [val]) }

/-- The slice `[..=last]`. -/
def sliceToInclusive (bytes : Bytes) (last : Nat) : Observing Bytes :=
  if last < bytes.length then pure (bytes.take (last + 1)) else throw ()

namespace AFLCmpMap

variable (self : AFLCmpMap)

/-- The header at an index. -/
def header (idx : Nat) : Observing AFLCmpHeader :=
  if idx < aflCmpMapW then pure (self.headers idx) else throw ()

/-- The access `vals.operands[idx][execution]`. -/
def operands (idx execution : Nat) : Observing AFLCmpOperands :=
  if idx < aflCmpMapW ∧ execution < aflCmpMapH then do
    modify (Observation.read (.operands idx execution))
    pure (self.vals.operands idx execution)
  else throw ()

/-- The access `vals.fn_operands[idx][execution]`. -/
def fnOperands (idx execution : Nat) : Observing AFLCmpFnOperands :=
  if idx < aflCmpMapW ∧ execution < aflCmpMapRtnH then do
    modify (Observation.read (.fnOperands idx execution))
    pure (self.vals.fnOperands idx execution)
  else throw ()

/-- `executions_for`. -/
def executionsFor (idx : Nat) : Observing Nat := do
  let header ← self.header idx
  pure header.hits

/-- `usable_executions_for`. -/
def usableExecutionsFor (idx : Nat) : Observing Nat := do
  let header ← self.header idx
  if header.type = aflCmpTypeIns then
    if (← self.executionsFor idx) < aflCmpMapH then self.executionsFor idx
    else pure aflCmpMapH
  else if (← self.executionsFor idx) < aflCmpMapRtnH then self.executionsFor idx
  else pure aflCmpMapRtnH

end AFLCmpMap

/-- What the operands of a comparison of numbers are taken for. -/
def numericOf : Nat → Option (UInt64 → UInt64 → CmpValues)
  | 0 => some fun v0 v1 => .u8 v0.toUInt8 v1.toUInt8
  | 1 => some fun v0 v1 => .u16 v0.toUInt16 v1.toUInt16
  | 3 => some fun v0 v1 => .u32 v0.toUInt32 v1.toUInt32
  | 7 => some .u64
  | _ => none

/-- `values_of`. -/
def AFLCmpMap.valuesOf
    (self : AFLCmpMap)
    (idx execution : Nat) : Observing (Option CmpValues) := do
  let header ← self.header idx
  if header.type = aflCmpTypeIns then
    match numericOf header.shape with
    | some numeric => do
        let first ← self.operands idx execution
        let second ← self.operands idx execution
        pure (some (numeric first.v0 second.v1))
    | none => pure none
  else do
    let first ← self.fnOperands idx execution
    let v0 ← sliceToInclusive first.v0 header.shape
    let second ← self.fnOperands idx execution
    let v1 ← sliceToInclusive second.v1 header.shape
    pure (some (.bytes v0 v1))

/-- `to_u64_tuple`. -/
def toU64Tuple : CmpValues → Option (UInt64 × UInt64)
  | .u8 first second => some (first.toUInt64, second.toUInt64)
  | .u16 first second => some (first.toUInt64, second.toUInt64)
  | .u32 first second => some (first.toUInt64, second.toUInt64)
  | .u64 first second => some (first, second)
  | .bytes _ _ => none

/-- The counters of the loop over the executions. -/
structure StepCounters where
  increasingV0 : Nat
  increasingV1 : Nat
  decreasingV0 : Nat
  decreasingV1 : Nat
  last : Option CmpValues

namespace StepCounters

/-- The counters before the loop. -/
def zero : StepCounters :=
  ⟨0, 0, 0, 0, none⟩

/-- The body of the loop, for a value. -/
def next (counters : StepCounters) (val : CmpValues) : StepCounters :=
  match counters.last.bind toU64Tuple, toU64Tuple val with
  | some l, some v =>
      { increasingV0 :=
          if l.1 + 1 = v.1 then counters.increasingV0 + 1 else counters.increasingV0
        increasingV1 :=
          if l.2 + 1 = v.2 then counters.increasingV1 + 1 else counters.increasingV1
        decreasingV0 :=
          if l.1 - 1 = v.1 then counters.decreasingV0 + 1 else counters.decreasingV0
        decreasingV1 :=
          if l.2 - 1 = v.2 then counters.decreasingV1 + 1 else counters.decreasingV1
        last := some val }
  | _, _ => { counters with last := some val }

/-- What the counters are compared with in the end. -/
def Reach (counters : StepCounters) (bound : Nat) : Prop :=
  bound ≤ counters.increasingV0 ∨
    bound ≤ counters.increasingV1 ∨
      bound ≤ counters.decreasingV0 ∨ bound ≤ counters.decreasingV1

instance (counters : StepCounters) (bound : Nat) : Decidable (counters.Reach bound) :=
  inferInstanceAs (Decidable (_ ∨ _ ∨ _ ∨ _))

end StepCounters

namespace AFLCmpMap

variable (self : AFLCmpMap)

/-- The body of the loop that counts. -/
def countSteps (i : Nat) (counters : StepCounters) (j : Nat) : Observing StepCounters := do
  match ← self.valuesOf i j with
  | some val => pure (counters.next val)
  | none => pure counters

/-- The body of the loop that pushes. -/
def pushValues (i j : Nat) : Observing PUnit := do
  match ← self.valuesOf i j with
  | some val => modify (Observation.push val)
  | none => pure ⟨⟩

/-- The body of the loop over the locations. -/
def addValuesOf (i : Nat) : Observing PUnit := do
  let execs ← self.usableExecutionsFor i
  if execs > 0 then
    if execs > 4 then do
      let counters ← (List.range execs).foldlM (self.countSteps i) .zero
      if counters.Reach (execs - 2) then pure ⟨⟩
      else (List.range execs).forM (self.pushValues i)
    else (List.range execs).forM (self.pushValues i)
  else pure ⟨⟩

/-- `add_cmpvalues_meta`. -/
def addCmpvaluesMeta (count : Nat) : Observing PUnit := do
  modify fun state => { state with metadata := some (state.metadata.getD []) }
  modify fun state => { state with metadata := state.metadata.map fun _ => [] }
  (List.range count).forM self.addValuesOf

end AFLCmpMap

/-- The values that follow each other in a list. -/
def consecutive {Value : Type} : List Value → List (Value × Value)
  | [] => []
  | [_] => []
  | first :: second :: rest => (first, second) :: consecutive (second :: rest)

/-- An operand of two numeric values steps by so much. -/
def stepsBy
    (operand : UInt64 × UInt64 → UInt64)
    (step : UInt64)
    (pair : CmpValues × CmpValues) : Bool :=
  match toU64Tuple pair.1, toU64Tuple pair.2 with
  | some l, some v => operand l + step = operand v
  | _, _ => false

namespace AFLCmpMap

variable (self : AFLCmpMap)

/-- The comparison is of numbers. -/
def IsNumeric (i : Nat) : Prop :=
  (self.headers i).type = aflCmpTypeIns

instance (i : Nat) : Decidable (self.IsNumeric i) :=
  inferInstanceAs (Decidable (_ = _))

/-- How many executions a location has in the log. -/
def height (i : Nat) : Nat :=
  if self.IsNumeric i then aflCmpMapH else aflCmpMapRtnH

/-- How many executions of a location are logged. -/
def executions (i : Nat) : Nat :=
  min (self.headers i).hits (self.height i)

/-- The values of a logged execution, if its form is known. -/
def valuesAt (i j : Nat) : Option CmpValues :=
  if self.IsNumeric i then
    (numericOf (self.headers i).shape).map fun numeric =>
      numeric (self.vals.operands i j).v0 (self.vals.operands i j).v1
  else
    some
      (.bytes ((self.vals.fnOperands i j).v0.take ((self.headers i).shape + 1))
        ((self.vals.fnOperands i j).v1.take ((self.headers i).shape + 1)))

/-- The values of the first executions. -/
def valuesUpTo (i execs : Nat) : List CmpValues :=
  (List.range execs).filterMap (self.valuesAt i)

/-- All values that are logged for a location. -/
def logged (i : Nat) : List CmpValues :=
  self.valuesUpTo i (self.executions i)

/-- One of the operands steps by one, up or down, nearly always. -/
def IsLoopCounter (i : Nat) : Prop :=
  4 < self.executions i ∧
    ∃ operand ∈ [Prod.fst, Prod.snd],
      ∃ step ∈ [1, -1],
        self.executions i - 2 ≤
          (consecutive (self.logged i)).countP (stepsBy operand step)

instance (i : Nat) : Decidable (self.IsLoopCounter i) :=
  inferInstanceAs (Decidable (_ ∧ _))

/-- What is kept of these locations. -/
def keptOf (indexes : List Nat) : List CmpValues :=
  indexes.flatMap fun i => if self.IsLoopCounter i then [] else self.logged i

/-- What is kept of the log. -/
def kept (count : Nat) : List CmpValues :=
  self.keptOf (List.range count)

/-- The target has written the slot in this execution. -/
def Logged : Slot → Prop
  | .operands i j => i < aflCmpMapW ∧ self.IsNumeric i ∧ j < self.executions i
  | .fnOperands i j => i < aflCmpMapW ∧ ¬ self.IsNumeric i ∧ j < self.executions i

/-- The bytes that the header tells of are not in an operand. -/
def TooLong (i : Nat) : Prop :=
  ¬ self.IsNumeric i ∧ (self.headers i).shape = 31

/-- An execution is logged in a form that does not fit an operand. -/
def Overlong (i : Nat) : Prop :=
  0 < (self.headers i).hits ∧ self.TooLong i

/-- Nothing but logged slots is read, and what is kept becomes the metadata. -/
def AddsKept (count : Nat) (metadata : Option (List CmpValues)) : Prop :=
  ∃ after,
    (self.addCmpvaluesMeta count).outcome ⟨metadata, []⟩ = (.ok ⟨⟩, after) ∧
      (∀ slot ∈ after.reads, self.Logged slot) ∧
        after.metadata = some (self.kept count)

end AFLCmpMap

theorem consecutive_concat
    {Value : Type}
    (value : Value) :
    ∀ values : List Value,
      consecutive (values ++ [value]) =
        consecutive values ++ (values.getLast?.map (·, value)).toList
  | [] =>
      rfl
  | [_] =>
      rfl
  | first :: second :: rest => by
      have later := consecutive_concat value (second :: rest)
      rw [List.cons_append] at later
      rw [List.cons_append, List.cons_append, consecutive, later, List.getLast?_cons_cons,
        consecutive, List.cons_append]

namespace StepCounters

/-- The counters after these values. -/
structure Counts (counters : StepCounters) (values : List CmpValues) : Prop where
  increasingV0 :
    counters.increasingV0 = (consecutive values).countP (stepsBy Prod.fst 1)
  increasingV1 :
    counters.increasingV1 = (consecutive values).countP (stepsBy Prod.snd 1)
  decreasingV0 :
    counters.decreasingV0 = (consecutive values).countP (stepsBy Prod.fst (-1))
  decreasingV1 :
    counters.decreasingV1 = (consecutive values).countP (stepsBy Prod.snd (-1))
  last : counters.last = values.getLast?

theorem counts_zero : zero.Counts [] :=
  ⟨rfl, rfl, rfl, rfl, rfl⟩

theorem countP_concat
    (operand : UInt64 × UInt64 → UInt64)
    (step : UInt64)
    (values : List CmpValues)
    (val : CmpValues) :
    (consecutive (values ++ [val])).countP (stepsBy operand step) =
      match values.getLast?.bind toU64Tuple, toU64Tuple val with
      | some l, some v =>
          if operand l + step = operand v then
            (consecutive values).countP (stepsBy operand step) + 1
          else (consecutive values).countP (stepsBy operand step)
      | _, _ => (consecutive values).countP (stepsBy operand step) := by
  rw [consecutive_concat, List.countP_append]
  cases values.getLast? with
  | none =>
      rfl
  | some lastValue =>
      rw [Option.map_some, Option.toList_some, List.countP_singleton, Option.bind_some,
        stepsBy]
      cases toU64Tuple lastValue with
      | none =>
          rfl
      | some l =>
          cases toU64Tuple val with
          | none =>
              rfl
          | some v =>
              by_cases steps : operand l + step = operand v
              · simp [steps]
              · simp [steps]

theorem Counts.next
    {counters : StepCounters}
    {values : List CmpValues}
    (counts : counters.Counts values)
    (val : CmpValues) :
    (counters.next val).Counts (values ++ [val]) := by
  have isLast : (values ++ [val]).getLast? = some val := List.getLast?_concat
  have sub_one : ∀ operand : UInt64, operand - 1 = operand + -1 := fun operand =>
    UInt64.sub_eq_add_neg operand 1
  unfold StepCounters.next
  rw [counts.last, counts.increasingV0, counts.increasingV1, counts.decreasingV0,
    counts.decreasingV1]
  constructor
  all_goals
    first
    | rw [countP_concat]
    | rw [isLast]
  all_goals
    cases values.getLast?.bind toU64Tuple with
    | none =>
        rfl
    | some l =>
        cases toU64Tuple val with
        | none =>
            rfl
        | some v =>
            simp only [sub_one]

theorem Counts.reach_iff
    {counters : StepCounters}
    {values : List CmpValues}
    {bound : Nat}
    (counts : counters.Counts values) :
    counters.Reach bound ↔
      ∃ operand ∈ [Prod.fst, Prod.snd],
        ∃ step ∈ [1, -1],
          bound ≤ (consecutive values).countP (stepsBy operand step) := by
  unfold Reach
  rw [counts.increasingV0, counts.increasingV1, counts.decreasingV0, counts.decreasingV1]
  simp only [List.mem_cons, List.not_mem_nil, or_false, exists_eq_or_imp, exists_eq_left]
  constructor
  · rintro (firstUp | secondUp | firstDown | secondDown)
    · exact .inl (.inl firstUp)
    · exact .inr (.inl secondUp)
    · exact .inl (.inr firstDown)
    · exact .inr (.inr secondDown)
  · rintro ((firstUp | firstDown) | secondUp | secondDown)
    · exact .inl firstUp
    · exact .inr (.inr (.inl firstDown))
    · exact .inr (.inl secondUp)
    · exact .inr (.inr (.inr secondDown))

end StepCounters

namespace AFLCmpMap

variable {self : AFLCmpMap}

theorem shape_lt (header : AFLCmpHeader) : header.shape < 32 :=
  BitVec.isLt _

/-- The list of the metadata is so far, and nothing was read that is not logged. -/
structure Holds
    (map : AFLCmpMap)
    (list : List CmpValues)
    (state : Observation) : Prop where
  metadata : state.metadata = some list
  reads : ∀ slot ∈ state.reads, map.Logged slot

variable {state : Observation}

theorem Holds.read
    {list : List CmpValues}
    {slot : Slot}
    (holds : self.Holds list state)
    (logged : self.Logged slot) :
    self.Holds list (state.read slot) where
  metadata := holds.metadata
  reads := by
    intro other member
    rcases List.mem_append.mp member with before | isSlot
    · exact holds.reads other before
    · rw [List.mem_singleton.mp isSlot]
      exact logged

theorem Holds.push
    {list : List CmpValues}
    {state : Observation}
    (holds : self.Holds list state)
    (val : CmpValues) :
    self.Holds (list ++ [val]) (state.push val) where
  metadata := by
    rw [Observation.push, holds.metadata, Option.map_some]
  reads := holds.reads

variable {i : Nat}

theorem outcome_header
    (inside : i < aflCmpMapW) :
    (self.header i).outcome state = (.ok (self.headers i), state) := by
  rw [header, if_pos inside, Procedure.outcome_pure]

theorem outcome_executionsFor
    (inside : i < aflCmpMapW) :
    (self.executionsFor i).outcome state = (.ok (self.headers i).hits, state) :=
  Procedure.outcome_bind_ok (outcome_header inside)

theorem outcome_usableExecutionsFor
    (inside : i < aflCmpMapW) :
    (self.usableExecutionsFor i).outcome state = (.ok (self.executions i), state) := by
  rw [usableExecutionsFor, Procedure.outcome_bind_ok (outcome_header inside), executions,
    height]
  by_cases numeric : (self.headers i).type = aflCmpTypeIns
  · rw [if_pos numeric, if_pos (show self.IsNumeric i from numeric),
      Procedure.outcome_bind_ok (outcome_executionsFor inside)]
    by_cases few : (self.headers i).hits < aflCmpMapH
    · rw [if_pos few, outcome_executionsFor inside, min_eq_left few.le]
    · rw [if_neg few, Procedure.outcome_pure, min_eq_right (not_lt.mp few)]
  · rw [if_neg numeric, if_neg (show ¬ self.IsNumeric i from numeric),
      Procedure.outcome_bind_ok (outcome_executionsFor inside)]
    by_cases few : (self.headers i).hits < aflCmpMapRtnH
    · rw [if_pos few, outcome_executionsFor inside, min_eq_left few.le]
    · rw [if_neg few, Procedure.outcome_pure, min_eq_right (not_lt.mp few)]

theorem outcome_operands
    {i j : Nat}
    (inside : i < aflCmpMapW)
    (below : j < aflCmpMapH) :
    (self.operands i j).outcome state =
      (.ok (self.vals.operands i j), state.read (.operands i j)) := by
  rw [operands, if_pos ⟨inside, below⟩]
  rfl

theorem outcome_fnOperands
    {i j : Nat}
    (inside : i < aflCmpMapW)
    (below : j < aflCmpMapRtnH) :
    (self.fnOperands i j).outcome state =
      (.ok (self.vals.fnOperands i j), state.read (.fnOperands i j)) := by
  rw [fnOperands, if_pos ⟨inside, below⟩]
  rfl

theorem outcome_sliceToInclusive
    {bytes : Bytes}
    {last : Nat}
    (inside : last < bytes.length) :
    (sliceToInclusive bytes last).outcome state = (.ok (bytes.take (last + 1)), state) := by
  rw [sliceToInclusive, if_pos inside, Procedure.outcome_pure]

theorem satisfies_valuesOf
    {i j : Nat}
    {list : List CmpValues}
    (inside : i < aflCmpMapW)
    (isLogged : j < self.executions i) :
    Procedure.Satisfies (self.Holds list) (self.valuesOf i j)
      (fun val state => val = self.valuesAt i j ∧ self.Holds list state ∧ ¬ self.TooLong i)
      (fun _ _ => self.TooLong i) := by
  intro state holds
  have below : j < self.height i := lt_of_lt_of_le isLogged (min_le_right _ _)
  rw [valuesOf, Procedure.outcome_bind_ok (outcome_header inside), valuesAt]
  by_cases numeric : (self.headers i).type = aflCmpTypeIns
  · have isNumeric : self.IsNumeric i := numeric
    rw [height, if_pos isNumeric] at below
    rw [if_pos numeric, if_pos isNumeric]
    cases numericOf (self.headers i).shape with
    | none =>
        exact ⟨rfl, holds, fun tooLong => tooLong.1 isNumeric⟩
    | some form =>
        have slotLogged : self.Logged (.operands i j) := ⟨inside, isNumeric, isLogged⟩
        dsimp only
        rw [Procedure.outcome_bind_ok (outcome_operands inside below),
          Procedure.outcome_bind_ok (outcome_operands inside below)]
        exact ⟨rfl, (holds.read slotLogged).read slotLogged,
          fun tooLong => tooLong.1 isNumeric⟩
  · have notNumeric : ¬ self.IsNumeric i := numeric
    rw [height, if_neg notNumeric] at below
    rw [if_neg numeric, if_neg notNumeric,
      Procedure.outcome_bind_ok (outcome_fnOperands inside below)]
    have slotLogged : self.Logged (.fnOperands i j) := ⟨inside, notNumeric, isLogged⟩
    have firstLength : (self.vals.fnOperands i j).v0.length = 31 := by
      simp [AFLCmpVals.fnOperands, AFLCmpVals.sliceAt]
    have secondLength : (self.vals.fnOperands i j).v1.length = 31 := by
      simp [AFLCmpVals.fnOperands, AFLCmpVals.sliceAt]
    by_cases fits : (self.headers i).shape < 31
    · rw [Procedure.outcome_bind_ok (outcome_sliceToInclusive (firstLength ▸ fits)),
        Procedure.outcome_bind_ok (outcome_fnOperands inside below),
        Procedure.outcome_bind_ok (outcome_sliceToInclusive (secondLength ▸ fits))]
      exact ⟨rfl, (holds.read slotLogged).read slotLogged,
        fun tooLong => fits.ne tooLong.2⟩
    · rw [sliceToInclusive, if_neg (firstLength ▸ fits)]
      have bound := shape_lt (self.headers i)
      exact ⟨notNumeric, by omega⟩

/-- In the loop that counts: the counters are those of the values read so far. -/
structure Counting
    (map : AFLCmpMap)
    (i : Nat)
    (list : List CmpValues)
    (done : List Nat)
    (counters : StepCounters)
    (state : Observation) : Prop where
  counts : counters.Counts (done.filterMap (map.valuesAt i))
  holds : map.Holds list state
  fits : done ≠ [] → ¬ map.TooLong i

/-- In the loop that pushes: the values read so far are in the list. -/
structure Pushing
    (map : AFLCmpMap)
    (i : Nat)
    (list : List CmpValues)
    (done : List Nat)
    (state : Observation) : Prop where
  holds : map.Holds (list ++ done.filterMap (map.valuesAt i)) state
  fits : done ≠ [] → ¬ map.TooLong i

section

variable {i : Nat} {list : List CmpValues}

theorem lt_of_range_split
    {execs item : Nat}
    {done rest : List Nat}
    (split : List.range execs = done ++ item :: rest) : item < execs :=
  List.mem_range.mp (split ▸ List.mem_append_right _ List.mem_cons_self)

theorem satisfies_countSteps (inside : i < aflCmpMapW) :
    Procedure.Satisfies (self.Holds list)
      ((List.range (self.executions i)).foldlM (self.countSteps i) .zero)
      (self.Counting i list (List.range (self.executions i)))
      (fun _ _ => self.TooLong i) := by
  have each :
      ∀ done item rest counters,
        List.range (self.executions i) = done ++ item :: rest →
          Procedure.Satisfies (self.Counting i list done counters)
            (self.countSteps i counters item) (self.Counting i list (done ++ [item]))
            (fun _ _ => self.TooLong i) := by
    intro done item rest counters split state counting
    refine Procedure.Satisfies.bind
      (satisfies_valuesOf inside (lt_of_range_split split)) ?_ state counting.holds
    rintro _ next ⟨rfl, holds, fits⟩
    have values :
        (done ++ [item]).filterMap (self.valuesAt i) =
          done.filterMap (self.valuesAt i) ++ (self.valuesAt i item).toList := by
      rw [List.filterMap_append]
      cases isVal : self.valuesAt i item with
      | none =>
          simp [isVal]
      | some val =>
          simp [isVal]
    cases isVal : self.valuesAt i item with
    | none =>
        refine ⟨?_, holds, fun _ => fits⟩
        rw [values, isVal, Option.toList_none, List.append_nil]
        exact counting.counts
    | some val =>
        refine ⟨?_, holds, fun _ => fits⟩
        rw [values, isVal, Option.toList_some]
        exact counting.counts.next val
  exact (Procedure.Satisfies.foldlM each .zero).starting fun _ holds =>
    ⟨StepCounters.counts_zero, holds, fun nonempty => absurd rfl nonempty⟩

theorem satisfies_pushValues (inside : i < aflCmpMapW) :
    Procedure.Satisfies (self.Holds list)
      ((List.range (self.executions i)).forM (self.pushValues i))
      (fun _ => self.Pushing i list (List.range (self.executions i)))
      (fun _ _ => self.TooLong i) := by
  have loop :
      Procedure.Satisfies (self.Pushing i list [])
        (ForM.forM (List.range (self.executions i)) (self.pushValues i))
        (fun _ => self.Pushing i list (List.range (self.executions i)))
        (fun _ _ => self.TooLong i) := by
    refine Procedure.Satisfies.forM (self.Pushing i list) ?_
    intro done item rest split state pushing
    refine Procedure.Satisfies.bind
      (satisfies_valuesOf inside (lt_of_range_split split)) ?_ state pushing.holds
    rintro _ next ⟨rfl, holds, fits⟩
    cases isVal : self.valuesAt i item with
    | none =>
        refine ⟨?_, fun _ => fits⟩
        rw [List.filterMap_append]
        simpa [isVal] using holds
    | some val =>
        refine ⟨?_, fun _ => fits⟩
        rw [List.filterMap_append]
        simpa [isVal] using holds.push val
  refine loop.starting fun _ holds => ⟨?_, fun nonempty => absurd rfl nonempty⟩
  rwa [List.filterMap_nil, List.append_nil]

theorem executions_pos : 0 < self.executions i ↔ 0 < (self.headers i).hits := by
  have positive : 0 < self.height i := by
    unfold height
    split
    · decide
    · decide
  unfold executions
  omega

theorem satisfies_addValuesOf (inside : i < aflCmpMapW) :
    Procedure.Satisfies (self.Holds list) (self.addValuesOf i)
      (fun _ state =>
        self.Holds (list ++ if self.IsLoopCounter i then [] else self.logged i) state ∧
          ¬ self.Overlong i)
      (fun _ _ => self.Overlong i) := by
  intro state holds
  rw [addValuesOf, Procedure.outcome_bind_ok (outcome_usableExecutionsFor inside)]
  by_cases anyLogged : 0 < self.executions i
  · have nonempty : List.range (self.executions i) ≠ [] := by
      rw [Ne, List.range_eq_nil]
      exact anyLogged.ne'
    have overlong : self.TooLong i → self.Overlong i := fun tooLong =>
      ⟨executions_pos.mp anyLogged, tooLong⟩
    have pushed :
        ¬ self.IsLoopCounter i →
          Procedure.Satisfies (self.Holds list)
            ((List.range (self.executions i)).forM (self.pushValues i))
            (fun _ state =>
              self.Holds (list ++ if self.IsLoopCounter i then [] else self.logged i)
                state ∧ ¬ self.Overlong i)
            (fun _ _ => self.Overlong i) := by
      intro notLoop
      refine (satisfies_pushValues inside).weaken (fun _ holds => holds) ?_
        fun _ _ => overlong
      intro _ next pushing
      rw [if_neg notLoop]
      exact ⟨pushing.holds, fun long => pushing.fits nonempty long.2⟩
    rw [if_pos anyLogged]
    by_cases many : 4 < self.executions i
    · rw [if_pos many]
      refine Procedure.Satisfies.bind
        ((satisfies_countSteps inside).failing fun _ _ => overlong) ?_ state holds
      intro counters next counting
      by_cases reach : counters.Reach (self.executions i - 2)
      · rw [if_pos reach, if_pos ⟨many, counting.counts.reach_iff.mp reach⟩,
          List.append_nil]
        exact ⟨counting.holds, fun long => counting.fits nonempty long.2⟩
      · have notLoop : ¬ self.IsLoopCounter i := fun isLoop =>
          reach (counting.counts.reach_iff.mpr isLoop.2)
        rw [if_neg reach]
        exact pushed notLoop next counting.holds
    · rw [if_neg many]
      exact pushed (fun isLoop => many isLoop.1) state holds
  · have notLoop : ¬ self.IsLoopCounter i := fun isLoop =>
      anyLogged (lt_trans (by decide) isLoop.1)
    have nothing : self.logged i = [] := by
      rw [logged, valuesUpTo, Nat.eq_zero_of_not_pos anyLogged]
      rfl
    rw [if_neg anyLogged, if_neg notLoop, nothing, List.append_nil]
    exact ⟨holds, fun long => anyLogged (executions_pos.mpr long.1)⟩

end

theorem satisfies_addCmpvaluesMeta
    (self : AFLCmpMap)
    {count : Nat}
    (inside : count ≤ aflCmpMapW) :
    Procedure.Satisfies (fun state => state.reads = []) (self.addCmpvaluesMeta count)
      (fun _ state => self.Holds (self.kept count) state ∧ ∀ i < count, ¬ self.Overlong i)
      (fun _ _ => ∃ i < count, self.Overlong i) := by
  have loop :
      Procedure.Satisfies
        (fun state => self.Holds (self.keptOf []) state ∧ ∀ i ∈ [], ¬ self.Overlong i)
        (ForM.forM (List.range count) self.addValuesOf)
        (fun _ state =>
          self.Holds (self.keptOf (List.range count)) state ∧
            ∀ i ∈ List.range count, ¬ self.Overlong i)
        (fun _ _ => ∃ i < count, self.Overlong i) := by
    refine Procedure.Satisfies.forM
      (fun done state => self.Holds (self.keptOf done) state ∧ ∀ i ∈ done, ¬ self.Overlong i) ?_
    rintro done item rest split state ⟨holds, fit⟩
    have below := lt_of_range_split split
    refine (satisfies_addValuesOf (lt_of_lt_of_le below inside)).weaken
      (fun _ holds => holds) ?_ (fun _ _ long => ⟨item, below, long⟩) state holds
    rintro _ next ⟨holdsNext, fits⟩
    constructor
    · simpa [keptOf] using holdsNext
    · intro i member
      rcases List.mem_append.mp member with before | isItem
      · exact fit i before
      · rw [List.mem_singleton.mp isItem]
        exact fits
  intro state noReads
  have started :
      self.Holds (self.keptOf [])
        ⟨(some (state.metadata.getD [])).map fun _ => [], state.reads⟩ := by
    refine ⟨rfl, ?_⟩
    rw [noReads]
    exact fun _ member => absurd member List.not_mem_nil
  have reached := loop _ ⟨started, fun _ member => absurd member List.not_mem_nil⟩
  simp only [List.mem_range] at reached
  exact reached

/--
The log is added as it should be if and only if no execution was logged, below the
usable count, in a form that does not fit an operand.
-/
theorem addsKept_iff
    (self : AFLCmpMap)
    (count : Nat)
    (metadata : Option (List CmpValues))
    (inside : count ≤ aflCmpMapW) :
    self.AddsKept count metadata ↔ ∀ i < count, ¬ self.Overlong i := by
  have satisfies := satisfies_addCmpvaluesMeta self inside ⟨metadata, []⟩ rfl
  unfold AddsKept
  cases isOutcome : (self.addCmpvaluesMeta count).outcome ⟨metadata, []⟩ with
  | mk result after =>
      rw [isOutcome] at satisfies
      cases result with
      | ok value =>
          exact iff_of_true ⟨after, rfl, satisfies.1.reads, satisfies.1.metadata⟩
            satisfies.2
      | error failure =>
          obtain ⟨i, below, long⟩ := satisfies
          refine iff_of_false ?_ fun fit => fit i below long
          rintro ⟨_, same, _⟩
          cases same

/-- A log with one call of a function, of the longest operands that a header can tell. -/
def longCall : AFLCmpMap where
  headers _ := ⟨0x005f000000000001⟩
  vals := ⟨fun _ => 0⟩

/-- A byte that is counted up in five executions, and bytes that are compared once. -/
def loopAndCheck : AFLCmpMap where
  headers i :=
    ⟨if i = 0 then 0x0020000000000005 else if i = 1 then 0x0020000000000001 else 0⟩
  vals :=
    ⟨fun n =>
      if n = 1024 then 7
      else if n = 1032 then 8
      else if n % 32 = 0 then UInt8.ofNat (n / 32)
      else 0⟩

/-- The comparison is kept, and the loop counter is not. -/
theorem addsKept_loopAndCheck :
    loopAndCheck.IsLoopCounter 0 ∧
      loopAndCheck.kept 3 = [.u8 7 8] ∧
      loopAndCheck.AddsKept 3 none := by
  refine ⟨by decide +kernel, by decide +kernel, (addsKept_iff _ 3 none (by decide)).mpr ?_⟩
  intro i isBelow long
  have numeric : ∀ i < 3, (loopAndCheck.headers i).hits = 0 ∨ loopAndCheck.IsNumeric i := by
    decide +kernel
  rcases numeric i isBelow with unused | isNumeric
  · exact Nat.lt_irrefl 0 (unused ▸ long.1)
  · exact long.2.1 isNumeric

/-- The longest operands that a header can tell are longer than those of the log. -/
theorem not_addsKept_longCall : ¬ longCall.AddsKept 1 none := by
  have panics : ((longCall.addCmpvaluesMeta 1).outcome ⟨none, []⟩).1 = .error () := by
    rfl
  rintro ⟨after, returned, _⟩
  rw [returned] at panics
  cases panics

end AFLCmpMap

end MeFuzz.Observers
