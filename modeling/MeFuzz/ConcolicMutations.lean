import MeFuzz.ConcolicMessages
import MeFuzz.CoreLists

namespace MeFuzz.Concolic

/-!
# Mutations along a recorded path

The path constraints of a trace are given to a solver one after the other.  Before each
the solver is asked for an input that takes the other way, whose bytes are the mutation.
What the solver answers is given to each turn; what panics has no result.
-/

/-- The operations of bit vectors that `bv_binop!` is used with. -/
inductive BvBinop where
  | bvadd
  | bvsub
  | bvmul
  | bvudiv
  | bvsdiv
  | bvurem
  | bvsrem
  | bvshl
  | bvlshr
  | bvashr
  | bvand
  | bvor
  | bvxor
  | concat

/-- The comparisons of bit vectors that `bv_binop!` is used with. -/
inductive BvComparison where
  | bvslt
  | bvsle
  | bvsgt
  | bvsge
  | bvult
  | bvule
  | bvugt
  | bvuge

/-- `Dynamic`, of the sorts that are built. -/
inductive Dynamic (Bv Formula : Type) where
  | bv (bv : Bv)
  | bool (bool : Formula)

/-- The values of the input bytes. -/
abbrev Assignment := UInt32 → UInt8

/-- A model gives values to some input bytes. -/
abbrev Model := List (UInt32 × UInt8)

/-- How a byte of a model is written out: its number, and its value in two digits. -/
def lineOf (entry : UInt32 × UInt8) : List Char :=
  "k!".toList ++ Nat.toDigits 10 entry.1.toNat ++ " -> ".toList ++
    ("#x".toList ++
      [Nat.digitChar (entry.2.toNat / 16), Nat.digitChar (entry.2.toNat % 16)])

/-- What is used of the solver's terms. -/
structure Z3 (Bv Formula : Type) where
  newConst : UInt32 → UInt32 → Bv
  fromU64 : UInt64 → UInt32 → Bv
  fromBool : Bool → Formula
  bvneg : Bv → Bv
  bvnot : Bv → Bv
  bvBinop : BvBinop → Bv → Bv → Option Bv
  bvCompare : BvComparison → Bv → Bv → Option Formula
  eq : Dynamic Bv Formula → Dynamic Bv Formula → Option Formula
  not : Formula → Formula
  and : Formula → Formula → Formula
  or : Formula → Formula → Formula
  xor : Formula → Formula → Formula
  ite : Formula → Bv → Bv → Option Bv
  signExt : Bv → UInt32 → Option Bv
  zeroExt : Bv → UInt32 → Option Bv
  extract : Bv → UInt32 → UInt32 → Option Bv
  getSize : Bv → Nat
  simplify : Formula → Formula
  asBool : Formula → Option Bool
  modelToString : Model → List Char
  Holds : Assignment → Formula → Prop
  holds_not : ∀ {assignment formula}, Holds assignment (not formula) ↔ ¬ Holds assignment formula
  holds_simplify :
    ∀ {assignment formula}, Holds assignment (simplify formula) ↔ Holds assignment formula
  /-- A line for each byte. -/
  modelToString_eq :
    ∀ model,
      modelToString model = model.flatMap fun entry => lineOf entry ++ ['\n']

/-- `SatResult`, with the model. -/
inductive SatResult where
  | unsat
  | unknown
  | sat (model : Model)

/-- `Solver`, with the formulas of the innermost scope apart. -/
structure Solver (Formula : Type) where
  current : List Formula
  outer : List (List Formula)

namespace Solver

variable {Formula : Type}

def push (self : Solver Formula) : Solver Formula :=
  ⟨[], self.current :: self.outer⟩

def assert (self : Solver Formula) (formula : Formula) : Solver Formula :=
  { self with current := self.current ++ [formula] }

/-- `pop` of one scope. -/
def pop (self : Solver Formula) : Option (Solver Formula) :=
  match self.outer with
  | [] => none
  | current :: outer => some ⟨current, outer⟩

/-- All formulas that are asserted. -/
def assertions (self : Solver Formula) : List Formula :=
  self.outer.reverse.flatten ++ self.current

end Solver

variable {Bv Formula : Type}

/-- The answer of the solver to a query about these formulas is right. -/
def SatResult.Sound (z3 : Z3 Bv Formula) (formulas : List Formula) : SatResult → Prop
  | .unsat => ∀ assignment, ∃ formula ∈ formulas, ¬ z3.Holds assignment formula
  | .unknown => True
  | .sat model =>
      (model.map Prod.fst).Nodup ∧
        ∀ assignment : Assignment,
          (∀ entry ∈ model, assignment entry.1 = entry.2) →
            ∀ formula ∈ formulas, z3.Holds assignment formula

section

variable (z3 : Z3 Bv Formula)

/-- The terms of the messages so far. -/
abbrev Translation (Bv Formula : Type) := SymExprRef → Option (Dynamic Bv Formula)

/-- `bv!`. -/
def Translation.bv (translation : Translation Bv Formula) (op : SymExprRef) : Option Bv :=
  match translation op with
  | some (.bv bv) => some bv
  | _ => none

/-- `bool!`. -/
def Translation.bool
    (translation : Translation Bv Formula)
    (op : SymExprRef) : Option Formula :=
  match translation op with
  | some (.bool bool) => some bool
  | _ => none

/-- A difference that must not be negative. -/
def checkedSub (first second : Nat) : Option Nat :=
  if second ≤ first then some (first - second) else none

/-- The bits of some bytes. -/
def extractBytes (bv : Bv) (offset length : Nat) : Option Bv := do
  let size := z3.getSize bv
  let high ← checkedSub size (offset * 8 + 1)
  let low ← checkedSub size ((offset + length) * 8)
  z3.extract bv (UInt32.ofNat high) (UInt32.ofNat low)

/-- `build_extract`. -/
def buildExtract
    (bv : Bv)
    (offset length : Nat)
    (littleEndian : Bool) : Option Bv :=
  if z3.getSize bv % 8 ≠ 0 then none
  else if littleEndian then do
    let bytes ← (List.range length).mapM fun i => extractBytes z3 bv (offset + i) 1
    match bytes with
    | [] => none
    | first :: rest => rest.foldlM (fun acc next => z3.bvBinop .concat next acc) first
  else extractBytes z3 bv offset length

/-- A part of an insertion that is left out when it is empty. -/
def partOf (length : Nat) (part : Option Bv) : Option (List Bv) :=
  if length = 0 then some [] else part.map ([·])

/-- The term of an `Insert`. -/
def insertBytes
    (target toInsert : Bv)
    (offset : Nat)
    (littleEndian : Bool) : Option Bv := do
  let bitsToInsert := z3.getSize toInsert
  if bitsToInsert % 8 ≠ 0 then none
  else
    let behind ← checkedSub (z3.getSize target / 8) offset
    let afterLen ← checkedSub behind (bitsToInsert / 8)
    let before ← partOf offset (buildExtract z3 target 0 offset false)
    let inserted ←
      if littleEndian then buildExtract z3 toInsert 0 (bitsToInsert / 8) true
      else some toInsert
    let after ←
      partOf afterLen
        (buildExtract z3 target (offset + bitsToInsert / 8) afterLen false)
    match before ++ inserted :: after with
    | [] => none
    | first :: rest => rest.foldlM (z3.bvBinop .concat) first

/-- `bv_binop!`. -/
def bvBinop
    (translation : Translation Bv Formula)
    (op : BvBinop)
    (a b : SymExprRef) : Option (Option (Dynamic Bv Formula)) := do
  let first ← translation.bv a
  let second ← translation.bv b
  let result ← z3.bvBinop op first second
  some (some (.bv result))

/-- `bv_binop!` of a comparison. -/
def bvCompare
    (translation : Translation Bv Formula)
    (op : BvComparison)
    (a b : SymExprRef) : Option (Option (Dynamic Bv Formula)) := do
  let first ← translation.bv a
  let second ← translation.bv b
  let result ← z3.bvCompare op first second
  some (some (.bool result))

/-- An operation on truth values. -/
def boolBinop
    (translation : Translation Bv Formula)
    (op : Formula → Formula → Formula)
    (a b : SymExprRef) : Option (Option (Dynamic Bv Formula)) := do
  let first ← translation.bool a
  let second ← translation.bool b
  some (some (.bool (op first second)))

/-- The term of a message, if it has one. -/
def translate
    (translation : Translation Bv Formula) :
    SymExpr → Option (Option (Dynamic Bv Formula))
  | .inputByte offset _ => some (some (.bv (z3.newConst (UInt32.ofNat offset) 8)))
  | .integer value bits => some (some (.bv (z3.fromU64 value bits.toUInt32)))
  | .integer128 _ _ => none
  | .nullPointer => some (some (.bv (z3.fromU64 0 64)))
  | .true => some (some (.bool (z3.fromBool Bool.true)))
  | .false => some (some (.bool (z3.fromBool Bool.false)))
  | .bool value => some (some (.bool (z3.fromBool value)))
  | .neg op => do some (some (.bv (z3.bvneg (← translation.bv op))))
  | .add a b => bvBinop z3 translation .bvadd a b
  | .sub a b => bvBinop z3 translation .bvsub a b
  | .mul a b => bvBinop z3 translation .bvmul a b
  | .unsignedDiv a b => bvBinop z3 translation .bvudiv a b
  | .signedDiv a b => bvBinop z3 translation .bvsdiv a b
  | .unsignedRem a b => bvBinop z3 translation .bvurem a b
  | .signedRem a b => bvBinop z3 translation .bvsrem a b
  | .shiftLeft a b => bvBinop z3 translation .bvshl a b
  | .logicalShiftRight a b => bvBinop z3 translation .bvlshr a b
  | .arithmeticShiftRight a b => bvBinop z3 translation .bvashr a b
  | .signedLessThan a b => bvCompare z3 translation .bvslt a b
  | .signedLessEqual a b => bvCompare z3 translation .bvsle a b
  | .signedGreaterThan a b => bvCompare z3 translation .bvsgt a b
  | .signedGreaterEqual a b => bvCompare z3 translation .bvsge a b
  | .unsignedLessThan a b => bvCompare z3 translation .bvult a b
  | .unsignedLessEqual a b => bvCompare z3 translation .bvule a b
  | .unsignedGreaterThan a b => bvCompare z3 translation .bvugt a b
  | .unsignedGreaterEqual a b => bvCompare z3 translation .bvuge a b
  | .not op => do
      match ← translation op with
      | .bv bv => some (some (.bv (z3.bvnot bv)))
      | .bool bool => some (some (.bool (z3.not bool)))
  | .equal a b => do
      let same ← z3.eq (← translation a) (← translation b)
      some (some (.bool same))
  | .notEqual a b => do
      let same ← z3.eq (← translation a) (← translation b)
      some (some (.bool (z3.not same)))
  | .boolAnd a b => boolBinop translation z3.and a b
  | .boolOr a b => boolBinop translation z3.or a b
  | .boolXor a b => boolBinop translation z3.xor a b
  | .and a b => bvBinop z3 translation .bvand a b
  | .or a b => bvBinop z3 translation .bvor a b
  | .xor a b => bvBinop z3 translation .bvxor a b
  | .sext op bits => do
      some (some (.bv (← z3.signExt (← translation.bv op) bits.toUInt32)))
  | .zext op bits => do
      some (some (.bv (← z3.zeroExt (← translation.bv op) bits.toUInt32)))
  | .trunc op bits => do
      let bv ← translation.bv op
      let high ← checkedSub bits.toNat 1
      some (some (.bv (← z3.extract bv (UInt32.ofNat high) 0)))
  | .boolToBit op => do
      let bool ← translation.bool op
      some (some (.bv (← z3.ite bool (z3.fromU64 1 1) (z3.fromU64 0 1))))
  | .concat a b => bvBinop z3 translation .concat a b
  | .extract op firstBit lastBit => do
      let bv ← translation.bv op
      some (some (.bv (← z3.extract bv (UInt32.ofNat firstBit) (UInt32.ofNat lastBit))))
  | .insert target toInsert offset littleEndian => do
      let target ← translation.bv target
      let toInsert ← translation.bv toInsert
      some (some (.bv (← insertBytes z3 target toInsert offset.toNat littleEndian)))
  | _ => some none

end

/-- `lines`. -/
def lines : List Char → List (List Char)
  | [] => []
  | c :: rest =>
      if c = '\n' then [] :: lines rest
      else if c = '\r' ∧ rest.head? = some '\n' then lines rest
      else
        match lines rest with
        | [] => [[c]]
        | line :: others => (c :: line) :: others

/-- `split` at a text. -/
def split (separator text : List Char) : List (List Char) :=
  match text with
  | [] => [[]]
  | c :: rest =>
      if separator ≠ [] ∧ separator <+: c :: rest then
        [] :: split separator (rest.drop (separator.length - 1))
      else
        match split separator rest with
        | [] => [[c]]
        | first :: others => (c :: first) :: others
termination_by text.length
decreasing_by
  all_goals simp only [List.length_drop, List.length_cons]; omega

/-- `trim_start_matches`. -/
def trimStartMatches (pattern text : List Char) : List Char :=
  match text with
  | [] => []
  | c :: rest =>
      if pattern ≠ [] ∧ pattern <+: c :: rest then
        trimStartMatches pattern (rest.drop (pattern.length - 1))
      else c :: rest
termination_by text.length
decreasing_by
  simp only [List.length_drop, List.length_cons]; omega

/-- `to_digit(16)`. -/
def toDigit (c : Char) : Option Nat :=
  if '0' ≤ c ∧ c ≤ '9' then some (c.toNat - '0'.toNat)
  else if 'a' ≤ c ∧ c ≤ 'f' then some (c.toNat - 'a'.toNat + 10)
  else if 'A' ≤ c ∧ c ≤ 'F' then some (c.toNat - 'A'.toNat + 10)
  else none

/-- The digits of a byte, after those that make up a value. -/
def fromDigits : Nat → List Char → Option UInt8
  | value, [] => some (UInt8.ofNat value)
  | value, c :: rest => do
      let digit ← toDigit c
      if 255 < 16 * value + digit then none else fromDigits (16 * value + digit) rest

/-- `u8::from_str_radix` of sixteen. -/
def fromStrRadix (text : List Char) : Option UInt8 :=
  match text with
  | [] => none
  | c :: rest => if c = '+' ∧ rest ≠ [] then fromDigits 0 rest else fromDigits 0 (c :: rest)

/-- A byte to replace, and its new value. -/
abbrev Replacement := Nat × UInt8

/-- The replacement of a line. -/
def parseLine (line : List Char) : Option Replacement :=
  match split " -> ".toList line with
  | [offsetStr, valueStr] => do
      let offset ← (CoreLists.parse (trimStartMatches "k!".toList offsetStr)).toOption
      let value ← fromStrRadix (trimStartMatches "#x".toList valueStr)
      some (offset, value)
  | _ => none

/-- The replacements of a model that is written out. -/
def parseModel (modelString : List Char) : Option (List Replacement) :=
  (lines modelString).mapM parseLine

/--
What `generate_mutations` holds.  The last two are not the program's: the constraints
that the path has taken, and for each mutation those before it and its own.
-/
structure State (Bv Formula : Type) where
  translation : Translation Bv Formula
  solver : Solver Formula
  res : List (List Replacement)
  returned : Bool
  path : List Formula
  origins : List (List Formula × Formula)

/-- A message, and what the solver answers to the queries that it leads to. -/
structure Turn where
  id : SymExprRef
  msg : SymExpr
  negation : SatResult
  recheck : SatResult

namespace State

/-- At the start nothing is translated or asserted. -/
def initial : State Bv Formula where
  translation := fun _ => none
  solver := ⟨[], []⟩
  res := []
  returned := false
  path := []
  origins := []

section

variable (z3 : Z3 Bv Formula)

/-- The constraint `op` as it was taken. -/
def op (taken : Bool) (constraint : Formula) : Formula :=
  z3.simplify (if taken then constraint else z3.not constraint)

/-- The negation of `op` is asserted in a scope of its own. -/
def negated (state : State Bv Formula) (op : Formula) : Solver Formula :=
  state.solver.push.assert (z3.simplify (z3.not op))

/-- The path constraint is asserted. -/
def assertOp
    (state : State Bv Formula)
    (solver : Solver Formula)
    (op : Formula) : State Bv Formula :=
  { state with solver := solver.assert op, path := state.path ++ [op] }

/-- What is done with a constraint that is not a constant. -/
def constrain
    (state : State Bv Formula)
    (op : Formula)
    (negation recheck : SatResult) : Option (State Bv Formula) :=
  let solver := state.negated z3 op
  match negation with
  | .unsat => do
      let solver ← solver.pop
      match recheck with
      | .unknown | .unsat => some { state with solver := solver, returned := true }
      | .sat _ => some (state.assertOp solver op)
  | .unknown => some (state.assertOp solver op)
  | .sat model => do
      let replacements ← parseModel (z3.modelToString model)
      let solver ← solver.pop
      some
        { state.assertOp solver op with
          res := state.res ++ [replacements]
          origins := state.origins ++ [(state.path, op)] }

/-- A turn of the loop, where it does not panic. -/
def turn (state : State Bv Formula) (turn : Turn) : Option (State Bv Formula) :=
  if state.returned then none
  else do
    match ← translate z3 state.translation turn.msg with
    | some expr =>
        some
          { state with
            translation := fun op => if op = turn.id then some expr else state.translation op }
    | none =>
        match turn.msg with
        | .pathConstraint constraint taken _ => do
            let op := op z3 taken (← state.translation.bool constraint)
            if (z3.asBool op).isSome then some state
            else state.constrain z3 op turn.negation turn.recheck
        | _ => some state

/-- The constraint of a message, unless it is a constant. -/
def nonTrivial (state : State Bv Formula) : SymExpr → Option Formula
  | .pathConstraint constraint taken _ => do
      let op := op z3 taken (← state.translation.bool constraint)
      if (z3.asBool op).isSome then none else some op
  | _ => none

/-- The solver answers rightly what it is asked. -/
def Answers (state : State Bv Formula) (turn : Turn) : Prop :=
  ∀ op,
    state.nonTrivial z3 turn.msg = some op →
      turn.negation.Sound z3 (state.negated z3 op).assertions ∧
        (turn.negation = .unsat → turn.recheck.Sound z3 state.solver.assertions)

/-- A turn with answers that are right. -/
def Step (state : State Bv Formula) (turn : Turn) (next : State Bv Formula) : Prop :=
  state.Answers z3 turn ∧ state.turn z3 turn = some next

/-- The bytes have the values that replace them. -/
def Replaced (replacements : List Replacement) (assignment : Assignment) : Prop :=
  ∀ replacement ∈ replacements,
    assignment (UInt32.ofNat replacement.1) = replacement.2

/-- The constraints before are satisfied, and the negation of the one at hand. -/
def Diverts
    (replacements : List Replacement)
    (origin : List Formula × Formula) : Prop :=
  (∃ assignment, Replaced replacements assignment) ∧
    ∀ assignment,
      Replaced replacements assignment →
        (∀ earlier ∈ origin.1, z3.Holds assignment earlier) ∧
          ¬ z3.Holds assignment origin.2

/--
The solver has the constraints of the path and no scope but the outermost, and each
mutation diverts the path where it is to.
-/
structure FollowsPath (state : State Bv Formula) : Prop where
  solver_eq : state.returned = false → state.solver = ⟨state.path, []⟩
  diverts : List.Forall₂ (Diverts z3) state.res state.origins

/-- The solver does not give up on the negation of a constraint. -/
def Decides (state : State Bv Formula) (turn : Turn) : Prop :=
  state.nonTrivial z3 turn.msg ≠ none → turn.negation ≠ .unknown

end

end State

section

theorem lines_append
    {line : List Char}
    (noFeed : '\n' ∉ line)
    (noReturn : '\r' ∉ line)
    (rest : List Char) :
    lines (line ++ '\n' :: rest) = line :: lines rest := by
  induction line with
  | nil =>
      simp [lines]
  | cons c line ih =>
      rw [List.mem_cons, not_or] at noFeed noReturn
      rw [List.cons_append, lines, if_neg (Ne.symm noFeed.1),
        if_neg (fun isReturn => noReturn.1 isReturn.1.symm),
        ih noFeed.2 noReturn.2]

theorem split_of_not_mem
    {c : Char}
    {separator text : List Char}
    (absent : c ∉ text) :
    split (c :: separator) text = [text] := by
  induction text with
  | nil =>
      simp [split]
  | cons first rest ih =>
      rw [List.mem_cons, not_or] at absent
      rw [split, if_neg, ih absent.2]
      exact fun isPrefix => absent.1 (List.cons_prefix_cons.mp isPrefix.2).1

theorem split_append
    {c : Char}
    {separator text : List Char}
    (absent : c ∉ text)
    (rest : List Char) :
    split (c :: separator) (text ++ c :: separator ++ rest) =
      text :: split (c :: separator) rest := by
  induction text with
  | nil =>
      simp [split]
  | cons first text ih =>
      rw [List.mem_cons, not_or] at absent
      rw [List.cons_append, List.cons_append, split, if_neg,
        ih absent.2]
      exact fun isPrefix => absent.1 (List.cons_prefix_cons.mp isPrefix.2).1

theorem trimStartMatches_append
    {c : Char}
    {pattern text : List Char}
    (absent : c ∉ text) :
    trimStartMatches (c :: pattern) (c :: pattern ++ text) = text := by
  rw [List.cons_append, trimStartMatches, if_pos (by simp)]
  cases text with
  | nil =>
      simp [trimStartMatches]
  | cons first rest =>
      rw [List.mem_cons, not_or] at absent
      simp only [List.length_cons, Nat.add_sub_cancel, List.drop_left]
      rw [trimStartMatches, if_neg]
      exact fun isPrefix => absent.1 (List.cons_prefix_cons.mp isPrefix.2).1

theorem parse_toDigits
    {value : Nat}
    (small : value ≤ CoreLists.usizeMax) :
    CoreLists.parse (Nat.toDigits 10 value) = .ok value := by
  refine CoreLists.parse_eq_ok_iff.mpr ⟨Nat.toDigits 10 value, .inl rfl, ?_, ?_, ?_, small⟩
  · exact Nat.toDigits_ne_nil
  · exact fun c isDigit => Nat.isDigit_of_mem_toDigits (by decide) (by decide) isDigit
  · exact Nat.ofDigitChars_ten_toDigits.symm

theorem toDigit_digitChar :
    ∀ digit < 16, toDigit (Nat.digitChar digit) = some digit := by
  decide

theorem isAlphanum_digitChar :
    ∀ digit < 16, (Nat.digitChar digit).isAlphanum = true := by
  decide

theorem digitChar_ne
    {digit : Nat}
    {c : Char}
    (small : digit < 16)
    (other : c.isAlphanum = false) :
    c ≠ Nat.digitChar digit := by
  rintro rfl
  exact Bool.false_ne_true (other.symm.trans (isAlphanum_digitChar digit small))

theorem not_mem_toDigits
    {c : Char}
    (value : Nat)
    (other : c.isDigit = false) :
    c ∉ Nat.toDigits 10 value := by
  intro isMember
  have isDigit : c.isDigit = true :=
    Nat.isDigit_of_mem_toDigits (by decide) (by decide) isMember
  exact Bool.false_ne_true (other.symm.trans isDigit)

theorem fromStrRadix_digits (value : UInt8) :
    fromStrRadix
        [Nat.digitChar (value.toNat / 16), Nat.digitChar (value.toNat % 16)] =
      some value := by
  have bound := value.toNat_lt
  have high : value.toNat / 16 < 16 := by omega
  have low : value.toNat % 16 < 16 := by omega
  have noSign : '+' ≠ _ := digitChar_ne high (by decide)
  rw [fromStrRadix, if_neg fun isSign => noSign isSign.1.symm]
  simp only [fromDigits, toDigit_digitChar _ high, toDigit_digitChar _ low,
    Option.bind_eq_bind, Option.bind_some]
  rw [if_neg (by omega), if_neg (by omega)]
  have recombined : 16 * (16 * 0 + value.toNat / 16) + value.toNat % 16 = value.toNat := by
    omega
  rw [recombined, UInt8.ofNat_toNat]

theorem not_mem_lineOf
    {c : Char}
    (entry : UInt32 × UInt8)
    (noDigit : c.isAlphanum = false)
    (noMark : c ∉ "k! -> #x".toList) :
    c ∉ lineOf entry := by
  have bound := entry.2.toNat_lt
  have high : c ≠ Nat.digitChar (entry.2.toNat / 16) := digitChar_ne (by omega) noDigit
  have low : c ≠ Nat.digitChar (entry.2.toNat % 16) := digitChar_ne (by omega) noDigit
  have number := not_mem_toDigits entry.1.toNat (Bool.or_eq_false_iff.mp noDigit).2
  simp_all [lineOf]

theorem parseLine_lineOf (entry : UInt32 × UInt8) :
    parseLine (lineOf entry) = some (entry.1.toNat, entry.2) := by
  have bound := entry.1.toNat_lt
  have valueBound := entry.2.toNat_lt
  have high {c : Char} : c.isAlphanum = false → c ≠ Nat.digitChar (entry.2.toNat / 16) :=
    digitChar_ne (by omega)
  have low {c : Char} : c.isAlphanum = false → c ≠ Nat.digitChar (entry.2.toNat % 16) :=
    digitChar_ne (by omega)
  have noBlank : ' ' ∉ "k!".toList ++ Nat.toDigits 10 entry.1.toNat := by
    have number : ' ' ∉ Nat.toDigits 10 entry.1.toNat := not_mem_toDigits _ (by decide)
    simp [number]
  have noBlankAfter :
      ' ' ∉ "#x".toList ++
        [Nat.digitChar (entry.2.toNat / 16), Nat.digitChar (entry.2.toNat % 16)] := by
    simp [high, low]
  have noMark : 'k' ∉ Nat.toDigits 10 entry.1.toNat := not_mem_toDigits _ (by decide)
  have noHash :
      '#' ∉ [Nat.digitChar (entry.2.toNat / 16), Nat.digitChar (entry.2.toNat % 16)] := by
    simp [high, low]
  have pieces :
      split " -> ".toList (lineOf entry) =
        ["k!".toList ++ Nat.toDigits 10 entry.1.toNat,
          "#x".toList ++
            [Nat.digitChar (entry.2.toNat / 16), Nat.digitChar (entry.2.toNat % 16)]] :=
    (split_append noBlank _).trans (congrArg _ (split_of_not_mem noBlankAfter))
  have offset :
      trimStartMatches "k!".toList ("k!".toList ++ Nat.toDigits 10 entry.1.toNat) =
        Nat.toDigits 10 entry.1.toNat :=
    trimStartMatches_append noMark
  have value :
      trimStartMatches "#x".toList
          ("#x".toList ++
            [Nat.digitChar (entry.2.toNat / 16), Nat.digitChar (entry.2.toNat % 16)]) =
        [Nat.digitChar (entry.2.toNat / 16), Nat.digitChar (entry.2.toNat % 16)] :=
    trimStartMatches_append noHash
  rw [parseLine, pieces]
  dsimp only
  rw [offset, value, parse_toDigits, fromStrRadix_digits]
  · rfl
  · rw [CoreLists.usizeMax]
    omega

theorem parseModel_modelToString
    (z3 : Z3 Bv Formula)
    (model : Model) :
    parseModel (z3.modelToString model) =
      some (model.map fun entry => (entry.1.toNat, entry.2)) := by
  rw [z3.modelToString_eq, parseModel]
  induction model with
  | nil =>
      rfl
  | cons entry rest ih =>
      have noFeed : '\n' ∉ lineOf entry := not_mem_lineOf entry (by decide) (by decide)
      have noReturn : '\r' ∉ lineOf entry := not_mem_lineOf entry (by decide) (by decide)
      rw [List.flatMap_cons, List.append_assoc, List.singleton_append,
        lines_append noFeed noReturn, List.mapM_cons, parseLine_lineOf,
        ih]
      rfl

end

namespace State

section

variable {z3 : Z3 Bv Formula} {state after : State Bv Formula}

theorem pop_negated (op : Formula) : (state.negated z3 op).pop = some state.solver := by
  rfl

theorem assertions_negated (op : Formula) :
    (state.negated z3 op).assertions =
      state.solver.assertions ++ [z3.simplify (z3.not op)] := by
  simp [negated, Solver.assertions, Solver.push, Solver.assert]

theorem mem_assertions_assert
    {solver : Solver Formula}
    {formula op : Formula} :
    formula ∈ (solver.assert op).assertions ↔ formula ∈ solver.assertions ∨ formula = op := by
  simp [Solver.assertions, Solver.assert, or_assoc]

theorem nonTrivial_of_translated
    {msg : SymExpr}
    {expr : Dynamic Bv Formula}
    (translated : translate z3 state.translation msg = some (some expr)) :
    state.nonTrivial z3 msg = none := by
  rw [nonTrivial]
  rintro constraint taken location rfl
  cases translated

theorem turn_cases
    {turn : Turn}
    (taken : state.turn z3 turn = some after) :
    state.returned = false ∧
      ((state.nonTrivial z3 turn.msg = none ∧
          ∃ translation, after = { state with translation := translation }) ∨
        ∃ op,
          state.nonTrivial z3 turn.msg = some op ∧
            state.constrain z3 op turn.negation turn.recheck = some after) := by
  rw [State.turn] at taken
  split at taken
  · cases taken
  · rename_i running
    refine ⟨Bool.eq_false_iff.mpr running, ?_⟩
    obtain ⟨translated, isTranslated, continued⟩ := Option.bind_eq_some_iff.mp taken
    cases translated with
    | some expr =>
        exact .inl
          ⟨nonTrivial_of_translated isTranslated, _, (Option.some.inj continued).symm⟩
    | none =>
        dsimp only at continued
        split at continued
        · rename_i constraint wasTaken location isConstraint
          obtain ⟨bool, found, further⟩ := Option.bind_eq_some_iff.mp continued
          rw [isConstraint]
          simp only [nonTrivial, found, Option.bind_eq_bind, Option.bind_some]
          split at further
          · rename_i constant
            exact .inl ⟨if_pos constant, _, (Option.some.inj further).symm⟩
          · rename_i notConstant
            exact .inr ⟨op z3 wasTaken bool, if_neg notConstant, further⟩
        · rename_i noConstraint
          refine .inl ⟨?_, _, (Option.some.inj continued).symm⟩
          rw [nonTrivial]
          exact noConstraint

theorem constrain_cases
    {op : Formula}
    {negation recheck : SatResult}
    (taken : state.constrain z3 op negation recheck = some after) :
    (negation = .unsat ∧ after = { state with returned := true }) ∨
      (negation = .unsat ∧ after = state.assertOp state.solver op) ∨
        (negation = .unknown ∧ after = state.assertOp (state.negated z3 op) op) ∨
          ∃ model,
            negation = .sat model ∧
              after =
                { state.assertOp state.solver op with
                  res := state.res ++ [model.map fun entry => (entry.1.toNat, entry.2)]
                  origins := state.origins ++ [(state.path, op)] } := by
  cases negation with
  | unsat =>
      cases recheck with
      | unsat =>
          exact .inl ⟨rfl, (Option.some.inj taken).symm⟩
      | unknown =>
          exact .inl ⟨rfl, (Option.some.inj taken).symm⟩
      | sat model =>
          exact .inr (.inl ⟨rfl, (Option.some.inj taken).symm⟩)
  | unknown =>
      exact .inr (.inr (.inl ⟨rfl, (Option.some.inj taken).symm⟩))
  | sat model =>
      refine .inr (.inr (.inr ⟨model, rfl, ?_⟩))
      rw [constrain] at taken
      simp only [parseModel_modelToString, pop_negated, Option.bind_eq_bind,
        Option.bind_some] at taken
      exact (Option.some.inj taken).symm

theorem exists_assignment
    {model : Model}
    (nodup : (model.map Prod.fst).Nodup) :
    ∃ assignment : Assignment, ∀ entry ∈ model, assignment entry.1 = entry.2 := by
  induction model with
  | nil =>
      exact ⟨fun _ => 0, by simp⟩
  | cons entry rest ih =>
      obtain ⟨fresh, nodupRest⟩ := List.nodup_cons.mp nodup
      obtain ⟨assignment, agrees⟩ := ih nodupRest
      refine ⟨Function.update assignment entry.1 entry.2, List.forall_mem_cons.mpr ⟨?_, ?_⟩⟩
      · exact Function.update_self _ _ _
      · intro other isOther
        have distinct : other.1 ≠ entry.1 := by
          intro same
          exact fresh (same ▸ List.mem_map_of_mem isOther)
        rw [Function.update_of_ne distinct]
        exact agrees other isOther

theorem diverts_of_sound
    {op : Formula}
    {model : Model}
    (sound : (SatResult.sat model).Sound z3 (state.negated z3 op).assertions)
    (asserted : ∀ formula ∈ state.path, formula ∈ state.solver.assertions) :
    Diverts z3 (model.map fun entry => (entry.1.toNat, entry.2)) (state.path, op) := by
  obtain ⟨nodup, holds⟩ := sound
  have replaced_iff (assignment : Assignment) :
      Replaced (model.map fun entry => (entry.1.toNat, entry.2)) assignment ↔
        ∀ entry ∈ model, assignment entry.1 = entry.2 := by
    simp only [Replaced, List.forall_mem_map, UInt32.ofNat_toNat]
  constructor
  · obtain ⟨assignment, agrees⟩ := exists_assignment nodup
    exact ⟨assignment, (replaced_iff assignment).mpr agrees⟩
  · intro assignment replaced
    have all := holds assignment ((replaced_iff assignment).mp replaced)
    rw [assertions_negated] at all
    constructor
    · intro earlier isEarlier
      exact all earlier (List.mem_append_left _ (asserted earlier isEarlier))
    · have negation := all _ (List.mem_append_right _ (List.mem_singleton_self _))
      exact z3.holds_not.mp (z3.holds_simplify.mp negation)

/-- The path is asserted in some scope, and the mutations so far divert it. -/
structure Asserted (z3 : Z3 Bv Formula) (state : State Bv Formula) : Prop where
  asserted : ∀ formula ∈ state.path, formula ∈ state.solver.assertions
  diverts : List.Forall₂ (Diverts z3) state.res state.origins

theorem Asserted.next
    {turn : Turn}
    (asserted : state.Asserted z3)
    (taken : state.Step z3 turn after) :
    after.Asserted z3 := by
  obtain ⟨_, ⟨_, translation, rfl⟩ | ⟨op, isOp, constrained⟩⟩ := turn_cases taken.2
  · exact ⟨asserted.asserted, asserted.diverts⟩
  · have sound := (taken.1 op isOp).1
    have kept {solver : Solver Formula} :
        (∀ formula ∈ state.solver.assertions, formula ∈ solver.assertions) →
          ∀ formula ∈ state.path ++ [op], formula ∈ (solver.assert op).assertions := by
      intro grows formula isFormula
      rw [mem_assertions_assert]
      rcases List.mem_append.mp isFormula with before | own
      · exact .inl (grows formula (asserted.asserted formula before))
      · exact .inr (List.mem_singleton.mp own)
    rcases constrain_cases constrained with
      ⟨_, rfl⟩ | ⟨_, rfl⟩ | ⟨_, rfl⟩ | ⟨model, isSat, rfl⟩
    · exact ⟨asserted.asserted, asserted.diverts⟩
    · exact ⟨kept fun _ => id, asserted.diverts⟩
    · refine ⟨kept fun formula isFormula => ?_, asserted.diverts⟩
      rw [assertions_negated]
      exact List.mem_append_left _ isFormula
    · rw [isSat] at sound
      exact ⟨kept fun _ => id,
        List.rel_append asserted.diverts
          (.cons (diverts_of_sound sound asserted.asserted) .nil)⟩

theorem asserted_initial : (initial : State Bv Formula).Asserted z3 :=
  ⟨by simp [initial], .nil⟩

theorem followsPath_initial : (initial : State Bv Formula).FollowsPath z3 :=
  ⟨fun _ => rfl, .nil⟩

theorem FollowsPath.next
    {turn : Turn}
    (follows : state.FollowsPath z3)
    (asserted : after.Asserted z3)
    (decides : state.Decides z3 turn)
    (taken : state.turn z3 turn = some after) :
    after.FollowsPath z3 := by
  refine ⟨?_, asserted.diverts⟩
  obtain ⟨running, ⟨_, translation, rfl⟩ | ⟨op, isOp, constrained⟩⟩ := turn_cases taken
  · exact follows.solver_eq
  · rcases constrain_cases constrained with
      ⟨_, rfl⟩ | ⟨_, rfl⟩ | ⟨isUnknown, _⟩ | ⟨model, _, rfl⟩
    · intro returned
      cases returned
    · intro _
      rw [assertOp, follows.solver_eq running]
      rfl
    · exact absurd isUnknown (decides (by simp [isOp]))
    · intro _
      rw [assertOp, follows.solver_eq running]
      rfl

theorem decides_of_next
    {turn : Turn}
    (follows : after.FollowsPath z3)
    (taken : state.turn z3 turn = some after) :
    state.Decides z3 turn := by
  intro isConstraint isUnknown
  obtain ⟨running, ⟨noConstraint, _⟩ | ⟨op, isOp, constrained⟩⟩ := turn_cases taken
  · exact isConstraint noConstraint
  · rw [isUnknown] at constrained
    obtain rfl := Option.some.inj constrained
    have scopes := congrArg Solver.outer (follows.solver_eq running)
    cases scopes

/--
The solver has exactly the constraints of the path after each turn, and the mutations
divert the path, exactly if the solver gives up on the negation of no constraint.
-/
theorem always_followsPath_iff
    (z3 : Z3 Bv Formula)
    (trace : List Turn) :
    Run.Always (Step z3) (FollowsPath z3) initial trace ↔
      Run.Everywhere (Step z3) (Decides z3) initial trace := by
  refine
    Run.always_iff_everywhere_of_invariant
      (fun {state : State Bv Formula}
        (invariant : state.FollowsPath z3 ∧ state.Asserted z3) => invariant.1)
      ?_ ?_ ⟨followsPath_initial, asserted_initial⟩ trace
  · intro state turn after invariant decides taken
    have asserted := invariant.2.next taken
    exact ⟨invariant.1.next asserted decides taken.2, asserted⟩
  · intro state turn after _ taken follows
    exact decides_of_next follows taken.2

/--
What a turn takes: the path grows by the constraint of the message, unless that is a constant
or the function returns there, and a mutation is made for that constraint.
-/
structure Takes
    (z3 : Z3 Bv Formula)
    (state : State Bv Formula)
    (turn : Turn)
    (after : State Bv Formula) : Prop where
  path :
    after.path =
      state.path ++
        if after.returned then [] else (state.nonTrivial z3 turn.msg).toList
  mutation :
    after.res = state.res ∧ after.origins = state.origins ∨
      ∃ op replacements,
        state.nonTrivial z3 turn.msg = some op ∧
          after.res = state.res ++ [replacements] ∧
            after.origins = state.origins ++ [(state.path, op)]

theorem takes_of_turn
    {turn : Turn}
    (taken : state.turn z3 turn = some after) :
    state.Takes z3 turn after := by
  obtain ⟨running, ⟨noConstraint, translation, rfl⟩ | ⟨op, isOp, constrained⟩⟩ :=
    turn_cases taken
  · exact ⟨by simp [noConstraint], .inl ⟨rfl, rfl⟩⟩
  · rcases constrain_cases constrained with
      ⟨_, rfl⟩ | ⟨_, rfl⟩ | ⟨_, rfl⟩ | ⟨model, _, rfl⟩
    · exact ⟨by simp, .inl ⟨rfl, rfl⟩⟩
    · exact ⟨by simp [assertOp, running, isOp], .inl ⟨rfl, rfl⟩⟩
    · exact ⟨by simp [assertOp, running, isOp], .inl ⟨rfl, rfl⟩⟩
    · exact ⟨by simp [assertOp, running, isOp], .inr ⟨op, _, isOp, rfl, rfl⟩⟩

/-- Whatever the solver answers rightly, the mutations divert the path that the turns take. -/
theorem always_asserted
    (z3 : Z3 Bv Formula)
    (trace : List Turn) :
    Run.Always (Step z3) (Asserted z3) initial trace ∧
      ∀ state turn after, Step z3 state turn after → state.Takes z3 turn after := by
  refine ⟨fun _ _ _ run => run.invariant Asserted.next asserted_initial, ?_⟩
  exact fun _ _ _ taken => takes_of_turn taken.2

end

/-! ### A solver that gives up -/

/-- Terms for input bytes and constants. -/
inductive ByteTerm where
  | byte (offset : UInt32)
  | value (value : UInt64)

/-- Formulas about them. -/
inductive ByteFormula where
  | const (value : Bool)
  | same (first second : ByteTerm)
  | not (formula : ByteFormula)

def ByteTerm.eval (assignment : Assignment) : ByteTerm → UInt64
  | .byte offset => (assignment offset).toUInt64
  | .value constant => constant

def ByteFormula.eval (assignment : Assignment) : ByteFormula → Bool
  | .const value => value
  | .same first second => first.eval assignment == second.eval assignment
  | .not formula => !formula.eval assignment

/-- A solver with no more than these. -/
def byteSolver : Z3 ByteTerm ByteFormula where
  newConst offset _ := .byte offset
  fromU64 value _ := .value value
  fromBool := .const
  bvneg := id
  bvnot := id
  bvBinop _ _ _ := none
  bvCompare _ _ _ := none
  eq
    | .bv first, .bv second => some (.same first second)
    | _, _ => none
  not := .not
  and first _ := first
  or first _ := first
  xor first _ := first
  ite _ _ _ := none
  signExt _ _ := none
  zeroExt _ _ := none
  extract _ _ _ := none
  getSize _ := 8
  simplify := id
  asBool
    | .const value => some value
    | _ => none
  modelToString model := model.flatMap fun entry => lineOf entry ++ ['\n']
  Holds assignment formula := formula.eval assignment = true
  holds_not := by simp [ByteFormula.eval]
  holds_simplify := Iff.rfl
  modelToString_eq _ := rfl

/-- The number of a message that has this many before it. -/
def numbered (before : Nat) : SymExprRef :=
  ⟨before + 1, Nat.succ_pos before⟩

/-- The first byte of the input is compared with `A`, and the solver gives up. -/
def comparedByte : List Turn :=
  [⟨numbered 0, .inputByte 0 65, .unknown, .unknown⟩,
    ⟨numbered 1, .integer 65 8, .unknown, .unknown⟩,
    ⟨numbered 2, .equal (numbered 0) (numbered 1), .unknown, .unknown⟩,
    ⟨numbered 3, .pathConstraint (numbered 2) true 0, .unknown, .unknown⟩]

theorem not_followsPath_comparedByte :
    ¬ Run.Always (Step byteSolver) (FollowsPath byteSolver) initial comparedByte := by
  intro always
  have answers {state : State ByteTerm ByteFormula} (id : SymExprRef) (msg : SymExpr) :
      state.Answers byteSolver ⟨id, msg, .unknown, .unknown⟩ :=
    fun _ _ => ⟨trivial, fun _ => trivial⟩
  obtain ⟨final, run, running, scopes⟩ :
      ∃ final,
        Run (Step byteSolver) initial comparedByte final ∧
          final.returned = false ∧ final.solver.outer = [[]] :=
    ⟨_,
      .cons ⟨answers _ _, rfl⟩
        (.cons ⟨answers _ _, rfl⟩
          (.cons ⟨answers _ _, rfl⟩ (.cons ⟨answers _ _, rfl⟩ (.nil _)))),
      rfl, rfl⟩
  have follows := always comparedByte final (List.prefix_refl _) run
  rw [follows.solver_eq running] at scopes
  cases scopes

end State

end MeFuzz.Concolic
