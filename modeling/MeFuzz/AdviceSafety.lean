import MeFuzz.BadFuzzers

namespace MeFuzz.Analysis

/-!
# Safe and optimal advice

The advice is a bad fuzzer that covers least on its own, whenever one of several bad
fuzzers covers anything on its own.  If none does, there is nothing to sort by norm,
and taking the first element panics.
-/

variable {Number : Type}
variable {analyze : Analyze Number}

/-- The fuzzer covers the branch. -/
def Covers (analyze : Analyze Number) (id : ElementID) (branch : Branch) : Prop :=
  analyze.coverageOf id branch ≠ 0

instance (analyze : Analyze Number) (id : ElementID) (branch : Branch) :
    Decidable (Covers analyze id branch) :=
  inferInstanceAs (Decidable (_ ≠ _))

/-- The branches that a fuzzer covers and no other one of a set. -/
def coveredAlone
    (analyze : Analyze Number)
    (bad : ElementID → Prop)
    (id : ElementID) : Set Branch :=
  {branch |
    Covers analyze id branch ∧
      ∀ other, bad other → other ≠ id → ¬Covers analyze other branch}

theorem covers_iff_pos
    {id : ElementID}
    {branch : Branch} :
    Covers analyze id branch ↔ 0 < (analyze.coverageOf id branch).toNat := by
  rw [Covers, Nat.pos_iff_ne_zero, ne_eq, ne_eq, ← UInt32.toNat_inj]
  rfl

theorem commonCoverage_eq (ids : List ElementID) (branch : Branch) :
    commonCoverage analyze ids branch =
      ids.countP fun id => Covers analyze id branch := by
  induction ids using List.reverseRecOn with
  | nil =>
      rfl
  | append_singleton front last ih =>
      have step :
          commonCoverage analyze (front ++ [last]) branch =
            if 0 < (analyze.coverageOf last branch).toNat then
              commonCoverage analyze front branch + 1
            else commonCoverage analyze front branch := by
        unfold commonCoverage
        rw [List.foldl_concat]
      rw [step, List.countP_append, ih, List.countP_singleton]
      simp only [← covers_iff_pos, decide_eq_true_eq]
      split <;> rfl

theorem countP_eq_one
    {Item : Type}
    [DecidableEq Item]
    {test : Item → Bool}
    {items : List Item}
    {item : Item}
    (distinct : items.Nodup)
    (isItem : item ∈ items)
    (passes : test item = true) :
    items.countP test = 1 ↔ ∀ other ∈ items, other ≠ item → ¬test other = true := by
  rw [(List.perm_cons_erase isItem).countP_eq, List.countP_cons_of_pos passes,
    Nat.add_eq_right, List.countP_eq_zero]
  simp only [distinct.mem_erase_iff, and_imp]
  exact forall_congr' fun other => forall_comm

theorem uniqueBlocks_eq
    {ids : List ElementID}
    {id : ElementID}
    (distinct : ids.Nodup)
    (isBad : id ∈ ids) :
    uniqueBlocks analyze (commonCoverage analyze ids) id =
      (coveredAlone analyze (· ∈ ids) id).ncard := by
  unfold uniqueBlocks
  rw [← Set.ncard_coe_finset]
  congr 1
  ext branch
  simp only [Finset.coe_filter, Finset.mem_univ, true_and, Set.mem_ofPred_eq,
    coveredAlone, Nat.not_lt, Nat.one_le_iff_ne_zero, ← Nat.pos_iff_ne_zero,
    ← covers_iff_pos, commonCoverage_eq]
  refine and_congr_right fun covers => ?_
  have isOne :=
    @countP_eq_one ElementID _ (fun id => decide (Covers analyze id branch)) ids id
      distinct isBad (decide_eq_true covers)
  simp only [decide_eq_true_eq] at isOne
  rw [← isOne]
  omega

section

variable {orders : Orders}
variable {bad : BadFuzzers Number}

theorem mem_uniqueCounts
    {ub : ElementID × Nat} :
    ub ∈ uniqueCounts orders bad analyze ↔
      ub.1 ∈ bad.keys ∧
        ub.2 = (coveredAlone analyze (· ∈ bad.keys) ub.1).ncard := by
  have walked : ∀ id, id ∈ (orders.common.walk bad).map Prod.fst ↔ id ∈ bad.keys :=
    fun id => (WalkOrder.walk_perm.map Prod.fst).mem_iff
  have isCount :
      ∀ id ∈ bad.keys,
        uniqueBlocks analyze
            (commonCoverage analyze ((orders.common.walk bad).map Prod.fst)) id =
          (coveredAlone analyze (· ∈ bad.keys) id).ncard := by
    intro id isBad
    rw [uniqueBlocks_eq WalkOrder.nodup_walk ((walked id).mpr isBad)]
    simp only [walked]
  unfold uniqueCounts
  rw [List.mem_map]
  constructor
  · rintro ⟨⟨id, bf⟩, isWalked, rfl⟩
    have isBad := OrderedMap.mem_keys.mpr ⟨bf, WalkOrder.mem_walk.mp isWalked⟩
    exact ⟨isBad, isCount id isBad⟩
  · rintro ⟨isBad, counted⟩
    obtain ⟨bf, isThere⟩ := OrderedMap.mem_keys.mp isBad
    refine ⟨(ub.1, bf), WalkOrder.mem_walk.mpr isThere, ?_⟩
    exact Prod.ext rfl ((isCount ub.1 isBad).trans counted.symm)

theorem comparesBy_count (ubs : List (ElementID × Nat)) :
    ComparesBy Prod.snd countCmp ubs := by
  intro first _ second _
  unfold countCmp
  omega

end

section

variable [LinearOrder Number]
variable {slices : SliceSort}

theorem detectByNormAndSpeed_nil : detectByNormAndSpeed slices
    ([] : List (BadFuzzer Number)) = .panicked := by
  unfold detectByNormAndSpeed
  rw [(slices.perm normCmp []).eq_nil]

theorem detectByNormAndSpeed_spec
    {found : List (BadFuzzer Number)}
    (notNil : found ≠ []) :
    ∃ bf ∈ found,
      detectByNormAndSpeed slices found =
        .returned
          (some { id := bf.id, why := "worst norm", isNoice := bf.isNoice }) := by
  unfold detectByNormAndSpeed
  have perm := slices.perm normCmp found
  cases sorted : slices.sortFunc normCmp found with
  | nil =>
      rw [sorted] at perm
      exact absurd perm.symm.eq_nil notNil
  | cons bf rest =>
      rw [sorted] at perm
      exact ⟨bf, perm.mem_iff.mp List.mem_cons_self, rfl⟩

end

variable [AddCommGroup Number]
variable {bad : BadFuzzers Number}

variable {ubs : List (ElementID × Nat)}

theorem mem_takeZeros
    {bf : BadFuzzer Number}
    (isTaken : bf ∈ takeZeros bad ubs) :
    ∃ ub ∈ ubs, ub.2 = 0 ∧ bf = badOf bad ub.1 := by
  induction ubs with
  | nil =>
      cases isTaken
  | cons first rest ih =>
      unfold takeZeros at isTaken
      split at isTaken
      · cases isTaken
      · rename_i isZero
        cases isTaken with
        | head =>
            exact ⟨first, List.mem_cons_self, not_not.mp isZero, rfl⟩
        | tail _ later =>
            obtain ⟨ub, isLater, taken⟩ := ih later
            exact ⟨ub, .tail _ isLater, taken⟩

theorem leastUnique_eq_nil
    (allZero : ∀ ub ∈ ubs, ub.2 = 0) :
    leastUnique bad ubs = [] := by
  unfold leastUnique
  apply if_pos
  cases isLast : ubs.getLast? with
  | none =>
      rfl
  | some last =>
      exact allZero last (List.mem_of_getLast? isLast)

theorem lastCount_ne_zero
    (sorted : ubs.Pairwise fun first second => first.2 ≤ second.2)
    {one : ElementID × Nat}
    (isThere : one ∈ ubs)
    (positive : one.2 ≠ 0) :
    (ubs.getLast?.map Prod.snd).getD 0 ≠ 0 := by
  obtain rfl | ⟨front, last, rfl⟩ := List.eq_nil_or_concat ubs
  · cases isThere
  · rw [List.concat_eq_append] at sorted isThere ⊢
    rw [List.getLast?_concat]
    have below := (List.pairwise_append.mp sorted).2.2
    have isLess : one.2 ≤ last.2 := by
      cases List.mem_append.mp isThere with
      | inl isFront =>
          exact below one isFront last List.mem_cons_self
      | inr isLast =>
          rw [List.mem_singleton.mp isLast]
    exact (isLess.trans_lt' (Nat.pos_of_ne_zero positive)).ne'

theorem leastUnique_spec
    {ubs : List (ElementID × Nat)}
    (sorted : ubs.Pairwise fun first second => first.2 ≤ second.2)
    {one : ElementID × Nat}
    (isThere : one ∈ ubs)
    (positive : one.2 ≠ 0) :
    leastUnique bad ubs ≠ [] ∧
      ∀ bf ∈ leastUnique bad ubs,
        ∃ ub ∈ ubs, bf = badOf bad ub.1 ∧ ∀ other ∈ ubs, ub.2 ≤ other.2 := by
  have lastPositive := lastCount_ne_zero sorted isThere positive
  cases ubs with
  | nil =>
      cases isThere
  | cons first rest =>
      have isLeast : ∀ other ∈ first :: rest, first.2 ≤ other.2 := by
        intro other isOther
        cases isOther with
        | head =>
            exact le_rfl
        | tail _ later =>
            exact List.rel_of_pairwise_cons sorted later
      have isLeft :
          leastUnique bad (first :: rest) =
            badOf bad first.1 :: takeZeros bad rest :=
        if_neg lastPositive
      rw [isLeft]
      refine ⟨List.cons_ne_nil _ _, ?_⟩
      intro bf isBf
      cases isBf with
      | head =>
          exact ⟨first, List.mem_cons_self, rfl, isLeast⟩
      | tail _ later =>
          obtain ⟨ub, isUb, isZero, taken⟩ := mem_takeZeros later
          refine ⟨ub, .tail _ isUb, taken, fun other _ => ?_⟩
          rw [isZero]
          exact Nat.zero_le _

theorem detectByUniqueCoverage_cases
    (slices : SliceSort)
    (orders : Orders)
    (bad : BadFuzzers Number)
    (analyze : Analyze Number) :
    ((∀ id ∈ bad.keys, coveredAlone analyze (· ∈ bad.keys) id = ∅) ∧
      detectByUniqueCoverage slices orders bad analyze = []) ∨
      (∃ id ∈ bad.keys, (coveredAlone analyze (· ∈ bad.keys) id).Nonempty) ∧
        detectByUniqueCoverage slices orders bad analyze ≠ [] ∧
        ∀ bf ∈ detectByUniqueCoverage slices orders bad analyze,
          ∃ id,
            bad.get id = some bf ∧
              ∀ other ∈ bad.keys,
                (coveredAlone analyze (· ∈ bad.keys) id).ncard ≤
                  (coveredAlone analyze (· ∈ bad.keys) other).ncard := by
  unfold detectByUniqueCoverage
  have perm := slices.perm countCmp (uniqueCounts orders bad analyze)
  have sorted := slices.sorted (comparesBy_count (uniqueCounts orders bad analyze))
  generalize slices.sortFunc countCmp (uniqueCounts orders bad analyze) = ubs
    at perm sorted ⊢
  have isCount :
      ∀ ub, ub ∈ ubs ↔
        ub.1 ∈ bad.keys ∧
          ub.2 = (coveredAlone analyze (· ∈ bad.keys) ub.1).ncard :=
    fun ub => perm.mem_iff.trans mem_uniqueCounts
  by_cases nothing : ∀ id ∈ bad.keys, coveredAlone analyze (· ∈ bad.keys) id = ∅
  · refine .inl ⟨nothing, leastUnique_eq_nil ?_⟩
    intro ub isUb
    obtain ⟨isBad, counted⟩ := (isCount ub).mp isUb
    rw [counted, nothing ub.1 isBad, Set.ncard_empty]
  · push Not at nothing
    obtain ⟨id, isBad, nonempty⟩ := nothing
    have positive : (coveredAlone analyze (· ∈ bad.keys) id).ncard ≠ 0 :=
      ((Set.ncard_pos).mpr nonempty).ne'
    have isThere :
        (id, (coveredAlone analyze (· ∈ bad.keys) id).ncard) ∈ ubs :=
      (isCount _).mpr ⟨isBad, rfl⟩
    obtain ⟨notNil, areLeast⟩ := @leastUnique_spec _ _ bad _ sorted _ isThere positive
    refine .inr ⟨⟨id, isBad, nonempty⟩, notNil, ?_⟩
    intro bf isBf
    obtain ⟨ub, isUb, taken, isLeast⟩ := areLeast bf isBf
    obtain ⟨isBadUb, counted⟩ := (isCount ub).mp isUb
    obtain ⟨value, isValue⟩ := OrderedMap.mem_keys.mp isBadUb
    refine ⟨ub.1, ?_, ?_⟩
    · rw [taken, badOf, isValue]
      rfl
    · intro other isOther
      rw [← counted]
      have isOtherCount :
          (other, (coveredAlone analyze (· ∈ bad.keys) other).ncard) ∈ ubs :=
        (isCount _).mpr ⟨isOther, rfl⟩
      exact isLeast _ isOtherCount

variable [LinearOrder Number]

/-- The analysis gives a best advice exactly if there is one to give. -/
structure SafeAndOptimal
    (analyze : Analyze Number)
    (bad : ElementID → Prop)
    (result : Result) : Prop where
  safe : result ≠ .panicked
  nil_iff : result = .returned none ↔ ∀ id, ¬bad id
  optimal :
    ∀ advice, result = .returned (some advice) →
      bad advice.id ∧
        ∀ other, bad other →
          (coveredAlone analyze bad advice.id).ncard ≤
            (coveredAlone analyze bad other).ncard

/-- At most one bad fuzzer, or one that covers a branch alone. -/
def Distinguished (analyze : Analyze Number) (bad : ElementID → Prop) : Prop :=
  (∀ one other, bad one → bad other → one = other) ∨
    ∃ id, bad id ∧ (coveredAlone analyze bad id).Nonempty

theorem adviseOn_several
    (slices : SliceSort)
    (orders : Orders)
    {bad : BadFuzzers Number}
    {first second : ElementID × BadFuzzer Number}
    {rest : List (ElementID × BadFuzzer Number)}
    (isSeveral : bad.entries = first :: second :: rest) :
    (detectByUniqueCoverage slices orders bad analyze = [] →
      adviseOn slices orders analyze bad = .panicked) ∧
      (detectByUniqueCoverage slices orders bad analyze ≠ [] →
        ∃ bf ∈ detectByUniqueCoverage slices orders bad analyze,
          ∃ why,
            adviseOn slices orders analyze bad =
              .returned
                (some { id := bf.id, why := why, isNoice := bf.isNoice })) := by
  unfold adviseOn
  rw [isSeveral]
  dsimp only
  constructor
  · intro isNil
    rw [isNil]
    exact detectByNormAndSpeed_nil
  · intro notNil
    generalize detectByUniqueCoverage slices orders bad analyze = found at notNil ⊢
    match found with
    | [] =>
        exact absurd rfl notNil
    | [bf] =>
        exact ⟨bf, List.mem_cons_self, _, rfl⟩
    | one :: other :: others =>
        obtain ⟨bf, isFound, result⟩ :=
          @detectByNormAndSpeed_spec _ _ slices (one :: other :: others) notNil
        exact ⟨bf, isFound, _, result⟩

theorem returned_ne_panicked
    {advice : Option Advice} :
    Result.returned advice ≠ .panicked :=
  nofun

theorem returned_some_ne_none
    {advice : Advice} :
    Result.returned (some advice) ≠ .returned none :=
  nofun

/-- The advice on bad fuzzers that were recorded under their own names. -/
theorem adviseOn_spec
    (slices : SliceSort)
    (orders : Orders)
    {bad : BadFuzzers Number}
    (ownNames : ∀ {id bf}, bad.get id = some bf → bf.id = id) :
    (Distinguished analyze (· ∈ bad.keys) →
      SafeAndOptimal analyze (· ∈ bad.keys) (adviseOn slices orders analyze bad)) ∧
      (¬Distinguished analyze (· ∈ bad.keys) →
        adviseOn slices orders analyze bad = .panicked) := by
  cases isEntries : bad.entries with
  | nil =>
      have isKeys : bad.keys = [] := by
        rw [OrderedMap.keys, isEntries]
        rfl
      have result : adviseOn slices orders analyze bad = .returned none := by
        unfold adviseOn
        rw [isEntries]
      rw [result, isKeys]
      refine ⟨fun _ => ⟨returned_ne_panicked, ?_, ?_⟩, fun notOne => ?_⟩
      · exact iff_of_true rfl fun _ => List.not_mem_nil
      · exact fun _ isAdvice => absurd isAdvice.symm returned_some_ne_none
      · exact absurd (.inl fun one _ isOne => absurd isOne List.not_mem_nil) notOne
  | cons first rest =>
      cases rest with
      | nil =>
          obtain ⟨key, bf⟩ := first
          have isKeys : bad.keys = [key] := by
            rw [OrderedMap.keys, isEntries]
            rfl
          have isKey : bf.id = key := by
            apply ownNames
            rw [← OrderedMap.mem_entries, isEntries]
            exact List.mem_cons_self
          have result :
              adviseOn slices orders analyze bad =
                .returned
                  (some
                    { id := bf.id
                      why := "only one bad fuzzer"
                      isNoice := bf.isNoice }) := by
            unfold adviseOn
            rw [isEntries]
          rw [result, isKeys, isKey]
          refine ⟨fun _ => ⟨returned_ne_panicked, ?_, ?_⟩, fun notOne => ?_⟩
          · exact iff_of_false returned_some_ne_none fun noBad =>
              noBad key List.mem_cons_self
          · rintro advice isAdvice
            obtain rfl := Option.some.inj (Result.returned.inj isAdvice)
            refine ⟨List.mem_cons_self, fun other isOther => ?_⟩
            rw [List.mem_singleton.mp isOther]
          · refine absurd (.inl fun one other isOne isOther => ?_) notOne
            exact (List.mem_singleton.mp isOne).trans (List.mem_singleton.mp isOther).symm
      | cons second rest =>
          obtain ⟨panics, advises⟩ := @adviseOn_several _ analyze _ _ slices orders _ _ _ _ isEntries
          rcases detectByUniqueCoverage_cases slices orders bad analyze with
            ⟨nothing, isNil⟩ | ⟨⟨id, isBad, nonempty⟩, notNil, areLeast⟩
          · refine ⟨fun distinguished => ?_, fun _ => panics isNil⟩
            rcases distinguished with atMostOne | ⟨id, isBad, nonempty⟩
            · have isFirst : first.1 ∈ bad.keys := by
                rw [OrderedMap.keys, isEntries]
                exact List.mem_cons_self
              have isSecond : second.1 ∈ bad.keys := by
                rw [OrderedMap.keys, isEntries]
                exact .tail _ List.mem_cons_self
              have below := bad.sorted
              rw [isEntries] at below
              have less := List.rel_of_pairwise_cons below List.mem_cons_self
              exact absurd (atMostOne _ _ isFirst isSecond) less.ne
            · rw [nothing id isBad] at nonempty
              exact absurd nonempty Set.not_nonempty_empty
          · refine ⟨fun _ => ?_, fun notDistinguished => ?_⟩
            · obtain ⟨bf, isFound, why, result⟩ := advises notNil
              obtain ⟨least, isThere, isLeast⟩ := areLeast bf isFound
              have isBadLeast := OrderedMap.mem_keys.mpr ⟨bf, isThere⟩
              rw [result, ownNames isThere]
              refine ⟨returned_ne_panicked, ?_, ?_⟩
              · exact iff_of_false returned_some_ne_none fun noBad => noBad id isBad
              · rintro advice isAdvice
                obtain rfl := Option.some.inj (Result.returned.inj isAdvice)
                exact ⟨isBadLeast, isLeast⟩
            · exact absurd (.inr ⟨id, isBad, nonempty⟩) notDistinguished

/--
The advice on an analysis of any coverage is safe and optimal exactly if at most one
fuzzer is bad or some bad one covers a branch alone.
-/
theorem advice_is_safe_and_optimal
    (libraries : Libraries Number)
    (slices : SliceSort)
    (orders : Orders)
    (d : CovData) :
    let analyze := analysis libraries orders d
    let bad := IsBad analyze (boundsOf libraries orders analyze)
    SafeAndOptimal analyze bad (startAnalysis libraries slices orders analyze) ↔
      Distinguished analyze bad := by
  intro analyze bad
  have isBad : (· ∈ (badFuzzers libraries orders analyze).keys) = bad :=
    funext fun id => propext mem_badFuzzers
  have spec :=
    @adviseOn_spec _ analyze _ _ slices orders
      (badFuzzers libraries orders analyze)
      fun isThere => (badFuzzers_get isThere).1
  rw [isBad] at spec
  refine ⟨fun isSafe => ?_, spec.1⟩
  by_contra notDistinguished
  exact isSafe.safe (spec.2 notDistinguished)

/-- A coverage vector with these branches. -/
def covering (branches : Finset Branch) : Row :=
  fun branch => if branch ∈ branches then 1 else 0

theorem sqLength_covering (branches : Finset Branch) :
    sqLength (covering branches) = branches.card := by
  have isSquare :
      ∀ branch,
        (covering branches branch).toNat ^ 2 = if branch ∈ branches then 1 else 0 := by
    intro branch
    unfold covering
    split <;> rfl
  unfold sqLength
  simp only [isSquare]
  rw [Finset.sum_ite_mem, Finset.univ_inter, Finset.sum_const, smul_eq_mul, mul_one]

theorem six_lt_covSize {place : Nat} (isSmall : place < 6) : place < CovSize := by
  unfold CovSize
  omega

/-- The first branches. -/
def branchAt (place : Fin 6) : Branch :=
  ⟨place, six_lt_covSize place.isLt⟩

def firstBranch : Branch :=
  branchAt 0

theorem branchAt_injective : Function.Injective branchAt := by
  intro one other same
  exact Fin.ext (Fin.mk.inj same)

/-- Each two of three sets overlap in two elements. -/
def overlappingPlaces : Fin 3 → Finset (Fin 6)
  | 0 => {0, 1, 2, 3}
  | 1 => {2, 3, 4, 5}
  | 2 => {4, 5, 0, 1}

/-- The branches at these places. -/
def overlapping (place : Fin 3) : Finset Branch :=
  (overlappingPlaces place).image branchAt

/-- Three pairs of fuzzers; the first of each pair has found nothing new. -/
def threePairs : CovData where
  entries :=
    [(⟨1, 1⟩, ⟨covering (overlapping 0), 4⟩),
      (⟨1, 2⟩, ⟨covering (overlapping 0), 0⟩),
      (⟨2, 1⟩, ⟨covering (overlapping 1), 4⟩),
      (⟨2, 2⟩, ⟨covering (overlapping 1), 0⟩),
      (⟨3, 1⟩, ⟨covering (overlapping 2), 4⟩),
      (⟨3, 2⟩, ⟨covering (overlapping 2), 0⟩)]
  sorted := by decide

/-- Square roots of squares, the largest value as quantile, and pairs as clusters. -/
def pairingLibraries : Libraries Int where
  sqrt n := n.sqrt
  quantile numbers _ := numbers.foldl max 0
  dbscan _ rows :=
    some ((List.range rows.length).map fun place => ((place / 2 + 1 : Nat) : Int))
  onePerRow := by
    rintro eps rows guesses isGuess
    rw [← Option.some.inj isGuess, List.length_map, List.length_range]

/-- Walks in the order of the keys. -/
def Orders.byKeys : Orders where
  fuzzers := .inOrder
  norms := .inOrder
  clusters := .inOrder
  common := .inOrder
  unique := .inOrder

/-- The analysis of the three pairs. -/
def threePairsAnalysis : Analyze Int :=
  analysis pairingLibraries .byKeys threePairs

variable {id : ElementID}

theorem threePairs_normOf
    {fuzzer : Fuzzer}
    (isFuzzer : threePairs.get id = some fuzzer) :
    threePairsAnalysis.normOf id = normOf pairingLibraries fuzzer := by
  have isNorm :
      threePairsAnalysis.norms.get id =
        (threePairs.get id).map (normOf pairingLibraries) :=
    @WalkOrder.get_insertAll_walk _ _ _ .inOrder threePairs _ _ id
  rw [Analyze.normOf, isNorm, isFuzzer]
  rfl

theorem threePairs_coverageOf
    {fuzzer : Fuzzer}
    (isFuzzer : threePairs.get id = some fuzzer) :
    threePairsAnalysis.coverageOf id = fuzzer.cov := by
  have isCoverage :
      threePairsAnalysis.coverages.get id = (threePairs.get id).map Fuzzer.cov :=
    @WalkOrder.get_insertAll_walk _ _ _ .inOrder threePairs _ _ id
  rw [Analyze.coverageOf, isCoverage, isFuzzer]
  rfl

theorem sqrt_four : Nat.sqrt 4 = 2 :=
  Nat.sqrt_eq 2

theorem pairing_normOf
    (place : Fin 3)
    (last : Nat) :
    normOf pairingLibraries ⟨covering (overlapping place), last⟩ =
      ⟨last.sqrt, 2⟩ := by
  have isFour : (overlapping place).card = 4 := by
    rw [overlapping, Finset.card_image_of_injective _ branchAt_injective]
    fin_cases place <;> rfl
  unfold normOf
  rw [sqLength_covering, isFour]
  dsimp only [pairingLibraries]
  rw [sqrt_four]
  rfl

theorem threePairs_clusterSpeed :
    (boundsOf pairingLibraries .byKeys threePairsAnalysis).clusterSpeed = 2 := by
  have isNorms :
      threePairsAnalysis.norms.entries =
        threePairs.entries.map fun entry =>
          (entry.1, normOf pairingLibraries entry.2) :=
    rfl
  have isBound :
      (boundsOf pairingLibraries .byKeys threePairsAnalysis).clusterSpeed =
        (threePairsAnalysis.norms.entries.map fun entry => entry.2.speed).foldl
          max 0 :=
    rfl
  rw [isBound, isNorms]
  simp only [threePairs, List.map_cons, List.map_nil, pairing_normOf, sqrt_four,
    Nat.sqrt_zero]
  decide

/-- The fuzzers of a pair. -/
def ofPair (place : Fin 3) (onNodeID : OnNodeID) : ElementID :=
  ⟨UInt32.ofNat (place + 1), onNodeID⟩

theorem threePairs_get (place : Fin 3) :
    threePairs.get (ofPair place 1) = some ⟨covering (overlapping place), 4⟩ ∧
      threePairs.get (ofPair place 2) = some ⟨covering (overlapping place), 0⟩ := by
  fin_cases place <;> exact ⟨rfl, rfl⟩

theorem threePairsAnalysis_clusters :
    threePairsAnalysis.clusters =
      (List.finRange 3).map fun place => [ofPair place 1, ofPair place 2] :=
  rfl

/-- The fuzzers that are bad among the three pairs. -/
def ThreePairsBad (id : ElementID) : Prop :=
  IsBad threePairsAnalysis (boundsOf pairingLibraries .byKeys threePairsAnalysis) id

theorem threePairs_bad (place : Fin 3) : ThreePairsBad (ofPair place 1) := by
  obtain ⟨isFirst, isSecond⟩ := threePairs_get place
  have firstNorm :
      threePairsAnalysis.normOf (ofPair place 1) = ⟨2, 2⟩ := by
    rw [threePairs_normOf isFirst, pairing_normOf, sqrt_four]
    rfl
  have secondNorm :
      threePairsAnalysis.normOf (ofPair place 2) = ⟨0, 2⟩ := by
    rw [threePairs_normOf isSecond, pairing_normOf, Nat.sqrt_zero]
    rfl
  refine
    .inr ⟨by fin_cases place <;> decide, [ofPair place 1, ofPair place 2], ⟨?_, ?_⟩,
      [], [ofPair place 2], rfl, ?_, by simp, ?_⟩
  · rw [threePairsAnalysis_clusters]
    exact List.mem_map_of_mem (List.mem_finRange place)
  · rw [threePairsAnalysis_clusters]
    intro other isOther
    obtain ⟨pair, -, rfl⟩ := List.mem_map.mp isOther
    exact le_rfl
  · rw [Slow, firstNorm, threePairs_clusterSpeed]
    decide
  · intro other isOther _
    rw [List.mem_singleton.mp isOther, firstNorm, secondNorm]
    decide

theorem overlappingPlaces_twice :
    ∀ (place : Fin 3) (branch : Fin 6), branch ∈ overlappingPlaces place →
      ∃ other, other ≠ place ∧ branch ∈ overlappingPlaces other := by
  decide

theorem overlapping_twice
    {place : Fin 3}
    {branch : Branch}
    (isBranch : branch ∈ overlapping place) :
    ∃ other, other ≠ place ∧ branch ∈ overlapping other := by
  obtain ⟨position, isPlace, rfl⟩ := Finset.mem_image.mp isBranch
  obtain ⟨other, apart, isOther⟩ := overlappingPlaces_twice place position isPlace
  exact ⟨other, apart, Finset.mem_image_of_mem branchAt isOther⟩

theorem threePairs_covers
    {place : Fin 3}
    {onNodeID : OnNodeID}
    (isMember : onNodeID = 1 ∨ onNodeID = 2)
    (branch : Branch) :
    Covers threePairsAnalysis (ofPair place onNodeID) branch ↔
      branch ∈ overlapping place := by
  have isCoverage :
      threePairsAnalysis.coverageOf (ofPair place onNodeID) =
        covering (overlapping place) := by
    obtain ⟨isFirst, isSecond⟩ := threePairs_get place
    rcases isMember with rfl | rfl
    · exact threePairs_coverageOf isFirst
    · exact threePairs_coverageOf isSecond
  rw [Covers, isCoverage, covering]
  split <;> simp_all

theorem threePairsBad_ofPair
    (isBad : ThreePairsBad id) :
    ∃ place onNodeID, (onNodeID = 1 ∨ onNodeID = 2) ∧ id = ofPair place onNodeID := by
  rcases isBad with ⟨isNoice, -⟩ | ⟨-, cluster, ⟨isCluster, -⟩, isFirst⟩
  · cases isNoice
  · rw [threePairsAnalysis_clusters] at isCluster
    obtain ⟨place, -, rfl⟩ := List.mem_map.mp isCluster
    obtain ⟨before, after, split, -⟩ := isFirst
    have isMember : id ∈ [ofPair place 1, ofPair place 2] := by
      rw [split]
      simp
    rcases List.mem_pair.mp isMember with rfl | rfl
    · exact ⟨place, 1, .inl rfl, rfl⟩
    · exact ⟨place, 2, .inr rfl, rfl⟩

theorem threePairs_not_distinguished :
    ¬Distinguished threePairsAnalysis ThreePairsBad := by
  rintro (atMostOne | ⟨id, isBad, branch, covers, isAlone⟩)
  · exact
      absurd (atMostOne _ _ (threePairs_bad 0) (threePairs_bad 1)) (by decide)
  · obtain ⟨place, onNodeID, isMember, rfl⟩ := threePairsBad_ofPair isBad
    have isBranch := (threePairs_covers isMember branch).mp covers
    obtain ⟨other, apart, isOther⟩ := overlapping_twice isBranch
    refine isAlone (ofPair other 1) (threePairs_bad other) ?_ ?_
    · intro same
      have sameNode := congrArg ElementID.nodeID same
      revert sameNode apart
      clear * -
      revert place other
      simp only [ofPair]
      decide
    · exact (threePairs_covers (.inl rfl) branch).mpr isOther

/-- With three overlapping coverages, the master has bad fuzzers and panics. -/
theorem three_pairs_panic :
    ThreePairsBad ⟨1, 1⟩ ∧ ThreePairsBad ⟨2, 1⟩ ∧
      startAnalysis pairingLibraries .insertionSort .byKeys threePairsAnalysis =
        .panicked := by
  refine ⟨threePairs_bad 0, threePairs_bad 1, ?_⟩
  have isBad :
      (· ∈ (badFuzzers pairingLibraries .byKeys threePairsAnalysis).keys) =
        ThreePairsBad :=
    funext fun id => propext mem_badFuzzers
  have spec :=
    @adviseOn_spec _ threePairsAnalysis _ _ .insertionSort .byKeys
      (badFuzzers pairingLibraries .byKeys threePairsAnalysis)
      fun isThere => (badFuzzers_get isThere).1
  rw [isBad] at spec
  exact spec.2 threePairs_not_distinguished

end MeFuzz.Analysis
