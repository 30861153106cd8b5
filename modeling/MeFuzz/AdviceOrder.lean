import MeFuzz.ClusterOrder

namespace MeFuzz.Analysis

/-!
# The order behind an advice

The maps of the master are walked in any order, and so are those that its analysis is
made from.  As the clustering does not depend on the order, only ties let the order
show: of shortest fuzzers of a cluster, of fuzzers that cover least alone, and of the
shortest ones among those.
-/

variable {Number : Type}

/-- Two analyses of the same fuzzers. -/
structure SameFuzzers (analyze other : Analyze Number) : Prop where
  norms : analyze.norms = other.norms
  coverages : analyze.coverages = other.coverages

theorem analysis_cases
    (libraries : Libraries Number)
    (orders : Orders)
    (d : CovData) :
    analysis libraries orders d = .zero ∨
      (∀ id, (analysis libraries orders d).norms.get id =
          (d.get id).map (normOf libraries)) ∧
        ∀ id, (analysis libraries orders d).coverages.get id =
          (d.get id).map Fuzzer.cov := by
  have norms {id : ElementID} :
      (calculate libraries orders d).2.1.get id = (d.get id).map (normOf libraries) :=
    WalkOrder.get_insertAll_walk
  have coverages {id : ElementID} :
      (OrderedMap.empty.insertAll (calculate libraries orders d).1).get id =
        (d.get id).map Fuzzer.cov :=
    WalkOrder.get_insertAll_walk
  rw [analysis, createAnalyze]
  dsimp only
  split
  · exact .inl rfl
  · cases chooseClusters libraries (calculate libraries orders d).1 _ quantileLevels with
    | none =>
        exact .inl rfl
    | some clusteringData =>
        exact .inr ⟨fun _ => norms, fun _ => coverages⟩

theorem analysis_same
    {libraries : Libraries Number}
    {orders others : Orders}
    {d : CovData}
    (isKnown : analysis libraries orders d ≠ .zero)
    (otherKnown : analysis libraries others d ≠ .zero) :
    SameFuzzers (analysis libraries orders d) (analysis libraries others d) := by
  obtain ⟨norms, coverages⟩ := (analysis_cases libraries orders d).resolve_left isKnown
  obtain ⟨otherNorms, otherCoverages⟩ :=
    (analysis_cases libraries others d).resolve_left otherKnown
  exact
    ⟨OrderedMap.ext_get fun id => (norms id).trans (otherNorms id).symm,
      OrderedMap.ext_get fun id => (coverages id).trans (otherCoverages id).symm⟩

section

variable {analyze other : Analyze Number}

theorem SameFuzzers.symm (same : SameFuzzers analyze other) : SameFuzzers other analyze :=
  ⟨same.norms.symm, same.coverages.symm⟩

theorem SameGroups.exists_cluster
    (same : SameGroups analyze.clusteringData other.clusteringData)
    {cluster : List ElementID}
    (isCluster : cluster ∈ analyze.clusters) :
    ∃ arranged ∈ other.clusters, cluster.Perm arranged := by
  obtain ⟨entry, isEntry, rfl⟩ := List.mem_map.mp isCluster
  have isGroup := same.clusters.mem_iff.mp (List.mem_map_of_mem isEntry)
  obtain ⟨arranged, isArranged, sameGroup⟩ := List.mem_map.mp isGroup
  exact ⟨arranged.2, List.mem_map_of_mem isArranged, Multiset.coe_eq_coe.mp sameGroup.symm⟩

theorem SameGroups.none_of_zero
    (same : SameGroups analyze.clusteringData other.clusteringData)
    (isZero : other.clusteringData = .zero) :
    analyze.clusteringData.noice = [] ∧ analyze.clusters = [] := by
  rw [isZero] at same
  have noClusters := same.clusters.eq_nil
  exact ⟨same.noice.eq_nil, by simpa [Analyze.clusters] using noClusters⟩

theorem SameGroups.exists_largest
    (same : SameGroups analyze.clusteringData other.clusteringData)
    {cluster : List ElementID}
    (largest : Largest analyze cluster) :
    ∃ arranged, Largest other arranged ∧ cluster.Perm arranged := by
  obtain ⟨arranged, isArranged, isPerm⟩ := same.exists_cluster largest.1
  refine ⟨arranged, ⟨isArranged, ?_⟩, isPerm⟩
  intro further isFurther
  obtain ⟨before, isBefore, furtherPerm⟩ := same.symm.exists_cluster isFurther
  rw [furtherPerm.length_eq, ← isPerm.length_eq]
  exact largest.2 before isBefore

end

section

variable [AddCommGroup Number]
variable [LinearOrder Number]
variable {analyze other : Analyze Number}
variable {bounds : Bounds Number}

/-- One of the slow fuzzers of a cluster that are shortest. -/
def Shortest
    (analyze : Analyze Number)
    (bounds : Bounds Number)
    (cluster : List ElementID)
    (id : ElementID) : Prop :=
  id ∈ cluster ∧
    Slow analyze bounds id ∧
      ∀ other ∈ cluster, Slow analyze bounds other →
        (analyze.normOf id).norm ≤ (analyze.normOf other).norm

variable {id : ElementID}

theorem FirstLowest.shortest
    {cluster : List ElementID}
    (isFirst : FirstLowest analyze bounds cluster id) :
    Shortest analyze bounds cluster id := by
  obtain ⟨before, after, rfl, slow, below, above⟩ := isFirst
  refine ⟨by simp, slow, ?_⟩
  intro other isOther otherSlow
  rcases List.mem_append.mp isOther with isBefore | isRest
  · exact (below other isBefore otherSlow).le
  · rcases List.mem_cons.mp isRest with rfl | isAfter
    · exact le_rfl
    · exact above other isAfter otherSlow

theorem firstLowest_iff
    {cluster : List ElementID}
    (untied :
      ∀ one other,
        Shortest analyze bounds cluster one → Shortest analyze bounds cluster other →
          one = other) :
    FirstLowest analyze bounds cluster id ↔ Shortest analyze bounds cluster id := by
  constructor
  · exact FirstLowest.shortest
  · intro shortest
    rcases lowestOf_cases analyze bounds cluster with ⟨noneSlow, _⟩ | ⟨first, isFirst, _⟩
    · exact absurd shortest.2.1 (noneSlow id shortest.1)
    · obtain rfl := untied _ _ shortest isFirst.shortest
      exact isFirst

/-- In each of the largest clusters, one slow fuzzer is shortest. -/
def ClustersUntied (analyze : Analyze Number) (bounds : Bounds Number) : Prop :=
  ∀ cluster,
    Largest analyze cluster →
      ∀ one other,
        Shortest analyze bounds cluster one → Shortest analyze bounds cluster other →
          one = other

omit [LinearOrder Number] in
theorem SameFuzzers.normOf
    (same : SameFuzzers analyze other)
    (id : ElementID) :
    analyze.normOf id = other.normOf id := by
  rw [Analyze.normOf, Analyze.normOf, same.norms]

theorem SameFuzzers.shortest_iff
    {cluster arranged : List ElementID}
    (same : SameFuzzers analyze other)
    (isPerm : cluster.Perm arranged) :
    Shortest analyze bounds cluster id ↔ Shortest other bounds arranged id := by
  simp only [Shortest, Slow, same.normOf, isPerm.mem_iff]

theorem ClustersUntied.of_same
    (untied : ClustersUntied analyze bounds)
    (same : SameFuzzers analyze other)
    (groups : SameGroups analyze.clusteringData other.clusteringData) :
    ClustersUntied other bounds := by
  intro arranged largest one another isOne isAnother
  obtain ⟨cluster, isLargest, isPerm⟩ := groups.symm.exists_largest largest
  exact
    untied cluster isLargest one another
      ((same.shortest_iff isPerm.symm).mpr isOne)
      ((same.shortest_iff isPerm.symm).mpr isAnother)

theorem clusterBad_of_same
    (untied : ClustersUntied analyze bounds)
    (same : SameFuzzers analyze other)
    (groups : SameGroups analyze.clusteringData other.clusteringData)
    (isBad : ClusterBad analyze bounds id) :
    ClusterBad other bounds id := by
  obtain ⟨notZero, cluster, largest, isFirst⟩ := isBad
  obtain ⟨arranged, isLargest, isPerm⟩ := groups.exists_largest largest
  have otherUntied := untied.of_same same groups
  refine ⟨notZero, arranged, isLargest, ?_⟩
  rw [firstLowest_iff (otherUntied arranged isLargest), ← same.shortest_iff isPerm]
  exact isFirst.shortest

theorem clusterBad_iff_of_same
    {id : ElementID}
    (untied : ClustersUntied analyze bounds)
    (same : SameFuzzers analyze other)
    (groups : SameGroups analyze.clusteringData other.clusteringData) :
    ClusterBad analyze bounds id ↔ ClusterBad other bounds id :=
  ⟨clusterBad_of_same untied same groups,
    clusterBad_of_same (untied.of_same same groups) same.symm groups.symm⟩

theorem noiceBad_iff_of_same
    {id : ElementID}
    (same : SameFuzzers analyze other)
    (groups : SameGroups analyze.clusteringData other.clusteringData) :
    NoiceBad analyze bounds id ↔ NoiceBad other bounds id := by
  rw [NoiceBad, NoiceBad, groups.noice.mem_iff, same.normOf]

variable {libraries : Libraries Number}
variable {orders others : Orders}

theorem get_badFuzzers_of_clusterBad
    (isBad : ClusterBad analyze (boundsOf libraries orders analyze) id) :
    (badFuzzers libraries orders analyze).get id =
      some ⟨(analyze.normOf id).norm, (analyze.normOf id).speed, id, false⟩ := by
  have isKey := mem_badFuzzers.mpr (.inr isBad)
  obtain ⟨bf, isThere⟩ := OrderedMap.mem_keys.mp isKey
  rw [isThere]
  rw [badFuzzers_eq, badEntries, OrderedMap.insertAll_append] at isThere
  have walked := (clusterBad_iff (clusters_walk_perm orders analyze)).mpr isBad
  have isEntry :=
    OrderedMap.get_insertAll_of_mem_keys
      (List.mem_map_of_mem (mem_lowestEntries.mpr ⟨walked, rfl⟩)) isThere
  rw [(mem_lowestEntries.mp isEntry).2]

theorem get_badFuzzers_of_noiceBad
    (notCluster : ¬ ClusterBad analyze (boundsOf libraries orders analyze) id)
    (isBad : NoiceBad analyze (boundsOf libraries orders analyze) id) :
    (badFuzzers libraries orders analyze).get id =
      some ⟨(analyze.normOf id).norm, (analyze.normOf id).speed, id, true⟩ := by
  have isKey := mem_badFuzzers.mpr (.inl isBad)
  obtain ⟨bf, isThere⟩ := OrderedMap.mem_keys.mp isKey
  rw [isThere]
  rw [badFuzzers_eq] at isThere
  rcases OrderedMap.get_insertAll isThere with isEntry | isBefore
  · rcases List.mem_append.mp isEntry with isNoice | isLowest
    · rw [(mem_noiceEntries.mp isNoice).2]
    · have walked := (mem_lowestEntries.mp isLowest).1
      exact absurd ((clusterBad_iff (clusters_walk_perm orders analyze)).mp walked) notCluster
  · cases isBefore

theorem get_badFuzzers_of_not
    (notBad : ¬ IsBad analyze (boundsOf libraries orders analyze) id) :
    (badFuzzers libraries orders analyze).get id = none :=
  OrderedMap.get_eq_none.mpr (mt mem_badFuzzers.mp notBad)

theorem boundsOf_of_same
    (byCounts :
      ∀ {numbers rearranged : List Number} (level : ℚ),
        numbers.Perm rearranged →
          libraries.quantile numbers level = libraries.quantile rearranged level)
    (same : SameFuzzers analyze other) :
    boundsOf libraries orders analyze = boundsOf libraries others other := by
  have walks : (orders.norms.walk analyze.norms).Perm (others.norms.walk other.norms) := by
    rw [same.norms]
    exact WalkOrder.walk_perm.trans WalkOrder.walk_perm.symm
  rw [boundsOf, boundsOf, byCounts (1 / 2) (walks.map fun entry => entry.2.norm),
    byCounts (1 / 2) (walks.map fun entry => entry.2.speed),
    byCounts (66 / 100) (walks.map fun entry => entry.2.speed)]

theorem badFuzzers_of_same
    (same : SameFuzzers analyze other)
    (groups : SameGroups analyze.clusteringData other.clusteringData)
    (sameBounds : boundsOf libraries orders analyze = boundsOf libraries others other)
    (untied : ClustersUntied analyze (boundsOf libraries orders analyze)) :
    badFuzzers libraries orders analyze = badFuzzers libraries others other := by
  refine OrderedMap.ext_get fun id => ?_
  have clusterBad_iff :=
    @clusterBad_iff_of_same _ _ _ _ _ _ id untied same groups
  have noiceBad_iff :=
    @noiceBad_iff_of_same _ _ _ _ _ (boundsOf libraries orders analyze) id same groups
  rw [sameBounds] at clusterBad_iff noiceBad_iff
  by_cases isCluster : ClusterBad analyze (boundsOf libraries orders analyze) id
  · have isOther := isCluster
    rw [sameBounds, clusterBad_iff] at isOther
    rw [get_badFuzzers_of_clusterBad isCluster, get_badFuzzers_of_clusterBad isOther,
      same.normOf]
  · have notOther := isCluster
    rw [sameBounds, clusterBad_iff] at notOther
    by_cases isNoice : NoiceBad analyze (boundsOf libraries orders analyze) id
    · have isOther := isNoice
      rw [sameBounds, noiceBad_iff] at isOther
      rw [get_badFuzzers_of_noiceBad isCluster isNoice,
        get_badFuzzers_of_noiceBad notOther isOther, same.normOf]
    · have otherNot := isNoice
      rw [sameBounds, noiceBad_iff] at otherNot
      rw [get_badFuzzers_of_not (not_or.mpr ⟨isNoice, isCluster⟩),
        get_badFuzzers_of_not (not_or.mpr ⟨otherNot, notOther⟩)]

end

section

variable {analyze other : Analyze Number}
variable {bad : BadFuzzers Number}
variable {orders : Orders}

/-- How many branches a bad fuzzer covers alone. -/
noncomputable def aloneCount
    (analyze : Analyze Number)
    (bad : BadFuzzers Number)
    (id : ElementID) : Nat :=
  (coveredAlone analyze (· ∈ bad.keys) id).ncard

theorem uniqueCounts_perm :
    (uniqueCounts orders bad analyze).Perm
      (bad.entries.map fun entry => (entry.1, aloneCount analyze bad entry.1)) := by
  have counted :
      uniqueCounts orders bad analyze =
        (orders.unique.walk bad).map fun entry =>
          (entry.1, aloneCount analyze bad entry.1) := by
    rw [uniqueCounts]
    refine List.map_congr_left fun entry isWalked => ?_
    have isCounted :
        (entry.1,
            uniqueBlocks analyze
              (commonCoverage analyze ((orders.common.walk bad).map Prod.fst)) entry.1) ∈
          uniqueCounts orders bad analyze :=
      List.mem_map_of_mem isWalked
    exact Prod.ext rfl (mem_uniqueCounts.mp isCounted).2
  rw [counted]
  exact WalkOrder.walk_perm.map _

theorem takeZeros_eq
    [AddCommGroup Number]
    {ubs : List (ElementID × Nat)}
    (sorted : ubs.Pairwise fun first second => first.2 ≤ second.2) :
    takeZeros bad ubs = (ubs.filter fun ub => ub.2 = 0).map fun ub => badOf bad ub.1 := by
  induction ubs with
  | nil =>
      rfl
  | cons ub rest ih =>
      obtain ⟨below, sortedRest⟩ := List.pairwise_cons.mp sorted
      rw [takeZeros, List.filter_cons]
      by_cases isZero : ub.2 = 0
      · simp [isZero, ih sortedRest]
      · have nonePositive : rest.filter (fun ub => ub.2 = 0) = [] := by
          refine List.filter_eq_nil_iff.mpr fun later isLater => ?_
          have more := below later isLater
          simp only [decide_eq_true_eq]
          omega
        simp [isZero, nonePositive]

variable [AddCommGroup Number]

theorem leastUnique_eq
    {ub : ElementID × Nat}
    {rest : List (ElementID × Nat)}
    (sorted : (ub :: rest).Pairwise fun first second => first.2 ≤ second.2)
    (positive : ∃ one ∈ ub :: rest, one.2 ≠ 0) :
    leastUnique bad (ub :: rest) =
      if ub.2 = 0 then
        ((ub :: rest).filter fun ub => ub.2 = 0).map fun ub => badOf bad ub.1
      else [badOf bad ub.1] := by
  have sortedRest := (List.pairwise_cons.mp sorted).2
  obtain ⟨one, isThere, isPositive⟩ := positive
  rw [leastUnique, if_neg (lastCount_ne_zero sorted isThere isPositive),
    takeZeros_eq sortedRest]
  split
  · rename_i isZero
    rw [List.filter_cons_of_pos (by simpa using isZero), List.map_cons]
  · rename_i notZero
    have nonePositive : rest.filter (fun ub => ub.2 = 0) = [] := by
      refine List.filter_eq_nil_iff.mpr fun later isLater => ?_
      have more := (List.pairwise_cons.mp sorted).1 later isLater
      simp only [decide_eq_true_eq]
      omega
    rw [nonePositive, List.map_nil]

/-- A bad fuzzer that covers no more alone than any other. -/
def LeastAlone (analyze : Analyze Number) (bad : ElementID → Prop) (id : ElementID) : Prop :=
  bad id ∧
    ∀ other,
      bad other →
        (coveredAlone analyze bad id).ncard ≤ (coveredAlone analyze bad other).ncard

theorem head_le_of_sorted
    {ub : ElementID × Nat}
    {rest : List (ElementID × Nat)}
    (sorted : (ub :: rest).Pairwise fun first second => first.2 ≤ second.2) :
    ∀ other ∈ ub :: rest, ub.2 ≤ other.2 := by
  intro other isOther
  rcases List.mem_cons.mp isOther with rfl | later
  · exact le_rfl
  · exact (List.pairwise_cons.mp sorted).1 other later

theorem exists_sortedCounts
    (slices : SliceSort)
    (orders : Orders)
    (bad : BadFuzzers Number)
    (analyze : Analyze Number) :
    ∃ ubs,
      detectByUniqueCoverage slices orders bad analyze = leastUnique bad ubs ∧
        ubs.Pairwise (fun first second => first.2 ≤ second.2) ∧
          ubs.Perm (bad.entries.map fun entry => (entry.1, aloneCount analyze bad entry.1)) ∧
            ∀ ub, ub ∈ ubs ↔ ub.1 ∈ bad.keys ∧ ub.2 = aloneCount analyze bad ub.1 := by
  refine ⟨slices.sortFunc countCmp (uniqueCounts orders bad analyze), rfl, ?_, ?_, ?_⟩
  · exact slices.sorted (comparesBy_count _)
  · exact (slices.perm _ _).trans uniqueCounts_perm
  · exact fun ub => (slices.perm _ _).mem_iff.trans mem_uniqueCounts

theorem mem_detected_of_unneeded
    {slices : SliceSort}
    {id : ElementID}
    {bf : BadFuzzer Number}
    (positive : ∃ one ∈ bad.keys, (coveredAlone analyze (· ∈ bad.keys) one).Nonempty)
    (isThere : bad.get id = some bf)
    (unneeded : coveredAlone analyze (· ∈ bad.keys) id = ∅) :
    bf ∈ detectByUniqueCoverage slices orders bad analyze := by
  obtain ⟨ubs, detected, sorted, _, isCount⟩ :=
    exists_sortedCounts slices orders bad analyze
  obtain ⟨one, isBad, nonempty⟩ := positive
  have isOne : (one, aloneCount analyze bad one) ∈ ubs := (isCount _).mpr ⟨isBad, rfl⟩
  have onePositive : aloneCount analyze bad one ≠ 0 := ((Set.ncard_pos).mpr nonempty).ne'
  have noneAlone : aloneCount analyze bad id = 0 := by
    rw [aloneCount, unneeded, Set.ncard_empty]
  have isId : (id, 0) ∈ ubs :=
    (isCount _).mpr ⟨OrderedMap.mem_keys.mpr ⟨bf, isThere⟩, noneAlone.symm⟩
  cases ubs with
  | nil =>
      cases isOne
  | cons ub rest =>
      have isZero : ub.2 = 0 := Nat.le_zero.mp (head_le_of_sorted sorted _ isId)
      rw [detected, leastUnique_eq sorted ⟨_, isOne, onePositive⟩, if_pos isZero]
      refine List.mem_map.mpr ⟨(id, 0), List.mem_filter.mpr ⟨isId, by simp⟩, ?_⟩
      rw [badOf, isThere]
      rfl

theorem detectByUniqueCoverage_perm
    (slices : SliceSort)
    {others : Orders}
    (sameCounts : aloneCount analyze bad = aloneCount other bad)
    (alone :
      ∀ one other,
        LeastAlone analyze (· ∈ bad.keys) one → LeastAlone analyze (· ∈ bad.keys) other →
          (coveredAlone analyze (· ∈ bad.keys) one).Nonempty → one = other) :
    (detectByUniqueCoverage slices orders bad analyze).Perm
      (detectByUniqueCoverage slices others bad other) := by
  obtain ⟨ubs, detected, sorted, perm, isCount⟩ :=
    exists_sortedCounts slices orders bad analyze
  obtain ⟨otherUbs, otherDetected, otherSorted, otherPerm, _⟩ :=
    exists_sortedCounts slices others bad other
  rw [← sameCounts] at otherPerm
  have rearranged := perm.trans otherPerm.symm
  rw [detected, otherDetected]
  by_cases allZero : ∀ ub ∈ ubs, ub.2 = 0
  · rw [leastUnique_eq_nil allZero,
      leastUnique_eq_nil fun ub isUb => allZero ub (rearranged.mem_iff.mpr isUb)]
  · push Not at allZero
    obtain ⟨one, isThere, positive⟩ := allZero
    cases ubs with
    | nil =>
        cases isThere
    | cons ub rest =>
        cases otherUbs with
        | nil =>
            cases rearranged.eq_nil
        | cons otherUb otherRest =>
            have isOther := rearranged.mem_iff.mpr List.mem_cons_self
            have below := head_le_of_sorted sorted
            have otherBelow := head_le_of_sorted otherSorted
            have sameLeast : ub.2 = otherUb.2 :=
              Nat.le_antisymm (below otherUb isOther)
                (otherBelow ub (rearranged.mem_iff.mp List.mem_cons_self))
            have leastAlone {least : ElementID × Nat} :
                least ∈ ub :: rest → least.2 = ub.2 →
                  LeastAlone analyze (· ∈ bad.keys) least.1 := by
              intro isLeast same
              obtain ⟨isKey, counted⟩ := (isCount _).mp isLeast
              refine ⟨isKey, fun further isFurther => ?_⟩
              have isCounted : (further, aloneCount analyze bad further) ∈ ub :: rest :=
                (isCount _).mpr ⟨isFurther, rfl⟩
              have bound := below _ isCounted
              exact (counted.symm.trans same).trans_le bound
            rw [leastUnique_eq sorted ⟨one, isThere, positive⟩,
              leastUnique_eq otherSorted ⟨one, rearranged.mem_iff.mp isThere, positive⟩,
              sameLeast]
            split
            · exact (rearranged.filter _).map _
            · rename_i notZero
              have isUb := leastAlone List.mem_cons_self rfl
              have isOtherUb := leastAlone isOther sameLeast.symm
              have nonempty : (coveredAlone analyze (· ∈ bad.keys) ub.1).Nonempty := by
                rw [← Set.ncard_pos, ← aloneCount,
                  ← ((isCount _).mp List.mem_cons_self).2, sameLeast]
                exact Nat.pos_of_ne_zero notZero
              rw [alone ub.1 otherUb.1 isUb isOtherUb nonempty]

end

section

variable [LinearOrder Number]

/-- A fuzzer of a list that none is shorter than. -/
def ShortestOf (found : List (BadFuzzer Number)) (bf : BadFuzzer Number) : Prop :=
  bf ∈ found ∧ ∀ other ∈ found, bf.norm ≤ other.norm

/-- The bad fuzzers of a list differ in their names. -/
def Named (found : List (BadFuzzer Number)) : Prop :=
  ∀ one ∈ found, ∀ other ∈ found, one.id = other.id → one = other

variable {found : List (BadFuzzer Number)}

theorem comparesBy_norm
    (named : Named found) :
    ComparesBy BadFuzzer.norm normCmp found := by
  intro first isFirst second isSecond
  rw [normCmp]
  by_cases sameName : first.id = second.id
  · obtain rfl := named first isFirst second isSecond sameName
    simp
  · rw [if_neg sameName]
    split <;> simp_all

theorem detectByNormAndSpeed_shortest
    (slices : SliceSort)
    (named : Named found)
    (notNil : found ≠ []) :
    ∃ bf,
      ShortestOf found bf ∧
        detectByNormAndSpeed slices found =
          .returned (some { id := bf.id, why := "worst norm", isNoice := bf.isNoice }) := by
  have perm := slices.perm normCmp found
  have sorted := slices.sorted (comparesBy_norm named)
  rw [detectByNormAndSpeed]
  cases isSorted : slices.sortFunc normCmp found with
  | nil =>
      rw [isSorted] at perm
      exact absurd perm.symm.eq_nil notNil
  | cons bf rest =>
      rw [isSorted] at perm sorted
      refine ⟨bf, ⟨perm.mem_iff.mp List.mem_cons_self, ?_⟩, rfl⟩
      intro other isOther
      rcases List.mem_cons.mp (perm.mem_iff.mpr isOther) with rfl | later
      · exact le_rfl
      · exact (List.pairwise_cons.mp sorted).1 other later

/-- The end of the analysis, once the fuzzers that cover least are known. -/
def conclude (slices : SliceSort) : List (BadFuzzer Number) → Result
  | [bf] =>
      .returned (some { id := bf.id, why := "min unique edges", isNoice := bf.isNoice })
  | found => detectByNormAndSpeed slices found

theorem conclude_of_length_ne_one
    (slices : SliceSort)
    (several : found.length ≠ 1) :
    conclude slices found = detectByNormAndSpeed slices found := by
  cases found with
  | nil =>
      rfl
  | cons first rest =>
      cases rest with
      | nil =>
          exact absurd rfl several
      | cons second rest =>
          rfl

theorem conclude_perm
    (slices : SliceSort)
    {found rearranged : List (BadFuzzer Number)}
    (named : Named found)
    (isPerm : found.Perm rearranged)
    (untied : ∀ one other, ShortestOf found one → ShortestOf found other → one = other) :
    conclude slices found = conclude slices rearranged := by
  by_cases single : found.length = 1
  · obtain ⟨bf, rfl⟩ := List.length_eq_one_iff.mp single
    rw [List.perm_singleton.mp isPerm.symm]
  · rw [conclude_of_length_ne_one slices single,
      conclude_of_length_ne_one slices (isPerm.length_eq ▸ single)]
    by_cases isNil : found = []
    · subst isNil
      rw [isPerm.nil_eq]
    · have notNil : rearranged ≠ [] := by
        rintro rfl
        exact isNil isPerm.eq_nil
      have renamed : Named rearranged :=
        fun one isOne other isOther =>
          named one (isPerm.mem_iff.mpr isOne) other (isPerm.mem_iff.mpr isOther)
      obtain ⟨bf, shortest, advised⟩ := detectByNormAndSpeed_shortest slices named isNil
      obtain ⟨otherBf, otherShortest, otherAdvised⟩ :=
        detectByNormAndSpeed_shortest slices renamed notNil
      have isShortest : ShortestOf found otherBf :=
        ⟨isPerm.mem_iff.mpr otherShortest.1,
          fun further isFurther =>
            otherShortest.2 further (isPerm.mem_iff.mp isFurther)⟩
      obtain rfl := untied bf otherBf shortest isShortest
      rw [advised, otherAdvised]

end

section

variable [AddCommGroup Number]
variable [LinearOrder Number]
variable {analyze other : Analyze Number}
variable {bad : BadFuzzers Number}
variable {orders others : Orders}

/-- A bad fuzzer that covers nothing alone, and none of those is shorter. -/
def ShortestUnneeded
    (analyze : Analyze Number)
    (bad : ElementID → Prop)
    (id : ElementID) : Prop :=
  bad id ∧
    coveredAlone analyze bad id = ∅ ∧
      ∀ other,
        bad other →
          coveredAlone analyze bad other = ∅ →
            (analyze.normOf id).norm ≤ (analyze.normOf other).norm

/--
If some bad fuzzer covers something alone, then there is one that covers least, or of
those that cover nothing alone one is shortest.
-/
structure Untied (analyze : Analyze Number) (bad : ElementID → Prop) : Prop where
  alone :
    ∀ one other,
      LeastAlone analyze bad one → LeastAlone analyze bad other →
        (coveredAlone analyze bad one).Nonempty → one = other
  norms :
    (∃ id, bad id ∧ (coveredAlone analyze bad id).Nonempty) →
      ∀ one other,
        ShortestUnneeded analyze bad one → ShortestUnneeded analyze bad other →
          one = other

/-- What is known of the fuzzers that are recorded as bad. -/
def Recorded (analyze : Analyze Number) (bad : BadFuzzers Number) : Prop :=
  ∀ {id bf}, bad.get id = some bf → bf.id = id ∧ bf.norm = (analyze.normOf id).norm

omit [LinearOrder Number] in
theorem mem_detectByUniqueCoverage
    {slices : SliceSort}
    {bf : BadFuzzer Number}
    (recorded : Recorded analyze bad)
    (isFound : bf ∈ detectByUniqueCoverage slices orders bad analyze) :
    bad.get bf.id = some bf ∧ LeastAlone analyze (· ∈ bad.keys) bf.id := by
  rcases detectByUniqueCoverage_cases slices orders bad analyze with
    ⟨_, nothing⟩ | ⟨_, _, areLeast⟩
  · rw [nothing] at isFound
    cases isFound
  · obtain ⟨id, isThere, isLeast⟩ := areLeast bf isFound
    obtain ⟨rfl, _⟩ := recorded isThere
    exact ⟨isThere, OrderedMap.mem_keys.mpr ⟨bf, isThere⟩, isLeast⟩

theorem untied_detected
    {slices : SliceSort}
    {one another : BadFuzzer Number}
    (recorded : Recorded analyze bad)
    (untied : Untied analyze (· ∈ bad.keys))
    (isOne :
      ShortestOf (detectByUniqueCoverage slices orders bad analyze) one)
    (isAnother :
      ShortestOf (detectByUniqueCoverage slices orders bad analyze) another) :
    one = another := by
  obtain ⟨oneThere, oneBad, oneLeast⟩ := mem_detectByUniqueCoverage recorded isOne.1
  obtain ⟨anotherThere, anotherBad, anotherLeast⟩ :=
    mem_detectByUniqueCoverage recorded isAnother.1
  suffices same : one.id = another.id by
    rw [same, anotherThere] at oneThere
    exact (Option.some.inj oneThere).symm
  by_cases nonempty : (coveredAlone analyze (· ∈ bad.keys) one.id).Nonempty
  · exact untied.alone _ _ ⟨oneBad, oneLeast⟩ ⟨anotherBad, anotherLeast⟩ nonempty
  · rw [Set.not_nonempty_iff_eq_empty] at nonempty
    have otherEmpty : coveredAlone analyze (· ∈ bad.keys) another.id = ∅ := by
      have bound := anotherLeast one.id oneBad
      rw [nonempty, Set.ncard_empty] at bound
      exact (Set.ncard_eq_zero).mp (Nat.le_zero.mp bound)
    rcases detectByUniqueCoverage_cases slices orders bad analyze with
      ⟨_, nothing⟩ | ⟨positive, _, _⟩
    · have isFound := isOne.1
      rw [nothing] at isFound
      cases isFound
    · have shortest {bf : BadFuzzer Number} :
          ShortestOf (detectByUniqueCoverage slices orders bad analyze) bf →
            coveredAlone analyze (· ∈ bad.keys) bf.id = ∅ →
              ShortestUnneeded analyze (· ∈ bad.keys) bf.id := by
        intro isShortest unneeded
        obtain ⟨isThere, isBad, _⟩ := mem_detectByUniqueCoverage recorded isShortest.1
        refine ⟨isBad, unneeded, fun further furtherBad furtherEmpty => ?_⟩
        obtain ⟨furtherBf, isFurther⟩ := OrderedMap.mem_keys.mp furtherBad
        rw [← (recorded isThere).2, ← (recorded isFurther).2]
        exact isShortest.2 furtherBf (mem_detected_of_unneeded positive isFurther furtherEmpty)
      exact untied.norms positive _ _ (shortest isOne nonempty) (shortest isAnother otherEmpty)

theorem adviseOn_eq_conclude
    (slices : SliceSort)
    (orders : Orders)
    {first second : ElementID × BadFuzzer Number}
    {rest : List (ElementID × BadFuzzer Number)}
    (isSeveral : bad.entries = first :: second :: rest) :
    adviseOn slices orders analyze bad =
      conclude slices (detectByUniqueCoverage slices orders bad analyze) := by
  rw [adviseOn, isSeveral]
  dsimp only
  by_cases single : (detectByUniqueCoverage slices orders bad analyze).length = 1
  · obtain ⟨bf, isSingle⟩ := List.length_eq_one_iff.mp single
    rw [isSingle]
    rfl
  · rw [conclude_of_length_ne_one slices single]
    split
    · rename_i bf isSingle
      exact absurd (congrArg List.length isSingle) single
    · rfl

theorem adviseOn_of_same
    (slices : SliceSort)
    (recorded : Recorded analyze bad)
    (sameCoverage : analyze.coverages = other.coverages)
    (untied : Untied analyze (· ∈ bad.keys)) :
    adviseOn slices orders analyze bad = adviseOn slices others other bad := by
  have covers : Covers analyze = Covers other := by
    funext id branch
    rw [Covers, Covers, Analyze.coverageOf, Analyze.coverageOf, sameCoverage]
  have sameCounts : aloneCount analyze bad = aloneCount other bad := by
    funext id
    rw [aloneCount, aloneCount, coveredAlone, coveredAlone, covers]
  have named : Named (detectByUniqueCoverage slices orders bad analyze) := by
    intro one isOne another isAnother same
    have oneThere := (mem_detectByUniqueCoverage recorded isOne).1
    rw [same, (mem_detectByUniqueCoverage recorded isAnother).1] at oneThere
    exact (Option.some.inj oneThere).symm
  have concluded :
      conclude slices (detectByUniqueCoverage slices orders bad analyze) =
        conclude slices (detectByUniqueCoverage slices others bad other) :=
    conclude_perm slices named
      (detectByUniqueCoverage_perm slices sameCounts untied.alone)
      fun _ _ => untied_detected recorded untied
  cases isEntries : bad.entries with
  | nil =>
      rw [adviseOn, adviseOn, isEntries]
  | cons first rest =>
      cases rest with
      | nil =>
          rw [adviseOn, adviseOn, isEntries]
      | cons second rest =>
          rw [adviseOn_eq_conclude slices orders isEntries,
            adviseOn_eq_conclude slices others isEntries, concluded]

theorem startAnalysis_of_no_groups
    (libraries : Libraries Number)
    (slices : SliceSort)
    (orders : Orders)
    (noNoice : analyze.clusteringData.noice = [])
    (noClusters : analyze.clusters = []) :
    startAnalysis libraries slices orders analyze = .returned none := by
  have noneBad (id : ElementID) :
      ¬ IsBad analyze (boundsOf libraries orders analyze) id := by
    rintro (⟨isNoice, _⟩ | ⟨_, cluster, ⟨isCluster, _⟩, _⟩)
    · rw [noNoice] at isNoice
      cases isNoice
    · rw [noClusters] at isCluster
      cases isCluster
  have nothing : badFuzzers libraries orders analyze = .empty :=
    OrderedMap.ext_get fun id => get_badFuzzers_of_not (noneBad id)
  rw [startAnalysis, nothing]
  rfl

/--
If the clustering does not depend on the order of the rows and there are no ties among
the fuzzers that come into question, the advice is the same for all orders.
-/
theorem advice_same_in_every_order
    (libraries : Libraries Number)
    (byCounts :
      ∀ {numbers rearranged : List Number} (level : ℚ),
        numbers.Perm rearranged →
          libraries.quantile numbers level = libraries.quantile rearranged level)
    (orderFree : OrderFree libraries)
    (slices : SliceSort)
    (orders others : Orders)
    (d : CovData)
    (clustersUntied :
      ClustersUntied (analysis libraries orders d)
        (boundsOf libraries orders (analysis libraries orders d)))
    (untied :
      Untied (analysis libraries orders d)
        (IsBad (analysis libraries orders d)
          (boundsOf libraries orders (analysis libraries orders d)))) :
    startAnalysis libraries slices orders (analysis libraries orders d) =
      startAnalysis libraries slices others (analysis libraries others d) := by
  have groups := sameGroups_analysis byCounts orderFree orders others d
  by_cases isZero : analysis libraries orders d = .zero
  · obtain ⟨noNoice, noClusters⟩ := groups.symm.none_of_zero (congrArg _ isZero)
    rw [startAnalysis_of_no_groups libraries slices others noNoice noClusters]
    exact startAnalysis_of_no_groups libraries slices orders (by rw [isZero]; rfl)
      (by rw [isZero]; rfl)
  · by_cases otherZero : analysis libraries others d = .zero
    · obtain ⟨noNoice, noClusters⟩ := groups.none_of_zero (congrArg _ otherZero)
      rw [startAnalysis_of_no_groups libraries slices orders noNoice noClusters]
      exact (startAnalysis_of_no_groups libraries slices others (by rw [otherZero]; rfl)
        (by rw [otherZero]; rfl)).symm
    · have same := analysis_same isZero otherZero
      have sameBad :
          badFuzzers libraries orders (analysis libraries orders d) =
            badFuzzers libraries others (analysis libraries others d) :=
        badFuzzers_of_same same groups (boundsOf_of_same byCounts same) clustersUntied
      have isBad :
          (· ∈ (badFuzzers libraries orders (analysis libraries orders d)).keys) =
            IsBad (analysis libraries orders d)
              (boundsOf libraries orders (analysis libraries orders d)) :=
        funext fun id => propext mem_badFuzzers
      rw [startAnalysis, startAnalysis, ← sameBad]
      rw [← isBad] at untied
      exact adviseOn_of_same slices badFuzzers_get same.coverages untied

end

/-- A fuzzer that has only hit the first branch, and how often at the last analysis. -/
def hitting (hits last : UInt32) : Fuzzer where
  cov branch := if branch = firstBranch then hits else 0
  sqNorm := last.toNat ^ 2

/-- Ranks as quantiles, and clusters of counts that are near to each other. -/
def rankLibraries : Libraries Int where
  sqrt n := n.sqrt
  quantile numbers level :=
    ((numbers.insertionSort (· ≤ ·))[⌊level * numbers.length⌋.toNat]?).getD 0
  dbscan _ rows := some (rows.map fun row => if row firstBranch < 50 then 1 else 2)
  onePerRow := by
    rintro eps rows guesses isGuess
    rw [← Option.some.inj isGuess, List.length_map]

theorem rank_byCounts
    {numbers rearranged : List Int}
    (level : ℚ)
    (isPerm : numbers.Perm rearranged) :
    rankLibraries.quantile numbers level = rankLibraries.quantile rearranged level := by
  have sameSorted :
      numbers.insertionSort (· ≤ ·) = rearranged.insertionSort (· ≤ ·) := by
    have sorts (numbers : List Int) :
        (numbers.insertionSort (· ≤ ·)).Pairwise (· ≤ ·) :=
      List.pairwise_insertionSort _ _
    have isSame :=
      ((List.perm_insertionSort (· ≤ ·) numbers).trans isPerm).trans
        (List.perm_insertionSort (· ≤ ·) rearranged).symm
    exact isSame.eq_of_pairwise' (sorts numbers) (sorts rearranged)
  dsimp only [rankLibraries]
  rw [sameSorted, isPerm.length_eq]

theorem rank_orderFree : OrderFree rankLibraries :=
  fun _ _ _ _ => .inr ⟨_, _, rfl, rfl, fun _ _ => ⟨Iff.rfl, fun _ _ => Iff.rfl⟩⟩

/-- Two clusters of four; the second fuzzer was as short at the last analysis. -/
def counts (last : UInt32) : CovData where
  entries :=
    [(⟨1, 1⟩, hitting 10 10), (⟨1, 2⟩, hitting 10 last), (⟨1, 3⟩, hitting 11 6),
      (⟨1, 4⟩, hitting 12 7), (⟨2, 1⟩, hitting 112 107), (⟨2, 2⟩, hitting 113 108),
      (⟨2, 3⟩, hitting 114 109), (⟨2, 4⟩, hitting 115 110)]
  sorted := by
    have sorted :
        ([⟨1, 1⟩, ⟨1, 2⟩, ⟨1, 3⟩, ⟨1, 4⟩, ⟨2, 1⟩, ⟨2, 2⟩, ⟨2, 3⟩, ⟨2, 4⟩] :
          List ElementID).Pairwise (· < ·) := by
      decide
    exact List.pairwise_map.mp sorted

/-- The fuzzers are met from the last to the first, and so are all others. -/
def Orders.fromLast : Orders where
  fuzzers := .backwards
  norms := .backwards
  clusters := .backwards
  common := .backwards
  unique := .backwards

theorem normOf_hitting (hits last : UInt32) :
    normOf rankLibraries (hitting hits last) = ⟨last.toNat, hits.toNat⟩ := by
  have isLength : sqLength (hitting hits last).cov = hits.toNat ^ 2 := by
    have isSquare (branch : Branch) :
        ((hitting hits last).cov branch).toNat ^ 2 =
          if branch = firstBranch then hits.toNat ^ 2 else 0 := by
      dsimp only [hitting]
      split <;> rfl
    rw [sqLength, Finset.sum_congr rfl fun branch _ => isSquare branch,
      Finset.sum_ite_eq', if_pos (Finset.mem_univ _)]
  rw [normOf, isLength]
  dsimp only [rankLibraries, hitting]
  rw [Nat.sqrt_eq', Nat.sqrt_eq']

theorem counts_clusters (last : UInt32) :
    (analysis rankLibraries .byKeys (counts last)).clusters =
        [[⟨1, 1⟩, ⟨1, 2⟩, ⟨1, 3⟩, ⟨1, 4⟩], [⟨2, 1⟩, ⟨2, 2⟩, ⟨2, 3⟩, ⟨2, 4⟩]] ∧
      (analysis rankLibraries .fromLast (counts last)).clusters =
        [[⟨1, 4⟩, ⟨1, 3⟩, ⟨1, 2⟩, ⟨1, 1⟩], [⟨2, 4⟩, ⟨2, 3⟩, ⟨2, 2⟩, ⟨2, 1⟩]] :=
  ⟨rfl, rfl⟩

theorem counts_known
    {orders : Orders}
    {last : UInt32}
    (isOrder : orders = .byKeys ∨ orders = .fromLast) :
    analysis rankLibraries orders (counts last) ≠ .zero := by
  obtain ⟨isForward, isBackward⟩ := counts_clusters last
  intro isZero
  rcases isOrder with rfl | rfl
  · rw [isZero] at isForward
    cases isForward
  · rw [isZero] at isBackward
    cases isBackward

variable {orders : Orders}

theorem norms_entries
    {libraries : Libraries Int}
    {d : CovData}
    (isKnown : analysis libraries orders d ≠ .zero) :
    (analysis libraries orders d).norms.entries =
      d.entries.map fun entry => (entry.1, normOf libraries entry.2) := by
  obtain ⟨norms, -⟩ := (analysis_cases libraries orders d).resolve_left isKnown
  have sorted := List.pairwise_map.mp (d.sorted_keys)
  suffices same :
      (analysis libraries orders d).norms =
        { entries := d.entries.map fun entry => (entry.1, normOf libraries entry.2)
          sorted := List.pairwise_map.mpr sorted } from
    congrArg OrderedMap.entries same
  refine OrderedMap.ext_get fun id => Option.ext fun norm => ?_
  rw [norms, ← OrderedMap.mem_entries, Option.map_eq_some_iff, List.mem_map]
  constructor
  · rintro ⟨fuzzer, isFuzzer, rfl⟩
    exact ⟨(id, fuzzer), OrderedMap.mem_entries.mpr isFuzzer, rfl⟩
  · rintro ⟨⟨other, fuzzer⟩, isEntry, same⟩
    cases same
    exact ⟨fuzzer, OrderedMap.mem_entries.mp isEntry, rfl⟩

variable {last : UInt32}

theorem counts_clusterSpeed
    (isOrder : orders = .byKeys ∨ orders = .fromLast)
    (isLast : last = 5 ∨ last = 10) :
    (boundsOf rankLibraries orders
      (analysis rankLibraries orders (counts last))).clusterSpeed = 5 := by
  have same := analysis_same (counts_known (.inl rfl)) (@counts_known _ last isOrder)
  rw [← boundsOf_of_same rank_byCounts same]
  generalize isAnalysis : analysis rankLibraries .byKeys (counts last) = analyze
  have isBound :
      (boundsOf rankLibraries .byKeys analyze).clusterSpeed =
        rankLibraries.quantile
          (analyze.norms.entries.map fun entry => entry.2.speed) (66 / 100) :=
    rfl
  have isRank : ⌊(66 / 100 : ℚ) * ((8 : Nat) : ℚ)⌋.toNat = 5 := by
    have isFloor : ⌊(66 / 100 : ℚ) * ((8 : Nat) : ℚ)⌋ = 5 := by
      rw [Int.floor_eq_iff]
      norm_num
    rw [isFloor]
    rfl
  rw [isBound, ← isAnalysis, norms_entries (counts_known (.inl rfl))]
  simp only [counts, List.map_cons, List.map_nil, normOf_hitting]
  dsimp only [rankLibraries, List.length_cons, List.length_nil]
  rw [isRank]
  rcases isLast with rfl | rfl <;> decide

theorem counts_slow
    (isOrder : orders = .byKeys ∨ orders = .fromLast)
    (isLast : last = 5 ∨ last = 10)
    {id : ElementID}
    (isFuzzer : id ∈ (counts last).keys) :
    Slow (analysis rankLibraries orders (counts last))
        (boundsOf rankLibraries orders (analysis rankLibraries orders (counts last)))
        id ↔
      id = ⟨1, 1⟩ ∨ id = ⟨1, 2⟩ ∧ last = 10 := by
  obtain ⟨norms, -⟩ :=
    (analysis_cases rankLibraries orders (counts last)).resolve_left
      (counts_known isOrder)
  obtain ⟨⟨other, fuzzer⟩, isEntry, rfl⟩ := List.mem_map.mp isFuzzer
  rw [Slow, counts_clusterSpeed isOrder isLast, Analyze.normOf, norms,
    OrderedMap.mem_entries.mp isEntry]
  dsimp only [Option.map_some, Option.getD_some]
  simp only [counts, List.mem_cons, Prod.mk.injEq, List.not_mem_nil, or_false] at isEntry
  rcases isEntry with ⟨rfl, rfl⟩ | ⟨rfl, rfl⟩ | ⟨rfl, rfl⟩ | ⟨rfl, rfl⟩ | ⟨rfl, rfl⟩ |
      ⟨rfl, rfl⟩ | ⟨rfl, rfl⟩ | ⟨rfl, rfl⟩ <;>
    rw [normOf_hitting] <;> rcases isLast with rfl | rfl <;> decide

theorem counts_first
    {orders : Orders}
    {last : UInt32}
    (isOrder : orders = .byKeys ∨ orders = .fromLast)
    (isLast : last = 5 ∨ last = 10)
    {before after : List ElementID}
    {first : ElementID}
    (known : ∀ id ∈ before ++ first :: after, id ∈ (counts last).keys)
    (isSlow : first = ⟨1, 1⟩ ∨ first = ⟨1, 2⟩ ∧ last = 10)
    (noneBefore : ∀ id ∈ before, ¬(id = ⟨1, 1⟩ ∨ id = ⟨1, 2⟩ ∧ last = 10)) :
    FirstLowest (analysis rankLibraries orders (counts last))
      (boundsOf rankLibraries orders (analysis rankLibraries orders (counts last)))
      (before ++ first :: after) first := by
  obtain ⟨norms, -⟩ :=
    (analysis_cases rankLibraries orders (counts last)).resolve_left
      (counts_known isOrder)
  have isTen
      {id : ElementID}
      (isSlow : id = ⟨1, 1⟩ ∨ id = ⟨1, 2⟩ ∧ last = 10) :
      ((analysis rankLibraries orders (counts last)).normOf id).norm = 10 := by
    have hitTen : (normOf rankLibraries (hitting 10 10)).norm = 10 := by
      rw [normOf_hitting]
      rfl
    rw [Analyze.normOf, norms]
    rcases isSlow with rfl | ⟨rfl, rfl⟩
    · exact hitTen
    · exact hitTen
  have slow {id : ElementID} (isMember : id ∈ before ++ first :: after) :=
    counts_slow isOrder isLast (known id isMember)
  refine ⟨before, after, rfl, (slow (by simp)).mpr isSlow, ?_, ?_⟩
  · intro other isOther otherSlow
    exact
      absurd ((slow (List.mem_append_left _ isOther)).mp otherSlow)
        (noneBefore other isOther)
  · intro other isOther otherSlow
    have isMember : other ∈ before ++ first :: after :=
      List.mem_append_right _ (List.mem_cons_of_mem _ isOther)
    rw [isTen isSlow, isTen ((slow isMember).mp otherSlow)]

theorem counts_bad
    (isOrder : orders = .byKeys ∨ orders = .fromLast)
    (isLast : last = 5 ∨ last = 10)
    {slow fast : List ElementID}
    {first : ElementID}
    (noNoice : (analysis rankLibraries orders (counts last)).clusteringData.noice = [])
    (clusters : (analysis rankLibraries orders (counts last)).clusters = [slow, fast])
    (sameLength : slow.length = fast.length)
    (isFirst :
      FirstLowest (analysis rankLibraries orders (counts last))
        (boundsOf rankLibraries orders (analysis rankLibraries orders (counts last)))
        slow first)
    (known : ∀ id ∈ fast, id ∈ (counts last).keys)
    (isFast : ∀ id ∈ fast, id.nodeID = 2)
    (notZero : first ≠ ⟨0, 0⟩)
    (id : ElementID) :
    IsBad (analysis rankLibraries orders (counts last))
        (boundsOf rankLibraries orders (analysis rankLibraries orders (counts last))) id ↔
      id = first := by
  have isCluster_iff (cluster : List ElementID) :
      cluster ∈ (analysis rankLibraries orders (counts last)).clusters ↔
        cluster = slow ∨ cluster = fast := by
    rw [clusters, List.mem_pair]
  constructor
  · rintro (⟨isNoice, -⟩ | ⟨-, cluster, ⟨isCluster, -⟩, lowest⟩)
    · rw [noNoice] at isNoice
      cases isNoice
    · rcases (isCluster_iff cluster).mp isCluster with rfl | rfl
      · exact lowest.unique isFirst
      · obtain ⟨isMember, isSlow, -⟩ := lowest.shortest
        have onNode := isFast id isMember
        rcases (counts_slow isOrder isLast (known id isMember)).mp isSlow with
          rfl | ⟨rfl, -⟩ <;> cases onNode
  · rintro rfl
    refine .inr ⟨notZero, slow, ⟨(isCluster_iff _).mpr (.inl rfl), ?_⟩, isFirst⟩
    intro other isOther
    rcases (isCluster_iff other).mp isOther with rfl | rfl
    · exact le_rfl
    · exact sameLength.ge

theorem advice_of_only
    {analyze : Analyze Int}
    {id : ElementID}
    (only :
      ∀ other, IsBad analyze (boundsOf rankLibraries orders analyze) other ↔ other = id) :
    ∃ advice,
      startAnalysis rankLibraries .insertionSort orders analyze =
          .returned (some advice) ∧
        advice.id = id := by
  have isBad :
      (· ∈ (badFuzzers rankLibraries orders analyze).keys) = (· = id) :=
    funext fun other => propext (mem_badFuzzers.trans (only other))
  have spec :=
    @adviseOn_spec _ analyze _ _ .insertionSort orders
      (badFuzzers rankLibraries orders analyze)
      fun isThere => (badFuzzers_get isThere).1
  rw [isBad] at spec
  have optimal := spec.1 (.inl fun one other isOne isOther => isOne.trans isOther.symm)
  rw [← startAnalysis] at optimal
  cases isResult : startAnalysis rankLibraries .insertionSort orders analyze with
  | panicked =>
      exact absurd isResult optimal.safe
  | returned advice =>
      cases advice with
      | none =>
          exact absurd rfl (optimal.nil_iff.mp isResult id)
      | some advice =>
          exact ⟨advice, rfl, (optimal.optimal advice isResult).1⟩

/-- The only slow fuzzer is advised, from whichever end the maps are walked. -/
theorem slow_fuzzer_same_advice :
    ∃ advice,
      startAnalysis rankLibraries .insertionSort .byKeys
          (analysis rankLibraries .byKeys (counts 5)) =
        .returned (some advice) ∧
      startAnalysis rankLibraries .insertionSort .fromLast
          (analysis rankLibraries .fromLast (counts 5)) =
        .returned (some advice) ∧
      advice.id = ⟨1, 1⟩ := by
  obtain ⟨clusters, -⟩ := counts_clusters 5
  have isFirst :=
    @counts_first .byKeys 5 (.inl rfl) (.inl rfl) [] [⟨1, 2⟩, ⟨1, 3⟩, ⟨1, 4⟩] ⟨1, 1⟩
      (by decide) (.inl rfl) (by simp)
  have only :=
    counts_bad (.inl rfl) (.inl rfl) rfl clusters rfl isFirst (by decide) (by decide)
      (by decide)
  obtain ⟨advice, isAdvice, isOnly⟩ := advice_of_only only
  have same :=
    advice_same_in_every_order rankLibraries rank_byCounts rank_orderFree .insertionSort
      .byKeys .fromLast (counts 5) ?_ ⟨?_, ?_⟩
  · exact ⟨advice, isAdvice, same ▸ isAdvice, isOnly⟩
  · rintro cluster ⟨isCluster, -⟩ one other isOne isOther
    have isKey {id : ElementID} (isMember : id ∈ cluster) : id ∈ (counts 5).keys := by
      rw [clusters] at isCluster
      rcases List.mem_pair.mp isCluster with rfl | rfl
      · revert id
        decide
      · revert id
        decide
    have oneSlow := (counts_slow (.inl rfl) (.inl rfl) (isKey isOne.1)).mp isOne.2.1
    have otherSlow :=
      (counts_slow (.inl rfl) (.inl rfl) (isKey isOther.1)).mp isOther.2.1
    have notLast : ¬(5 : UInt32) = 10 := by decide
    rw [or_iff_left fun isSecond => notLast isSecond.2] at oneSlow otherSlow
    exact oneSlow.trans otherSlow.symm
  · intro one other isOne isOther _
    exact ((only one).mp isOne.1).trans ((only other).mp isOther.1).symm
  · intro _ one other isOne isOther
    exact ((only one).mp isOne.1).trans ((only other).mp isOther.1).symm

/-- Which of two fuzzers that are alike is advised depends on which is met first. -/
theorem alike_fuzzers_differ_in_order :
    startAnalysis rankLibraries .insertionSort .byKeys
        (analysis rankLibraries .byKeys (counts 10)) ≠
      startAnalysis rankLibraries .insertionSort .fromLast
        (analysis rankLibraries .fromLast (counts 10)) := by
  obtain ⟨isForward, isBackward⟩ := counts_clusters 10
  have forwardFirst :=
    @counts_first .byKeys 10 (.inl rfl) (.inr rfl) [] [⟨1, 2⟩, ⟨1, 3⟩, ⟨1, 4⟩] ⟨1, 1⟩
      (by decide) (.inl rfl) (by simp)
  have backwardFirst :=
    @counts_first .fromLast 10 (.inr rfl) (.inr rfl) [⟨1, 4⟩, ⟨1, 3⟩] [⟨1, 1⟩] ⟨1, 2⟩
      (by decide) (.inr ⟨rfl, rfl⟩) (by decide)
  obtain ⟨advice, isAdvice, isFirst⟩ :=
    advice_of_only
      (counts_bad (.inl rfl) (.inr rfl) rfl isForward rfl forwardFirst (by decide)
        (by decide) (by decide))
  obtain ⟨other, isOther, isLast⟩ :=
    advice_of_only
      (counts_bad (.inr rfl) (.inr rfl) rfl isBackward rfl backwardFirst (by decide)
        (by decide) (by decide))
  rw [isAdvice, isOther]
  intro same
  cases same
  rw [isLast] at isFirst
  exact absurd isFirst (by decide)

end MeFuzz.Analysis
