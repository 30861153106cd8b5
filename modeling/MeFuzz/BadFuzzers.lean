import MeFuzz.AnalysisAdvice

namespace MeFuzz.Analysis

/-!
# Bad fuzzers

Which fuzzers an analysis finds bad: those of the noise that are short and slow, and
the first of the shortest slow ones of each largest cluster.
-/

variable {Number : Type}
variable [AddCommGroup Number]
variable [LinearOrder Number]
variable {analyze : Analyze Number}
variable {bounds : Bounds Number}

/-- A fuzzer that may be the bad one of its cluster. -/
def Slow (analyze : Analyze Number) (bounds : Bounds Number) (id : ElementID) : Prop :=
  (analyze.normOf id).speed < bounds.clusterSpeed

/-- The first of the slow fuzzers of a cluster that are shortest. -/
def FirstLowest
    (analyze : Analyze Number)
    (bounds : Bounds Number)
    (cluster : List ElementID)
    (id : ElementID) : Prop :=
  ∃ before after,
    cluster = before ++ id :: after ∧
      Slow analyze bounds id ∧
      (∀ other ∈ before, Slow analyze bounds other →
        (analyze.normOf id).norm < (analyze.normOf other).norm) ∧
      ∀ other ∈ after, Slow analyze bounds other →
        (analyze.normOf id).norm ≤ (analyze.normOf other).norm

/-- Where a search over a cluster ends. -/
def lowestAt (analyze : Analyze Number) (id : ElementID) : Lowest Number where
  minNorm := (analyze.normOf id).norm
  minNormID := id
  speed := (analyze.normOf id).speed

theorem lowestOf_cases
    (analyze : Analyze Number)
    (bounds : Bounds Number)
    (cluster : List ElementID) :
    ((∀ id ∈ cluster, ¬Slow analyze bounds id) ∧
      lowestOf analyze bounds cluster =
        { minNorm := ⊤, minNormID := ⟨0, 0⟩, speed := 0 }) ∨
      ∃ id,
        FirstLowest analyze bounds cluster id ∧
          lowestOf analyze bounds cluster = lowestAt analyze id := by
  induction cluster using List.reverseRecOn with
  | nil =>
      exact .inl ⟨by simp, rfl⟩
  | append_singleton front last ih =>
      have step :
          lowestOf analyze bounds (front ++ [last]) =
            lowerOf analyze bounds (lowestOf analyze bounds front) last :=
        List.foldl_concat _ _ _ _
      rw [step]
      rcases ih with ⟨noneSlow, isStart⟩ | ⟨id, isFirst, isLowest⟩
      · rw [isStart]
        by_cases slow : Slow analyze bounds last
        · refine .inr ⟨last, ⟨front, [], rfl, slow, ?_, by simp⟩, ?_⟩
          · intro other isOther otherSlow
            exact absurd otherSlow (noneSlow other isOther)
          · exact if_pos ⟨WithTop.coe_lt_top _, slow⟩
        · refine .inl ⟨?_, ?_⟩
          · intro id isId
            rw [List.mem_append, List.mem_singleton] at isId
            rcases isId with isFront | rfl
            · exact noneSlow id isFront
            · exact slow
          · exact if_neg fun lower => slow lower.2
      · obtain ⟨before, after, split, slow, below, above⟩ := isFirst
        rw [isLowest]
        by_cases lower :
            (analyze.normOf last).norm < (analyze.normOf id).norm ∧
              Slow analyze bounds last
        · refine .inr ⟨last, ⟨front, [], rfl, lower.2, ?_, by simp⟩, ?_⟩
          · intro other isOther otherSlow
            rw [split, List.mem_append, List.mem_cons] at isOther
            rcases isOther with isBefore | rfl | isAfter
            · exact lower.1.trans (below other isBefore otherSlow)
            · exact lower.1
            · exact lower.1.trans_le (above other isAfter otherSlow)
          · exact if_pos ⟨WithTop.coe_lt_coe.mpr lower.1, lower.2⟩
        · refine .inr ⟨id, ⟨before, after ++ [last], ?_, slow, below, ?_⟩, ?_⟩
          · rw [split, List.append_assoc, List.cons_append]
          · intro other isOther otherSlow
            rw [List.mem_append, List.mem_singleton] at isOther
            rcases isOther with isAfter | rfl
            · exact above other isAfter otherSlow
            · exact not_lt.mp fun less => lower ⟨less, otherSlow⟩
          · exact
              if_neg fun isLower =>
                lower ⟨WithTop.coe_lt_coe.mp isLower.1, isLower.2⟩

theorem FirstLowest.unique
    {cluster : List ElementID}
    {id other : ElementID}
    (isFirst : FirstLowest analyze bounds cluster id)
    (isOther : FirstLowest analyze bounds cluster other) :
    id = other := by
  obtain ⟨before, after, split, slow, below, above⟩ := isFirst
  obtain ⟨otherBefore, otherAfter, otherSplit, otherSlow, otherBelow, otherAbove⟩ :=
    isOther
  rw [split] at otherSplit
  rcases List.append_eq_append_iff.mp otherSplit with
    ⟨between, isBetween, isAfter⟩ | ⟨between, isBetween, isAfter⟩
  · cases between with
    | nil =>
        exact (List.cons.inj isAfter).1
    | cons first rest =>
        obtain ⟨rfl, isRest⟩ := List.cons.inj isAfter
        have less := otherBelow id (by simp [isBetween]) slow
        have notLess := above other (by simp [isRest]) otherSlow
        exact absurd less notLess.not_gt
  · cases between with
    | nil =>
        exact (List.cons.inj isAfter).1.symm
    | cons first rest =>
        obtain ⟨rfl, isRest⟩ := List.cons.inj isAfter
        have less := below other (by simp [isBetween]) otherSlow
        have notLess := otherAbove id (by simp [isRest]) slow
        exact absurd less notLess.not_gt

/-- The lists of fuzzers that were clustered. -/
def Analyze.clusters (analyze : Analyze Number) : List (List ElementID) :=
  analyze.clusteringData.clusters.entries.map Prod.snd

/-- A cluster that no other one exceeds. -/
def Largest (analyze : Analyze Number) (cluster : List ElementID) : Prop :=
  cluster ∈ analyze.clusters ∧
    ∀ other ∈ analyze.clusters, other.length ≤ cluster.length

/-- A bad fuzzer of the noise. -/
def NoiceBad
    (analyze : Analyze Number)
    (bounds : Bounds Number)
    (id : ElementID) : Prop :=
  id ∈ analyze.clusteringData.noice ∧
    (analyze.normOf id).norm < bounds.norm ∧
    (analyze.normOf id).speed < bounds.speed

/-- The bad fuzzer of a cluster; the zero value stands for none. -/
def ClusterBad
    (analyze : Analyze Number)
    (bounds : Bounds Number)
    (id : ElementID) : Prop :=
  id ≠ ⟨0, 0⟩ ∧
    ∃ cluster, Largest analyze cluster ∧ FirstLowest analyze bounds cluster id

/-- A bad fuzzer of an analysis. -/
def IsBad (analyze : Analyze Number) (bounds : Bounds Number) (id : ElementID) : Prop :=
  NoiceBad analyze bounds id ∨ ClusterBad analyze bounds id

/-- What the loop over the noise adds for a fuzzer. -/
def noiceEntry
    (analyze : Analyze Number)
    (bounds : Bounds Number)
    (candidate : ElementID) : Option (ElementID × BadFuzzer Number) :=
  let norm := analyze.normOf candidate
  if norm.norm < bounds.norm ∧ norm.speed < bounds.speed then
    some
      (candidate,
        { norm := norm.norm
          speed := norm.speed
          id := candidate
          isNoice := true })
  else none

/-- What the loop over the clusters adds for one of them. -/
def lowestEntry
    (analyze : Analyze Number)
    (bounds : Bounds Number)
    (maxClusterSize : Int)
    (cluster : List ElementID) : Option (ElementID × BadFuzzer Number) :=
  let lowest := lowestOf analyze bounds cluster
  if (cluster.length : Int) = maxClusterSize ∧ lowest.minNormID ≠ ⟨0, 0⟩ then
    some
      (lowest.minNormID,
        { norm := lowest.minNorm.untopD 0
          speed := lowest.speed
          id := lowest.minNormID
          isNoice := false })
  else none

theorem addNoice_eq (bad : BadFuzzers Number) (candidate : ElementID) :
    addNoice analyze bounds bad candidate =
      bad.insertOption (noiceEntry analyze bounds candidate) := by
  unfold addNoice noiceEntry
  dsimp only
  split <;> rfl

theorem addLowest_eq
    (size : Int)
    (bad : BadFuzzers Number)
    (cluster : List ElementID) :
    addLowest analyze bounds size bad cluster =
      bad.insertOption (lowestEntry analyze bounds size cluster) := by
  unfold addLowest lowestEntry
  by_cases isLargest : (cluster.length : Int) = size
  · rw [if_neg (not_not.mpr isLargest)]
    dsimp only
    by_cases isZero : (lowestOf analyze bounds cluster).minNormID = ⟨0, 0⟩
    · rw [if_pos isZero, if_neg fun both => both.2 isZero]
      rfl
    · rw [if_neg isZero, if_pos ⟨isLargest, isZero⟩]
      rfl
  · rw [if_pos isLargest]
    dsimp only
    rw [if_neg fun both => isLargest both.1]
    rfl

/-- All that the two loops add. -/
def badEntries
    (analyze : Analyze Number)
    (bounds : Bounds Number)
    (clusters : List (List ElementID)) : List (ElementID × BadFuzzer Number) :=
  analyze.clusteringData.noice.filterMap (noiceEntry analyze bounds) ++
    clusters.filterMap (lowestEntry analyze bounds (maxClusterSize clusters))

variable {libraries : Libraries Number}
variable {orders : Orders}

theorem badFuzzers_eq :
    badFuzzers libraries orders analyze =
      OrderedMap.empty.insertAll
        (badEntries analyze (boundsOf libraries orders analyze)
          ((orders.clusters.walk analyze.clusteringData.clusters).map
            Prod.snd)) := by
  unfold badFuzzers badEntries
  dsimp only
  simp only [funext₂ (addLowest_eq _), funext₂ addNoice_eq]
  rw [OrderedMap.foldl_insertOption, OrderedMap.foldl_insertOption,
    ← OrderedMap.insertAll_append]

theorem maxClusterSize_spec (clusters : List (List ElementID)) :
    (∀ cluster ∈ clusters, (cluster.length : Int) ≤ maxClusterSize clusters) ∧
      (maxClusterSize clusters = -1 ∨
        ∃ cluster ∈ clusters, maxClusterSize clusters = cluster.length) := by
  induction clusters using List.reverseRecOn with
  | nil =>
      exact ⟨by simp, .inl rfl⟩
  | append_singleton front last ih =>
      obtain ⟨bounded, reached⟩ := ih
      have step :
          maxClusterSize (front ++ [last]) =
            max (maxClusterSize front) last.length :=
        List.foldl_concat _ _ _ _
      rw [step]
      constructor
      · intro cluster isCluster
        rw [List.mem_append, List.mem_singleton] at isCluster
        rcases isCluster with isFront | rfl
        · exact (bounded cluster isFront).trans (le_max_left _ _)
        · exact le_max_right _ _
      · rcases le_total (maxClusterSize front) last.length with less | more
        · rw [max_eq_right less]
          exact .inr ⟨last, by simp, rfl⟩
        · rw [max_eq_left more]
          rcases reached with isNone | ⟨cluster, isFront, isSize⟩
          · exact .inl isNone
          · exact .inr ⟨cluster, by simp [isFront], isSize⟩

variable {clusters : List (List ElementID)}

theorem eq_maxClusterSize
    {cluster : List ElementID}
    (isCluster : cluster ∈ clusters) :
    (cluster.length : Int) = maxClusterSize clusters ↔
      ∀ other ∈ clusters, other.length ≤ cluster.length := by
  obtain ⟨bounded, reached⟩ := maxClusterSize_spec clusters
  constructor
  · intro isSize other isOther
    have bound := bounded other isOther
    omega
  · intro isLargest
    have bound := bounded cluster isCluster
    rcases reached with isNone | ⟨other, isOther, isSize⟩
    · omega
    · have less := isLargest other isOther
      omega

variable {id : ElementID}

theorem mem_noiceEntries
    {bf : BadFuzzer Number} :
    (id, bf) ∈
        analyze.clusteringData.noice.filterMap (noiceEntry analyze bounds) ↔
      NoiceBad analyze bounds id ∧
        bf =
          { norm := (analyze.normOf id).norm
            speed := (analyze.normOf id).speed
            id := id
            isNoice := true } := by
  rw [List.mem_filterMap]
  constructor
  · rintro ⟨candidate, isNoice, isEntry⟩
    unfold noiceEntry at isEntry
    dsimp only at isEntry
    split at isEntry
    · rename_i isBad
      obtain ⟨rfl, rfl⟩ := Prod.mk.inj (Option.some.inj isEntry)
      exact ⟨⟨isNoice, isBad⟩, rfl⟩
    · cases isEntry
  · rintro ⟨⟨isNoice, isBad⟩, rfl⟩
    exact ⟨id, isNoice, if_pos isBad⟩

theorem mem_lowestEntries
    {bf : BadFuzzer Number} :
    (id, bf) ∈
        clusters.filterMap
          (lowestEntry analyze bounds (maxClusterSize clusters)) ↔
      (id ≠ ⟨0, 0⟩ ∧
        ∃ cluster ∈ clusters,
          (∀ other ∈ clusters, other.length ≤ cluster.length) ∧
            FirstLowest analyze bounds cluster id) ∧
        bf =
          { norm := (analyze.normOf id).norm
            speed := (analyze.normOf id).speed
            id := id
            isNoice := false } := by
  rw [List.mem_filterMap]
  constructor
  · rintro ⟨cluster, isCluster, isEntry⟩
    unfold lowestEntry at isEntry
    dsimp only at isEntry
    split at isEntry
    · rename_i both
      obtain ⟨isSize, notZero⟩ := both
      rw [eq_maxClusterSize isCluster] at isSize
      rcases lowestOf_cases analyze bounds cluster with ⟨-, isStart⟩ | ⟨first, isFirst, isLowest⟩
      · rw [isStart] at notZero
        exact absurd rfl notZero
      · rw [isLowest] at isEntry notZero
        obtain ⟨rfl, rfl⟩ := Prod.mk.inj (Option.some.inj isEntry)
        exact ⟨⟨notZero, cluster, isCluster, isSize, isFirst⟩, rfl⟩
    · cases isEntry
  · rintro ⟨⟨notZero, cluster, isCluster, isLargest, isFirst⟩, rfl⟩
    refine ⟨cluster, isCluster, ?_⟩
    rcases lowestOf_cases analyze bounds cluster with ⟨noneSlow, -⟩ | ⟨first, isOther, isLowest⟩
    · obtain ⟨before, after, rfl, slow, -⟩ := isFirst
      exact absurd slow (noneSlow id (by simp))
    · obtain rfl := isFirst.unique isOther
      unfold lowestEntry
      dsimp only
      rw [isLowest]
      exact if_pos ⟨(eq_maxClusterSize isCluster).mpr isLargest, notZero⟩

omit [AddCommGroup Number] [LinearOrder Number] in
theorem clusters_walk_perm (orders : Orders) (analyze : Analyze Number) :
    ((orders.clusters.walk analyze.clusteringData.clusters).map Prod.snd).Perm
      analyze.clusters :=
  WalkOrder.walk_perm.map Prod.snd

theorem clusterBad_iff
    (isClusters : clusters.Perm analyze.clusters) :
    (id ≠ ⟨0, 0⟩ ∧
      ∃ cluster ∈ clusters,
        (∀ other ∈ clusters, other.length ≤ cluster.length) ∧
          FirstLowest analyze bounds cluster id) ↔
      ClusterBad analyze bounds id := by
  unfold ClusterBad Largest
  simp only [isClusters.mem_iff, and_assoc]

theorem mem_badFuzzers
    {id : ElementID} :
    id ∈ (badFuzzers libraries orders analyze).keys ↔
      IsBad analyze (boundsOf libraries orders analyze) id := by
  rw [badFuzzers_eq, OrderedMap.mem_keys_insertAll]
  have notBefore :
      id ∉ (OrderedMap.empty : BadFuzzers Number).keys :=
    List.not_mem_nil
  rw [or_iff_right notBefore, List.mem_map]
  constructor
  · rintro ⟨⟨key, bf⟩, isEntry, rfl⟩
    rcases List.mem_append.mp isEntry with isNoice | isLowest
    · exact .inl (mem_noiceEntries.mp isNoice).1
    · exact
        .inr ((clusterBad_iff (clusters_walk_perm orders analyze)).mp (mem_lowestEntries.mp isLowest).1)
  · rintro (isNoice | isLowest)
    · exact
        ⟨_, List.mem_append_left _ (mem_noiceEntries.mpr ⟨isNoice, rfl⟩), rfl⟩
    · have isBad := (clusterBad_iff (clusters_walk_perm orders analyze)).mpr isLowest
      exact ⟨_, List.mem_append_right _ (mem_lowestEntries.mpr ⟨isBad, rfl⟩), rfl⟩

theorem badFuzzers_get
    {bf : BadFuzzer Number}
    (isThere : (badFuzzers libraries orders analyze).get id = some bf) :
    bf.id = id ∧ bf.norm = (analyze.normOf id).norm := by
  rw [badFuzzers_eq] at isThere
  rcases OrderedMap.get_insertAll isThere with isEntry | isBefore
  · rcases List.mem_append.mp isEntry with isNoice | isLowest
    · rw [(mem_noiceEntries.mp isNoice).2]
      exact ⟨rfl, rfl⟩
    · rw [(mem_lowestEntries.mp isLowest).2]
      exact ⟨rfl, rfl⟩
  · cases isBefore

end MeFuzz.Analysis
