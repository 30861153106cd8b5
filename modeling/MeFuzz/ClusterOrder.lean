import MeFuzz.AdviceSafety

namespace MeFuzz.Analysis

/-!
# Clusters in another order

The fuzzers are clustered in the order in which a walk has met them.  With two points
as the minimum all points of a cluster are core points, so that `DBSCAN` makes the same
clusters in any order, only with other numbers.
-/

variable {Number : Type}

/-- The same groups, each in some order. -/
structure SameGroups (first second : ClusteringData) : Prop where
  noice : first.noice.Perm second.noice
  clusters :
    (first.clusters.entries.map fun entry => (entry.2 : Multiset ElementID)).Perm
      (second.clusters.entries.map fun entry => (entry.2 : Multiset ElementID))

theorem SameGroups.refl (data : ClusteringData) : SameGroups data data :=
  ⟨.refl _, .refl _⟩

theorem SameGroups.symm
    {first second : ClusteringData}
    (same : SameGroups first second) :
    SameGroups second first :=
  ⟨same.noice.symm, same.clusters.symm⟩

/--
`DBSCAN` on the same rows in another order: it fails for both, or puts rows together in
both, and takes them for noise in both.
-/
def OrderFree (libraries : Libraries Number) : Prop :=
  ∀ eps (rows rearranged : List Row), rows.Perm rearranged →
    libraries.dbscan eps rows = none ∧ libraries.dbscan eps rearranged = none ∨
      ∃ guess other : Row → Int,
        libraries.dbscan eps rows = some (rows.map guess) ∧
          libraries.dbscan eps rearranged = some (rearranged.map other) ∧
          ∀ one ∈ rows,
            (guess one = -1 ↔ other one = -1) ∧
              ∀ two ∈ rows, guess two = guess one ↔ other two = other one

section

variable (guess : Row → Int)
variable (points : List (ElementID × Row))

/-- The fuzzers for which the guess is the same. -/
def guessed (number : Int) : List ElementID :=
  (points.filter fun point => guess point.2 = number).map Prod.fst

/-- The data that guesses make. -/
def gathered : ClusteringData :=
  points.foldl (fun res point => res.append (guess point.2) point.1) .zero

variable {guess points}

theorem mem_guessed
    {number : Int}
    {id : ElementID} :
    id ∈ guessed guess points number ↔
      ∃ row, (id, row) ∈ points ∧ guess row = number := by
  simp [guessed]

theorem guessed_concat
    (point : ElementID × Row)
    (number : Int) :
    guessed guess (points ++ [point]) number =
      guessed guess points number ++
        if guess point.2 = number then [point.1] else [] := by
  rw [guessed, List.filter_append, List.map_append]
  by_cases isGuess : guess point.2 = number
  · simp [guessed, isGuess]
  · simp [guessed, isGuess]

theorem gathered_concat (point : ElementID × Row) :
    gathered guess (points ++ [point]) =
      (gathered guess points).append (guess point.2) point.1 := by
  rw [gathered, List.foldl_append]
  rfl

theorem gathered_spec :
    (gathered guess points).noice = guessed guess points (-1) ∧
      ∀ number,
        (gathered guess points).clusters.get number =
          if number = -1 ∨ guessed guess points number = [] then none
          else some (guessed guess points number) := by
  induction points using List.reverseRecOn with
  | nil =>
      exact ⟨rfl, fun number => (if_pos (.inr rfl)).symm⟩
  | append_singleton front point ih =>
      obtain ⟨noice, clusters⟩ := ih
      rw [gathered_concat, ClusteringData.append]
      by_cases isNoice : guess point.2 = -1
      · rw [if_neg (not_not.mpr isNoice)]
        refine ⟨?_, fun number => ?_⟩
        · rw [guessed_concat, if_pos isNoice, noice]
        · rw [clusters, guessed_concat]
          by_cases isNumber : number = -1
          · rw [if_pos (.inl isNumber), if_pos (.inl isNumber)]
          · have isOther : guess point.2 ≠ number := fun same =>
              isNumber (same.symm.trans isNoice)
            rw [if_neg isOther, List.append_nil]
      · rw [if_pos isNoice]
        refine ⟨?_, fun number => ?_⟩
        · rw [guessed_concat, if_neg isNoice, List.append_nil]
          exact noice
        · dsimp only
          rw [OrderedMap.get_insert, guessed_concat]
          by_cases isGuess : number = guess point.2
          · subst isGuess
            have isFull :
                ¬(guess point.2 = -1 ∨
                  guessed guess front (guess point.2) ++ [point.1] = []) := by
              simp [isNoice]
            rw [if_pos rfl, if_pos rfl, if_neg isFull, clusters]
            by_cases isFirst : guessed guess front (guess point.2) = []
            · rw [if_pos (.inr isFirst), isFirst]
              rfl
            · rw [if_neg (not_or.mpr ⟨isNoice, isFirst⟩)]
              rfl
          · rw [if_neg isGuess, if_neg (Ne.symm isGuess), List.append_nil]
            exact clusters number

theorem mem_gathered
    {number : Int}
    {ids : List ElementID} :
    (number, ids) ∈ (gathered guess points).clusters.entries ↔
      number ≠ -1 ∧ ids ≠ [] ∧ ids = guessed guess points number := by
  rw [OrderedMap.mem_entries, gathered_spec.2]
  split
  · rename_i isNothing
    refine iff_of_false nofun ?_
    rintro ⟨notNoice, notEmpty, rfl⟩
    exact isNothing.elim notNoice notEmpty
  · rename_i isFull
    obtain ⟨notNoice, notEmpty⟩ := not_or.mp isFull
    constructor
    · rintro ⟨⟩
      exact ⟨notNoice, notEmpty, rfl⟩
    · rintro ⟨-, -, rfl⟩
      rfl

theorem mem_groups
    {group : Multiset ElementID} :
    group ∈
        (gathered guess points).clusters.entries.map
          (fun entry => (entry.2 : Multiset ElementID)) ↔
      ∃ point ∈ points,
        guess point.2 ≠ -1 ∧ group = guessed guess points (guess point.2) := by
  constructor
  · intro isGroup
    obtain ⟨⟨number, ids⟩, isEntry, rfl⟩ := List.mem_map.mp isGroup
    obtain ⟨notNoice, notEmpty, rfl⟩ := mem_gathered.mp isEntry
    obtain ⟨id, isMember⟩ := List.exists_mem_of_ne_nil _ notEmpty
    obtain ⟨row, isPoint, rfl⟩ := mem_guessed.mp isMember
    exact ⟨(id, row), isPoint, notNoice, rfl⟩
  · rintro ⟨⟨id, row⟩, isPoint, notNoice, rfl⟩
    have isMember : id ∈ guessed guess points (guess row) :=
      mem_guessed.mpr ⟨row, isPoint, rfl⟩
    exact List.mem_map.mpr
      ⟨_, mem_gathered.mpr ⟨notNoice, List.ne_nil_of_mem isMember, rfl⟩, rfl⟩

/-- No two clusters have the same fuzzers. -/
theorem nodup_groups
    (nodup : (points.map Prod.fst).Nodup) :
    ((gathered guess points).clusters.entries.map fun entry =>
      (entry.2 : Multiset ElementID)).Nodup := by
  refine List.Nodup.map_on ?_ (.of_map Prod.fst (OrderedMap.nodup_keys _))
  rintro ⟨number, ids⟩ isEntry ⟨other, otherIds⟩ isOther same
  obtain ⟨-, notEmpty, rfl⟩ := mem_gathered.mp isEntry
  obtain ⟨-, -, rfl⟩ := mem_gathered.mp isOther
  obtain ⟨id, isMember⟩ := List.exists_mem_of_ne_nil _ notEmpty
  have inOther : id ∈ guessed guess points other :=
    (Multiset.coe_eq_coe.mp same).mem_iff.mp isMember
  obtain ⟨row, isPoint, rfl⟩ := mem_guessed.mp isMember
  obtain ⟨otherRow, isOtherPoint, rfl⟩ := mem_guessed.mp inOther
  have sameRow :=
    List.inj_on_of_nodup_map nodup isPoint isOtherPoint rfl
  rw [Prod.mk.inj sameRow |>.2]

variable {other : Row → Int}
variable {rearranged : List (ElementID × Row)}

theorem guessed_perm
    (isPerm : points.Perm rearranged)
    {number otherNumber : Int}
    (alike : ∀ point ∈ points, guess point.2 = number ↔ other point.2 = otherNumber) :
    (guessed guess points number).Perm (guessed other rearranged otherNumber) := by
  have sameFilter :
      points.filter (fun point => guess point.2 = number) =
        points.filter fun point => other point.2 = otherNumber :=
    List.filter_congr fun point isPoint => decide_eq_decide.mpr (alike point isPoint)
  rw [guessed, sameFilter]
  exact (isPerm.filter _).map _

theorem gathered_same
    (isPerm : points.Perm rearranged)
    (nodup : (points.map Prod.fst).Nodup)
    (alike :
      ∀ one ∈ points.map Prod.snd,
        (guess one = -1 ↔ other one = -1) ∧
          ∀ two ∈ points.map Prod.snd, guess two = guess one ↔ other two = other one) :
    SameGroups (gathered guess points) (gathered other rearranged) where
  noice := by
    rw [gathered_spec.1, gathered_spec.1]
    exact guessed_perm isPerm fun point isPoint =>
      (alike point.2 (List.mem_map_of_mem isPoint)).1
  clusters := by
    have otherNodup := (isPerm.map Prod.fst).nodup_iff.mp nodup
    refine
      (List.perm_ext_iff_of_nodup (nodup_groups nodup) (nodup_groups otherNodup)).mpr
        fun group => ?_
    rw [mem_groups, mem_groups]
    have sameGroup
        {point : ElementID × Row}
        (isPoint : point ∈ points) :
        (guessed guess points (guess point.2) : Multiset ElementID) =
          guessed other rearranged (other point.2) :=
      Multiset.coe_eq_coe.mpr <| guessed_perm isPerm fun further isFurther =>
        (alike point.2 (List.mem_map_of_mem isPoint)).2 further.2
          (List.mem_map_of_mem isFurther)
    constructor
    · rintro ⟨point, isPoint, notNoice, rfl⟩
      exact
        ⟨point, isPerm.mem_iff.mp isPoint,
          mt (alike point.2 (List.mem_map_of_mem isPoint)).1.mpr notNoice,
          sameGroup isPoint⟩
    · rintro ⟨point, isThere, notNoice, rfl⟩
      have isPoint := isPerm.mem_iff.mpr isThere
      exact
        ⟨point, isPoint,
          mt (alike point.2 (List.mem_map_of_mem isPoint)).1.mp notNoice,
          (sameGroup isPoint).symm⟩

end

/-- Both fail, or both give the same groups. -/
def AlikeGroups (first second : Option ClusteringData) : Prop :=
  first = none ∧ second = none ∨
    ∃ one other, first = some one ∧ second = some other ∧ SameGroups one other

section

variable {libraries : Libraries Number}
variable {points rearranged : List (ElementID × Row)}

theorem getClusters_alike
    (orderFree : OrderFree libraries)
    (isPerm : points.Perm rearranged)
    (nodup : (points.map Prod.fst).Nodup)
    (eps : Number) :
    AlikeGroups (getClusters libraries points eps)
      (getClusters libraries rearranged eps) := by
  unfold getClusters
  rcases orderFree eps _ _ (isPerm.map Prod.snd) with
    ⟨fails, otherFails⟩ | ⟨guess, other, guesses, others, alike⟩
  · rw [fails, otherFails]
    exact .inl ⟨rfl, rfl⟩
  · have folded
        (guess : Row → Int)
        (points : List (ElementID × Row)) :
        (((points.map Prod.snd).map guess).zip (points.map Prod.fst)).foldl
            (fun res guess => res.append guess.1 guess.2) ClusteringData.zero =
          gathered guess points := by
      rw [List.map_map, List.zip_map', List.foldl_map]
      rfl
    rw [guesses, others]
    refine .inr ⟨_, _, rfl, rfl, ?_⟩
    rw [folded, folded]
    exact gathered_same isPerm nodup alike

theorem SameGroups.hasLarge
    {first second : ClusteringData}
    (same : SameGroups first second)
    {count : Nat}
    (hasLarge : first.HasLarge count) :
    second.HasLarge count := by
  obtain ⟨cluster, isCluster, isLarge⟩ := hasLarge
  have isGroup := same.clusters.mem_iff.mp (List.mem_map_of_mem isCluster)
  obtain ⟨arranged, isArranged, sameGroup⟩ := List.mem_map.mp isGroup
  have sameLength := (Multiset.coe_eq_coe.mp sameGroup).length_eq
  exact ⟨arranged, isArranged, sameLength ▸ isLarge⟩

theorem chooseClusters_alike
    (orderFree : OrderFree libraries)
    (isPerm : points.Perm rearranged)
    (nodup : (points.map Prod.fst).Nodup)
    {td rearrangedTd : List Number}
    (sameQuantiles :
      ∀ level, libraries.quantile td level = libraries.quantile rearrangedTd level)
    (levels : List ℚ) :
    AlikeGroups (chooseClusters libraries points td levels)
      (chooseClusters libraries rearranged rearrangedTd levels) := by
  induction levels with
  | nil =>
      exact .inr ⟨_, _, rfl, rfl, .refl _⟩
  | cons level rest ih =>
      rw [chooseClusters, chooseClusters, ← sameQuantiles]
      rcases
          getClusters_alike orderFree isPerm nodup (libraries.quantile td level) with
        ⟨fails, otherFails⟩ | ⟨one, other, isOne, isOther, same⟩
      · rw [fails, otherFails]
        exact .inl ⟨rfl, rfl⟩
      · have sameLarge :
            one.HasLarge points.length ↔ other.HasLarge rearranged.length := by
          rw [isPerm.length_eq]
          exact ⟨same.hasLarge, same.symm.hasLarge⟩
        simp only [isOne, isOther, Option.bind_eq_bind, Option.bind_some]
        by_cases isLarge : one.HasLarge points.length
        · rw [if_pos isLarge, if_pos (sameLarge.mp isLarge)]
          exact ih
        · rw [if_neg isLarge, if_neg (mt sameLarge.mpr isLarge), isPerm.length_eq,
            same.noice.length_eq]
          split
          · exact .inr ⟨_, _, rfl, rfl, .refl _⟩
          · exact .inr ⟨_, _, rfl, rfl, same⟩

theorem distFn_comm
    (libraries : Libraries Number)
    (one other : Row) :
    distFn libraries one other = distFn libraries other one := by
  have sameDist : sqDist one other = sqDist other one :=
    Finset.sum_congr rfl fun branch _ => by
      rw [← Int.natAbs_neg, neg_sub]
  rw [distFn, sameDist, distFn]

theorem distances_perm
    (libraries : Libraries Number)
    {rows rearranged : List Row}
    (isPerm : rows.Perm rearranged) :
    (distances libraries rows).Perm (distances libraries rearranged) := by
  induction isPerm with
  | nil =>
      exact .refl _
  | cons row isPerm ih =>
      exact ((isPerm.cons row).map _).append ih
  | swap one other rest =>
      classical
      rw [List.perm_iff_count]
      intro distance
      simp only [distances, List.map_cons, List.count_append, List.count_cons]
      rw [distFn_comm libraries one other]
      omega
  | trans _ _ ih otherIh =>
      exact ih.trans otherIh

/-- For other orders, the analysis has the same groups. -/
theorem sameGroups_analysis
    (byCounts :
      ∀ {numbers rearranged : List Number} (level : ℚ),
        numbers.Perm rearranged →
          libraries.quantile numbers level = libraries.quantile rearranged level)
    (orderFree : OrderFree libraries)
    (orders others : Orders)
    (d : CovData) :
    SameGroups (analysis libraries orders d).clusteringData
      (analysis libraries others d).clusteringData := by
  have isPerm :
      (calculate libraries orders d).1.Perm (calculate libraries others d).1 :=
    (WalkOrder.walk_perm.trans WalkOrder.walk_perm.symm).map _
  have nodup : ((calculate libraries orders d).1.map Prod.fst).Nodup := by
    have sameIds :
        (calculate libraries orders d).1.map Prod.fst =
          (orders.fuzzers.walk d).map Prod.fst := by
      rw [calculate, List.map_map]
      rfl
    rw [sameIds]
    exact WalkOrder.nodup_walk
  have alike :=
    chooseClusters_alike orderFree isPerm nodup
      (fun level =>
        byCounts level (distances_perm libraries (isPerm.map Prod.snd)))
      quantileLevels
  rw [analysis, analysis, createAnalyze, createAnalyze]
  dsimp only
  rw [isPerm.length_eq]
  split
  · exact .refl _
  · rcases alike with ⟨fails, otherFails⟩ | ⟨one, other, isOne, isOther, same⟩
    · rw [fails, otherFails]
      exact .refl _
    · rw [isOne, isOther]
      exact same

end

end MeFuzz.Analysis
