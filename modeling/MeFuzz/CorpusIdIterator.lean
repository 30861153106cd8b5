import MeFuzz.InMemoryCorpus

namespace MeFuzz.Corpus

/-!
# Iterating over ids from both ends

The iterator keeps a cursor for either end, and neither cursor looks at the other.
From one end, every id comes once.  From both ends, ids come twice as soon as there
are more calls than ids.
-/

/-- `CorpusIdIterator`; the corpus does not change while it is borrowed. -/
structure CorpusIdIterator where
  cur : Option CorpusId
  curBack : Option CorpusId

namespace CorpusIdIterator

variable {Testcase : Type}

/-- `Corpus::ids`. -/
def start (corpus : InMemoryCorpus Testcase) : CorpusIdIterator where
  cur := corpus.first
  curBack := corpus.last

/-- `next`. -/
def next
    (corpus : InMemoryCorpus Testcase)
    (iterator : CorpusIdIterator) : Option CorpusId × CorpusIdIterator :=
  match iterator.cur with
  | some cur => (some cur, { iterator with cur := corpus.next cur })
  | none => (none, iterator)

/-- `next_back`. -/
def nextBack
    (corpus : InMemoryCorpus Testcase)
    (iterator : CorpusIdIterator) : Option CorpusId × CorpusIdIterator :=
  match iterator.curBack with
  | some curBack =>
      (some curBack, { iterator with curBack := corpus.prev curBack })
  | none => (none, iterator)

/-- The end at which an iterator is asked for an id. -/
inductive End where
  | front
  | back
  deriving Repr, DecidableEq

/-- Ask for an id at one end. -/
def call
    (corpus : InMemoryCorpus Testcase)
    (iterator : CorpusIdIterator) : End → Option CorpusId × CorpusIdIterator
  | .front => next corpus iterator
  | .back => nextBack corpus iterator

/-- The answers to calls, one after the other. -/
def answers
    (corpus : InMemoryCorpus Testcase) :
    CorpusIdIterator → List End → List (Option CorpusId)
  | _, [] => []
  | iterator, side :: rest =>
      (call corpus iterator side).1 :: answers corpus (call corpus iterator side).2 rest

variable {corpus : InMemoryCorpus Testcase}
variable {calls : List End}

/-- The cursors after so many calls at the front and at the back. -/
def after (corpus : InMemoryCorpus Testcase) (front back : Nat) : CorpusIdIterator where
  cur := corpus.ids[front]?
  curBack := corpus.ids.reverse[back]?

/-- The answers from there on. -/
def answersAfter
    (corpus : InMemoryCorpus Testcase) :
    Nat → Nat → List End → List (Option CorpusId)
  | _, _, [] => []
  | front, back, .front :: rest =>
      corpus.ids[front]? :: answersAfter corpus (front + 1) back rest
  | front, back, .back :: rest =>
      corpus.ids.reverse[back]? :: answersAfter corpus front (back + 1) rest

theorem start_eq (corpus : InMemoryCorpus Testcase) :
    start corpus = after corpus 0 0 := by
  unfold start after
  congr 1
  · exact List.head?_eq_getElem?
  · rw [← List.head?_eq_getElem?, List.head?_reverse]
    rfl

theorem next_after (front back : Nat) :
    next corpus (after corpus front back) =
      (corpus.ids[front]?, after corpus (front + 1) back) := by
  unfold next
  cases isCur : corpus.ids[front]? with
  | none =>
      have atEnd := List.getElem?_eq_none_iff.mp isCur
      have behind : corpus.ids[front + 1]? = none :=
        List.getElem?_eq_none (atEnd.trans (Nat.le_succ front))
      simp only [after, isCur, behind]
  | some cur =>
      have isBefore := (List.getElem?_eq_some_iff.mp isCur).1
      have split :
          corpus.ids =
            corpus.ids.take front ++ cur :: corpus.ids.drop (front + 1) := by
        rw [← (List.getElem?_eq_some_iff.mp isCur).2, List.getElem_cons_drop,
          List.take_append_drop]
      simp only [after, isCur, InMemoryCorpus.next_eq split,
        List.head?_eq_getElem?, List.getElem?_drop, Nat.add_zero]

theorem nextBack_after (front back : Nat) :
    nextBack corpus (after corpus front back) =
      (corpus.ids.reverse[back]?, after corpus front (back + 1)) := by
  unfold nextBack
  cases isCur : corpus.ids.reverse[back]? with
  | none =>
      have atEnd := List.getElem?_eq_none_iff.mp isCur
      have behind : corpus.ids.reverse[back + 1]? = none :=
        List.getElem?_eq_none (atEnd.trans (Nat.le_succ back))
      simp only [after, isCur, behind]
  | some cur =>
      have split :
          corpus.ids.reverse =
            corpus.ids.reverse.take back ++
              cur :: corpus.ids.reverse.drop (back + 1) := by
        rw [← (List.getElem?_eq_some_iff.mp isCur).2, List.getElem_cons_drop,
          List.take_append_drop]
      have splitForward :
          corpus.ids =
            (corpus.ids.reverse.drop (back + 1)).reverse ++
              cur :: (corpus.ids.reverse.take back).reverse := by
        have reversed := congrArg List.reverse split
        simpa using reversed
      have isPrev :
          corpus.prev cur = (corpus.ids.reverse.drop (back + 1)).head? := by
        rw [← List.getLast?_reverse]
        exact BTree.TestcaseStorage.prev_eq splitForward
      simp only [after, isCur, isPrev, List.head?_eq_getElem?, List.getElem?_drop,
        Nat.add_zero]

theorem answers_after (front back : Nat) (calls : List End) :
    answers corpus (after corpus front back) calls =
      answersAfter corpus front back calls := by
  induction calls generalizing front back with
  | nil =>
      rfl
  | cons side rest ih =>
      cases side with
      | front =>
          rw [answers, answersAfter, call, next_after, ih]
      | back =>
          rw [answers, answersAfter, call, nextBack_after, ih]

/-- The ids among the answers. -/
def yielded (answers : List (Option CorpusId)) : List CorpusId :=
  answers.filterMap id

theorem take_drop_succ
    (ids : List CorpusId)
    (place count : Nat) :
    (ids.drop place).take (count + 1) =
      ids[place]?.toList ++ (ids.drop (place + 1)).take count := by
  by_cases isInside : place < ids.length
  · rw [List.drop_eq_getElem_cons isInside, List.take_succ_cons,
      List.getElem?_eq_getElem isInside]
    rfl
  · have atEnd := Nat.not_lt.mp isInside
    rw [List.drop_eq_nil_of_le atEnd, List.getElem?_eq_none atEnd,
      List.drop_eq_nil_of_le (atEnd.trans (Nat.le_succ place)), List.take_nil,
      List.take_nil]
    rfl

theorem yielded_cons
    (answer : Option CorpusId)
    (rest : List (Option CorpusId)) :
    yielded (answer :: rest) = answer.toList ++ yielded rest := by
  cases answer <;> rfl

theorem yielded_answersAfter (front back : Nat) (calls : List End) :
    (yielded (answersAfter corpus front back calls)).Perm
      ((corpus.ids.drop front).take (calls.count .front) ++
        (corpus.ids.reverse.drop back).take (calls.count .back)) := by
  induction calls generalizing front back with
  | nil =>
      exact .refl _
  | cons side rest ih =>
      cases side with
      | front =>
          have noBack : (End.front :: rest).count .back = rest.count .back :=
            List.count_cons_of_ne (by decide)
          rw [answersAfter, yielded_cons, List.count_cons_self, noBack,
            take_drop_succ, List.append_assoc]
          exact (ih (front + 1) back).append_left _
      | back =>
          have noFront : (End.back :: rest).count .front = rest.count .front :=
            List.count_cons_of_ne (by decide)
          rw [answersAfter, yielded_cons, List.count_cons_self, noFront,
            take_drop_succ]
          refine ((ih front (back + 1)).append_left _).trans ?_
          rw [← List.append_assoc, ← List.append_assoc]
          exact List.perm_append_comm.append_right _

theorem answersAfter_of_exhausted
    {front back : Nat}
    (noFront : .front ∈ calls → corpus.ids.length ≤ front)
    (noBack : .back ∈ calls → corpus.ids.length ≤ back) :
    ∀ answer ∈ answersAfter corpus front back calls, answer = none := by
  induction calls generalizing front back with
  | nil =>
      exact fun answer isAnswer => absurd isAnswer List.not_mem_nil
  | cons side rest ih =>
      cases side with
      | front =>
          have atEnd := noFront List.mem_cons_self
          intro answer isAnswer
          cases isAnswer with
          | head =>
              exact List.getElem?_eq_none atEnd
          | tail _ later =>
              exact
                ih (fun _ => atEnd.trans (Nat.le_succ front))
                  (fun isBack => noBack (.tail _ isBack)) answer later
      | back =>
          have atEnd := noBack List.mem_cons_self
          intro answer isAnswer
          cases isAnswer with
          | head =>
              refine List.getElem?_eq_none ?_
              rw [List.length_reverse]
              exact atEnd
          | tail _ later =>
              exact
                ih (fun isFront => noFront (.tail _ isFront))
                  (fun _ => atEnd.trans (Nat.le_succ back)) answer later

theorem answersAfter_of_enough
    {front back : Nat}
    (enough : front + back + calls.length ≤ corpus.ids.length) :
    ∀ answer ∈ answersAfter corpus front back calls, answer ≠ none := by
  induction calls generalizing front back with
  | nil =>
      exact fun answer isAnswer => absurd isAnswer List.not_mem_nil
  | cons side rest ih =>
      rw [List.length_cons] at enough
      cases side with
      | front =>
          intro answer isAnswer
          cases isAnswer with
          | head =>
              have isInside : front < corpus.ids.length := by omega
              rw [List.getElem?_eq_getElem isInside]
              exact Option.some_ne_none _
          | tail _ later =>
              exact @ih (front + 1) back (by omega) answer later
      | back =>
          intro answer isAnswer
          cases isAnswer with
          | head =>
              have isInside : back < corpus.ids.reverse.length := by
                rw [List.length_reverse]
                omega
              rw [List.getElem?_eq_getElem isInside]
              exact Option.some_ne_none _
          | tail _ later =>
              exact @ih front (back + 1) (by omega) answer later

theorem answersAfter_stays
    {front back : Nat}
    (oneEnd : .front ∉ calls ∨ .back ∉ calls)
    {earlier later : List (Option CorpusId)}
    (split : answersAfter corpus front back calls = earlier ++ none :: later) :
    ∀ answer ∈ later, answer = none := by
  induction calls generalizing front back earlier with
  | nil =>
      cases earlier <;> cases split
  | cons side rest ih =>
      have oneEndLater : .front ∉ rest ∨ .back ∉ rest :=
        oneEnd.imp (mt (.tail _)) (mt (.tail _))
      cases earlier with
      | cons first earlier =>
          cases side with
          | front =>
              exact ih oneEndLater (List.cons.inj split).2
          | back =>
              exact ih oneEndLater (List.cons.inj split).2
      | nil =>
          cases side with
          | front =>
              obtain ⟨isNone, rfl⟩ := List.cons.inj split
              have noBack : .back ∉ rest := by
                rcases oneEnd with noFront | noBack
                · exact absurd List.mem_cons_self noFront
                · exact mt (.tail _) noBack
              have atEnd := List.getElem?_eq_none_iff.mp isNone
              exact
                answersAfter_of_exhausted
                  (fun _ => atEnd.trans (Nat.le_succ front))
                  fun isBack => absurd isBack noBack
          | back =>
              obtain ⟨isNone, rfl⟩ := List.cons.inj split
              have noFront : .front ∉ rest := by
                rcases oneEnd with noFront | noBack
                · exact mt (.tail _) noFront
                · exact absurd List.mem_cons_self noBack
              have atEnd := List.getElem?_eq_none_iff.mp isNone
              rw [List.length_reverse] at atEnd
              exact
                answersAfter_of_exhausted
                  (fun isFront => absurd isFront noFront)
                  fun _ => atEnd.trans (Nat.le_succ back)

/-- The answers give each id once before they end, and they end for good. -/
structure Partitions
    (ids : List CorpusId)
    (answers : List (Option CorpusId)) : Prop where
  once : (yielded answers).Nodup
  all : none ∈ answers → ∀ id ∈ ids, id ∈ yielded answers
  stays :
    ∀ earlier later,
      answers = earlier ++ none :: later → ∀ answer ∈ later, answer = none

/-- No id is reached from both ends. -/
def Apart (ids : List CorpusId) (calls : List End) : Prop :=
  ids = [] ∨ .front ∉ calls ∨ .back ∉ calls ∨ calls.length ≤ ids.length

theorem answers_start (calls : List End) :
    answers corpus (start corpus) calls = answersAfter corpus 0 0 calls := by
  rw [start_eq, answers_after]

theorem yielded_start (calls : List End) :
    (yielded (answersAfter corpus 0 0 calls)).Perm
      (corpus.ids.take (calls.count .front) ++
        corpus.ids.reverse.take (calls.count .back)) :=
  yielded_answersAfter 0 0 calls

theorem nodup_ids (corpus : InMemoryCorpus Testcase) : corpus.ids.Nodup :=
  (InMemoryCorpus.sorted_ids corpus).imp ne_of_lt

theorem count_front_add_back (calls : List End) :
    calls.count .front + calls.count .back = calls.length := by
  induction calls with
  | nil =>
      rfl
  | cons side rest ih =>
      rw [List.length_cons, ← ih, List.count_cons, List.count_cons]
      cases side
      · exact Nat.add_right_comm _ _ _
      · rfl

theorem partitions_of_oneEnd
    (oneEnd : .front ∉ calls ∨ .back ∉ calls) :
    Partitions corpus.ids (answersAfter corpus 0 0 calls) := by
  have perm := @yielded_start _ corpus calls
  have distinct := nodup_ids corpus
  refine ⟨?_, ?_, fun _ _ => answersAfter_stays oneEnd⟩
  · rw [perm.nodup_iff]
    rcases oneEnd with noFront | noBack
    · rw [List.count_eq_zero_of_not_mem noFront, List.take_zero, List.nil_append]
      exact (List.nodup_reverse.mpr distinct).sublist (List.take_sublist _ _)
    · rw [List.count_eq_zero_of_not_mem noBack, List.take_zero, List.append_nil]
      exact distinct.sublist (List.take_sublist _ _)
  · intro ended id isId
    have notEnough : ¬calls.length ≤ corpus.ids.length := by
      intro enough
      have started : 0 + 0 + calls.length ≤ corpus.ids.length := by omega
      exact answersAfter_of_enough started none ended rfl
    have counts := count_front_add_back calls
    rw [perm.mem_iff]
    rcases oneEnd with noFront | noBack
    · rw [List.count_eq_zero_of_not_mem noFront] at counts ⊢
      rw [List.take_zero, List.nil_append, List.take_of_length_le, List.mem_reverse]
      · exact isId
      · rw [List.length_reverse]
        omega
    · rw [List.count_eq_zero_of_not_mem noBack] at counts ⊢
      rw [List.take_zero, List.append_nil, List.take_of_length_le]
      · exact isId
      · omega

theorem partitions_of_enough
    (enough : calls.length ≤ corpus.ids.length) :
    Partitions corpus.ids (answersAfter corpus 0 0 calls) := by
  have started : 0 + 0 + calls.length ≤ corpus.ids.length := by omega
  have noneEnds := answersAfter_of_enough started
  refine ⟨?_, fun ended => absurd rfl (noneEnds none ended), ?_⟩
  · have counts := count_front_add_back calls
    have notMet : calls.count .front ≤ corpus.ids.length - calls.count .back := by
      omega
    have distinct := nodup_ids corpus
    rw [(yielded_start calls).nodup_iff, List.take_reverse]
    refine
      (distinct.sublist (List.take_sublist _ _)).append
        (List.nodup_reverse.mpr (distinct.sublist (List.drop_sublist _ _))) ?_
    rw [List.disjoint_reverse_right]
    exact List.disjoint_take_drop distinct notMet
  · intro earlier later split
    exact absurd rfl (noneEnds none (by simp [split]))

/-- The iterator partitions the ids exactly if no id is reached from both ends. -/
theorem ids_are_partitioned
    (corpus : InMemoryCorpus Testcase)
    (calls : List End) :
    Partitions corpus.ids (answers corpus (start corpus) calls) ↔
      Apart corpus.ids calls := by
  rw [answers_start]
  constructor
  · intro partitions
    by_contra notApart
    unfold Apart at notApart
    push Not at notApart
    obtain ⟨notEmpty, hasFront, hasBack, tooMany⟩ := notApart
    have isSubset : yielded (answersAfter corpus 0 0 calls) ⊆ corpus.ids := by
      intro id isYielded
      rw [(yielded_start calls).mem_iff, List.mem_append] at isYielded
      rcases isYielded with isFront | isBack
      · exact List.mem_of_mem_take isFront
      · exact List.mem_reverse.mp (List.mem_of_mem_take isBack)
    have bounded := (partitions.once.subperm isSubset).length_le
    rw [(yielded_start calls).length_eq, List.length_append, List.length_take,
      List.length_take, List.length_reverse] at bounded
    have counts := count_front_add_back calls
    have somewhere := List.length_pos_iff.mpr notEmpty
    have frontCalls := List.count_pos_iff.mpr hasFront
    have backCalls := List.count_pos_iff.mpr hasBack
    omega
  · rintro (isEmpty | noFront | noBack | enough)
    · rw [isEmpty]
      have noneAnswers :=
        @answersAfter_of_exhausted _ corpus calls 0 0 (by simp [isEmpty])
          (by simp [isEmpty])
      refine ⟨?_, fun _ _ isId => absurd isId List.not_mem_nil, ?_⟩
      · have nothing : yielded (answersAfter corpus 0 0 calls) = [] :=
          List.filterMap_eq_nil_iff.mpr noneAnswers
        rw [nothing]
        exact List.nodup_nil
      · intro earlier later split answer isLater
        exact noneAnswers answer (by simp [split, isLater])
    · exact partitions_of_oneEnd (.inl noFront)
    · exact partitions_of_oneEnd (.inr noBack)
    · exact partitions_of_enough enough

/-- A corpus with one testcase. -/
def single : InMemoryCorpus Unit :=
  ((InMemoryCorpus.new : InMemoryCorpus Unit).add ()).2

/-- From a corpus with one id, both ends yield it. -/
theorem single_id_comes_twice :
    answers single (start single) [.front, .back] = [some 0, some 0] ∧
      ¬Partitions single.ids (answers single (start single) [.front, .back]) := by
  refine ⟨rfl, fun partitions => ?_⟩
  have isTwice :
      yielded (answers single (start single) [.front, .back]) = [0, 0] :=
    rfl
  have once := partitions.once
  rw [isTwice] at once
  exact absurd once (by decide)

end CorpusIdIterator

end MeFuzz.Corpus
