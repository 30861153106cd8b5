import MeFuzz.Gramatron

namespace MeFuzz.Gramatron

open Corpus (CorpusId)
open Mutators Procedure

/-!
# Accepting walks

An input is accepted when the trigger of each terminal leads to the state of the
next one, and that of the last to the final state.  What follows a cut has to
start in the state to which the trigger in front of it leads.  The random mutator
draws another trigger for that terminal instead.
-/

section

variable (automaton : Automaton)

/-- The trigger that a terminal records. -/
def recorded (terminal : Terminal) : Option Trigger := do
  let triggers ← automaton.pda[terminal.state]?
  triggers[terminal.triggerIdx]?

/-- The triggers of the terminals lead from one state to another. -/
def Path : Nat → List Terminal → Nat → Prop
  | start, [], dest => start = dest
  | start, terminal :: rest, dest =>
      terminal.state = start ∧
        ∃ trigger,
          recorded automaton terminal = some trigger ∧ Path trigger.dest rest dest

/-- An input is accepted from one of the states. -/
def Accepts
    (starts : Set Nat)
    (terminals : List Terminal) : Prop :=
  ∃ start ∈ starts, Path automaton start terminals automaton.finalState

end

section

variable {automaton : Automaton}
variable {start other dest middle : Nat}
variable {terminals more : List Terminal}

theorem path_append :
    Path automaton start (terminals ++ more) dest ↔
      ∃ middle,
        Path automaton start terminals middle ∧
          Path automaton middle more dest := by
  induction terminals generalizing start with
  | nil =>
      exact ⟨fun path => ⟨start, rfl, path⟩, fun ⟨_, same, path⟩ => same ▸ path⟩
  | cons terminal rest ih =>
      constructor
      · rintro ⟨isState, trigger, isTrigger, path⟩
        obtain ⟨middle, first, second⟩ := ih.mp path
        exact ⟨middle, ⟨isState, trigger, isTrigger, first⟩, second⟩
      · rintro ⟨middle, ⟨isState, trigger, isTrigger, first⟩, second⟩
        exact
          ⟨isState, trigger, isTrigger,
            ih.mpr ⟨middle, first, second⟩⟩

theorem Path.start_unique
    (path : Path automaton start terminals dest)
    (another : Path automaton other terminals dest) :
    start = other := by
  cases terminals with
  | nil =>
      exact Eq.trans path (Eq.symm another)
  | cons terminal rest =>
      exact path.1.symm.trans another.1

theorem Path.dest_unique
    {another : Nat}
    (path : Path automaton start terminals dest)
    (path' : Path automaton other terminals another)
    (nonempty : terminals ≠ []) :
    dest = another := by
  induction terminals generalizing start other with
  | nil =>
      exact absurd rfl nonempty
  | cons terminal rest ih =>
      obtain ⟨-, trigger, isTrigger, later⟩ := path
      obtain ⟨-, trigger', isTrigger', later'⟩ := path'
      obtain rfl := Option.some.inj (isTrigger.symm.trans isTrigger')
      cases rest with
      | nil =>
          exact (Eq.symm later).trans later'
      | cons next rest =>
          exact ih later later' (List.cons_ne_nil _ _)

theorem Path.cut
    {index : Nat}
    {terminal : Terminal}
    (path : Path automaton start terminals dest)
    (isTerminal : terminals[index]? = some terminal) :
    Path automaton start (terminals.take index) terminal.state ∧
      Path automaton terminal.state (terminals.drop index) dest := by
  obtain ⟨inTerminals, isTerminal⟩ := List.getElem?_eq_some_iff.mp isTerminal
  rw [← List.take_append_drop index terminals] at path
  obtain ⟨middle, first, second⟩ := path_append.mp path
  rw [List.drop_eq_getElem_cons inTerminals, isTerminal] at second ⊢
  exact ⟨second.1 ▸ first, rfl, second.2⟩

theorem Path.replicate
    (path : Path automaton start terminals start)
    (times : Nat) :
    Path automaton start (List.replicate times terminals).flatten start := by
  induction times with
  | zero =>
      rfl
  | succ times ih =>
      rw [List.replicate_succ, List.flatten_cons]
      exact path_append.mpr ⟨start, path, ih⟩

theorem Path.recorded_last
    {last : Terminal}
    (path : Path automaton start terminals dest)
    (isLast : terminals.getLast? = some last) :
    ∃ trigger, recorded automaton last = some trigger ∧ trigger.dest = dest := by
  obtain ⟨front, rfl⟩ := List.getLast?_eq_some_iff.mp isLast
  obtain ⟨middle, -, -, trigger, isTrigger, leads⟩ := path_append.mp path
  exact ⟨trigger, isTrigger, leads⟩

end

section

variable {automaton : Automaton}
variable {Result : Type}

theorem bind_drawTrigger
    {state : Nat}
    {start : List Terminal}
    {rest : Nat × Trigger → Mutation (List Terminal) Result}
    {after : Result → List Terminal → Prop}
    (later :
      ∀ triggers idx trigger,
        automaton.pda[state]? = some triggers →
        triggers[idx]? = some trigger →
        Meets (· = start) (rest (idx, trigger)) after (fun _ _ => True)) :
    Meets (· = start) (drawTrigger automaton state >>= rest) after
      (fun _ _ => True) := by
  have drawn :
      Meets (· = start) (drawTrigger automaton state)
        (fun result now =>
          now = start ∧
            ∃ triggers,
              automaton.pda[state]? = some triggers ∧
                triggers[result.1]? = some result.2)
        (fun _ _ => True) := by
    unfold drawTrigger
    cases isState : automaton.pda[state]? with
    | none =>
        exact fun _ _ => trivial
    | some triggers =>
        refine .bind_unwrap rfl (.bind_below trivial fun idx _ => ?_)
        cases isTrigger : triggers[idx]? with
        | none =>
            exact fun _ _ => trivial
        | some trigger =>
            exact .bind_unwrap rfl
              (.pure fun _ isStart => ⟨isStart, triggers, rfl, isTrigger⟩)
  refine .bind drawn fun (idx, trigger) => ?_
  rintro ⟨draws, _⟩ ⟨rfl, triggers, isState, isTrigger⟩
  exact later triggers idx trigger isState isTrigger _ rfl

theorem meets_generateFrom
    {front : List Terminal}
    {start : Nat}
    (fuel current counter : Nat) :
    Meets (fun now => ∃ tail, now = front ++ tail ∧ Path automaton start tail current)
      (generateFrom automaton fuel current counter)
      (fun _ now =>
        ∃ tail,
          now = front ++ tail ∧ Path automaton start tail automaton.finalState)
      (fun _ _ => True) := by
  induction fuel generalizing current counter with
  | zero =>
      exact fun _ _ => trivial
  | succ fuel ih =>
      unfold generateFrom
      split
      · rename_i isFinal
        exact .pure fun _ reached => isFinal ▸ reached
      · refine .of_each ?_
        rintro _ ⟨tail, rfl, path⟩
        refine bind_drawTrigger fun triggers idx trigger isState isTrigger => ?_
        refine .bind_change ?_
        refine (ih trigger.dest (counter + 1)).weaken ?_
          (fun _ _ reached => reached) fun _ _ _ => trivial
        rintro _ rfl
        refine ⟨tail ++ [_], List.append_assoc .., ?_⟩
        have isRecorded :
            recorded automaton ⟨current, idx, trigger.term⟩ = some trigger := by
          unfold recorded
          rw [isState]
          exact isTrigger
        exact path_append.mpr ⟨current, path, rfl, trigger, isRecorded, rfl⟩

theorem meets_generateFrom_append
    {front : List Terminal}
    (fuel start : Nat) :
    Meets (· = front) (generateFrom automaton fuel start 0)
      (fun _ now =>
        ∃ tail,
          now = front ++ tail ∧ Path automaton start tail automaton.finalState)
      (fun _ _ => True) :=
  (meets_generateFrom fuel start 0).weaken
    (fun _ isFront => ⟨[], isFront.trans (List.append_nil _).symm, rfl⟩)
    (fun _ _ reached => reached) fun _ _ _ => trivial

theorem meets_append_nil
    (fuel : Nat) :
    Meets (· = []) (appendGeneratedTerminals automaton fuel)
      (fun _ now =>
        Path automaton automaton.initState now automaton.finalState)
      (fun _ _ => True) := by
  unfold appendGeneratedTerminals
  refine .bind_own ((meets_generateFrom_append fuel _).weaken
    (fun _ isFront => isFront) ?_ fun _ _ _ => trivial)
  rintro _ _ ⟨tail, rfl, path⟩
  exact path

theorem meets_generate
    {start : List Terminal}
    (fuel : Nat) :
    Meets (· = start) (generate automaton fuel)
      (fun _ now =>
        Path automaton automaton.initState now automaton.finalState)
      (fun _ _ => True) :=
  .bind_change (.bind (meets_append_nil fuel) fun _ => .pure fun _ path => path)

end

/-- What the random mutator draws for the terminal that it goes on from. -/
structure Redraw where
  own : Trigger
  drawn : Trigger

section

variable (automaton : Automaton)

/--
The trigger of the last terminal that the random mutator keeps and the one that
it draws for its state, if it keeps any.
-/
def redraw
    (terminals : List Terminal)
    (draws : List Nat) : Option Redraw := do
  let (size, draws) ← Rand.below (terminals.length + 1) draws
  let last ← (terminals.take size).getLast?
  let triggers ← automaton.pda[last.state]?
  let (idx, _) ← Rand.below triggers.length draws
  some ⟨← recorded automaton last, ← triggers[idx]?⟩

/-- No trigger is drawn that leads elsewhere than the one that is recorded. -/
def KeepsDest
    (terminals : List Terminal)
    (draws : List Nat) : Prop :=
  ∀ redrawn, redraw automaton terminals draws = some redrawn →
    redrawn.drawn.dest = redrawn.own.dest

end

section

variable {automaton : Automaton}
variable {terminals : List Terminal}
variable {start dest : Nat}

variable {draws : List Nat}

theorem satisfies_of_meets
    {Value : Type}
    {mutation : Mutation (List Terminal) Value}
    {after : Value → List Terminal → Prop}
    {weaker : Value → Drawing (List Terminal) → Prop}
    (meets : Meets (· = terminals) mutation after (fun _ _ => True))
    (returns : ∀ value now, after value now.own → weaker value now) :
    Satisfies (· = ⟨draws, terminals⟩) mutation weaker (fun _ _ => True) :=
  Satisfies.weaken meets (fun _ isStart => isStart ▸ rfl) returns
    fun _ _ _ => trivial

theorem satisfies_below
    {Result : Type}
    {bound : Nat}
    {now : List Terminal}
    {rest : Nat → Mutation (List Terminal) Result}
    {after : Result → Drawing (List Terminal) → Prop}
    (later :
      ∀ value left, Rand.below bound draws = some (value, left) →
        Satisfies (· = ⟨left, now⟩) (rest value) after (fun _ _ => True)) :
    Satisfies (· = ⟨draws, now⟩) (below bound >>= rest) after
      (fun _ _ => True) := by
  rintro _ rfl
  cases isDrawn : Rand.below bound draws with
  | none =>
      have fails :
          (below bound : Mutation (List Terminal) Nat).outcome ⟨draws, now⟩ =
            (.error .starved, ⟨draws, now⟩) := by
        unfold below draw
        rw [outcome_bind_ok outcome_get]
        dsimp only
        rw [isDrawn]
        rfl
      rw [outcome_bind_error fails]
      trivial
  | some result =>
      have returns :
          (below bound : Mutation (List Terminal) Nat).outcome ⟨draws, now⟩ =
            (.ok result.1, ⟨result.2, now⟩) := by
        unfold below draw
        rw [outcome_bind_ok outcome_get]
        dsimp only
        rw [isDrawn]
        rfl
      rw [outcome_bind_ok returns]
      exact later _ _ isDrawn _ rfl

variable {starts : Set Nat}

theorem accepts_append_iff
    {front tail : List Terminal}
    {last : Terminal}
    {own drawn : Trigger}
    (isStart : start ∈ starts)
    (path : Path automaton start front dest)
    (isLast : front.getLast? = some last)
    (isOwn : recorded automaton last = some own)
    (later : Path automaton drawn.dest tail automaton.finalState) :
    Accepts automaton starts (front ++ tail) ↔ drawn.dest = own.dest := by
  obtain ⟨trigger, isTrigger, leads⟩ := path.recorded_last isLast
  obtain rfl := Option.some.inj (isTrigger.symm.trans isOwn)
  constructor
  · rintro ⟨other, -, accepted⟩
    obtain ⟨middle, first, second⟩ := path_append.mp accepted
    have nonempty : front ≠ [] := by
      rintro rfl
      cases isLast
    rw [leads, path.dest_unique first nonempty]
    exact later.start_unique second
  · intro same
    exact ⟨start, isStart, path_append.mpr ⟨dest, path, leads ▸ same ▸ later⟩⟩

theorem meets_regenerate_nil
    (isInit : automaton.initState ∈ starts)
    (fuel : Nat) :
    Meets (· = []) (regenerate automaton fuel)
      (fun _ now => Accepts automaton starts now) (fun _ _ => True) :=
  .bind (meets_append_nil fuel) fun _ =>
    .pure fun _ path => ⟨_, isInit, path⟩

theorem Path.take
    {size : Nat}
    {final : Nat}
    (path : Path automaton start terminals final) :
    ∃ dest, Path automaton start (terminals.take size) dest := by
  rw [← List.take_append_drop size terminals] at path
  obtain ⟨dest, kept, -⟩ := path_append.mp path
  exact ⟨dest, kept⟩

theorem satisfies_regenerate
    {front : List Terminal}
    {last : Terminal}
    {Keeps : Prop}
    (fuel : Nat)
    (isStart : start ∈ starts)
    (path : Path automaton start front dest)
    (isLast : front.getLast? = some last)
    (keeps :
      ∀ triggers idx left own drawn,
        automaton.pda[last.state]? = some triggers →
        Rand.below triggers.length draws = some (idx, left) →
        recorded automaton last = some own →
        triggers[idx]? = some drawn →
        (drawn.dest = own.dest ↔ Keeps)) :
    Satisfies (· = ⟨draws, front⟩) (regenerate automaton fuel)
      (fun _ now => Accepts automaton starts now.own ↔ Keeps)
      (fun _ _ => True) := by
  obtain ⟨own, isOwn, -⟩ := path.recorded_last isLast
  have appends :
      Satisfies (· = ⟨draws, front⟩) (appendGeneratedTerminals automaton fuel)
        (fun _ now => Accepts automaton starts now.own ↔ Keeps)
        (fun _ _ => True) := by
    unfold appendGeneratedTerminals
    refine .bind_ok (rfl : Procedure.outcome Mutators.own _ = (.ok front, _)) ?_
    rw [isLast]
    dsimp only
    unfold drawTrigger
    cases isState : automaton.pda[last.state]? with
    | none =>
        exact fun _ _ => trivial
    | some triggers =>
        simp only [unwrap, bind_assoc, pure_bind]
        refine satisfies_below fun idx left isIdx => ?_
        cases isTrigger : triggers[idx]? with
        | none =>
            exact fun _ _ => trivial
        | some drawn =>
            simp only [pure_bind]
            refine
              satisfies_of_meets (meets_generateFrom_append fuel drawn.dest) ?_
            rintro _ now ⟨tail, isFront, later⟩
            rw [isFront, accepts_append_iff isStart path isLast isOwn later]
            exact keeps _ _ _ _ _ isState isIdx isOwn isTrigger
  exact .bind appends fun _ => .pure fun _ reached => reached

theorem satisfies_mutateRandomly
    (fuel : Nat)
    (isInit : automaton.initState ∈ starts)
    (accepts : Accepts automaton starts terminals) :
    Satisfies (· = ⟨draws, terminals⟩) (mutateRandomly automaton fuel)
      (fun _ now =>
        Accepts automaton starts now.own ↔
          (terminals ≠ [] → KeepsDest automaton terminals draws))
      (fun _ _ => True) := by
  obtain ⟨start, isStart, path⟩ := accepts
  unfold mutateRandomly
  refine
    .bind_ok (rfl : Procedure.outcome Mutators.own _ = (.ok terminals, _)) ?_
  split
  · rename_i isEmpty
    obtain rfl := List.isEmpty_iff.mp isEmpty
    refine satisfies_of_meets (meets_regenerate_nil isInit fuel) ?_
    exact fun _ now accepts =>
      iff_of_true accepts fun nonempty => absurd rfl nonempty
  · rename_i nonempty
    have nonempty : terminals ≠ [] := by simpa using nonempty
    refine satisfies_below fun size left isSize => ?_
    have cut :
        Procedure.outcome (change (·.take size)) ⟨left, terminals⟩ =
          (.ok (), ⟨left, terminals.take size⟩) := rfl
    refine .bind_ok cut ?_
    cases isLast : (terminals.take size).getLast? with
    | none =>
        have isNil := List.getLast?_eq_none_iff.mp isLast
        have keeps : KeepsDest automaton terminals draws := by
          intro redrawn isRedrawn
          unfold redraw at isRedrawn
          simp [isSize, isLast] at isRedrawn
        rw [isNil]
        refine satisfies_of_meets (meets_regenerate_nil isInit fuel) ?_
        exact fun _ now accepts => iff_of_true accepts fun _ => keeps
    | some last =>
        obtain ⟨dest, kept⟩ := @Path.take _ _ _ size _ path
        refine satisfies_regenerate fuel isStart kept isLast ?_
        intro triggers idx rest own drawn isState isIdx isOwn isDrawn
        have isRedrawn : redraw automaton terminals draws = some ⟨own, drawn⟩ := by
          simp [redraw, isSize, isLast, isState, isIdx, isOwn, isDrawn]
        rw [forall_prop_of_true nonempty]
        constructor
        · intro same redrawn isOther
          obtain rfl := Option.some.inj (isRedrawn.symm.trans isOther)
          exact same
        · exact fun keeps => keeps _ isRedrawn

end

section

variable {automaton : Automaton}
variable {starts : Set Nat}
variable {terminals : List Terminal}

theorem mem_idxMap
    {state index : Nat}
    {indices : List Nat}
    (isIndices : idxMap terminals state = some indices)
    (isIndex : index ∈ indices) :
    ∃ terminal, terminals[index]? = some terminal ∧ terminal.state = state := by
  unfold idxMap at isIndices
  dsimp only at isIndices
  split at isIndices
  · cases isIndices
  · obtain rfl := Option.some.inj isIndices
    obtain ⟨cell, isCell, rfl⟩ := List.mem_map.mp isIndex
    obtain ⟨isTerminal, isState⟩ := List.mem_filter.mp isCell
    exact
      ⟨cell.1, List.mem_zipIdx_iff_getElem?.mp isTerminal,
        of_decide_eq_true isState⟩

theorem meets_splice
    {context : Context}
    (others :
      ∀ idx testcase, context.get idx = .ok testcase →
        Accepts automaton .univ testcase.terminals)
    (accepts : Accepts automaton starts terminals) :
    Meets (· = terminals) (splice context)
      (fun _ now => Accepts automaton starts now) (fun _ _ => True) := by
  unfold splice
  refine .bind_own ?_
  split
  · exact .pure fun _ isStart => isStart ▸ accepts
  · refine .bind_below trivial fun nth _ => ?_
    cases context.nth nth with
    | none =>
        exact fun _ _ => trivial
    | some idx =>
        refine .bind_unwrap rfl (.bind_below trivial fun insertAt _ => ?_)
        refine .bind_next trivial fun randNum => ?_
        cases isOther : context.get idx with
        | error error =>
            exact fun _ _ => trivial
        | ok testcase =>
            refine .bind_attempt rfl ?_
            cases isTerminal : terminals[insertAt]? with
            | none =>
                exact fun _ _ => trivial
            | some terminal =>
                refine .bind_unwrap rfl ?_
                have isMap :
                    testcase.metadata.getD (idxMap testcase.terminals) =
                      idxMap testcase.terminals := by
                  cases isMetadata : testcase.metadata with
                  | none =>
                      rfl
                  | some map =>
                      exact testcase.metadata_eq map isMetadata
                rw [isMap]
                cases isPoints : idxMap testcase.terminals terminal.state with
                | none =>
                    exact .pure fun _ isStart => isStart ▸ accepts
                | some points =>
                    dsimp only
                    cases isPoint : points[randNum % points.length]? with
                    | none =>
                        exact fun _ _ => trivial
                    | some point =>
                        obtain ⟨other, isOtherTerminal, sameState⟩ :=
                          mem_idxMap isPoints (List.mem_of_getElem? isPoint)
                        obtain ⟨start, isStart, path⟩ := accepts
                        obtain ⟨_, -, otherPath⟩ := others idx testcase isOther
                        have tail := (otherPath.cut isOtherTerminal).2
                        rw [sameState] at tail
                        refine .bind_unwrap rfl (.bind_change (.pure ?_))
                        rintro _ rfl
                        exact
                          ⟨start, isStart,
                            path_append.mpr
                              ⟨_, (path.cut isTerminal).1, tail⟩⟩

/-- An index at which a state occurs. -/
def Occurs
    (terminals : List Terminal)
    (chosen index : Nat) : Prop :=
  ∃ terminal, terminals[index]? = some terminal ∧ terminal.state = chosen

theorem findOccurrences_spec
    {chosen : Nat}
    {indices : List Nat}
    {found final : Occurrences}
    (ordered : found.first < found.second)
    (passed : 0 ≤ found.first ∨ Occurs terminals chosen found.idx1)
    (notYet : found.idx2 = 0)
    (returns : findOccurrences terminals chosen indices found = some final)
    (isFound : final.idx2 ≠ 0) :
    Occurs terminals chosen final.idx1 ∧ Occurs terminals chosen final.idx2 := by
  induction indices generalizing found with
  | nil =>
      obtain rfl := Option.some.inj returns
      exact absurd notYet isFound
  | cons i rest ih =>
      rw [findOccurrences] at returns
      obtain ⟨terminal, isTerminal, returns⟩ := Option.bind_eq_some_iff.mp returns
      split at returns
      · rename_i isChosen
        have occurs : Occurs terminals chosen i := ⟨terminal, isTerminal, isChosen⟩
        dsimp only at returns
        by_cases isFirst : found.first = 0
        · rw [if_pos isFirst] at returns
          split at returns
          · rename_i isSecond
            have isSecond : found.second = 0 := isSecond
            omega
          · have orderedNext : found.first - 1 < found.second - 1 := by omega
            exact
              @ih ⟨_, _, i, _⟩ orderedNext (.inr occurs) notYet
                returns
        · rw [if_neg isFirst] at returns
          split at returns
          · rename_i isSecond
            obtain rfl := Option.some.inj returns
            exact ⟨passed.resolve_left (by omega), occurs⟩
          · have orderedNext : found.first - 1 < found.second - 1 := by omega
            have passedNext :
                0 ≤ found.first - 1 ∨ Occurs terminals chosen found.idx1 :=
              passed.imp_left (by omega)
            exact
              @ih ⟨_, _, _, _⟩ orderedNext passedNext notYet returns
      · exact ih ordered passed notYet returns

theorem accepts_repeated
    {chosen first second : Nat}
    (times : Nat)
    (accepts : Accepts automaton starts terminals)
    (isFirst : Occurs terminals chosen first)
    (isSecond : Occurs terminals chosen second)
    (ordered : first < second) :
    Accepts automaton starts
      (terminals.take first ++
          (List.replicate times ((terminals.take second).drop first)).flatten ++
        terminals.drop second) := by
  obtain ⟨start, isStart, path⟩ := accepts
  obtain ⟨terminal, isTerminal, rfl⟩ := isFirst
  obtain ⟨terminal', isTerminal', sameState⟩ := isSecond
  obtain ⟨front, suffix⟩ := path.cut isTerminal'
  have inFront : (terminals.take second)[first]? = some terminal := by
    rw [List.getElem?_take_of_lt ordered, isTerminal]
  obtain ⟨earlier, feature⟩ := front.cut inFront
  rw [List.take_take, Nat.min_eq_left ordered.le] at earlier
  rw [sameState] at feature suffix
  exact
    ⟨start, isStart,
      path_append.mpr
        ⟨_, path_append.mpr ⟨_, earlier, feature.replicate times⟩, suffix⟩⟩

theorem meets_recur
    (accepts : Accepts automaton starts terminals) :
    Meets (· = terminals) recur
      (fun _ now => Accepts automaton starts now) (fun _ _ => True) := by
  unfold recur
  refine .bind_own ?_
  dsimp only
  split
  · exact .pure fun _ isStart => isStart ▸ accepts
  · split
    · exact .pure fun _ isStart => isStart ▸ accepts
    · rename_i nonempty
      refine .bind_choose (by simpa using nonempty) trivial fun chosen _ => ?_
      cases (countersOf terminals).counters chosen with
      | none =>
          exact fun _ _ => trivial
      | some counter =>
          refine .bind_unwrap rfl (.bind_below trivial fun first _ => ?_)
          have between :
              Meets (· = terminals) (between (first + 1) (counter.count - 1))
                (fun second now => first < second ∧ now = terminals)
                (fun _ _ => True) := by
            refine .draw ?_ fun _ _ => trivial
            intro draws value rest now isStart isDrawn
            obtain ⟨⟨offset, left⟩, -, same⟩ := Option.map_eq_some_iff.mp isDrawn
            obtain ⟨rfl, rfl⟩ := Prod.mk.inj same
            exact ⟨by omega, isStart⟩
          refine .bind between fun second => .of_fact fun ordered => ?_
          cases isFound :
            findOccurrences terminals chosen
              (List.range' counter.first (counter.last + 1 - counter.first))
              ⟨first, second, 0, 0⟩ with
          | none =>
              exact fun _ _ => trivial
          | some found =>
              refine .bind_unwrap rfl ?_
              split
              · rename_i inOrder
                obtain ⟨isFirst, isSecond⟩ :=
                  findOccurrences_spec (by dsimp only; omega)
                    (.inl (by dsimp only; omega)) rfl isFound (by omega)
                refine .bind_below trivial fun times _ => .bind_change (.pure ?_)
                rintro _ rfl
                exact accepts_repeated times accepts isFirst isSecond inOrder.1
              · exact fun _ _ => trivial

end

/--
What the generator, the splice and the recursion mutator return is accepted again,
and so is what the random mutator returns, exactly unless it draws a trigger that
leads elsewhere for the terminal that it goes on from.
-/
theorem produced_accepts_iff
    (automaton : Automaton)
    (context : Context)
    (others :
      ∀ idx testcase, context.get idx = .ok testcase →
        Accepts automaton .univ testcase.terminals)
    (starts : Set Nat)
    (isInit : automaton.initState ∈ starts)
    (fuel : Nat)
    (source : Source)
    (terminals : List Terminal)
    (accepts : Accepts automaton starts terminals)
    (draws : List Nat) :
    Satisfies (· = ⟨draws, terminals⟩) (produce automaton context fuel source)
      (fun _ now =>
        Accepts automaton starts now.own ↔
          (source = .random → terminals ≠ [] →
            KeepsDest automaton terminals draws))
      (fun _ _ => True) := by
  cases source with
  | generator =>
      refine satisfies_of_meets (meets_generate fuel) fun _ now path => ?_
      exact iff_of_true ⟨_, isInit, path⟩ nofun
  | random =>
      refine
        (satisfies_mutateRandomly fuel isInit accepts).weaken
          (fun _ isStart => isStart) (fun _ now reached => ?_) fun _ _ _ => trivial
      exact reached.trans ⟨fun keeps _ => keeps, fun keeps => keeps rfl⟩
  | splice =>
      refine satisfies_of_meets (meets_splice others accepts) fun _ now path => ?_
      exact iff_of_true path nofun
  | recursion =>
      refine satisfies_of_meets (meets_recur accepts) fun _ now path => ?_
      exact iff_of_true path nofun

/-- An automaton with a choice in its first state. -/
def sampleAutomaton : Automaton where
  finalState := 3
  initState := 0
  pda := [[⟨1, "a"⟩, ⟨2, "b"⟩], [⟨3, "c"⟩], [⟨3, "d"⟩]]

/-- An input of its first way. -/
def sampleTerminals : List Terminal :=
  [⟨0, 0, "a"⟩, ⟨1, 0, "c"⟩]

/-- A corpus without testcases. -/
def emptyContext : Context where
  count := 0
  nth _ := none
  nth_isSome _ inCorpus := absurd inCorpus (Nat.not_lt_zero _)
  get idx := .error (.keyNotFound s!"Index {idx} not found")

theorem sampleTerminals_accepts :
    Accepts sampleAutomaton {0} sampleTerminals :=
  ⟨0, rfl, rfl, ⟨1, "a"⟩, rfl, rfl, ⟨3, "c"⟩, rfl, rfl⟩

/-- The random mutator, where it draws the trigger that is recorded. -/
theorem produced_accepts_same_trigger :
    ∃ final : Drawing (List Terminal),
      (produce sampleAutomaton emptyContext 2 .random).outcome
            ⟨[1, 0], sampleTerminals⟩ =
          (.ok .mutated, final) ∧
        Accepts sampleAutomaton {0} final.own := by
  have returned :
      (produce sampleAutomaton emptyContext 2 .random).outcome
          ⟨[1, 0], sampleTerminals⟩ =
        (.ok .mutated, ⟨[], sampleTerminals⟩) := by
    rfl
  have keeps : KeepsDest sampleAutomaton sampleTerminals [1, 0] := by
    rintro redrawn ⟨⟩
    rfl
  refine ⟨_, returned, ?_⟩
  exact
    ((produced_accepts_iff sampleAutomaton emptyContext nofun {0} rfl 2 .random
      sampleTerminals sampleTerminals_accepts [1, 0]).of_ok rfl returned).mpr
      fun _ _ => keeps

/-- The last terminal that is kept leads elsewhere than where the walk goes on. -/
theorem random_leaves_automaton :
    ∃ final : Drawing (List Terminal),
      (produce sampleAutomaton emptyContext 2 .random).outcome
            ⟨[1, 1], sampleTerminals⟩ =
          (.ok .mutated, final) ∧
        Accepts sampleAutomaton .univ sampleTerminals ∧
        ¬Accepts sampleAutomaton .univ final.own := by
  refine
    ⟨⟨[], [⟨0, 0, "a"⟩, ⟨2, 0, "d"⟩]⟩, rfl, ⟨0, trivial, ?_⟩, ?_⟩
  · exact ⟨rfl, ⟨1, "a"⟩, rfl, rfl, ⟨3, "c"⟩, rfl, rfl⟩
  · rintro ⟨start, -, -, trigger, isTrigger, isNext, -⟩
    obtain rfl := Option.some.inj isTrigger
    exact absurd isNext (by decide)

end MeFuzz.Gramatron
