import MeFuzz.AsanAllocator
import MeFuzz.TransitionRun

namespace MeFuzz.Asan

/-!
# Sessions of the address sanitizer's allocator

Whatever is allocated, released and reset, mappings stay apart, the shadow shows what is
live, and nothing that was released is handed out before a reset.  Only the total can go
wrong, and this module says when.
-/

/--
An allocator in use.  What was released since the last reset is noted, and which of it
has been handed out again.
-/
structure Session where
  allocator : Allocator
  released : List Nat
  handedOutAgain : List Nat

/-- What is done with an allocator. -/
inductive Operation where
  | alloc (size : Nat) (mapped : Bool)
  | release (ptr : Nat)
  | reset

namespace Session

variable (config : Config)

/-- Nothing was done yet. -/
def initial : Session :=
  ⟨.new config, [], []⟩

/-- What a new mapping needs lies where the shadow tells addresses apart. -/
def Maps (session : Session) (size : Nat) : Prop :=
  session.allocator.currentMappingAddr +
      Allocator.mappingSize config (Allocator.requested size) ≤
    config.addressLimit

/-- An operation that does not panic. -/
def Step (session : Session) : Operation → Session → Prop
  | .alloc size mapped, next =>
      (mapped = true → session.Maps config size) ∧
        ∃ ptr allocator,
          session.allocator.alloc config size mapped = some (ptr, allocator) ∧
            next =
              { session with
                allocator := allocator
                handedOutAgain :=
                  if ptr ∈ session.released then session.handedOutAgain ++ [ptr]
                  else session.handedOutAgain }
  | .release ptr, next =>
      ∃ errors allocator,
        session.allocator.release config ptr = some (errors, allocator) ∧
          next =
            { session with
              allocator := allocator
              released :=
                if (get session.allocator.allocations ptr).isSome then
                  session.released ++ [ptr]
                else session.released }
  | .reset, next =>
      ∃ drained allocator,
        drained.Perm session.allocator.allocations ∧
          session.allocator.reset config drained = some allocator ∧
            next = { session with allocator := allocator, released := [] }

end Session

/-- The actual sizes of the live allocations together. -/
def liveTotal (allocations : List Entry) : Nat :=
  ((allocations.filter Live).map fun entry => entry.2.actualSize).sum

/-- The accounts of an allocator are right. -/
structure Session.Accounts (config : Config) (session : Session) : Prop where
  apart : (session.allocator.allocations.map Prod.snd).Pairwise Apart
  shows : Shows config session.allocator.allocations session.allocator.shadow
  handedOutAgain_eq : session.handedOutAgain = []
  totalAllocationSize_eq :
    session.allocator.totalAllocationSize = liveTotal session.allocator.allocations
  budget :
    ∀ size,
      config.maxTotalAllocation <
          session.allocator.totalAllocationSize + Allocator.mappingSize config size →
        config.maxTotalAllocation <
          liveTotal session.allocator.allocations + Allocator.mappingSize config size

/--
What is mapped has the size that is reckoned with, nothing is released that is live, and
a reset finds nothing live.
-/
def Session.Plain (config : Config) (session : Session) : Operation → Prop
  | .alloc size mapped =>
      session.allocator.Grants config size →
        match
          findFit (Allocator.mappingSize config (Allocator.requested size))
            session.allocator.allocationQueue with
        | some (metadata, _) =>
            metadata.actualSize =
              Allocator.mappingSize config (Allocator.requested size)
        | none => mapped = true
  | .release ptr => ∀ entry ∈ session.allocator.allocations, entry.1 = ptr → ¬ Live entry
  | .reset => ∀ entry ∈ session.allocator.allocations, ¬ Live entry

section

variable {config : Config} {allocations rest : List Entry} {queue : List Bucket}
variable {current : Nat} {shadow : Shadow} {entry : Entry}

theorem liveTotal_perm
    {others : List Entry}
    (isPerm : allocations.Perm others) :
    liveTotal allocations = liveTotal others :=
  ((isPerm.filter _).map _).sum_eq

theorem liveTotal_cons :
    liveTotal (entry :: rest) =
      (if Live entry then entry.2.actualSize else 0) + liveTotal rest := by
  rw [liveTotal, List.filter_cons]
  by_cases live : Live entry
  · simp [live, liveTotal]
  · simp [live, liveTotal]

theorem liveTotal_filter : liveTotal (allocations.filter Live) = liveTotal allocations := by
  simp [liveTotal]

theorem liveTotal_eq_zero
    (tracked : Tracked config allocations queue current shadow) :
    liveTotal allocations = 0 ↔ ∀ entry ∈ allocations, ¬ Live entry := by
  constructor
  · intro nothing entry isEntry live
    have counted : entry.2.actualSize ≤ liveTotal allocations := by
      refine List.le_sum_of_mem (List.mem_map.mpr ⟨entry, ?_, rfl⟩)
      exact List.mem_filter.mpr ⟨isEntry, decide_eq_true live⟩
    have room := (tracked.fits entry isEntry).room
    have page := config.pageSize_pos
    omega
  · intro noneLive
    rw [liveTotal, List.filter_eq_nil_iff.mpr]
    · rfl
    · simpa using noneLive

namespace Session

variable {session later : Session}

/-- What every session keeps: what was released stands in the table as released. -/
structure IsTracked (config : Config) (session : Session) : Prop where
  allocator : session.allocator.IsTracked config
  released :
    ∀ ptr ∈ session.released,
      ∃ entry ∈ session.allocator.allocations, entry.1 = ptr ∧ ¬ Live entry
  handedOutAgain_eq : session.handedOutAgain = []

theorem isTracked_initial : (initial config).IsTracked config :=
  ⟨tracked_new, by simp [initial], rfl⟩

theorem key_ne_zero (fits : Fits config entry) : entry.1 ≠ 0 := by
  have key_eq := fits.key_eq
  have page := config.pageSize_pos
  omega

theorem IsTracked.not_mem_released
    {ptr : Nat}
    (tracked : session.IsTracked config)
    (fresh : ∀ entry ∈ session.allocator.allocations, entry.1 ≠ ptr) :
    ptr ∉ session.released := by
  intro isReleased
  obtain ⟨entry, isEntry, same, _⟩ := tracked.released ptr isReleased
  exact fresh entry isEntry same

theorem IsTracked.alloc
    {size : Nat}
    {mapped : Bool}
    (tracked : session.IsTracked config)
    (taken : session.Step config (.alloc size mapped) later) :
    later.IsTracked config := by
  obtain ⟨maps, ptr, allocator, allocated, rfl⟩ := taken
  have notNull : 0 ∉ session.released :=
    tracked.not_mem_released fun entry isEntry =>
      key_ne_zero (tracked.allocator.fits entry isEntry)
  rcases Allocator.alloc_eq_some tracked.allocator maps allocated with
    ⟨_, rfl, rfl⟩ |
      ⟨_, allocatorTracked, _,
        ⟨_, _, rfl, allocations_eq⟩ | ⟨metadata, allocations_eq, _, _⟩⟩
  · refine ⟨tracked.allocator, tracked.released, ?_⟩
    rw [if_neg notNull, tracked.handedOutAgain_eq]
  · refine ⟨allocatorTracked, ?_, ?_⟩
    · rw [allocations_eq]
      exact tracked.released
    · rw [if_neg notNull, tracked.handedOutAgain_eq]
  · have split := allocatorTracked
    dsimp only [Allocator.IsTracked] at split
    rw [allocations_eq] at split
    have fresh := split.beside.fresh tracked.allocator.fits
    refine ⟨allocatorTracked, ?_, ?_⟩
    · intro other isReleased
      obtain ⟨entry, isEntry, same, notLive⟩ := tracked.released other isReleased
      rw [allocations_eq]
      exact ⟨entry, List.mem_cons_of_mem _ isEntry, same, notLive⟩
    · rw [if_neg (tracked.not_mem_released fresh), tracked.handedOutAgain_eq]

theorem IsTracked.release
    {ptr : Nat}
    (tracked : session.IsTracked config)
    (taken : session.Step config (.release ptr) later) :
    later.IsTracked config := by
  obtain ⟨errors, allocator, released, rfl⟩ := taken
  rcases Allocator.release_eq_some tracked.allocator released with
    ⟨unknown, rfl⟩ | ⟨metadata, rest, found, before, after, allocatorTracked, _⟩
  · refine ⟨tracked.allocator, ?_, tracked.handedOutAgain_eq⟩
    rw [unknown]
    exact tracked.released
  · refine ⟨allocatorTracked, ?_, tracked.handedOutAgain_eq⟩
    rw [found]
    have own :
        ∃ entry ∈ allocator.allocations, entry.1 = ptr ∧ ¬ Live entry :=
      ⟨_, after.mem_iff.mpr List.mem_cons_self, rfl, by simp [Live]⟩
    intro other isReleased
    rcases List.mem_append.mp isReleased with wasReleased | isOwn
    · obtain ⟨entry, isEntry, same, notLive⟩ := tracked.released other wasReleased
      rcases List.mem_cons.mp (before.mem_iff.mp isEntry) with rfl | isOther
      · exact same ▸ own
      · exact ⟨entry, after.mem_iff.mpr (List.mem_cons_of_mem _ isOther), same, notLive⟩
    · rw [List.mem_singleton.mp isOwn]
      exact own

theorem IsTracked.next
    {operation : Operation}
    (tracked : session.IsTracked config)
    (taken : session.Step config operation later) :
    later.IsTracked config := by
  cases operation with
  | alloc size mapped =>
      exact tracked.alloc taken
  | release ptr =>
      exact tracked.release taken
  | reset =>
      obtain ⟨drained, allocator, isPerm, isReset, rfl⟩ := taken
      obtain ⟨nextTracked, _, _⟩ := Allocator.reset_eq_some tracked.allocator isPerm isReset
      exact ⟨nextTracked, by simp, tracked.handedOutAgain_eq⟩

/-- Whatever is done, only the total may be wrong. -/
theorem accounts_iff (tracked : session.IsTracked config) :
    session.Accounts config ↔
      session.allocator.totalAllocationSize = liveTotal session.allocator.allocations := by
  constructor
  · exact Accounts.totalAllocationSize_eq
  · intro total_eq
    refine
      ⟨(List.pairwise_append.mp tracked.allocator.apart).1, tracked.allocator.shows,
        tracked.handedOutAgain_eq, total_eq, ?_⟩
    rw [total_eq]
    exact fun _ => id

/-- The total is right, beside what every session keeps. -/
structure Balanced (config : Config) (session : Session) : Prop where
  tracked : session.IsTracked config
  total_eq :
    session.allocator.totalAllocationSize = liveTotal session.allocator.allocations

theorem alloc_total_iff
    {size : Nat}
    {mapped : Bool}
    (tracked : session.IsTracked config)
    (total_eq :
      session.allocator.totalAllocationSize = liveTotal session.allocator.allocations)
    (taken : session.Step config (.alloc size mapped) later) :
    later.allocator.totalAllocationSize = liveTotal later.allocator.allocations ↔
      session.Plain config (.alloc size mapped) := by
  obtain ⟨maps, ptr, allocator, allocated, rfl⟩ := taken
  rw [Plain]
  rcases Allocator.alloc_eq_some tracked.allocator maps allocated with
    ⟨refused, rfl, rfl⟩ |
      ⟨granted, _, charged,
        ⟨noFit, unmapped, rfl, allocations_eq⟩ | ⟨metadata, allocations_eq, live, served⟩⟩
  · exact iff_of_true total_eq fun granted => absurd granted refused
  · have room :
        Allocator.requested size + 2 * config.pageSize ≤
          Allocator.mappingSize config (Allocator.requested size) :=
      Allocator.room_mappingSize _
    have page := config.pageSize_pos
    dsimp only
    rw [charged, allocations_eq, ← total_eq, noFit]
    refine iff_of_false (by omega) ?_
    intro plain
    exact Bool.false_ne_true (unmapped.symm.trans (plain granted))
  · have isLive : Live (ptr, metadata) := live
    dsimp only
    rw [charged, allocations_eq, liveTotal_cons, if_pos isLive, ← total_eq]
    rcases served with ⟨fit, queue, found, same⟩ | ⟨noFit, isMapped, actual_eq⟩
    · rw [found, ← same]
      dsimp only
      constructor
      · intro balanced _
        omega
      · intro plain
        have exact := plain granted
        omega
    · rw [noFit, actual_eq]
      exact iff_of_true (Nat.add_comm _ _) fun _ => isMapped

theorem release_total_iff
    {ptr : Nat}
    (tracked : session.IsTracked config)
    (total_eq :
      session.allocator.totalAllocationSize = liveTotal session.allocator.allocations)
    (taken : session.Step config (.release ptr) later) :
    later.allocator.totalAllocationSize = liveTotal later.allocator.allocations ↔
      session.Plain config (.release ptr) := by
  obtain ⟨errors, allocator, released, rfl⟩ := taken
  rw [Plain]
  rcases Allocator.release_eq_some tracked.allocator released with
    ⟨unknown, rfl⟩ | ⟨metadata, rest, found, before, after, _, sameTotal⟩
  · refine iff_of_true total_eq ?_
    intro entry isEntry same
    exact absurd same (ne_of_get_eq_none unknown entry isEntry)
  · have split := (tracked.allocator.perm before).beside
    have othersFit := (List.forall_mem_cons.mp (tracked.allocator.perm before).fits).2
    have notLive : ¬ Live (ptr, { metadata with freed := true }) := by
      simp [Live]
    dsimp only
    rw [sameTotal, total_eq, liveTotal_perm before, liveTotal_perm after, liveTotal_cons,
      liveTotal_cons, if_neg notLive, Nat.zero_add]
    by_cases live : Live (ptr, metadata)
    · rw [if_pos live]
      have room := split.fits.room
      have page := config.pageSize_pos
      refine iff_of_false (by omega) ?_
      intro plain
      exact plain _ (before.mem_iff.mpr List.mem_cons_self) rfl live
    · rw [if_neg live, Nat.zero_add]
      refine iff_of_true rfl ?_
      intro entry isEntry same
      rcases List.mem_cons.mp (before.mem_iff.mp isEntry) with rfl | isOther
      · exact live
      · exact absurd same (split.fresh othersFit entry isOther)

/-- A step keeps the total right exactly if it is a plain one. -/
theorem total_iff
    {operation : Operation}
    (tracked : session.IsTracked config)
    (total_eq :
      session.allocator.totalAllocationSize = liveTotal session.allocator.allocations)
    (taken : session.Step config operation later) :
    later.allocator.totalAllocationSize = liveTotal later.allocator.allocations ↔
      session.Plain config operation := by
  cases operation with
  | alloc size mapped =>
      exact alloc_total_iff tracked total_eq taken
  | release ptr =>
      exact release_total_iff tracked total_eq taken
  | reset =>
      obtain ⟨drained, allocator, isPerm, isReset, rfl⟩ := taken
      obtain ⟨_, kept, isZero⟩ := Allocator.reset_eq_some tracked.allocator isPerm isReset
      dsimp only
      rw [isZero, liveTotal_perm kept, liveTotal_filter, eq_comm,
        liveTotal_eq_zero tracked.allocator]
      rfl

/--
In every state that is reached the accounts are right, exactly if what is mapped has the
size that is reckoned with, nothing is released that is live, and a reset finds nothing
live.
-/
theorem always_accounts_iff
    (config : Config)
    (operations : List Operation) :
    Run.Always (Step config) (Accounts config) (initial config) operations ↔
      Run.Everywhere (Step config) (Plain config) (initial config) operations := by
  refine
    Run.always_iff_everywhere_of_invariant
      (fun {session : Session} (balanced : session.Balanced config) =>
        (accounts_iff balanced.tracked).mpr balanced.total_eq)
      ?_ ?_ ⟨isTracked_initial, rfl⟩ operations
  · intro session operation later balanced plain taken
    exact
      ⟨balanced.tracked.next taken,
        (total_iff balanced.tracked balanced.total_eq taken).mpr plain⟩
  · intro session operation later balanced taken accounts
    exact
      (total_iff balanced.tracked balanced.total_eq taken).mp
        accounts.totalAllocationSize_eq

/-- In every session mappings stay apart, and the shadow shows what is live. -/
theorem always_isTracked
    (config : Config)
    (operations : List Operation) :
    Run.Always (Step config) (IsTracked config) (initial config) operations := by
  intro earlier session _ run
  have kept {before operation after} :
      IsTracked config before → Step config before operation after → IsTracked config after :=
    IsTracked.next
  exact @Run.invariant _ _ _ (IsTracked config) kept _ _ _ run isTracked_initial

/-- The defaults of the options, on pages of 4096 bytes. -/
def defaultConfig : Config where
  pageSize := 4096
  shadowBit := 43
  preAllocatedShadow := true
  maxAllocation := 1 <<< 30
  maxTotalAllocation := 1 <<< 32
  maxAllocationPanics := false
  continueOnError := true
  pageSize_pos := by decide
  eight_dvd_pageSize := by decide
  three_le_shadowBit := by decide

/-- An allocation that is live at a reset is not counted any more. -/
theorem not_accounts_after_reset :
    ¬ Run.Always (Step defaultConfig) (Accounts defaultConfig) (initial defaultConfig)
        [.alloc 1 true, .reset] := by
  intro always
  obtain ⟨final, run, total_eq, live_eq⟩ :
      ∃ final,
        Run (Step defaultConfig) (initial defaultConfig) [.alloc 1 true, .reset] final ∧
          final.allocator.totalAllocationSize = 0 ∧
            liveTotal final.allocator.allocations = 12288 :=
    ⟨_,
      .cons ⟨fun _ => by rw [Maps]; decide, _, _, rfl, rfl⟩
        (.cons ⟨_, _, .refl _, rfl, rfl⟩ (.nil _)),
      rfl, rfl⟩
  have accounts := always _ final (List.prefix_refl _) run
  have balanced := accounts.totalAllocationSize_eq
  rw [total_eq, live_eq] at balanced
  cases balanced

end Session

end

end MeFuzz.Asan
