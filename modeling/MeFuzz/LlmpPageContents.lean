import MeFuzz.LlmpReceiver
import Mathlib.Tactic

namespace MeFuzz.Llmp

/-!
# What a page holds

The committed messages of a page lie one behind the other from its first
offset on, numbered from one.  This module fixes that layout and shows which
writes leave it as it is.
-/

/-- The offset behind these messages. -/
def endOf (msgs : List LlmpMsg) : Nat :=
  (msgs.map LlmpMsg.extent).sum

@[simp] theorem endOf_nil : endOf [] = 0 :=
  rfl

@[simp] theorem endOf_append
    (first second : List LlmpMsg) :
    endOf (first ++ second) = endOf first + endOf second := by
  simp [endOf]

@[simp] theorem endOf_cons
    (msg : LlmpMsg)
    (msgs : List LlmpMsg) :
    endOf (msg :: msgs) = msg.extent + endOf msgs := by
  simp [endOf]

theorem extent_pos (msg : LlmpMsg) : 0 < msg.extent := by
  unfold LlmpMsg.extent llmpMsgHeaderLen
  omega

/-- The offset of the last of these messages. -/
def lastOffset (msgs : List LlmpMsg) : Option Nat :=
  if msgs = [] then none else some (endOf msgs.dropLast)

@[simp] theorem lastOffset_nil : lastOffset [] = none :=
  rfl

@[simp] theorem lastOffset_snoc
    (front : List LlmpMsg)
    (last : LlmpMsg) :
    lastOffset (front ++ [last]) = some (endOf front) := by
  simp [lastOffset]

theorem lastOffset_ne_endOf (msgs : List LlmpMsg) :
    lastOffset msgs ≠ some (endOf msgs) := by
  induction msgs using List.reverseRecOn with
  | nil =>
      simp
  | append_singleton front last _ =>
      have positive := extent_pos last
      simp only [lastOffset_snoc, endOf_append, endOf_cons, endOf_nil,
        ne_eq, Option.some.injEq]
      omega

/--
The page holds these messages from an offset on.  The ids go up by one from
the id before, and there is room for one more header behind each message.
-/
def HoldsFrom
    (page : LlmpPage) : Nat → Nat → List LlmpMsg → Prop
  | _, _, [] => True
  | offset, lastId, msg :: rest =>
      page.messages offset = some msg ∧
      msg.messageId = lastId + 1 ∧
      llmpPageHeaderLen + (offset + msg.extent) + llmpMsgHeaderLen ≤
        page.mapSize ∧
      HoldsFrom page (offset + msg.extent) (lastId + 1) rest

theorem holdsFrom_append
    {page : LlmpPage}
    {offset lastId : Nat}
    {first second : List LlmpMsg} :
    HoldsFrom page offset lastId (first ++ second) ↔
      HoldsFrom page offset lastId first ∧
        HoldsFrom page (offset + endOf first) (lastId + first.length)
          second := by
  induction first generalizing offset lastId with
  | nil =>
      simp [HoldsFrom]
  | cons msg rest ih =>
      simp only [List.cons_append, HoldsFrom, ih, endOf_cons,
        List.length_cons, ← Nat.add_assoc, Nat.add_right_comm lastId 1,
        and_assoc]

theorem HoldsFrom.frame
    {page other : LlmpPage}
    {offset lastId : Nat}
    {msgs : List LlmpMsg}
    (holds : HoldsFrom page offset lastId msgs)
    (sameSize : other.mapSize = page.mapSize)
    (sameBelow :
      ∀ below, below < offset + endOf msgs →
        other.messages below = page.messages below) :
    HoldsFrom other offset lastId msgs := by
  induction msgs generalizing offset lastId with
  | nil =>
      trivial
  | cons msg rest ih =>
      obtain ⟨here, number, room, behind⟩ := holds
      have positive := extent_pos msg
      rw [endOf_cons] at sameBelow
      refine ⟨(sameBelow offset (by omega)).trans here, number,
        sameSize ▸ room, ih behind ?_⟩
      intro below inside
      exact sameBelow below (by omega)

/-- The page is in use and its committed messages are these. -/
structure Holds (page : LlmpPage) (msgs : List LlmpMsg) : Prop where
  initialized : page.magic = true
  count : page.currentMsgId = msgs.length
  layout : HoldsFrom page 0 0 msgs

/-- A page with the same messages, size and counters. -/
structure SameContents (other page : LlmpPage) : Prop where
  magic : other.magic = page.magic
  currentMsgId : other.currentMsgId = page.currentMsgId
  mapSize : other.mapSize = page.mapSize
  messages : other.messages = page.messages

theorem SameContents.refl (page : LlmpPage) : SameContents page page :=
  ⟨rfl, rfl, rfl, rfl⟩

theorem sameContents_markSafeToUnmap (page : LlmpPage) :
    SameContents page.markSafeToUnmap page :=
  ⟨rfl, rfl, rfl, rfl⟩

theorem Holds.congr
    {page other : LlmpPage}
    {msgs : List LlmpMsg}
    (holds : Holds page msgs)
    (same : SameContents other page) :
    Holds other msgs where
  initialized := same.magic.trans holds.initialized
  count := same.currentMsgId.trans holds.count
  layout := holds.layout.frame same.mapSize fun _ _ => by rw [same.messages]

theorem Holds.msgAt_endOf
    {page : LlmpPage}
    {first rest : List LlmpMsg}
    {msg : LlmpMsg}
    (holds : Holds page (first ++ msg :: rest)) :
    page.msgAt (endOf first) = msg ∧
      msg.messageId = first.length + 1 ∧
      llmpPageHeaderLen + (endOf first + msg.extent) + llmpMsgHeaderLen ≤
        page.mapSize := by
  obtain ⟨here, number, room, -⟩ := (holdsFrom_append.mp holds.layout).2
  rw [Nat.zero_add] at here number room
  exact ⟨by rw [LlmpPage.msgAt, here, Option.getD_some], number, room⟩

theorem HoldsFrom.unique
    {page : LlmpPage}
    {offset lastId : Nat}
    {first second : List LlmpMsg}
    (holdsFirst : HoldsFrom page offset lastId first)
    (holdsSecond : HoldsFrom page offset lastId second)
    (sameLength : first.length = second.length) :
    first = second := by
  induction first generalizing offset lastId second with
  | nil =>
      exact (List.length_eq_zero_iff.mp sameLength.symm).symm
  | cons msg rest ih =>
      cases second with
      | nil =>
          simp at sameLength
      | cons other others =>
          obtain ⟨here, -, -, behind⟩ := holdsFirst
          obtain ⟨hereOther, -, -, behindOther⟩ := holdsSecond
          obtain rfl := Option.some.inj (here.symm.trans hereOther)
          rw [ih behind behindOther (by simpa using sameLength)]

end MeFuzz.Llmp
