import Mathlib

namespace MeFuzz.Occurrences

/-!
# Leftmost occurrences of a list in another

A list is cut into the occurrences of another one, found from the left and without
overlaps, and the items that are in none of them.  The empty list occurs before each
item and at the end.
-/

variable {α : Type}

/-- The pieces of a list, `none` for an occurrence, behind items that are skipped. -/
def piecesFrom [DecidableEq α] (find : List α) : Nat → List α → List (Option α)
  | _, [] => if find = [] then [none] else []
  | skip + 1, _ :: rest => piecesFrom find skip rest
  | 0, item :: rest =>
      if find = [] then none :: some item :: piecesFrom find 0 rest
      else if find <+: item :: rest then
        none :: piecesFrom find (find.length - 1) rest
      else some item :: piecesFrom find 0 rest

/-- The occurrences and the items between them. -/
def pieces [DecidableEq α] (find items : List α) : List (Option α) :=
  piecesFrom find 0 items

/-- The pieces, with a list in place of each occurrence. -/
def spell (replacement : List α) (cut : List (Option α)) : List α :=
  cut.flatMap fun piece => piece.elim replacement List.singleton

/-- Each leftmost occurrence is replaced. -/
def replaceAll [DecidableEq α] (find replacement items : List α) : List α :=
  spell replacement (pieces find items)

/-- The last piece is an occurrence, so that there is one at the very end. -/
def EndsInOccurrence [DecidableEq α] (find items : List α) : Prop :=
  (pieces find items).getLast? = some none

instance [DecidableEq α] (find items : List α) : Decidable (EndsInOccurrence find items) :=
  inferInstanceAs (Decidable (_ = _))

section

variable {find items rest replacement : List α}
variable {item : α}

@[simp] theorem spell_cons
    (piece : Option α)
    (cut : List (Option α)) :
    spell replacement (piece :: cut) =
      piece.elim replacement List.singleton ++ spell replacement cut := by
  simp [spell]

theorem spell_map_some :
    spell replacement (items.map some) = items := by
  induction items with
  | nil =>
      rfl
  | cons item rest ih =>
      rw [List.map_cons, spell_cons, ih]
      rfl

/-- Each occurrence is replaced by a list, but for one at the very end. -/
def spellInner (find replacement : List α) : List (Option α) → List α
  | [] => []
  | [piece] => piece.elim find List.singleton
  | piece :: next :: cut =>
      piece.elim replacement List.singleton ++
        spellInner find replacement (next :: cut)

theorem spellInner_cons
    {piece : Option α}
    {cut : List (Option α)}
    (some : cut ≠ []) :
    spellInner find replacement (piece :: cut) =
      piece.elim replacement List.singleton ++ spellInner find replacement cut := by
  obtain ⟨next, cut, rfl⟩ := List.exists_cons_of_ne_nil some
  rfl

theorem spellInner_eq_spell_iff
    (find replacement : List α)
    (cut : List (Option α)) :
    spellInner find replacement cut = spell replacement cut ↔
      replacement = find ∨ cut.getLast? ≠ some none := by
  induction cut with
  | nil =>
      simp [spellInner, spell]
  | cons piece cut ih =>
      cases cut with
      | nil =>
          cases piece with
          | none =>
              simp [spellInner, spell, eq_comm]
          | some item =>
              simp [spellInner, spell]
      | cons next cut =>
          rw [spellInner_cons (List.cons_ne_nil _ _), spell_cons,
            List.append_cancel_left_eq, ih, List.getLast?_cons_cons]

variable [DecidableEq α]

theorem piecesFrom_eq_pieces
    (skip : Nat) :
    piecesFrom find skip items = pieces find (items.drop skip) := by
  induction items generalizing skip with
  | nil =>
      simp [pieces, piecesFrom]
  | cons item rest ih =>
      cases skip with
      | zero =>
          rfl
      | succ skip =>
          exact ih skip

theorem pieces_of_short
    (short : items.length < find.length) :
    pieces find items = items.map some := by
  unfold pieces
  induction items with
  | nil =>
      have some : find ≠ [] := List.ne_nil_of_length_pos short
      simp [piecesFrom, some]
  | cons item rest ih =>
      have some : find ≠ [] := List.ne_nil_of_length_pos (by omega)
      have notPrefix : ¬find <+: item :: rest := by
        intro isPrefix
        exact absurd isPrefix.length_le (by omega)
      rw [piecesFrom, if_neg some, if_neg notPrefix,
        ih (by rw [List.length_cons] at short; omega)]
      rfl

theorem pieces_append
    (some : find ≠ []) :
    pieces find (find ++ rest) = none :: pieces find rest := by
  obtain ⟨head, tail, rfl⟩ := List.exists_cons_of_ne_nil some
  have isPrefix : head :: tail <+: head :: (tail ++ rest) :=
    List.prefix_append (head :: tail) rest
  rw [pieces, List.cons_append, piecesFrom, if_neg some, if_pos isPrefix,
    piecesFrom_eq_pieces]
  simp

theorem pieces_cons
    (some : find ≠ [])
    (notPrefix : ¬find <+: item :: rest) :
    pieces find (item :: rest) = Option.some item :: pieces find rest := by
  rw [pieces, piecesFrom, if_neg some, if_neg notPrefix]
  rfl

theorem pieces_ne_nil
    (some : items ≠ []) :
    pieces find items ≠ [] := by
  obtain ⟨item, rest, rfl⟩ := List.exists_cons_of_ne_nil some
  unfold pieces piecesFrom
  split
  · exact List.cons_ne_nil _ _
  · split <;> exact List.cons_ne_nil _ _

theorem spellInner_of_short
    (some : find ≠ [])
    (short : items.length ≤ find.length) :
    spellInner find replacement (pieces find items) = items := by
  rcases Nat.lt_or_eq_of_le short with less | same
  · rw [pieces_of_short less]
    have noOccurrence :=
      (spellInner_eq_spell_iff find replacement
        (items.map Option.some)).mpr (.inr (by simp [List.getLast?_map]))
    rw [noOccurrence, spell_map_some]
  · by_cases isPrefix : find <+: items
    · obtain rfl := isPrefix.eq_of_length same.symm
      have cut : pieces find (find ++ []) = none :: pieces find [] :=
        pieces_append some
      rw [List.append_nil] at cut
      rw [cut]
      simp [pieces, piecesFrom, some, spellInner]
    · obtain ⟨item, rest, rfl⟩ :=
        List.exists_cons_of_ne_nil
          (List.ne_nil_of_length_pos (same ▸ List.length_pos_iff.mpr some))
      rw [pieces_cons some isPrefix, pieces_of_short (by rw [← same]; simp)]
      have noOccurrence :=
        (spellInner_eq_spell_iff find replacement
          (Option.some item :: rest.map Option.some)).mpr
            (.inr (by
              rw [← List.map_cons, List.getLast?_map]
              simp))
      rw [noOccurrence, ← List.map_cons, spell_map_some]

end

end MeFuzz.Occurrences
