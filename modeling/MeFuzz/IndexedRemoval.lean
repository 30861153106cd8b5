import Mathlib.Data.List.Induction

namespace MeFuzz.IndexedRemoval

/-!
# Removing elements by their places

Elements of a vector are removed one after the other, each by its place at that
moment.  Places that were noted beforehand stay right only if they are used from
the last to the first.
-/

variable {α : Type*}

/-- Remove these places one after the other; `none` when one is past the end. -/
def removeAll : List Nat → List α → Option (List α)
  | [], list => some list
  | i :: rest, list =>
      if i < list.length then removeAll rest (list.eraseIdx i) else none

/-- The elements that stay, where the first element is at place `i`. -/
def keepFrom (gone : Nat → Bool) : Nat → List α → List α
  | _, [] => []
  | i, head :: tail =>
      if gone i then keepFrom gone (i + 1) tail
      else head :: keepFrom gone (i + 1) tail

/-- The elements at the places that stay. -/
def keep (gone : Nat → Bool) (list : List α) : List α :=
  keepFrom gone 0 list

variable {list : List α}

variable {gone : Nat → Bool}

end MeFuzz.IndexedRemoval
