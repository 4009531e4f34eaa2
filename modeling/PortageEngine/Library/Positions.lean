import Mathlib

/-!
# Deleting by position

An interface that numbers the elements of a list from zero, and renumbers them after a deletion, is
asked to delete those that meet `p`.  From the last position to the first, this leaves exactly the
others.
-/

namespace PortageEngine.Library.Positions

variable {α : Type} {p : α → Bool}

/-- The positions of the elements that meet `p`. -/
def positions (p : α → Bool) : List α → List Nat
  | [] => []
  | x :: xs => (if p x then [0] else []) ++ (positions p xs).map (· + 1)

def eraseAll (xs : List α) (is : List Nat) : List α :=
  is.foldl List.eraseIdx xs

theorem eraseAll_map_succ (x : α) (xs : List α) (is : List Nat) :
    eraseAll (x :: xs) (is.map (· + 1)) = x :: eraseAll xs is := by
  induction is generalizing xs with
  | nil => rfl
  | cons i is ih => exact ih _

variable {xs : List α}

theorem positions_pairwise : (positions p xs).Pairwise (· < ·) := by
  induction xs with
  | nil => exact List.Pairwise.nil
  | cons x xs ih =>
      have hmap : ((positions p xs).map (· + 1)).Pairwise (· < ·) :=
        List.pairwise_map.mpr (ih.imp fun h => Nat.succ_lt_succ h)
      by_cases hx : p x = true
      · simpa [positions, hx] using hmap
      · simpa [positions, hx] using hmap

theorem descending_positions :
    (positions p xs).insertionSort (· ≥ ·) = (positions p xs).reverse := by
  have hsorted : ((positions p xs).insertionSort (· ≥ ·)).Pairwise (· ≥ ·) :=
    List.pairwise_insertionSort _ _
  have hreverse : (positions p xs).reverse.Pairwise (· ≥ ·) :=
    List.pairwise_reverse.mpr ((positions_pairwise).imp le_of_lt)
  refine List.Perm.eq_of_pairwise (fun a b _ _ hab hba => le_antisymm hba hab) hsorted hreverse ?_
  exact (List.perm_insertionSort _ _).trans (List.reverse_perm _).symm

theorem eraseAll_positions :
    eraseAll xs ((positions p xs).insertionSort (· ≥ ·)) = xs.filter (!p ·) := by
  rw [descending_positions]
  induction xs with
  | nil => rfl
  | cons x xs ih =>
      have hrest : eraseAll (x :: xs) ((positions p xs).reverse.map (· + 1)) =
          x :: xs.filter (!p ·) := by rw [eraseAll_map_succ, ih]
      by_cases hx : p x = true
      · have hall : eraseAll (x :: xs) (positions p (x :: xs)).reverse =
            (eraseAll (x :: xs) ((positions p xs).reverse.map (· + 1))).eraseIdx 0 := by
          simp [positions, hx, eraseAll]
        rw [hall, hrest]
        simp [hx]
      · rw [positions, if_neg hx, List.nil_append, ← List.map_reverse, hrest]
        simp [hx]

end PortageEngine.Library.Positions
