import Mathlib.Data.List.Basic

/-!
# Tilings

Consecutive intervals that cover a range of positions: each one starts where the one before it
stopped, so that every position lies in exactly one of them.
-/

namespace Tiling

variable {α : Type}

/-- The intervals `[first x, past x)` of the elements lead from `a` to `b`. -/
def Tiles (first past : α → Nat) : Nat → List α → Nat → Prop
  | a, [], b      => a = b
  | a, x :: xs, b => first x = a ∧ a < past x ∧ Tiles first past (past x) xs b

variable {first past : α → Nat} {a b : Nat} {xs : List α}

/-- An element that starts where a tiling ends extends it. -/
lemma Tiles.concat (h : Tiles first past a xs b) {x : α} (hfirst : first x = b)
    (hlt : b < past x) : Tiles first past a (xs ++ [x]) (past x) := by
  induction xs generalizing a with
  | nil =>
    obtain rfl : a = b := h
    exact ⟨hfirst, hlt, rfl⟩
  | cons y ys ih =>
    obtain ⟨hy, hpos, h⟩ := h
    exact ⟨hy, hpos, ih h⟩

end Tiling
