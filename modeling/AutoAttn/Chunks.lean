import Mathlib.Algebra.Order.Group.Nat
import Mathlib.Data.List.Basic

/-!
# Lists in chunks

A list is cut into chunks of a fixed length, the last of which may be shorter. The chunks in their order are
the list again.
-/

namespace Chunks

variable {α : Type}

/-- How many chunks of length `k` there are in `n` elements. -/
def count (k n : Nat) : Nat := (n + k - 1) / k

/-- The chunk with number `i`. -/
def chunk (k : Nat) (l : List α) (i : Nat) : List α := (l.drop (i * k)).take k

lemma lt_count_iff {k n i : Nat} (hk : 0 < k) : i < count k n ↔ i * k < n := by
  rw [count, ← Nat.succ_le_iff, Nat.le_div_iff_mul_le hk, Nat.succ_mul]
  omega

lemma length_chunk (k : Nat) (l : List α) (i : Nat) : (chunk k l i).length = min k (l.length - i * k) := by
  rw [chunk, List.length_take, List.length_drop]

lemma flatMap_chunk_range (k : Nat) (l : List α) (n : Nat) :
    (List.range n).flatMap (chunk k l) = l.take (n * k) := by
  induction n with
  | zero => simp
  | succ n ih =>
    rw [List.range_succ, List.flatMap_append, ih, List.flatMap_singleton, chunk, Nat.succ_mul, ← List.take_add]

/-- The chunks in their order are the list. -/
theorem flatMap_chunk {k : Nat} (hk : 0 < k) (l : List α) :
    (List.range (count k l.length)).flatMap (chunk k l) = l := by
  rw [flatMap_chunk_range, List.take_of_length_le]
  by_contra h
  exact absurd ((lt_count_iff hk).2 (not_le.1 h)) (lt_irrefl _)

end Chunks
