import Mathlib.Data.List.Induction

/-!
# Mixed radix numbers

Digits that each have a radix of their own, the most significant one first. The first digit has no
bound.
-/

namespace MixedRadix

/-- The number that begins with `high` and goes on with digits, each given behind its radix. -/
def value (high : Nat) (digits : List (Nat × Nat)) : Nat :=
  digits.foldl (fun v d => v * d.1 + d.2) high

/-- The digits of a number from the last one on, and what stands before them. -/
def split : Nat → List Nat → Nat × List Nat
  | n, []      => (n, [])
  | n, r :: rs => ((split (n / r) rs).1, n % r :: (split (n / r) rs).2)

/-- Every digit is below its radix. -/
def Proper (digits : List (Nat × Nat)) : Prop := ∀ d ∈ digits, d.2 < d.1

variable {high : Nat} {digits : List (Nat × Nat)}

@[simp] lemma value_nil : value high [] = high := rfl

@[simp] lemma value_cons (d : Nat × Nat) : value high (d :: digits) = value (high * d.1 + d.2) digits :=
  rfl

lemma value_concat (d : Nat × Nat) :
    value high (digits ++ [d]) = value high digits * d.1 + d.2 := by
  simp [value]

lemma split_value (h : Proper digits) (high : Nat) :
    split (value high digits) (digits.map Prod.fst).reverse =
      (high, (digits.map Prod.snd).reverse) := by
  induction digits using List.reverseRecOn with
  | nil => rfl
  | append_singleton digits d ih =>
    have hd : d.2 < d.1 := h d (by simp)
    have hlast : (value high digits * d.1 + d.2) / d.1 = value high digits := by
      rw [Nat.mul_comm, Nat.mul_add_div (by omega), Nat.div_eq_of_lt hd, Nat.add_zero]
    rw [value_concat]
    simp only [List.map_append, List.map_cons, List.map_nil, List.reverse_append,
      List.reverse_singleton, List.singleton_append, split, hlast,
      ih fun x hx => h x (List.mem_append_left _ hx)]
    simp [Nat.mod_eq_of_lt hd]

/-- Keeping only what fits below `m` at each step leaves what fits of the whole number. -/
lemma foldl_mod (m : Nat) (high : Nat) (digits : List (Nat × Nat)) :
    digits.foldl (fun v d => (v * d.1 + d.2) % m) (high % m) = value high digits % m := by
  induction digits generalizing high with
  | nil => rfl
  | cons d digits ih =>
    rw [List.foldl_cons, value_cons, ← ih]
    congr 1
    simp [Nat.add_mod, Nat.mul_mod]

end MixedRadix
