import Mathlib.Data.List.Basic
import Mathlib.Data.List.Sort

/-!
# Chained ranges

Receipts of consecutive ranges of a sequence. Each receipt names the digest it continues from and
the digest it results in, so that a chain of them covers one interval without a gap.
-/

namespace ChainedRanges

/-- The receipt of the range from `start` up to `stop`. -/
structure Link (D : Type) where
  start : Nat
  stop : Nat
  before : Option D
  after : D

variable {D : Type}

/-- The receipts lead from position `a` and digest `d` to position `b` and digest `e`, each one
starting where the one before it stopped. -/
def Chained (a : Nat) (d : Option D) : List (Link D) → Nat → Option D → Prop
  | [], b, e      => a = b ∧ d = e
  | l :: ls, b, e =>
    l.start = a ∧ l.start < l.stop ∧ l.before = d ∧ Chained l.stop (some l.after) ls b e

variable {a b : Nat} {d e : Option D} {ls : List (Link D)}

@[simp] lemma chained_nil : Chained a d [] b e ↔ a = b ∧ d = e := Iff.rfl

lemma chained_append {ls' : List (Link D)} :
    Chained a d (ls ++ ls') b e ↔ ∃ m f, Chained a d ls m f ∧ Chained m f ls' b e := by
  induction ls generalizing a d with
  | nil =>
    constructor
    · intro h
      exact ⟨a, d, ⟨rfl, rfl⟩, h⟩
    · rintro ⟨m, f, ⟨rfl, rfl⟩, h⟩
      exact h
  | cons l ls ih =>
    simp only [List.cons_append, Chained, ih]
    constructor
    · rintro ⟨hs, hlt, hb, m, f, h, h'⟩
      exact ⟨m, f, ⟨hs, hlt, hb, h⟩, h'⟩
    · rintro ⟨m, f, ⟨hs, hlt, hb, h⟩, h'⟩
      exact ⟨hs, hlt, hb, m, f, h, h'⟩

/-- A receipt that continues from the end of a chain extends it. -/
lemma Chained.concat (h : Chained a d ls b e) {l : Link D} (hstart : l.start = b)
    (hlt : l.start < l.stop) (hbefore : l.before = e) :
    Chained a d (ls ++ [l]) l.stop (some l.after) :=
  chained_append.mpr ⟨b, e, h, hstart, hlt, hbefore, rfl, rfl⟩

lemma Chained.le (h : Chained a d ls b e) : a ≤ b := by
  induction ls generalizing a d with
  | nil => exact h.1.le
  | cons l ls ih =>
    obtain ⟨hs, hlt, -, h⟩ := h
    have := ih h
    omega

/-- Every receipt of a chain lies in the interval the chain covers. -/
lemma Chained.bounds (h : Chained a d ls b e) {l : Link D} (hl : l ∈ ls) :
    a ≤ l.start ∧ l.start < l.stop ∧ l.stop ≤ b := by
  induction ls generalizing a d with
  | nil => simp at hl
  | cons x xs ih =>
    obtain ⟨hs, hlt, -, h⟩ := h
    have hle := h.le
    rcases List.mem_cons.mp hl with rfl | hl
    · omega
    · have := ih h hl
      omega

/-- A chain is in the order of its starts. -/
lemma Chained.pairwise (h : Chained a d ls b e) : ls.Pairwise fun l l' => l.start < l'.start := by
  induction ls generalizing a d with
  | nil => exact List.Pairwise.nil
  | cons x xs ih =>
    obtain ⟨hs, hlt, -, h⟩ := h
    refine List.Pairwise.cons (fun l hl => ?_) (ih h)
    have := h.bounds hl
    omega

/-- A chain that covers nothing has no receipts. -/
lemma Chained.eq_nil (h : Chained a d ls a e) : ls = [] := by
  cases ls with
  | nil => rfl
  | cons l ls =>
    obtain ⟨hs, hlt, -, h⟩ := h
    have := h.le
    omega

/-- Of rows whose receipts form two chains in a row, those from the second start on are the
second part. -/
lemma Chained.filter_start {α : Type} {f : α → Link D} {xs ys : List α} {m : Nat} {g : Option D}
    (h : Chained a d (xs.map f) m g) (h' : Chained m g (ys.map f) b e) :
    (xs ++ ys).filter (fun x => m ≤ (f x).start ∧ (f x).start < b) = ys := by
  rw [List.filter_append]
  have hleft : xs.filter (fun x => m ≤ (f x).start ∧ (f x).start < b) = [] := by
    rw [List.filter_eq_nil_iff]
    intro x hx
    have := h.bounds (List.mem_map_of_mem hx)
    simp only [decide_eq_true_eq]
    omega
  have hright : ys.filter (fun x => m ≤ (f x).start ∧ (f x).start < b) = ys := by
    rw [List.filter_eq_self]
    intro x hx
    have := h'.bounds (List.mem_map_of_mem hx)
    simp only [decide_eq_true_eq]
    omega
  rw [hleft, hright, List.nil_append]

/-- Rows whose receipts form a chain are sorted already. -/
lemma Chained.mergeSort_eq {α : Type} {f : α → Link D} {xs : List α}
    (h : Chained a d (xs.map f) b e) :
    xs.mergeSort (fun x y => (f x).start ≤ (f y).start) = xs := by
  refine List.mergeSort_of_pairwise ((List.pairwise_map.mp h.pairwise).imp ?_)
  intro x y hxy
  simpa using hxy.le

end ChainedRanges
