import Mathlib.Data.Int.Order.Basic
import Mathlib.Data.List.Sort
import Mathlib.Logic.Relation
import Mathlib.Order.Bounds.Basic

/-!
# Extending a point over spans

A span `(first, last)` covers the integers from its first to its last. From a point that is covered one
may move to the end of every span that starts at the point, before it, or right behind it. One pass over
the spans in the order of their starts finds how far this leads.
-/

namespace Spans

/-- A step to the end of a span. -/
def Moves (spans : List (Int × Int)) (b b' : Int) : Prop :=
  ∃ first, (first, b') ∈ spans ∧ first ≤ b + 1 ∧ b < b'

/-- The pass over the spans. -/
def extend (b : Int) (spans : List (Int × Int)) : Int :=
  spans.foldl (fun b span => if span.1 ≤ b + 1 ∧ b < span.2 then span.2 else b) b

variable {b : Int} {span : Int × Int} {spans spans' : List (Int × Int)}

@[simp] lemma extend_nil (b : Int) : extend b [] = b := rfl

lemma extend_cons_pos (h : span.1 ≤ b + 1 ∧ b < span.2) :
    extend b (span :: spans) = extend span.2 spans := by
  simp [extend, h]

lemma extend_cons_neg (h : ¬(span.1 ≤ b + 1 ∧ b < span.2)) :
    extend b (span :: spans) = extend b spans := by
  simp only [extend, List.foldl_cons, if_neg h]

lemma reaches_mono (hsub : spans ⊆ spans') {b' : Int} (h : Relation.ReflTransGen (Moves spans) b b') :
    Relation.ReflTransGen (Moves spans') b b' := by
  induction h with
  | refl => exact .refl
  | tail _ hmove ih =>
    obtain ⟨first, hmem, hfirst⟩ := hmove
    exact ih.tail ⟨first, hsub hmem, hfirst⟩

/-- What the pass finds can be reached. -/
lemma reaches_extend (b : Int) (spans : List (Int × Int)) :
    Relation.ReflTransGen (Moves spans) b (extend b spans) := by
  induction spans generalizing b with
  | nil => exact .refl
  | cons span spans ih =>
    have hsub : spans ⊆ span :: spans := List.subset_cons_self span spans
    by_cases h : span.1 ≤ b + 1 ∧ b < span.2
    · rw [extend_cons_pos h]
      have hmove : Moves (span :: spans) b span.2 := ⟨span.1, List.mem_cons_self, h⟩
      exact .head hmove (reaches_mono hsub (ih span.2))
    · rw [extend_cons_neg h]
      exact reaches_mono hsub (ih b)

lemma le_of_reaches {b' : Int} (h : Relation.ReflTransGen (Moves spans) b b') : b ≤ b' := by
  induction h with
  | refl => exact le_rfl
  | tail _ hmove ih =>
    obtain ⟨first, -, -, hlt⟩ := hmove
    exact ih.trans hlt.le

/-- Spans that all start too late are of no use. -/
lemma extend_of_late (h : ∀ span ∈ spans, b + 1 < span.1) : extend b spans = b := by
  induction spans with
  | nil => rfl
  | cons span spans ih =>
    have hspan := h span List.mem_cons_self
    rw [extend_cons_neg (fun hs => by omega)]
    exact ih fun s hs => h s (List.mem_cons_of_mem _ hs)

/-- No span leads on from where the pass ends, when the spans are in the order of their starts: one
that started too late is followed only by such, and one that ended too early stays useless. -/
lemma extend_closed (hsorted : spans.Pairwise fun s t => s.1 ≤ t.1) :
    ∀ span ∈ spans, span.1 ≤ extend b spans + 1 → span.2 ≤ extend b spans := by
  induction spans generalizing b with
  | nil => simp
  | cons head spans ih =>
    obtain ⟨hhead, hsorted⟩ := List.pairwise_cons.1 hsorted
    by_cases h : head.1 ≤ b + 1 ∧ b < head.2
    · rw [extend_cons_pos h]
      rintro span hspan hfirst
      rcases List.mem_cons.1 hspan with rfl | hspan
      · exact le_of_reaches (reaches_extend span.2 spans)
      · exact ih hsorted span hspan hfirst
    · rw [extend_cons_neg h]
      rintro span hspan hfirst
      rcases List.mem_cons.1 hspan with rfl | hspan
      · by_cases hlate : b + 1 < span.1
        · rw [extend_of_late fun t ht => hlate.trans_le (hhead t ht)] at hfirst
          omega
        · exact (by omega : span.2 ≤ b).trans (le_of_reaches (reaches_extend b spans))
      · exact ih hsorted span hspan hfirst

/-- The pass finds the furthest point that can be reached. -/
theorem isGreatest_extend (hsorted : spans.Pairwise fun s t => s.1 ≤ t.1) :
    IsGreatest {b' | Relation.ReflTransGen (Moves spans) b b'} (extend b spans) := by
  refine ⟨reaches_extend b spans, fun b' hb' => ?_⟩
  induction hb' with
  | refl => exact le_of_reaches (reaches_extend b spans)
  | tail _ hmove ih =>
    obtain ⟨first, hmem, hfirst, -⟩ := hmove
    exact extend_closed hsorted _ hmem (hfirst.trans (Int.add_le_add_right ih 1))

/-- Everything between is covered. -/
lemma covered_of_reaches {b' : Int} (h : Relation.ReflTransGen (Moves spans) b b') :
    ∀ s, b < s → s ≤ b' → ∃ span ∈ spans, span.1 ≤ s ∧ s ≤ span.2 := by
  induction h with
  | refl =>
    intro s hlt hle
    omega
  | @tail m b' _ hmove ih =>
    intro s hlt hle
    obtain ⟨first, hmem, hfirst, -⟩ := hmove
    by_cases hs : s ≤ m
    · exact ih s hlt hs
    · exact ⟨(first, b'), hmem, hfirst.trans (Int.add_one_le_iff.2 (not_le.1 hs)), hle⟩

end Spans
