import Mathlib.Data.List.Sort
import Mathlib.Order.Basic

/-!
# Round robin by a cursor

Items are served in turn: those after the cursor first, then those up to it. An item that is served becomes the
cursor. An item that starves, because it was reached without being served, leaves the cursor where it is, so that it
is next again.
-/

namespace RoundRobin

variable {α : Type} [LinearOrder α]

/-- The order in which items are served. -/
def order (items : List α) (cursor : α) : List α := items.filter (cursor < ·) ++ items.filter (· ≤ cursor)

structure Attempt (α : Type) where
  item : α
  starved : Bool
deriving DecidableEq

/-- Attempts one after the other, from one cursor to another. -/
inductive Attempts (items : List α) : α → List (Attempt α) → α → Prop
  | nil (cursor : α) : Attempts items cursor [] cursor
  | cons {cursor cursor' : α} {attempt : Attempt α} {rest : List (Attempt α)} {later : List α}
      (head : order items cursor = attempt.item :: later)
      (tail : Attempts items (if attempt.starved then cursor else attempt.item) rest cursor') :
      Attempts items cursor (attempt :: rest) cursor'

variable {items p q : List α} {cursor cursor' cursor'' a : α} {l l' : List (Attempt α)}

lemma mem_order : a ∈ order items cursor ↔ a ∈ items := by
  rw [order, List.mem_append, List.mem_filter, List.mem_filter, ← and_or_left]
  simp [lt_or_ge]

lemma Attempts.append (h : Attempts items cursor l cursor') (h' : Attempts items cursor' l' cursor'') :
    Attempts items cursor (l ++ l') cursor'' := by
  induction h with
  | nil => exact h'
  | cons head _ ih => exact .cons head (ih h')

/-- A cursor splits a sorted list. -/
lemma filter_le_append_filter_lt (hsorted : items.Pairwise (· < ·)) (c : α) :
    items.filter (· ≤ c) ++ items.filter (c < ·) = items := by
  induction items with
  | nil => rfl
  | cons x items ih =>
    obtain ⟨hx, hsorted⟩ := List.pairwise_cons.1 hsorted
    by_cases hle : x ≤ c
    · simp [hle, hle.not_gt, ih hsorted]
    · have hnone : items.filter (· ≤ c) = [] := by
        refine List.filter_eq_nil_iff.2 fun y hy => ?_
        simpa using (not_le.1 hle).trans (hx y hy)
      have hall : items.filter (c < ·) = items := by
        refine List.filter_eq_self.2 fun y hy => ?_
        simpa using (not_le.1 hle).trans (hx y hy)
      simp [hle, not_le.1 hle, hnone, hall]

/-- What is served goes to the end. -/
lemma order_served (hsorted : items.Pairwise (· < ·)) (h : order items cursor = a :: q) :
    order items a = q ++ [a] := by
  have hsplit := filter_le_append_filter_lt hsorted cursor
  cases hafter : items.filter (cursor < ·) with
  | nil =>
    -- The cursor is past all items, so that the first item is next.
    rw [order, hafter, List.nil_append] at h
    rw [hafter, List.append_nil, h] at hsplit
    subst hsplit
    obtain ⟨ha, -⟩ := List.pairwise_cons.1 hsorted
    have hall : q.filter (a < ·) = q := List.filter_eq_self.2 fun y hy => by simpa using ha y hy
    have hnone : q.filter (· ≤ a) = [] := List.filter_eq_nil_iff.2 fun y hy => by simpa using ha y hy
    simp [order, hall, hnone]
  | cons b later =>
    rw [order, hafter, List.cons_append] at h
    obtain ⟨rfl, rfl⟩ := List.cons.inj h
    have hb : cursor < b := by
      have hmem : b ∈ items.filter (cursor < ·) := hafter ▸ List.mem_cons_self
      simpa using (List.mem_filter.1 hmem).2
    have hbefore : ∀ y ∈ items.filter (· ≤ cursor), y < b := by
      intro y hy
      exact (by simpa using (List.mem_filter.1 hy).2 : y ≤ cursor).trans_lt hb
    have hlater : ∀ y ∈ later, b < y := by
      have hpairwise := hsorted.filter (cursor < ·)
      rw [hafter] at hpairwise
      exact (List.pairwise_cons.1 hpairwise).1
    generalize items.filter (· ≤ cursor) = before at *
    rw [hafter] at hsplit
    subst hsplit
    have hlt : (before ++ b :: later).filter (b < ·) = later := by
      have hnone : before.filter (b < ·) = [] :=
        List.filter_eq_nil_iff.2 fun y hy => by simpa using (hbefore y hy).le
      have hall : later.filter (b < ·) = later := List.filter_eq_self.2 fun y hy => by simpa using hlater y hy
      simp [hnone, hall]
    have hle : (before ++ b :: later).filter (· ≤ b) = before ++ [b] := by
      have hall : before.filter (· ≤ b) = before :=
        List.filter_eq_self.2 fun y hy => by simpa using (hbefore y hy).le
      have hnone : later.filter (· ≤ b) = [] := List.filter_eq_nil_iff.2 fun y hy => by simpa using hlater y hy
      simp [hnone, hall]
    rw [order, hlt, hle, List.append_assoc]

lemma nodup_order (hsorted : items.Pairwise (· < ·)) (cursor : α) : (order items cursor).Nodup := by
  have hperm : (order items cursor).Perm items := by
    have hsplit := filter_le_append_filter_lt hsorted cursor
    nth_rewrite 2 [← hsplit]
    exact List.perm_append_comm
  exact hperm.nodup_iff.2 (hsorted.imp ne_of_lt)

/-- An item is not reached before those ahead of it. -/
lemma Attempts.ahead (hsorted : items.Pairwise (· < ·)) (h : Attempts items cursor l cursor')
    (horder : order items cursor = p ++ a :: q) {j : Nat} {attempt : Attempt α} (hj : l[j]? = some attempt)
    (ha : attempt.item = a) : ∀ b ∈ p, ∃ k other, k < j ∧ l[k]? = some other ∧ other.item = b := by
  induction h generalizing p q j with
  | nil => simp at hj
  | @cons cursor _ first rest later head tail ih =>
    obtain _ | ⟨x, p⟩ := p
    · simp
    obtain ⟨rfl, rfl⟩ := List.cons.inj (head.symm.trans horder)
    obtain _ | j := j
    · -- The item itself is not ahead of itself.
      obtain rfl : first = attempt := by simpa using hj
      have hnodup := nodup_order hsorted cursor
      rw [head, ha] at hnodup
      simp at hnodup
    rw [List.getElem?_cons_succ] at hj
    have hshift {b : α} : (∃ k other, k < j ∧ rest[k]? = some other ∧ other.item = b) →
        ∃ k other, k < j + 1 ∧ (first :: rest)[k]? = some other ∧ other.item = b := by
      rintro ⟨k, other, hk, hother, hb⟩
      exact ⟨k + 1, other, Nat.succ_lt_succ hk, hother, hb⟩
    cases hstarved : first.starved with
    | true =>
      rw [hstarved] at ih
      intro b hb
      exact hshift (ih horder hj b hb)
    | false =>
      rw [hstarved] at ih
      have hnext : order items first.item = p ++ a :: (q ++ [first.item]) := by
        rw [order_served hsorted head]
        simp
      intro b hb
      obtain rfl | hb := List.mem_cons.1 hb
      · exact ⟨0, first, Nat.succ_pos _, rfl, rfl⟩
      · exact hshift (ih hnext hj b hb)

/-- The state of affairs at an attempt. -/
lemma Attempts.at (h : Attempts items cursor l cursor') {i : Nat} {attempt : Attempt α}
    (hi : l[i]? = some attempt) : ∃ c later, order items c = attempt.item :: later ∧
      Attempts items (if attempt.starved then c else attempt.item) (l.drop (i + 1)) cursor' := by
  induction h generalizing i with
  | nil => simp at hi
  | @cons cursor _ first rest later head tail ih =>
    obtain _ | i := i
    · obtain rfl : first = attempt := by simpa using hi
      exact ⟨cursor, later, head, tail⟩
    · exact ih hi

/-- An item that was served is not attempted again before every other item was attempted. -/
theorem Attempts.fair (hsorted : items.Pairwise (· < ·)) (h : Attempts items cursor l cursor') {i j : Nat}
    {attempt again : Attempt α} (hi : l[i]? = some attempt) (hj : l[j]? = some again) (hij : i < j)
    (hserved : attempt.starved = false) (hsame : again.item = attempt.item) :
    ∀ b ∈ items, b ≠ attempt.item → ∃ k other, i < k ∧ k < j ∧ l[k]? = some other ∧ other.item = b := by
  obtain ⟨c, later, horder, hrest⟩ := h.at hi
  rw [hserved, if_neg Bool.false_ne_true] at hrest
  have hnext := order_served hsorted horder
  intro b hb hne
  have hlater : b ∈ later := by
    rw [← mem_order, horder] at hb
    exact (List.mem_cons.1 hb).resolve_left hne
  have hagain : (l.drop (i + 1))[j - (i + 1)]? = some again := by
    rw [List.getElem?_drop, Nat.add_sub_of_le hij, hj]
  obtain ⟨k, other, hk, hother, hitem⟩ := hrest.ahead hsorted hnext hagain hsame b hlater
  rw [List.getElem?_drop] at hother
  exact ⟨i + 1 + k, other, by omega, by omega, hother, hitem⟩

/-- The state of affairs after an attempt that is not the last one. -/
lemma Attempts.next (h : Attempts items cursor l cursor') {i : Nat} {attempt next : Attempt α}
    (hi : l[i]? = some attempt) (hnext : l[i + 1]? = some next) : ∃ c later later', order items c = attempt.item :: later ∧
      order items (if attempt.starved then c else attempt.item) = next.item :: later' := by
  obtain ⟨c, later, horder, hrest⟩ := h.at hi
  have hdrop : l.drop (i + 1) = next :: l.drop (i + 2) := by
    obtain ⟨hlt, rfl⟩ := List.getElem?_eq_some_iff.1 hnext
    exact List.drop_eq_getElem_cons hlt
  rw [hdrop] at hrest
  cases hrest with
  | cons head _ => exact ⟨c, later, _, horder, head⟩

/-- An item that starves is attempted next. -/
theorem Attempts.starved (h : Attempts items cursor l cursor') {i : Nat} {attempt next : Attempt α}
    (hi : l[i]? = some attempt) (hnext : l[i + 1]? = some next) (hstarved : attempt.starved = true) :
    next.item = attempt.item := by
  obtain ⟨c, later, later', horder, head⟩ := h.next hi hnext
  rw [hstarved, if_pos rfl] at head
  exact (List.cons.inj (head.symm.trans horder)).1

end RoundRobin
