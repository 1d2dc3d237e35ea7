import Mathlib.Algebra.Order.BigOperators.Group.Finset
import Mathlib.Data.Finset.Max
import Mathlib.Order.PiLex

/-!
# Filling a budget by priority

Items of the first rank are chosen before those of the next, and within a rank the lightest first, each while it fits
in what is left of the budget. No choice within the budget has more items of the first rank, or as many of it and more
of the second, and so on. The reason is that the lightest items leave the most room for the later ranks.
-/

namespace PriorityBudget

variable {ι : Type}

/-! ### Filling -/

section

variable (items : Finset ι) (weight rank : ι → ℕ) (budget : ℕ)

def count (chosen : Finset ι) (p : ℕ) : ℕ := (chosen.filter (rank · = p)).card

/-- The ranks before `current` are done, and of this one the lightest are chosen. -/
structure Filled (chosen : Finset ι) (current : ℕ) : Prop where
  subset : chosen ⊆ items
  sum_le : ∑ i ∈ chosen, weight i ≤ budget
  rank_le : ∀ a ∈ chosen, rank a ≤ current
  lightest : ∀ a ∈ chosen, ∀ b ∈ items, b ∉ chosen → rank a = rank b → weight a ≤ weight b
  full : ∀ b ∈ items, b ∉ chosen → rank b < current →
    budget < ∑ a ∈ chosen with rank a ≤ rank b, weight a + weight b

end

variable {items chosen other : Finset ι} {weight rank : ι → ℕ} {budget current : ℕ} {item : ι}

lemma Filled.empty : Filled items weight rank budget ∅ 0 := ⟨by simp, by simp, by simp, by simp, by simp⟩

/-- No item of the rank fits any more. -/
lemma Filled.next (h : Filled items weight rank budget chosen current)
    (hfull : ∀ b ∈ items, b ∉ chosen → rank b = current → budget < ∑ i ∈ chosen, weight i + weight b) :
    Filled items weight rank budget chosen (current + 1) where
  subset := h.subset
  sum_le := h.sum_le
  rank_le a ha := (h.rank_le a ha).trans (Nat.le_succ _)
  lightest := h.lightest
  full := by
    intro b hb hout hlt
    rcases Nat.lt_succ_iff_lt_or_eq.mp hlt with hlt | heq
    · exact h.full b hb hout hlt
    · have hall : chosen.filter (rank · ≤ rank b) = chosen :=
        Finset.filter_true_of_mem fun a ha => heq ▸ h.rank_le a ha
      rw [hall]
      exact hfull b hb hout heq

lemma Filled.unfit (h : Filled items weight rank budget chosen current) (hitem : item ∈ items)
    (hnew : item ∉ chosen) (hrank : rank item < current) : budget < ∑ i ∈ chosen, weight i + weight item := by
  have hsub : ∑ a ∈ chosen with rank a ≤ rank item, weight a ≤ ∑ a ∈ chosen, weight a :=
    Finset.sum_le_sum_of_subset (Finset.filter_subset _ _)
  exact (h.full item hitem hnew hrank).trans_le (Nat.add_le_add_right hsub _)

variable [DecidableEq ι]

/-- The lightest item of the rank is chosen. -/
lemma Filled.insert (h : Filled items weight rank budget chosen current) (hitem : item ∈ items) (hnew : item ∉ chosen)
    (hrank : rank item = current) (hfits : ∑ i ∈ chosen, weight i + weight item ≤ budget)
    (hmin : ∀ b ∈ items, b ∉ chosen → rank b = current → weight item ≤ weight b) :
    Filled items weight rank budget (insert item chosen) current where
  subset := Finset.insert_subset hitem h.subset
  sum_le := by
    rw [Finset.sum_insert hnew, Nat.add_comm]
    exact hfits
  rank_le := by
    intro a ha
    rcases Finset.mem_insert.mp ha with rfl | ha
    · exact hrank.le
    · exact h.rank_le a ha
  lightest := by
    intro a ha b hb hout heq
    have hout' : b ∉ chosen := fun hmem => hout (Finset.mem_insert_of_mem hmem)
    rcases Finset.mem_insert.mp ha with rfl | ha
    · exact hmin b hb hout' (heq.symm.trans hrank)
    · exact h.lightest a ha b hb hout' heq
  full := by
    intro b hb hout hlt
    have hout' : b ∉ chosen := fun hmem => hout (Finset.mem_insert_of_mem hmem)
    have hsub : ∑ a ∈ chosen with rank a ≤ rank b, weight a ≤
        ∑ a ∈ Insert.insert item chosen with rank a ≤ rank b, weight a :=
      Finset.sum_le_sum_of_subset (Finset.filter_subset_filter _ (Finset.subset_insert _ _))
    exact (h.full b hb hout' hlt).trans_le (Nat.add_le_add_right hsub _)

/-! ### Optimality -/

/-- As many items outweigh the lightest ones. -/
lemma sum_le_sum_of_lightest {weight : ι → ℕ} {chosen other : Finset ι}
    (hlight : ∀ a ∈ chosen, ∀ b ∈ other, b ∉ chosen → weight a ≤ weight b) (hcard : chosen.card ≤ other.card) :
    ∑ i ∈ chosen, weight i ≤ ∑ i ∈ other, weight i := by
  have hcard' : (chosen \ other).card ≤ (other \ chosen).card := by
    have h₁ := Finset.card_sdiff_add_card_inter chosen other
    have h₂ := Finset.card_sdiff_add_card_inter other chosen
    rw [Finset.inter_comm] at h₂
    omega
  have hdiff : ∑ i ∈ chosen \ other, weight i ≤ ∑ i ∈ other \ chosen, weight i := by
    obtain hempty | hnonempty := (other \ chosen).eq_empty_or_nonempty
    · rw [hempty, Finset.card_empty, Nat.le_zero, Finset.card_eq_zero] at hcard'
      rw [hcard', hempty]
    · obtain ⟨least, hleast, hmin⟩ := (other \ chosen).exists_min_image weight hnonempty
      obtain ⟨hother, hnew⟩ := Finset.mem_sdiff.mp hleast
      calc ∑ i ∈ chosen \ other, weight i
          ≤ (chosen \ other).card • weight least :=
            Finset.sum_le_card_nsmul _ _ _ fun a ha => hlight a (Finset.mem_sdiff.mp ha).1 least hother hnew
        _ ≤ (other \ chosen).card • weight least := Nat.mul_le_mul_right _ hcard'
        _ ≤ ∑ i ∈ other \ chosen, weight i := Finset.card_nsmul_le_sum _ _ _ hmin
  exact Finset.sum_sdiff_le_sum_sdiff.mp hdiff

/-- A choice with as many items of a rank weighs as much in it. -/
lemma Filled.sum_rank_le (h : Filled items weight rank budget chosen current) (hother : other ⊆ items) {p : ℕ}
    (hcard : count rank chosen p ≤ count rank other p) :
    ∑ i ∈ chosen with rank i = p, weight i ≤ ∑ i ∈ other with rank i = p, weight i := by
  refine sum_le_sum_of_lightest ?_ hcard
  intro a ha b hb hout
  obtain ⟨ha, hap⟩ := Finset.mem_filter.mp ha
  obtain ⟨hb, hbp⟩ := Finset.mem_filter.mp hb
  refine h.lightest a ha b (hother hb) ?_ (hap.trans hbp.symm)
  exact fun hmem => hout (Finset.mem_filter.mpr ⟨hmem, hbp⟩)

lemma sum_rank_le_eq (chosen : Finset ι) (p : ℕ) :
    ∑ i ∈ chosen with rank i ≤ p, weight i =
      ∑ i ∈ chosen with rank i < p, weight i + ∑ i ∈ chosen with rank i = p, weight i := by
  have hdisjoint : Disjoint (chosen.filter (rank · < p)) (chosen.filter (rank · = p)) :=
    Finset.disjoint_filter.mpr fun _ _ hlt => hlt.ne
  rw [← Finset.sum_union hdisjoint, ← Finset.filter_or]
  simp only [le_iff_lt_or_eq]

lemma Filled.sum_rank_lt_le (h : Filled items weight rank budget chosen current) (hother : other ⊆ items) {p : ℕ}
    (hearlier : ∀ q < p, count rank other q = count rank chosen q) :
    ∑ i ∈ chosen with rank i < p, weight i ≤ ∑ i ∈ other with rank i < p, weight i := by
  induction p with
  | zero => simp
  | succ p ih =>
    simp only [Nat.lt_succ_iff, sum_rank_le_eq]
    have hbefore := ih fun q hq => hearlier q (hq.trans (Nat.lt_succ_self p))
    have hrank := h.sum_rank_le hother (hearlier p (Nat.lt_succ_self p)).ge
    exact Nat.add_le_add hbefore hrank

/-- A choice with more items of a rank weighs as much in it as those that are chosen and one that is not. -/
lemma Filled.exists_sum_rank_le (h : Filled items weight rank budget chosen current) (hother : other ⊆ items) {p : ℕ}
    (hmore : count rank chosen p < count rank other p) : ∃ item ∈ items, item ∉ chosen ∧ rank item = p ∧
      ∑ i ∈ chosen with rank i = p, weight i + weight item ≤ ∑ i ∈ other with rank i = p, weight i := by
  have hnonempty : (other.filter (rank · = p) \ chosen.filter (rank · = p)).Nonempty := by
    rw [Finset.sdiff_nonempty]
    exact fun hsub => (Finset.card_le_card hsub).not_gt hmore
  obtain ⟨item, hitem, hmin⟩ := Finset.exists_min_image _ weight hnonempty
  obtain ⟨hitem, hnew⟩ := Finset.mem_sdiff.mp hitem
  obtain ⟨hmem, hrank⟩ := Finset.mem_filter.mp hitem
  have hout : item ∉ chosen := fun hin => hnew (Finset.mem_filter.mpr ⟨hin, hrank⟩)
  refine ⟨item, hother hmem, hout, hrank, ?_⟩
  rw [Nat.add_comm, ← Finset.sum_insert hnew]
  refine sum_le_sum_of_lightest ?_ ?_
  · intro a ha b hb hb'
    have hb'' : b ∉ chosen.filter (rank · = p) := fun hin => hb' (Finset.mem_insert_of_mem hin)
    obtain ⟨hb, hbp⟩ := Finset.mem_filter.mp hb
    rcases Finset.mem_insert.mp ha with rfl | ha
    · exact hmin b (Finset.mem_sdiff.mpr ⟨Finset.mem_filter.mpr ⟨hb, hbp⟩, hb''⟩)
    · obtain ⟨ha, hap⟩ := Finset.mem_filter.mp ha
      refine h.lightest a ha b (hother hb) ?_ (hap.trans hbp.symm)
      exact fun hin => hb'' (Finset.mem_filter.mpr ⟨hin, hbp⟩)
  · rw [Finset.card_insert_of_notMem hnew]
    exact hmore

/-- A choice that has as many items of the earlier ranks has no more of this one. -/
theorem Filled.count_le (h : Filled items weight rank budget chosen current) (hother : other ⊆ items)
    (hbudget : ∑ i ∈ other, weight i ≤ budget) {p : ℕ} (hp : p < current)
    (hearlier : ∀ q < p, count rank other q = count rank chosen q) : count rank other p ≤ count rank chosen p := by
  by_contra! hmore
  obtain ⟨item, hitem, hout, rfl, hsum⟩ := h.exists_sum_rank_le hother hmore
  have hover := calc budget
    _ < ∑ i ∈ chosen with rank i ≤ rank item, weight i + weight item := h.full item hitem hout hp
    _ = ∑ i ∈ chosen with rank i < rank item, weight i +
          (∑ i ∈ chosen with rank i = rank item, weight i + weight item) := by rw [sum_rank_le_eq, Nat.add_assoc]
    _ ≤ ∑ i ∈ other with rank i < rank item, weight i + ∑ i ∈ other with rank i = rank item, weight i :=
          Nat.add_le_add (h.sum_rank_lt_le hother hearlier) hsum
    _ = ∑ i ∈ other with rank i ≤ rank item, weight i := (sum_rank_le_eq other _).symm
    _ ≤ ∑ i ∈ other, weight i := Finset.sum_le_sum_of_subset (Finset.filter_subset _ _)
  exact (hover.trans_le hbudget).false

/-- What is chosen is the best of all choices within the budget, the first rank counting first. -/
theorem Filled.optimal {ranks : ℕ} (h : Filled items weight rank budget chosen ranks) (hother : other ⊆ items)
    (hbudget : ∑ i ∈ other, weight i ≤ budget) :
    toLex (fun p : Fin ranks => count rank other p) ≤ toLex (fun p : Fin ranks => count rank chosen p) := by
  by_contra! hlt
  obtain ⟨p, hearlier, hmore⟩ := hlt
  refine (h.count_le hother hbudget p.isLt ?_).not_gt hmore
  intro q hq
  exact (hearlier ⟨q, hq.trans p.isLt⟩ hq).symm

end PriorityBudget
