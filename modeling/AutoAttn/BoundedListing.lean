import Mathlib

/-!
# Listings with a bound

A listing shows the first entries of a growing collection and counts the rest. A report of entries that are
not listed raises the count, so the count is the number of distinct entries exactly as long as no entry is
reported again after it was dropped from the listing.
-/

namespace BoundedListing

variable {α κ : Type} [DecidableEq κ]

/-! ### Entries by key -/

/-- The entry in place of the one with its key, or behind all others. -/
def put (key : α → κ) (x : α) : List α → List α
  | []      => [x]
  | y :: ys => if key y = key x then x :: ys else y :: put key x ys

/-- The keys of a list of entries. -/
def keys (key : α → κ) (l : List α) : Finset κ := (l.map key).toFinset

variable {key : α → κ} {x : α} {l : List α}

@[simp] lemma mem_keys {k : κ} : k ∈ keys key l ↔ ∃ x ∈ l, key x = k := by
  simp [keys]

lemma keys_put : keys key (put key x l) = insert (key x) (keys key l) := by
  induction l with
  | nil => simp [put, keys]
  | cons y ys ih =>
    rw [put]
    split_ifs with h
    · simp [keys, h]
    · simp only [keys, List.map_cons, List.toFinset_cons] at ih ⊢
      rw [ih, Finset.insert_comm]

lemma nodup_put (h : (l.map key).Nodup) : ((put key x l).map key).Nodup := by
  induction l with
  | nil => simp [put]
  | cons y ys ih =>
    rw [List.map_cons, List.nodup_cons] at h
    rw [put]
    split_ifs with heq
    · rw [List.map_cons, List.nodup_cons, ← heq]
      exact h
    · rw [List.map_cons, List.nodup_cons]
      refine ⟨fun hmem => ?_, ih h.2⟩
      have hkeys : key y ∈ keys key (put key x ys) := by simpa [keys] using hmem
      rw [keys_put, Finset.mem_insert] at hkeys
      rcases hkeys with hkeys | hkeys
      · exact heq hkeys
      · exact h.1 (by simpa [keys] using hkeys)

lemma card_keys (h : (l.map key).Nodup) : (keys key l).card = l.length := by
  rw [keys, List.toFinset_card_of_nodup h, List.length_map]

/-! ### Counts -/

variable {σ ι : Type}

/-- A state that lists entries and counts them, and the calls that report entries. -/
structure Counter (σ ι κ : Type) where
  init : σ
  step : σ → ι → σ
  /-- The entries that a call reports. -/
  reports : ι → Finset κ
  listed : σ → Finset κ
  count : σ → Nat

namespace Counter

variable (c : Counter σ ι κ)

def run (calls : List ι) : σ := calls.foldl c.step c.init

/-- All entries that were reported. -/
def reported (calls : List ι) : Finset κ := calls.foldl (fun s i => s ∪ c.reports i) ∅

/-- A call counts the entries that are not listed, and lists none that was not reported. -/
structure Sound (Inv : σ → Prop) : Prop where
  init : Inv c.init
  count_init : c.count c.init = 0
  listed_init : c.listed c.init = ∅
  inv : ∀ s i, Inv s → Inv (c.step s i)
  count : ∀ s i, Inv s → c.count (c.step s i) = c.count s + (c.reports i \ c.listed s).card
  listed : ∀ s i, Inv s → c.listed (c.step s i) ⊆ c.listed s ∪ c.reports i

variable {c} {Inv : σ → Prop} {calls : List ι} {i : ι}

omit [DecidableEq κ] in
@[simp] lemma run_concat : c.run (calls ++ [i]) = c.step (c.run calls) i := by
  simp [run]

@[simp] lemma reported_concat : c.reported (calls ++ [i]) = c.reported calls ∪ c.reports i := by
  simp [reported]

lemma Sound.run_inv (h : c.Sound Inv) (calls : List ι) : Inv (c.run calls) := by
  induction calls using List.reverseRecOn with
  | nil => exact h.init
  | append_singleton calls i ih =>
    rw [run_concat]
    exact h.inv _ _ ih

lemma Sound.listed_subset (h : c.Sound Inv) (calls : List ι) : c.listed (c.run calls) ⊆ c.reported calls := by
  induction calls using List.reverseRecOn with
  | nil =>
    rw [run, List.foldl_nil, h.listed_init]
    exact Finset.empty_subset _
  | append_singleton calls i ih =>
    rw [run_concat, reported_concat]
    exact (h.listed _ _ (h.run_inv calls)).trans (Finset.union_subset_union_left ih)

/-- A call keeps the count right exactly when each entry that it reports again is still listed. -/
lemma Sound.count_concat_iff (h : c.Sound Inv) (hcount : c.count (c.run calls) = (c.reported calls).card) :
    c.count (c.run (calls ++ [i])) = (c.reported (calls ++ [i])).card ↔
      c.reports i ∩ c.reported calls ⊆ c.listed (c.run calls) := by
  have hsubset : c.reports i \ c.reported calls ⊆ c.reports i \ c.listed (c.run calls) :=
    Finset.sdiff_subset_sdiff (Finset.Subset.refl _) (h.listed_subset calls)
  have hcard : (c.reported calls ∪ c.reports i).card =
      (c.reported calls).card + (c.reports i \ c.reported calls).card := by
    rw [← Finset.union_sdiff_self_eq_union, Finset.card_union_of_disjoint Finset.disjoint_sdiff]
  rw [run_concat, reported_concat, h.count _ _ (h.run_inv calls), hcount, hcard, Nat.add_left_cancel_iff]
  constructor
  · intro heq k hk
    obtain ⟨hi, hcalls⟩ := Finset.mem_inter.1 hk
    by_contra hlisted
    have hmem : k ∈ c.reports i \ c.listed (c.run calls) := Finset.mem_sdiff.2 ⟨hi, hlisted⟩
    rw [← Finset.eq_of_subset_of_card_le hsubset heq.le] at hmem
    exact (Finset.mem_sdiff.1 hmem).2 hcalls
  · intro hlisted
    congr 1
    refine (hsubset.antisymm fun k hk => ?_).symm
    obtain ⟨hi, hk⟩ := Finset.mem_sdiff.1 hk
    exact Finset.mem_sdiff.2 ⟨hi, fun hcalls => hk (hlisted (Finset.mem_inter.2 ⟨hi, hcalls⟩))⟩

/-- The count is the number of distinct entries at each point of a sequence of calls, exactly when no
entry is reported again after it was dropped from the listing. -/
theorem Sound.count_eq_iff (h : c.Sound Inv) (calls : List ι) :
    (∀ done, done <+: calls → c.count (c.run done) = (c.reported done).card) ↔
      ∀ done i, done ++ [i] <+: calls → c.reports i ∩ c.reported done ⊆ c.listed (c.run done) := by
  constructor
  · intro hall done i hpre
    exact (h.count_concat_iff (hall done ((List.prefix_append done [i]).trans hpre))).1 (hall _ hpre)
  · intro hall done hpre
    induction done using List.reverseRecOn with
    | nil => exact h.count_init
    | append_singleton done i ih =>
      have hdone := ih ((List.prefix_append done [i]).trans hpre)
      exact (h.count_concat_iff hdone).2 (hall done i hpre)

end Counter

end BoundedListing
