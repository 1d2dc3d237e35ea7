import Mathlib.Data.Fintype.Card
import AutoAttn.PriorityBudget

/-!
# The hold budget of a repair

Before a repair formats the file system, `srp_budget` (`storage_repair_plan.c`) chooses the files that are held in
memory. The classes come in the order of their priority, and within a class the smallest files come first.
-/

namespace ZoneLite

open PriorityBudget

/-! ### The code -/

/-- `srp_budget_file_t` -/
structure BudgetFile where
  size : Nat
  cls : UInt8
  hold : Bool
deriving DecidableEq

/-- `srp_class_priority`. A class that is none of the enumeration counts as an unknown one. -/
def srpClassPriority (cls : UInt8) : Nat :=
  match cls.toNat with
  | 1 => 0
  | 2 => 1
  | 3 => 2
  | 4 => 3
  | 0 => 4
  | 5 => 5
  | 6 => 6
  | _ => 4

def BudgetFile.priority (file : BudgetFile) : Nat := srpClassPriority file.cls

/-- A file of the priority that is not held and fits. -/
def BudgetFile.Candidate (file : BudgetFile) (priority room : Nat) : Prop :=
  file.hold = false ∧ file.priority = priority ∧ file.size ≤ room

instance (file : BudgetFile) (priority room : Nat) : Decidable (file.Candidate priority room) :=
  inferInstanceAs (Decidable (_ ∧ _))

variable {n : Nat}

/-- One turn of the innermost loop of `srp_budget`. -/
def better (files : Fin n → BudgetFile) (priority room : Nat) (best : Option (Fin n)) (i : Fin n) : Option (Fin n) :=
  if (files i).Candidate priority room then
    match best with
    | none   => some i
    | some b => if (files i).size < (files b).size then some i else best
  else best

/-- The innermost loop of `srp_budget`. -/
def findBest (files : Fin n → BudgetFile) (priority room : Nat) : Option (Fin n) :=
  (List.finRange n).foldl (better files priority room) none

def setHold (files : Fin n → BudgetFile) (best : Fin n) : Fin n → BudgetFile :=
  Function.update files best { files best with hold := true }

def heldFiles (files : Fin n → BudgetFile) : Finset (Fin n) := Finset.univ.filter fun i => (files i).hold = true

/-! ### The innermost loop -/

/-- The smallest candidate of those that were seen, if any. -/
def IsBest (files : Fin n → BudgetFile) (priority room : Nat) (seen : List (Fin n)) : Option (Fin n) → Prop
  | none      => ∀ i ∈ seen, ¬ (files i).Candidate priority room
  | some best => (files best).Candidate priority room ∧
      ∀ i ∈ seen, (files i).Candidate priority room → (files best).size ≤ (files i).size

lemma IsBest.better {files : Fin n → BudgetFile} {priority room : Nat} {seen : List (Fin n)} {best : Option (Fin n)}
    (h : IsBest files priority room seen best) (i : Fin n) :
    IsBest files priority room (seen ++ [i]) (better files priority room best i) := by
  unfold ZoneLite.better
  split_ifs with hi
  · cases best with
    | none =>
      refine ⟨hi, fun j hj hc => ?_⟩
      rcases List.mem_append.mp hj with hj | hj
      · exact absurd hc (h j hj)
      · rw [List.mem_singleton.mp hj]
    | some b =>
      dsimp only
      split_ifs with hlt
      · refine ⟨hi, fun j hj hc => ?_⟩
        rcases List.mem_append.mp hj with hj | hj
        · exact hlt.le.trans (h.2 j hj hc)
        · rw [List.mem_singleton.mp hj]
      · refine ⟨h.1, fun j hj hc => ?_⟩
        rcases List.mem_append.mp hj with hj | hj
        · exact h.2 j hj hc
        · rw [List.mem_singleton.mp hj]
          exact Nat.le_of_not_lt hlt
  · cases best with
    | none =>
      intro j hj
      rcases List.mem_append.mp hj with hj | hj
      · exact h j hj
      · rwa [List.mem_singleton.mp hj]
    | some b =>
      refine ⟨h.1, fun j hj hc => ?_⟩
      rcases List.mem_append.mp hj with hj | hj
      · exact h.2 j hj hc
      · rw [List.mem_singleton.mp hj] at hc
        exact absurd hc hi

lemma isBest_findBest (files : Fin n → BudgetFile) (priority room : Nat) :
    IsBest files priority room (List.finRange n) (findBest files priority room) := by
  rw [findBest]
  induction List.finRange n using List.reverseRecOn with
  | nil => nofun
  | append_singleton seen i ih =>
    rw [List.foldl_append]
    exact ih.better i

lemma not_candidate_of_findBest {files : Fin n → BudgetFile} {priority room : Nat}
    (h : findBest files priority room = none) (i : Fin n) : ¬ (files i).Candidate priority room := by
  have hbest := isBest_findBest files priority room
  rw [h] at hbest
  exact hbest i (List.mem_finRange i)

lemma candidate_of_findBest {files : Fin n → BudgetFile} {priority room : Nat} {best : Fin n}
    (h : findBest files priority room = some best) : (files best).Candidate priority room ∧
      ∀ i, (files i).Candidate priority room → (files best).size ≤ (files i).size := by
  have hbest := isBest_findBest files priority room
  rw [h] at hbest
  exact ⟨hbest.1, fun i => hbest.2 i (List.mem_finRange i)⟩

/-! ### The loops over candidates and priorities -/

lemma mem_heldFiles {files : Fin n → BudgetFile} {i : Fin n} : i ∈ heldFiles files ↔ (files i).hold = true :=
  Finset.mem_filter_univ i

lemma not_mem_heldFiles {files : Fin n → BudgetFile} {i : Fin n} : i ∉ heldFiles files ↔ (files i).hold = false := by
  rw [mem_heldFiles, Bool.not_eq_true]

lemma heldFiles_setHold (files : Fin n → BudgetFile) (best : Fin n) :
    heldFiles (setHold files best) = insert best (heldFiles files) := by
  ext i
  rcases eq_or_ne i best with rfl | hne
  · simp [mem_heldFiles, setHold]
  · simp [mem_heldFiles, setHold, hne]

lemma size_setHold (files : Fin n → BudgetFile) (best i : Fin n) : (setHold files best i).size = (files i).size := by
  rcases eq_or_ne i best with rfl | hne
  · simp [setHold]
  · simp [setHold, hne]

lemma cls_setHold (files : Fin n → BudgetFile) (best i : Fin n) : (setHold files best i).cls = (files i).cls := by
  rcases eq_or_ne i best with rfl | hne
  · simp [setHold]
  · simp [setHold, hne]

/-- Each turn holds one file more, so that the loop ends. -/
lemma card_heldFiles_setHold {files : Fin n → BudgetFile} {priority room : Nat} {best : Fin n}
    (h : findBest files priority room = some best) :
    n - (heldFiles (setHold files best)).card < n - (heldFiles files).card := by
  have hnew : best ∉ heldFiles files := not_mem_heldFiles.mpr (candidate_of_findBest h).1.1
  have hle : (insert best (heldFiles files)).card ≤ n := by
    simpa using Finset.card_le_univ (insert best (heldFiles files))
  rw [heldFiles_setHold]
  rw [Finset.card_insert_of_notMem hnew] at hle ⊢
  omega

/-- The loop over the candidates of a priority. -/
def holdClass (budget priority : Nat) (files : Fin n → BudgetFile) (held : Nat) : (Fin n → BudgetFile) × Nat :=
  match h : findBest files priority (budget - held) with
  | none      => (files, held)
  | some best => holdClass budget priority (setHold files best) (held + (files best).size)
termination_by n - (heldFiles files).card
decreasing_by exact card_heldFiles_setHold h

/-- `srp_budget` -/
def srpBudget (files : Fin n → BudgetFile) (budget : Nat) : (Fin n → BudgetFile) × Nat :=
  (List.range 7).foldl (fun (files, held) priority => holdClass budget priority files held)
    (fun i => { files i with hold := false }, 0)

/-- The state of the loops, before the candidates of a priority. -/
structure Holds (files₀ files : Fin n → BudgetFile) (budget held priority : Nat) : Prop where
  size_eq : ∀ i, (files i).size = (files₀ i).size
  cls_eq : ∀ i, (files i).cls = (files₀ i).cls
  held_eq : held = ∑ i ∈ heldFiles files, (files₀ i).size
  filled : Filled Finset.univ (fun i => (files₀ i).size) (fun i => (files₀ i).priority) budget (heldFiles files) priority

variable {files₀ files : Fin n → BudgetFile} {budget held priority : Nat}

lemma Holds.priority_eq (h : Holds files₀ files budget held priority) (i : Fin n) :
    (files i).priority = (files₀ i).priority := congrArg srpClassPriority (h.cls_eq i)

lemma Holds.held_le (h : Holds files₀ files budget held priority) : held ≤ budget := h.held_eq ▸ h.filled.sum_le

/-- The candidate that was found is held. -/
lemma Holds.setHold (h : Holds files₀ files budget held priority) {best : Fin n}
    (hbest : findBest files priority (budget - held) = some best) :
    Holds files₀ (setHold files best) budget (held + (files best).size) priority := by
  obtain ⟨⟨hhold, hpriority, hfits⟩, hmin⟩ := candidate_of_findBest hbest
  have hnew : best ∉ heldFiles files := not_mem_heldFiles.mpr hhold
  have hle := h.held_le
  refine ⟨fun i => ?_, fun i => ?_, ?_, ?_⟩
  · rw [size_setHold, h.size_eq]
  · rw [cls_setHold, h.cls_eq]
  · rw [heldFiles_setHold, Finset.sum_insert hnew, h.held_eq, h.size_eq, Nat.add_comm]
  · rw [heldFiles_setHold]
    refine h.filled.insert (Finset.mem_univ best) hnew ?_ ?_ ?_
    · rw [← h.priority_eq, hpriority]
    · rw [← h.held_eq, ← h.size_eq]
      omega
    · intro i _ hi hrank
      -- A file that does not fit is larger than one that does.
      rw [← h.size_eq, ← h.size_eq]
      by_cases hroom : (files i).size ≤ budget - held
      · exact hmin i ⟨not_mem_heldFiles.mp hi, (h.priority_eq i).trans hrank, hroom⟩
      · omega

lemma Holds.next (h : Holds files₀ files budget held priority)
    (hnone : findBest files priority (budget - held) = none) : Holds files₀ files budget held (priority + 1) := by
  refine ⟨h.size_eq, h.cls_eq, h.held_eq, h.filled.next ?_⟩
  intro i _ hi hrank
  have hcandidate := not_candidate_of_findBest hnone i
  have hroom : ¬ (files i).size ≤ budget - held := fun hroom =>
    hcandidate ⟨not_mem_heldFiles.mp hi, (h.priority_eq i).trans hrank, hroom⟩
  have hle := h.held_le
  rw [← h.held_eq, ← h.size_eq]
  omega

lemma Holds.holdClass (h : Holds files₀ files budget held priority) :
    Holds files₀ (holdClass budget priority files held).1 budget (holdClass budget priority files held).2
      (priority + 1) := by
  fun_induction ZoneLite.holdClass with
  | case1 files held hnone => exact h.next hnone
  | case2 files held best hbest ih => exact ih (h.setHold hbest)

lemma holds_srpBudget (files : Fin n → BudgetFile) (budget : Nat) :
    Holds files (srpBudget files budget).1 budget (srpBudget files budget).2 7 := by
  rw [srpBudget]
  generalize 7 = priorities
  induction priorities with
  | zero =>
    have hnone : heldFiles (fun i => { files i with hold := false }) = ∅ := by simp [heldFiles]
    exact ⟨fun _ => rfl, fun _ => rfl, by simp [hnone], by rw [List.range_zero, List.foldl_nil, hnone]; exact .empty⟩
  | succ priorities ih =>
    rw [List.range_succ, List.foldl_append]
    exact ih.holdClass

/-! ### Optimality -/

/-- The files of a priority in a set of files. -/
def heldByPriority (files : Fin n → BudgetFile) (subset : Finset (Fin n)) (priority : Fin 7) : Nat :=
  (subset.filter fun i => (files i).priority = priority).card

/-- The files that are held fit in the budget, no other fits besides, and no choice within the budget holds more files
of the first priority, or as many of it and more of the second, and so on. -/
theorem srpBudget_optimal (files : Fin n → BudgetFile) (budget : Nat) :
    let result := srpBudget files budget
    let chosen := heldFiles result.1
    (∀ i, (result.1 i).size = (files i).size ∧ (result.1 i).cls = (files i).cls) ∧
    ∑ i ∈ chosen, (files i).size = result.2 ∧ result.2 ≤ budget ∧
    (∀ i ∉ chosen, (files i).priority ≤ 6 → budget - result.2 < (files i).size) ∧
    ∀ subset : Finset (Fin n), ∑ i ∈ subset, (files i).size ≤ budget →
      toLex (heldByPriority files subset) ≤ toLex (heldByPriority files chosen) := by
  intro result chosen
  have h : Holds files result.1 budget result.2 7 := holds_srpBudget files budget
  refine ⟨fun i => ⟨h.size_eq i, h.cls_eq i⟩, h.held_eq.symm, h.held_le, ?_, ?_⟩
  · intro i hi hpriority
    have hunfit := h.filled.unfit (Finset.mem_univ i) hi (Nat.lt_succ_of_le hpriority)
    rw [← h.held_eq] at hunfit
    have hle := h.held_le
    omega
  · intro subset hbudget
    exact h.filled.optimal (Finset.subset_univ subset) hbudget

end ZoneLite
