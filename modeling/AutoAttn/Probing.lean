import Mathlib.Data.List.Nodup

/-!
# Sets with open addressing

A set is kept in slots. A key is looked for along a path of slots, up to the first one that is vacant, and it is
stored there. Slots are never cleared. So every slot before a key on its path stays occupied, and every key that is
stored is found.
-/

namespace Probing

variable {κ : Type}

/-! ### Slots -/

/-- The keys that are stored. -/
def keys (slots : List (Option κ)) : List κ := slots.filterMap id

variable {slots : List (Option κ)} {key other : κ} {slot : Nat} {path : List Nat}

lemma mem_keys : key ∈ keys slots ↔ some key ∈ slots := by
  simp [keys]

/-- A slot that is occupied does not change when a vacant one is filled. -/
private lemma getElem?_set_of_occupied {i : Nat} {k : κ} (hvacant : slots[slot]?.join = none)
    (hk : slots[i]?.join = some k) : (slots.set slot (some key))[i]?.join = some k := by
  have hne : slot ≠ i := by
    rintro rfl
    rw [hvacant] at hk
    cases hk
  rw [List.getElem?_set_ne hne, hk]

lemma length_keys (slots : List (Option κ)) : (keys slots).length = slots.countP (·.isSome) := by
  induction slots with
  | nil => rfl
  | cons first slots ih =>
    cases first with
    | none => simpa [keys] using ih
    | some k => simpa [keys] using ih

lemma nodup_of_nodup_cons {first : Option κ} (h : (keys (first :: slots)).Nodup) : (keys slots).Nodup := by
  cases first with
  | none => exact h
  | some k => exact (List.nodup_cons.mp h).2

/-- A key that is stored once is in one slot. -/
lemma eq_of_getElem? {i j : Nat} (hnodup : (keys slots).Nodup) (hi : slots[i]? = some (some key))
    (hj : slots[j]? = some (some key)) : i = j := by
  induction slots generalizing i j with
  | nil => simp at hi
  | cons first slots ih =>
    have hrest := nodup_of_nodup_cons hnodup
    have hfirst : ∀ {n : Nat}, first = some key → slots[n]? ≠ some (some key) := by
      rintro n rfl hn
      exact (List.nodup_cons.mp hnodup).1 (mem_keys.mpr (List.mem_of_getElem? hn))
    cases i with
    | zero =>
      cases j with
      | zero => rfl
      | succ j => exact absurd hj (hfirst (Option.some.inj hi))
    | succ i =>
      cases j with
      | zero => exact absurd hi (hfirst (Option.some.inj hj))
      | succ j => exact congrArg (· + 1) (ih hrest hi hj)

lemma keys_set (hslot : slot < slots.length) (hvacant : slots[slot]?.join = none) :
    (keys (slots.set slot (some key))).Perm (key :: keys slots) := by
  induction slots generalizing slot with
  | nil => cases hslot
  | cons first slots ih =>
    cases slot with
    | zero =>
      obtain rfl : first = none := by simpa using hvacant
      exact .refl _
    | succ slot =>
      have hperm := ih (Nat.lt_of_succ_lt_succ hslot) hvacant
      cases first with
      | none => exact hperm
      | some k => exact (hperm.cons k).trans (.swap _ _ _)

/-! ### Looking for a key -/

variable [DecidableEq κ]

/-- How a search ends. -/
inductive Outcome where
  | present
  | vacant (slot : Nat)
  | exhausted
deriving DecidableEq

/-- Look for a key along a path. -/
def search (slots : List (Option κ)) (key : κ) : List Nat → Outcome
  | []           => .exhausted
  | slot :: path =>
    match slots[slot]?.join with
    | none   => .vacant slot
    | some k => if k = key then .present else search slots key path

lemma mem_keys_of_present (h : search slots key path = .present) : key ∈ keys slots := by
  induction path with
  | nil => cases h
  | cons slot path ih =>
    rw [search] at h
    split at h
    · cases h
    · rename_i k hk
      split_ifs at h with heq
      · subst heq
        rw [mem_keys]
        exact List.mem_of_getElem? (Option.join_eq_some_iff.mp hk)
      · exact ih h

lemma join_of_vacant (h : search slots key path = .vacant slot) : slots[slot]?.join = none := by
  induction path with
  | nil => cases h
  | cons first path ih =>
    rw [search] at h
    split at h
    · rename_i hnone
      cases h
      exact hnone
    · split_ifs at h
      exact ih h

lemma mem_of_vacant (h : search slots key path = .vacant slot) : slot ∈ path := by
  induction path with
  | nil => cases h
  | cons first path ih =>
    rw [search] at h
    split at h
    · cases h
      exact List.mem_cons_self
    · split_ifs at h
      exact List.mem_cons_of_mem first (ih h)

/-- A key that is found is found after another one was stored. -/
lemma search_set_of_present (hvacant : slots[slot]?.join = none) (h : search slots other path = .present) :
    search (slots.set slot (some key)) other path = .present := by
  induction path with
  | nil => cases h
  | cons first path ih =>
    rw [search] at h ⊢
    split at h
    · cases h
    · rename_i k hk
      rw [getElem?_set_of_occupied hvacant hk]
      dsimp only
      split_ifs at h ⊢
      · rfl
      · exact ih h

/-- A key that is stored at the vacant slot of its path is found. -/
lemma search_set_self (hslot : slot < slots.length) (h : search slots key path = .vacant slot) :
    search (slots.set slot (some key)) key path = .present := by
  have hvacant := join_of_vacant h
  induction path with
  | nil => cases h
  | cons first path ih =>
    rw [search] at h ⊢
    split at h
    · cases h
      rw [List.getElem?_set_self hslot, Option.join_some]
      exact if_pos rfl
    · rename_i k hk
      rw [getElem?_set_of_occupied hvacant hk]
      dsimp only
      split_ifs at h ⊢
      exact ih h

end Probing
