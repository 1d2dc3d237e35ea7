import Mathlib.Data.List.Nodup
import Mathlib.Data.List.Perm.Basic

/-!
# Lists with unique keys

Where no two elements have the same key, a lookup finds the element of a key in whatever order the list is
in, and a filter that leaves one element says that it is the only one.
-/

namespace UniqueKeys

variable {α κ : Type} [DecidableEq κ] {key : α → κ} {l l' : List α} {k : κ} {x : α}

lemma find?_eq_some (h : (l.map key).Nodup) : l.find? (key · = k) = some x ↔ x ∈ l ∧ key x = k := by
  constructor
  · intro hx
    exact ⟨List.mem_of_find?_eq_some hx, by simpa using List.find?_some hx⟩
  · rintro ⟨hx, hk⟩
    cases hfind : l.find? (key · = k) with
    | none =>
      rw [List.find?_eq_none] at hfind
      exact absurd hk (by simpa using hfind x hx)
    | some y =>
      have hy : key y = k := by simpa using List.find?_some hfind
      rw [List.inj_on_of_nodup_map h (List.mem_of_find?_eq_some hfind) hx (hy.trans hk.symm)]

lemma find?_perm (h : (l.map key).Nodup) (hperm : l.Perm l') :
    l.find? (key · = k) = l'.find? (key · = k) := by
  ext x
  rw [find?_eq_some h, find?_eq_some ((hperm.map key).nodup_iff.1 h), hperm.mem_iff]

omit [DecidableEq κ] in
/-- One element is left if it is the only one that meets the condition. -/
lemma map_filter_eq_singleton (h : (l.map key).Nodup) {p : α → Bool} :
    (l.filter p).map key = [k] ↔ ∃ x, key x = k ∧ ∀ y, y ∈ l ∧ p y = true ↔ y = x := by
  rw [List.map_eq_singleton_iff]
  constructor
  · rintro ⟨x, hx, rfl⟩
    refine ⟨x, rfl, fun y => ?_⟩
    rw [← List.mem_filter, hx, List.mem_singleton]
  · rintro ⟨x, rfl, hx⟩
    refine ⟨x, ?_, rfl⟩
    rw [← List.perm_singleton, List.perm_ext_iff_of_nodup (h.of_map.filter p) (List.nodup_singleton x)]
    intro y
    rw [List.mem_filter, hx, List.mem_singleton]

end UniqueKeys
