import Mathlib.Data.List.Basic
import Mathlib.Data.List.Nodup
import Mathlib.Data.List.Range

/-!
# Tables of rows

A table keeps its rows in the order they were inserted and numbers them from zero. Rows are
changed in place and never removed, so a number names the same row for good.
-/

/-- Rows that carry their own number. -/
class Row (α : Type) where
  rowId : α → Nat

/-- A list of rows in which the row at each position carries that position. -/
structure Table (α : Type) [Row α] where
  rows : List α
  ids : rows.map Row.rowId = List.range rows.length

namespace Table

open Row (rowId)

variable {α : Type} [Row α]

instance : Membership α (Table α) := ⟨fun t r => r ∈ t.rows⟩

instance : EmptyCollection (Table α) := ⟨⟨[], rfl⟩⟩

lemma mem_def {t : Table α} {r : α} : r ∈ t ↔ r ∈ t.rows := Iff.rfl

@[simp] lemma rows_empty : (∅ : Table α).rows = [] := rfl

@[simp] lemma not_mem_empty (r : α) : r ∉ (∅ : Table α) := List.not_mem_nil

def get? (t : Table α) (i : Nat) : Option α := t.rows.find? fun r => rowId r == i

/-- Append the row that `mk` makes for the next number. -/
def insert (t : Table α) (mk : Nat → α) (h : ∀ i, rowId (mk i) = i := by intro _; rfl) :
    Table α where
  rows := t.rows ++ [mk t.rows.length]
  ids := by simp [t.ids, h, List.range_succ]

/-- Change rows in place. -/
def map (t : Table α) (f : α → α) (h : ∀ r, rowId (f r) = rowId r) : Table α where
  rows := t.rows.map f
  ids := by
    have hf : rowId ∘ f = (rowId : α → Nat) := funext h
    simp [hf, t.ids]

/-- Replace the row that has the number of `r`. -/
def put (t : Table α) (r : α) : Table α :=
  t.map (fun x => if rowId x = rowId r then r else x) fun x => by
    split_ifs with hx
    · exact hx.symm
    · rfl

lemma rowId_lt {t : Table α} {r : α} (hr : r ∈ t) : rowId r < t.rows.length := by
  have : rowId r ∈ t.rows.map rowId := List.mem_map_of_mem hr
  rwa [t.ids, List.mem_range] at this

lemma exists_of_lt {t : Table α} {i : Nat} (h : i < t.rows.length) : ∃ r ∈ t, rowId r = i := by
  have : i ∈ t.rows.map rowId := t.ids ▸ List.mem_range.mpr h
  obtain ⟨r, hr, hid⟩ := List.mem_map.mp this
  exact ⟨r, hr, hid⟩

/-- A number names one row. -/
lemma rowId_of_append {t t' : Table α} {r : α} (h : t'.rows = t.rows ++ [r]) :
    rowId r = t.rows.length := by
  have hids := t'.ids
  rw [h, List.map_append, t.ids, List.length_append, List.length_singleton, List.range_succ] at hids
  simpa using hids

lemma eq_of_rowId {t : Table α} {r r' : α} (hr : r ∈ t) (hr' : r' ∈ t)
    (h : rowId r = rowId r') : r = r' := by
  have hnodup : (t.rows.map rowId).Nodup := t.ids ▸ List.nodup_range
  exact List.inj_on_of_nodup_map hnodup hr hr' h

lemma get?_eq_some {t : Table α} {i : Nat} {r : α} : t.get? i = some r ↔ r ∈ t ∧ rowId r = i := by
  constructor
  · intro h
    exact ⟨List.mem_of_find?_eq_some h, by simpa using List.find?_some h⟩
  · rintro ⟨hr, rfl⟩
    obtain ⟨x, hx⟩ : ∃ x, t.get? (rowId r) = some x := by
      rw [← Option.isSome_iff_exists, get?, List.find?_isSome]
      exact ⟨r, hr, by simp⟩
    have hmem : x ∈ t := List.mem_of_find?_eq_some hx
    have hid : rowId x = rowId r := by simpa using List.find?_some hx
    rw [hx, eq_of_rowId hmem hr hid]

lemma get?_of_mem {t : Table α} {r : α} (hr : r ∈ t) : t.get? (rowId r) = some r :=
  get?_eq_some.mpr ⟨hr, rfl⟩

lemma mem_insert {t : Table α} {mk : Nat → α} {h : ∀ i, rowId (mk i) = i} {r : α} :
    r ∈ t.insert mk h ↔ r ∈ t ∨ r = mk t.rows.length := by
  simp [mem_def, insert]

lemma mem_map {t : Table α} {f : α → α} {h : ∀ r, rowId (f r) = rowId r} {r : α} :
    r ∈ t.map f h ↔ ∃ x ∈ t, f x = r := by
  simp [mem_def, map]

@[simp] lemma length_put (t : Table α) (r : α) : (t.put r).rows.length = t.rows.length := by
  simp [put, map]

lemma mem_put_self {t : Table α} {r : α} (hr : ∃ y ∈ t, rowId y = rowId r) : r ∈ t.put r := by
  obtain ⟨y, hy, hid⟩ := hr
  rw [put, mem_map]
  exact ⟨y, hy, if_pos hid⟩

/-- A row with another number is not touched. -/
lemma mem_put_of_ne {t : Table α} {r x : α} (hx : x ∈ t) (hne : rowId x ≠ rowId r) :
    x ∈ t.put r := by
  rw [put, mem_map]
  exact ⟨x, hx, if_neg hne⟩

/-- Every row after a replacement is the new row or one that was there. -/
lemma of_mem_put {t : Table α} {r x : α} (hx : x ∈ t.put r) :
    x = r ∨ x ∈ t ∧ rowId x ≠ rowId r := by
  rw [put, mem_map] at hx
  obtain ⟨y, hy, rfl⟩ := hx
  split_ifs with h
  · exact .inl rfl
  · exact .inr ⟨hy, h⟩

end Table
