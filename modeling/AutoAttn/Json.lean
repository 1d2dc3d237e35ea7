import Mathlib.Data.List.Sort
import Mathlib.Order.Basic

/-!
# JSON values

Values as a JSON parser returns them. The members of an object are kept in the order of the text; a
serialiser that sorts the keys does not see that order.
-/

inductive Json.Scalar where
  | null
  | bool (b : Bool)
  | int (n : Int)
  /-- A number with a fraction or an exponent, by its text. -/
  | float (text : String)
  | str (s : String)
deriving DecidableEq

inductive Json where
  | scalar (value : Json.Scalar)
  | arr (items : List Json)
  | obj (members : List (String × Json))

namespace Json

def null : Json := .scalar .null

def int (n : Int) : Json := .scalar (.int n)

def str (s : String) : Json := .scalar (.str s)

/-! ### Equality -/

mutual

def decEq : (a b : Json) → Decidable (a = b)
  | .scalar v, .scalar w => decidable_of_iff (v = w) (by simp)
  | .arr xs, .arr ys     =>
    have := decEqItems xs ys
    decidable_of_iff (xs = ys) (by simp)
  | .obj xs, .obj ys     =>
    have := decEqMembers xs ys
    decidable_of_iff (xs = ys) (by simp)
  | .scalar _, .arr _ | .scalar _, .obj _ | .arr _, .scalar _ | .arr _, .obj _ | .obj _, .scalar _
  | .obj _, .arr _       => isFalse (by simp)

def decEqItems : (xs ys : List Json) → Decidable (xs = ys)
  | [], []               => isTrue rfl
  | [], _ :: _           => isFalse (by simp)
  | _ :: _, []           => isFalse (by simp)
  | x :: xs, y :: ys     =>
    have := decEq x y
    have := decEqItems xs ys
    decidable_of_iff (x = y ∧ xs = ys) (by simp)

def decEqMembers : (xs ys : List (String × Json)) → Decidable (xs = ys)
  | [], []                     => isTrue rfl
  | [], _ :: _                 => isFalse (by simp)
  | _ :: _, []                 => isFalse (by simp)
  | (k, x) :: xs, (l, y) :: ys =>
    have := decEq x y
    have := decEqMembers xs ys
    decidable_of_iff ((k = l ∧ x = y) ∧ xs = ys) (by simp)

end

instance : DecidableEq Json := decEq

/-! ### Access -/

/-- The member of an object. -/
def get? (key : String) : Json → Option Json
  | .obj members => (members.find? (·.1 = key)).map (·.2)
  | _            => none

def int? : Json → Option Int
  | .scalar (.int n) => some n
  | _                => none

def str? : Json → Option String
  | .scalar (.str s) => some s
  | _                => none

lemma bind_str?_eq_some {value : Option Json} {s : String} : value.bind str? = some s ↔ value = some (str s) := by
  rcases value with _ | (v | _ | _)
  · simp
  · cases v <;> simp [str?, str]
  · simp [str?, str]
  · simp [str?, str]

def arr? : Json → Option (List Json)
  | .arr items => some items
  | _          => none

def isObj : Json → Bool
  | .obj _ => true
  | _      => false

/-! ### Sorted keys -/

mutual

/-- The value with the members of every object sorted by key. -/
def sortKeys : Json → Json
  | .scalar v    => .scalar v
  | .arr items   => .arr (sortItems items)
  | .obj members => .obj ((sortMembers members).insertionSort fun a b => a.1 ≤ b.1)

def sortItems : List Json → List Json
  | []      => []
  | x :: xs => x.sortKeys :: sortItems xs

def sortMembers : List (String × Json) → List (String × Json)
  | []           => []
  | (k, x) :: xs => (k, x.sortKeys) :: sortMembers xs

end

example : (obj [("b", int 1), ("a", arr [int 2])]).sortKeys = obj [("a", arr [int 2]), ("b", int 1)] := by
  decide

/-! ### Lookups do not see the sorting -/

private lemma find?_orderedInsert (key : String) (m : String × Json) (members : List (String × Json)) :
    (members.orderedInsert (fun a b => a.1 ≤ b.1) m).find? (·.1 = key) = (m :: members).find? (·.1 = key) := by
  induction members with
  | nil => rfl
  | cons b members ih =>
    rw [List.orderedInsert]
    split_ifs with hle
    · rfl
    · rw [List.find?_cons, ih]
      by_cases hb : b.1 = key
      · have hm : m.1 ≠ key := by
          rintro rfl
          exact hle (hb ▸ String.le_refl _)
        simp [hb, hm]
      · simp [List.find?_cons, hb]

private lemma find?_insertionSort (key : String) (members : List (String × Json)) :
    (members.insertionSort fun a b => a.1 ≤ b.1).find? (·.1 = key) = members.find? (·.1 = key) := by
  induction members with
  | nil => rfl
  | cons m members ih => rw [List.insertionSort_cons, find?_orderedInsert, List.find?_cons, ih, List.find?_cons]

private lemma find?_sortMembers (key : String) (members : List (String × Json)) :
    ((sortMembers members).find? (·.1 = key)).map (·.2) =
      ((members.find? (·.1 = key)).map (·.2)).map sortKeys := by
  induction members with
  | nil => simp [sortMembers]
  | cons m members ih =>
    obtain ⟨k, x⟩ := m
    rw [sortMembers, List.find?_cons, List.find?_cons]
    by_cases hk : k = key
    · simp [hk]
    · simpa [hk] using ih

lemma get?_sortKeys (key : String) (value : Json) : value.sortKeys.get? key = (value.get? key).map sortKeys := by
  cases value with
  | scalar v => simp [sortKeys, get?]
  | arr items => simp [sortKeys, get?]
  | obj members => rw [sortKeys, get?, get?, find?_insertionSort, find?_sortMembers]

lemma sortKeys_eq_str {value : Json} {s : String} : value.sortKeys = str s ↔ value = str s := by
  cases value with
  | scalar v => simp [sortKeys]
  | arr items => simp [sortKeys, str]
  | obj members => simp [sortKeys, str]

lemma get?_sortKeys_eq_str {value : Json} {key s : String} :
    value.sortKeys.get? key = some (str s) ↔ value.get? key = some (str s) := by
  rw [get?_sortKeys, Option.map_eq_some_iff]
  simp only [sortKeys_eq_str, exists_eq_right]

/-- Values that differ in the order of members have the same texts in them. -/
lemma get?_eq_str_congr {a b : Json} (h : a.sortKeys = b.sortKeys) (key s : String) :
    a.get? key = some (str s) ↔ b.get? key = some (str s) := by
  rw [← get?_sortKeys_eq_str, h, get?_sortKeys_eq_str]

/-! ### Members by key -/

lemma sortMembers_eq_map (members : List (String × Json)) :
    sortMembers members = members.map fun m => (m.1, m.2.sortKeys) := by
  induction members with
  | nil => rfl
  | cons m members ih => rw [sortMembers, ih, List.map_cons]

private lemma filter_orderedInsert (p : String → Bool) (m : String × Json) (members : List (String × Json))
    (hs : members.Pairwise fun a b => a.1 ≤ b.1) :
    (members.orderedInsert (fun a b => a.1 ≤ b.1) m).filter (p ·.1) =
      if p m.1 then (members.filter (p ·.1)).orderedInsert (fun a b => a.1 ≤ b.1) m
      else members.filter (p ·.1) := by
  induction members with
  | nil => simp [List.filter_singleton]
  | cons b members ih =>
    obtain ⟨hb, hs⟩ := List.pairwise_cons.mp hs
    rw [List.orderedInsert]
    split_ifs with hle hm hm
    · -- every later member has a key that is not smaller either
      rw [List.filter_cons, if_pos hm]
      cases hf : (b :: members).filter (p ·.1) with
      | nil => rfl
      | cons c cs =>
        have hc : c ∈ b :: members := List.mem_of_mem_filter (hf ▸ List.mem_cons_self)
        have hmc : m.1 ≤ c.1 := by
          rcases List.mem_cons.mp hc with rfl | hc
          · exact hle
          · exact String.le_trans hle (hb c hc)
        rw [List.orderedInsert, if_pos hmc]
    · rw [List.filter_cons, if_neg hm]
    · rw [List.filter_cons, List.filter_cons, ih hs, if_pos hm]
      split_ifs with hpb
      · rw [List.orderedInsert, if_neg hle]
      · rfl
    · rw [List.filter_cons, List.filter_cons, ih hs, if_neg hm]

/-- Members can be picked by key before or after the sorting. -/
lemma filter_insertionSort_sortMembers (p : String → Bool) (members : List (String × Json)) :
    ((sortMembers members).insertionSort fun a b => a.1 ≤ b.1).filter (p ·.1) =
      (sortMembers (members.filter (p ·.1))).insertionSort fun a b => a.1 ≤ b.1 := by
  have : Std.Total fun a b : String × Json => a.1 ≤ b.1 := ⟨fun a b => String.le_total a.1 b.1⟩
  have : IsTrans (String × Json) fun a b => a.1 ≤ b.1 := ⟨fun _ _ _ => String.le_trans⟩
  induction members with
  | nil => rfl
  | cons m members ih =>
    rw [sortMembers, List.insertionSort_cons, filter_orderedInsert p _ _ (List.pairwise_insertionSort _ _), ih,
      List.filter_cons]
    split_ifs with hp
    · rw [sortMembers, List.insertionSort_cons]
    · rfl

end Json
