import Mathlib

/-!
# Files of lines

A newline ends a line.
-/

namespace Lines

def newline : UInt8 := 10

/-- A file with the given lines. -/
def render (ls : List (List UInt8)) : List UInt8 := ls.flatMap (· ++ [newline])

@[simp] lemma render_nil : render [] = [] := rfl

@[simp] lemma render_cons (l : List UInt8) (ls : List (List UInt8)) :
    render (l :: ls) = l ++ newline :: render ls := by
  simp [render]

@[simp] lemma render_append (ls ls' : List (List UInt8)) :
    render (ls ++ ls') = render ls ++ render ls' := by
  simp [render]

/-- A text without a newline that stands in a file of lines stands in one of the lines. -/
lemma exists_line_of_render_eq {ls : List (List UInt8)} {before l after : List UInt8}
    (hne : l ≠ []) (hl : newline ∉ l) (heq : render ls = before ++ l ++ after) :
    ∃ pre u v post, ls = pre ++ (u ++ l ++ v) :: post ∧ before = render pre ++ u ∧
      after = v ++ newline :: render post := by
  induction ls generalizing before with
  | nil => simp_all
  | cons r ls ih =>
    rw [render_cons, List.append_assoc, List.append_eq_append_iff] at heq
    rcases heq with ⟨mid, rfl, hmid⟩ | ⟨mid, rfl, hmid⟩
    · -- the text begins behind the first line
      cases mid with
      | nil =>
        obtain ⟨b, l, rfl⟩ := List.exists_cons_of_ne_nil hne
        rw [List.nil_append, List.cons_append] at hmid
        exact absurd (List.mem_cons.mpr (.inl (List.cons.inj hmid).1)) hl
      | cons b mid =>
        rw [List.cons_append, List.cons.injEq, ← List.append_assoc] at hmid
        obtain ⟨rfl, hmid⟩ := hmid
        obtain ⟨pre, u, v, post, rfl, rfl, rfl⟩ := ih hmid
        exact ⟨r :: pre, u, v, post, rfl, by simp, rfl⟩
    · -- it begins in the first line and ends there, for it has no newline
      rw [List.append_eq_append_iff] at hmid
      rcases hmid with ⟨v, rfl, rfl⟩ | ⟨v, rfl, hv⟩
      · exact ⟨[], before, v, ls, by simp, by simp, rfl⟩
      · cases v with
        | nil => exact ⟨[], before, [], ls, by simp, by simp, by simpa using hv.symm⟩
        | cons b v =>
          obtain ⟨rfl, -⟩ := List.cons.inj hv
          simp at hl

end Lines
