import Mathlib.Data.List.Induction
import Mathlib.Data.List.Infix

/-!
# Reading through a window

A reader that holds back the last elements it was given. Each new element goes into the window until it
is full, and then pushes the first one out.
-/

namespace Window

variable {σ α : Type*}

/-- A reader whose state is given by what has passed the window and what is in it. `w` elements are one
too many for the window. What the reader does with a full window may depend on where it is in the text. -/
lemma reads (Reads : σ → List α → σ → Prop) (state : List α → List α → σ) (text : List α) {w : Nat}
    (hw : 2 ≤ w) (nil : ∀ s, Reads s [] s)
    (snoc : ∀ {s s' s'' l x}, Reads s l s' → Reads s' [x] s'' → Reads s (l ++ [x]) s'')
    (fill : ∀ passed window x, passed ++ window ++ [x] <+: text → window.length + 1 < w →
      Reads (state passed window) [x] (state passed (window ++ [x])))
    (slide : ∀ passed y window x, passed ++ (y :: window) ++ [x] <+: text → window.length + 2 = w →
      Reads (state passed (y :: window)) [x] (state (passed ++ [y]) (window ++ [x]))) :
    Reads (state [] []) text
      (state (text.take (text.length + 1 - w)) (text.drop (text.length + 1 - w))) := by
  suffices H : ∀ read, read <+: text → Reads (state [] []) read
      (state (read.take (read.length + 1 - w)) (read.drop (read.length + 1 - w))) from
    H text List.prefix_rfl
  intro read
  induction read using List.reverseRecOn with
  | nil =>
    intro _
    simpa [Nat.sub_eq_zero_of_le (show 1 ≤ w by omega)] using nil (state [] [])
  | append_singleton read x ih =>
    intro hread
    refine snoc (ih ((List.prefix_append _ _).trans hread)) ?_
    have hsplit := List.take_append_drop (read.length + 1 - w) read
    by_cases hshort : read.length + 1 < w
    · -- nothing has left the window yet
      have hnow : read.length + 1 - w = 0 := by omega
      have hthen : (read ++ [x]).length + 1 - w = 0 := by simp; omega
      rw [hnow, hthen, List.take_zero, List.drop_zero, List.take_zero, List.drop_zero]
      exact fill [] read x hread hshort
    · have hthen : (read ++ [x]).length + 1 - w = (read.length + 1 - w) + 1 := by simp; omega
      have hlt : read.length + 1 - w < read.length := by omega
      rw [List.drop_eq_getElem_cons hlt] at hsplit ⊢
      rw [hthen, List.take_append_of_le_length hlt, List.drop_append_of_le_length hlt,
        List.take_succ_eq_append_getElem hlt]
      refine slide _ _ _ x ?_ (by simp; omega)
      rwa [hsplit]

end Window
