import Mathlib.Data.Option.Basic

/-!
# Checks that may fail

Handlers that stop at the first check that fails. Each rule says when such a handler returns, so that
a successful run is taken apart into the facts that its checks established.
-/

namespace Checks

variable {ε α β : Type}

/-- Stop with `e` if the condition holds. -/
def refuse (c : Prop) [Decidable c] (e : ε) : Except ε Unit := if c then .error e else .ok ()

/-- Stop with `e` if there is no value. -/
def require (x : Option α) (e : ε) : Except ε α :=
  match x with
  | some a => .ok a
  | none   => .error e

@[simp] lemma refuse_eq_ok {c : Prop} [Decidable c] {e : ε} {u : Unit} :
    refuse c e = .ok u ↔ ¬c := by
  by_cases h : c <;> simp [refuse, h]

@[simp] lemma require_eq_ok {x : Option α} {e : ε} {a : α} : require x e = .ok a ↔ x = some a := by
  cases x <;> simp [require]

/-- A sequence returns when its first part returns and the rest returns from there. -/
lemma bind_eq_ok {x : Except ε α} {f : α → Except ε β} {b : β} :
    x >>= f = .ok b ↔ ∃ a, x = .ok a ∧ f a = .ok b := by
  cases x with
  | error e => simp [bind, Except.bind]
  | ok a => simp [bind, Except.bind]

@[simp] lemma pure_eq_ok {a b : α} : (pure a : Except ε α) = .ok b ↔ a = b := by
  simp [pure, Except.pure]

/-! ### Folds -/

/-- A property that each step of a fold carries from the part done to one element more holds at
its end. -/
lemma foldlM_ok {f : β → α → Except ε β} {P : List α → β → Prop} {l : List α} {b b' : β}
    (h : l.foldlM f b = .ok b') (start : P [] b)
    (step : ∀ done x b b', done ++ [x] <+: l → P done b → f b x = .ok b' → P (done ++ [x]) b') :
    P l b' := by
  suffices H : ∀ rest done b, done ++ rest = l → P done b → rest.foldlM f b = .ok b' → P l b' from
    H l [] b rfl start h
  intro rest
  induction rest with
  | nil =>
    rintro done b hl hP h
    rw [List.append_nil] at hl
    rw [List.foldlM_nil, pure_eq_ok] at h
    exact hl ▸ h ▸ hP
  | cons x rest ih =>
    intro done b hl hP h
    rw [List.foldlM_cons, bind_eq_ok] at h
    obtain ⟨b₁, hx, h⟩ := h
    have hl' : (done ++ [x]) ++ rest = l := by simpa using hl
    exact ih (done ++ [x]) b₁ hl' (step done x b b₁ ⟨rest, hl'⟩ hP hx) h

/-- A fold does not stop when each step returns and hands on what the elements after it need. -/
lemma exists_foldlM_ok {f : β → α → Except ε β} {P : List α → β → Prop}
    (step : ∀ x rest b, P (x :: rest) b → ∃ b', f b x = .ok b' ∧ P rest b') {l : List α} {b : β}
    (h : P l b) : ∃ b', l.foldlM f b = .ok b' := by
  induction l generalizing b with
  | nil => exact ⟨b, rfl⟩
  | cons x rest ih =>
    obtain ⟨b₁, hx, hrest⟩ := step x rest b h
    obtain ⟨b', hb'⟩ := ih hrest
    exact ⟨b', by rw [List.foldlM_cons, bind_eq_ok]; exact ⟨b₁, hx, hb'⟩⟩

/-! ### Reading a list -/

/-- Read the elements in turn, each after those that were read before it. -/
def readAll (read : List β → α → Except ε β) (l : List α) : Except ε (List β) :=
  l.foldlM (fun done x => read done x >>= fun b => pure (done ++ [b])) []

/-- If an element is read by itself and is refused only for one that was read before, then a list is read
if each of its elements is and no two of them clash. -/
lemma readAll_eq_ok {read : List β → α → Except ε β} {P : α → Prop} {f : α → β} {Apart : β → β → Prop}
    (hread : ∀ done x b, read done x = .ok b ↔ (P x ∧ b = f x) ∧ ∀ a ∈ done, Apart a b)
    {l : List α} {bs : List β} :
    readAll read l = .ok bs ↔ (∀ x ∈ l, P x) ∧ bs = l.map f ∧ bs.Pairwise Apart := by
  suffices H : ∀ done, done.Pairwise Apart →
      (l.foldlM (fun done x => read done x >>= fun b => pure (done ++ [b])) done = .ok bs ↔
        (∀ x ∈ l, P x) ∧ bs = done ++ l.map f ∧ bs.Pairwise Apart) by
    rw [readAll, H [] .nil, List.nil_append]
  induction l with
  | nil =>
    intro done hdone
    rw [List.foldlM_nil, pure_eq_ok]
    constructor
    · rintro rfl
      exact ⟨nofun, by simp, hdone⟩
    · rintro ⟨-, rfl, -⟩
      simp
  | cons x l ih =>
    intro done hdone
    have hsplit : done ++ (x :: l).map f = (done ++ [f x]) ++ l.map f := by simp
    rw [List.foldlM_cons, bind_eq_ok, hsplit]
    simp only [bind_eq_ok, pure_eq_ok, List.forall_mem_cons]
    constructor
    · rintro ⟨_, ⟨b, hb, rfl⟩, h⟩
      obtain ⟨⟨hx, rfl⟩, hapart⟩ := (hread done x b).1 hb
      have hdone' : (done ++ [f x]).Pairwise Apart := by
        rw [List.pairwise_append]
        exact ⟨hdone, List.pairwise_singleton _ _, by simpa using hapart⟩
      obtain ⟨hl, hbs, hpair⟩ := (ih _ hdone').1 h
      exact ⟨⟨hx, hl⟩, hbs, hpair⟩
    · rintro ⟨⟨hx, hl⟩, rfl, hpair⟩
      have hdone' := (List.pairwise_append.1 hpair).1
      have hapart : ∀ a ∈ done, Apart a (f x) := by
        simpa using (List.pairwise_append.1 hdone').2.2
      exact ⟨_, ⟨f x, (hread done x _).2 ⟨⟨hx, rfl⟩, hapart⟩, rfl⟩, (ih _ hdone').2 ⟨hl, rfl, hpair⟩⟩

end Checks
