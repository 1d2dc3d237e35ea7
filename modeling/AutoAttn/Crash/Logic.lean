import AutoAttn.Crash.Prog

/-!
# A crash logic

`p.wp Q C s` says that `p` started in `s` returns only with results and states that satisfy `Q`,
and loses power only in states that satisfy `C`, whatever the fates of its operations are. Any
operation may be the last one, so `C` is what holds at every instant of the run.
-/

namespace Crash

/-- The verdict of a postcondition and a crash condition on an outcome. -/
def Outcome.Sat {σ α : Type} (Q : α → σ → Prop) (C : σ → Prop) : Outcome σ α → Prop
  | .done a s _ => Q a s
  | .halt s     => C s

namespace Prog

variable {σ α β : Type}

def wp (Q : α → σ → Prop) (C : σ → Prop) : Prog σ α → σ → Prop
  | .ret a, s           => Q a s
  | .read k, s          => (k s).wp Q C s
  | .write f k, s       => k.wp Q C (f s)
  | .act full torn k, s =>
    (k true).wp Q C (full s) ∧ (∀ n, (k false).wp Q C (torn n s)) ∧ ∀ n, C (torn n s)

variable {Q Q' : α → σ → Prop} {C C' : σ → Prop}

/-- Soundness: what the logic derives holds under every script. -/
theorem wp_run {p : Prog σ α} {s : σ} (h : p.wp Q C s) (fs : List Fate) :
    (p.run s fs).Sat Q C := by
  induction p generalizing s fs with
  | ret a => exact h
  | read k ih => exact ih s h fs
  | write f k ih => exact ih h fs
  | act full torn k ih =>
    obtain ⟨hok, hfail, hcrash⟩ := h
    match fs with
    | [] => exact ih true hok []
    | .ok :: fs => exact ih true hok fs
    | .fail n :: fs => exact ih false (hfail n) fs
    | .crash n :: fs => exact hcrash n

/-- Soundness for a run that returned. -/
lemma wp_done {p : Prog σ α} {s s' : σ} {fs rest : List Fate} {a : α} (h : p.wp Q C s)
    (hrun : p.run s fs = .done a s' rest) : Q a s' := by
  have hsat := wp_run h fs
  rwa [hrun] at hsat

/-- The run in which nothing goes wrong is one of the runs. -/
lemma wp_eval {p : Prog σ α} {s : σ} (h : p.wp Q C s) : Q (p.eval s).1 (p.eval s).2 := by
  have := wp_run h []
  rwa [run_nil] at this

/-- What holds of every result and at every instant holds of the state a run leaves. -/
lemma wp_run_state {I : σ → Prop} {p : Prog σ α} {s : σ} (h : p.wp (fun _ => I) I s)
    (fs : List Fate) : I (p.run s fs).state := by
  have := wp_run h fs
  revert this
  cases p.run s fs <;> exact id

lemma wp_mono {p : Prog σ α} {s : σ} (h : p.wp Q C s) (hQ : ∀ a s, Q a s → Q' a s)
    (hC : ∀ s, C s → C' s) : p.wp Q' C' s := by
  induction p generalizing s with
  | ret a => exact hQ a s h
  | read k ih => exact ih s h
  | write f k ih => exact ih h
  | act full torn k ih =>
    exact ⟨ih true h.1, fun n => ih false (h.2.1 n), fun n => hC _ (h.2.2 n)⟩

/-! ### One rule for each way to build a program -/

@[simp] lemma wp_pure (a : α) (s : σ) : (pure a : Prog σ α).wp Q C s ↔ Q a s := Iff.rfl

@[simp] lemma wp_bind {R : β → σ → Prop} (p : Prog σ α) (f : α → Prog σ β) (s : σ) :
    (p >>= f).wp R C s ↔ p.wp (fun a s => (f a).wp R C s) C s := by
  change (p.bind f).wp R C s ↔ _
  induction p generalizing s with
  | ret a => rfl
  | read k ih => exact ih s s
  | write g k ih => exact ih (g s)
  | act full torn k ih =>
    exact and_congr (ih true _) (and_congr (forall_congr' fun n => ih false _) Iff.rfl)

/-- The rule for a sequence, from what is known about its first part. -/
lemma wp_seq {R : β → σ → Prop} {p : Prog σ α} {f : α → Prog σ β} {s : σ} (hp : p.wp Q C s)
    (hQ : ∀ a s, Q a s → (f a).wp R C' s) (hC : ∀ s, C s → C' s) : (p >>= f).wp R C' s := by
  rw [wp_bind]
  exact wp_mono hp hQ hC

@[simp] lemma wp_ite {c : Prop} [Decidable c] (p q : Prog σ α) (s : σ) :
    (if c then p else q).wp Q C s ↔ (c → p.wp Q C s) ∧ (¬c → q.wp Q C s) := by
  split_ifs with h <;> simp [h]

@[simp] lemma wp_gets (f : σ → α) (s : σ) : (gets f).wp Q C s ↔ Q (f s) s := Iff.rfl

@[simp] lemma wp_modify {Q : Unit → σ → Prop} (f : σ → σ) (s : σ) :
    (modify f).wp Q C s ↔ Q () (f s) := Iff.rfl

@[simp] lemma wp_op {Q : Bool → σ → Prop} (full : σ → σ) (torn : Nat → σ → σ) (s : σ) :
    (op full torn).wp Q C s ↔ Q true (full s) ∧ (∀ n, Q false (torn n s)) ∧ ∀ n, C (torn n s) :=
  Iff.rfl

@[simp] lemma wp_look {Q : Bool → σ → Prop} (s : σ) :
    (look : Prog σ Bool).wp Q C s ↔ Q true s ∧ Q false s ∧ C s := by
  simp [look]

/-- An atomic operation that was interrupted has had its effect or not. -/
lemma forall_reach (P : σ → Prop) (f : σ → σ) (s : σ) :
    (∀ n : Nat, P ((if n = 0 then id else f) s)) ↔ P s ∧ P (f s) := by
  constructor
  · intro h
    exact ⟨by simpa using h 0, by simpa using h 1⟩
  · rintro ⟨h0, h1⟩ n
    by_cases hn : n = 0 <;> simpa [hn]

@[simp] lemma wp_atomic {Q : Bool → σ → Prop} (f : σ → σ) (s : σ) :
    (atomic f).wp Q C s ↔ Q true (f s) ∧ (Q false s ∧ Q false (f s)) ∧ C s ∧ C (f s) := by
  simp only [atomic, wp_op, forall_reach (Q false), forall_reach C]

lemma wp_zoom {τ : Type} (r : Part σ τ) (p : Prog τ α) (s : σ) :
    (p.zoom r).wp Q C s ↔
      p.wp (fun a t => Q a (r.set t s)) (fun t => C (r.set t s)) (r.get s) := by
  induction p generalizing s with
  | ret a => simp [zoom, wp, r.set_get]
  | read k ih => exact ih (r.get s) s
  | write f k ih => simp [zoom, wp, ih, r.get_set, r.set_set]
  | act full torn k ih => simp [zoom, wp, ih, r.get_set, r.set_set]

/-! ### Programs that return errors -/

section Except

variable {ε : Type} {E E' : ε → σ → Prop}

/-- A postcondition for each of the two ways to return. -/
def Returns (Q : α → σ → Prop) (E : ε → σ → Prop) : Except ε α → σ → Prop
  | .ok a    => Q a
  | .error e => E e

/-- `wp` for a program with errors: `E` is what holds when it returns one. -/
def ewp (Q : α → σ → Prop) (E : ε → σ → Prop) (C : σ → Prop) (p : ExceptT ε (Prog σ) α) (s : σ) :
    Prop := Prog.wp (Returns Q E) C p.run s

lemma ewp_mono {p : ExceptT ε (Prog σ) α} {s : σ} (h : ewp Q E C p s)
    (hQ : ∀ a s, Q a s → Q' a s) (hE : ∀ e s, E e s → E' e s) (hC : ∀ s, C s → C' s) :
    ewp Q' E' C' p s := by
  refine wp_mono h (fun r s hr => ?_) hC
  cases r with
  | ok a => exact hQ a s hr
  | error e => exact hE e s hr

@[simp] lemma ewp_pure (a : α) (s : σ) :
    ewp Q E C (pure a : ExceptT ε (Prog σ) α) s ↔ Q a s := Iff.rfl

@[simp] lemma ewp_throw (e : ε) (s : σ) :
    ewp Q E C (throw e : ExceptT ε (Prog σ) α) s ↔ E e s := Iff.rfl

@[simp] lemma ewp_bind {R : β → σ → Prop} (p : ExceptT ε (Prog σ) α)
    (f : α → ExceptT ε (Prog σ) β) (s : σ) :
    ewp R E C (p >>= f) s ↔ ewp (fun a s => ewp R E C (f a) s) E C p s := by
  change Prog.wp _ C (p.run >>= ExceptT.bindCont f) s ↔ _
  rw [wp_bind]
  apply iff_of_eq
  simp only [ewp]
  congr 1
  funext r s
  cases r <;> rfl

/-- The rule for a sequence, from what is known about its first part. -/
lemma ewp_seq {R : β → σ → Prop} {p : ExceptT ε (Prog σ) α} {f : α → ExceptT ε (Prog σ) β} {s : σ}
    (hp : ewp Q E C p s) (hQ : ∀ a s, Q a s → ewp R E' C' (f a) s) (hE : ∀ e s, E e s → E' e s)
    (hC : ∀ s, C s → C' s) : ewp R E' C' (p >>= f) s := by
  rw [ewp_bind]
  exact ewp_mono hp hQ hE hC

@[simp] lemma ewp_lift (p : Prog σ α) (s : σ) :
    ewp Q E C (liftM p : ExceptT ε (Prog σ) α) s ↔ p.wp Q C s := by
  change Prog.wp _ C (p >>= fun a => pure (Except.ok a)) s ↔ _
  rw [wp_bind]
  rfl

@[simp] lemma ewp_ite {c : Prop} [Decidable c] (p q : ExceptT ε (Prog σ) α) (s : σ) :
    ewp Q E C (if c then p else q) s ↔ (c → ewp Q E C p s) ∧ (¬c → ewp Q E C q s) := by
  split_ifs with h <;> simp [h]

/-- A program that looks at how another one returned. -/
lemma wp_of_ewp {p : ExceptT ε (Prog σ) α} {s : σ} (h : ewp Q E C p s) :
    Prog.wp (Returns Q E) C p.run s := h

/-- Soundness: what the logic derives holds under every script. -/
lemma ewp_run {p : ExceptT ε (Prog σ) α} {s : σ} (h : ewp Q E C p s) (fs : List Fate) :
    (Prog.run p.run s fs).Sat (Returns Q E) C := wp_run h fs

-- From here on only the rules say what `ewp` is.
attribute [irreducible] ewp

end Except

/-! ### Invariants -/

/-- The program keeps `I` at every instant. -/
def Keeps (I : σ → Prop) (p : Prog σ α) : Prop := ∀ s, I s → p.wp (fun _ => I) I s

section Keeps

variable {I : σ → Prop}

lemma keeps_pure (a : α) : Keeps I (pure a : Prog σ α) := fun _ h => h

lemma Keeps.bind {p : Prog σ α} {f : α → Prog σ β} (hp : Keeps I p) (hf : ∀ a, Keeps I (f a)) :
    Keeps I (p >>= f) := by
  intro s h
  rw [wp_bind]
  exact wp_mono (hp s h) (fun a s h => hf a s h) fun _ => id

lemma Keeps.ite {c : Prop} [Decidable c] {p q : Prog σ α} (hp : Keeps I p) (hq : Keeps I q) :
    Keeps I (if c then p else q) := by
  split_ifs
  · exact hp
  · exact hq

lemma keeps_gets (f : σ → α) : Keeps I (gets f) := fun _ h => h

lemma keeps_look : Keeps I (look : Prog σ Bool) := by
  intro s h
  rw [wp_look]
  exact ⟨h, h, h⟩

lemma keeps_atomic {f : σ → σ} (hf : ∀ s, I s → I (f s)) : Keeps I (atomic f) := by
  intro s h
  rw [wp_atomic]
  exact ⟨hf s h, ⟨h, hf s h⟩, h, hf s h⟩

lemma keeps_op {full : σ → σ} {torn : Nat → σ → σ} (hfull : ∀ s, I s → I (full s))
    (htorn : ∀ n s, I s → I (torn n s)) : Keeps I (op full torn) := by
  intro s h
  rw [wp_op]
  exact ⟨hfull s h, fun n => htorn n s h, fun n => htorn n s h⟩

/-- The program with errors keeps `I`, and `C` holds at every instant. -/
def EKeeps {ε : Type} (I C : σ → Prop) (p : ExceptT ε (Prog σ) α) : Prop :=
  ∀ s, I s → ewp (fun _ => I) (fun _ => I) C p s

section EKeeps

variable {ε : Type}

lemma ekeeps_pure (a : α) : EKeeps I C (pure a : ExceptT ε (Prog σ) α) := fun s h => by
  rw [ewp_pure]
  exact h

lemma ekeeps_throw (e : ε) : EKeeps I C (throw e : ExceptT ε (Prog σ) α) := fun s h => by
  rw [ewp_throw]
  exact h

lemma ekeeps_gets (f : σ → α) : EKeeps I C (liftM (gets f) : ExceptT ε (Prog σ) α) := fun s h => by
  rw [ewp_lift, wp_gets]
  exact h

lemma EKeeps.bind {p : ExceptT ε (Prog σ) α} {f : α → ExceptT ε (Prog σ) β} (hp : EKeeps I C p)
    (hf : ∀ a, EKeeps I C (f a)) : EKeeps I C (p >>= f) := fun s h =>
  ewp_seq (hp s h) (fun a s h => hf a s h) (fun _ _ h => h) fun _ h => h

lemma EKeeps.ite {c : Prop} [Decidable c] {p q : ExceptT ε (Prog σ) α} (hp : EKeeps I C p)
    (hq : EKeeps I C q) : EKeeps I C (if c then p else q) := by
  split_ifs
  · exact hp
  · exact hq

/-- A check before the rest of the program. -/
lemma EKeeps.check {c : Prop} [Decidable c] {p : ExceptT ε (Prog σ) PUnit}
    {f : PUnit → ExceptT ε (Prog σ) α} (hp : EKeeps I C p) (hf : ∀ u, EKeeps I C (f u)) :
    EKeeps I C (if c then p >>= f else f ⟨⟩) :=
  .ite (hp.bind hf) (hf ⟨⟩)

lemma Keeps.lift {p : Prog σ α} (h : Keeps I p) (hC : ∀ s, I s → C s) :
    EKeeps I C (liftM p : ExceptT ε (Prog σ) α) := fun s hs => by
  rw [ewp_lift]
  exact wp_mono (h s hs) (fun _ _ h => h) hC

end EKeeps

end Keeps

end Prog

end Crash
