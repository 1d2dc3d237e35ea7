import Mathlib.Data.List.AList

/-!
# Programs that can fail and lose power

A program acts on a state `σ`. Each of its primitive operations meets a fate: it succeeds, it
fails after part of its effect reached storage, or it is the point where power is lost. A script
lists the fates of a run in order, so quantifying over scripts gives every behaviour of the
environment, and a concrete script gives a run that can be evaluated.
-/

namespace Crash

/-- What the environment does to one primitive operation. `reach` is how much of the effect got
to storage: a number of bytes for a write, zero or not zero for an atomic operation. -/
inductive Fate where
  | ok
  | fail (reach : Nat)
  | crash (reach : Nat)
deriving DecidableEq, Repr

/-- A run returns, with the part of the script it did not use, or power was lost in it. -/
inductive Outcome (σ α : Type) where
  | done (a : α) (s : σ) (rest : List Fate)
  | halt (s : σ)
deriving DecidableEq, Repr

/-- The state a run leaves behind. -/
def Outcome.state {σ α : Type} : Outcome σ α → σ
  | .done _ s _ => s
  | .halt s     => s

def Outcome.halted {σ α : Type} : Outcome σ α → Bool
  | .done .. => false
  | .halt _  => true

/-- Programs over the state `σ`. An `act` is interruptible: `full` is its effect, and `torn n`
the effect of its first `n` units. A `write` is not, and is meant for volatile state. -/
inductive Prog (σ α : Type) where
  | ret (a : α)
  | read (k : σ → Prog σ α)
  | write (f : σ → σ) (k : Prog σ α)
  | act (full : σ → σ) (torn : Nat → σ → σ) (k : Bool → Prog σ α)

namespace Prog

variable {σ α β : Type}

protected def bind : Prog σ α → (α → Prog σ β) → Prog σ β
  | .ret a, f           => f a
  | .read k, f          => .read fun s => (k s).bind f
  | .write g k, f       => .write g (k.bind f)
  | .act full torn k, f => .act full torn fun b => (k b).bind f

instance : Monad (Prog σ) where
  pure := .ret
  bind := Prog.bind

lemma bind_bind {γ : Type} (p : Prog σ α) (f : α → Prog σ β) (g : β → Prog σ γ) :
    p >>= f >>= g = p >>= fun a => f a >>= g := by
  change (p.bind f).bind g = p.bind fun a => (f a).bind g
  induction p with
  | ret a => rfl
  | read k ih => simp only [Prog.bind, ih]
  | write h k ih => simp only [Prog.bind, ih]
  | act full torn k ih => simp only [Prog.bind, ih]

def gets (f : σ → α) : Prog σ α := .read fun s => .ret (f s)

def modify (f : σ → σ) : Prog σ Unit := .write f (.ret ())

/-- An interruptible operation, reporting whether it succeeded. -/
def op (full : σ → σ) (torn : Nat → σ → σ) : Prog σ Bool := .act full torn .ret

/-- An operation that changes nothing, such as opening or reading a file. -/
def look : Prog σ Bool := op id fun _ => id

/-- An operation whose effect takes place as a whole or not at all. -/
def atomic (f : σ → σ) : Prog σ Bool := op f fun n => if n = 0 then id else f

/-- Run under a script. Nothing else goes wrong once the script is used up. -/
def run : Prog σ α → σ → List Fate → Outcome σ α
  | .ret a, s, fs                      => .done a s fs
  | .read k, s, fs                     => (k s).run s fs
  | .write f k, s, fs                  => k.run (f s) fs
  | .act full _ k, s, []               => (k true).run (full s) []
  | .act full _ k, s, .ok :: fs        => (k true).run (full s) fs
  | .act _ torn k, s, .fail n :: fs    => (k false).run (torn n s) fs
  | .act _ torn _, s, .crash n :: _    => .halt (torn n s)

/-- The run in which nothing goes wrong. -/
def eval : Prog σ α → σ → α × σ
  | .ret a, s        => (a, s)
  | .read k, s       => (k s).eval s
  | .write f k, s    => k.eval (f s)
  | .act full _ k, s => (k true).eval (full s)

@[simp] lemma run_gets (f : σ → α) (s : σ) (fs : List Fate) :
    (gets f).run s fs = .done (f s) s fs := rfl

@[simp] lemma run_modify (f : σ → σ) (s : σ) (fs : List Fate) :
    (modify f).run s fs = .done () (f s) fs := rfl

@[simp] lemma run_look_ok (s : σ) (fs : List Fate) :
    (look : Prog σ Bool).run s (.ok :: fs) = .done true s fs := rfl

@[simp] lemma run_look_fail (s : σ) (n : Nat) (fs : List Fate) :
    (look : Prog σ Bool).run s (.fail n :: fs) = .done false s fs := rfl

lemma run_nil (p : Prog σ α) (s : σ) : p.run s [] = .done (p.eval s).1 (p.eval s).2 [] := by
  induction p generalizing s with
  | ret a => rfl
  | read k ih => exact ih s s
  | write f k ih => exact ih (f s)
  | act full torn k ih => exact ih true (full s)

/-- A run of a sequence goes on where its first part returned. -/
lemma run_bind (p : Prog σ α) (f : α → Prog σ β) (s : σ) (fs : List Fate) :
    (p >>= f).run s fs = match p.run s fs with
      | .done a s' rest => (f a).run s' rest
      | .halt s'        => .halt s' := by
  change (p.bind f).run s fs = _
  induction p generalizing s fs with
  | ret a => rfl
  | read k ih => exact ih s s fs
  | write g k ih => exact ih (g s) fs
  | act full torn k ih =>
    match fs with
    | [] => exact ih true (full s) []
    | .ok :: fs => exact ih true (full s) fs
    | .fail n :: fs => exact ih false (torn n s) fs
    | .crash n :: fs => rfl

section Eval

@[simp] lemma eval_pure (a : α) (s : σ) : (pure a : Prog σ α).eval s = (a, s) := rfl

@[simp] lemma eval_bind (p : Prog σ α) (f : α → Prog σ β) (s : σ) :
    (p >>= f).eval s = (f (p.eval s).1).eval (p.eval s).2 := by
  change (p.bind f).eval s = _
  induction p generalizing s with
  | ret a => rfl
  | read k ih => exact ih s s
  | write g k ih => exact ih (g s)
  | act full torn k ih => exact ih true (full s)

@[simp] lemma eval_gets (f : σ → α) (s : σ) : (gets f).eval s = (f s, s) := rfl

@[simp] lemma eval_modify (f : σ → σ) (s : σ) : (modify f).eval s = ((), f s) := rfl

@[simp] lemma eval_op (full : σ → σ) (torn : Nat → σ → σ) (s : σ) :
    (op full torn).eval s = (true, full s) := rfl

@[simp] lemma eval_look (s : σ) : (look : Prog σ Bool).eval s = (true, s) := rfl

@[simp] lemma eval_atomic (f : σ → σ) (s : σ) : (atomic f).eval s = (true, f s) := rfl

end Eval

/-! ### Parts of a state -/

/-- A part `τ` of a state `σ`. -/
structure Part (σ τ : Type) where
  get : σ → τ
  set : τ → σ → σ
  get_set : ∀ t s, get (set t s) = t
  set_set : ∀ t t' s, set t (set t' s) = set t s
  set_get : ∀ s, set (get s) s = s

/-- A program on a part of the state leaves the rest alone. -/
def zoom {τ : Type} (r : Part σ τ) : Prog τ α → Prog σ α
  | .ret a           => .ret a
  | .read k          => .read fun s => (k (r.get s)).zoom r
  | .write f k       => .write (fun s => r.set (f (r.get s)) s) (k.zoom r)
  | .act full torn k =>
    .act (fun s => r.set (full (r.get s)) s) (fun n s => r.set (torn n (r.get s)) s)
      fun b => (k b).zoom r

lemma eval_zoom {τ : Type} (r : Part σ τ) (p : Prog τ α) (s : σ) :
    (p.zoom r).eval s = ((p.eval (r.get s)).1, r.set (p.eval (r.get s)).2 s) := by
  induction p generalizing s with
  | ret a => simp [zoom, eval, r.set_get]
  | read k ih => exact ih (r.get s) s
  | write f k ih => simp [zoom, eval, ih, r.get_set, r.set_set]
  | act full torn k ih => simp [zoom, eval, ih, r.get_set, r.set_set]

lemma run_zoom {τ : Type} (r : Part σ τ) (p : Prog τ α) (s : σ) (fs : List Fate) :
    (p.zoom r).run s fs = match p.run (r.get s) fs with
      | .done a t rest => .done a (r.set t s) rest
      | .halt t        => .halt (r.set t s) := by
  induction p generalizing s fs with
  | ret a => simp [zoom, run, r.set_get]
  | read k ih => exact ih (r.get s) s fs
  | write f k ih => simp [zoom, run, ih, r.get_set, r.set_set]
  | act full torn k ih =>
    match fs with
    | [] => simp [zoom, run, ih, r.get_set, r.set_set]
    | .ok :: fs => simp [zoom, run, ih, r.get_set, r.set_set]
    | .fail n :: fs => simp [zoom, run, ih, r.get_set, r.set_set]
    | .crash n :: fs => rfl

/-! ### Programs that return errors -/

section Except

variable {ε : Type}

/-- The run of a program with errors in which nothing goes wrong. -/
def exec (p : ExceptT ε (Prog σ) α) (s : σ) : Except ε α × σ := Prog.eval p.run s

@[simp] lemma exec_pure (a : α) (s : σ) :
    exec (pure a : ExceptT ε (Prog σ) α) s = (.ok a, s) := rfl

@[simp] lemma exec_throw (e : ε) (s : σ) :
    exec (throw e : ExceptT ε (Prog σ) α) s = (.error e, s) := rfl

@[simp] lemma exec_bind (p : ExceptT ε (Prog σ) α) (f : α → ExceptT ε (Prog σ) β) (s : σ) :
    exec (p >>= f) s = match exec p s with
      | (.ok a, s')    => exec (f a) s'
      | (.error e, s') => (.error e, s') := by
  change Prog.eval (p.run >>= ExceptT.bindCont f) s = _
  rw [eval_bind]
  simp only [exec]
  rcases Prog.eval p.run s with ⟨r, s'⟩
  cases r <;> rfl

@[simp] lemma exec_lift (p : Prog σ α) (s : σ) :
    exec (liftM p : ExceptT ε (Prog σ) α) s = (.ok (p.eval s).1, (p.eval s).2) := by
  change Prog.eval (p >>= fun a => pure (Except.ok a)) s = _
  rw [eval_bind]
  rfl

@[simp] lemma exec_ite {c : Prop} [Decidable c] (p q : ExceptT ε (Prog σ) α) (s : σ) :
    exec (if c then p else q) s = if c then exec p s else exec q s := by
  split_ifs <;> rfl

/-- The run of a program with errors under a script. -/
def erun (p : ExceptT ε (Prog σ) α) (s : σ) (fs : List Fate) : Outcome σ (Except ε α) :=
  Prog.run p.run s fs

@[simp] lemma erun_pure (a : α) (s : σ) (fs : List Fate) :
    erun (pure a : ExceptT ε (Prog σ) α) s fs = .done (.ok a) s fs := rfl

@[simp] lemma erun_throw (e : ε) (s : σ) (fs : List Fate) :
    erun (throw e : ExceptT ε (Prog σ) α) s fs = .done (.error e) s fs := rfl

@[simp] lemma erun_bind (p : ExceptT ε (Prog σ) α) (f : α → ExceptT ε (Prog σ) β) (s : σ)
    (fs : List Fate) :
    erun (p >>= f) s fs = match erun p s fs with
      | .done (.ok a) s' rest    => erun (f a) s' rest
      | .done (.error e) s' rest => .done (.error e) s' rest
      | .halt s'                 => .halt s' := by
  change Prog.run (p.run >>= ExceptT.bindCont f) s fs = _
  rw [run_bind, erun]
  cases Prog.run p.run s fs with
  | done a s' rest => cases a <;> rfl
  | halt s' => rfl

@[simp] lemma erun_lift (p : Prog σ α) (s : σ) (fs : List Fate) :
    erun (liftM p : ExceptT ε (Prog σ) α) s fs = match p.run s fs with
      | .done a s' rest => .done (.ok a) s' rest
      | .halt s'        => .halt s' := by
  change Prog.run (p >>= fun a => pure (Except.ok a)) s fs = _
  rw [run_bind]
  rfl

end Except

end Prog

end Crash
