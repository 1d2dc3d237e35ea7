import AutoAttn.FileTransaction.Basic

/-!
# Replacement survives a loss of power at any point

`Phase` lists what storage can hold while a file `old` is being replaced by `new`. Every state in
which `ftReplace` or `ftRecover` can be interrupted is one of them, and recovery carries each of
them on to one of the two ends.
-/

namespace ZoneLite

open Crash

/-- The content is the one the checkpoint names. -/
def FtCheckpoint.names (cp : FtCheckpoint) (bytes : List UInt8) : Bool :=
  bytes.length = cp.length ∧ dqCrc32 bytes = cp.digest

/-- The three paths of a transaction. -/
structure FtPaths (κ : Type) where
  active : κ
  stage : κ
  backup : κ
  active_ne_stage : active ≠ stage
  active_ne_backup : active ≠ backup
  stage_ne_backup : stage ≠ backup

namespace FileTransaction

variable {κ ρ : Type}
variable {C : FtWorld κ ρ → Prop} {w : FtWorld κ ρ}

/-! ### What the helpers do -/

lemma digestLoop_eq (fuel : Nat) (bytes : List UInt8) (n : Nat) (crc : UInt32) (h : n ≤ fuel) :
    digestLoop fuel bytes n crc =
      if n ≤ bytes.length then some (extend crc (bytes.take n)) else none := by
  induction fuel generalizing bytes n crc with
  | zero =>
    obtain rfl : n = 0 := by omega
    simp [digestLoop, extend]
  | succ fuel ih =>
    cases n with
    | zero => simp [digestLoop, extend]
    | succ n =>
      simp only [digestLoop]
      split_ifs with h1 h2 h2
      · omega
      · rfl
      · rw [ih _ _ _ (by omega), if_pos (by simp; omega), extend_append, ← List.take_add]
        congr 3
        omega
      · rw [ih _ _ _ (by omega), if_neg (by simp; omega)]

/-- Reading a whole file in slices gives its checksum. -/
lemma digestLoop_length (bytes : List UInt8) :
    digestLoop bytes.length bytes bytes.length 0 = some (dqCrc32 bytes) := by
  rw [digestLoop_eq _ _ _ _ le_rfl, if_pos le_rfl, List.take_length, extend_zero]

lemma names_eq_digestLoop {cp : FtCheckpoint} {bytes : List UInt8} (h : bytes.length = cp.length) :
    (digestLoop cp.length bytes cp.length 0 == some cp.digest) = cp.names bytes := by
  rw [← h, digestLoop_length]
  by_cases hd : dqCrc32 bytes = cp.digest <;> simp [FtCheckpoint.names, h, hd]

@[simp] lemma wp_commit {Q : Bool → FtWorld κ ρ → Prop} (cp : FtCheckpoint) :
    (commit cp).wp Q C w ↔ Q true (w.onNv (cp :: ·)) ∧ (Q false w ∧ Q false (w.onNv (cp :: ·))) ∧
      C w ∧ C (w.onNv (cp :: ·)) := by
  simp [commit]

@[simp] lemma eval_commit (cp : FtCheckpoint) :
    (commit cp : Prog (FtWorld κ ρ) _).eval w = (true, w.onNv (cp :: ·)) := rfl

/-- What `load` makes of the checkpoints on storage. -/
def loaded : List FtCheckpoint → Option FtCheckpoint
  | []      => some .zero
  | cp :: _ => if ftCheckpointValid cp then some cp else none

lemma wp_load {Q : Option FtCheckpoint → FtWorld κ ρ → Prop} (h : Q (loaded w.nv) w)
    (hf : Q none w) (hc : C w) : (load : Prog (FtWorld κ ρ) _).wp Q C w := by
  cases hn : w.nv <;> simp_all [load, portLoad, loaded]

lemma eval_load : (load : Prog (FtWorld κ ρ) _).eval w = (loaded w.nv, w) := by
  cases hn : w.nv <;> simp [load, portLoad, loaded, hn]

/-- The checkpoint that names `new` in a phase. -/
def mark (new : List UInt8) (generation phase : Nat) : FtCheckpoint :=
  FtCheckpoint.checksummed ⟨1, generation, phase, new.length, dqCrc32 new, 0⟩

@[simp] lemma phase_mark (new : List UInt8) (g ph : Nat) : (mark new g ph).phase = ph := rfl

@[simp] lemma names_mark (new : List UInt8) (g ph : Nat) : (mark new g ph).names new = true := by
  simp [FtCheckpoint.names, mark, FtCheckpoint.checksummed]

lemma loaded_mark {new : List UInt8} {g ph : Nat} (hg : g ≠ 0) (hp : ph ≤ 2)
    (cps : List FtCheckpoint) : loaded (mark new g ph :: cps) = some (mark new g ph) := by
  simp [loaded, ftCheckpointValid, mark, FtCheckpoint.checksummed, FtCheckpoint.image, hg, hp]

lemma save_next (cp : FtCheckpoint) {new : List UInt8} (hl : cp.length = new.length)
    (hd : cp.digest = dqCrc32 new) (g ph : Nat) :
    FtCheckpoint.checksummed { cp with version := 1, generation := g, phase := ph } =
      mark new g ph := by
  simp [FtCheckpoint.checksummed, mark, FtCheckpoint.image, hl, hd]

lemma wp_save {Q : Option FtCheckpoint → FtWorld κ ρ → Prop} {cp : FtCheckpoint}
    {new : List UInt8} {g ph : Nat} (hgen : cp.generation = g) (hl : cp.length = new.length)
    (hd : cp.digest = dqCrc32 new)
    (hok : Q (some (mark new (g + 1) ph)) (w.onNv (mark new (g + 1) ph :: ·)))
    (hno : Q none w ∧ C w)
    (hlost : Q none (w.onNv (mark new (g + 1) ph :: ·)) ∧ C (w.onNv (mark new (g + 1) ph :: ·))) :
    (save cp ph).wp Q C w := by
  subst hgen
  simp only [save, save_next cp hl hd, Prog.wp_bind, wp_commit, Prog.wp_ite, Prog.wp_pure]
  refine ⟨fun _ => hno.1, fun _ => ⟨⟨fun _ => hok, by simp⟩, ?_, hno.2, hlost.2⟩⟩
  exact ⟨⟨by simp, fun _ => hno.1⟩, by simp, fun _ => hlost.1⟩

lemma eval_save {new : List UInt8} {g ph : Nat} (ph' : Nat) (hg : g < uint32Max) :
    (save (mark new g ph) ph').eval w =
      (some (mark new (g + 1) ph'), w.onNv (mark new (g + 1) ph' :: ·)) := by
  have hne : (mark new g ph).generation ≠ uint32Max := Nat.ne_of_lt hg
  simp only [save, hne, if_false, save_next (mark new g ph) rfl rfl, Prog.eval_bind,
    eval_commit, if_true, Prog.eval_pure]
  rfl

lemma nv_ne {cp : FtCheckpoint} {cps : List FtCheckpoint} (made : List FtCheckpoint)
    (h : w.nv = (cp :: made) ++ cps) : w.nv ≠ cps := by
  intro h'
  have := congrArg List.length (h.symm.trans h')
  simp only [List.cons_append, List.length_cons, List.length_append] at this
  omega

variable [DecidableEq κ]

@[simp] lemma wp_fileExists {Q : Option Bool → FtWorld κ ρ → Prop} (k : κ) :
    (fileExists k).wp Q C w ↔ Q (some (w.disk.lookup k).isSome) w ∧ Q none w ∧ C w := by
  simp [fileExists]

@[simp] lemma eval_fileExists (k : κ) :
    (fileExists k).eval w = (some (w.disk.lookup k).isSome, w) := by
  simp [fileExists]

/-- `matches` answers whether the checkpoint names the content, or fails to read it. -/
lemma wp_fileMatches {Q : Bool → FtWorld κ ρ → Prop} (k : κ) (cp : FtCheckpoint)
    (h : Q ((w.disk.lookup k).any fun f => cp.names f.bytes) w) (hf : Q false w) (hc : C w) :
    (fileMatches k cp true).wp Q C w := by
  cases hk : w.disk.lookup k with
  | none => simp_all [fileMatches, digest]
  | some f =>
    by_cases hl : f.bytes.length = cp.length
    · simp_all [fileMatches, digest, File.size, names_eq_digestLoop hl]
    · have hn : cp.names f.bytes = false := by simp [FtCheckpoint.names, hl]
      simp_all [fileMatches, digest, File.size]

lemma eval_fileMatches (k : κ) (cp : FtCheckpoint) :
    (fileMatches k cp true).eval w = ((w.disk.lookup k).any fun f => cp.names f.bytes, w) := by
  cases hk : w.disk.lookup k with
  | none => simp [fileMatches, hk]
  | some f =>
    by_cases hl : f.bytes.length = cp.length
    · simp [fileMatches, digest, File.size, hk, hl, names_eq_digestLoop hl]
    · simp [fileMatches, File.size, hk, hl, FtCheckpoint.names]

/-! ### The states a replacement goes through -/

/-- The generation of the checkpoint a replacement starts from. -/
def generationOf (cps : List FtCheckpoint) : Nat := (cps.head?.map FtCheckpoint.generation).getD 0

/-- The three files of a transaction. -/
structure Holds (p : FtPaths κ) (w : FtWorld κ ρ) (active stage backup : Option File) : Prop where
  active : w.disk.lookup p.active = active
  stage : w.disk.lookup p.stage = stage
  backup : w.disk.lookup p.backup = backup

/-- The new file is in place; a backup of the old one and a copy of the new one may be left. -/
structure Installed (p : FtPaths κ) (old : Option (List UInt8)) (new : List UInt8)
    (w : FtWorld κ ρ) : Prop where
  active : w.disk.lookup p.active = some (.synced new)
  backup : w.disk.lookup p.backup = none ∨ w.disk.lookup p.backup = old.map .synced
  stage : w.disk.lookup p.stage = none ∨ w.disk.lookup p.stage = some (.synced new)

/-- What storage holds while `old` is replaced by `new`, starting from the checkpoints `cps`. -/
inductive Phase (p : FtPaths κ) (old : Option (List UInt8)) (new : List UInt8)
    (cps : List FtCheckpoint) (w : FtWorld κ ρ) : Prop where
  | before (nv : w.nv = cps) (active : w.disk.lookup p.active = old.map .synced)
      (backup : w.disk.lookup p.backup = none)
  | moving (nv : w.nv = mark new (generationOf cps + 1) 1 :: cps)
      (files : Holds p w (old.map .synced) (some (.synced new)) none ∨
        Holds p w none (some (.synced new)) (old.map .synced) ∨
        Holds p w (some (.synced new)) none (old.map .synced))
  | installed (nv : w.nv = mark new (generationOf cps + 2) 2 ::
        mark new (generationOf cps + 1) 1 :: cps)
      (files : Installed p old new w)
  | after (nv : w.nv = mark new (generationOf cps + 3) 0 :: mark new (generationOf cps + 2) 2 ::
        mark new (generationOf cps + 1) 1 :: cps)
      (files : Holds p w (some (.synced new)) none none)

/-- The replacement is complete. -/
structure Finished (p : FtPaths κ) (new : List UInt8) (cps : List FtCheckpoint)
    (w : FtWorld κ ρ) : Prop where
  active : w.disk.lookup p.active = some (.synced new)
  stage : w.disk.lookup p.stage = none
  backup : w.disk.lookup p.backup = none
  nv : w.nv.length = cps.length + 3

variable {p : FtPaths κ} {old : Option (List UInt8)} {new : List UInt8} {cps : List FtCheckpoint}

/-! ### Retiring the old generation -/

lemma wp_removeBackup {Q : Bool → FtWorld κ ρ → Prop} (k : κ)
    (hok : ∀ w', (w' = w ∨ w' = w.onDisk fun d => d.erase k) → w'.disk.lookup k = none → Q true w')
    (hno : ∀ w', (w' = w ∨ w' = w.onDisk fun d => d.erase k) → Q false w' ∧ C w') :
    (removeBackup k).wp Q C w := by
  have h1 := hno w (.inl rfl)
  have h2 := hno _ (.inr rfl)
  have h3 := hok _ (.inr rfl) (AList.lookup_erase k w.disk)
  simp only [removeBackup, Prog.wp_bind, wp_fileExists]
  refine ⟨?_, by simpa using h1.1, h1.2⟩
  cases hk : w.disk.lookup k with
  | none => simpa using hok w (.inl rfl) hk
  | some f => simp [h1, h2, h3]

lemma wp_removeStage {Q : Bool → FtWorld κ ρ → Prop} (k : κ) (cp : FtCheckpoint)
    (hok : ∀ w', (w' = w ∨ w' = w.onDisk fun d => d.erase k) → w'.disk.lookup k = none → Q true w')
    (hno : ∀ w', (w' = w ∨ w' = w.onDisk fun d => d.erase k) → Q false w' ∧ C w') :
    (removeStage k cp).wp Q C w := by
  have h1 := hno w (.inl rfl)
  have h2 := hno _ (.inr rfl)
  have h3 := hok _ (.inr rfl) (AList.lookup_erase k w.disk)
  simp only [removeStage, Prog.wp_bind, wp_fileExists]
  refine ⟨?_, by simpa using h1.1, h1.2⟩
  cases hk : w.disk.lookup k with
  | none => simpa using hok w (.inl rfl) hk
  | some f =>
    simp only [Option.isSome_some, Bool.not_true, Bool.false_eq_true, if_false, Prog.wp_bind]
    refine wp_fileMatches _ _ ?_ (by simpa using h1.1) h1.2
    simp [h1, h2, h3]

lemma Installed.erase {k : κ} (h : Installed p old new w) (hk : p.active ≠ k)
    {w' : FtWorld κ ρ} (hw : w' = w ∨ w' = w.onDisk fun d => d.erase k) :
    Installed p old new w' := by
  rcases hw with rfl | rfl
  · exact h
  have keep : ∀ k', (AList.erase k w.disk).lookup k' = none ∨
      (AList.erase k w.disk).lookup k' = w.disk.lookup k' := by
    intro k'
    by_cases hk' : k' = k
    · subst hk'
      exact .inl (AList.lookup_erase _ _)
    · exact .inr (AList.lookup_erase_ne hk')
  refine ⟨(AList.lookup_erase_ne hk).trans h.active, ?_, ?_⟩
  · rcases keep p.backup with e | e
    · exact .inl e
    · simpa [e] using h.backup
  · rcases keep p.stage with e | e
    · exact .inl e
    · simpa [e] using h.stage

/-- From the moment the new file is recorded as installed. -/
lemma wp_retire
    (nv : w.nv = mark new (generationOf cps + 2) 2 :: mark new (generationOf cps + 1) 1 :: cps)
    (files : Installed p old new w) :
    (retire p.active p.stage p.backup (mark new (generationOf cps + 2) 2)).wp
      (fun r w => Phase p old new cps w ∧ (r = true → Finished p new cps w))
      (Phase p old new cps) w := by
  have hw : Phase p old new cps w := .installed nv files
  simp only [retire, Prog.wp_bind]
  refine wp_fileMatches _ _ ?_ (by simpa using hw) hw
  simp only [files.active, Option.any_some, File.bytes_synced, names_mark, Bool.not_true,
    Bool.false_eq_true, if_false, Prog.wp_bind]
  -- with or without the backup, and then the stage, the new file stays installed
  have hf₁ : ∀ w₁, (w₁ = w ∨ w₁ = w.onDisk fun d => d.erase p.backup) →
      Installed p old new w₁ ∧ Phase p old new cps w₁ := by
    intro w₁ hw₁
    have hf := files.erase p.active_ne_backup hw₁
    refine ⟨hf, .installed ?_ hf⟩
    rcases hw₁ with rfl | rfl <;> exact nv
  refine wp_removeBackup _ (fun w₁ hw₁ hb₁ => ?_) fun w₁ hw₁ => ?_
  swap
  · simpa using (hf₁ w₁ hw₁).2
  have nv₁ : w₁.nv = w.nv := by rcases hw₁ with rfl | rfl <;> rfl
  simp only [Bool.not_true, Bool.false_eq_true, if_false, Prog.wp_bind]
  have hf₂ : ∀ w₂, (w₂ = w₁ ∨ w₂ = w₁.onDisk fun d => d.erase p.stage) →
      Installed p old new w₂ ∧ Phase p old new cps w₂ := by
    intro w₂ hw₂
    have hf := (hf₁ w₁ hw₁).1.erase p.active_ne_stage hw₂
    refine ⟨hf, .installed ?_ hf⟩
    rcases hw₂ with rfl | rfl <;> exact nv₁.trans nv
  refine wp_removeStage _ _ (fun w₂ hw₂ hs₂ => ?_) fun w₂ hw₂ => ?_
  swap
  · simpa using (hf₂ w₂ hw₂).2
  have nv₂ : w₂.nv = w.nv := by rcases hw₂ with rfl | rfl <;> exact nv₁
  have hb₂ : w₂.disk.lookup p.backup = none := by
    rcases hw₂ with rfl | rfl
    · exact hb₁
    · exact (AList.lookup_erase_ne p.stage_ne_backup.symm).trans hb₁
  obtain ⟨hf, hp⟩ := hf₂ w₂ hw₂
  simp only [Bool.not_true, Bool.false_eq_true, if_false, Prog.wp_bind, Prog.wp_pure]
  have hend : Phase p old new cps (w₂.onNv (mark new (generationOf cps + 3) 0 :: ·)) :=
    .after (by simp [nv₂, nv]) ⟨hf.active, hs₂, hb₂⟩
  refine wp_save rfl rfl rfl ⟨hend, fun _ => ⟨hf.active, hs₂, hb₂, by simp [nv₂, nv]⟩⟩ ?_ ?_
  · exact ⟨⟨hp, by simp⟩, hp⟩
  · exact ⟨⟨hend, by simp⟩, hend⟩

/-! ### Moving the files -/

/-- The contents the checkpoint has to tell apart. -/
def Distinct (old : Option (List UInt8)) (new : List UInt8) : Prop :=
  ∀ o ∈ old, o.length = new.length → dqCrc32 o = dqCrc32 new → o = new

lemma Distinct.eq_of_names (h : Distinct old new) {o : List UInt8} (ho : old = some o) {g ph : Nat}
    (hn : (mark new g ph).names o = true) : o = new := by
  obtain ⟨hl, hd⟩ : o.length = new.length ∧ dqCrc32 o = dqCrc32 new := of_decide_eq_true hn
  exact h o ho hl hd

/-- What the phase 1 part of a recovery leaves. -/
def Moved (p : FtPaths κ) (old : Option (List UInt8)) (new : List UInt8) (cps : List FtCheckpoint)
    (r : Bool) (w : FtWorld κ ρ) : Prop :=
  Phase p old new cps w ∧
    (r = true → w.nv = mark new (generationOf cps + 1) 1 :: cps ∧ Installed p old new w)

lemma wp_moveStage (nv : w.nv = mark new (generationOf cps + 1) 1 :: cps)
    (files : Holds p w none (some (.synced new)) (old.map .synced)) :
    (rename p.stage p.active).wp (Moved p old new cps) (Phase p old new cps) w := by
  have hw : Phase p old new cps w := .moving nv (.inr (.inl files))
  have hfiles : Holds p (w.onDisk fun d => (d.erase p.stage).insert p.active (.synced new))
      (some (.synced new)) none (old.map .synced) := by
    refine ⟨AList.lookup_insert _, ?_, ?_⟩
    · exact (AList.lookup_insert_ne p.active_ne_stage.symm).trans (AList.lookup_erase _ _)
    · refine (AList.lookup_insert_ne p.active_ne_backup.symm).trans ?_
      exact (AList.lookup_erase_ne p.stage_ne_backup.symm).trans files.backup
  have hw' : Phase p old new cps
      (w.onDisk fun d => (d.erase p.stage).insert p.active (.synced new)) :=
    .moving nv (.inr (.inr hfiles))
  rw [wp_rename _ files.stage]
  refine ⟨⟨hw', fun _ => ⟨nv, hfiles.active, .inr hfiles.backup, .inl hfiles.stage⟩⟩, ?_, hw, hw'⟩
  exact ⟨⟨hw, by simp⟩, hw', by simp⟩

/-- Moving the old file to the backup leaves the stage to be moved. -/
lemma wp_moveOld {o : List UInt8} (nv : w.nv = mark new (generationOf cps + 1) 1 :: cps)
    (files : Holds p w (some (.synced o)) (some (.synced new)) none) :
    (do
      if !(← rename p.active p.backup) then return false
      rename p.stage p.active).wp (Moved p (some o) new cps) (Phase p (some o) new cps) w := by
  have hw : Phase p (some o) new cps w := .moving nv (.inl files)
  have hfiles : Holds p (w.onDisk fun d => (d.erase p.active).insert p.backup (.synced o))
      none (some (.synced new)) (some (.synced o)) := by
    refine ⟨?_, ?_, AList.lookup_insert _⟩
    · exact (AList.lookup_insert_ne p.active_ne_backup).trans (AList.lookup_erase _ _)
    · refine (AList.lookup_insert_ne p.stage_ne_backup).trans ?_
      exact (AList.lookup_erase_ne p.active_ne_stage.symm).trans files.stage
  have hw' : Phase p (some o) new cps
      (w.onDisk fun d => (d.erase p.active).insert p.backup (.synced o)) :=
    .moving nv (.inr (.inl hfiles))
  rw [Prog.wp_bind, wp_rename _ files.active]
  refine ⟨wp_moveStage nv hfiles, ?_, hw, hw'⟩
  exact ⟨⟨hw, by simp⟩, hw', by simp⟩

lemma wp_install (hcrc : Distinct old new) (nv : w.nv = mark new (generationOf cps + 1) 1 :: cps)
    (files : Holds p w (old.map .synced) (some (.synced new)) none ∨
      Holds p w none (some (.synced new)) (old.map .synced) ∨
      Holds p w (some (.synced new)) none (old.map .synced)) :
    (install p.active p.stage p.backup (mark new (generationOf cps + 1) 1)
      (w.disk.lookup p.active).isSome (w.disk.lookup p.backup).isSome).wp
      (Moved p old new cps) (Phase p old new cps) w := by
  have hw : Phase p old new cps w := .moving nv files
  have stay : Moved p old new cps false w := ⟨hw, by simp⟩
  -- when the active file is not there, the stage is what the checkpoint names
  have absent : ∀ b : Bool, Holds p w none (some (.synced new)) (old.map .synced) →
      (install p.active p.stage p.backup (mark new (generationOf cps + 1) 1) false b).wp
        (Moved p old new cps) (Phase p old new cps) w := by
    intro b h
    have hmove := wp_moveStage nv h
    simp only [install, Prog.wp_bind]
    refine wp_fileMatches _ _ ?_ ?_ hw
    all_goals
      simp only [h.active, Option.any_none, Bool.false_eq_true, if_false, Prog.wp_bind]
      refine wp_fileMatches _ _ ?_ (by simpa using stay) hw
      simpa [h.stage] using hmove
  rcases files with h | h | h
  · cases old with
    | none => simpa [h.active, h.backup] using absent false ⟨h.active, h.stage, h.backup⟩
    | some o =>
      simp only [Option.map_some] at h
      have hmove := wp_moveOld nv h
      have differ : (do
          if !(← fileMatches p.stage (mark new (generationOf cps + 1) 1) true) then return false
          if !(← rename p.active p.backup) then return false
          rename p.stage p.active).wp
            (Moved p (some o) new cps) (Phase p (some o) new cps) w := by
        rw [Prog.wp_bind]
        refine wp_fileMatches _ _ ?_ (by simpa using stay) hw
        simpa [h.stage] using hmove
      simp only [install, h.active, h.backup, Option.isSome_some, Option.isSome_none,
        Bool.and_false, Bool.false_eq_true, if_false, if_true, Prog.wp_bind]
      refine wp_fileMatches _ _ ?_ (by simpa using differ) hw
      simp only [h.active, Option.any_some, File.bytes_synced, Prog.wp_ite]
      refine ⟨fun hn => ?_, fun _ => by simpa using differ⟩
      obtain rfl := hcrc.eq_of_names rfl hn
      exact ⟨hw, fun _ => ⟨nv, h.active, .inl h.backup, .inr h.stage⟩⟩
  · simpa [h.active] using absent _ h
  · simp only [install, Prog.wp_bind]
    refine wp_fileMatches _ _ ?_ ?_ hw
    · simpa [h.active] using ⟨hw, fun _ => ⟨nv, h.active, .inr h.backup, .inl h.stage⟩⟩
    · simp only [Bool.false_eq_true, if_false, Prog.wp_bind]
      refine wp_fileMatches _ _ ?_ (by simpa using stay) hw
      simpa [h.stage] using stay

/-! ### Recovery -/

/-- With an idle checkpoint and no backup, recovery changes nothing. -/
lemma wp_ftRecover_idle {cp : FtCheckpoint} (hcp : loaded w.nv = some cp) (hphase : cp.phase = 0)
    (hb : w.disk.lookup p.backup = none) :
    (ftRecover p.active p.stage p.backup).wp (fun _ w' => w' = w) (· = w) w := by
  simp only [ftRecover, Prog.wp_bind]
  refine wp_load ?_ rfl rfl
  simp [hcp, hphase, hb]

lemma wp_ftRecover_installed 
    (nv : w.nv = mark new (generationOf cps + 2) 2 :: mark new (generationOf cps + 1) 1 :: cps)
    (files : Installed p old new w) :
    (ftRecover p.active p.stage p.backup).wp
      (fun r w => Phase p old new cps w ∧ (r = true → Finished p new cps w))
      (Phase p old new cps) w := by
  have hw : Phase p old new cps w := .installed nv files
  simp only [ftRecover, Prog.wp_bind]
  refine wp_load ?_ ⟨hw, by simp⟩ hw
  rw [nv, loaded_mark (by omega) le_rfl]
  simpa [hw] using wp_retire nv files

lemma wp_ftRecover_moving (hcrc : Distinct old new)
    (nv : w.nv = mark new (generationOf cps + 1) 1 :: cps)
    (files : Holds p w (old.map .synced) (some (.synced new)) none ∨
      Holds p w none (some (.synced new)) (old.map .synced) ∨
      Holds p w (some (.synced new)) none (old.map .synced)) :
    (ftRecover p.active p.stage p.backup).wp
      (fun r w => Phase p old new cps w ∧ (r = true → Finished p new cps w))
      (Phase p old new cps) w := by
  have hw : Phase p old new cps w := .moving nv files
  simp only [ftRecover, Prog.wp_bind]
  refine wp_load ?_ ⟨hw, by simp⟩ hw
  rw [nv, loaded_mark (by omega) (by omega)]
  simp only [Prog.wp_bind, wp_fileExists, phase_mark, one_ne_zero, if_false, if_true]
  have fail : Phase p old new cps w ∧ (false = true → Finished p new cps w) := ⟨hw, by simp⟩
  refine ⟨⟨?_, by simpa using fail, hw⟩, by simpa using fail, hw⟩
  refine Prog.wp_mono (wp_install hcrc nv files) ?_ fun _ => id
  rintro (_ | _) w₁ ⟨hw₁, hmoved⟩
  · exact ⟨hw₁, by simp⟩
  obtain ⟨nv₁, files₁⟩ := hmoved rfl
  have nv₂ : (w₁.onNv (mark new (generationOf cps + 2) 2 :: ·)).nv =
      mark new (generationOf cps + 2) 2 :: mark new (generationOf cps + 1) 1 :: cps := by
    simp [nv₁]
  have files₂ : Installed p old new (w₁.onNv (mark new (generationOf cps + 2) 2 :: ·)) :=
    ⟨files₁.active, files₁.backup, files₁.stage⟩
  have hw₂ : Phase p old new cps (w₁.onNv (mark new (generationOf cps + 2) 2 :: ·)) :=
    .installed nv₂ files₂
  simp only [Bool.not_true, Bool.false_eq_true, if_false, Prog.wp_bind]
  refine wp_save rfl rfl rfl ?_ ⟨⟨hw₁, by simp⟩, hw₁⟩ ⟨⟨hw₂, by simp⟩, hw₂⟩
  exact wp_retire nv₂ files₂

/-- Nothing was decided and `old` is in place, or the replacement is complete. -/
def Ended (p : FtPaths κ) (old : Option (List UInt8)) (new : List UInt8)
    (cps : List FtCheckpoint) (w : FtWorld κ ρ) : Prop :=
  (w.nv = cps ∧ w.disk.lookup p.active = old.map .synced ∧ w.disk.lookup p.backup = none) ∨
    Finished p new cps w

/-- The checkpoints a replacement starts from. -/
def Idle (cps : List FtCheckpoint) : Prop := ∃ cp, loaded cps = some cp ∧ cp.phase = 0

lemma wp_ftRecover (hidle : Idle cps) 
    (hcrc : Distinct old new) (hw : Phase p old new cps w) :
    (ftRecover p.active p.stage p.backup).wp
      (fun r w => Phase p old new cps w ∧ (r = true → Ended p old new cps w))
      (Phase p old new cps) w := by
  cases hw with
  | before nv active backup =>
    obtain ⟨cp, hcp, hphase⟩ := hidle
    have hw : Phase p old new cps w := .before nv active backup
    refine Prog.wp_mono (wp_ftRecover_idle (nv ▸ hcp) hphase backup) ?_ (by rintro _ rfl; exact hw)
    rintro r _ rfl
    exact ⟨hw, fun _ => .inl ⟨nv, active, backup⟩⟩
  | moving nv files =>
    refine Prog.wp_mono (wp_ftRecover_moving hcrc nv files) ?_ fun _ => id
    exact fun _ _ h => ⟨h.1, fun hr => .inr (h.2 hr)⟩
  | installed nv files =>
    refine Prog.wp_mono (wp_ftRecover_installed nv files) ?_ fun _ => id
    exact fun _ _ h => ⟨h.1, fun hr => .inr (h.2 hr)⟩
  | after nv files =>
    have hw : Phase p old new cps w := .after nv files
    have hcp : loaded w.nv = some (mark new (generationOf cps + 3) 0) := by
      rw [nv, loaded_mark (by omega) (by omega)]
    refine Prog.wp_mono (wp_ftRecover_idle hcp rfl files.backup) ?_ (by rintro _ rfl; exact hw)
    rintro r _ rfl
    exact ⟨hw, fun _ => .inr ⟨files.active, files.stage, files.backup, by simp [nv]⟩⟩

lemma generation_of_loaded {cp : FtCheckpoint} (h : loaded cps = some cp) :
    cp.generation = generationOf cps := by
  cases cps with
  | nil => simp_all [loaded, generationOf, FtCheckpoint.zero]; grind
  | cons c cps =>
    simp only [loaded] at h
    split_ifs at h
    simp_all [generationOf]

lemma wp_digest {Q : Option UInt32 → FtWorld κ ρ → Prop} {k : κ} {f : File}
    (hk : w.disk.lookup k = some f) (h : Q (some (dqCrc32 f.bytes)) w) (hf : Q none w) (hc : C w) :
    (digest k f.size).wp Q C w := by
  simp [digest, hk, File.size, digestLoop_length, h, hf, hc]

section Replace

variable (hidle : Idle cps) (hcrc : Distinct old new)
  (nv : w.nv = cps) (active : w.disk.lookup p.active = old.map .synced)
  (backup : w.disk.lookup p.backup = none)
  (stage : (w.disk.lookup p.stage).map File.bytes = some new)

include hidle hcrc nv active backup stage

/-- Naming the stage in the checkpoint and installing it. -/
lemma wp_promote (limit : Nat) :
    (promote p.active p.stage p.backup limit).wp
      (fun r w => Phase p old new cps w ∧ (r = true → Finished p new cps w))
      (Phase p old new cps) w := by
  have hw : Phase p old new cps w := .before nv active backup
  have fail : Phase p old new cps w ∧ (false = true → Finished p new cps w) := ⟨hw, by simp⟩
  obtain ⟨cp, hcp, hphase⟩ := hidle
  obtain ⟨f, hf, rfl⟩ := Option.map_eq_some_iff.1 stage
  -- the state once the stage is synchronised
  set w₁ := w.onDisk fun d => d.update p.stage File.sync with hw₁
  have stage₁ : w₁.disk.lookup p.stage = some (.synced f.bytes) := by
    simp [hw₁, hf, File.sync]
  have active₁ : w₁.disk.lookup p.active = old.map .synced :=
    (Disk.lookup_update_ne p.active_ne_stage _ _).trans active
  have backup₁ : w₁.disk.lookup p.backup = none :=
    (Disk.lookup_update_ne p.stage_ne_backup.symm _ _).trans backup
  have before₁ : Phase p old f.bytes cps w₁ := .before nv active₁ backup₁
  have fail₁ : Phase p old f.bytes cps w₁ ∧ (false = true → Finished p f.bytes cps w₁) :=
    ⟨before₁, by simp⟩
  simp only [promote, Prog.wp_bind]
  refine wp_load ?_ fail hw
  simp only [nv, hcp]
  simp [hf, fsync, ← hw₁, hw, before₁]
  intro _ _
  rw [show f.size = (File.synced f.bytes).size from rfl]
  refine wp_digest stage₁ ?_ fail₁ before₁
  -- the checkpoint that names the new content
  have moving₁ : Holds p (w₁.onNv (mark f.bytes (generationOf cps + 1) 1 :: ·))
      (old.map .synced) (some (.synced f.bytes)) none := ⟨active₁, stage₁, backup₁⟩
  have nv₂ : (w₁.onNv (mark f.bytes (generationOf cps + 1) 1 :: ·)).nv =
      mark f.bytes (generationOf cps + 1) 1 :: cps := congrArg _ nv
  have hw₂ : Phase p old f.bytes cps (w₁.onNv (mark f.bytes (generationOf cps + 1) 1 :: ·)) :=
    .moving nv₂ (.inl moving₁)
  simp only [Prog.wp_bind]
  have hgen : cp.generation = generationOf cps := generation_of_loaded hcp
  refine wp_save hgen rfl rfl ?_ ⟨fail₁, before₁⟩ ⟨⟨hw₂, by simp⟩, hw₂⟩
  exact wp_ftRecover_moving hcrc nv₂ (.inl moving₁)

/-- A replacement goes through the phases, and is complete when it returns true. -/
lemma wp_ftReplace (limit : Nat) :
    (ftReplace p.active p.stage p.backup limit).wp
      (fun r w => Phase p old new cps w ∧ (r = true → Finished p new cps w))
      (Phase p old new cps) w := by
  have hw : Phase p old new cps w := .before nv active backup
  have fail : Phase p old new cps w ∧ (false = true → Finished p new cps w) := ⟨hw, by simp⟩
  have hpromote := wp_promote hidle hcrc nv active backup stage limit
  obtain ⟨cp, hcp, hphase⟩ := hidle
  -- whichever way it goes, the first half changes nothing
  have hrecover : (ftRecover p.active p.stage p.backup).wp
      (fun r w => (r = false → Phase p old new cps w) ∧ (r = true →
        (promote p.active p.stage p.backup limit).wp
          (fun r w => Phase p old new cps w ∧ (r = true → Finished p new cps w))
          (Phase p old new cps) w)) (Phase p old new cps) w := by
    refine Prog.wp_mono (wp_ftRecover_idle (nv ▸ hcp) hphase backup) ?_ (by rintro _ rfl; exact hw)
    rintro r _ rfl
    exact ⟨fun _ => hw, fun _ => hpromote⟩
  simp only [ftReplace, Prog.wp_bind]
  refine wp_load ?_ fail hw
  simp [firstGeneration, nv, hcp, hphase, backup, hw, hpromote, hrecover]

end Replace

/-! ### Recovery when nothing goes wrong -/

lemma eval_removeBackup (k : κ) :
    ∃ w', (removeBackup k).eval w = (true, w') ∧ (w' = w ∨ w' = w.onDisk fun d => d.erase k) := by
  cases h : w.disk.lookup k with
  | none => exact ⟨w, by simp [removeBackup, h], .inl rfl⟩
  | some f => exact ⟨_, by simp [removeBackup, h], .inr rfl⟩

lemma eval_retire {g : Nat} (hg : g < uint32Max) (files : Installed p old new w) :
    ((retire p.active p.stage p.backup (mark new g 2)).eval w).1 = true := by
  obtain ⟨w₁, h₁, hw₁⟩ := eval_removeBackup (w := w) p.backup
  have files₁ := files.erase p.active_ne_backup hw₁
  have hstage : ((removeStage p.stage (mark new g 2)).eval w₁).1 = true := by
    rcases files₁.stage with h | h <;> simp [removeStage, eval_fileMatches, h]
  simp [retire, eval_fileMatches, files.active, h₁, hstage, eval_save _ hg]

lemma eval_install (files : Holds p w (old.map .synced) (some (.synced new)) none ∨
      Holds p w none (some (.synced new)) (old.map .synced) ∨
      Holds p w (some (.synced new)) none (old.map .synced)) (g : Nat) :
    ((install p.active p.stage p.backup (mark new g 1)
      (w.disk.lookup p.active).isSome (w.disk.lookup p.backup).isSome).eval w).1 = true := by
  have absent : ∀ b : Bool, Holds p w none (some (.synced new)) (old.map .synced) →
      ((install p.active p.stage p.backup (mark new g 1) false b).eval w).1 = true := by
    intro b h
    simp [install, eval_fileMatches, h.active, h.stage, eval_rename _ h.stage]
  rcases files with h | h | h
  · cases old with
    | none => simpa [h.active, h.backup] using absent false ⟨h.active, h.stage, h.backup⟩
    | some o =>
      have hstage : (w.onDisk fun d => (d.erase p.active).insert p.backup (.synced o)).disk.lookup
          p.stage = some (.synced new) := by
        refine (AList.lookup_insert_ne p.stage_ne_backup).trans ?_
        exact (AList.lookup_erase_ne p.active_ne_stage.symm).trans h.stage
      by_cases hn : (mark new g 1).names o = true
      · simp [install, eval_fileMatches, h.active, hn]
      · simp [install, eval_fileMatches, h.active, h.stage, h.backup, hn, eval_rename _ h.active,
          eval_rename _ hstage]
  · simpa [h.active] using absent _ h
  · simp [install, eval_fileMatches, h.active]

/-- Recovery succeeds unless a first generation was staged and never named. -/
lemma eval_ftRecover (hidle : Idle cps) (hg : generationOf cps + 2 < uint32Max)
    (hcrc : Distinct old new) (hw : Phase p old new cps w) :
    ((ftRecover p.active p.stage p.backup).eval w).1 = true ↔
      ¬(old = none ∧ w.nv = cps ∧ (w.disk.lookup p.stage).isSome) := by
  cases hw with
  | before nv active backup =>
    obtain ⟨cp, hcp, hphase⟩ := hidle
    cases old <;> simp [ftRecover, eval_load, nv, hcp, hphase, active, backup]
  | moving nv files =>
    obtain ⟨-, hmoved⟩ := Prog.wp_eval (wp_install hcrc nv files)
    have hinstall := eval_install files (generationOf cps + 1)
    obtain ⟨-, files₁⟩ := hmoved hinstall
    have hne : w.nv ≠ cps := nv_ne [] nv
    have hload : loaded w.nv = some (mark new (generationOf cps + 1) 1) := by
      rw [nv, loaded_mark (by omega) (by omega)]
    refine iff_of_true ?_ fun h => hne h.2.1
    simp only [ftRecover, Prog.eval_bind, eval_load, hload, eval_fileExists, phase_mark,
      one_ne_zero, if_false, if_true, hinstall, Bool.not_true, Bool.false_eq_true,
      eval_save _ (Nat.lt_of_succ_lt hg)]
    exact eval_retire hg ⟨files₁.active, files₁.backup, files₁.stage⟩
  | installed nv files =>
    have hne : w.nv ≠ cps := nv_ne [_] nv
    have hload : loaded w.nv = some (mark new (generationOf cps + 2) 2) := by
      rw [nv, loaded_mark (by omega) (by omega)]
    refine iff_of_true ?_ fun h => hne h.2.1
    simpa [ftRecover, eval_load, hload] using eval_retire hg files
  | after nv files =>
    have hne : w.nv ≠ cps := nv_ne [_, _] nv
    have hload : loaded w.nv = some (mark new (generationOf cps + 3) 0) := by
      rw [nv, loaded_mark (by omega) (by omega)]
    refine iff_of_true ?_ fun h => hne h.2.1
    simp [ftRecover, eval_load, hload, files.active, files.backup]

/-! ### Every run -/

/-- What storage holds at some instant after a replacement was started in `w₀`: power may be lost
anywhere, and recovery is run any number of times. -/
inductive Reach (p : FtPaths κ) (limit : Nat) (w₀ : FtWorld κ Unit) : FtWorld κ Unit → Prop where
  | start : Reach p limit w₀ w₀
  | replace (fs : List Fate) :
      Reach p limit w₀ ((ftReplace p.active p.stage p.backup limit).run w₀ fs).state
  | recover {w : FtWorld κ Unit} (h : Reach p limit w₀ w) (fs : List Fate) :
      Reach p limit w₀ ((ftRecover p.active p.stage p.backup).run w fs).state
  | reset {w : FtWorld κ Unit} (h : Reach p limit w₀ w) (junk : κ → List UInt8) :
      Reach p limit w₀ (w.reset junk ())

/-- A checkpoint of phase 1 or 2 that names `new` has reached storage since `w₀`. -/
def Committed (w₀ : FtWorld κ ρ) (new : List UInt8) (w : FtWorld κ ρ) : Prop :=
  ∃ made, w.nv = made ++ w₀.nv ∧ ∃ cp ∈ made, 1 ≤ cp.phase ∧ cp.names new = true

lemma lookup_reset {r : ρ} {k : κ} {o : Option (List UInt8)} (junk : κ → List UInt8)
    (h : w.disk.lookup k = o.map .synced) : (w.reset junk r).disk.lookup k = o.map .synced := by
  change (w.disk.reboot junk).lookup k = _
  rw [Disk.lookup_reboot, h]
  cases o <;> rfl

/-- Losing power does not change the phase. -/
lemma Phase.reset {r : ρ} (h : Phase p old new cps w) (junk : κ → List UInt8) :
    Phase p old new cps (w.reset junk r) := by
  have absent : ∀ {k}, w.disk.lookup k = none → (w.reset junk r).disk.lookup k = none :=
    fun h => lookup_reset (o := none) junk h
  have present : ∀ {k b}, w.disk.lookup k = some (.synced b) →
      (w.reset junk r).disk.lookup k = some (.synced b) :=
    fun h => lookup_reset (o := some _) junk h
  cases h with
  | before nv active backup => exact .before nv (lookup_reset junk active) (absent backup)
  | moving nv files =>
    refine .moving nv ?_
    rcases files with h | h | h
    · exact .inl ⟨lookup_reset junk h.active, present h.stage, absent h.backup⟩
    · exact .inr (.inl ⟨absent h.active, present h.stage, lookup_reset junk h.backup⟩)
    · exact .inr (.inr ⟨present h.active, absent h.stage, lookup_reset junk h.backup⟩)
  | installed nv files =>
    exact .installed nv ⟨present files.active,
      files.backup.imp absent (lookup_reset junk), files.stage.imp absent present⟩
  | after nv files =>
    exact .after nv ⟨present files.active, absent files.stage, absent files.backup⟩

lemma Phase.committed_iff {w₀ w : FtWorld κ ρ} (h : Phase p old new w₀.nv w) :
    Committed w₀ new w ↔ w.nv ≠ w₀.nv := by
  constructor
  · rintro ⟨made, hnv, cp, hcp, -⟩ h
    rw [hnv] at h
    simp_all
  · intro hne
    cases h with
    | before nv => exact absurd nv hne
    | moving nv => exact ⟨[_], nv, _, List.mem_singleton_self _, le_rfl, names_mark _ _ _⟩
    | installed nv =>
      exact ⟨[_, _], nv, _, List.mem_cons_self, one_le_two, names_mark _ _ _⟩
    | after nv =>
      exact ⟨[_, _, _], nv, _, List.mem_cons_of_mem _ List.mem_cons_self, one_le_two,
        names_mark _ _ _⟩

/-- Until the replacement is committed and in place, one of the three files holds `old`. -/
lemma Phase.holds_old {w₀ w : FtWorld κ ρ} (h : Phase p old new w₀.nv w) :
    (∀ o ∈ old, ∃ k ∈ [p.active, p.backup, p.stage], w.disk.lookup k = some (.synced o)) ∨
      (w.disk.lookup p.active = some (.synced new) ∧ Committed w₀ new w) := by
  have hc := h.committed_iff
  cases h with
  | before nv active backup => exact .inl fun o ho => ⟨p.active, by simp, by simp_all⟩
  | moving nv files =>
    rcases files with h | h | h
    · exact .inl fun o ho => ⟨p.active, by simp, by simp_all [h.active]⟩
    · exact .inl fun o ho => ⟨p.backup, by simp, by simp_all [h.backup]⟩
    · exact .inr ⟨h.active, hc.2 (nv_ne [] nv)⟩
  | installed nv files => exact .inr ⟨files.active, hc.2 (nv_ne [_] nv)⟩
  | after nv files => exact .inr ⟨files.active, hc.2 (nv_ne [_, _] nv)⟩

/-- What a replacement may start from: an idle checkpoint, `old` or nothing in place, no backup,
and `new` staged. -/
structure Start (p : FtPaths κ) (old : Option (List UInt8)) (new : List UInt8)
    (w : FtWorld κ ρ) : Prop where
  idle : Idle w.nv
  active : w.disk.lookup p.active = old.map .synced
  backup : w.disk.lookup p.backup = none
  stage : (w.disk.lookup p.stage).map File.bytes = some new

lemma Reach.phase {w₀ w : FtWorld κ Unit} {limit : Nat} (h₀ : Start p old new w₀)
    (hcrc : Distinct old new) (h : Reach p limit w₀ w) : Phase p old new w₀.nv w := by
  induction h with
  | start => exact .before rfl h₀.active h₀.backup
  | replace fs =>
    have := wp_ftReplace h₀.idle hcrc rfl h₀.active h₀.backup h₀.stage limit
    exact Prog.wp_run_state (Prog.wp_mono this (fun _ _ h => h.1) fun _ => id) fs
  | recover _ fs ih =>
    have := wp_ftRecover h₀.idle hcrc ih
    exact Prog.wp_run_state (Prog.wp_mono this (fun _ _ h => h.1) fun _ => id) fs
  | reset _ junk ih => exact ih.reset junk

/-- Replacement is atomic. At every instant `old` is held in full until `new` is in place and
committed; a recovery that returns true leaves `old` or, once committed, `new`, and no backup;
and a recovery that is not interrupted returns true while the generation counter has room, except
that a first generation that was staged and not committed is left for its owner to decide. -/
theorem ftReplace_crash_atomic {w₀ w : FtWorld κ Unit} {limit : Nat} (h₀ : Start p old new w₀)
    (hcrc : Distinct old new) (h : Reach p limit w₀ w) :
    ((∀ o ∈ old, ∃ k ∈ [p.active, p.backup, p.stage], w.disk.lookup k = some (.synced o)) ∨
      (w.disk.lookup p.active = some (.synced new) ∧ Committed w₀ new w)) ∧
    (∀ fs w' rest, (ftRecover p.active p.stage p.backup).run w fs = .done true w' rest →
      (w'.disk.lookup p.active = old.map .synced ∨
        w'.disk.lookup p.active = some (.synced new)) ∧
      (Committed w₀ new w' → w'.disk.lookup p.active = some (.synced new)) ∧
      w'.disk.lookup p.backup = none) ∧
    (generationOf w₀.nv + 3 ≤ uint32Max →
      (((ftRecover p.active p.stage p.backup).eval w).1 = true ↔
        ¬(old = none ∧ ¬Committed w₀ new w ∧ (w.disk.lookup p.stage).isSome))) := by
  have hw := h.phase h₀ hcrc
  refine ⟨hw.holds_old, ?_, ?_⟩
  · intro fs w' rest hrun
    have := Prog.wp_run (wp_ftRecover h₀.idle hcrc hw) fs
    rw [hrun] at this
    obtain ⟨hw', hended⟩ := this
    rcases hended rfl with ⟨nv, active, backup⟩ | hfin
    · exact ⟨.inl active, fun hc => absurd nv (hw'.committed_iff.1 hc), backup⟩
    · exact ⟨.inr hfin.active, fun _ => hfin.active, hfin.backup⟩
  · intro room
    rw [eval_ftRecover h₀.idle room hcrc hw, hw.committed_iff, not_not]

/-! ### Runs -/

def threePaths : FtPaths (Fin 3) where
  active := 0
  stage := 1
  backup := 2
  active_ne_stage := by decide
  active_ne_backup := by decide
  stage_ne_backup := by decide

/-- Storage with `[2]` staged over `old`. -/
def staged (old : Option (List UInt8)) (cps : List FtCheckpoint) : FtWorld (Fin 3) Unit where
  disk := (old.elim ∅ fun o => AList.insert 0 (.synced o) ∅).insert 1 (.synced [2])
  nv := cps
  ram := ()

lemma start_staged : Start threePaths (some [1]) [2] (staged (some [1]) []) where
  idle := ⟨.zero, rfl, rfl⟩
  active := by decide
  backup := by decide
  stage := by decide

lemma distinct_staged : Distinct (some [1]) [2] := by
  rintro o ⟨⟩ - h
  exact absurd h (by decide +kernel)

/-- Power is lost as phase 1 reaches storage; recovery then goes on. -/
theorem ftReplace_crash_atomic_staged :
    ((ftRecover 0 1 2).eval ((ftReplace (0 : Fin 3) 1 2 16).run (staged (some [1]) [])
      (List.replicate 11 .ok ++ [.crash 1])).state).1 = true := by
  have hreach : Reach threePaths 16 (staged (some [1]) []) _ :=
    .replace (List.replicate 11 .ok ++ [.crash 1])
  have h := (ftReplace_crash_atomic start_staged distinct_staged hreach).2.2 (by decide)
  exact h.2 (by simp)

/-- Recovery alone does not promote a first generation that was staged and not committed, and
cannot go on when the generation counter is used up. -/
theorem ftRecover_not_total :
    (∃ w, Reach threePaths 16 (staged none []) w ∧
      ((ftRecover 0 1 2).eval w).1 = false) ∧
    ∃ w, Reach threePaths 16 (staged (some [1]) [mark [1] (uint32Max - 1) 0]) w ∧
      ((ftRecover 0 1 2).eval w).1 = false := by
  refine ⟨⟨_, .reset (.replace (List.replicate 3 .ok ++ [.crash 0])) (fun _ => []), ?_⟩, ?_⟩
  · decide +kernel
  · exact ⟨_, .replace [], by decide +kernel⟩

end FileTransaction

end ZoneLite
