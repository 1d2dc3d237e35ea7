import Mathlib.Data.List.AList
import AutoAttn.Bytes
import AutoAttn.Crash.Logic

/-!
# Files that lose what was not synchronised

A file remembers how much of its content is on storage for sure. A write past that point, a
truncation or a creation is loose until the next synchronisation; when power is lost, the loose
part is replaced by whatever the storage happened to hold, and the rest is unchanged.
-/

namespace Crash

open Bytes

/-- A file. `loose` is `none` when all of it is on storage, and otherwise the number of leading
bytes that are. -/
structure File where
  bytes : List UInt8
  loose : Option Nat
  loose_le : ∀ n ∈ loose, n ≤ bytes.length
deriving DecidableEq

namespace File

def size (f : File) : Nat := f.bytes.length

/-- How many leading bytes are on storage for sure. -/
def stable (f : File) : Nat := f.loose.getD f.bytes.length

def synced (bytes : List UInt8) : File := ⟨bytes, none, by simp⟩

/-- A file just created or truncated. -/
def fresh : File := ⟨[], some 0, by simp⟩

/-- Overwrite from `off` on. Seeking past the end leaves a hole of zeros. -/
def write (off : Nat) (data : List UInt8) (f : File) : File where
  bytes := (f.bytes.take off).rightpad off 0 ++ data ++ f.bytes.drop (off + data.length)
  loose := some (min f.stable off)
  loose_le := by
    simp only [Option.mem_def, Option.some.injEq, List.append_assoc, List.length_append]
    rintro n rfl
    have : off ≤ ((f.bytes.take off).rightpad off 0).length := by
      simp only [List.rightpad, List.length_append, List.length_replicate, List.length_take]
      omega
    omega

def sync (f : File) : File := synced f.bytes

/-- The file after power was lost, `junk` being what storage holds beyond the stable part. -/
def reboot (junk : List UInt8) (f : File) : File :=
  match f.loose with
  | none   => f
  | some n => synced (f.bytes.take n ++ junk)

lemma stable_le (f : File) : f.stable ≤ f.bytes.length := by
  unfold stable
  cases h : f.loose with
  | none => simp
  | some n => exact f.loose_le n h

@[simp] lemma bytes_synced (b : List UInt8) : (synced b).bytes = b := rfl

@[simp] lemma stable_synced (b : List UInt8) : (synced b).stable = b.length := rfl

@[simp] lemma bytes_sync (f : File) : f.sync.bytes = f.bytes := rfl

@[simp] lemma stable_sync (f : File) : f.sync.stable = f.bytes.length := rfl

@[simp] lemma bytes_fresh : fresh.bytes = [] := rfl

@[simp] lemma reboot_synced (junk b : List UInt8) : (synced b).reboot junk = synced b := rfl

@[simp] lemma stable_write (off : Nat) (d : List UInt8) (f : File) :
    (f.write off d).stable = min f.stable off := rfl

lemma bytes_write {off : Nat} (d : List UInt8) {f : File} (h : off ≤ f.bytes.length) :
    (f.write off d).bytes = f.bytes.take off ++ d ++ f.bytes.drop (off + d.length) := by
  have : off - min off f.bytes.length = 0 := by omega
  simp [write, List.rightpad, this]

lemma stable_le_reboot (junk : List UInt8) (f : File) : f.stable ≤ (f.reboot junk).stable := by
  have hs := f.stable_le
  unfold reboot
  cases hl : f.loose with
  | none => simp
  | some m =>
    have hm : f.stable = m := by simp [stable, hl]
    simp
    omega

lemma bytes_reboot_eq {junk : List UInt8} {f : File} (h : junk = f.bytes.drop f.stable) :
    (f.reboot junk).bytes = f.bytes := by
  unfold reboot
  cases hl : f.loose with
  | none => rfl
  | some m =>
    have hm : f.stable = m := by simp [stable, hl]
    rw [bytes_synced, h, hm, List.take_append_drop]

/-- What was there and is stable is there after a loss of power. -/
lemma prefix_reboot {a : List UInt8} (junk : List UInt8) {f : File} (h : a <+: f.bytes)
    (hle : a.length ≤ f.stable) : a <+: (f.reboot junk).bytes := by
  unfold reboot
  cases hl : f.loose with
  | none => exact h
  | some m =>
    have hm : f.stable = m := by simp [stable, hl]
    rw [bytes_synced, ← hm]
    exact (List.prefix_take_iff.2 ⟨h, hle⟩).trans (List.prefix_append _ _)

end File

/-! ### Disks -/

/-- The files of a device, by name. -/
abbrev Disk (κ : Type) := AList fun _ : κ => File

namespace Disk

variable {κ : Type}

/-- Apply `g` to every file. -/
def map (g : κ → File → File) (d : Disk κ) : Disk κ where
  entries := d.entries.map fun e => ⟨e.1, g e.1 e.2⟩
  nodupKeys := by
    have h : (d.entries.map fun e => (⟨e.1, g e.1 e.2⟩ : Sigma fun _ : κ => File)).keys =
        d.entries.keys := by
      simp [List.keys, Function.comp_def]
    simpa only [List.NodupKeys, h] using d.nodupKeys

variable [DecidableEq κ]

/-- Change one file, if it is there. -/
def update (k : κ) (g : File → File) (d : Disk κ) : Disk κ :=
  match d.lookup k with
  | some f => d.insert k (g f)
  | none   => d

/-- `rename`: the file moves, replacing what was at the target. -/
def rename (a b : κ) (d : Disk κ) : Disk κ :=
  match d.lookup a with
  | some f => (d.erase a).insert b f
  | none   => d

/-- The disk after power was lost. -/
def reboot (junk : κ → List UInt8) (d : Disk κ) : Disk κ := d.map fun k f => f.reboot (junk k)

lemma lookup_map (g : κ → File → File) (d : Disk κ) (k : κ) :
    (d.map g).lookup k = (d.lookup k).map (g k) := by
  unfold AList.lookup map
  simp only
  generalize d.entries = l
  induction l with
  | nil => rfl
  | cons e l ih =>
    obtain ⟨a, f⟩ := e
    by_cases h : a = k
    · subst h
      simp
    · simpa [List.dlookup_cons_ne, Ne.symm h] using ih

lemma lookup_reboot (junk : κ → List UInt8) (d : Disk κ) (k : κ) :
    (d.reboot junk).lookup k = (d.lookup k).map (File.reboot (junk k)) := d.lookup_map _ k

@[simp] lemma lookup_update_self (k : κ) (g : File → File) (d : Disk κ) :
    (d.update k g).lookup k = (d.lookup k).map g := by
  unfold update
  cases h : d.lookup k <;> simp [h]

lemma lookup_update_ne {k k' : κ} (h : k' ≠ k) (g : File → File) (d : Disk κ) :
    (d.update k g).lookup k' = d.lookup k' := by
  unfold update
  cases d.lookup k <;> simp [AList.lookup_insert_ne h]

lemma lookup_erase_some {a k : κ} {f : File} {d : Disk κ} (h : (d.erase a).lookup k = some f) :
    d.lookup k = some f := by
  by_cases hka : k = a
  · subst hka
    rw [AList.lookup_erase] at h
    cases h
  · exact (AList.lookup_erase_ne hka).symm.trans h

end Disk

/-! ### Worlds -/

/-- A device: files, other nonvolatile state, and memory that a reset clears. -/
structure World (κ ν ρ : Type) where
  disk : Disk κ
  nv : ν
  ram : ρ

namespace World

variable {κ ν ρ : Type}

def onDisk (f : Disk κ → Disk κ) (w : World κ ν ρ) : World κ ν ρ := { w with disk := f w.disk }

def onNv (f : ν → ν) (w : World κ ν ρ) : World κ ν ρ := { w with nv := f w.nv }

def onRam (f : ρ → ρ) (w : World κ ν ρ) : World κ ν ρ := { w with ram := f w.ram }

@[simp] lemma disk_onDisk (f : Disk κ → Disk κ) (w : World κ ν ρ) :
    (w.onDisk f).disk = f w.disk := rfl
@[simp] lemma nv_onDisk (f : Disk κ → Disk κ) (w : World κ ν ρ) : (w.onDisk f).nv = w.nv := rfl
@[simp] lemma ram_onDisk (f : Disk κ → Disk κ) (w : World κ ν ρ) : (w.onDisk f).ram = w.ram := rfl
@[simp] lemma disk_onNv (f : ν → ν) (w : World κ ν ρ) : (w.onNv f).disk = w.disk := rfl
@[simp] lemma nv_onNv (f : ν → ν) (w : World κ ν ρ) : (w.onNv f).nv = f w.nv := rfl
@[simp] lemma ram_onNv (f : ν → ν) (w : World κ ν ρ) : (w.onNv f).ram = w.ram := rfl
@[simp] lemma disk_onRam (f : ρ → ρ) (w : World κ ν ρ) : (w.onRam f).disk = w.disk := rfl
@[simp] lemma nv_onRam (f : ρ → ρ) (w : World κ ν ρ) : (w.onRam f).nv = w.nv := rfl
@[simp] lemma ram_onRam (f : ρ → ρ) (w : World κ ν ρ) : (w.onRam f).ram = f w.ram := rfl

variable [DecidableEq κ]

/-- Power is lost and comes back: loose parts of files are replaced by `junk`, memory by `r`. -/
def reset (junk : κ → List UInt8) (r : ρ) (w : World κ ν ρ) : World κ ν ρ :=
  ⟨w.disk.reboot junk, w.nv, r⟩

end World

/-! ### Operations on files -/

section Operations

variable {κ ν ρ : Type} [DecidableEq κ]

/-- Look at a file without changing it: `none` when a call fails, `some none` when there is no
such file. -/
def probe (k : κ) : Prog (World κ ν ρ) (Option (Option File)) := do
  if ← Prog.look then
    return some (← Prog.gets fun w => w.disk.lookup k)
  else return none

/-- Land the first `n` bytes of `data` at `off`. -/
def land (k : κ) (off : Nat) (data : List UInt8) (n : Nat) : World κ ν ρ → World κ ν ρ :=
  World.onDisk fun d => if n = 0 then d else d.update k (File.write off (data.take n))

/-- `fwrite`: the bytes go to a buffer, but some may reach the file when the call does not
succeed. -/
def fwrite (k : κ) (off : Nat) (data : List UInt8) : Prog (World κ ν ρ) Bool :=
  Prog.op id (land k off data)

/-- `fflush` after `fwrite`. -/
def fflush (k : κ) (off : Nat) (data : List UInt8) : Prog (World κ ν ρ) Bool :=
  Prog.op (land k off data data.length) (land k off data)

def fsync (k : κ) : Prog (World κ ν ρ) Bool :=
  Prog.atomic (World.onDisk fun d => d.update k File.sync)

/-- `open` with `O_CREAT | O_EXCL`: the file must not be there. -/
def create (k : κ) : Prog (World κ ν ρ) Bool := do
  if ← Prog.gets fun w => (w.disk.lookup k).isSome then return false
  else Prog.atomic (World.onDisk fun d => d.insert k File.fresh)

/-- `rename`, which fails when there is nothing to move. -/
def rename (a b : κ) : Prog (World κ ν ρ) Bool := do
  if ← Prog.gets fun w => (w.disk.lookup a).isSome then
    Prog.atomic (World.onDisk fun d => d.rename a b)
  else return false

/-- `remove` and `unlink`; a file that is not there counts as removed. -/
def unlink (k : κ) : Prog (World κ ν ρ) Bool :=
  Prog.atomic (World.onDisk fun d => d.erase k)

variable {C : World κ ν ρ → Prop} {w : World κ ν ρ}

@[simp] lemma wp_probe {Q : Option (Option File) → World κ ν ρ → Prop} (k : κ) :
    (probe k).wp Q C w ↔ Q (some (w.disk.lookup k)) w ∧ Q none w ∧ C w := by
  simp [probe]

@[simp] lemma eval_probe (k : κ) :
    (probe k : Prog (World κ ν ρ) _).eval w = (some (w.disk.lookup k), w) := by
  simp [probe]

lemma keeps_probe {I : World κ ν ρ → Prop} (k : κ) : Prog.Keeps I (probe k) := by
  intro w h
  rw [wp_probe]
  exact ⟨h, h, h⟩

lemma wp_create {Q : Bool → World κ ν ρ → Prop} {k : κ} (h : w.disk.lookup k = none) :
    (create k).wp Q C w ↔
      Q true (w.onDisk fun d => d.insert k File.fresh) ∧
      (Q false w ∧ Q false (w.onDisk fun d => d.insert k File.fresh)) ∧
      C w ∧ C (w.onDisk fun d => d.insert k File.fresh) := by
  simp [create, h]

lemma wp_rename {Q : Bool → World κ ν ρ → Prop} {a : κ} (b : κ) {f : File}
    (h : w.disk.lookup a = some f) :
    (rename a b).wp Q C w ↔
      Q true (w.onDisk fun d => (d.erase a).insert b f) ∧
      (Q false w ∧ Q false (w.onDisk fun d => (d.erase a).insert b f)) ∧
      C w ∧ C (w.onDisk fun d => (d.erase a).insert b f) := by
  have hd : (w.onDisk fun d => d.rename a b) = w.onDisk fun d => (d.erase a).insert b f := by
    simp [World.onDisk, Disk.rename, h]
  simp [rename, h, hd]

@[simp] lemma wp_unlink {Q : Bool → World κ ν ρ → Prop} (k : κ) :
    (unlink k).wp Q C w ↔
      Q true (w.onDisk fun d => d.erase k) ∧
      (Q false w ∧ Q false (w.onDisk fun d => d.erase k)) ∧
      C w ∧ C (w.onDisk fun d => d.erase k) := by
  simp [unlink]

@[simp] lemma eval_unlink (k : κ) :
    (unlink k : Prog (World κ ν ρ) _).eval w = (true, w.onDisk fun d => d.erase k) := rfl

lemma eval_rename {a : κ} (b : κ) {f : File} (h : w.disk.lookup a = some f) :
    (rename a b : Prog (World κ ν ρ) _).eval w =
      (true, w.onDisk fun d => (d.erase a).insert b f) := by
  simp [rename, h, World.onDisk, Disk.rename]

end Operations

end Crash
