import AutoAttn.Crash.Disk
import AutoAttn.Crc32

/-!
# File replacement with a three-phase checkpoint

A replacement moves a new file from its stage to the active path. The checkpoint names the new
content before the old file is touched (phase 1), records that it is installed (phase 2), and
returns to phase 0 when backup and stage are gone.
-/

namespace ZoneLite

open Crash

def uint32Max : Nat := 2 ^ 32 - 1

/-- `ft_checkpoint_t`. -/
structure FtCheckpoint where
  version : Nat
  generation : Nat
  phase : Nat
  length : Nat
  digest : UInt32
  crc : UInt32
deriving DecidableEq, Repr

namespace FtCheckpoint

/-- The memory image up to the checksum. -/
def image (cp : FtCheckpoint) : List UInt8 :=
  Bytes.le 4 cp.version ++ Bytes.le 4 cp.generation ++ Bytes.le 4 cp.phase ++
    Bytes.le 4 cp.length ++ Bytes.le 4 cp.digest.toNat

def checksummed (cp : FtCheckpoint) : FtCheckpoint := { cp with crc := dqCrc32 cp.image }

/-- A checkpoint cleared with `memset`. -/
def zero : FtCheckpoint := ⟨0, 0, 0, 0, 0, 0⟩

end FtCheckpoint

/-- Three files of a transaction and the checkpoints that have reached storage, latest first. -/
abbrev FtWorld (κ ρ : Type) := World κ (List FtCheckpoint) ρ

namespace FileTransaction

variable {κ ρ : Type} [DecidableEq κ]

/-- `exists`: `none` stands for `-1`. -/
def fileExists (path : κ) : Prog (FtWorld κ ρ) (Option Bool) := do
  return (← probe path).map Option.isSome

/-- The read loop of `digest`, 512 bytes at a time. -/
def digestLoop : Nat → List UInt8 → Nat → UInt32 → Option UInt32
  | _, _, 0, crc                  => some crc
  | 0, _, _ + 1, _                => none
  | fuel + 1, bytes, rem + 1, crc =>
    let n := min (rem + 1) 512
    if bytes.length < n then none
    else digestLoop fuel (bytes.drop n) (rem + 1 - n) (extend crc (bytes.take n))

def digest (path : κ) (length : Nat) : Prog (FtWorld κ ρ) (Option UInt32) := do
  match ← probe path with
  | some (some f) => return digestLoop length f.bytes length 0
  | _             => return none

/-- `matches`. -/
def fileMatches (path : κ) (cp : FtCheckpoint) (exact : Bool) : Prog (FtWorld κ ρ) Bool := do
  if exact then
    match ← probe path with
    | some (some f) => if f.size ≠ cp.length then return false
    | _             => return false
  return (← digest path cp.length) == some cp.digest

/-- `port.commit`. -/
def commit (cp : FtCheckpoint) : Prog (FtWorld κ ρ) Bool := Prog.atomic (World.onNv (cp :: ·))

def save (cp : FtCheckpoint) (phase : Nat) : Prog (FtWorld κ ρ) (Option FtCheckpoint) := do
  if cp.generation = uint32Max then return none
  let next := FtCheckpoint.checksummed
    { cp with version := 1, generation := cp.generation + 1, phase := phase }
  if ← commit next then return some next else return none

def ftCheckpointValid (cp : FtCheckpoint) : Bool :=
  cp.version = 1 ∧ cp.generation ≠ 0 ∧ cp.phase ≤ 2 ∧ cp.crc = dqCrc32 cp.image

/-- `port.load`: `none` stands for `-1`, `some none` for a checkpoint never written. -/
def portLoad : Prog (FtWorld κ ρ) (Option (Option FtCheckpoint)) := do
  if ← Prog.look then return some (← Prog.gets (·.nv.head?)) else return none

def load : Prog (FtWorld κ ρ) (Option FtCheckpoint) := do
  match ← portLoad with
  | none           => return none
  | some none      => return some .zero
  | some (some cp) => return if ftCheckpointValid cp then some cp else none

/-- The phase 1 part of `ft_recover`: move the old file out of the way and the stage in. -/
def install (active stage backup : κ) (cp : FtCheckpoint) (a b : Bool) :
    Prog (FtWorld κ ρ) Bool := do
  if ← fileMatches active cp true then return true
  if !(← fileMatches stage cp true) then return false
  -- Ambiguous generations remain preserved.
  if a && b then return false
  if a then
    if !(← rename active backup) then return false
  rename stage active

def removeBackup (backup : κ) : Prog (FtWorld κ ρ) Bool := do
  let some b ← fileExists backup | return false
  if b then unlink backup else return true

def removeStage (stage : κ) (cp : FtCheckpoint) : Prog (FtWorld κ ρ) Bool := do
  let some staged ← fileExists stage | return false
  if !staged then return true
  if !(← fileMatches stage cp true) then return false
  unlink stage

/-- The end of `ft_recover`, once the new file is installed: backup and stage go, and the
checkpoint returns to phase 0. -/
def retire (active stage backup : κ) (cp : FtCheckpoint) : Prog (FtWorld κ ρ) Bool := do
  if !(← fileMatches active cp true) then return false
  if !(← removeBackup backup) then return false
  if !(← removeStage stage cp) then return false
  return (← save cp 0).isSome

def ftRecover (active stage backup : κ) : Prog (FtWorld κ ρ) Bool := do
  let some cp ← load | return false
  let a? ← fileExists active
  let b? ← fileExists backup
  let some a := a? | return false
  let some b := b? | return false
  if cp.phase = 0 then
    -- A legacy backup remains recoverable; it is never retired on existence alone.
    if !a && b then
      return ← rename backup active
    if b then return false
    if a then return true
    return (← fileExists stage) == some false
  if cp.phase = 1 then
    if !(← install active stage backup cp a b) then return false
    let some cp ← save cp 2 | return false
    return ← retire active stage backup cp
  retire active stage backup cp

/-- No generation is installed yet, so there is nothing to recover. -/
def firstGeneration (active backup : κ) (cp : FtCheckpoint) : Prog (FtWorld κ ρ) Bool := do
  if cp.phase ≠ 0 then return false
  if (← fileExists active) ≠ some false then return false
  return (← fileExists backup) == some false

/-- The second half of `ft_replace`: name the stage in the checkpoint and install it. -/
def promote (active stage backup : κ) (limit : Nat) : Prog (FtWorld κ ρ) Bool := do
  let some cp ← load | return false
  let some (some st) ← probe stage | return false
  if st.size > limit || st.size > uint32Max then return false
  -- `fopen` with "r+b", `fsync` and `fclose`.
  let some (some _) ← probe stage | return false
  let synced ← fsync stage
  let closed ← Prog.look
  if !synced || !closed then return false
  let some crc ← digest stage st.size | return false
  let some _ ← save { cp with length := st.size, digest := crc } 1 | return false
  ftRecover active stage backup

def ftReplace (active stage backup : κ) (limit : Nat) : Prog (FtWorld κ ρ) Bool := do
  let some cp ← load | return false
  -- An explicit replacement may install a first generation; recovery alone may not.
  if !(← firstGeneration active backup cp) then
    if !(← ftRecover active stage backup) then return false
  promote active stage backup limit

end FileTransaction

end ZoneLite
