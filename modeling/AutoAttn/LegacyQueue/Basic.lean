import AutoAttn.Bytes
import AutoAttn.Crash.Prog
import AutoAttn.Crc32

/-!
# The queue of a legacy file

Older images append rows to a file. The queue reads them from a cursor that it keeps in NVS together with
the checksum of everything before it, and never rewrites the file. A row is settled when its receiver has
it, and the file is removed when all of it is settled.
-/

namespace LegacyQueue

open Crash Crash.Prog
open ZoneLite (dqCrc32 extend)
open Bytes (slice)

/-! ### The checkpoint -/

/-- `lq_checkpoint_t` -/
structure Checkpoint where
  version : UInt32 := 0
  generation : UInt32 := 0
  offset : UInt32 := 0
  prefixCrc : UInt32 := 0
  crc : UInt32 := 0
deriving DecidableEq

namespace Checkpoint

/-- The bytes before `crc`. -/
def body (cp : Checkpoint) : List UInt8 :=
  [cp.version, cp.generation, cp.offset, cp.prefixCrc].flatMap fun v => Bytes.le 4 v.toNat

/-- All bytes of the structure. -/
def bytes (cp : Checkpoint) : List UInt8 := cp.body ++ Bytes.le 4 cp.crc.toNat

/-- `lq_checkpoint_valid` -/
def Valid (cp : Checkpoint) : Prop :=
  (cp.version = 1 ∨ cp.version = 2) ∧ cp.generation ≠ 0 ∧ cp.crc = dqCrc32 cp.body

instance (cp : Checkpoint) : Decidable cp.Valid := inferInstanceAs (Decidable (_ ∧ _ ∧ _))

/-- `lq_checkpoint_seal` -/
def seal' (cp : Checkpoint) : Checkpoint := { cp with crc := dqCrc32 cp.body }

end Checkpoint

/-- `UINT32_MAX` -/
def uint32Max : UInt32 := 0xffffffff

/-- `DQ_MAX_RECORD_BYTES` -/
def maxRecordBytes : Nat := 8192

/-- `LQ_RECOVERY_SLICE_BYTES` -/
def recoverySliceBytes : Nat := 8192

def newline : UInt8 := 10

/-- `dq_result_t`, without the results that this queue never returns. -/
inductive Result where
  | ok
  | empty
  | io
  | corrupt
  | stale
  | pending
deriving DecidableEq

/-- `lq_token_t` -/
structure Token where
  generation : UInt32
  offset : UInt32
  endOffset : UInt32
  crc : UInt32
  /-- A fragment must never be interpreted as attendance. -/
  evidenceRequired : Bool := false
  /-- The token names the checkpoint itself. -/
  checkpointEvidence : Bool := false
deriving DecidableEq

/-- `legacy_queue_t` for one path and one port. -/
structure Queue where
  checkpoint : Checkpoint := {}
  /-- The port was set. -/
  opened : Bool := false
  ready : Bool := false
  recovering : Bool := false
  checkpointCorrupt : Bool := false
  recoveryOffset : Nat := 0
  recoveryCrc : UInt32 := 0
  ioRead : Bool := false
deriving DecidableEq

/-- The file, the checkpoint in NVS and the queue in memory. -/
structure World where
  file : Option (List UInt8)
  stored : Option Checkpoint
  q : Queue := {}
deriving DecidableEq

def setQueue (f : Queue → Queue) : Prog World Unit := modify fun w => { w with q := f w.q }

/-! ### Files -/

/-- `fopen(path, "rb")` -/
def fopen : Prog World (Option (List UInt8)) := do
  if ← look then gets (·.file) else return none

/-- The variables of a loop that reads a range of the file. -/
structure Scan where
  position : Nat
  crc : UInt32
  /-- The checksum of the prefix. -/
  prefixCrc : UInt32 := 0
  last : UInt8 := 0

/-- A piece was read. -/
def Scan.step (s : Scan) (piece : List UInt8) : Scan where
  position := s.position + piece.length
  crc := extend s.crc piece
  prefixCrc := extend s.prefixCrc piece
  last := piece.getLastD s.last

/-- Read `remaining` bytes in pieces of 512 bytes. Each piece has a byte, so that `remaining` rounds are
enough. -/
def scan (content : List UInt8) : Nat → Nat → Scan → Prog World (Option Scan)
  | 0, _, s              => return some s
  | rounds + 1, remaining, s =>
    if remaining = 0 then return some s
    else do
      let piece := slice content s.position (min remaining 512)
      if ← look then
        if piece.length = min remaining 512 then scan content rounds (remaining - piece.length) (s.step piece)
        else return none
      else return none

/-- `fseek` to the position, read, `ferror` and `fclose`. The flag says whether a seek or a read failed. -/
def readRange (content : List UInt8) (remaining : Nat) (s : Scan) : Prog World (Option Scan × Bool) := do
  let sought ← look
  let scanned ← if sought then scan content remaining remaining s else pure none
  let noError ← look
  let closed ← look
  let ok := scanned.isSome && noError
  return (if ok && closed then scanned else none, !ok)

/-! ### Opening -/

/-- The checkpoint was loaded. -/
def lqLoaded (stored : Option Checkpoint) : Prog World (Option Result) := do
  setQueue fun q => { q with checkpoint := stored.getD {} }
  if ∃ cp ∈ stored, ¬cp.Valid then
    setQueue fun q => { q with checkpointCorrupt := true }
    return some .corrupt
  else
    setQueue fun q => { q with recovering := true }
    return none

/-- The first part of `lq_open_step`: load the checkpoint. -/
def lqLoad : Prog World (Option Result) := do
  setQueue fun _ => { opened := true }
  if ← look then lqLoaded (← gets (·.stored)) else return some .io

/-- The cursor was verified. -/
def lqReady : Prog World Result := do
  setQueue fun q => { q with recovering := false, ready := true }
  return .ok

/-- The file does not agree with the checkpoint. -/
def lqRefuse : Prog World Result := do
  setQueue fun q => { q with recovering := false, checkpointCorrupt := true }
  return .corrupt

/-- A slice was read. A version 1 cursor must stand after a newline. -/
def lqSliceRead (cp : Checkpoint) (s : Scan) : Prog World Result :=
  if s.position = cp.offset.toNat ∧ cp.version = 1 ∧ s.last ≠ newline then lqRefuse
  else do
    setQueue fun q => { q with recoveryOffset := s.position, recoveryCrc := s.crc }
    if s.position < cp.offset.toNat then return .pending
    else if s.crc ≠ cp.prefixCrc then lqRefuse
    else lqReady

/-- The second part of `lq_open_step`: verify a slice of the prefix. -/
def lqSlice : Prog World Result := do
  let q ← gets (·.q)
  if q.recoveryOffset < q.checkpoint.offset.toNat then
    match ← fopen with
    | none         => return .io
    | some content =>
      let remaining := min (q.checkpoint.offset.toNat - q.recoveryOffset) recoverySliceBytes
      match ← readRange content remaining ⟨q.recoveryOffset, q.recoveryCrc, 0, 0⟩ with
      -- Failed I/O retries exactly this slice, including a failed close.
      | (none, failed) => do setQueue fun q => { q with ioRead := failed }; return .io
      | (some s, _)    => lqSliceRead q.checkpoint s
  else lqReady

/-- `lq_open_step` -/
def lqOpenStep : Prog World Result := do
  setQueue fun q => { q with ioRead := false }
  if ← gets (·.q.recovering) then lqSlice
  else
    match ← lqLoad with
    | some r => return r
    | none   => lqSlice

/-- The loop of `lq_open`. -/
def lqOpenLoop : Nat → Prog World Result
  | 0          => return .pending
  | rounds + 1 => do
    match ← lqOpenStep with
    | .pending => lqOpenLoop rounds
    | r        => return r

/-- More slices than any offset needs. -/
def openRounds : Nat := 524289

/-- `lq_open` -/
def lqOpen : Prog World Result := do
  setQueue fun _ => {}
  lqOpenLoop openRounds

/-! ### Reading and settling -/

/-- `persist` -/
def persist (next : Checkpoint) : Prog World Bool :=
  if next.generation = uint32Max then return false
  else do
    let next := { next with
      version := if next.version = 0 then 1 else next.version
      generation := next.generation + 1 }.seal'
    if ← atomic fun w => { w with stored := some next } then
      setQueue fun q => { q with checkpoint := next }
      return true
    else
      setQueue fun q => { q with ready := false }
      return false

/-- The bytes of the next row, not more than `n`. -/
def takeRow : Nat → List UInt8 → List UInt8
  | 0, _          => []
  | _, []         => []
  | n + 1, b :: bs => if b = newline then [b] else b :: takeRow n bs

/-- The token of a row. -/
def rowToken (cp : Checkpoint) (data : List UInt8) : Token where
  generation := cp.generation
  offset := cp.offset
  endOffset := cp.offset + data.length.toUInt32
  crc := dqCrc32 data
  evidenceRequired := cp.version = 2 || data.getLast? ≠ some newline

/-- `lq_peek`, with a buffer of the given size. -/
def lqPeek (capacity : Nat) : Prog World (Result × Option (List UInt8 × Token)) := do
  setQueue fun q => { q with ioRead := false }
  let q ← gets (·.q)
  if ¬q.ready ∨ capacity < 2 ∨ maxRecordBytes + 1 < capacity then return (.io, none)
  else if ← look then
    match ← gets (·.file) with
    | none         => return (if q.checkpoint.offset = 0 then .empty else .io, none)
    | some content =>
      let sought ← look
      let noError ← look
      let closed ← look
      if sought && noError && closed then
        let data := takeRow (capacity - 1) (content.drop q.checkpoint.offset.toNat)
        if data = [] then return (.empty, none)
        else if uint32Max.toNat - q.checkpoint.offset.toNat < data.length then return (.corrupt, none)
        else return (.ok, some (data, rowToken q.checkpoint data))
      else
        setQueue fun q => { q with ioRead := !(sought && noError) }
        return (.io, none)
  else return (.io, none)

/-- The token of a checkpoint. -/
def checkpointToken (cp : Checkpoint) : Token where
  generation := cp.generation
  offset := 0
  endOffset := cp.bytes.length.toUInt32
  crc := dqCrc32 cp.bytes
  evidenceRequired := true
  checkpointEvidence := true

/-- `lq_checkpoint_evidence` -/
def lqCheckpointEvidence (capacity : Nat) : Prog World (Result × Option (List UInt8 × Token)) := do
  let q ← gets (·.q)
  if capacity < q.checkpoint.bytes.length ∨ q.ready ∨ ¬q.checkpointCorrupt then return (.io, none)
  else return (.ok, some (q.checkpoint.bytes, checkpointToken q.checkpoint))

/-- `settle_checkpoint` -/
def settleCheckpoint (token : Token) : Prog World Result := do
  let q ← gets (·.q)
  if ¬q.checkpointCorrupt ∨ q.ready ∨ ¬q.opened ∨ ¬token.evidenceRequired ∨
      token.generation ≠ q.checkpoint.generation ∨ token.offset ≠ 0 ∨
      token.endOffset.toNat ≠ q.checkpoint.bytes.length ∨ token.crc ≠ dqCrc32 q.checkpoint.bytes then
    return .stale
  else if ← look then
    let actual ← gets (·.stored)
    if actual ≠ some q.checkpoint then return .stale
    else if q.checkpoint.generation = uint32Max then return .corrupt
    -- Retained files stay untouched and are read again from the beginning.
    else if ← persist { version := 1, generation := q.checkpoint.generation } then
      setQueue fun q => { q with
        ready := false, recovering := false, checkpointCorrupt := false, recoveryOffset := 0
        recoveryCrc := 0 }
      return .ok
    else return .io
  else return .io

/-- The bytes of the token were read. -/
def settleRead (cp : Checkpoint) (token : Token) (custody : Bool) (s : Scan) : Prog World Result := do
  if (¬custody ∧ s.last ≠ newline) ∨ s.crc ≠ token.crc then return .stale
  else if ← persist { cp with
      offset := token.endOffset, prefixCrc := s.prefixCrc
      version := if s.last = newline then 1 else 2 } then return .ok
  else return .io

/-- `settle` for the bytes of the file. -/
def settleBytes (token : Token) (custody : Bool) : Prog World Result := do
  let q ← gets (·.q)
  if ¬q.ready then return .io
  else if ¬custody ∧ (token.evidenceRequired ∨ q.checkpoint.version = 2) then return .stale
  else if token.generation ≠ q.checkpoint.generation ∨ token.offset ≠ q.checkpoint.offset ∨
      token.endOffset ≤ token.offset ∨ maxRecordBytes < token.endOffset.toNat - token.offset.toNat then
    return .stale
  else
    match ← fopen with
    | none         => return .io
    | some content =>
      match ← readRange content (token.endOffset.toNat - token.offset.toNat)
          ⟨token.offset.toNat, 0, q.checkpoint.prefixCrc, 0⟩ with
      | (none, _)   => return .io
      | (some s, _) => settleRead q.checkpoint token custody s

/-- `settle` -/
def settle (token : Token) (custody : Bool) : Prog World Result :=
  if token.checkpointEvidence then
    if custody then settleCheckpoint token else return .stale
  else settleBytes token custody

/-- `lq_settle` -/
def lqSettle (token : Token) : Prog World Result := settle token false

/-- `lq_settle_evidence` -/
def lqSettleEvidence (token : Token) : Prog World Result := settle token true

/-- `lq_reclaim` -/
def lqReclaim : Prog World Result := do
  setQueue fun q => { q with ioRead := false }
  let q ← gets (·.q)
  if ¬q.ready then return .io
  else if ← look then
    match ← gets (·.file) with
    | none         => return if q.checkpoint.offset = 0 then .empty else .io
    | some content =>
      if content.length ≠ q.checkpoint.offset.toNat then return .stale
      -- Clear before unlink: interruption can only replay the old settled file.
      else if ← persist { q.checkpoint with offset := 0, prefixCrc := 0, version := 1 } then
        if ← atomic fun w => { w with file := none } then return .ok else return .io
      else return .io
  else return .io

end LegacyQueue
