import AutoAttn.Journal.Store

/-!
# The journal's root

The master key, the capture epoch, the limit of the sequence numbers and the authority for delivery
are one blob in NVS. Nothing that was written is trusted before it was read back, and a root that
was ever there is not made anew.
-/

namespace ZoneLite

open Bytes Crash

/-! ### Values -/

/-- `ZJ_ROOT_BYTES`. -/
def zjRootBytes : Nat := 160

/-- `ZJ_READER_PROOF_BYTES`. -/
def zjReaderProofBytes : Nat := 192

/-- `zj_delivery_authority_t`. -/
inductive ZjAuthority where
  | unknown
  | legacy
  | add
deriving DecidableEq, Repr

/-- The names of the blobs. -/
inductive ZjBlob where
  | root
  | retirement
  | readerV1
deriving DecidableEq, Repr

/-- The blobs in NVS, and whether there are segment files. -/
structure ZjNvs where
  root : Option (List UInt8)
  retirement : Option (List UInt8)
  readerV1 : Option (List UInt8)
  segments : Bool
deriving DecidableEq

/-- `zj_state_t`, without the port. -/
structure ZjState where
  root : Block zjRootBytes
  limit : Nat
  ready : Bool
deriving DecidableEq

/-- A state that was erased. -/
def ZjState.zero : ZjState := ⟨Block.zero zjRootBytes, 0, false⟩

/-- NVS, and the state in memory. -/
structure ZjDevice where
  nvs : ZjNvs
  state : ZjState
deriving DecidableEq

abbrev ZjStateM := ExceptT ZjError (Prog ZjDevice)

namespace ZjNvs

def get (n : ZjNvs) : ZjBlob → Option (List UInt8)
  | .root       => n.root
  | .retirement => n.retirement
  | .readerV1   => n.readerV1

def set (bytes : List UInt8) (n : ZjNvs) : ZjBlob → ZjNvs
  | .root       => { n with root := some bytes }
  | .retirement => { n with retirement := some bytes }
  | .readerV1   => { n with readerV1 := some bytes }

@[simp] lemma get_set (bytes : List UInt8) (n : ZjNvs) (name : ZjBlob) :
    (n.set bytes name).get name = some bytes := by
  cases name <;> rfl

end ZjNvs

/-! ### Roots -/

section Root

variable (b : Block zjRootBytes)

def rootLimit : Nat := unle (slice b.val 8 8)

def rootMaster : List UInt8 := slice b.val 16 32

def rootEpoch : List UInt8 := slice b.val 48 16

def rootSerial : List UInt8 := slice b.val 64 81

/-- The byte that says who delivers. -/
def rootAuthority : List UInt8 := slice b.val 145 1

def checksum : Block zjRootBytes :=
  b.patch (zjRootBytes - 4) (le 4 (dqCrc32 (slice b.val 0 (zjRootBytes - 4))).toNat)

/-- `valid`. -/
def rootValid (serial : List UInt8) : Bool :=
  slice b.val 0 8 = ascii "ZJROOT01" ∧ rootLimit b ≠ 0 ∧ rootLimit b ≤ zjSequenceMax + 1 ∧
    (rootMaster b).any (· ≠ 0) ∧ (rootEpoch b).any (· ≠ 0) ∧ b = checksum b ∧
    (rootAuthority b = [0] ∨ rootAuthority b = [1]) ∧ !(slice b.val 146 10).any (· ≠ 0) ∧
    (rootAuthority b = [1] ∨ rootLimit b = 1) ∧
    serial ≠ [] ∧ serial.length < 81 ∧ rootSerial b = field 81 serial

/-- The root with which `zj_state_enable_add` replaces `b`. -/
def withAdd : Block zjRootBytes := checksum (b.patch 145 [1])

/-- The root with which `zj_state_reserve` replaces `b`. -/
def withLimit (limit : Nat) : Block zjRootBytes := checksum (b.patch 8 (le 8 limit))

end Root

/-- A root that was never there before: master key and epoch are random. -/
def newRoot (serial : List UInt8) (random : Block 48) : Block zjRootBytes :=
  checksum (Block.ofList zjRootBytes
    (ascii "ZJROOT01" ++ le 8 1 ++ random.val ++ field 81 serial ++ List.replicate 15 0))

namespace Journal

/-! ### The port -/

/-- `read`: `none` for a failure, also when the length is another one. -/
def readBlob (name : ZjBlob) (length : Nat) : Prog ZjDevice (Option (Option (List UInt8))) := do
  if ← Prog.look then
    match ← Prog.gets fun d => d.nvs.get name with
    | none       => return some none
    | some bytes => return if bytes.length = length then some (some bytes) else none
  else return none

/-- `write`: the old or the new value is there, whatever is reported. -/
def writeBlob (name : ZjBlob) (bytes : List UInt8) : Prog ZjDevice Bool :=
  Prog.atomic fun d => { d with nvs := d.nvs.set bytes name }

def journalAbsent : Prog ZjDevice Bool := do
  if ← Prog.look then return !(← Prog.gets fun d => d.nvs.segments)
  else return false

/-! ### The state -/

def setState (f : ZjState → ZjState) : Prog ZjDevice Unit :=
  Prog.modify fun d => { d with state := f d.state }

def getState : Prog ZjDevice ZjState := Prog.gets ZjDevice.state

/-- Write a blob and read it back. -/
def saveVerified (name : ZjBlob) (bytes : List UInt8) : Prog ZjDevice Bool := do
  if bytes.length > zjRootBytes then return false
  else if ← writeBlob name bytes then
    return (← readBlob name bytes.length) = some (some bytes)
  else return false

/-- `save`. -/
def save (name : ZjBlob) (bytes : List UInt8) : Prog ZjDevice Bool := do
  if ← saveVerified name bytes then return true
  else
    setState fun s => { s with ready := false }
    return false

/-- The terminal's serial has to fit the metadata of a segment. -/
def serialMetadata (serial : List UInt8) : ZjMetadata where
  segmentId := 1
  captureEpoch := .ofList 16 [1]
  terminalSerial := serial
  decoderProfile := ascii "state"
  decoderVersion := ascii "1"

/-- A blob whose existence is evidence that there was a root. -/
def absentBlob (name : ZjBlob) (length : Nat) : ZjStateM Unit := do
  match ← liftM (readBlob name length) with
  | none          => throw .io
  | some (some _) => throw .corrupt
  | some none     => pure ()

/-- Nothing says that there was a root. -/
def noEvidence : ZjStateM Unit := do
  absentBlob .retirement zjCheckpointBytes
  absentBlob .readerV1 zjReaderProofBytes
  if ← liftM journalAbsent then pure () else throw .corrupt

/-- Store the first root. -/
def makeRoot (serial : List UInt8) : Option (Block 48) → ZjStateM Unit
  | none       => throw .io
  | some bytes => do
    let root := newRoot serial bytes
    liftM (setState fun s => { s with root := root })
    if !rootValid root serial then throw .corrupt
    else if ← liftM (save .root root.val) then pure ()
    else throw .uncertain

/-- The root is read, or made if there never was one. -/
def loadRoot (serial : List UInt8) (random : Option (Block 48)) : ZjStateM Unit := do
  match ← liftM (readBlob .root zjRootBytes) with
  | none              => throw .io
  | some none         => do
    noEvidence
    makeRoot serial random
  | some (some bytes) => liftM (setState fun s => { s with root := .ofList zjRootBytes bytes })

/-- The end of `zj_state_open`. -/
def acceptRoot (serial : List UInt8) : ZjStateM Unit := do
  if rootValid (← liftM getState).root serial then
    liftM (setState fun s => { s with limit := rootLimit s.root, ready := true })
  else throw .corrupt

/-- `zj_state_open`; `random` is what the port has to offer if it is asked. -/
def zjStateOpen (serial : List UInt8) (random : Option (Block 48)) : ZjStateM Unit := do
  liftM (setState fun _ => ZjState.zero)
  if serial = [] ∨ serial.length ≥ 81 then throw .invalid
  else if (zjMetadataEncode (serialMetadata serial)).isNone then throw .invalid
  else
    loadRoot serial random
    acceptRoot serial

/-- `zj_state_identity`: the master key and the epoch. -/
def zjStateIdentity (s : ZjState) : Option (List UInt8 × List UInt8) :=
  if s.ready then some (rootMaster s.root, rootEpoch s.root) else none

def zjStateAuthority (s : ZjState) : ZjAuthority :=
  if !s.ready then .unknown else if rootAuthority s.root = [1] then .add else .legacy

/-- The root in NVS is replaced, and then the one in memory. -/
def replaceRoot (root : Block zjRootBytes) (limit : Nat) : Prog ZjDevice Bool := do
  if ← save .root root.val then
    setState fun s => { s with root := root, limit := limit }
    return true
  else return false

def zjStateEnableAdd : ZjStateM Unit := do
  let s ← liftM getState
  if !s.ready then throw .invalid
  else if zjStateAuthority s = .add then pure ()
  else if ← liftM (replaceRoot (withAdd s.root) s.limit) then pure ()
  else throw .uncertain

def zjStateReserve (exclusiveLimit : Nat) : Prog ZjDevice Bool := do
  let s ← getState
  if zjStateAuthority s ≠ .add ∨ exclusiveLimit ≤ s.limit ∨ exclusiveLimit > zjSequenceMax + 1 then
    return false
  else replaceRoot (withLimit s.root exclusiveLimit) exclusiveLimit

/-- `zj_state_checkpoint_load`; a blob that was read has the length asked for. -/
def zjStateCheckpointLoad : Prog ZjDevice (Option (Option (Block zjCheckpointBytes))) := do
  if !(← getState).ready then return none
  else return (← readBlob .retirement zjCheckpointBytes).map (Option.map (.ofList zjCheckpointBytes))

def zjStateCheckpointCommit (checkpoint : Block zjCheckpointBytes) : Prog ZjDevice Bool := do
  if !(← getState).ready then return false
  else save .retirement checkpoint.val

end Journal

end ZoneLite
