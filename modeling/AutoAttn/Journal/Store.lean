import AutoAttn.Crash.Disk
import AutoAttn.Crc32
import AutoAttn.Journal.Codec

/-!
# The journal store

Observations are appended to segment files, read back in order and settled one at a time; an 80
byte checkpoint outside the files says how far that got. A segment is never written again once
anything about it is uncertain, and its file goes when all of it is settled.
-/

namespace ZoneLite

open Bytes Crash

/-! ### Values -/

/-- `ZJ_SEGMENT_BYTES`. -/
def zjSegmentBytes : Nat := 64 * 1024

/-- `ZJ_SEGMENTS_MAX`. -/
def zjSegmentsMax : Nat := 256

/-- `ZJ_CHECKPOINT_BYTES`. -/
def zjCheckpointBytes : Nat := 80

/-- `ZJ_EXCEPTION_MAX`. -/
def zjExceptionMax : Nat := 512

/-- `CHECKPOINT_EVIDENCE_BYTES`. -/
def checkpointEvidenceBytes : Nat := 8 + zjCheckpointBytes

def uint64Max : Nat := 2 ^ 64 - 1

/-- `zj_result_t`, without the success. -/
inductive ZjError where
  | empty
  | full
  | io
  | corrupt
  | stale
  | invalid
  | uncertain
deriving DecidableEq, Repr

/-- `zj_exception_t`. -/
inductive ZjException where
  | none
  | metadata
  | frame
  | auth
  | tail
  | checkpoint
deriving DecidableEq, Repr

/-- `zj_item_kind_t`. -/
inductive ZjItemKind where
  | observation
  | preservedException
deriving DecidableEq, Repr

/-- `zj_token_t`; `stop` is the source's `end`. -/
structure ZjToken where
  segmentId : Nat
  offset : Nat
  stop : Nat
  bytesDigest : Block 32
  sequence : Nat
deriving DecidableEq

/-- `zj_item_t`. -/
structure ZjItem where
  kind : ZjItemKind
  exception : ZjException
  custodyEpoch : Block 16
  custodySerial : List UInt8
  metadata : Option ZjMetadata
  observation : Option ZjObservation
  exceptionBytes : List UInt8
  token : ZjToken
deriving DecidableEq

/-- `zj_segment_t`. -/
structure ZjSegment where
  id : Nat
  size : Nat
  metadataValid : Bool
  checkpointEvidence : Bool
deriving DecidableEq, Repr

/-- What `admits` answers, with the part of `errno` that callers look at. -/
inductive ZjAdmission where
  | granted
  | full
  | io
deriving DecidableEq, Repr

/-- `zj_store_t`. -/
structure ZjStore where
  writerMetadata : Option ZjMetadata
  writerHeader : List UInt8
  sequence : ZjSequence
  segments : List ZjSegment
  writerId : Nat
  checkpointRevision : Nat
  readSegment : Nat
  readOffset : Nat
  lastSequence : Nat
  ready : Bool
  checkpointRecoveryPending : Bool
  lastOperation : String

/-- A store cleared with `memset`. -/
def ZjStore.zero : ZjStore where
  writerMetadata := none
  writerHeader := []
  sequence := ⟨0, 0, false⟩
  segments := []
  writerId := 0
  checkpointRevision := 0
  readSegment := 0
  readOffset := 0
  lastSequence := 0
  ready := false
  checkpointRecoveryPending := false
  lastOperation := ""

/-- `zj_store_port_t`, over a state `π` of its own. `boot` finds the limit that the store is
opened with, and `forget` is what losing power does to that state. -/
structure ZjPort (π : Type) where
  boot : Prog π (Option Nat)
  load : Prog π (Option (Option (Block zjCheckpointBytes)))
  commit : Block zjCheckpointBytes → Prog π Bool
  reserve : Nat → Prog π Bool
  admits : Nat → Prog π ZjAdmission
  forget : π → π
  crypto : ZjCrypto

/-- What is not in files: the state of the port, and the history of what was sealed and of the
sequence numbers handed out, latest first. No branch of the code depends on the history. -/
structure ZjNv (π : Type) where
  port : π
  log : List ZjSealed
  handed : List Nat

/-- Segment files by their id, and the store in memory. -/
abbrev ZjWorld (π : Type) := World Nat (ZjNv π) ZjStore

abbrev ZjM (π : Type) := ExceptT ZjError (Prog (ZjWorld π))

namespace Journal

variable {π α : Type}

/-! ### Primitives -/

def perform (p : Prog (ZjWorld π) α) : ZjM π α := liftM p

def portPart : Prog.Part (ZjWorld π) π where
  get w := w.nv.port
  set p := World.onNv fun n => { n with port := p }
  get_set _ _ := rfl
  set_set _ _ _ := rfl
  set_get _ := rfl

def onPort (p : Prog π α) : ZjM π α := perform (p.zoom portPart)

def getStore : ZjM π ZjStore := perform (Prog.gets World.ram)

def setStore (f : ZjStore → ZjStore) : ZjM π Unit := perform (Prog.modify (World.onRam f))

/-- A call that succeeds or not and changes nothing. -/
def look : ZjM π Bool := perform Prog.look

def note (operation : String) : ZjM π Unit := setStore fun s => { s with lastOperation := operation }

def failure (operation : String) (result : ZjError) : ZjM π α := do
  note operation
  throw result

/-- Change the segment `id` of the inventory. -/
def ZjStore.setSegment (id : Nat) (f : ZjSegment → ZjSegment) (s : ZjStore) : ZjStore :=
  { s with segments := s.segments.map fun g => if g.id = id then f g else g }

def commitData (id off : Nat) (bytes : List UInt8) (header positioned : Bool) : ZjM π Bool := do
  if !positioned then return false
  if !(← perform (fwrite id off bytes)) then
    note (if header then "segment_header_write" else "record_write")
    return false
  if !(← perform (fflush id off bytes)) then
    note (if header then "segment_header_flush" else "record_flush")
    return false
  if !(← perform (fsync id)) then
    note (if header then "segment_header_sync" else "record_sync")
    return false
  return true

/-- `commit_file`: a failed close can never return success. -/
def commitFile (id off : Nat) (bytes : List UInt8) (header positioned : Bool) : ZjM π Bool := do
  let ok ← commitData id off bytes header positioned
  let closed ← look
  if !closed && ok then
    note (if header then "segment_header_close" else "record_close")
    return false
  return ok

def readBytes (id off length : Nat) : ZjM π (List UInt8) := do
  let some (some f) ← perform (probe id) | failure "record_read_open" .io
  let read ← look
  let closed ← look
  if read && (slice f.bytes off length).length = length && closed then
    return slice f.bytes off length
  else failure "record_read" .io

/-! ### Names of segments -/

/-- `filename`, without the directory and the prefix. -/
def filename (id : Nat) : List Char := hexDigits 16 id ++ ['.', 'j']

def hexValue (name : List Char) : Option Nat :=
  name.foldlM (fun value c => (digitValue c).map (value * 16 + ·)) 0

def fileId (name : List Char) : Option Nat :=
  if name.length ≠ 18 ∨ name.drop 16 ≠ ['.', 'j'] then none
  else (hexValue (name.take 16)).filter fun value => value ≠ 0 ∧ value ≤ zjSequenceMax

/-! ### Sequence numbers -/

def setSequence (f : ZjSequence → ZjSequence) : ZjM π Unit :=
  setStore fun s => { s with sequence := f s.sequence }

/-- `state->next++`; the value handed out goes to the history. -/
def handOut : ZjM π Nat := do
  let next := (← getStore).sequence.next
  setSequence fun q => { q with next := q.next + 1 }
  perform (Prog.modify (World.onNv fun n => { n with handed := next :: n.handed }))
  return next

def zjSequenceNext (P : ZjPort π) : ZjM π (Option Nat) := do
  let q := (← getStore).sequence
  if !q.ready || q.next = 0 || q.next > zjSequenceMax then return none
  if q.next = q.limit then
    if !(← onPort (P.reserve (nextLimit q.next))) then
      setSequence fun q => { q with ready := false }
      return none
    setSequence fun q => { q with limit := nextLimit q.next }
  return some (← handOut)

/-! ### The checkpoint -/

/-- The fields of a checkpoint. -/
structure ZjCheckpoint where
  revision : Nat
  segment : Nat
  offset : Nat
  sequence : Nat
deriving DecidableEq, Repr

/-- The bytes of a checkpoint up to the checksum. -/
def checkpointBody (c : ZjCheckpoint) (receipt : Block 32) : List UInt8 :=
  ascii "ZJCP0001" ++ le 8 c.revision ++ le 8 c.segment ++ le 4 c.offset ++ le 4 0 ++
    le 8 c.sequence ++ receipt.val ++ le 4 0

def checkpointBytes (c : ZjCheckpoint) (receipt : Block 32) : Block zjCheckpointBytes :=
  ⟨checkpointBody c receipt ++ le 4 (dqCrc32 (checkpointBody c receipt)).toNat, by
    simp [checkpointBody, ascii, zjCheckpointBytes]⟩

/-- What `load_checkpoint` accepts. -/
def parseCheckpoint (cp : Block zjCheckpointBytes) : Option ZjCheckpoint :=
  let b := cp.val
  let c : ZjCheckpoint :=
    { revision := unle (slice b 8 8)
      segment := unle (slice b 16 8)
      offset := unle (slice b 24 4)
      sequence := unle (slice b 32 8) }
  if slice b 0 8 ≠ ascii "ZJCP0001" ∨ unle (slice b 76 4) ≠ (dqCrc32 (slice b 0 76)).toNat ∨
      c.revision = 0 ∨ c.segment > zjSequenceMax ∨ c.sequence > zjSequenceMax ∨
      unle (slice b 28 4) ≠ 0 ∨ unle (slice b 72 4) ≠ 0 then none
  else some c

def setCheckpoint (c : ZjCheckpoint) (s : ZjStore) : ZjStore :=
  { s with checkpointRevision := c.revision, readSegment := c.segment, readOffset := c.offset,
           lastSequence := c.sequence }

def loadCheckpoint (cp : Block zjCheckpointBytes) : ZjM π Bool := do
  let some c := parseCheckpoint cp | return false
  setStore (setCheckpoint c)
  return c.segment ≠ 0 || (c.offset = 0 && c.sequence = 0)

def recoveryPending (s : ZjStore) : ZjStore :=
  { s with checkpointRecoveryPending := s.segments.any fun g =>
      g.checkpointEvidence && (s.readSegment < g.id ||
        (g.id = s.readSegment && s.readOffset < g.size)) }

def evidenceMagic : List UInt8 := ascii "ZJCPE001"

/-- The loop of `preserve_checkpoint` over evidence that is already there. A previous failed
`fsync` is not proof of durability just because a read succeeds. -/
def preserveExisting (evidence : List UInt8) : List ZjSegment → ZjM π Bool
  | []      => return false
  | g :: gs => do
    if !g.checkpointEvidence then preserveExisting evidence gs
    else
      let existing ← readBytes g.id 0 checkpointEvidenceBytes
      if existing ≠ evidence then preserveExisting evidence gs
      else
        let some (some _) ← perform (probe g.id) | failure "checkpoint_evidence_open" .io
        let ok ← perform (fsync g.id)
        let closed ← look
        if ok && closed then return true else failure "checkpoint_evidence_sync" .uncertain

def pushSegment (g : ZjSegment) (s : ZjStore) : ZjStore := { s with segments := s.segments ++ [g] }

/-- The file for the evidence. -/
def writeEvidence (id : Nat) (evidence : List UInt8) : ZjM π Unit := do
  if ← perform (create id) then
    if ← look then
      if ← commitFile id 0 evidence false true then
        match ← perform (probe id) with
        | some (some f) =>
          if f.size = checkpointEvidenceBytes then
            setStore (pushSegment ⟨id, checkpointEvidenceBytes, false, true⟩)
          else failure "checkpoint_evidence_extent" .uncertain
        | _ => failure "checkpoint_evidence_extent" .uncertain
      else throw .uncertain
    else failure "checkpoint_evidence_fdopen" .io
  else failure "checkpoint_evidence_create" .io

/-- `preserve_checkpoint`: the damaged bytes become a segment of their own. -/
def preserveCheckpoint (P : ZjPort π) (cp : Block zjCheckpointBytes) : ZjM π Unit := do
  let evidence := evidenceMagic ++ cp.val
  if ← preserveExisting evidence (← getStore).segments then return
  else if (← getStore).segments.length = zjSegmentsMax then
    failure "checkpoint_evidence_capacity" .full
  else
    match ← onPort (P.admits checkpointEvidenceBytes) with
    | .full    => failure "checkpoint_evidence_admission" .full
    | .io      => failure "checkpoint_evidence_admission" .io
    | .granted =>
      let some id ← zjSequenceNext P | failure "nonce_reservation" .io
      writeEvidence id evidence

/-! ### Opening -/

/-- `read_header`: `none` stands for `ZJ_CORRUPT`. -/
def readHeader (g : ZjSegment) : ZjM π (Option (List UInt8 × ZjMetadata)) := do
  if g.size < zjMetaBytes then return none
  let some (some f) ← perform (probe g.id) | failure "header_open" .io
  let read ← look
  let closed ← look
  let header := slice f.bytes 0 zjMetaBytes
  if read && header.length = zjMetaBytes && closed then
    match zjMetadataDecode header with
    | some m => return if m.segmentId = g.id then some (header, m) else none
    | none   => return none
  else failure "header_read" .io

/-- The cursor cannot be right for the segment as it is. -/
def cursorDamaged (s : ZjStore) (g : ZjSegment) : Bool :=
  g.id = s.readSegment && (s.readOffset > g.size || (g.metadataValid && s.readOffset < zjMetaBytes))

/-- One directory entry in `zj_store_open`. -/
def scanEntry (persistedLimit : Nat) (name : List Char) : ZjM π ZjSegment := do
  let some id := fileId name | failure "segment_identity" .corrupt
  if id ≥ persistedLimit then failure "segment_identity" .corrupt
  if (← getStore).segments.length = zjSegmentsMax then failure "segment_capacity" .full
  let some (some f) ← perform (probe id) | failure "segment_stat" .io
  if f.size ≥ 2 ^ 32 then failure "segment_stat" .io
  let checked ← readHeader ⟨id, f.size, false, false⟩
  if f.size = checkpointEvidenceBytes then
    let magic ← readBytes id 0 8
    return ⟨id, f.size, checked.isSome, magic = evidenceMagic⟩
  return ⟨id, f.size, checked.isSome, false⟩

/-- The directory loop of `zj_store_open`; the result says whether to replay. -/
def scan (persistedLimit : Nat) : List (List Char) → Bool → ZjM π Bool
  | [], replay            => do
    if !(← look) then failure "directory_read" .io
    return replay
  | name :: names, replay => do
    if !(← look) then failure "directory_read" .io
    let g ← scanEntry persistedLimit name
    let damaged := cursorDamaged (← getStore) g
    setStore (pushSegment g)
    scan persistedLimit names (replay || damaged)

/-- The start of `zj_store_open`: the cursor from the checkpoint, if there is one. -/
def openCheckpoint (P : ZjPort π) (persistedLimit : Nat) :
    ZjM π (Option (Block zjCheckpointBytes) × Bool) := do
  let some loaded ← onPort P.load | failure "checkpoint_load" .io
  let some cp := loaded | return (none, false)
  let ok ← loadCheckpoint cp
  let s ← getStore
  if !ok || s.readSegment ≥ persistedLimit || s.lastSequence ≥ persistedLimit then
    setStore (setCheckpoint ⟨0, 0, 0, 0⟩)
    return (some cp, true)
  return (some cp, false)

/-- The checkpoint with which reading starts over. -/
def freshCheckpoint : Block zjCheckpointBytes := checkpointBytes ⟨1, 0, 0, 0⟩ (Block.zero 32)

/-- Replay from the earliest retained byte: the checkpoint is preserved and replaced. -/
def replayFrom (P : ZjPort π) (cp : Block zjCheckpointBytes) : ZjM π Unit := do
  setStore (setCheckpoint ⟨0, 0, 0, 0⟩)
  preserveCheckpoint P cp
  if !(← onPort (P.commit freshCheckpoint)) then failure "checkpoint_replay_commit" .uncertain
  if !(← loadCheckpoint freshCheckpoint) then throw .corrupt

def sortSegments (s : ZjStore) : ZjStore :=
  { s with segments := s.segments.mergeSort fun a b => a.id ≤ b.id }

/-- The rest of `zj_store_open`: the inventory, and the replay if the checkpoint is damaged. -/
def openFiles (P : ZjPort π) (persistedLimit : Nat) (loaded : Option (Block zjCheckpointBytes))
    (replay : Bool) : ZjM π Unit := do
  if !(← look) then failure "directory_open" .io
  let ids ← perform (Prog.gets fun w => w.disk.keys)
  let replay ← scan persistedLimit (ids.map filename) replay
  if !(← look) then failure "directory_close" .io
  setStore sortSegments
  match loaded, replay with
  | some cp, true => replayFrom P cp
  | _, _          => pure ()
  setStore fun s => { recoveryPending s with ready := true }

def zjStoreOpen (P : ZjPort π) (metadata : ZjMetadata) (persistedLimit : Nat) : ZjM π Unit := do
  setStore fun _ => { ZjStore.zero with writerMetadata := some metadata }
  let some header := zjMetadataEncode metadata | throw .invalid
  let some sequence := zjSequenceInit persistedLimit | throw .invalid
  setStore fun s => { s with writerHeader := header, sequence := sequence }
  let (loaded, replay) ← openCheckpoint P persistedLimit
  openFiles P persistedLimit loaded replay

/-! ### Appending -/

def writer (s : ZjStore) : Option ZjSegment :=
  if s.writerId = 0 then none else s.segments.find? (·.id = s.writerId)

/-- The inventory entry of a segment whose header was written. -/
def enterCreated (id : Nat) (ok : Bool) : ZjM π Unit := do
  match ← perform (probe id) with
  | some (some f) =>
    if f.size > zjSegmentBytes then
      setStore fun s => { s with ready := false }
      failure "segment_created_stat" .uncertain
    else
      let valid := ok && f.size = zjMetaBytes
      setStore (ZjStore.setSegment id fun g => { g with size := f.size, metadataValid := valid })
      if valid then setStore fun s => { s with writerId := id }
      else if ok then failure "segment_header_extent" .uncertain
      else throw .uncertain
  | _ =>
    setStore fun s => { s with ready := false }
    failure "segment_created_stat" .uncertain

/-- The file of a new segment. Inventory owns even a partially created file. -/
def createFile (id : Nat) (header : List UInt8) : ZjM π Unit := do
  if ← perform (create id) then
    setStore (pushSegment ⟨id, 0, false, false⟩)
    if ← look then
      enterCreated id (← commitFile id 0 header true true)
    else failure "segment_fdopen" .io
  else failure "segment_create" .io

def createSegment (P : ZjPort π) : ZjM π Unit := do
  if (← getStore).segments.length = zjSegmentsMax then failure "segment_capacity" .full
  if (← onPort (P.admits (zjMetaBytes + zjRecordMax))) ≠ .granted then throw .full
  let some id ← zjSequenceNext P | failure "nonce_reservation" .io
  setStore fun s => { s with writerMetadata := s.writerMetadata.map ({ · with segmentId := id }) }
  let some header := (← getStore).writerMetadata.bind zjMetadataEncode | throw .invalid
  setStore fun s => { s with writerHeader := header }
  createFile id header

/-- The stream is at the end of the segment, as the inventory knows it. -/
def positioned (f : File) (segment : ZjSegment) : ZjM π Bool := do
  if !(← look) then
    note "record_seek"
    return false
  if f.size ≠ segment.size then
    note "record_extent"
    return false
  return true

/-- The end of `zj_store_append`: write the record at the end of the writer's file. -/
def appendRecord (segment : ZjSegment) (sequence : Nat) (record : List UInt8) : ZjM π Nat := do
  let some (some f) ← perform (probe segment.id) | failure "record_open" .io
  let ok ← commitFile segment.id segment.size record false (← positioned f segment)
  if ok then
    setStore (ZjStore.setSegment segment.id fun g => { g with size := g.size + record.length })
    return sequence
  setStore fun s => { s with writerId := 0 }
  let found ← perform (probe segment.id)
  match found with
  | some (some f) =>
    if f.size > zjSegmentBytes then setStore fun s => { s with ready := false }
    else setStore (ZjStore.setSegment segment.id fun g => { g with size := f.size })
  | _ => setStore fun s => { s with ready := false }
  throw .uncertain

/-- A writer with room for one more record. -/
def ensureWriter (P : ZjPort π) : ZjM π Unit := do
  if (writer (← getStore)).any fun g => g.size ≤ zjSegmentBytes - zjRecordMax then return
  else
    setStore fun s => { s with writerId := 0 }
    createSegment P

def zjStoreAppend (P : ZjPort π) (o : ZjObservation) : ZjM π Nat := do
  if !(← getStore).ready then throw .invalid
  -- The storage owner, not the caller, allocates identity.
  if !zjObservationValid { o with sequence := 1 } then throw .invalid
  ensureWriter P
  let s ← getStore
  let some segment := writer s | throw .invalid
  if (← onPort (P.admits zjRecordMax)) ≠ .granted then throw .full
  let some sequence ← zjSequenceNext P | failure "nonce_reservation" .io
  let value := { o with sequence := sequence }
  match zjRecordEncode P.crypto s.writerHeader value zjRecordMax with
  | .error _   => failure "record_encode" .invalid
  | .ok record => do
    perform (Prog.modify (World.onNv fun n =>
      { n with log := ⟨s.writerHeader, value, record, segment.size⟩ :: n.log }))
    appendRecord segment sequence record

/-! ### Reading and settling -/

/-- Where reading goes on in a segment that is not before the cursor. -/
def offsetIn (s : ZjStore) (g : ZjSegment) : Nat :=
  if g.id = s.readSegment then s.readOffset
  else if g.metadataValid then zjMetaBytes else 0

/-- The first segment with unread bytes. -/
def headSegment (s : ZjStore) : Option ZjSegment :=
  s.segments.find? fun g => s.readSegment ≤ g.id && offsetIn s g < g.size

/-- What the bytes at the cursor are: `exception` is `none` for an observation. -/
structure ZjFrame where
  exception : ZjException
  observation : Option ZjObservation
  record : List UInt8

def frameAt (P : ZjPort π) (s : ZjStore) (g : ZjSegment) (offset : Nat) :
    Option (List UInt8 × ZjMetadata) → ZjM π ZjFrame
  | none               =>
    return ⟨if g.checkpointEvidence then .checkpoint else .metadata, none, []⟩
  | some (metadata, _) => do
    let remaining := g.size - offset
    if remaining < zjHeaderBytes then return ⟨.tail, none, []⟩
    let header ← readBytes g.id offset zjHeaderBytes
    let some framed := zjRecordLength header | return ⟨.frame, none, []⟩
    if framed > remaining then return ⟨.tail, none, []⟩
    let record ← readBytes g.id offset framed
    let log ← perform (Prog.gets fun w => w.nv.log)
    match zjRecordDecode P.crypto log metadata record with
    | .ok o    => return ⟨if o.sequence > s.lastSequence then .none else .auth, some o, record⟩
    | .error _ => return ⟨.auth, none, record⟩

/-- The scan for the next possible record: framing is tried again at the next marker. -/
def resync (window : List UInt8) (length : Nat) : Nat :=
  ((List.range' 1 (length - 1)).find? fun i =>
    i + 4 ≤ window.length && slice window i 4 = zjMarker).getD length

def exceptionLength (g : ZjSegment) (offset : Nat) (headerOk : Bool) : ZjM π Nat := do
  let remaining := g.size - offset
  let length := min remaining zjExceptionMax
  if headerOk && remaining > 4 then
    let window ← readBytes g.id offset (min remaining (zjExceptionMax + 3))
    return resync window length
  return length

def newItem (s : ZjStore) (header : Option (List UInt8 × ZjMetadata)) (frame : ZjFrame)
    (exceptionBytes : List UInt8) (token : ZjToken) : ZjItem where
  kind := if frame.exception = .none then .observation else .preservedException
  exception := frame.exception
  custodyEpoch := (s.writerMetadata.map (·.captureEpoch)).getD (Block.zero 16)
  custodySerial := (s.writerMetadata.map (·.terminalSerial)).getD []
  metadata := header.map Prod.snd
  observation := frame.observation
  exceptionBytes := exceptionBytes
  token := token

def zjStorePeek (P : ZjPort π) : ZjM π ZjItem := do
  let s ← getStore
  if !s.ready then throw .invalid
  let some g := headSegment s | throw .empty
  let offset := offsetIn s g
  let header ← readHeader g
  let frame ← frameAt P s g offset header
  if frame.exception = .none then
    let some digest := P.crypto.digest frame.record | failure "record_digest" .io
    let sequence := (frame.observation.map (·.sequence)).getD 0
    return newItem s header frame []
      ⟨g.id, offset, offset + frame.record.length, digest, sequence⟩
  -- Untrusted lengths never skip opaque bytes: every byte is kept until its receipt.
  let length ← exceptionLength g offset header.isSome
  let bytes ← readBytes g.id offset length
  let some digest := P.crypto.digest bytes | failure "exception_digest" .io
  return newItem s header frame bytes ⟨g.id, offset, offset + length, digest, 0⟩

/-- The checkpoint that retires the token. -/
def nextCheckpoint (s : ZjStore) (token : ZjToken) : ZjCheckpoint where
  revision := s.checkpointRevision + 1
  segment := token.segmentId
  offset := token.stop
  sequence := if token.sequence ≠ 0 then token.sequence else s.lastSequence

def zjStoreSettle (P : ZjPort π) (token : ZjToken) (receipt : Block 32) : ZjM π Unit := do
  let s ← getStore
  if !s.ready then throw .invalid
  if !receipt.present || s.checkpointRevision = uint64Max then throw .invalid
  let item ← zjStorePeek P
  if token ≠ item.token then throw .stale
  let cp := checkpointBytes (nextCheckpoint (← getStore) token) receipt
  if !(← onPort (P.commit cp)) then
    setStore fun s => { s with ready := false }
    failure "retirement_checkpoint" .uncertain
  if !(← loadCheckpoint cp) then
    setStore fun s => { s with ready := false }
    throw .corrupt
  setStore recoveryPending

/-! ### Reclaiming -/

/-- Nothing in the segment is still to be read. -/
def reclaimable (s : ZjStore) (g : ZjSegment) : Bool :=
  g.size = 0 || (g.metadataValid && g.size = zjMetaBytes) || g.id < s.readSegment ||
    (g.id = s.readSegment && g.size ≤ s.readOffset)

def zjStoreReclaimStep : ZjM π Unit := do
  let s ← getStore
  if !s.ready then throw .invalid
  let some g := s.segments.find? (reclaimable s) | throw .empty
  setStore fun s => { s with writerId := if s.writerId = g.id then 0 else s.writerId }
  if !(← perform (unlink g.id)) then failure "segment_reclaim" .io
  setStore fun s => { s with segments := s.segments.eraseP (reclaimable s) }

end Journal

end ZoneLite
