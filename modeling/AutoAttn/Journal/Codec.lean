import AutoAttn.Bytes
import AutoAttn.Text

/-!
# The journal's byte protocol

A segment file starts with 240 bytes of metadata. A record is a 24 byte header, the sealed facts
and raw bytes of one observation, and the tag; metadata and header are authenticated with it.
-/

namespace ZoneLite

open Bytes

/-! ### Values -/

/-- `ZJ_SEQUENCE_MAX`. -/
def zjSequenceMax : Nat := 2 ^ 63 - 1

/-- `ZJ_META_BYTES`. -/
def zjMetaBytes : Nat := 240

/-- `ZJ_HEADER_BYTES`. -/
def zjHeaderBytes : Nat := 24

/-- `ZJ_FACT_BYTES`. -/
def zjFactBytes : Nat := 40

/-- `ZJ_TAG_BYTES`. -/
def zjTagBytes : Nat := 16

/-- `ZJ_RAW_MAX`. -/
def zjRawMax : Nat := 512

/-- `ZJ_RECORD_MAX`. -/
def zjRecordMax : Nat := zjHeaderBytes + zjFactBytes + zjRawMax + zjTagBytes

/-- `zj_raw_format_t`. -/
inductive ZjRawFormat where
  | liveFrame
  | sourceRecord
  | unknown
  | livePacket
  | packetFragment
deriving DecidableEq, Repr

/-- `zj_time_quality_t`. -/
inductive ZjTimeQuality where
  | verified
  | unsynced
  | invalid
  | unknown
deriving DecidableEq, Repr

namespace ZjRawFormat

def toByte : ZjRawFormat → UInt8
  | liveFrame      => 1
  | sourceRecord   => 2
  | unknown        => 3
  | livePacket     => 4
  | packetFragment => 5

def ofByte (b : UInt8) : Option ZjRawFormat :=
  [liveFrame, sourceRecord, unknown, livePacket, packetFragment].find? (·.toByte = b)

@[simp] lemma ofByte_toByte (f : ZjRawFormat) : ofByte f.toByte = some f := by
  cases f <;> rfl

end ZjRawFormat

namespace ZjTimeQuality

def toByte : ZjTimeQuality → UInt8
  | verified => 1
  | unsynced => 2
  | invalid  => 3
  | unknown  => 4

def ofByte (b : UInt8) : Option ZjTimeQuality :=
  [verified, unsynced, invalid, unknown].find? (·.toByte = b)

@[simp] lemma ofByte_toByte (q : ZjTimeQuality) : ofByte q.toByte = some q := by
  cases q <;> rfl

end ZjTimeQuality

/-- `zj_metadata_t`. The texts are held without their terminating NUL. -/
structure ZjMetadata where
  segmentId : Nat
  captureEpoch : Block 16
  terminalSerial : List UInt8
  decoderProfile : List UInt8
  decoderVersion : List UInt8
deriving DecidableEq

/-- `zj_observation_t`. `raw` is the used part of the array, so `raw_length` is its length. -/
structure ZjObservation where
  sequence : Nat
  rawFormat : ZjRawFormat
  timeQuality : ZjTimeQuality
  encodedTime : UInt32
  capturedAtSeconds : Int64
  capturedUptimeMs : UInt64
  /-- All zero for observations without source proof. -/
  sourceEpoch : Block 16
  /-- `UINT32_MAX` when there is no canonical source reference. -/
  sourceOrdinal : UInt32
  identityRevision : UInt32
  raw : List UInt8
deriving DecidableEq

/-- `zj_codec_result_t`, without the success. -/
inductive ZjCodecError where
  | invalid
  | small
  | auth
  | crypto
deriving DecidableEq, Repr

/-- One thing that was sealed: a record under the metadata of its segment, and where in the
segment it goes. -/
structure ZjSealed where
  metadata : List UInt8
  observation : ZjObservation
  record : List UInt8
  offset : Nat
deriving DecidableEq

/-- `zj_crypto_port_t`. What `openBytes` accepts may depend on what has been sealed so far, so that an
idealised cipher is one of its instances. -/
structure ZjCrypto where
  sealBytes : (metadata nonce aad plain : List UInt8) → Option (List UInt8 × Block 16)
  openBytes : List ZjSealed → (metadata nonce aad cipher tag : List UInt8) → Option (List UInt8)
  digest : List UInt8 → Option (Block 32)
  length_sealBytes : ∀ {m n a p c t}, sealBytes m n a p = some (c, t) → c.length = p.length
  length_openBytes : ∀ {log m n a c t p}, openBytes log m n a c t = some p → p.length = c.length

/-! ### Metadata -/

def identChar (c : UInt8) : Bool :=
  ('a'.toUInt8 ≤ c ∧ c ≤ 'z'.toUInt8) ∨ ('A'.toUInt8 ≤ c ∧ c ≤ 'Z'.toUInt8) ∨
    ('0'.toUInt8 ≤ c ∧ c ≤ '9'.toUInt8) ∨ c = '.'.toUInt8 ∨ c = '_'.toUInt8 ∨
    c = ':'.toUInt8 ∨ c = '-'.toUInt8

/-- `identifier`: a text that fits a buffer of `capacity` bytes with its NUL. -/
def identifier (p : List UInt8) (capacity : Nat) : Bool :=
  p ≠ [] ∧ p.length < capacity ∧ p.all identChar

/-- A text in a buffer that was cleared first. -/
def field (capacity : Nat) (p : List UInt8) : List UInt8 := p.rightpad capacity 0

/-- The text in a buffer. -/
def cstr (buffer : List UInt8) : List UInt8 := buffer.takeWhile (· ≠ 0)

def zjMetadataEncode (m : ZjMetadata) : Option (List UInt8) :=
  if m.segmentId ≠ 0 ∧ m.segmentId ≤ zjSequenceMax ∧ m.captureEpoch.present ∧
      identifier m.terminalSerial 81 ∧ identifier m.decoderProfile 65 ∧
      identifier m.decoderVersion 33 then
    some (ascii "ZJ270S01" ++ le 2 1 ++ le 2 zjMetaBytes ++ le 4 0 ++ le 8 m.segmentId ++
      m.captureEpoch.val ++ field 81 m.terminalSerial ++ field 65 m.decoderProfile ++
      field 33 m.decoderVersion ++ List.replicate 21 0)
  else none

def zjMetadataDecode (b : List UInt8) : Option ZjMetadata :=
  if slice b 0 8 ≠ ascii "ZJ270S01" ∨ unle (slice b 8 2) ≠ 1 ∨ unle (slice b 10 2) ≠ zjMetaBytes
  then none
  else
    let candidate : ZjMetadata :=
      { segmentId := unle (slice b 16 8)
        captureEpoch := .ofList 16 (slice b 24 16)
        terminalSerial := cstr (slice b 40 81)
        decoderProfile := cstr (slice b 121 65)
        decoderVersion := cstr (slice b 186 33) }
    if zjMetadataEncode candidate = some b then some candidate else none

/-! ### Records -/

def zjObservationValid (o : ZjObservation) : Bool :=
  o.sequence ≠ 0 ∧ o.sequence ≤ zjSequenceMax ∧ o.raw ≠ [] ∧ o.raw.length ≤ zjRawMax ∧
    0 ≤ o.capturedAtSeconds ∧
    ((o.sourceOrdinal = 0xffffffff ∧ !o.sourceEpoch.present) ∨
      (o.sourceOrdinal ≤ 0x7fffffff ∧ o.sourceEpoch.present ∧ o.rawFormat = .sourceRecord))

/-- The marker a record starts with. -/
def zjMarker : List UInt8 := ascii "ZJO1"

/-- `zj_record_length`: only bounds and framing. -/
def zjRecordLength (h : List UInt8) : Option Nat :=
  let raw := unle (slice h 20 2)
  let total := zjHeaderBytes + zjFactBytes + raw + zjTagBytes
  if slice h 0 4 = zjMarker ∧ (ZjRawFormat.ofByte (h.getD 6 0)).isSome ∧
      (ZjTimeQuality.ofByte (h.getD 7 0)).isSome ∧ unle (slice h 8 8) ≠ 0 ∧
      unle (slice h 8 8) ≤ zjSequenceMax ∧ unle (slice h 22 2) = 0 ∧
      raw ≠ 0 ∧ raw ≤ zjRawMax ∧ unle (slice h 4 2) = total then
    some total
  else none

def nonceFor (sequence : Nat) : List UInt8 := ascii "ZJ01" ++ le 8 sequence

/-- The header of a record. -/
def recordHeader (o : ZjObservation) : List UInt8 :=
  zjMarker ++ le 2 (zjHeaderBytes + zjFactBytes + o.raw.length + zjTagBytes) ++
    [o.rawFormat.toByte, o.timeQuality.toByte] ++ le 8 o.sequence ++ le 4 o.encodedTime.toNat ++
    le 2 o.raw.length ++ le 2 0

/-- The facts and raw bytes of a record. -/
def recordPlain (o : ZjObservation) : List UInt8 :=
  le 8 o.capturedAtSeconds.toUInt64.toNat ++ le 8 o.capturedUptimeMs.toNat ++ o.sourceEpoch.val ++
    le 4 o.sourceOrdinal.toNat ++ le 4 o.identityRevision.toNat ++ o.raw

def zjRecordEncode (crypto : ZjCrypto) (metadata : List UInt8) (o : ZjObservation)
    (capacity : Nat) : Except ZjCodecError (List UInt8) :=
  if !zjObservationValid o || (zjMetadataDecode metadata).isNone then .error .invalid
  else if capacity < zjHeaderBytes + zjFactBytes + o.raw.length + zjTagBytes then .error .small
  else match crypto.sealBytes metadata (nonceFor o.sequence) (metadata ++ recordHeader o)
      (recordPlain o) with
    | none               => .error .crypto
    | some (cipher, tag) => .ok (recordHeader o ++ cipher ++ tag.val)

/-- The observation a record holds, from its header and what was sealed. -/
def recordObservation (record plain : List UInt8) : Option ZjObservation := do
  let rawFormat ← ZjRawFormat.ofByte (record.getD 6 0)
  let timeQuality ← ZjTimeQuality.ofByte (record.getD 7 0)
  let wallTime := unle (slice plain 0 8)
  let candidate : ZjObservation :=
    { sequence := unle (slice record 8 8)
      rawFormat
      timeQuality
      encodedTime := .ofNat (unle (slice record 16 4))
      capturedAtSeconds := .ofNat wallTime
      capturedUptimeMs := .ofNat (unle (slice plain 8 8))
      sourceEpoch := .ofList 16 (slice plain 16 16)
      sourceOrdinal := .ofNat (unle (slice plain 32 4))
      identityRevision := .ofNat (unle (slice plain 36 4))
      raw := slice plain zjFactBytes (unle (slice record 20 2)) }
  if wallTime ≤ 2 ^ 63 - 1 ∧ zjObservationValid candidate then some candidate else none

def zjRecordDecode (crypto : ZjCrypto) (log : List ZjSealed) (metadata record : List UInt8) :
    Except ZjCodecError ZjObservation :=
  if record.length < zjHeaderBytes || (zjMetadataDecode metadata).isNone ||
      zjRecordLength record ≠ some record.length then .error .invalid
  else
    let total := record.length
    match crypto.openBytes log metadata (nonceFor (unle (slice record 8 8)))
        (metadata ++ slice record 0 zjHeaderBytes)
        (slice record zjHeaderBytes (total - zjHeaderBytes - zjTagBytes))
        (slice record (total - zjTagBytes) zjTagBytes) with
    | none       => .error .auth
    | some plain =>
      match recordObservation record plain with
      | none   => .error .invalid
      | some o => .ok o

/-! ### Sequence numbers -/

/-- `zj_sequence_t`. -/
structure ZjSequence where
  next : Nat
  limit : Nat
  ready : Bool
deriving DecidableEq, Repr

def zjSequenceInit (persistedLimit : Nat) : Option ZjSequence :=
  if persistedLimit = 0 ∨ persistedLimit > zjSequenceMax + 1 then none
  else some ⟨persistedLimit, persistedLimit, true⟩

/-- The limit the next reservation asks for. -/
def nextLimit (next : Nat) : Nat :=
  if next > zjSequenceMax + 1 - 256 then zjSequenceMax + 1 else next + 256

end ZoneLite
