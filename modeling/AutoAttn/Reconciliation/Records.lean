import Mathlib.Data.List.Range

/-!
# Source records and the requests that carry them

A connector reads its terminal's attendance log by ordinal and sends what it read in bounded
requests. The structures below hold what the request schemas accept: a value that a schema
refuses cannot be built.

`D` stands for the 64-digit lower-case hexadecimal strings: digests, record keys and event UIDs.
-/

namespace Reconciliation

/-- What a reader says about one terminal record. -/
inductive Disposition where
  | event
  | blockedIdentity
  | identityUnresolved
  | invalidTime
  | malformed
  | terminalDuplicate
  | rawPreserved
deriving DecidableEq

/-- `AttendanceEventIn.source`. -/
inductive CaptureSource where
  | live
  | livePoll
  | dumpStartup
  | dumpReconnect
  | manualReprocess
  | reconcile15m
  | fullHistory
  | currentReconcile
deriving DecidableEq

/-- The punch a reader decoded from a record. -/
structure AttendanceEventIn (D : Type) where
  terminalSerial : Option String
  eventUid : D
  userId : String
  deviceEventTime : Int
  source : CaptureSource
  punch : Option String

/-- `ReconciliationSourceRecord`. `rawRecord` is what strict base64 decoding makes of
`raw_record_b64`, `none` when it refuses the text. The last four fields are the schema's own
rules. -/
structure SourceRecord (D : Type) where
  ordinal : Nat
  rawRecordDigest : D
  terminalRecordKey : D
  occurrenceIndex : Nat
  disposition : Disposition
  event : Option (AttendanceEventIn D)
  rawRecord : Option (List UInt8)
  errorCode : Option String := none
  rawTimestamp : Option Nat := none
  observedUid : Option String := none
  observedUserId : Option String := none
  occurrence_pos : 1 ≤ occurrenceIndex
  rawPreserved_claims : disposition = .rawPreserved →
    event = none ∧ rawTimestamp = none ∧ observedUid = none ∧ observedUserId = none ∧
      errorCode = none
  unresolved_event : disposition = .identityUnresolved → event = none
  parsed_event : disposition = .event ∨ disposition = .blockedIdentity → event ≠ none

/-- `SOURCE_SIZES`: the record layouts ADD knows. -/
def sourceSizes : List Nat := [8, 16, 40, 49]

/-- `TEXT_SOURCE_SIZES`: the layouts with a text user ID in bytes 2 to 25. -/
def textSourceSizes : List Nat := [40, 49]

/-- `ReconciliationAnchorRequest`. A row named by a UUID is named by its table number here. -/
structure AnchorRequest (D : Type) where
  sourceEpoch : Option Nat
  jobId : Nat
  generation : Nat
  terminalSerial : String
  terminalGeneration : Nat
  cutoffCount : Nat
  latestTerminalCount : Nat
  recordSize : Nat
  sourceTotalBytes : Nat
  firstAnchorDigest : D
  generation_pos : 1 ≤ generation
  terminalGeneration_pos : 1 ≤ terminalGeneration
  layout : recordSize ∈ sourceSizes

/-- `ReconciliationChunkRequest`. -/
structure ChunkRequest (D : Type) where
  sourceEpoch : Option Nat
  assignmentId : Option Nat
  jobId : Nat
  generation : Nat
  sequence : Nat
  startOrdinal : Nat
  endOrdinal : Nat
  chunkDigest : D
  previousChainDigest : Option D
  resultingChainDigest : D
  records : List (SourceRecord D)
  generation_pos : 1 ≤ generation
  bounds : 1 ≤ records.length ∧ records.length ≤ 100
  range : endOrdinal = startOrdinal + records.length
  contiguous : records.map (·.ordinal) = List.range' startOrdinal records.length

/-- `SourceTailChunkRequest`. -/
structure TailRequest (D : Type) where
  sourceEpoch : Option Nat
  terminalSerial : String
  terminalGeneration : Nat
  recordSize : Nat
  startOrdinal : Nat
  endOrdinal : Nat
  latestTerminalCount : Nat
  chunkDigest : D
  previousChainDigest : D
  resultingChainDigest : D
  records : List (SourceRecord D)
  terminalGeneration_pos : 1 ≤ terminalGeneration
  layout : recordSize ∈ sourceSizes
  bounds : 1 ≤ records.length ∧ records.length ≤ 100
  range : endOrdinal = startOrdinal + records.length
  observed : endOrdinal ≤ latestTerminalCount
  contiguous : records.map (·.ordinal) = List.range' startOrdinal records.length

/-- `SourceProbeResultRequest`. -/
structure ProbeRequest (D : Type) where
  sourceEpoch : Option Nat
  jobId : Nat
  generation : Nat
  terminalSerial : String
  recordSize : Nat
  ordinal : Nat
  record : SourceRecord D
  generation_pos : 1 ≤ generation
  layout : recordSize ∈ sourceSizes

/-- `ReconciliationManifestRequest`. -/
structure ManifestRequest (D : Type) where
  sourceEpoch : Option Nat
  jobId : Nat
  generation : Nat
  terminalSerial : String
  terminalGeneration : Nat
  cutoffCount : Nat
  latestTerminalCount : Nat
  finalChainDigest : D
  generation_pos : 1 ≤ generation
  terminalGeneration_pos : 1 ≤ terminalGeneration

/-- The reasons a connector gives for returning its credit. -/
inductive ReleaseReason where
  | commandPending
  | leaseExpiring
  | heapPressure
  | disconnecting
  | transientStepFailed

/-- `ReconciliationAssignmentReleaseRequest`. -/
structure ReleaseRequest where
  sourceEpoch : Option Nat
  assignmentId : Nat
  jobId : Nat
  generation : Nat
  committedNextOrdinal : Nat
  reason : ReleaseReason
  generation_pos : 1 ≤ generation

/-! ### Digests -/

/-- The texts ADD hashes: a raw record, the canonical JSON of a chunk's records, and the line
that links a chunk to the chain before it. -/
inductive Material (D : Type) where
  | raw (bytes : List UInt8)
  | chunk (records : List (Disposition × Option D × Nat × Nat × D × D))
  | chain (previous : D) (startOrdinal endOrdinal : Nat) (chunkDigest : D)

/-- SHA-256 in hexadecimal, and the string of 64 zeros. -/
structure Hash (D : Type) where
  sha256 : Material D → D
  zeros : D

variable {D : Type}

def reconciliationChunkDigest (hash : Hash D) (records : List (SourceRecord D)) : D :=
  hash.sha256 <| .chunk <| records.map fun row =>
    (row.disposition, row.event.map (·.eventUid), row.occurrenceIndex, row.ordinal,
      row.rawRecordDigest, row.terminalRecordKey)

def reconciliationChainDigest (hash : Hash D) (previous : Option D)
    (startOrdinal endOrdinal : Nat) (chunkDigest : D) : D :=
  hash.sha256 (.chain (previous.getD hash.zeros) startOrdinal endOrdinal chunkDigest)

/-- `_source_identity_missing`: the bytes carry no enrolment reference. It is asked only after
the bytes were verified. -/
def sourceIdentityMissing (source : SourceRecord D) : Bool :=
  match source.event, source.rawRecord with
  | some _, some raw =>
    raw.length = 8 || (raw.length ∈ textSourceSizes &&
      (((raw.drop 2).take 24).takeWhile (· != 0)).all (· == 32))
  | _, _ => false

/-! ### Refusals -/

/-- An exception that rolls the whole transaction back. -/
inductive Refusal where
  /-- `EvidenceRejected` -/
  | evidence (code message : String)
  /-- `ValueError` -/
  | value (message : String)
  /-- `IntegrityError`: a unique constraint of the database -/
  | integrity (constraint : String)

/-- Raise the refusal when the condition holds. -/
def refuse (c : Prop) [Decidable c] (r : Refusal) : Except Refusal Unit :=
  if c then .error r else .ok ()

@[simp] lemma refuse_eq_ok {c : Prop} [Decidable c] {r : Refusal} {u : Unit} :
    refuse c r = .ok u ↔ ¬ c := by
  unfold refuse
  split_ifs with h <;> simp [h]

/-- A sequence returns when its first part returns and the rest returns from there. -/
lemma bind_eq_ok {α β : Type} {x : Except Refusal α} {f : α → Except Refusal β} {b : β} :
    x >>= f = .ok b ↔ ∃ a, x = .ok a ∧ f a = .ok b := by
  cases x with
  | error r => simp [bind, Except.bind]
  | ok a => simp [bind, Except.bind]

@[simp] lemma pure_eq_ok {α : Type} {a b : α} :
    (pure a : Except Refusal α) = .ok b ↔ a = b := by
  simp [pure, Except.pure]

end Reconciliation
