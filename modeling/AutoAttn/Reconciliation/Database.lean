import AutoAttn.Table
import AutoAttn.Reconciliation.Records

/-!
# The tables of the source ledger

The tables of one terminal behind one connector, so the columns that name the terminal and the
connector are left out. Columns that no modelled function reads are left out as well.
-/

namespace Reconciliation

/-! ### Rows -/

inductive JobStatus where
  | queued
  | running
  | paused
  | pauseRequested
  | cancelRequested
  | needsAttention
  | completed
  | cancelled
  | failed
  | invalidated
deriving DecidableEq

/-- The status as the database and the messages spell it. -/
def JobStatus.text : JobStatus → String
  | .queued          => "QUEUED"
  | .running         => "RUNNING"
  | .paused          => "PAUSED"
  | .pauseRequested  => "PAUSE_REQUESTED"
  | .cancelRequested => "CANCEL_REQUESTED"
  | .needsAttention  => "NEEDS_ATTENTION"
  | .completed       => "COMPLETED"
  | .cancelled       => "CANCELLED"
  | .failed          => "FAILED"
  | .invalidated     => "INVALIDATED"

/-- `TERMINAL_JOB_STATES` -/
def terminalJobStates : List JobStatus := [.completed, .cancelled, .failed, .invalidated]

/-- `PAUSED_JOB_STATES` -/
def pausedJobStates : List JobStatus := [.paused, .pauseRequested, .cancelRequested]

/-- The part of a certificate that says which ledger of an older generation it replaced, and
which of that ledger's ordinals later reads must still match. -/
structure Replay where
  sourceEpoch : Nat
  through : Nat
  previousRowRequired : Bool
deriving DecidableEq

structure Superseded where
  terminalGeneration : Nat
  replay : Option Replay
deriving DecidableEq

/-- A sealed capture certificate. Its signature is made and checked by ADD alone. -/
structure Certificate (D : Type) where
  jobId : Nat
  terminalSerial : Option String
  terminalGeneration : Nat
  certifiedSourceCursor : Nat
  sourceChainDigest : D
  supersededGeneration : Option Superseded
deriving DecidableEq

/-- `ReconciliationJob`. -/
structure Job (D : Type) where
  id : Nat
  status : JobStatus
  terminalSerial : Option String
  terminalGeneration : Nat
  sourceEpochId : Nat
  cutoffCount : Option Nat
  recordSize : Option Nat
  firstAnchorDigest : Option D
  committedNextOrdinal : Nat
  lastChainDigest : Option D
  activeAssignmentId : Option Nat
  creditStartOrdinal : Option Nat
  creditEndOrdinal : Option Nat
  captureCertificate : Option (Certificate D)
  error : Option (String × String)

inductive EpochState where
  | candidate
  | active
  | superseded
deriving DecidableEq

/-- `TerminalSourceEpoch`. -/
structure Epoch where
  id : Nat
  terminalGeneration : Nat
  sequence : Nat
  state : EpochState
  createdAt : Nat

/-- `ReconciliationChunk`. -/
structure Chunk (D : Type) where
  id : Nat
  jobId : Nat
  generation : Nat
  sequence : Nat
  startOrdinal : Nat
  endOrdinal : Nat
  recordCount : Nat
  chunkDigest : D
  previousChainDigest : Option D
  resultingChainDigest : D
  rawPreservedCount : Nat

inductive SourceKind where
  | baseline
  | tail
  | recoveryPrefix
  | baselineReread
  | tailReplay
deriving DecidableEq

/-- `TerminalRecordManifest`: one read of one ordinal. -/
structure Manifest (D : Type) where
  id : Nat
  jobId : Option Nat
  terminalSerial : String
  generation : Nat
  sourceEpochId : Nat
  ordinal : Nat
  sourceKind : SourceKind
  canonicalSource : Bool
  recordSize : Nat
  rawRecordDigest : D
  terminalRecordKey : D
  occurrenceIndex : Nat
  attendanceEventId : Option Nat
  disposition : Disposition
  protectedRawRecord : Option (List UInt8)
  errorCode : Option String

/-- `ReconciliationCoverage`. -/
structure Coverage (D : Type) where
  id : Nat
  jobId : Nat
  sourceEpochId : Nat
  terminalSerial : String
  terminalGeneration : Nat
  certifiedSourceCursor : Nat
  sourceChainDigest : D
  sourceCommittedCursor : Nat
  sourceCommittedChainDigest : D
  captureEvidence : Certificate D
  active : Bool
  invalidatedReason : Option String
  capturedAt : Nat

/-- `SourceTailChunk`. -/
structure TailChunk (D : Type) where
  id : Nat
  coverageId : Nat
  generation : Nat
  startOrdinal : Nat
  endOrdinal : Nat
  latestTerminalCount : Nat
  recordCount : Nat
  chunkDigest : D
  previousChainDigest : D
  resultingChainDigest : D
  rawPreservedCount : Nat

inductive DivergenceState where
  | observed
  | probing
  | transientRecovered
  | unstableReviewRequired
  | mutationLimitReviewRequired
  | confirmedNewEpoch
  | supersededByNewestRecordRule
deriving DecidableEq

inductive ObservationKind where
  | reconciliationChunk
  | freshSourceProbe
deriving DecidableEq

structure Observation (D : Type) where
  kind : ObservationKind
  rawRecordDigest : D
  disposition : Disposition

/-- `ReconciliationDivergence`. -/
structure Divergence (D : Type) where
  id : Nat
  jobId : Nat
  sourceEpochId : Nat
  ordinal : Nat
  state : DivergenceState
  oldRawDigest : D
  newRawDigest : D
  newDisposition : Disposition
  observations : List (Observation D)
  createdAt : Nat

/-- `AttendanceEvent`. `owned` says that the row belongs to this connector and terminal. -/
structure Attendance (D : Type) where
  id : Nat
  eventUid : D
  owned : Bool
  deviceSerial : Option String
  userId : String
  deviceEventTime : Int
  punch : Option String
  blockedIdentity : Bool
  cnicKnown : Bool

variable {D : Type}

instance : Row (Job D) := ⟨Job.id⟩
instance : Row Epoch := ⟨Epoch.id⟩
instance : Row (Chunk D) := ⟨Chunk.id⟩
instance : Row (Manifest D) := ⟨Manifest.id⟩
instance : Row (Coverage D) := ⟨Coverage.id⟩
instance : Row (TailChunk D) := ⟨TailChunk.id⟩
instance : Row (Divergence D) := ⟨Divergence.id⟩
instance : Row (Attendance D) := ⟨Attendance.id⟩

@[simp] lemma rowId_job (r : Job D) : Row.rowId r = r.id := rfl
@[simp] lemma rowId_epoch (r : Epoch) : Row.rowId r = r.id := rfl
@[simp] lemma rowId_chunk (r : Chunk D) : Row.rowId r = r.id := rfl
@[simp] lemma rowId_manifest (r : Manifest D) : Row.rowId r = r.id := rfl
@[simp] lemma rowId_coverage (r : Coverage D) : Row.rowId r = r.id := rfl
@[simp] lemma rowId_tailChunk (r : TailChunk D) : Row.rowId r = r.id := rfl
@[simp] lemma rowId_divergence (r : Divergence D) : Row.rowId r = r.id := rfl
@[simp] lemma rowId_attendance (r : Attendance D) : Row.rowId r = r.id := rfl

/-- The tables, and the serial the connector reports for its terminal. -/
structure Db (D : Type) where
  zktSerial : Option String
  jobs : Table (Job D)
  epochs : Table Epoch
  chunks : Table (Chunk D)
  manifests : Table (Manifest D)
  coverages : Table (Coverage D)
  tailChunks : Table (TailChunk D)
  divergences : Table (Divergence D)
  attendance : Table (Attendance D)
  /-- The idempotency keys of recorded tail replays: coverage, range and digests. -/
  supersededReplays : List (Nat × Nat × Nat × D × D)

/-- The settings and the facts about the connector that a request meets. -/
structure Env (D : Type) where
  /-- The connector's firmware must name a source epoch. -/
  epochRequired : Bool
  zktCustodyEnabled : Bool
  piiFernetKey : Bool
  selfHealingEnabled : Bool
  now : Nat
  /-- `_owner_still_bound` of rows another connector owns. -/
  ownerStillBound : List (Attendance D) → Bool
  /-- An attendance row is part of a repair approval. -/
  reviewed : Nat → Bool
  /-- The identity that ingestion finds for a punch: whether it is held for identity, and
  whether a CNIC is known. -/
  identity : AttendanceEventIn D → Bool × Bool

/-! ### Canonical rows -/

/-- The row is the canonical read of `ordinal` in the ledger of a generation and an epoch. -/
def Manifest.Canonical (m : Manifest D) (generation epoch ordinal : Nat) : Prop :=
  m.canonicalSource = true ∧ m.generation = generation ∧ m.sourceEpochId = epoch ∧
    m.ordinal = ordinal

instance (m : Manifest D) (g e o : Nat) : Decidable (m.Canonical g e o) :=
  inferInstanceAs (Decidable (_ ∧ _ ∧ _ ∧ _))

namespace Db

/-- The canonical row of an ordinal. -/
def sourceRow (db : Db D) (generation epoch ordinal : Nat) : Option (Manifest D) :=
  db.manifests.rows.find? fun m => m.Canonical generation epoch ordinal

/-- The canonical rows of a ledger from `start` up to `stop`. -/
def ledgerScope (db : Db D) (generation epoch start stop : Nat) : List (Manifest D) :=
  db.manifests.rows.filter fun m =>
    m.canonicalSource && m.generation == generation && m.sourceEpochId == epoch &&
      decide (start ≤ m.ordinal ∧ m.ordinal < stop)

/-- Add a read, under the two unique constraints of its table. -/
def addManifest (db : Db D) (mk : Nat → Manifest D)
    (h : ∀ i, Row.rowId (mk i) = i := by intro _; rfl) : Except Refusal (Db D) := do
  let m := mk db.manifests.rows.length
  refuse (m.jobId ≠ none ∧ ∃ x ∈ db.manifests.rows,
      x.jobId = m.jobId ∧ x.generation = m.generation ∧ x.ordinal = m.ordinal)
    (.integrity "uq_add_terminal_record_ordinal")
  refuse (m.canonicalSource = true ∧
      ∃ x ∈ db.manifests.rows, x.Canonical m.generation m.sourceEpochId m.ordinal)
    (.integrity "uq_add_terminal_source_ordinal")
  return { db with manifests := db.manifests.insert mk h }

/-- `retire`: keep a read as evidence, but no longer as its slot's source. -/
def retire (db : Db D) (prior : Manifest D) : Db D :=
  { db with
    manifests := db.manifests.put { prior with canonicalSource := false } }

def putJob (db : Db D) (job : Job D) : Db D := { db with jobs := db.jobs.put job }

def putCoverage (db : Db D) (coverage : Coverage D) : Db D :=
  { db with coverages := db.coverages.put coverage }

def putDivergence (db : Db D) (divergence : Divergence D) : Db D :=
  { db with divergences := db.divergences.put divergence }

/-- `active_coverage` -/
def activeCoverage (db : Db D) : Option (Coverage D) := db.coverages.rows.find? (·.active)

end Db

/-! ### Jobs -/

/-- `_release_assignment` -/
def Job.releaseAssignment (job : Job D) : Job D :=
  { job with activeAssignmentId := none, creditStartOrdinal := none, creditEndOrdinal := none }

/-- `_device_job` -/
def deviceJob (db : Db D) (jobId : Nat) : Except Refusal (Job D) :=
  match db.jobs.get? jobId with
  | some job => .ok job
  | none     => .error (.evidence "RECONCILIATION_JOB_UNKNOWN" "Unknown reconciliation assignment.")

/-- `_require_runnable` -/
def requireRunnable (job : Job D) (generation : Nat) : Except Refusal Unit := do
  refuse (job.status ∈ terminalJobStates ∨ job.status ∈ pausedJobStates)
    (.evidence "RECONCILIATION_NOT_RUNNABLE"
      ("Reconciliation is not accepting source data while " ++ job.status.text ++ "."))
  refuse (generation ≠ job.terminalGeneration)
    (.evidence "SOURCE_GENERATION_MISMATCH"
      "Reconciliation generation does not match the assignment.")

/-- `source_epoch_uuid` of a job or a coverage with this epoch and generation. -/
def sourceEpochUuid (db : Db D) (sourceEpochId terminalGeneration : Nat) : Option Nat :=
  match db.epochs.get? sourceEpochId with
  | some epoch =>
    if epoch.terminalGeneration = terminalGeneration ∧ epoch.state ≠ .superseded then
      some epoch.id
    else none
  | none => none

/-- `_require_source_epoch` -/
def requireSourceEpoch (env : Env D) (db : Db D) (sourceEpochId terminalGeneration : Nat)
    (supplied : Option Nat) : Except Refusal Unit :=
  refuse (¬ (supplied = none ∧ env.epochRequired = false) ∧
      (supplied = none ∨ supplied ≠ sourceEpochUuid db sourceEpochId terminalGeneration))
    (.evidence "SOURCE_EPOCH_MISMATCH"
      "Source epoch is missing, stale, or belongs to another terminal.")

/-- `_safety_hold` -/
def safetyHold (db : Db D) (job : Job D) (code message : String) : Db D :=
  db.putJob { job.releaseAssignment with status := .needsAttention, error := some (code, message) }

/-- `_require_raw_custody` -/
def requireRawCustody (env : Env D) : List (SourceRecord D) → Except Refusal Unit
  | []          => .ok ()
  | row :: rows =>
    if row.disposition ≠ .rawPreserved then requireRawCustody env rows
    else do
      refuse (env.zktCustodyEnabled = false) (.value "RAW_SOURCE_CUSTODY_NOT_ENABLED")
      refuse (row.event ≠ none ∨ row.rawTimestamp ≠ none ∨ row.observedUid ≠ none ∨
          row.observedUserId ≠ none ∨ row.errorCode ≠ none)
        (.value "RAW_SOURCE_CUSTODY_CANNOT_CLAIM_INTERPRETATION")
      refuse (env.piiFernetKey = false) (.value "RAW_SOURCE_CUSTODY_KEY_UNAVAILABLE")
      requireRawCustody env rows

end Reconciliation
