import Mathlib.Data.List.MinMax
import AutoAttn.Reconciliation.Database

/-!
# Reads of the terminal's newest slot

A read of the slot that was the newest one when it was read is not evidence of the punch the slot
will hold. The functions below recognise such reads from the receipts they were stored with.
-/

namespace Reconciliation

variable {D : Type} [DecidableEq D]

/-- `HELD_CODE`: ADD's own code on a held newest-slot punch. -/
def heldCode : String := "TERMINAL_NEWEST_RECORD_UNCONFIRMED"

/-- `PARSED_DISPOSITIONS` -/
def parsedDispositions : List Disposition := [.event, .blockedIdentity, .terminalDuplicate]

/-- `read_was_newest` -/
def readWasNewest (ordinal latestTerminalCount : Nat) : Bool := ordinal + 1 == latestTerminalCount

/-- `baseline_newest_ordinal`: the final ordinal of a baseline. -/
def baselineNewestOrdinal (job : Job D) : Option Nat :=
  match job.cutoffCount with
  | some (n + 1) => some n
  | _            => none

/-- `is_held` -/
def isHeld (row : Manifest D) : Bool :=
  row.disposition == .identityUnresolved && row.errorCode == some heldCode

/-- `_stored_reads` of one row: a recovery copy is judged by the read it copies. -/
def storedRead (db : Db D) (row : Manifest D) : Option (Manifest D) :=
  if row.sourceKind = .recoveryPrefix then
    db.manifests.rows.find? fun original =>
      (original.sourceKind == .tail || original.sourceKind == .baseline) &&
        original.generation == row.generation && original.ordinal == row.ordinal &&
        decide (original.rawRecordDigest = row.rawRecordDigest)
  else some row

/-- `_confirmed_reads` of one read: a later reconcile read the same bytes again at an ordinal
other than its own final one. -/
def confirmedRead (db : Db D) (read : Manifest D) : Bool :=
  db.manifests.rows.any fun receipt =>
    receipt.sourceKind == .baselineReread && !receipt.canonicalSource &&
      receipt.generation == read.generation && receipt.sourceEpochId == read.sourceEpochId &&
      receipt.ordinal == read.ordinal &&
      decide (receipt.rawRecordDigest = read.rawRecordDigest) &&
      match receipt.jobId.bind db.jobs.get? with
      | some job => job.cutoffCount.any (receipt.ordinal + 1 != ·)
      | none     => false

/-- A tail chunk that ended at the count it was read against read this row last. -/
def tailNewest (db : Db D) (read : Manifest D) : Bool :=
  db.tailChunks.rows.any fun chunk =>
    chunk.generation == read.generation && chunk.endOrdinal == read.ordinal + 1 &&
      chunk.latestTerminalCount == chunk.endOrdinal &&
      match db.coverages.get? chunk.coverageId with
      | some coverage => coverage.sourceEpochId == read.sourceEpochId
      | none          => false

/-- The row is the final ordinal of the job that read it. -/
def baselineNewest (db : Db D) (read : Manifest D) : Bool :=
  match read.jobId.bind db.jobs.get? with
  | some job => baselineNewestOrdinal job == some read.ordinal
  | none     => false

/-- `newest_read_ids`: the row's bytes may have come from the terminal's newest slot. -/
def newestRead (db : Db D) (row : Manifest D) : Bool :=
  row.disposition != .rawPreserved &&
    match storedRead db row with
    | none      => false
    | some read =>
      (match read.sourceKind with
        | .tail     => tailNewest db read
        | .baseline => baselineNewest db read
        | _         => false) &&
      !confirmedRead db read && !confirmedRead db row

/-- `ledger_newest_ids`: a newest read or a held punch. -/
def ledgerNewest (db : Db D) (row : Manifest D) : Bool :=
  row.disposition != .rawPreserved && (newestRead db row || isHeld row)

/-- `source_punch`: the punch a verified record decodes to. -/
def sourcePunch (source : SourceRecord D) : Option (AttendanceEventIn D) :=
  if sourceIdentityMissing source then none else source.event

/-- The event UIDs ADD holds. -/
def Db.Holds (db : Db D) (uid : D) : Prop := ∃ row ∈ db.attendance.rows, row.eventUid = uid

instance (db : Db D) (uid : D) : Decidable (db.Holds uid) :=
  inferInstanceAs (Decidable (∃ row ∈ db.attendance.rows, row.eventUid = uid))

/-- `held_newest_uids`: the ordinals and UIDs of newest reads that decode as a punch no capture
delivered. -/
def heldNewestUids (db : Db D) (records : List (SourceRecord D)) (newestOrdinal : Option Nat) :
    List (Nat × D) :=
  records.filterMap fun source =>
    match sourcePunch source with
    | none       => none
    | some punch =>
      if some source.ordinal = newestOrdinal ∧ source.disposition ≠ .rawPreserved ∧
          ¬ db.Holds punch.eventUid ∧
          ∀ other ∈ records, some other.ordinal ≠ newestOrdinal →
            other.event.map (·.eventUid) ≠ some punch.eventUid
      then some (source.ordinal, punch.eventUid) else none

/-- `same_source_read` -/
def sameSourceRead (prior : Manifest D) (source : SourceRecord D) : Prop :=
  prior.rawRecordDigest = source.rawRecordDigest ∧
    prior.terminalRecordKey = source.terminalRecordKey ∧
    prior.occurrenceIndex = source.occurrenceIndex

instance (prior : Manifest D) (source : SourceRecord D) : Decidable (sameSourceRead prior source) :=
  inferInstanceAs (Decidable (_ ∧ _ ∧ _))

/-- `_source_time` -/
def sourceTime (source : SourceRecord D) : Option Int :=
  if source.disposition = .event ∨ source.disposition = .blockedIdentity then
    (sourcePunch source).map (·.deviceEventTime)
  else none

/-- The punch times of the canonical rows of a ledger, with their ordinals. -/
def ledgerTimes (db : Db D) (generation epoch : Nat) : List (Nat × Int) :=
  db.manifests.rows.filterMap fun m =>
    if m.canonicalSource ∧ m.generation = generation ∧ m.sourceEpochId = epoch ∧
        m.disposition ∈ parsedDispositions then
      (m.attendanceEventId.bind db.attendance.get?).map fun event =>
        (m.ordinal, event.deviceEventTime)
    else none

/-- `in_time_order`: a punch lies between the nearest punches below and above its ordinal, taken
from this chunk and else from the ledger. -/
def inTimeOrder (db : Db D) (job : Job D) (source : SourceRecord D)
    (records : List (SourceRecord D)) : Bool :=
  match sourceTime source with
  | none           => false
  | some punchTime =>
    let timed := records.filterMap fun row => (sourceTime row).map fun t => (row.ordinal, t)
    let ledger := ledgerTimes db job.terminalGeneration job.sourceEpochId
    let below := fun times : List (Nat × Int) =>
      (times.filter (·.1 < source.ordinal)).argmax Prod.fst
    let above := fun times : List (Nat × Int) =>
      (times.filter (source.ordinal < ·.1)).argmin Prod.fst
    let low := (below timed).or (below ledger)
    let high := (above timed).or (above ledger)
    low.all (·.2 ≤ punchTime) && high.all (punchTime ≤ ·.2)

/-- `other_open_certified_job` in the same ledger that sealed a row at or above `below`. -/
def otherOpenCertifiedJob (db : Db D) (job : Job D) (below : Nat) : Bool :=
  db.jobs.rows.any fun other =>
    other.terminalGeneration == job.terminalGeneration &&
      other.sourceEpochId == job.sourceEpochId && other.id != job.id &&
      other.captureCertificate.isSome && decide (other.status ∉ terminalJobStates) &&
      other.cutoffCount.any (below < ·)

/-- `open_job_block`: another open job sealed one of these rows into its certificate. -/
def openJobBlock (db : Db D) (job : Job D) (priors : List (Manifest D)) : Bool :=
  match (priors.map (·.ordinal)).min? with
  | some lowest => otherOpenCertifiedJob db job lowest
  | none        => false

end Reconciliation
