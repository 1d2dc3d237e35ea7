import AutoAttn.ChainedRanges
import AutoAttn.Reconciliation.Recovery

/-!
# Certificates

The proofs ADD makes from its own receipts and rows, and the manifest that certifies a complete
scan and makes it the terminal's active coverage.
-/

namespace Reconciliation

open ChainedRanges (Link)

variable {D : Type} [DecidableEq D]

/-! ### The chain of committed receipts -/

/-- `COVERAGE_PROOF_MAX_RECORDS` -/
def coverageProofMaxRecords : Nat := 200000

/-- `COVERAGE_PROOF_PAGE` -/
def coverageProofPage : Nat := 256

/-- What the chain proof reads of a chunk or a tail chunk. -/
structure Receipt (D : Type) where
  startOrdinal : Nat
  endOrdinal : Nat
  recordCount : Nat
  chunkDigest : D
  previousChainDigest : Option D
  resultingChainDigest : D

def Chunk.receipt (chunk : Chunk D) : Receipt D :=
  ⟨chunk.startOrdinal, chunk.endOrdinal, chunk.recordCount, chunk.chunkDigest,
    chunk.previousChainDigest, chunk.resultingChainDigest⟩

def TailChunk.receipt (chunk : TailChunk D) : Receipt D :=
  ⟨chunk.startOrdinal, chunk.endOrdinal, chunk.recordCount, chunk.chunkDigest,
    some chunk.previousChainDigest, chunk.resultingChainDigest⟩

/-- The range of a receipt and the digests it links. -/
def Receipt.link (row : Receipt D) : Link D :=
  ⟨row.startOrdinal, row.endOrdinal, row.previousChainDigest, row.resultingChainDigest⟩

/-- One row of the chain proof, at a cursor and the digest reached there. -/
def checkReceipt (hash : Hash D) (stop : Nat) (at_ : Nat × Option D) (row : Receipt D) :
    Except String (Nat × Option D) :=
  if row.startOrdinal ≠ at_.1 ∨ ¬ (at_.1 < row.endOrdinal ∧ row.endOrdinal ≤ stop) ∨
      row.recordCount ≠ row.endOrdinal - at_.1 ∨
      ¬ (1 ≤ row.recordCount ∧ row.recordCount ≤ 100) ∨ row.previousChainDigest ≠ at_.2 ∨
      row.resultingChainDigest ≠
        reconciliationChainDigest hash at_.2 at_.1 row.endOrdinal row.chunkDigest then
    .error "SOURCE_COVERAGE_CHAIN_DIVERGED"
  else .ok (row.endOrdinal, some row.resultingChainDigest)

/-- The next page of receipts, in the order of their starts. -/
def receiptPage (rows : List (Receipt D)) (cursor stop : Nat) : List (Receipt D) :=
  ((rows.filter fun row => cursor ≤ row.startOrdinal ∧ row.startOrdinal < stop).mergeSort
    fun a b => a.startOrdinal ≤ b.startOrdinal).take coverageProofPage

/-- The loop of the chain proof. Each page moves the cursor, so `stop - cursor` rounds are
enough. -/
def chainLoop (hash : Hash D) (rows : List (Receipt D)) (stop : Nat) :
    Nat → Nat × Option D → Except String (Nat × Option D)
  | 0, at_          => .ok at_
  | rounds + 1, at_ =>
    if at_.1 < stop then
      match receiptPage rows at_.1 stop with
      | []   => .error "SOURCE_COVERAGE_CHAIN_GAP"
      | page => do chainLoop hash rows stop rounds (← page.foldlM (checkReceipt hash stop) at_)
    else .ok at_

/-- `_committed_chain_proof` -/
def committedChainProof (hash : Hash D) (rows : List (Receipt D)) (start stop : Nat)
    (previous : Option D) (final : D) : Except String Unit :=
  if start ≤ stop ∧ stop ≤ coverageProofMaxRecords then do
    let reached ← chainLoop hash rows stop (stop - start) (start, previous)
    if reached.2.getD hash.zeros ≠ final then .error "SOURCE_COVERAGE_CHAIN_ENDPOINT_DIVERGED"
    else .ok ()
  else .error "SOURCE_COVERAGE_PROOF_LIMIT"

/-- The receipts of a job in its generation. -/
def jobReceipts (db : Db D) (job : Job D) : List (Receipt D) :=
  (db.chunks.rows.filter fun x => x.jobId == job.id &&
    x.generation == job.terminalGeneration).map Chunk.receipt

/-- The receipts of a coverage's tails in a generation. -/
def tailReceipts (db : Db D) (coverage : Coverage D) (generation : Nat) : List (Receipt D) :=
  (db.tailChunks.rows.filter fun x => x.coverageId == coverage.id &&
    x.generation == generation).map TailChunk.receipt

/-! ### The canonical inventory -/

/-- The canonical rows of a ledger below a cursor, in the order of their ordinals. -/
def ledgerInventory (db : Db D) (generation epoch cursor : Nat) : List (Manifest D) :=
  (db.ledgerScope generation epoch 0 cursor).mergeSort fun a b => a.ordinal ≤ b.ordinal

/-- There are as many rows as the cursor says, and they run from zero to the last ordinal. -/
def ledgerContiguous (rows : List (Manifest D)) (cursor : Nat) : Bool :=
  rows.length == cursor &&
    (cursor == 0 || (rows.head?.any (·.ordinal == 0) && rows.getLast?.any (·.ordinal == cursor - 1)))

/-- The check of one canonical row for a job. -/
def inventoryRowValid (job : Job D) (row : Manifest D) : Bool :=
  some row.terminalSerial == job.terminalSerial && some row.recordSize == job.recordSize &&
    row.protectedRawRecord.isSome && decide (1 ≤ row.occurrenceIndex)

/-- `_canonical_inventory_proof` -/
def canonicalInventoryProof (db : Db D) (job : Job D) (cursor : Nat) : Except String Unit :=
  let rows := ledgerInventory db job.terminalGeneration job.sourceEpochId cursor
  if coverageProofMaxRecords < cursor then .error "SOURCE_COVERAGE_PROOF_LIMIT"
  else if !ledgerContiguous rows cursor then .error "SOURCE_COVERAGE_CANONICAL_GAP"
  else if rows.map (·.ordinal) ≠ List.range cursor ∨ !rows.all (inventoryRowValid job) then
    .error "SOURCE_COVERAGE_CANONICAL_EVIDENCE_MISSING"
  else .ok ()

/-! ### Retention of a longer coverage -/

/-- `_retained_coverage_proof` -/
def retainedCoverageProof (hash : Hash D) (db : Db D) (job : Job D) (coverage : Coverage D) :
    Except String Unit := do
  let cutoff := job.cutoffCount.getD 0
  match db.epochs.get? job.sourceEpochId, db.jobs.get? coverage.jobId with
  | some epoch, some priorJob =>
    if epoch.state ≠ .active ∨ epoch.terminalGeneration ≠ job.terminalGeneration ∨
        coverage.active = false ∨ coverage.sourceEpochId ≠ job.sourceEpochId ∨
        some coverage.terminalSerial ≠ job.terminalSerial ∨
        coverage.terminalGeneration ≠ job.terminalGeneration ∨
        priorJob.sourceEpochId ≠ job.sourceEpochId ∨
        priorJob.terminalSerial ≠ job.terminalSerial ∨
        priorJob.terminalGeneration ≠ job.terminalGeneration ∨
        !job.recordSize.any (· ∈ sourceSizes) ∨ priorJob.recordSize ≠ job.recordSize then
      throw "SOURCE_COVERAGE_RETENTION_BINDING_MISMATCH"
    if coverage.sourceCommittedCursor < cutoff then
      throw "SOURCE_COVERAGE_RETENTION_COUNT_REGRESSION"
    let evidence := coverage.captureEvidence
    if some evidence ≠ priorJob.captureCertificate ∨ evidence.jobId ≠ priorJob.id ∨
        evidence.terminalSerial ≠ job.terminalSerial ∨
        evidence.terminalGeneration ≠ job.terminalGeneration ∨
        evidence.certifiedSourceCursor ≠ coverage.certifiedSourceCursor ∨
        evidence.sourceChainDigest ≠ coverage.sourceChainDigest ∨
        priorJob.cutoffCount ≠ some coverage.certifiedSourceCursor then
      throw "SOURCE_COVERAGE_RETAINED_CERTIFICATE_INVALID"
    committedChainProof hash (jobReceipts db job) 0 cutoff none
      (job.lastChainDigest.getD hash.zeros)
    committedChainProof hash (jobReceipts db priorJob) 0 coverage.certifiedSourceCursor none
      coverage.sourceChainDigest
    committedChainProof hash (tailReceipts db coverage job.terminalGeneration)
      coverage.certifiedSourceCursor coverage.sourceCommittedCursor coverage.sourceChainDigest
      coverage.sourceCommittedChainDigest
    canonicalInventoryProof db job coverage.sourceCommittedCursor
  | _, _ => throw "SOURCE_COVERAGE_RETENTION_BINDING_MISMATCH"

/-! ### Comparison with an older generation -/

/-- `_LineageHold`: a code, with the ordinal or the reason its message names. -/
structure LineageHold where
  code : String
  ordinal : Nat := 0
  reason : String := ""

/-- `_ledger_row_valid` -/
def ledgerRowValid (row : Manifest D) (serial : Option String) (expectedSize : Option Nat) :
    Bool :=
  some row.terminalSerial == serial && decide (row.recordSize ∈ sourceSizes) &&
    expectedSize.all (· == row.recordSize) && row.protectedRawRecord.isSome &&
    decide (1 ≤ row.occurrenceIndex)

/-- `ledger_newest_ordinals`: some tail, job or held row makes the ordinal a candidate, and its
canonical row is a newest read. -/
def ledgerNewestOrdinal (db : Db D) (generation epoch stop ordinal : Nat) : Bool :=
  (db.tailChunks.rows.any (fun x => x.generation == generation && x.endOrdinal == ordinal + 1 &&
      x.latestTerminalCount == x.endOrdinal && decide (x.endOrdinal ≤ stop)) ||
    db.jobs.rows.any (fun x => x.terminalGeneration == generation &&
      x.cutoffCount == some (ordinal + 1) && decide (ordinal + 1 ≤ stop)) ||
    db.manifests.rows.any (fun m => decide (m.Canonical generation epoch ordinal) &&
      m.errorCode == some heldCode && decide (ordinal < stop))) &&
  (db.sourceRow generation epoch ordinal).any (ledgerNewest db)

/-- The comparison of the job's rows with the older ledger, from the ordinal `expected` on. It
returns the number of ordinals for which the older ledger has no sound row. -/
def compareGenerations (db : Db D) (job : Job D) (coverage : Coverage D) (span : Nat) :
    Nat → List (Manifest D) → Except LineageHold Nat
  | expected, [] =>
    if expected < span then
      .error { code := "SOURCE_GENERATION_JOB_EVIDENCE_INVALID", reason := "JOB_LEDGER_GAP" }
    else .ok 0
  | expected, row :: rows =>
    if row.ordinal ≠ expected ∨ !ledgerRowValid row job.terminalSerial job.recordSize then
      .error { code := "SOURCE_GENERATION_JOB_EVIDENCE_INVALID", reason := "JOB_LEDGER_EVIDENCE"
               ordinal := row.ordinal }
    else
      let old := (db.sourceRow coverage.terminalGeneration coverage.sourceEpochId
        row.ordinal).filter (ledgerRowValid · coverage.terminalSerial none)
      match old with
      | none => do return (← compareGenerations db job coverage span (expected + 1) rows) + 1
      | some old =>
        if row.rawRecordDigest ≠ old.rawRecordDigest ∧ row.recordSize = old.recordSize ∧
            ledgerNewestOrdinal db coverage.terminalGeneration coverage.sourceEpochId span
              row.ordinal then
          compareGenerations db job coverage span (expected + 1) rows
        else if row.rawRecordDigest ≠ old.rawRecordDigest ∨ row.recordSize ≠ old.recordSize then
          .error { code := "SOURCE_GENERATION_LINEAGE_DIVERGED", ordinal := row.ordinal }
        else if row.terminalRecordKey ≠ old.terminalRecordKey ∨
            row.occurrenceIndex ≠ old.occurrenceIndex then
          .error { code := "SOURCE_GENERATION_KEY_DIVERGED", ordinal := row.ordinal }
        else compareGenerations db job coverage span (expected + 1) rows

/-- The outcome of `_generation_lineage_proof`: `none` when the older coverage is superseded by
proof, otherwise why it failed on its own evidence. -/
structure LineageOutcome where
  failure : Option String
  replay : Option Replay

/-- `_generation_lineage_proof` -/
def generationLineageProof (db : Db D) (job : Job D) (coverage : Coverage D)
    (cutoff latestCount : Nat) : Except LineageHold LineageOutcome := do
  let oldCursor := coverage.sourceCommittedCursor
  match db.epochs.get? job.sourceEpochId with
  | none =>
    throw { code := "SOURCE_GENERATION_JOB_EVIDENCE_INVALID", reason := "JOB_EPOCH_BINDING" }
  | some epoch =>
    if epoch.state ≠ .active ∨ epoch.terminalGeneration ≠ job.terminalGeneration ∨
        job.terminalSerial = none ∨ job.terminalSerial = some "" ∨
        !job.recordSize.any (· ∈ sourceSizes) then
      throw { code := "SOURCE_GENERATION_JOB_EVIDENCE_INVALID", reason := "JOB_EPOCH_BINDING" }
    if coverageProofMaxRecords < cutoff ∨ coverageProofMaxRecords < oldCursor then
      throw { code := "SOURCE_COVERAGE_PROOF_LIMIT" }
    let previous := (db.epochs.get? coverage.sourceEpochId).filter fun previous =>
      previous.id != epoch.id && previous.state == .active &&
        previous.terminalGeneration == coverage.terminalGeneration &&
        some coverage.terminalSerial == job.terminalSerial
    match previous with
    | none => return ⟨some "PREVIOUS_BINDING_UNPROVEN", none⟩
    | some previous =>
      let rows := ledgerInventory db job.terminalGeneration epoch.id cutoff
      if !ledgerContiguous rows cutoff then
        throw { code := "SOURCE_GENERATION_JOB_EVIDENCE_INVALID", reason := "JOB_LEDGER_GAP" }
      let span := min cutoff oldCursor
      let unproven ← compareGenerations db job coverage span 0
        (rows.filter (·.ordinal < span))
      let replayUnproven := (List.range' span (oldCursor - span)).countP fun ordinal =>
        (db.sourceRow coverage.terminalGeneration previous.id ordinal).all
          (!ledgerRowValid · coverage.terminalSerial none)
      let complete := unproven == 0 && replayUnproven == 0
      let failure := if !complete then some "PREVIOUS_LEDGER_INCOMPLETE"
        else if latestCount < oldCursor then some "TERMINAL_ATTENDANCE_COUNT_REGRESSED"
        else none
      return ⟨failure, some ⟨previous.id, oldCursor, complete⟩⟩

/-- `_lineage_hold_message` -/
def lineageHoldMessage (hold : LineageHold) (job : Job D) (predecessor : Coverage D) : String :=
  if hold.code = "SOURCE_GENERATION_LINEAGE_DIVERGED" then
    "The generation " ++ toString job.terminalGeneration ++
    " scan read different raw terminal history at ordinal " ++ toString hold.ordinal ++
    " than the certified generation " ++ toString predecessor.terminalGeneration ++
    " ledger. ADD replaced nothing."
  else if hold.code = "SOURCE_GENERATION_KEY_DIVERGED" then
    "At ordinal " ++ toString hold.ordinal ++
    " both generations hold identical raw bytes but a different record key or occurrence, " ++
    "which every Zone Lite release derives identically from the terminal serial and ordinal. " ++
    "One ledger is not what its terminal sent; ADD replaced nothing."
  else if hold.code = "SOURCE_COVERAGE_PROOF_LIMIT" then
    "The generation " ++ toString predecessor.terminalGeneration ++
    " ledger is larger than the bounded proof allows (" ++ toString coverageProofMaxRecords ++
    " records); ADD replaced nothing."
  else
    "This job's own generation " ++ toString job.terminalGeneration ++
    " source ledger could not be proven (" ++ hold.reason ++ "); ADD replaced nothing."

/-! ### The manifest -/

/-- How a sealed cutoff relates to the terminal's active coverage. -/
inductive FinalisationPlan (D : Type) where
  | hold (code message : String)
  | fresh
  | retain (coverage : Coverage D)
  | supersede (predecessor : Coverage D) (outcome : LineageOutcome)

/-- The new coverage is the active one unless a longer one was retained. -/
def FinalisationPlan.activates : FinalisationPlan D → Bool
  | .retain _ => false
  | _         => true

/-- `_finalisation_plan` -/
def finalisationPlan (hash : Hash D) (db : Db D) (job : Job D) (priors : List (Coverage D))
    (cutoff latestCount : Nat) : FinalisationPlan D :=
  match priors.find? (job.terminalGeneration < ·.terminalGeneration),
      priors.find? (·.terminalGeneration < job.terminalGeneration) with
  | some newer, _ =>
    .hold "SOURCE_GENERATION_STALE"
      ("The active source coverage is generation " ++ toString newer.terminalGeneration ++
      ", newer than this job's generation " ++ toString job.terminalGeneration ++
      ". ADD never replaces newer coverage with an older generation.")
  | none, some predecessor =>
    if priors.length ≠ 1 then
      .hold "SOURCE_COVERAGE_RETENTION_BINDING_MISMATCH"
        "More than one active source coverage exists; nothing was replaced."
    else match generationLineageProof db job predecessor cutoff latestCount with
      | .error hold => .hold hold.code (lineageHoldMessage hold job predecessor)
      | .ok outcome => .supersede predecessor outcome
  | none, none =>
    match priors.find? (cutoff ≤ ·.sourceCommittedCursor) with
    | none          => .fresh
    | some retained =>
      match retainedCoverageProof hash db job retained with
      | .error code => .hold code
          ("The longer committed source coverage could not be safely retained; its cursor and " ++
            "evidence remain unchanged.")
      | .ok _       => .retain retained

/-- The certificate of a sealed job. -/
def sealedCertificate (job : Job D) (payload : ManifestRequest D) (plan : FinalisationPlan D) :
    Certificate D where
  jobId := job.id
  terminalSerial := job.terminalSerial
  terminalGeneration := job.terminalGeneration
  certifiedSourceCursor := payload.cutoffCount
  sourceChainDigest := payload.finalChainDigest
  supersededGeneration := match plan with
    | .supersede predecessor outcome => some ⟨predecessor.terminalGeneration, outcome.replay⟩
    | _                              => none

/-- `_retire_previous_generation` -/
def retirePreviousGeneration (db : Db D) (job : Job D) (coverage : Coverage D)
    (outcome : LineageOutcome) (payload : ManifestRequest D) : Db D :=
  match outcome.failure with
  | none =>
    let epochs := (db.epochs.get? coverage.sourceEpochId).elim db.epochs fun epoch =>
      db.epochs.put { epoch with state := .superseded }
    { db.putCoverage { coverage with
        active := false
        invalidatedReason := some "SUPERSEDED_BY_NEW_GENERATION_CERTIFICATE" } with epochs }
  | some failure =>
    let message := if failure = "TERMINAL_ATTENDANCE_COUNT_REGRESSED" then
        "The terminal reported " ++ toString payload.latestTerminalCount ++
        " attendance records, fewer than the " ++ toString coverage.sourceCommittedCursor ++
        " its generation " ++ toString coverage.terminalGeneration ++
        " source coverage " ++ toString coverage.id ++
        " committed. That coverage was invalidated while generation " ++
        toString job.terminalGeneration ++ " job " ++ toString job.id ++ " certified the " ++
        toString payload.cutoffCount ++ " records it proved; tails must still match the older " ++
        "ledger and reach its committed cursor."
      else
        "Generation " ++ toString coverage.terminalGeneration ++ " source coverage " ++
        toString coverage.id ++ " could not be proven against this terminal's ledger (" ++
        failure ++ ") and was invalidated while generation " ++
        toString job.terminalGeneration ++ " job " ++ toString job.id ++
        " certified its own complete ledger."
    invalidateTailCoverage db coverage failure message

/-- Take the active coverages out of service, each by a newer certificate. -/
def supersedeCoverages (db : Db D) : Db D :=
  { db with
    coverages := db.coverages.map
      (fun prior =>
        if prior.active then
          { prior with
            active := false
            invalidatedReason := some "SUPERSEDED_BY_NEW_SOURCE_CERTIFICATE" }
        else prior)
      (fun prior => by split_ifs <;> rfl) }

/-- The tables after the coverages before it made room for a certificate. -/
def retirePriors (db : Db D) (job : Job D) (payload : ManifestRequest D) :
    FinalisationPlan D → Db D
  | .hold ..                       => db
  | .retain _                      => db
  | .fresh                         => supersedeCoverages db
  | .supersede predecessor outcome =>
    supersedeCoverages (retirePreviousGeneration db job predecessor outcome payload)

/-- Store the coverage of a sealed job. It is not active when a longer one was retained. -/
def certifyJob (env : Env D) (db : Db D) (job : Job D) (payload : ManifestRequest D)
    (plan : FinalisationPlan D) : Except Refusal (Db D) := do
  let evidence := sealedCertificate job payload plan
  let active := plan.activates
  let db := retirePriors db job payload plan
  refuse (active = true ∧ ∃ x ∈ db.coverages.rows, x.active = true)
    (.integrity "uq_add_reconciliation_active_coverage")
  let coverages := db.coverages.insert fun id =>
    { id, jobId := job.id, sourceEpochId := job.sourceEpochId
      terminalSerial := job.terminalSerial.getD "unknown"
      terminalGeneration := job.terminalGeneration
      certifiedSourceCursor := payload.cutoffCount
      sourceChainDigest := payload.finalChainDigest
      sourceCommittedCursor := payload.cutoffCount
      sourceCommittedChainDigest := payload.finalChainDigest
      captureEvidence := evidence, active
      invalidatedReason := if active then none else some "PRESERVE_LONGER_SAME_EPOCH_V1"
      capturedAt := env.now }
  return { db with coverages }.putJob { job.releaseAssignment with
    captureCertificate := some evidence, status := .running, error := none }

/-- `apply_reconciliation_manifest`, up to the refresh of the job's assurance. -/
def applyReconciliationManifest (env : Env D) (hash : Hash D) (db : Db D)
    (payload : ManifestRequest D) : Except Refusal (Db D) := do
  let job ← deviceJob db payload.jobId
  requireSourceEpoch env db job.sourceEpochId job.terminalGeneration payload.sourceEpoch
  match job.captureCertificate with
  | some certificate =>
    refuse (payload.generation ≠ job.terminalGeneration ∨
        payload.terminalGeneration ≠ job.terminalGeneration ∨
        some payload.terminalSerial ≠ job.terminalSerial ∨
        some payload.cutoffCount ≠ job.cutoffCount ∨
        payload.finalChainDigest ≠ job.lastChainDigest.getD hash.zeros ∨
        payload.latestTerminalCount < payload.cutoffCount ∨
        some certificate.certifiedSourceCursor ≠ job.cutoffCount ∨
        certificate.sourceChainDigest ≠ job.lastChainDigest.getD hash.zeros)
      (.value "Replayed source manifest differs from its committed certificate.")
    return db
  | none => do
    requireRunnable job payload.generation
    if job.terminalSerial ≠ some payload.terminalSerial ∨
        job.terminalGeneration ≠ payload.terminalGeneration then
      return safetyHold db job "TERMINAL_GENERATION_CHANGED"
        "Terminal generation changed before sealing."
    else if payload.latestTerminalCount < payload.cutoffCount then
      return safetyHold db job "TERMINAL_COUNT_REGRESSION"
        "Terminal count regressed before sealing."
    else if job.cutoffCount ≠ some payload.cutoffCount ∨
        job.committedNextOrdinal ≠ payload.cutoffCount ∨
        job.lastChainDigest.getD hash.zeros ≠ payload.finalChainDigest then
      return safetyHold db job "SOURCE_MANIFEST_INCOMPLETE"
        "Final source manifest does not match the contiguous ADD checkpoint."
    else if (db.ledgerScope payload.generation job.sourceEpochId 0 payload.cutoffCount).length ≠
        payload.cutoffCount then
      return safetyHold db job "SOURCE_MANIFEST_GAP"
        "ADD does not hold one source-manifest row for every terminal ordinal."
    else
      let priors := db.coverages.rows.filter (·.active)
      match finalisationPlan hash db job priors payload.cutoffCount payload.latestTerminalCount with
      | .hold code message => return safetyHold db job code message
      | plan               => certifyJob env db job payload plan

/-! ### Faults and changes of the terminal -/

/-- `scan_faults` of `apply_reconciliation_device_fault`. -/
def scanFaults : List String :=
  ["SOURCE_RANGE_LAYOUT_INVALID", "SOURCE_RANGE_COUNT_REGRESSION",
    "SOURCE_FIRST_ANCHOR_DIVERGED", "SOURCE_COMMITTED_BOUNDARY_DIVERGED"]

/-- `apply_reconciliation_device_fault` -/
def applyReconciliationDeviceFault (db : Db D) (code : String) : Db D :=
  if code ∈ scanFaults then
    let scanning := db.jobs.rows.find? fun job =>
      job.captureCertificate.isNone && (job.status == .queued || job.status == .running)
    match scanning with
    | some job => safetyHold db job code
        "Firmware stopped source reconciliation after immutable terminal evidence diverged."
    | none     => db
  else if code = "ADD_SOURCE_COVERAGE_INVALIDATED" then
    match db.activeCoverage with
    | some coverage => invalidateTailCoverage db coverage code
        "Firmware invalidated its certified source checkpoint fail-closed."
    | none          => db
  else db

/-- What a heartbeat says about the terminal, and what ADD knew before it. -/
structure TerminalReport where
  serial : Option String
  previousSerial : Option String
  stableOnline : Bool
  historyStream : Bool
  coverageCertified : Bool
  coverageCursor : Nat
  attendanceCount : Option Nat
  previousAttendanceCount : Option Nat

/-- Why a heartbeat invalidates the active coverage, if it does. -/
def terminalChange (env : Env D) (coverage : Coverage D) (report : TerminalReport) :
    Option String :=
  let grace := decide (coverage.capturedAt + 60 ≤ env.now)
  if report.previousSerial ≠ none ∧ report.previousSerial ≠ some "" ∧ report.serial ≠ none ∧
      report.serial ≠ some "" ∧ report.previousSerial ≠ report.serial then
    some "TERMINAL_SERIAL_CHANGED"
  else if report.stableOnline && grace && report.historyStream && !report.coverageCertified then
    some "FIRMWARE_COVERAGE_CHECKPOINT_LOST"
  else if report.stableOnline && grace &&
      decide (report.coverageCursor < coverage.certifiedSourceCursor) then
    some "FIRMWARE_COVERAGE_CURSOR_REGRESSED"
  else match report.previousAttendanceCount, report.attendanceCount with
    | some before, some count =>
      if report.stableOnline ∧ count < before ∧ count < coverage.certifiedSourceCursor then
        some "TERMINAL_ATTENDANCE_COUNT_REGRESSED"
      else none
    | _, _ => none

/-- `invalidate_coverage_for_terminal_change`, after the heartbeat stored the reported serial. -/
def invalidateCoverageForTerminalChange (env : Env D) (db : Db D) (report : TerminalReport) :
    Db D :=
  let db := { db with zktSerial := report.serial }
  match db.activeCoverage with
  | none          => db
  | some coverage =>
    match terminalChange env coverage report with
    | some reason => invalidateTailCoverage db coverage reason
        "Certified terminal coverage changed and was invalidated fail-closed."
    | none        => db

end Reconciliation
