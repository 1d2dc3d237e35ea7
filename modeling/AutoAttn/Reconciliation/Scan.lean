import AutoAttn.Reconciliation.Sources

/-!
# A job's scan of the terminal

The handlers that a scanning job meets: the anchor, the chunks and the release of its credit.
A handler reads the tables and returns the tables it commits, or a refusal that rolls back.
-/

namespace Reconciliation

variable {D : Type} [DecidableEq D]

/-! ### The anchor -/

/-- The part of `apply_reconciliation_anchor` after its refusals. -/
def anchorJob (db : Db D) (job : Job D) (payload : AnchorRequest D) : Db D :=
  if job.terminalSerial ≠ none ∧ job.terminalSerial ≠ some "" ∧
      job.terminalSerial ≠ some payload.terminalSerial then
    safetyHold db job "TERMINAL_SERIAL_CHANGED" "Terminal serial changed while anchoring."
  else if payload.latestTerminalCount < payload.cutoffCount then
    safetyHold db job "TERMINAL_COUNT_REGRESSION" "Terminal count is below the source cutoff."
  else if payload.sourceTotalBytes < 4 + payload.cutoffCount * payload.recordSize then
    safetyHold db job "SOURCE_SIZE_MISMATCH"
      "Prepared source buffer is smaller than the advertised record count."
  else if job.cutoffCount ≠ none ∧ (job.cutoffCount ≠ some payload.cutoffCount ∨
      job.recordSize ≠ some payload.recordSize ∨
      job.firstAnchorDigest ≠ some payload.firstAnchorDigest) then
    safetyHold db job "ANCHOR_DIVERGED"
      "A resumed prepared source no longer matches the committed anchor."
  else
    db.putJob { job.releaseAssignment with
      terminalSerial := some payload.terminalSerial
      terminalGeneration := payload.terminalGeneration
      cutoffCount := some payload.cutoffCount
      recordSize := some payload.recordSize
      firstAnchorDigest := some payload.firstAnchorDigest
      status := .running }

/-- `apply_reconciliation_anchor` -/
def applyReconciliationAnchor (env : Env D) (db : Db D) (payload : AnchorRequest D) :
    Except Refusal (Db D) := do
  let job ← deviceJob db payload.jobId
  requireRunnable job payload.generation
  requireSourceEpoch env db job.sourceEpochId job.terminalGeneration payload.sourceEpoch
  refuse (payload.sourceEpoch ≠ none ∧ payload.terminalGeneration ≠ job.terminalGeneration)
    (.value "Source epoch cannot change terminal generation while anchoring.")
  return anchorJob db job payload

/-! ### Chunks: evidence -/

/-- What a chunk is answered with: the chunk row, and whether it was committed before. -/
structure ChunkAnswer (D : Type) where
  db : Db D
  chunk : Option Nat
  duplicate : Bool

/-- A chunk that starts where a committed chunk starts. -/
def replayChunk (hash : Hash D) (db : Db D) (job : Job D) (existing : Chunk D)
    (payload : ChunkRequest D) : Except Refusal (ChunkAnswer D) :=
  if existing.chunkDigest ≠ payload.chunkDigest ∨ existing.endOrdinal ≠ payload.endOrdinal ∨
      existing.resultingChainDigest ≠ payload.resultingChainDigest ∨
      (existing.rawPreservedCount ≠ 0 ∧
        reconciliationChunkDigest hash payload.records ≠ payload.chunkDigest) then do
    requireRunnable job payload.generation
    return ⟨safetyHold db job "COMMITTED_RANGE_DIVERGED"
      "A replayed source range had different immutable evidence.", some existing.id, false⟩
  else return ⟨db, some existing.id, true⟩

/-- The raw bytes of each record have the anchored size and the declared digest. -/
def verifyRecords (hash : Hash D) (recordSize : Nat) :
    List (SourceRecord D) → Except Refusal Unit
  | []             => .ok ()
  | source :: rest =>
    match source.rawRecord with
    | none     => .error (.evidence "SOURCE_RECORD_BASE64_INVALID"
        "Source record contains invalid base64 evidence.")
    | some raw => do
      refuse (raw.length ≠ recordSize) (.evidence "SOURCE_RECORD_SIZE_MISMATCH"
        "Source record evidence does not match the anchored record size.")
      refuse (hash.sha256 (.raw raw) ≠ source.rawRecordDigest)
        (.evidence "SOURCE_RECORD_DIGEST_MISMATCH"
          "Source record digest does not match its protected raw evidence.")
      verifyRecords hash recordSize rest

/-- The checks of a new chunk against its job, before anything is compared with the ledger. -/
def checkChunk (env : Env D) (hash : Hash D) (job : Job D) (cutoffCount recordSize : Nat)
    (payload : ChunkRequest D) : Except Refusal Unit := do
  requireRunnable job payload.generation
  requireRawCustody env payload.records
  refuse (payload.assignmentId ≠ none ∧ job.activeAssignmentId ≠ payload.assignmentId)
    (.evidence "ASSIGNMENT_LEASE_INACTIVE" "Reconciliation assignment lease is no longer active.")
  refuse (payload.assignmentId ≠ none ∧
      ¬ (job.creditStartOrdinal.any (· ≤ payload.startOrdinal) ∧
        job.creditEndOrdinal.any (payload.endOrdinal ≤ ·)))
    (.evidence "CHUNK_OUTSIDE_CREDIT" "Chunk is outside its durable reconciliation credit.")
  refuse (payload.startOrdinal ≠ job.committedNextOrdinal)
    (.evidence "CHUNK_ORDINAL_UNEXPECTED"
      ("Expected source ordinal " ++ toString job.committedNextOrdinal ++ ", got " ++
        toString payload.startOrdinal ++ "."))
  refuse (cutoffCount < payload.endOrdinal)
    (.evidence "CHUNK_EXCEEDS_CUTOFF" "Chunk exceeds the anchored source cutoff.")
  verifyRecords hash recordSize payload.records
  refuse (payload.startOrdinal = 0 ∧
      payload.records.head?.map (·.rawRecordDigest) ≠ job.firstAnchorDigest)
    (.evidence "SOURCE_FIRST_ANCHOR_MISMATCH"
      "The first committed source row does not match the immutable anchor.")
  refuse (reconciliationChunkDigest hash payload.records ≠ payload.chunkDigest)
    (.evidence "CHUNK_DIGEST_MISMATCH"
      "Chunk digest does not match its canonical source records.")
  refuse (payload.previousChainDigest ≠ job.lastChainDigest)
    (.evidence "CHUNK_CHAIN_DISCONTINUOUS"
      "Chunk chain does not continue from the committed checkpoint.")
  refuse (payload.resultingChainDigest ≠ reconciliationChainDigest hash job.lastChainDigest
      payload.startOrdinal payload.endOrdinal payload.chunkDigest)
    (.evidence "CHUNK_CHAIN_RESULT_INVALID" "Resulting chunk chain digest is invalid.")

/-! ### Chunks: comparison with the ledger -/

/-- The result of comparing a chunk with rows ADD holds. -/
inductive Comparison (D : Type) where
  | agrees
  | diverged (prior : Manifest D) (source : SourceRecord D)
  | keyChanged

/-- The comparison with the older generation's ledger. -/
def lineageComparison (db : Db D) (predecessor : Predecessor) (recordSize : Nat) :
    List (SourceRecord D) → Comparison D
  | []             => .agrees
  | source :: rest =>
    match predecessorRow db predecessor source.ordinal with
    | none       => lineageComparison db predecessor recordSize rest
    | some prior =>
      if prior.rawRecordDigest ≠ source.rawRecordDigest ∨ prior.recordSize ≠ recordSize then
        -- the older row read an unwritten newest slot, so this read replaces it
        if ledgerNewest db prior ∧ prior.recordSize = recordSize ∧
            source.disposition ≠ .rawPreserved then
          lineageComparison db predecessor recordSize rest
        else .diverged prior source
      else if prior.terminalRecordKey ≠ source.terminalRecordKey ∨
          prior.occurrenceIndex ≠ source.occurrenceIndex then .keyChanged
      else lineageComparison db predecessor recordSize rest

/-- The comparison of a chunk with the ledger its job's generation replaces, if there is one. -/
def chunkLineage (db : Db D) (job : Job D) (recordSize : Nat) (payload : ChunkRequest D) :
    Comparison D :=
  match lineagePredecessor db job.terminalGeneration job.terminalSerial job.sourceEpochId none with
  | some predecessor => lineageComparison db predecessor recordSize payload.records
  | none             => .agrees

/-- How a read of an ordinal relates to the canonical row of the same epoch. -/
inductive Reading (D : Type) where
  /-- no row yet -/
  | fresh
  /-- compared as a genuine record -/
  | ordinary (prior : Manifest D)
  /-- a different read of a newest slot that may be the newest again: kept as a receipt -/
  | reread (prior : Manifest D)
  /-- the slot's record, which replaces an earlier newest-slot read -/
  | settled (prior : Manifest D)
  /-- the same bytes, read while later records existed -/
  | confirmed (prior : Manifest D)
  /-- a confirmed held punch that does not lie between its neighbours -/
  | outOfOrder (prior : Manifest D)

/-- The row an ordinal keeps when its chunk commits. -/
def Reading.kept : Reading D → Option (Manifest D)
  | .ordinary prior | .reread prior | .confirmed prior | .outOfOrder prior => some prior
  | .fresh | .settled _ => none

/-- The row the ordinary comparison is made with. -/
def Reading.compared : Reading D → Option (Manifest D)
  | .ordinary prior | .confirmed prior => some prior
  | _ => none

/-- A reading that leaves a receipt of the read beside the kept row. -/
def Reading.receipted : Reading D → Bool
  | .reread _ | .confirmed _ | .outOfOrder _ => true
  | _ => false

def reading (db : Db D) (job : Job D) (records : List (SourceRecord D)) (source : SourceRecord D) :
    Reading D :=
  match db.sourceRow job.terminalGeneration job.sourceEpochId source.ordinal with
  | none       => .fresh
  | some prior =>
    if ¬ (newestRead db prior ∨ isHeld prior) ∨ source.disposition = .rawPreserved then
      .ordinary prior
    else if some source.ordinal = baselineNewestOrdinal job then
      if prior.rawRecordDigest = source.rawRecordDigest then .ordinary prior else .reread prior
    else if prior.rawRecordDigest ≠ source.rawRecordDigest then .settled prior
    else if ¬ sameSourceRead prior source then .ordinary prior
    else if ¬ isHeld prior then .confirmed prior
    else if inTimeOrder db job source records then .settled prior
    else .outOfOrder prior

/-- The comparison with the rows of the job's own epoch. -/
def ordinaryComparison (db : Db D) (job : Job D) (records : List (SourceRecord D)) :
    List (SourceRecord D) → Comparison D
  | []             => .agrees
  | source :: rest =>
    match (reading db job records source).compared with
    | none       => ordinaryComparison db job records rest
    | some prior =>
      if prior.rawRecordDigest ≠ source.rawRecordDigest then .diverged prior source
      else if prior.terminalRecordKey ≠ source.terminalRecordKey ∨
          prior.occurrenceIndex ≠ source.occurrenceIndex then .keyChanged
      else ordinaryComparison db job records rest

/-- The same bytes were interpreted differently before. -/
def interpretationDrift (prior : Manifest D) (source : SourceRecord D) : Bool :=
  let priorParsed := decide (prior.disposition ∈ parsedDispositions)
  let sourceParsed := source.disposition == .event || source.disposition == .blockedIdentity
  priorParsed != sourceParsed || (!priorParsed && prior.disposition != source.disposition)

/-- `_begin_source_divergence`: keep the mismatch and switch to fresh-source probes. -/
def beginSourceDivergence (env : Env D) (db : Db D) (job : Job D) (prior : Manifest D)
    (source : SourceRecord D) : Db D :=
  let observation : Observation D :=
    ⟨.reconciliationChunk, source.rawRecordDigest, source.disposition⟩
  let row := db.divergences.rows.find? fun d =>
    d.jobId == job.id && d.ordinal == source.ordinal &&
      (d.state == .observed || d.state == .probing)
  let divergences := match row with
    | none => db.divergences.insert fun id =>
        { id, jobId := job.id, sourceEpochId := job.sourceEpochId, ordinal := source.ordinal
          state := .observed, oldRawDigest := prior.rawRecordDigest
          newRawDigest := source.rawRecordDigest, newDisposition := source.disposition
          observations := [observation], createdAt := env.now }
    | some d => db.divergences.put { d with observations := d.observations ++ [observation] }
  let held : Job D := if env.selfHealingEnabled then
      { job.releaseAssignment with status := .running, error := none }
    else
      { job.releaseAssignment with
        status := .needsAttention
        error := some ("SELF_HEALING_RECOVERY_DISABLED",
          "A raw terminal-source change was preserved while automatic recovery is gated.") }
  { db with divergences, jobs := db.jobs.put held }

/-- Newest-slot punches of this chunk that are held: only when the job's final ordinal is read
for the first time in its epoch. -/
def chunkHeldUids (db : Db D) (job : Job D) (payload : ChunkRequest D) : List (Nat × D) :=
  match baselineNewestOrdinal job with
  | none        => []
  | some newest =>
    if (db.sourceRow job.terminalGeneration job.sourceEpochId newest).isNone ∧
        payload.startOrdinal ≤ newest ∧ newest < payload.endOrdinal then
      heldNewestUids db payload.records (some newest)
    else []

/-- The records whose punches may be ingested. -/
def chunkIngestible (db : Db D) (job : Job D) (payload : ChunkRequest D) :
    List (SourceRecord D) :=
  payload.records.filter fun source =>
    (match reading db job payload.records source with
      | .ordinary prior | .confirmed prior => !interpretationDrift prior source
      | .reread _ | .outOfOrder _          => false
      | .fresh | .settled _                => true) &&
    decide (source.ordinal ∉ (chunkHeldUids db job payload).map Prod.fst)

/-- The settled rows of a chunk. -/
def chunkSettled (db : Db D) (job : Job D) (payload : ChunkRequest D) : List (Manifest D) :=
  payload.records.filterMap fun source =>
    match reading db job payload.records source with
    | .settled prior => some prior
    | _              => none

/-- What a chunk that passed its checks leads to: nothing is committed but a hold or a
divergence, or its punches are ingested and it is committed. -/
inductive ChunkPlan (D : Type) where
  | stop (db : Db D)
  | commit (bound : BoundAttendance D)

/-- The comparison of a checked chunk with the ledgers, up to the call of ingestion. -/
def planChunk (env : Env D) (db : Db D) (job : Job D) (recordSize : Nat)
    (payload : ChunkRequest D) : Except Refusal (ChunkPlan D) :=
  match chunkLineage db job recordSize payload,
      ordinaryComparison db job payload.records payload.records with
  | .diverged prior source, _ => return .stop (beginSourceDivergence env db job prior source)
  | .keyChanged, _ =>
    return .stop (safetyHold db job "SOURCE_DERIVED_KEY_DIVERGED"
      ("Raw evidence matched the previous generation's ledger but its derived source key " ++
        "changed; scanning stopped fail-closed."))
  | .agrees, .diverged prior source =>
    return .stop (beginSourceDivergence env db job prior source)
  | .agrees, .keyChanged =>
    return .stop (safetyHold db job "SOURCE_DERIVED_KEY_DIVERGED"
      "Raw evidence matched but its derived source key changed; scanning stopped fail-closed.")
  | .agrees, .agrees =>
    if openJobBlock db job (chunkSettled db job payload) then
      return .stop (safetyHold db job "SOURCE_NEWEST_RECORD_JOB_OPEN"
        ("Another open reconciliation sealed these terminal newest-record rows into its " ++
          "certified exception cohort. Finish or cancel it, then retry this reconcile."))
    else
      return .commit (← boundSourceAttendance env db job.terminalSerial
        (chunkIngestible db job payload) true)

/-! ### Chunks: commit -/

/-- The tables while the records of a chunk are stored, the keys seen so far, and the number of
records kept as raw custody. -/
structure Storing (D : Type) where
  db : Db D
  seenKeys : List D
  rawPreserved : Nat

/-- The canonical row of a record a chunk stores. -/
def baselineManifest (job : Job D) (recordSize : Nat) (payload : ChunkRequest D)
    (source : SourceRecord D) (event : Option (Attendance D)) (held : Bool)
    (disposition : Disposition) (id : Nat) : Manifest D where
  id := id
  jobId := some job.id
  terminalSerial := job.terminalSerial.getD "unknown"
  generation := payload.generation
  sourceEpochId := job.sourceEpochId
  ordinal := source.ordinal
  sourceKind := .baseline
  canonicalSource := true
  recordSize := recordSize
  rawRecordDigest := source.rawRecordDigest
  terminalRecordKey := source.terminalRecordKey
  occurrenceIndex := source.occurrenceIndex
  attendanceEventId := event.map (·.id)
  disposition := disposition
  protectedRawRecord := source.rawRecord
  errorCode := storedErrorCode source held

/-- `reread_receipt`: a read of a newest-slot row, kept with its chunk and never as the slot's
source. -/
def rereadReceipt (job : Job D) (recordSize : Nat) (source : SourceRecord D) (id : Nat) :
    Manifest D where
  id := id
  jobId := some job.id
  terminalSerial := job.terminalSerial.getD "unknown"
  generation := job.terminalGeneration
  sourceEpochId := job.sourceEpochId
  ordinal := source.ordinal
  sourceKind := .baselineReread
  canonicalSource := false
  recordSize := recordSize
  rawRecordDigest := source.rawRecordDigest
  terminalRecordKey := source.terminalRecordKey
  occurrenceIndex := source.occurrenceIndex
  attendanceEventId := none
  disposition := storedDisposition source none false []
  protectedRawRecord := source.rawRecord
  errorCode := storedErrorCode source false

/-- Store one record. `before` are the tables the chunk was compared with. -/
def storeRecord (before : Db D) (job : Job D) (recordSize : Nat) (payload : ChunkRequest D)
    (ingested : List (AttendanceEventIn D)) (st : Storing D) (source : SourceRecord D) :
    Except Refusal (Storing D) := do
  let held := decide (source.ordinal ∈ (chunkHeldUids before job payload).map Prod.fst)
  let event := if held then none else storedEvent st.db.attendance ingested source
  let seenKeys := source.terminalRecordKey :: st.seenKeys
  let current := reading before job payload.records source
  match current.kept with
  | none =>
    let disposition := storedDisposition source event held st.seenKeys
    let db ← st.db.addManifest
      (baselineManifest job recordSize payload source event held disposition)
    return ⟨db, seenKeys, st.rawPreserved + if disposition = .rawPreserved then 1 else 0⟩
  | some prior =>
    -- a new interpretation cannot overwrite a committed row
    let rawPreserved := st.rawPreserved + if prior.disposition = .rawPreserved then 1 else 0
    if current.receipted then
      let db ← st.db.addManifest (rereadReceipt job recordSize source)
      return ⟨db, seenKeys, rawPreserved⟩
    else return ⟨st.db, seenKeys, rawPreserved⟩

/-- The row of a chunk, under the two unique constraints of its table. -/
def addChunk (db : Db D) (job : Job D) (payload : ChunkRequest D) (rawPreservedCount : Nat) :
    Except Refusal (Db D) := do
  refuse (∃ x ∈ db.chunks.rows, x.jobId = job.id ∧ x.generation = payload.generation ∧
      x.sequence = payload.sequence)
    (.integrity "uq_add_reconcile_chunk_sequence")
  refuse (∃ x ∈ db.chunks.rows, x.jobId = job.id ∧ x.generation = payload.generation ∧
      x.startOrdinal = payload.startOrdinal)
    (.integrity "uq_add_reconcile_chunk_start")
  return { db with
    chunks := db.chunks.insert fun id =>
      { id, jobId := job.id, generation := payload.generation, sequence := payload.sequence
        startOrdinal := payload.startOrdinal, endOrdinal := payload.endOrdinal
        recordCount := payload.records.length, chunkDigest := payload.chunkDigest
        previousChainDigest := payload.previousChainDigest
        resultingChainDigest := payload.resultingChainDigest, rawPreservedCount } }

/-- The checkpoint of a job after a chunk. -/
def Job.advance (job : Job D) (payload : ChunkRequest D) : Job D :=
  let job := if payload.assignmentId ≠ none ∧ job.creditEndOrdinal.any (· ≤ payload.endOrdinal)
    then job.releaseAssignment else job
  { job with
    committedNextOrdinal := payload.endOrdinal
    lastChainDigest := some payload.resultingChainDigest
    status := .running }

/-- The part of `apply_reconciliation_chunk` from the call of ingestion on. -/
def commitChunk (env : Env D) (db : Db D) (job : Job D) (recordSize : Nat)
    (payload : ChunkRequest D) (bound : BoundAttendance D) : Except Refusal (ChunkAnswer D) := do
  let ingested := ingestAttendance env bound.db bound.events
  let seenKeys := seenTerminalKeys ingested payload.generation job.sourceEpochId
    payload.startOrdinal
  let retired := (chunkSettled db job payload).foldl Db.retire ingested
  let st ← payload.records.foldlM (storeRecord db job recordSize payload bound.events)
    ⟨retired, seenKeys, 0⟩
  let stored ← addChunk st.db job payload st.rawPreserved
  return ⟨stored.putJob (job.advance payload), some db.chunks.rows.length, false⟩

/-- `apply_reconciliation_chunk` -/
def applyReconciliationChunk (env : Env D) (hash : Hash D) (db : Db D) (payload : ChunkRequest D) :
    Except Refusal (ChunkAnswer D) := do
  let job ← deviceJob db payload.jobId
  refuse (payload.generation ≠ job.terminalGeneration) (.evidence "SOURCE_GENERATION_MISMATCH"
    "Reconciliation generation does not match the assignment.")
  requireSourceEpoch env db job.sourceEpochId job.terminalGeneration payload.sourceEpoch
  match job.cutoffCount, job.recordSize with
  | some cutoffCount, some recordSize =>
    let existing := db.chunks.rows.find? fun x =>
      x.jobId == job.id && x.generation == payload.generation &&
        x.startOrdinal == payload.startOrdinal
    match existing with
    | some chunk => replayChunk hash db job chunk payload
    | none => do
      checkChunk env hash job cutoffCount recordSize payload
      match ← planChunk env db job recordSize payload with
      | .stop held    => return ⟨held, none, false⟩
      | .commit bound => commitChunk env db job recordSize payload bound
  | _, _ => throw (.evidence "SOURCE_NOT_ANCHORED"
      "Reconciliation must be anchored before accepting chunks.")

/-! ### Release of credit -/

/-- `apply_reconciliation_assignment_release`. A certified job has no credit left, so its request
changes nothing; the checks of its certificate, which only refuse, are left out. -/
def applyReconciliationAssignmentRelease (env : Env D) (db : Db D) (payload : ReleaseRequest) :
    Except Refusal (Db D) := do
  let job ← deviceJob db payload.jobId
  requireSourceEpoch env db job.sourceEpochId job.terminalGeneration payload.sourceEpoch
  if job.captureCertificate.isSome then
    refuse (payload.generation ≠ job.terminalGeneration ∨
        payload.sourceEpoch ≠ sourceEpochUuid db job.sourceEpochId job.terminalGeneration ∨
        some payload.committedNextOrdinal ≠ job.cutoffCount ∨
        some job.committedNextOrdinal ≠ job.cutoffCount ∨ job.activeAssignmentId ≠ none)
      (.value "Released certified reconciliation credit does not match its committed receipt.")
    return db
  else do
    requireRunnable job payload.generation
    refuse (job.committedNextOrdinal < payload.committedNextOrdinal)
      (.value "Released reconciliation credit exceeded ADD's durable cursor.")
    if job.activeAssignmentId = some payload.assignmentId then
      return db.putJob job.releaseAssignment
    else return db

end Reconciliation
