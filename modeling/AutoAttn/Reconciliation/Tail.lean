import AutoAttn.Reconciliation.Scan

/-!
# Tails of a certified coverage

After a job was certified, the connector extends the active coverage with the records that
follow its committed cursor.
-/

namespace Reconciliation

variable {D : Type} [DecidableEq D]

/-- `_invalidate_tail_coverage` -/
def invalidateTailCoverage (db : Db D) (coverage : Coverage D) (code message : String) : Db D :=
  let db := db.putCoverage { coverage with active := false, invalidatedReason := some code }
  match db.jobs.get? coverage.jobId with
  | some job => db.putJob { job with status := .invalidated, error := some (code, message) }
  | none     => db

/-- `_stale_generation_tail`: a tail of an older generation than the active coverage's, which the
device has not adopted yet. -/
def staleGenerationTail (db : Db D) (coverage : Coverage D) (payload : TailRequest D) : Bool :=
  payload.terminalSerial == coverage.terminalSerial &&
    decide (payload.terminalGeneration < coverage.terminalGeneration) &&
    match payload.sourceEpoch with
    | none       => true
    | some epoch => (db.epochs.get? epoch).any (·.terminalGeneration == payload.terminalGeneration)

/-- What a tail is answered with: the chunk row, whether it was committed before, and the code
of a tail that was not committed. -/
structure TailAnswer (D : Type) where
  db : Db D
  chunk : Option Nat
  duplicate : Bool
  code : Option String

/-! ### Replays -/

/-- `_replay_attendance_conflict`: the code the ordinary path would refuse these punches with. -/
def replayAttendanceConflict (db : Db D) (terminalSerial : String)
    (records : List (SourceRecord D)) : Option String :=
  let punches := records.filterMap sourcePunch
  let refused := punches.findSome? fun event =>
    if event.terminalSerial ≠ none ∧ event.terminalSerial ≠ some terminalSerial then
      some "SOURCE_EVENT_TERMINAL_MISMATCH"
    else if event.source ≠ .fullHistory ∧ event.source ≠ .currentReconcile then
      some "SOURCE_EVENT_CAPTURE_TYPE_INVALID"
    else none
  refused.or <| db.attendance.rows.findSome? fun row =>
    (eventOf punches row.eventUid).bind fun incoming =>
      if row.owned = false then some "SOURCE_TAIL_FOREIGN_OWNER"
      else replayConflict row incoming terminalSerial

/-- The first record of a tail whose bytes do not have the declared size and digest, as the
message that names the fault. -/
def tailEvidenceFault (hash : Hash D) (recordSize : Nat) : List (SourceRecord D) → Option String
  | []             => none
  | source :: rest =>
    match source.rawRecord with
    | none     => some "Terminal tail contained invalid protected source evidence."
    | some raw =>
      if raw.length ≠ recordSize ∨ hash.sha256 (.raw raw) ≠ source.rawRecordDigest then
        some "Terminal tail raw evidence did not match its declared record layout or digest."
      else tailEvidenceFault hash recordSize rest

/-- The committed row a replayed record is judged against. -/
def replayPrior (db : Db D) (coverage : Coverage D) (payload : TailRequest D)
    (source : SourceRecord D) : Option (Manifest D) :=
  if source.ordinal < coverage.sourceCommittedCursor then
    db.sourceRow payload.terminalGeneration coverage.sourceEpochId source.ordinal
  else none

/-- A read of a tail replay that the committed row does not forbid. -/
def replayAllowed (db : Db D) (payload : TailRequest D) (prior : Manifest D)
    (source : SourceRecord D) : Bool :=
  decide (sameSourceRead prior source) ||
    ((newestRead db prior || isHeld prior) && prior.recordSize == payload.recordSize &&
      decide (prior.rawRecordDigest ≠ source.rawRecordDigest) &&
      prior.disposition != .rawPreserved && source.disposition != .rawPreserved)

/-- The replayed reads that say something new: first those that differ from the committed row,
then held punches that were read again while a later record existed. -/
def replayReads (db : Db D) (coverage : Coverage D) (payload : TailRequest D) :
    List (SourceRecord D) :=
  let differing := payload.records.filter fun source =>
    (replayPrior db coverage payload source).any fun prior => ¬ sameSourceRead prior source
  let confirming := payload.records.filter fun source =>
    (replayPrior db coverage payload source).any fun prior =>
      sameSourceRead prior source && isHeld prior &&
        !readWasNewest source.ordinal payload.latestTerminalCount
  differing ++ confirming

/-- `judge_tail_replay`: `none` when a tail that restarts at a committed chunk with different
content is benign, otherwise the code that invalidates the coverage. -/
def judgeTailReplay (hash : Hash D) (db : Db D) (coverage : Coverage D) (existing : TailChunk D)
    (payload : TailRequest D) : Option String :=
  if coverage.sourceCommittedCursor ≤ payload.startOrdinal then some "SOURCE_TAIL_REPLAY_DIVERGED"
  else if payload.latestTerminalCount < coverage.sourceCommittedCursor then
    some "SOURCE_TAIL_COUNT_REGRESSION"
  else if (tailEvidenceFault hash payload.recordSize payload.records).isSome then
    some "SOURCE_TAIL_EVIDENCE_INVALID"
  else if reconciliationChunkDigest hash payload.records ≠ payload.chunkDigest ∨
      payload.resultingChainDigest ≠ reconciliationChainDigest hash payload.previousChainDigest
        payload.startOrdinal payload.endOrdinal payload.chunkDigest then
    some "SOURCE_TAIL_REPLAY_DIVERGED"
  else if existing.previousChainDigest ≠ payload.previousChainDigest then
    some "SOURCE_TAIL_REPLAY_DIVERGED"
  else if payload.records.any fun source =>
      decide (source.ordinal < coverage.sourceCommittedCursor) &&
        (replayPrior db coverage payload source).all (!replayAllowed db payload · source) then
    some "SOURCE_TAIL_REPLAY_DIVERGED"
  else replayAttendanceConflict db coverage.terminalSerial (replayReads db coverage payload)

/-- A replayed read of a committed row, kept and never the slot's source. -/
def replayReceipt (coverage : Coverage D) (payload : TailRequest D) (source : SourceRecord D)
    (id : Nat) : Manifest D where
  id := id
  jobId := none
  terminalSerial := coverage.terminalSerial
  generation := payload.terminalGeneration
  sourceEpochId := coverage.sourceEpochId
  ordinal := source.ordinal
  sourceKind := .tailReplay
  canonicalSource := false
  recordSize := payload.recordSize
  rawRecordDigest := source.rawRecordDigest
  terminalRecordKey := source.terminalRecordKey
  occurrenceIndex := source.occurrenceIndex
  attendanceEventId := none
  disposition := storedDisposition source none false []
  protectedRawRecord := source.rawRecord
  errorCode := storedErrorCode source false

/-- `_record_superseded_replay`: once for each replay, keep as receipts the reads that were made
while a later record existed. -/
def recordSupersededReplay (db : Db D) (coverage : Coverage D) (payload : TailRequest D) :
    Except Refusal (Db D) :=
  let key := (coverage.id, payload.startOrdinal, payload.endOrdinal, payload.chunkDigest,
    payload.resultingChainDigest)
  if key ∈ db.supersededReplays then return db
  else
    let settled := (replayReads db coverage payload).filter fun source =>
      !readWasNewest source.ordinal payload.latestTerminalCount
    settled.foldlM (fun st source => st.addManifest (replayReceipt coverage payload source))
      { db with supersededReplays := key :: db.supersededReplays }

/-- A tail that starts where a committed tail of the coverage starts. -/
def replayTail (hash : Hash D) (db : Db D) (coverage : Coverage D) (existing : TailChunk D)
    (payload : TailRequest D) : Except Refusal (TailAnswer D) :=
  if existing.endOrdinal ≠ payload.endOrdinal ∨ existing.chunkDigest ≠ payload.chunkDigest ∨
      existing.resultingChainDigest ≠ payload.resultingChainDigest ∨
      (existing.rawPreservedCount ≠ 0 ∧
        reconciliationChunkDigest hash payload.records ≠ payload.chunkDigest) then
    match judgeTailReplay hash db coverage existing payload with
    | none => do
      return ⟨← recordSupersededReplay db coverage payload, none, false,
        some "SOURCE_TAIL_REPLAY_SUPERSEDED"⟩
    | some code =>
      return ⟨invalidateTailCoverage db coverage code
        "A replayed terminal tail range no longer matched its committed evidence.",
        none, false, some code⟩
  else return ⟨db, some existing.id, true, none⟩

/-! ### New tails -/

/-- The first ordinal at which a tail does not match the ledger its coverage replaced. -/
def tailLineageFault (db : Db D) (predecessor : Predecessor) (recordSize : Nat) :
    List (SourceRecord D) → Option Nat
  | []             => none
  | source :: rest =>
    if predecessor.through ≤ source.ordinal then none
    else match predecessorRow db predecessor source.ordinal with
      | none       =>
        if predecessor.rowRequired then some source.ordinal
        else tailLineageFault db predecessor recordSize rest
      | some prior =>
        if ledgerNewest db prior ∧ prior.rawRecordDigest ≠ source.rawRecordDigest ∧
            prior.recordSize = recordSize ∧ source.disposition ≠ .rawPreserved then
          tailLineageFault db predecessor recordSize rest
        else if ¬ sameSourceRead prior source ∨ prior.recordSize ≠ recordSize then
          some source.ordinal
        else tailLineageFault db predecessor recordSize rest

/-- The first check that a new tail fails, as the code and message that invalidate its
coverage. -/
def tailFault (hash : Hash D) (db : Db D) (coverage : Coverage D) (payload : TailRequest D) :
    Option (String × String) :=
  if payload.latestTerminalCount < coverage.sourceCommittedCursor then
    some ("SOURCE_TAIL_COUNT_REGRESSION",
      "Terminal attendance count regressed below ADD's committed source cursor.")
  else if payload.startOrdinal ≠ coverage.sourceCommittedCursor then
    some ("SOURCE_TAIL_CURSOR_DIVERGED",
      "Terminal tail did not begin at ADD's exact committed source cursor.")
  else match tailEvidenceFault hash payload.recordSize payload.records with
  | some message => some ("SOURCE_TAIL_EVIDENCE_INVALID", message)
  | none =>
  if reconciliationChunkDigest hash payload.records ≠ payload.chunkDigest then
    some ("SOURCE_TAIL_CHUNK_DIGEST_DIVERGED",
      "Terminal tail canonical digest did not match its source records.")
  else if payload.previousChainDigest ≠ coverage.sourceCommittedChainDigest then
    some ("SOURCE_TAIL_CHAIN_DIVERGED",
      "Terminal tail did not continue from ADD's committed source chain.")
  else if payload.resultingChainDigest ≠ reconciliationChainDigest hash
      coverage.sourceCommittedChainDigest payload.startOrdinal payload.endOrdinal
      payload.chunkDigest then
    some ("SOURCE_TAIL_CHAIN_DIVERGED", "Terminal tail resulting chain digest was invalid.")
  else match lineagePredecessor db coverage.terminalGeneration coverage.terminalSerial
      coverage.sourceEpochId (some coverage) with
    | none => none
    | some predecessor =>
      if payload.latestTerminalCount < predecessor.through then
        some ("SOURCE_TAIL_COUNT_REGRESSION",
          "Terminal attendance count " ++ toString payload.latestTerminalCount ++
          " regressed below the committed cursor " ++ toString predecessor.through ++
          " of the generation " ++ toString predecessor.generation ++
          " coverage this coverage replaced.")
      else (tailLineageFault db predecessor payload.recordSize payload.records).map
        fun ordinal =>
          ("SOURCE_TAIL_LINEAGE_DIVERGED",
            "The terminal re-read ordinal " ++ toString ordinal ++
            " with different source evidence than the generation " ++
            toString predecessor.generation ++
            " ledger this coverage replaced; nothing from this tail was ingested.")

/-- Newest-slot punches of this tail that are held. -/
def tailHeldUids (db : Db D) (payload : TailRequest D) : List (Nat × D) :=
  heldNewestUids db payload.records (some (payload.latestTerminalCount - 1))

/-- The punches of a tail that are passed to ingestion. -/
def tailAttendance (db : Db D) (payload : TailRequest D) (bound : BoundAttendance D) :
    List (AttendanceEventIn D) :=
  bound.events.filter fun event =>
    decide (event.eventUid ∉ (tailHeldUids db payload).map Prod.snd)

/-- The canonical row of a record a tail stores. -/
def tailManifest (coverage : Coverage D) (payload : TailRequest D) (source : SourceRecord D)
    (event : Option (Attendance D)) (held : Bool) (disposition : Disposition) (id : Nat) :
    Manifest D where
  id := id
  jobId := none
  terminalSerial := coverage.terminalSerial
  generation := payload.terminalGeneration
  sourceEpochId := coverage.sourceEpochId
  ordinal := source.ordinal
  sourceKind := .tail
  canonicalSource := true
  recordSize := payload.recordSize
  rawRecordDigest := source.rawRecordDigest
  terminalRecordKey := source.terminalRecordKey
  occurrenceIndex := source.occurrenceIndex
  attendanceEventId := event.map (·.id)
  disposition := disposition
  protectedRawRecord := source.rawRecord
  errorCode := storedErrorCode source held

/-- Store one record of a tail, whatever the ledger holds at its ordinal. -/
def storeTailRecord (before : Db D) (coverage : Coverage D) (payload : TailRequest D)
    (ingested : List (AttendanceEventIn D)) (st : Storing D) (source : SourceRecord D) :
    Except Refusal (Storing D) := do
  let held := decide (source.ordinal ∈ (tailHeldUids before payload).map Prod.fst)
  let event := if held then none else storedEvent st.db.attendance ingested source
  let disposition := storedDisposition source event held st.seenKeys
  let db ← st.db.addManifest (tailManifest coverage payload source event held disposition)
  return ⟨db, source.terminalRecordKey :: st.seenKeys,
    st.rawPreserved + if disposition = .rawPreserved then 1 else 0⟩

/-- The row of a tail, under the unique constraint of its table. -/
def addTailChunk (db : Db D) (coverage : Coverage D) (payload : TailRequest D)
    (rawPreservedCount : Nat) : Except Refusal (Db D) := do
  refuse (∃ x ∈ db.tailChunks.rows, x.coverageId = coverage.id ∧
      x.generation = payload.terminalGeneration ∧ x.startOrdinal = payload.startOrdinal)
    (.integrity "uq_add_source_tail_start")
  return { db with
    tailChunks := db.tailChunks.insert fun id =>
      { id, coverageId := coverage.id, generation := payload.terminalGeneration
        startOrdinal := payload.startOrdinal, endOrdinal := payload.endOrdinal
        latestTerminalCount := payload.latestTerminalCount
        recordCount := payload.records.length, chunkDigest := payload.chunkDigest
        previousChainDigest := payload.previousChainDigest
        resultingChainDigest := payload.resultingChainDigest, rawPreservedCount } }

/-- The part of `apply_source_tail_chunk` from the call of ingestion on. -/
def commitTail (env : Env D) (db : Db D) (coverage : Coverage D) (payload : TailRequest D)
    (bound : BoundAttendance D) : Except Refusal (TailAnswer D) := do
  let attendance := tailAttendance db payload bound
  let ingested := ingestAttendance env bound.db attendance
  let seenKeys := seenTerminalKeys ingested payload.terminalGeneration coverage.sourceEpochId
    payload.startOrdinal
  let st ← payload.records.foldlM (storeTailRecord db coverage payload attendance)
    ⟨ingested, seenKeys, 0⟩
  let stored ← addTailChunk st.db coverage payload st.rawPreserved
  let extended := { coverage with
    sourceCommittedCursor := payload.endOrdinal
    sourceCommittedChainDigest := payload.resultingChainDigest }
  return ⟨stored.putCoverage extended, some db.tailChunks.rows.length, false, none⟩

/-- A tail with no committed chunk at its start. -/
def newTail (env : Env D) (hash : Hash D) (db : Db D) (coverage : Coverage D)
    (payload : TailRequest D) : Except Refusal (TailAnswer D) := do
  requireRawCustody env payload.records
  match tailFault hash db coverage payload with
  | some (code, message) =>
    return ⟨invalidateTailCoverage db coverage code message, none, false, some code⟩
  | none =>
    let bound ← boundSourceAttendance env db coverage.terminalSerial payload.records false
    if bound.retainedElsewhere ≠ [] then
      return ⟨invalidateTailCoverage db coverage "SOURCE_TAIL_FOREIGN_OWNER"
        ("Terminal tail replayed punches another connector owns; a second reader may share " ++
          "this terminal."), none, false, some "SOURCE_TAIL_FOREIGN_OWNER"⟩
    else commitTail env db coverage payload bound

/-- `apply_source_tail_chunk` -/
def applySourceTailChunk (env : Env D) (hash : Hash D) (db : Db D) (payload : TailRequest D) :
    Except Refusal (TailAnswer D) :=
  match db.activeCoverage with
  | none => .error (.value "Terminal has no active certified source coverage.")
  | some coverage =>
    if staleGenerationTail db coverage payload then
      return ⟨db, none, false, some "SOURCE_TAIL_STALE_GENERATION"⟩
    else do
      requireSourceEpoch env db coverage.sourceEpochId coverage.terminalGeneration
        payload.sourceEpoch
      if payload.terminalSerial ≠ coverage.terminalSerial ∨
          payload.terminalGeneration ≠ coverage.terminalGeneration then
        return ⟨invalidateTailCoverage db coverage "SOURCE_TAIL_GENERATION_DIVERGED"
          "Terminal identity changed while extending certified source coverage.",
          none, false, some "SOURCE_TAIL_GENERATION_DIVERGED"⟩
      else
        let existing := db.tailChunks.rows.find? fun x =>
          x.coverageId == coverage.id && x.generation == payload.terminalGeneration &&
            x.startOrdinal == payload.startOrdinal
        match existing with
        | some chunk => replayTail hash db coverage chunk payload
        | none       => newTail env hash db coverage payload

end Reconciliation
