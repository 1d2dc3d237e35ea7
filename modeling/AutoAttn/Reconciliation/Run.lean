import AutoAttn.Reconciliation.Certificate

/-!
# Runs

The calls that change the source ledger of one terminal, each committed or rolled back as a
whole, in any order and any number.
-/

namespace Reconciliation

variable {D : Type} [DecidableEq D]

/-- `_active_or_new_source_epoch`: the epoch table, and the epoch a new job scans in. -/
def activeOrNewSourceEpoch (env : Env D) (epochs : Table Epoch) (generation : Nat) :
    Table Epoch × Nat :=
  let own := epochs.rows.filter (·.terminalGeneration == generation)
  match (own.filter (·.state != .superseded)).argmax (·.sequence) with
  | some epoch => (epochs, epoch.id)
  | none =>
    let latest := (own.argmax (·.sequence)).elim 0 (·.sequence)
    (epochs.insert fun id =>
      { id, terminalGeneration := generation, sequence := latest + 1, state := .active
        createdAt := env.now }, epochs.rows.length)

/-- `create_reconciliation_job`. Readiness checks, which only refuse, are left out. -/
def createReconciliationJob (env : Env D) (db : Db D) (onboardingGeneration : Nat) :
    Except Refusal (Db D) := do
  refuse (∃ job ∈ db.jobs.rows, job.status ∉ terminalJobStates)
    (.value "Device already has an active reconciliation.")
  let generation := max 1 onboardingGeneration
  let (epochs, epoch) := activeOrNewSourceEpoch env db.epochs generation
  return { db with
    epochs
    jobs := db.jobs.insert fun id =>
      { id, status := .queued, terminalSerial := db.zktSerial, terminalGeneration := generation
        sourceEpochId := epoch, cutoffCount := none, recordSize := none
        firstAnchorDigest := none, committedNextOrdinal := 0, lastChainDigest := none
        activeAssignmentId := none, creditStartOrdinal := none, creditEndOrdinal := none
        captureCertificate := none, error := none } }

/-- One call. `manage` stands for what the operator's controls, the scheduler and the assurance of
a certificate do to an open job: they set its status and its credit. `capture` stands for the
other writers of attendance, who add punches and change their delivery, but forget none. -/
inductive Call (D : Type) where
  | create (env : Env D) (onboardingGeneration : Nat)
  | anchor (env : Env D) (payload : AnchorRequest D)
  | chunk (env : Env D) (payload : ChunkRequest D)
  | release (env : Env D) (payload : ReleaseRequest)
  | tail (env : Env D) (payload : TailRequest D)
  | probe (env : Env D) (payload : ProbeRequest D)
  | manifest (env : Env D) (payload : ManifestRequest D)
  | fault (code : String)
  | heartbeat (env : Env D) (report : TerminalReport)
  | manage (jobId : Nat) (status : JobStatus) (error : Option (String × String))
      (assignment creditStart creditEnd : Option Nat)
  | capture (attendance : Table (Attendance D))

/-- The tables a call commits. -/
def Call.run (hash : Hash D) (db : Db D) : Call D → Except Refusal (Db D)
  | .create env generation => createReconciliationJob env db generation
  | .anchor env payload    => applyReconciliationAnchor env db payload
  | .chunk env payload     => do return (← applyReconciliationChunk env hash db payload).db
  | .release env payload   => applyReconciliationAssignmentRelease env db payload
  | .tail env payload      => do return (← applySourceTailChunk env hash db payload).db
  | .probe env payload     => applySourceProbeResult env hash db payload
  | .manifest env payload  => applyReconciliationManifest env hash db payload
  | .fault code            => .ok (applyReconciliationDeviceFault db code)
  | .heartbeat env report  => .ok (invalidateCoverageForTerminalChange env db report)
  | .manage jobId status error assignment creditStart creditEnd => do
    let job ← deviceJob db jobId
    refuse (job.status ∈ terminalJobStates) (.value "Reconciliation is already closed.")
    return db.putJob { job with
      status, error, activeAssignmentId := assignment, creditStartOrdinal := creditStart
      creditEndOrdinal := creditEnd }
  | .capture attendance => do
    refuse (¬ ∀ row ∈ db.attendance.rows, ∃ row' ∈ attendance.rows, row'.eventUid = row.eventUid)
      (.value "Attendance is never forgotten.")
    return { db with attendance }

/-- The tables of a terminal that was never reconciled. -/
def Db.blank (zktSerial : Option String) : Db D :=
  ⟨zktSerial, ∅, ∅, ∅, ∅, ∅, ∅, ∅, ∅, []⟩

/-- The tables that runs reach in which every call meets a condition on it and on the tables
before it. -/
inductive Run (hash : Hash D) (Meets : Db D → Call D → Prop) : Db D → Prop where
  | start (zktSerial : Option String) : Run hash Meets (Db.blank zktSerial)
  | step {db db' : Db D} {call : Call D} (reached : Run hash Meets db) (meets : Meets db call)
      (returns : call.run hash db = .ok db') : Run hash Meets db'

/-- An invariant of every call that meets the condition holds throughout. -/
theorem Run.induction {hash : Hash D} {Meets : Db D → Call D → Prop} {Inv : Db D → Prop}
    (blank : ∀ zktSerial, Inv (Db.blank zktSerial))
    (step : ∀ {db db' call}, Inv db → Meets db call → Call.run hash db call = .ok db' → Inv db')
    {db : Db D} (h : Run hash Meets db) : Inv db := by
  induction h with
  | start zktSerial => exact blank zktSerial
  | step _ meets returns ih => exact step ih meets returns

/-! ### Runs that can be evaluated -/

/-- Make calls one after the other as long as they meet the condition and return. -/
def replay (hash : Hash D) (Meets : Db D → Call D → Prop) [∀ db call, Decidable (Meets db call)]
    (db : Db D) : List (Call D) → Option (Db D)
  | []            => some db
  | call :: calls =>
    if Meets db call then
      match call.run hash db with
      | .ok db'  => replay hash Meets db' calls
      | .error _ => none
    else none

lemma Run.of_replay {hash : Hash D} {Meets : Db D → Call D → Prop}
    [∀ db call, Decidable (Meets db call)] {calls : List (Call D)} {db db' : Db D}
    (h : Run hash Meets db) (hreplay : replay hash Meets db calls = some db') :
    Run hash Meets db' := by
  induction calls generalizing db with
  | nil =>
    cases hreplay
    exact h
  | cons call calls ih =>
    rw [replay] at hreplay
    split_ifs at hreplay with hmeets
    split at hreplay
    next db₁ hrun => exact ih (h.step hmeets hrun) hreplay
    next => cases hreplay

/-- Digests that are texts themselves, so that distinct texts have distinct digests. -/
def plainHash : Hash (List Nat) where
  zeros := []
  sha256
    | .raw bytes => 0 :: bytes.map UInt8.toNat
    | .chunk records => 1 :: records.flatMap fun (disposition, uid, index, ordinal, digest, key) =>
      [disposition.ctorIdx, index, ordinal, digest.length, key.length] ++ digest ++ key ++
        uid.elim [] fun uid => uid.length :: uid
    | .chain previous startOrdinal endOrdinal chunkDigest =>
      [2, startOrdinal, endOrdinal, previous.length] ++ previous ++ chunkDigest

/-- A connector that may leave the epoch out, with every service enabled. -/
def plainEnv : Env (List Nat) where
  epochRequired := false
  zktCustodyEnabled := true
  piiFernetKey := true
  selfHealingEnabled := true
  now := 0
  ownerStillBound _ := false
  reviewed _ := false
  identity _ := (false, true)

/-- A record of `size` equal bytes that decodes as a punch. -/
def plainPunch (size ordinal : Nat) (byte : UInt8) : SourceRecord (List Nat) where
  ordinal := ordinal
  rawRecordDigest := plainHash.sha256 (.raw (List.replicate size byte))
  terminalRecordKey := [ordinal]
  occurrenceIndex := 1
  disposition := .event
  event := some
    { terminalSerial := none, eventUid := [byte.toNat], userId := "7", deviceEventTime := ordinal
      source := .fullHistory, punch := none }
  rawRecord := some (List.replicate size byte)
  occurrence_pos := le_rfl
  rawPreserved_claims := nofun
  unresolved_event := nofun
  parsed_event := by simp

lemma layout_sixteen : 16 ∈ sourceSizes := by decide

lemma layout_forty : 40 ∈ sourceSizes := by decide

/-- The anchor of a job of the first generation. -/
def plainAnchor (jobId cutoff : Nat) (first : SourceRecord (List Nat)) (size : Nat)
    (layout : size ∈ sourceSizes) : AnchorRequest (List Nat) where
  sourceEpoch := none
  jobId := jobId
  generation := 1
  terminalSerial := "T"
  terminalGeneration := 1
  cutoffCount := cutoff
  latestTerminalCount := cutoff
  recordSize := size
  sourceTotalBytes := 4 + cutoff * size
  firstAnchorDigest := first.rawRecordDigest
  generation_pos := le_rfl
  terminalGeneration_pos := le_rfl
  layout := layout

/-- Records read in a row from `start` on. -/
def inRow (start : Nat) (records : List (SourceRecord (List Nat))) : List (SourceRecord (List Nat)) :=
  records.mapIdx fun i source => { source with ordinal := start + i }

lemma length_inRow (start : Nat) (records : List (SourceRecord (List Nat))) :
    (inRow start records).length = records.length := List.length_mapIdx

lemma inRow_ordinals (start : Nat) (records : List (SourceRecord (List Nat))) :
    (inRow start records).map (·.ordinal) = List.range' start (inRow start records).length := by
  apply List.ext_getElem
  · simp
  · intro i _ _
    simp [inRow]

lemma inRow_bounds (start : Nat) (first : SourceRecord (List Nat))
    (more : List (SourceRecord (List Nat))) :
    1 ≤ (inRow start (first :: more.take 99)).length ∧
      (inRow start (first :: more.take 99)).length ≤ 100 := by
  rw [length_inRow, List.length_cons]
  have := List.length_take_le 99 more
  omega

/-- A chunk of a job of the first generation, numbered by its start, of at most 100 records. -/
def plainChunk (jobId start : Nat) (previous : Option (List Nat))
    (first : SourceRecord (List Nat)) (more : List (SourceRecord (List Nat))) :
    ChunkRequest (List Nat) :=
  let records := inRow start (first :: more.take 99)
  { sourceEpoch := none
    assignmentId := none
    jobId := jobId
    generation := 1
    sequence := start
    startOrdinal := start
    endOrdinal := start + records.length
    chunkDigest := reconciliationChunkDigest plainHash records
    previousChainDigest := previous
    resultingChainDigest := reconciliationChainDigest plainHash previous start
      (start + records.length) (reconciliationChunkDigest plainHash records)
    records := records
    generation_pos := le_rfl
    bounds := inRow_bounds start first more
    range := rfl
    contiguous := inRow_ordinals start _ }

/-- A tail of one record, the newest one of its terminal. -/
def plainTail (previous : List Nat) (source : SourceRecord (List Nat)) (size : Nat)
    (layout : size ∈ sourceSizes) : TailRequest (List Nat) where
  sourceEpoch := none
  terminalSerial := "T"
  terminalGeneration := 1
  recordSize := size
  startOrdinal := source.ordinal
  endOrdinal := source.ordinal + 1
  latestTerminalCount := source.ordinal + 1
  chunkDigest := reconciliationChunkDigest plainHash [source]
  previousChainDigest := previous
  resultingChainDigest := reconciliationChainDigest plainHash previous source.ordinal
    (source.ordinal + 1) (reconciliationChunkDigest plainHash [source])
  records := [source]
  terminalGeneration_pos := le_rfl
  layout := layout
  bounds := by simp
  range := rfl
  observed := le_rfl
  contiguous := rfl

/-- A fresh read of one ordinal. -/
def plainProbe (jobId : Nat) (source : SourceRecord (List Nat)) (size : Nat)
    (layout : size ∈ sourceSizes) : ProbeRequest (List Nat) where
  sourceEpoch := none
  jobId := jobId
  generation := 1
  terminalSerial := "T"
  recordSize := size
  ordinal := source.ordinal
  record := source
  generation_pos := le_rfl
  layout := layout

/-- The manifest of a job that scanned up to its cutoff. -/
def plainManifest (jobId cutoff : Nat) (final : List Nat) : ManifestRequest (List Nat) where
  sourceEpoch := none
  jobId := jobId
  generation := 1
  terminalSerial := "T"
  terminalGeneration := 1
  cutoffCount := cutoff
  latestTerminalCount := cutoff
  finalChainDigest := final
  generation_pos := le_rfl
  terminalGeneration_pos := le_rfl

end Reconciliation
