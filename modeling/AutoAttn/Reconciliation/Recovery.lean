import AutoAttn.Reconciliation.Tail

/-!
# Probes and recovery epochs

A changed record is read again until fresh reads agree. When they agree with the change, the job
continues in a new epoch into which its committed prefix is copied.
-/

namespace Reconciliation

variable {D : Type} [DecidableEq D]

/-- `_newest_slot_divergence`: the divergence only compares against a newest-slot read. -/
def newestSlotDivergence (db : Db D) (job : Job D) (divergence : Divergence D)
    (probed : SourceRecord D) : Bool :=
  let isNewest := fun generation epoch : Nat =>
    db.manifests.rows.any fun prior =>
      decide (prior.Canonical generation epoch divergence.ordinal) &&
        decide (prior.rawRecordDigest = divergence.oldRawDigest) && ledgerNewest db prior
  divergence.newDisposition != .rawPreserved && probed.disposition != .rawPreserved &&
    divergence.sourceEpochId == job.sourceEpochId &&
    (isNewest job.terminalGeneration job.sourceEpochId ||
      match lineagePredecessor db job.terminalGeneration job.terminalSerial job.sourceEpochId
          none with
      | some ⟨some epoch, generation, through, _⟩ =>
        decide (divergence.ordinal < through) && isNewest generation epoch
      | _ => false)

/-- The copy of a committed read in the new epoch. -/
def recoveryCopy (epoch : Nat) (prior : Manifest D) (id : Nat) : Manifest D :=
  { prior with
    id, jobId := none, sourceEpochId := epoch, sourceKind := .recoveryPrefix
    canonicalSource := true }

/-- The rows `_activate_recovery_epoch` copies: the canonical rows of the divergence's epoch below
the job's checkpoint, in the order of their ids. -/
def recoveryPrefix (db : Db D) (job : Job D) (divergence : Divergence D) : List (Manifest D) :=
  db.ledgerScope job.terminalGeneration divergence.sourceEpochId 0 job.committedNextOrdinal

/-- `_activate_recovery_epoch` -/
def activateRecoveryEpoch (env : Env D) (db : Db D) (job : Job D) (divergence : Divergence D) :
    Except Refusal (Db D) :=
  let recent := db.epochs.rows.countP fun epoch =>
    decide (env.now ≤ epoch.createdAt + 24 * 60 * 60) && decide (1 < epoch.sequence)
  if 3 ≤ recent then
    return (db.putDivergence { divergence with state := .mutationLimitReviewRequired }).putJob
      { job with
        status := .needsAttention
        error := some ("SOURCE_EPOCH_RECOVERY_LIMIT",
          "Terminal history changed repeatedly; automatic epoch recovery stopped.") }
  else do
    let oldEpoch := db.epochs.get? job.sourceEpochId
    let sequence := oldEpoch.elim 0 (·.sequence) + 1
    refuse (∃ x ∈ db.epochs.rows,
        x.terminalGeneration = job.terminalGeneration ∧ x.sequence = sequence)
      (.integrity "uq_add_terminal_source_epoch_sequence")
    let newEpoch := db.epochs.rows.length
    let epochs := db.epochs.insert fun id =>
      { id, terminalGeneration := job.terminalGeneration, sequence, state := .active
        createdAt := env.now }
    let epochs := oldEpoch.elim epochs fun old => epochs.put { old with state := .superseded }
    -- the new epoch is published only if every copied row commits
    let db ← (recoveryPrefix db job divergence).foldlM
      (fun st prior => st.addManifest (recoveryCopy newEpoch prior)) { db with epochs }
    let coverages := db.coverages.map
      (fun coverage =>
        if coverage.active then
          { coverage with
            active := false
            invalidatedReason := some "SUPERSEDED_BY_CONFIRMED_SOURCE_MUTATION" }
        else coverage)
      (fun coverage => by split_ifs <;> rfl)
    return ({ db with coverages }.putDivergence
      { divergence with state := .confirmedNewEpoch }).putJob
        { job with sourceEpochId := newEpoch, status := .queued, error := none }

/-- The digests of the fresh probes among the observations. -/
def probeDigests (observations : List (Observation D)) : List D :=
  (observations.filter (·.kind == .freshSourceProbe)).map (·.rawRecordDigest)

/-- The part of `apply_source_probe_result` that judges the observations of a divergence. -/
def judgeProbe (env : Env D) (db : Db D) (job : Job D) (divergence : Divergence D) :
    Except Refusal (Db D) :=
  let observations := divergence.observations
  let recent := probeDigests observations
  if 2 ≤ recent.length ∧ recent.drop (recent.length - 2) =
      [divergence.oldRawDigest, divergence.oldRawDigest] then
    return (db.putDivergence { divergence with state := .transientRecovered }).putJob
      { job with status := .queued }
  else if 3 ≤ observations.length ∧ ∀ item ∈ observations.drop (observations.length - 3),
      item.rawRecordDigest = divergence.newRawDigest then
    activateRecoveryEpoch env db job divergence
  else if 3 ≤ recent.length ∧
      (recent.drop (recent.length - 3)).all (fun digest => some digest = recent.getLast?) then
    -- the terminal rewrote the record again: the stable read is the replacement
    let stable := observations.reverse.find? fun item =>
      item.kind == .freshSourceProbe && decide (some item.rawRecordDigest = recent.getLast?)
    activateRecoveryEpoch env db job { divergence with
      newRawDigest := recent.getLast?.getD divergence.newRawDigest
      newDisposition := stable.elim divergence.newDisposition (·.disposition) }
  else if divergence.createdAt + 15 * 60 ≤ env.now then
    return (db.putDivergence { divergence with state := .unstableReviewRequired }).putJob
      { job with
        status := .needsAttention
        error := some ("SOURCE_DIVERGENCE_UNSTABLE",
          "Fresh terminal reads did not converge within the protected verification window.") }
  else
    return (db.putDivergence { divergence with state := .probing }).putJob
      { job with status := .running }

/-- The open divergence of a job at an ordinal. -/
def openDivergence (db : Db D) (job : Job D) (ordinal : Nat) : Option (Divergence D) :=
  db.divergences.rows.find? fun d =>
    d.jobId == job.id && d.ordinal == ordinal && (d.state == .observed || d.state == .probing)

/-- `apply_source_probe_result` -/
def applySourceProbeResult (env : Env D) (hash : Hash D) (db : Db D) (payload : ProbeRequest D) :
    Except Refusal (Db D) := do
  let job ← deviceJob db payload.jobId
  requireRunnable job payload.generation
  requireSourceEpoch env db job.sourceEpochId job.terminalGeneration payload.sourceEpoch
  if job.terminalSerial ≠ some payload.terminalSerial then
    return safetyHold db job "TERMINAL_SERIAL_CHANGED"
      "Terminal identity changed while confirming a source divergence."
  else match openDivergence db job payload.ordinal with
    | none => throw (.value "Source probe has no active divergence to verify.")
    | some divergence => do
      refuse (payload.record.ordinal ≠ payload.ordinal)
        (.value "Source probe record did not match its requested ordinal.")
      match payload.record.rawRecord with
      | none => throw (.value "Source probe contains invalid base64 evidence.")
      | some raw =>
        refuse (raw.length ≠ payload.recordSize ∨
            hash.sha256 (.raw raw) ≠ payload.record.rawRecordDigest)
          (.value "Source probe raw evidence did not match its digest or layout.")
        let observed := { divergence with
          observations := divergence.observations ++
            [⟨.freshSourceProbe, payload.record.rawRecordDigest, payload.record.disposition⟩] }
        if newestSlotDivergence db job observed payload.record then
          return (db.putDivergence { observed with
            state := .supersededByNewestRecordRule }).putJob { job with status := .queued }
        else judgeProbe env db job observed

end Reconciliation
