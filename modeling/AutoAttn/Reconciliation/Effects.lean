import Mathlib
import AutoAttn.Reconciliation.Commit

/-!
# What a call can do

Each call that returns either leaves the scans, the ledger and the cursors as they are, up to
statuses and withdrawn coverages, or it is one of six steps: a job is created or anchored, a chunk
or a tail is committed, a recovery epoch is activated, or a coverage is certified.
-/

namespace Reconciliation

open Checks (foldlM_ok)

variable {D : Type}

/-! ### Calls that move no cursor -/

/-- The job scans what it scanned before, and a closed job stays closed. -/
structure SameScan (job job' : Job D) : Prop where
  same : job' = { job with
    status := job'.status
    activeAssignmentId := job'.activeAssignmentId
    creditStartOrdinal := job'.creditStartOrdinal
    creditEndOrdinal := job'.creditEndOrdinal
    captureCertificate := job'.captureCertificate
    error := job'.error }
  closed : job.status ∈ terminalJobStates → job'.status ∈ terminalJobStates

lemma SameScan.refl (job : Job D) : SameScan job job := ⟨rfl, id⟩

lemma SameScan.id {job job' : Job D} (h : SameScan job job') : job'.id = job.id := by
  rw [h.same]

/-- Jobs changed in their statuses and credits at most. -/
structure SameScans (t t' : Table (Job D)) : Prop where
  rows : ∀ job' ∈ t', ∃ job ∈ t, SameScan job job'
  length : t'.rows.length = t.rows.length

lemma SameScans.refl (t : Table (Job D)) : SameScans t t :=
  ⟨fun job hjob => ⟨job, hjob, .refl job⟩, rfl⟩

lemma sameScans_put {t : Table (Job D)} {job job' : Job D} (hjob : job ∈ t)
    (h : SameScan job job') : SameScans t (t.put job') where
  rows x hx := by
    rcases Table.of_mem_put hx with rfl | ⟨hx, -⟩
    · exact ⟨job, hjob, h⟩
    · exact ⟨x, hx, .refl x⟩
  length := Table.length_put _ _

/-- A job of the table before is still there. -/
lemma SameScans.exists_of_mem {t t' : Table (Job D)} (h : SameScans t t') {job : Job D}
    (hjob : job ∈ t) : ∃ job' ∈ t', SameScan job job' := by
  have hlt := Table.rowId_lt hjob
  rw [← h.length] at hlt
  obtain ⟨job', hjob', hid⟩ := Table.exists_of_lt hlt
  obtain ⟨x, hx, hsame⟩ := h.rows job' hjob'
  obtain rfl := Table.eq_of_rowId hx hjob (hsame.id.symm.trans hid)
  exact ⟨job', hjob', hsame⟩

/-- The call moved no cursor and changed no canonical row. -/
structure Quiet (db db' : Db D) : Prop where
  jobs : SameScans db.jobs db'.jobs
  chunks : db'.chunks = db.chunks
  tailChunks : db'.tailChunks = db.tailChunks
  manifests : Grows (fun m => m.canonicalSource = false ∧ m.jobId = none)
    db.manifests db'.manifests
  coverages : Withdrawn db.coverages db'.coverages
  attendance : Keeps db.attendance db'.attendance

lemma Keeps.refl (t : Table (Attendance D)) : Keeps t t := fun row hrow => ⟨row, hrow, rfl⟩

lemma Quiet.refl (db : Db D) : Quiet db db :=
  ⟨.refl _, rfl, rfl, .refl _, .refl _, .refl _⟩

/-- Besides jobs, only tables that carry no cursor were changed. -/
lemma Quiet.of_jobs {db db' : Db D} (jobs : SameScans db.jobs db'.jobs)
    (chunks : db'.chunks = db.chunks) (tailChunks : db'.tailChunks = db.tailChunks)
    (manifests : db'.manifests = db.manifests) (coverages : db'.coverages = db.coverages)
    (attendance : db'.attendance = db.attendance) : Quiet db db' :=
  ⟨jobs, chunks, tailChunks, manifests ▸ .refl _, coverages ▸ .refl _, attendance ▸ .refl _⟩

lemma quiet_putJob {db : Db D} {job job' : Job D} (hjob : job ∈ db.jobs)
    (h : SameScan job job') : Quiet db (db.putJob job') :=
  .of_jobs (sameScans_put hjob h) rfl rfl rfl rfl rfl

lemma quiet_safetyHold {db : Db D} {job : Job D} (hjob : job ∈ db.jobs)
    (hopen : job.status ∉ terminalJobStates) (code message : String) :
    Quiet db (safetyHold db job code message) :=
  quiet_putJob hjob ⟨rfl, fun hc => absurd hc hopen⟩

/-- Taking a coverage out of service closes its job. -/
lemma quiet_invalidateTailCoverage {db : Db D} {coverage : Coverage D}
    (hcoverage : coverage ∈ db.coverages) (code message : String) :
    Quiet db (invalidateTailCoverage db coverage code message) := by
  have hwithdrawn := withdrawn_put hcoverage (some code)
  dsimp only [invalidateTailCoverage]
  split
  next job hjob =>
    have hmem : job ∈ db.jobs := (Table.get?_eq_some.mp hjob).1
    have hclosed : JobStatus.invalidated ∈ terminalJobStates := by decide
    exact ⟨sameScans_put hmem ⟨rfl, fun _ => hclosed⟩, rfl, rfl, .refl _, hwithdrawn, .refl _⟩
  next => exact ⟨.refl _, rfl, rfl, .refl _, hwithdrawn, .refl _⟩

lemma deviceJob_eq_ok {db : Db D} {jobId : Nat} {job : Job D} :
    deviceJob db jobId = .ok job ↔ job ∈ db.jobs ∧ job.id = jobId := by
  unfold deviceJob
  split
  next found hfound =>
    have hmem := Table.get?_eq_some.mp hfound
    constructor
    · rintro ⟨⟩
      exact hmem
    · rintro ⟨hjob, hid⟩
      rw [Table.eq_of_rowId hjob hmem.1 (hid.trans hmem.2.symm)]
  next hnone =>
    constructor
    · rintro ⟨⟩
    · rintro ⟨hjob, rfl⟩
      have := Table.get?_of_mem hjob
      rw [rowId_job, hnone] at this
      cases this

lemma requireRunnable_eq_ok {job : Job D} {generation : Nat} {u : Unit} :
    requireRunnable job generation = .ok u ↔
      job.status ∉ terminalJobStates ∧ job.status ∉ pausedJobStates ∧
        generation = job.terminalGeneration := by
  simp only [requireRunnable, bind_eq_ok, refuse_eq_ok, not_or, not_not, exists_const_iff,
    and_assoc]
  constructor
  · rintro ⟨-, h⟩
    exact h
  · intro h
    exact ⟨⟨()⟩, h⟩

lemma activeCoverage_eq_some {db : Db D} {coverage : Coverage D}
    (h : db.activeCoverage = some coverage) : coverage ∈ db.coverages ∧ coverage.active = true :=
  ⟨List.mem_of_find?_eq_some h, by simpa using List.find?_some h⟩

/-! ### The steps -/

/-- A job was anchored again or for the first time. -/
def Job.anchored (job : Job D) (payload : AnchorRequest D) : Job D :=
  { job.releaseAssignment with
    terminalSerial := some payload.terminalSerial
    terminalGeneration := payload.terminalGeneration
    cutoffCount := some payload.cutoffCount
    recordSize := some payload.recordSize
    firstAnchorDigest := some payload.firstAnchorDigest
    status := .running }

/-- The job has scanned nothing. -/
structure Unscanned (job : Job D) : Prop where
  committed : job.committedNextOrdinal = 0
  chain : job.lastChainDigest = none
  cutoff : job.cutoffCount = none
  size : job.recordSize = none

/-- The job a request is about, which is open. -/
structure OpenJob (db : Db D) (jobId : Nat) (job : Job D) : Prop where
  mem : job ∈ db.jobs
  id : job.id = jobId
  isOpen : job.status ∉ terminalJobStates

/-- The chunk continues the scan of the job. -/
structure Continues (hash : Hash D) (job : Job D) (payload : ChunkRequest D) : Prop where
  generation : payload.generation = job.terminalGeneration
  start : payload.startOrdinal = job.committedNextOrdinal
  previous : payload.previousChainDigest = job.lastChainDigest
  resulting : payload.resultingChainDigest = reconciliationChainDigest hash job.lastChainDigest
    payload.startOrdinal payload.endOrdinal payload.chunkDigest
  verified : ∀ source ∈ payload.records, source.rawRecord.isSome = true

/-- The tail continues the coverage. -/
structure Extends (hash : Hash D) (coverage : Coverage D) (payload : TailRequest D) : Prop where
  generation : payload.terminalGeneration = coverage.terminalGeneration
  start : payload.startOrdinal = coverage.sourceCommittedCursor
  previous : payload.previousChainDigest = coverage.sourceCommittedChainDigest
  resulting : payload.resultingChainDigest = reconciliationChainDigest hash
    coverage.sourceCommittedChainDigest payload.startOrdinal payload.endOrdinal
    payload.chunkDigest
  verified : ∀ source ∈ payload.records, source.rawRecord.isSome = true

/-- The coverage that a manifest adds for a job, and what it does to the active one. -/
structure Certified (db : Db D) (job : Job D) (payload : ManifestRequest D) (db' : Db D) :
    Prop where
  jobs : SameScans db.jobs db'.jobs
  tables : ∃ epochs, db' = { db with epochs, jobs := db'.jobs, coverages := db'.coverages }
  cutoff : job.cutoffCount = some payload.cutoffCount
  added : ∃ t coverage, Withdrawn db.coverages t ∧ db'.coverages.rows = t.rows ++ [coverage] ∧
    coverage.jobId = job.id ∧ coverage.sourceEpochId = job.sourceEpochId ∧
    coverage.terminalGeneration = job.terminalGeneration ∧
    coverage.certifiedSourceCursor = payload.cutoffCount ∧
    coverage.sourceCommittedCursor = payload.cutoffCount ∧
    coverage.sourceCommittedChainDigest = coverage.sourceChainDigest ∧
    if coverage.active then
      (∀ c ∈ t, c.active = false) ∧ ∀ c ∈ db.coverages, c.active = true →
        c.terminalGeneration = job.terminalGeneration ∧
            c.sourceCommittedCursor < payload.cutoffCount ∨
          c.terminalGeneration < job.terminalGeneration
    else t = db.coverages

variable [DecidableEq D]

/-- What a call that returns did. -/
inductive Effect (hash : Hash D) (db : Db D) : Call D → Db D → Prop where
  | quiet {call db'} (h : Quiet db db') : Effect hash db call db'
  | created {env generation epochs jobs} {job : Job D}
      (closed : ∀ job ∈ db.jobs, job.status ∈ terminalJobStates)
      (rows : jobs.rows = db.jobs.rows ++ [job]) (new : Unscanned job) :
      Effect hash db (.create env generation) { db with epochs, jobs }
  | anchored {env payload job} (job_ : OpenJob db payload.jobId job) :
      Effect hash db (.anchor env payload) (db.putJob (job.anchored payload))
  | scanned {env payload job recordSize answer row attendance manifests chunks}
      (job_ : OpenJob db payload.jobId job) (size : job.recordSize = some recordSize)
      (continues : Continues hash job payload)
      (rows : chunks.rows = db.chunks.rows ++ [row]) (owner : row.jobId = job.id)
      (generation : row.generation = job.terminalGeneration)
      (receipt : row.receipt = payload.receipt)
      (tables : answer = { db with
        attendance, manifests, chunks, jobs := db.jobs.put (job.advance payload) })
      (rescan : Rescan db job recordSize payload answer) :
      Effect hash db (.chunk env payload) answer
  | extended {env payload coverage answer row attendance manifests tailChunks}
      (active : db.activeCoverage = some coverage) (continues : Extends hash coverage payload)
      (rows : tailChunks.rows = db.tailChunks.rows ++ [row])
      (owner : row.coverageId = coverage.id)
      (generation : row.generation = coverage.terminalGeneration)
      (receipt : row.receipt = payload.receipt)
      (tables : answer = { db with
        attendance, manifests, tailChunks
        coverages := db.coverages.put { coverage with
          sourceCommittedCursor := payload.endOrdinal
          sourceCommittedChainDigest := payload.resultingChainDigest } })
      (extension : Extension db coverage payload answer) :
      Effect hash db (.tail env payload) answer
  | recovered {env payload job db'} {divergence found : Divergence D}
      (job_ : OpenJob db payload.jobId job)
      (open_ : openDivergence db job payload.ordinal = some found)
      (epoch : divergence.sourceEpochId = found.sourceEpochId)
      (h : Recovered db job divergence db') :
      Effect hash db (.probe env payload) db'
  | certified {env payload job db'} (job_ : OpenJob db payload.jobId job)
      (h : Certified db job payload db') :
      Effect hash db (.manifest env payload) db'

/-! ### Each handler does one of them -/

section Handlers

variable {env : Env D} {hash : Hash D} {db db' : Db D}

omit [DecidableEq D] in
lemma effect_create [DecidableEq D] {generation : Nat}
    (h : createReconciliationJob env db generation = .ok db') :
    Effect hash db (.create env generation) db' := by
  simp only [createReconciliationJob, bind_eq_ok, refuse_eq_ok, pure_eq_ok] at h
  obtain ⟨-, hclosed, rfl⟩ := h
  refine .created (fun job hjob => ?_) rfl ⟨rfl, rfl, rfl, rfl⟩
  by_contra hopen
  exact hclosed ⟨job, hjob, hopen⟩

lemma effect_anchor {payload : AnchorRequest D}
    (h : applyReconciliationAnchor env db payload = .ok db') :
    Effect hash db (.anchor env payload) db' := by
  simp only [applyReconciliationAnchor, bind_eq_ok, pure_eq_ok, deviceJob_eq_ok,
    requireRunnable_eq_ok] at h
  obtain ⟨job, ⟨hjob, hid⟩, -, ⟨hopen, -⟩, -, -, -, -, rfl⟩ := h
  unfold anchorJob
  split_ifs
  · exact .quiet (quiet_safetyHold hjob hopen _ _)
  · exact .quiet (quiet_safetyHold hjob hopen _ _)
  · exact .quiet (quiet_safetyHold hjob hopen _ _)
  · exact .quiet (quiet_safetyHold hjob hopen _ _)
  · exact .anchored ⟨hjob, hid, hopen⟩

omit [DecidableEq D] in
lemma effect_release {payload : ReleaseRequest}
    (h : applyReconciliationAssignmentRelease env db payload = .ok db') :
    Effect hash db (.release env payload) db' := by
  simp only [applyReconciliationAssignmentRelease, bind_eq_ok, deviceJob_eq_ok] at h
  obtain ⟨job, ⟨hjob, -⟩, -, -, h⟩ := h
  split at h
  · simp only [bind_eq_ok, pure_eq_ok] at h
    obtain ⟨-, -, rfl⟩ := h
    exact .quiet (.refl db)
  · simp only [bind_eq_ok, requireRunnable_eq_ok] at h
    obtain ⟨-, ⟨hopen, -⟩, -, -, h⟩ := h
    split at h
    · cases h
      exact .quiet (quiet_putJob hjob ⟨rfl, fun hc => absurd hc hopen⟩)
    · cases h
      exact .quiet (.refl db)

omit [DecidableEq D] in
/-- A divergence is opened or continued beside the job that met it. -/
lemma quiet_beginSourceDivergence {job : Job D} (hjob : job ∈ db.jobs)
    (hopen : job.status ∉ terminalJobStates) (prior : Manifest D) (source : SourceRecord D) :
    Quiet db (beginSourceDivergence env db job prior source) := by
  refine .of_jobs (sameScans_put hjob ?_) rfl rfl rfl rfl rfl
  refine ⟨?_, fun hc => absurd hc hopen⟩
  split_ifs <;> rfl

lemma verifyRecords_ok {recordSize : Nat} {records : List (SourceRecord D)} {u : Unit}
    (h : verifyRecords hash recordSize records = .ok u) :
    ∀ source ∈ records, source.rawRecord.isSome = true := by
  induction records with
  | nil => simp
  | cons source rest ih =>
    rw [verifyRecords] at h
    split at h
    · cases h
    next raw hraw =>
      simp only [bind_eq_ok] at h
      obtain ⟨-, -, -, -, h⟩ := h
      intro x hx
      rcases List.mem_cons.mp hx with rfl | hx
      · rw [hraw]
        rfl
      · exact ih h x hx

lemma checkChunk_ok {job : Job D} {cutoff recordSize : Nat} {payload : ChunkRequest D} {u : Unit}
    (h : checkChunk env hash job cutoff recordSize payload = .ok u) :
    Continues hash job payload ∧ job.status ∉ terminalJobStates := by
  simp only [checkChunk, bind_eq_ok, refuse_eq_ok, not_not, requireRunnable_eq_ok] at h
  obtain ⟨-, ⟨hopen, -, hgeneration⟩, -, -, -, -, -, -, -, hstart, -, -, u, hverified, -, -, -, -,
    -, hprevious, hresulting⟩ := h
  exact ⟨⟨hgeneration, hstart, hprevious, hresulting, verifyRecords_ok hverified⟩, hopen⟩

/-- A chunk that goes on to ingestion agreed with both ledgers. -/
lemma planChunk_eq_commit {job : Job D} {recordSize : Nat} {payload : ChunkRequest D}
    {bound : BoundAttendance D} :
    planChunk env db job recordSize payload = .ok (.commit bound) ↔
      chunkLineage db job recordSize payload = .agrees ∧
      ordinaryComparison db job payload.records payload.records = .agrees ∧
      openJobBlock db job (chunkSettled db job payload) = false ∧
      boundSourceAttendance env db job.terminalSerial (chunkIngestible db job payload) true =
        .ok bound := by
  unfold planChunk
  cases chunkLineage db job recordSize payload with
  | agrees =>
    cases ordinaryComparison db job payload.records payload.records with
    | agrees =>
      cases openJobBlock db job (chunkSettled db job payload) with
      | true => simp [pure, Except.pure]
      | false => simp only [Bool.false_eq_true, if_false, bind_eq_ok, pure_eq_ok,
          ChunkPlan.commit.injEq, exists_eq_right, true_and]
    | diverged prior source => simp [pure, Except.pure]
    | keyChanged => simp [pure, Except.pure]
  | diverged prior source => simp [pure, Except.pure]
  | keyChanged => simp [pure, Except.pure]

/-- A chunk that is stopped holds its job or opens a divergence. -/
lemma planChunk_stop {job : Job D} {recordSize : Nat} {payload : ChunkRequest D}
    (hjob : job ∈ db.jobs) (hopen : job.status ∉ terminalJobStates)
    (h : planChunk env db job recordSize payload = .ok (.stop db')) : Quiet db db' := by
  unfold planChunk at h
  split at h
  · cases h
    exact quiet_beginSourceDivergence hjob hopen _ _
  · cases h
    exact quiet_safetyHold hjob hopen _ _
  · cases h
    exact quiet_beginSourceDivergence hjob hopen _ _
  · cases h
    exact quiet_safetyHold hjob hopen _ _
  · split_ifs at h
    · cases h
      exact quiet_safetyHold hjob hopen _ _
    · simp only [bind_eq_ok, pure_eq_ok] at h
      obtain ⟨-, -, ⟨⟩⟩ := h

lemma effect_chunk {payload : ChunkRequest D} {answer : ChunkAnswer D}
    (h : applyReconciliationChunk env hash db payload = .ok answer) :
    Effect hash db (.chunk env payload) answer.db := by
  simp only [applyReconciliationChunk, bind_eq_ok, deviceJob_eq_ok] at h
  obtain ⟨job, ⟨hjob, hid⟩, -, -, -, -, h⟩ := h
  split at h
  next cutoff recordSize hcutoff hsize =>
    split at h
    next existing hexisting =>
      unfold replayChunk at h
      split_ifs at h
      · simp only [bind_eq_ok, pure_eq_ok, requireRunnable_eq_ok] at h
        obtain ⟨-, ⟨hopen, -⟩, rfl⟩ := h
        exact .quiet (quiet_safetyHold hjob hopen _ _)
      · cases h
        exact .quiet (.refl db)
    next hnone =>
      simp only [bind_eq_ok] at h
      obtain ⟨u, hcheck, plan, hplan, h⟩ := h
      obtain ⟨hcontinues, hopen⟩ := checkChunk_ok hcheck
      cases plan with
      | stop held =>
        cases h
        exact .quiet (planChunk_stop hjob hopen hplan)
      | commit bound =>
        obtain ⟨-, -, -, hbound⟩ := planChunk_eq_commit.mp hplan
        obtain ⟨⟨attendance, manifests, chunks, row, htables, hrows, howner, hgeneration, hreceipt⟩,
          hrescan⟩ := commitChunk_ok hbound hcontinues.generation h
        exact .scanned ⟨hjob, hid, hopen⟩ hsize hcontinues hrows howner hgeneration hreceipt
          htables hrescan
  next => cases h

lemma tailEvidenceFault_eq_none {recordSize : Nat} {records : List (SourceRecord D)}
    (h : tailEvidenceFault hash recordSize records = none) :
    ∀ source ∈ records, source.rawRecord.isSome = true := by
  induction records with
  | nil => simp
  | cons source rest ih =>
    rw [tailEvidenceFault] at h
    split at h
    · cases h
    next raw hraw =>
      split_ifs at h
      intro x hx
      rcases List.mem_cons.mp hx with rfl | hx
      · rw [hraw]
        rfl
      · exact ih h x hx

lemma tailFault_eq_none {coverage : Coverage D} {payload : TailRequest D}
    (hgeneration : payload.terminalGeneration = coverage.terminalGeneration)
    (h : tailFault hash db coverage payload = none) : Extends hash coverage payload := by
  unfold tailFault at h
  split at h
  · cases h
  split at h
  · cases h
  next hstart =>
  split at h
  · cases h
  next hevidence =>
  split at h
  · cases h
  split at h
  · cases h
  next hprevious =>
  split at h
  · cases h
  next hresulting =>
  exact ⟨hgeneration, not_not.mp hstart, not_not.mp hprevious, not_not.mp hresulting,
    tailEvidenceFault_eq_none hevidence⟩

omit [DecidableEq D] in
/-- The receipts of a replay are never a slot's source. -/
lemma quiet_recordSupersededReplay [DecidableEq D] {coverage : Coverage D}
    {payload : TailRequest D} (h : recordSupersededReplay db coverage payload = .ok db') :
    Quiet db db' := by
  dsimp only [recordSupersededReplay] at h
  split_ifs at h
  · cases h
    exact .refl db
  · obtain ⟨replays, hreplays⟩ : ∃ replays, replays = (coverage.id, payload.startOrdinal,
      payload.endOrdinal, payload.chunkDigest, payload.resultingChainDigest) ::
        db.supersededReplays := ⟨_, rfl⟩
    rw [← hreplays] at h
    have hkept : db' = { db with manifests := db'.manifests, supersededReplays := replays } ∧
        Grows (fun m => m.canonicalSource = false ∧ m.jobId = none) db.manifests db'.manifests := by
      refine foldlM_ok (P := fun _ st =>
        st = { db with manifests := st.manifests, supersededReplays := replays } ∧
          Grows (fun m => m.canonicalSource = false ∧ m.jobId = none) db.manifests st.manifests)
        h ⟨rfl, .refl _⟩ ?_
      rintro done source st st' - ⟨hdb, hgrows⟩ hadd
      refine ⟨?_, hgrows.trans ((grows_of_addManifest hadd).mono ?_)⟩
      · obtain ⟨-, heq⟩ := addManifest_eq_ok.mp hadd
        rw [heq, hdb]
      · rintro m rfl
        exact ⟨rfl, rfl⟩
    obtain ⟨hdb, hgrows⟩ := hkept
    rw [hdb]
    exact ⟨.refl _, rfl, rfl, hgrows, .refl _, .refl _⟩

lemma effect_tail {payload : TailRequest D} {answer : TailAnswer D}
    (h : applySourceTailChunk env hash db payload = .ok answer) :
    Effect hash db (.tail env payload) answer.db := by
  unfold applySourceTailChunk at h
  split at h
  · cases h
  next coverage hactive =>
    obtain ⟨hcoverage, -⟩ := activeCoverage_eq_some hactive
    split at h
    · cases h
      exact .quiet (.refl db)
    · simp only [bind_eq_ok] at h
      obtain ⟨-, -, h⟩ := h
      split at h
      · cases h
        exact .quiet (quiet_invalidateTailCoverage hcoverage _ _)
      next hidentity =>
      simp only [not_or, not_not] at hidentity
      split at h
      next existing _ =>
        unfold replayTail at h
        split_ifs at h
        · split at h
          · simp only [bind_eq_ok, pure_eq_ok] at h
            obtain ⟨recorded, hrecorded, rfl⟩ := h
            exact .quiet (quiet_recordSupersededReplay hrecorded)
          · cases h
            exact .quiet (quiet_invalidateTailCoverage hcoverage _ _)
        · cases h
          exact .quiet (.refl db)
      next =>
        simp only [newTail, bind_eq_ok] at h
        obtain ⟨-, -, h⟩ := h
        split at h
        · cases h
          exact .quiet (quiet_invalidateTailCoverage hcoverage _ _)
        next hfault =>
          simp only [bind_eq_ok] at h
          obtain ⟨bound, hbound, h⟩ := h
          split_ifs at h
          · cases h
            exact .quiet (quiet_invalidateTailCoverage hcoverage _ _)
          · have hextends := tailFault_eq_none hidentity.2 hfault
            obtain ⟨⟨attendance, manifests, tailChunks, row, htables, hrows, howner, hgeneration,
              hreceipt⟩, hextension⟩ := commitTail_ok hbound h
            exact .extended hactive hextends hrows howner (hgeneration.trans hidentity.2) hreceipt
              htables hextension

omit [DecidableEq D] in
lemma quiet_putDivergence_putJob {job job' : Job D} (hjob : job ∈ db.jobs)
    (h : SameScan job job') (divergence : Divergence D) :
    Quiet db ((db.putDivergence divergence).putJob job') :=
  .of_jobs (sameScans_put hjob h) rfl rfl rfl rfl rfl

lemma judgeProbe_ok {job : Job D} {divergence : Divergence D} (hjob : job ∈ db.jobs)
    (hopen : job.status ∉ terminalJobStates)
    (h : judgeProbe env db job divergence = .ok db') :
    Quiet db db' ∨ ∃ judged : Divergence D, judged.sourceEpochId = divergence.sourceEpochId ∧
      Recovered db job judged db' := by
  have hquiet : ∀ job' d, SameScan job job' → Quiet db ((db.putDivergence d).putJob job') :=
    fun job' d hsame => quiet_putDivergence_putJob hjob hsame d
  have hrecovery : ∀ judged : Divergence D, judged.sourceEpochId = divergence.sourceEpochId →
      activateRecoveryEpoch env db job judged = .ok db' → Quiet db db' ∨
        ∃ judged : Divergence D, judged.sourceEpochId = divergence.sourceEpochId ∧
          Recovered db job judged db' := by
    intro judged hepoch hactivate
    rcases activateRecoveryEpoch_ok hactivate with ⟨state, error, rfl⟩ | hrecovered
    · exact .inl (hquiet _ _ ⟨rfl, fun hc => absurd hc hopen⟩)
    · exact .inr ⟨judged, hepoch, hrecovered⟩
  dsimp only [judgeProbe] at h
  split at h
  · cases h
    exact .inl (hquiet _ _ ⟨rfl, fun hc => absurd hc hopen⟩)
  split at h
  · exact hrecovery divergence rfl h
  split at h
  · refine hrecovery _ ?_ h
    rfl
  split at h
  · cases h
    exact .inl (hquiet _ _ ⟨rfl, fun hc => absurd hc hopen⟩)
  · cases h
    exact .inl (hquiet _ _ ⟨rfl, fun hc => absurd hc hopen⟩)

lemma effect_probe {payload : ProbeRequest D}
    (h : applySourceProbeResult env hash db payload = .ok db') :
    Effect hash db (.probe env payload) db' := by
  simp only [applySourceProbeResult, bind_eq_ok, deviceJob_eq_ok, requireRunnable_eq_ok] at h
  obtain ⟨job, ⟨hjob, hid⟩, -, ⟨hopen, -⟩, -, -, h⟩ := h
  split at h
  · cases h
    exact .quiet (quiet_safetyHold hjob hopen _ _)
  split at h
  · cases h
  next divergence hdivergence =>
  simp only [bind_eq_ok] at h
  obtain ⟨-, -, h⟩ := h
  split at h
  · cases h
  simp only [bind_eq_ok] at h
  obtain ⟨-, -, h⟩ := h
  split at h
  · cases h
    exact .quiet (quiet_putDivergence_putJob hjob ⟨rfl, fun hc => absurd hc hopen⟩ _)
  · rcases judgeProbe_ok hjob hopen h with hquiet | ⟨judged, hepoch, hrecovered⟩
    · exact .quiet hquiet
    · exact .recovered ⟨hjob, hid, hopen⟩ hdivergence hepoch hrecovered

/-- What the plan of a certificate says about the active coverages. -/
lemma finalisationPlan_active {job : Job D} {cutoff latestCount : Nat} {plan : FinalisationPlan D}
    (h : finalisationPlan hash db job (db.coverages.rows.filter (·.active)) cutoff latestCount =
      plan) :
    (∃ code message, plan = .hold code message) ∨ (∃ coverage, plan = .retain coverage) ∨
      ((plan = .fresh ∨ ∃ predecessor ∈ db.coverages, ∃ outcome,
          plan = .supersede predecessor outcome) ∧
        ∀ c ∈ db.coverages, c.active = true →
          c.terminalGeneration = job.terminalGeneration ∧ c.sourceCommittedCursor < cutoff ∨
            c.terminalGeneration < job.terminalGeneration) := by
  have hmem : ∀ c, c ∈ db.coverages.rows.filter (·.active) ↔ c ∈ db.coverages ∧ c.active = true := by
    intro c
    rw [List.mem_filter]
    exact Iff.rfl
  generalize db.coverages.rows.filter (·.active) = priors at h hmem
  subst h
  unfold finalisationPlan
  split
  · exact .inl ⟨_, _, rfl⟩
  next predecessor hnewer holder =>
    have hpredecessor := List.find?_some holder
    rw [decide_eq_true_eq] at hpredecessor
    split
    · exact .inl ⟨_, _, rfl⟩
    next hone =>
    split
    · exact .inl ⟨_, _, rfl⟩
    next outcome _ =>
      have hin := List.mem_of_find?_eq_some holder
      refine .inr (.inr ⟨.inr ⟨predecessor, ((hmem _).mp hin).1, outcome, rfl⟩,
        fun c hc hactive => .inr ?_⟩)
      obtain ⟨only, rfl⟩ := List.length_eq_one_iff.mp (not_not.mp hone)
      obtain rfl := List.mem_singleton.mp hin
      obtain rfl := List.mem_singleton.mp ((hmem c).mpr ⟨hc, hactive⟩)
      exact hpredecessor
  next hnewer holder =>
    split
    next hlonger =>
      refine .inr (.inr ⟨.inl rfl, fun c hc hactive => .inl ?_⟩)
      have hin := (hmem c).mpr ⟨hc, hactive⟩
      have h₁ := List.find?_eq_none.mp hnewer c hin
      have h₂ := List.find?_eq_none.mp holder c hin
      have h₃ := List.find?_eq_none.mp hlonger c hin
      simp only [decide_eq_true_eq] at h₁ h₂ h₃
      omega
    next retained _ =>
      split
      · exact .inl ⟨_, _, rfl⟩
      · exact .inr (.inl ⟨retained, rfl⟩)

omit [DecidableEq D] in
/-- The coverages before a certificate go out of service. -/
lemma retirePriors_ok {job : Job D} {payload : ManifestRequest D} {plan : FinalisationPlan D}
    (hplan : plan = .fresh ∨ ∃ predecessor ∈ db.coverages, ∃ outcome,
      plan = .supersede predecessor outcome) (hdb : retirePriors db job payload plan = db') :
    SameScans db.jobs db'.jobs ∧ Withdrawn db.coverages db'.coverages ∧
      ∃ epochs, db' = { db with epochs, jobs := db'.jobs, coverages := db'.coverages } := by
  rcases hplan with rfl | ⟨predecessor, hmem, outcome, rfl⟩
  · subst hdb
    exact ⟨.refl _, withdrawn_map _ _, _, rfl⟩
  · obtain ⟨retired, hretired⟩ :
      ∃ retired, retired = retirePreviousGeneration db job predecessor outcome payload := ⟨_, rfl⟩
    rw [retirePriors, ← hretired] at hdb
    subst hdb
    have hquiet : SameScans db.jobs retired.jobs ∧ Withdrawn db.coverages retired.coverages ∧
        ∃ epochs, retired = { db with
          epochs, jobs := retired.jobs, coverages := retired.coverages } := by
      rw [retirePreviousGeneration] at hretired
      split at hretired
      · subst hretired
        exact ⟨.refl _, withdrawn_put hmem _, _, rfl⟩
      · have hquiet := hretired ▸ quiet_invalidateTailCoverage hmem _ _
        refine ⟨hquiet.jobs, hquiet.coverages, db.epochs, ?_⟩
        dsimp only [invalidateTailCoverage] at hretired
        split at hretired <;> subst hretired <;> rfl
    obtain ⟨hjobs, hcoverages, epochs, htables⟩ := hquiet
    refine ⟨hjobs, hcoverages.trans (withdrawn_map _ _), epochs, ?_⟩
    rw [htables]
    rfl

/-- A certificate is stored with its coverage. -/
lemma certifyJob_ok {job : Job D} {payload : ManifestRequest D} {latestCount : Nat}
    {plan : FinalisationPlan D} (hjob : job ∈ db.jobs)
    (hopen : job.status ∉ terminalJobStates)
    (hcutoff : job.cutoffCount = some payload.cutoffCount)
    (hplan : finalisationPlan hash db job (db.coverages.rows.filter (·.active))
      payload.cutoffCount latestCount = plan)
    (hhold : ∀ code message, plan ≠ .hold code message)
    (h : certifyJob env db job payload plan = .ok db') : Certified db job payload db' := by
  obtain ⟨u, hactive, h⟩ := bind_eq_ok.mp h
  rw [refuse_eq_ok] at hactive
  obtain rfl := pure_eq_ok.mp h
  have hadvanced : ∀ t : Table (Job D), SameScans db.jobs t → ∀ certificate,
      SameScans db.jobs (t.put { job.releaseAssignment with
        captureCertificate := certificate, status := .running, error := none }) := by
    intro t ht certificate
    refine ⟨fun x hx => ?_, (Table.length_put _ _).trans ht.length⟩
    rcases Table.of_mem_put hx with rfl | ⟨hx, -⟩
    · exact ⟨job, hjob, rfl, fun hc => absurd hc hopen⟩
    · exact ht.rows x hx
  rcases finalisationPlan_active hplan with ⟨code, message, rfl⟩ | ⟨coverage, rfl⟩ |
    ⟨hplan', hbefore⟩
  · exact absurd rfl (hhold code message)
  · exact ⟨hadvanced _ (.refl _) _, ⟨db.epochs, rfl⟩, hcutoff, db.coverages, _, .refl _, rfl, rfl,
      rfl, rfl, rfl, rfl, rfl, rfl⟩
  · obtain ⟨retired, hretired⟩ : ∃ retired, retirePriors db job payload plan = retired := ⟨_, rfl⟩
    obtain ⟨hjobs, hcoverages, epochs, htables⟩ := retirePriors_ok hplan' hretired
    have hnew : plan.activates = true := by
      rcases hplan' with rfl | ⟨_, -, _, rfl⟩ <;> rfl
    simp only [hretired, hnew, true_and] at hactive ⊢
    refine ⟨hadvanced _ hjobs _, ⟨epochs, ?_⟩, hcutoff, retired.coverages, _, hcoverages, rfl, rfl,
      rfl, rfl, rfl, rfl, rfl, ?_⟩
    · rw [htables]
      rfl
    · refine ⟨fun c hc => ?_, hbefore⟩
      rw [← Bool.not_eq_true]
      exact fun hne => hactive ⟨c, hc, hne⟩

/-- A manifest that certifies nothing leaves the coverages alone. -/
lemma applyReconciliationManifest_ok {payload : ManifestRequest D}
    (h : applyReconciliationManifest env hash db payload = .ok db') :
    Quiet db db' ∧ db'.coverages = db.coverages ∨
      ∃ job, OpenJob db payload.jobId job ∧ Certified db job payload db' := by
  simp only [applyReconciliationManifest, bind_eq_ok, deviceJob_eq_ok] at h
  obtain ⟨job, ⟨hjob, hid⟩, -, -, h⟩ := h
  split at h
  · simp only [bind_eq_ok, pure_eq_ok] at h
    obtain ⟨-, -, rfl⟩ := h
    exact .inl ⟨.refl db, rfl⟩
  simp only [bind_eq_ok, requireRunnable_eq_ok] at h
  obtain ⟨-, ⟨hopen, -⟩, h⟩ := h
  split at h
  · cases h
    exact .inl ⟨quiet_safetyHold hjob hopen _ _, rfl⟩
  split at h
  · cases h
    exact .inl ⟨quiet_safetyHold hjob hopen _ _, rfl⟩
  split at h
  · cases h
    exact .inl ⟨quiet_safetyHold hjob hopen _ _, rfl⟩
  next hsealed =>
  split at h
  · cases h
    exact .inl ⟨quiet_safetyHold hjob hopen _ _, rfl⟩
  split at h
  · cases h
    exact .inl ⟨quiet_safetyHold hjob hopen _ _, rfl⟩
  next hhold =>
    simp only [not_or, not_not] at hsealed
    exact .inr ⟨job, ⟨hjob, hid, hopen⟩, certifyJob_ok hjob hopen hsealed.1 rfl hhold h⟩

omit [DecidableEq D] in
lemma quiet_deviceFault (code : String) : Quiet db (applyReconciliationDeviceFault db code) := by
  unfold applyReconciliationDeviceFault
  split
  · dsimp only
    split
    next job hjob =>
      have hfound := List.find?_some hjob
      simp only [Bool.and_eq_true, Bool.or_eq_true, beq_iff_eq] at hfound
      refine quiet_safetyHold (List.mem_of_find?_eq_some hjob) ?_ _ _
      rcases hfound.2 with hstatus | hstatus <;> simp [hstatus, terminalJobStates]
    next => exact .refl db
  · split
    · split
      next coverage hactive =>
        exact quiet_invalidateTailCoverage (activeCoverage_eq_some hactive).1 _ _
      next => exact .refl db
    · exact .refl db

omit [DecidableEq D] in
lemma quiet_terminalChange (report : TerminalReport) :
    Quiet db (invalidateCoverageForTerminalChange env db report) := by
  have hserial : Quiet db { db with zktSerial := report.serial } :=
    .of_jobs (.refl _) rfl rfl rfl rfl rfl
  dsimp only [invalidateCoverageForTerminalChange]
  split
  · exact hserial
  next coverage hactive =>
    split
    next reason _ =>
      have hquiet := quiet_invalidateTailCoverage (activeCoverage_eq_some hactive).1 reason
        "Certified terminal coverage changed and was invalidated fail-closed."
      exact ⟨hquiet.jobs, hquiet.chunks, hquiet.tailChunks, hquiet.manifests, hquiet.coverages,
        hquiet.attendance⟩
    next => exact hserial

end Handlers

/-- Every call that returns did one of the steps. -/
theorem effect_of_run {hash : Hash D} {db db' : Db D} {call : Call D}
    (h : call.run hash db = .ok db') : Effect hash db call db' := by
  cases call with
  | create env generation => exact effect_create h
  | anchor env payload => exact effect_anchor h
  | chunk env payload =>
    simp only [Call.run, bind_eq_ok, pure_eq_ok] at h
    obtain ⟨answer, h, rfl⟩ := h
    exact effect_chunk h
  | release env payload => exact effect_release h
  | tail env payload =>
    simp only [Call.run, bind_eq_ok, pure_eq_ok] at h
    obtain ⟨answer, h, rfl⟩ := h
    exact effect_tail h
  | probe env payload => exact effect_probe h
  | manifest env payload =>
    rcases applyReconciliationManifest_ok h with ⟨hquiet, -⟩ | ⟨job, hjob, hcertified⟩
    · exact .quiet hquiet
    · exact .certified hjob hcertified
  | fault code =>
    cases h
    exact .quiet (quiet_deviceFault code)
  | heartbeat env report =>
    cases h
    exact .quiet (quiet_terminalChange report)
  | manage jobId status error assignment creditStart creditEnd =>
    simp only [Call.run, bind_eq_ok, deviceJob_eq_ok, refuse_eq_ok, pure_eq_ok] at h
    obtain ⟨job, ⟨hjob, -⟩, -, hopen, rfl⟩ := h
    exact .quiet (quiet_putJob hjob ⟨rfl, fun hc => absurd hc hopen⟩)
  | capture attendance =>
    simp only [Call.run, bind_eq_ok, refuse_eq_ok, not_not, pure_eq_ok] at h
    obtain ⟨-, hkeeps, rfl⟩ := h
    exact .quiet ⟨.refl _, rfl, rfl, .refl _, .refl _, hkeeps⟩

end Reconciliation
