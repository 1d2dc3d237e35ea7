import AutoAttn.Reconciliation.Coverage

/-!
# Tails and scans on the same ordinals

A scan looks up the rows its epoch holds before it stores a record. A tail stores its records
unconditionally, so it is refused by the unique index when a scan was there before.
-/

namespace Reconciliation

open Checks (foldlM_ok exists_foldlM_ok)

variable {D : Type}

/-! ### Jobs, their rows and their chunks -/

/-- The rows and chunks a job owns lie below its checkpoint, and at most one job is open. -/
structure JobInv (db : Db D) : Prop where
  unique : Unique db.manifests
  owned : ∀ m ∈ db.manifests, ∀ j, m.jobId = some j →
    ∃ job ∈ db.jobs, job.id = j ∧ m.ordinal < job.committedNextOrdinal
  starts : ∀ chunk ∈ db.chunks,
    ∃ job ∈ db.jobs, job.id = chunk.jobId ∧ chunk.startOrdinal < job.committedNextOrdinal
  single : ∀ job ∈ db.jobs, ∀ job' ∈ db.jobs, job.status ∉ terminalJobStates →
    job'.status ∉ terminalJobStates → job = job'

lemma JobInv.blank (serial : Option String) : JobInv (Db.blank serial : Db D) where
  unique m hm := (Table.not_mem_empty m hm).elim
  owned m hm := (Table.not_mem_empty m hm).elim
  starts chunk hchunk := (Table.not_mem_empty chunk hchunk).elim
  single job hjob := (Table.not_mem_empty job hjob).elim

/-- No checkpoint moved back and no closed job was opened. -/
structure Advances (t t' : Table (Job D)) : Prop where
  forward : ∀ job ∈ t, ∃ job' ∈ t', job'.id = job.id ∧
    job.committedNextOrdinal ≤ job'.committedNextOrdinal
  back : ∀ job' ∈ t', ∃ job ∈ t, job'.id = job.id ∧
    (job'.status ∉ terminalJobStates → job.status ∉ terminalJobStates)

lemma SameScans.advances {t t' : Table (Job D)} (h : SameScans t t') : Advances t t' where
  forward job hjob := by
    obtain ⟨job', hjob', hsame⟩ := h.exists_of_mem hjob
    exact ⟨job', hjob', hsame.id, by rw [hsame.same]⟩
  back job' hjob' := by
    obtain ⟨job, hjob, hsame⟩ := h.rows job' hjob'
    exact ⟨job, hjob, hsame.id, fun hopen hclosed => hopen (hsame.closed hclosed)⟩

lemma advances_put {t : Table (Job D)} {job job' : Job D} (hjob : job ∈ t)
    (hid : job'.id = job.id) (hle : job.committedNextOrdinal ≤ job'.committedNextOrdinal)
    (hopen : job.status ∉ terminalJobStates) : Advances t (t.put job') where
  forward x hx := by
    by_cases heq : x.id = job'.id
    · obtain rfl := Table.eq_of_rowId hx hjob (heq.trans hid)
      exact ⟨job', Table.mem_put_self ⟨x, hx, heq⟩, hid, hle⟩
    · exact ⟨x, Table.mem_put_of_ne hx heq, rfl, le_rfl⟩
  back x hx := by
    rcases Table.of_mem_put hx with rfl | ⟨hx, -⟩
    · exact ⟨job, hjob, hid, fun _ => hopen⟩
    · exact ⟨x, hx, rfl, id⟩

variable {db db' : Db D}

lemma JobInv.of_advances (h : JobInv db) (hjobs : Advances db.jobs db'.jobs)
    (hunique : Unique db'.manifests)
    (howned : ∀ m ∈ db'.manifests, ∀ j, m.jobId = some j →
      (∃ x ∈ db.manifests, x.jobId = some j ∧ x.ordinal = m.ordinal) ∨
        ∃ job ∈ db'.jobs, job.id = j ∧ m.ordinal < job.committedNextOrdinal)
    (hchunks : ∀ chunk ∈ db'.chunks, chunk ∈ db.chunks ∨
      ∃ job ∈ db'.jobs, job.id = chunk.jobId ∧ chunk.startOrdinal < job.committedNextOrdinal) :
    JobInv db' where
  unique := hunique
  owned m hm j hj := by
    rcases howned m hm j hj with ⟨x, hx, hxj, hordinal⟩ | hnew
    · obtain ⟨job, hjob, rfl, hlt⟩ := h.owned x hx j hxj
      obtain ⟨job', hjob', hid, hle⟩ := hjobs.forward job hjob
      exact ⟨job', hjob', hid, by omega⟩
    · exact hnew
  starts chunk hchunk := by
    rcases hchunks chunk hchunk with hchunk | hnew
    · obtain ⟨job, hjob, hid, hlt⟩ := h.starts chunk hchunk
      obtain ⟨job', hjob', hid', hle⟩ := hjobs.forward job hjob
      exact ⟨job', hjob', hid'.trans hid, hlt.trans_le hle⟩
    · exact hnew
  single job hjob job' hjob' hopen hopen' := by
    obtain ⟨x, hx, hid, hxopen⟩ := hjobs.back job hjob
    obtain ⟨x', hx', hid', hxopen'⟩ := hjobs.back job' hjob'
    obtain rfl := h.single x hx x' hx' (hxopen hopen) (hxopen' hopen')
    exact Table.eq_of_rowId hjob hjob' (hid.trans hid'.symm)

/-- New rows that no job owns keep the rows of jobs below their checkpoints. -/
lemma JobInv.owned_of_grows {New : Manifest D → Prop}
    (hgrows : Grows New db.manifests db'.manifests) (hnew : ∀ m, New m → m.jobId = none) :
    ∀ m ∈ db'.manifests, ∀ j, m.jobId = some j →
      (∃ x ∈ db.manifests, x.jobId = some j ∧ x.ordinal = m.ordinal) ∨
        ∃ job ∈ db'.jobs, job.id = j ∧ m.ordinal < job.committedNextOrdinal := by
  intro m hm j hj
  rcases hgrows.new m hm with hm | hm
  · exact .inl ⟨m, hm, hj, rfl⟩
  · rw [hnew m hm] at hj
    cases hj

variable [DecidableEq D] {hash : Hash D}

lemma JobInv.step {call : Call D} (h : JobInv db) (hrun : call.run hash db = .ok db') :
    JobInv db' := by
  cases effect_of_run hrun with
  | quiet hquiet =>
    refine h.of_advances hquiet.jobs.advances (hquiet.manifests.unique h.unique)
      (owned_of_grows hquiet.manifests fun m hm => hm.2) fun chunk hchunk => .inl ?_
    rw [← hquiet.chunks]
    exact hchunk
  | @created env generation epochs jobs new closed hrows hnew =>
    have hmem : ∀ x, x ∈ jobs ↔ x ∈ db.jobs ∨ x = new := by
      intro x
      rw [Table.mem_def, hrows, List.mem_append, List.mem_singleton]
      exact Iff.rfl
    refine ⟨h.unique, fun m hm j hj => ?_, fun chunk hchunk => ?_, fun job hjob job' hjob' hopen
      hopen' => ?_⟩
    · obtain ⟨job, hjob, heq⟩ := h.owned m hm j hj
      exact ⟨job, (hmem job).mpr (.inl hjob), heq⟩
    · obtain ⟨job, hjob, heq⟩ := h.starts chunk hchunk
      exact ⟨job, (hmem job).mpr (.inl hjob), heq⟩
    · -- every job before this one is closed
      rcases (hmem job).mp hjob with hjob | rfl
      · exact absurd (closed job hjob) hopen
      · rcases (hmem job').mp hjob' with hjob' | rfl
        · exact absurd (closed job' hjob') hopen'
        · rfl
  | anchored hjob =>
    exact h.of_advances (advances_put hjob.mem rfl le_rfl hjob.isOpen) h.unique
      (fun m hm j hj => .inl ⟨m, hm, hj, rfl⟩) fun chunk hchunk => .inl hchunk
  | @scanned env payload job recordSize _ row _ _ chunks hjob hsize hcontinues hrows howner
      generation hreceipt htables hrescan =>
    have hstart := hcontinues.start
    have hrange := payload.range
    have hbounds := payload.bounds
    obtain ⟨hid, hnext⟩ : (job.advance payload).id = job.id ∧
        (job.advance payload).committedNextOrdinal = payload.endOrdinal := by
      dsimp only [Job.advance]
      split_ifs <;> exact ⟨rfl, rfl⟩
    have hadvanced : job.advance payload ∈ db'.jobs := by
      rw [htables]
      exact Table.mem_put_self ⟨job, hjob.mem, hid.symm⟩
    refine h.of_advances ?_ (hrescan.unique h.unique) (fun m hm j hj => ?_) fun chunk hchunk => ?_
    · rw [htables]
      exact advances_put hjob.mem hid (by omega) hjob.isOpen
    · rcases hrescan.owned m hm j hj with hold | ⟨rfl, hlt⟩
      · exact .inl hold
      · exact .inr ⟨_, hadvanced, hid, hnext ▸ hlt⟩
    · rw [htables, Table.mem_def, hrows, List.mem_append, List.mem_singleton] at hchunk
      rcases hchunk with hchunk | rfl
      · exact .inl hchunk
      · refine .inr ⟨_, hadvanced, hid.trans howner.symm, ?_⟩
        have hreceipt' : chunk.startOrdinal = payload.startOrdinal :=
          congrArg Receipt.startOrdinal hreceipt
        omega
  | extended active continues rows owner generation receipt htables hextension =>
    refine h.of_advances ?_ (hextension.grows.unique h.unique)
      (owned_of_grows hextension.grows fun m hm => hm.1) fun chunk hchunk => .inl ?_
    · rw [htables]
      exact (SameScans.refl _).advances
    · rw [htables] at hchunk
      exact hchunk
  | @recovered env payload job _ divergence found hjob hopen hepoch hrecovered =>
    obtain ⟨_, _, _, htables⟩ := hrecovered.tables
    refine h.of_advances ?_ (hrecovered.grows.unique h.unique)
      (owned_of_grows hrecovered.grows ?_) fun chunk hchunk => .inl ?_
    · rw [htables]
      exact advances_put hjob.mem rfl le_rfl hjob.isOpen
    · rintro m ⟨prior, -, -, heq⟩
      rw [heq]
      rfl
    · rw [htables] at hchunk
      exact hchunk
  | certified hjob hcertified =>
    obtain ⟨_, htables⟩ := hcertified.tables
    refine h.of_advances hcertified.jobs.advances ?_ (fun m hm j hj => .inl ⟨m, ?_, hj, rfl⟩)
      fun chunk hchunk => .inl ?_
    · rw [htables]
      exact h.unique
    · rw [htables] at hm
      exact hm
    · rw [htables] at hchunk
      exact hchunk

lemma JobInv.of_run {Meets : Db D → Call D → Prop} (h : Run hash Meets db) : JobInv db :=
  h.induction .blank fun h _ hrun => h.step hrun

/-! ### A tail meets the unique index -/

section Tail

variable {env : Env D} {coverage : Coverage D} {payload : TailRequest D}
  {bound : BoundAttendance D}

/-- The tail passes every check up to the call of ingestion. -/
structure TailPasses (env : Env D) (hash : Hash D) (db : Db D) (coverage : Coverage D)
    (payload : TailRequest D) (bound : BoundAttendance D) : Prop where
  active : db.activeCoverage = some coverage
  epoch : requireSourceEpoch env db coverage.sourceEpochId coverage.terminalGeneration
    payload.sourceEpoch = .ok ()
  serial : payload.terminalSerial = coverage.terminalSerial
  generation : payload.terminalGeneration = coverage.terminalGeneration
  custody : requireRawCustody env payload.records = .ok ()
  evidence : tailFault hash db coverage payload = none
  binds : boundSourceAttendance env db coverage.terminalSerial payload.records false = .ok bound
  owned : bound.retainedElsewhere = []

/-- The records of a tail are stored exactly when the ledger has none of their ordinals. -/
lemma storeTailRecords_iff {before ingested : Db D} {events : List (AttendanceEventIn D)}
    {seenKeys : List D} {n : Nat} :
    (∃ st, payload.records.foldlM (storeTailRecord before coverage payload events)
        ⟨ingested, seenKeys, n⟩ = .ok st) ↔
      ∀ source ∈ payload.records, ¬ Covered ingested.manifests payload.terminalGeneration
        coverage.sourceEpochId source.ordinal := by
  constructor
  · rintro ⟨st, h⟩
    -- rows are only added, so an ordinal that is free when its turn comes was free before
    refine (foldlM_ok (P := fun done st =>
      Grows (fun _ => True) ingested.manifests st.db.manifests ∧
        ∀ source ∈ done, ¬ Covered ingested.manifests payload.terminalGeneration
          coverage.sourceEpochId source.ordinal) h ⟨.refl _, by simp⟩ ?_).2
    rintro done source st st' - ⟨hgrows, hfree⟩ hstore
    simp only [storeTailRecord, bind_eq_ok, pure_eq_ok] at hstore
    obtain ⟨stored, hadd, rfl⟩ := hstore
    refine ⟨hgrows.trans ((grows_of_addManifest hadd).mono fun _ _ => trivial), fun x hx => ?_⟩
    rcases List.mem_append.mp hx with hx | hx
    · exact hfree x hx
    · rw [List.mem_singleton.mp hx]
      intro hcovered
      exact (addManifest_eq_ok.mp hadd).1.2 ⟨rfl, hgrows.covered hcovered⟩
  · intro hfree
    have hnodup : (payload.records.map (·.ordinal)).Nodup :=
      payload.contiguous ▸ List.nodup_range'
    refine exists_foldlM_ok (P := fun rest st => (rest.map (·.ordinal)).Nodup ∧
      ∀ source ∈ rest, ¬ Covered st.db.manifests payload.terminalGeneration
        coverage.sourceEpochId source.ordinal) ?_ ⟨hnodup, hfree⟩
    rintro source rest st ⟨hnodup, hfree⟩
    rw [List.map_cons, List.nodup_cons] at hnodup
    have hadd : ∀ event held disposition, ∃ stored, st.db.addManifest
        (tailManifest coverage payload source event held disposition) = .ok stored :=
      fun event held disposition => addManifest_free (fun _ _ j hj => by simp [tailManifest] at hj)
        fun _ hcovered => hfree source List.mem_cons_self hcovered
    let held := decide (source.ordinal ∈ (tailHeldUids before payload).map Prod.fst)
    let event := if held then none else storedEvent st.db.attendance events source
    obtain ⟨stored, hstored⟩ := hadd event held (storedDisposition source event held st.seenKeys)
    obtain ⟨st', hst', rfl⟩ : ∃ st', storeTailRecord before coverage payload events st source =
        .ok st' ∧ st'.db = stored := by
      simp only [storeTailRecord, bind_eq_ok, pure_eq_ok]
      exact ⟨_, ⟨stored, hstored, rfl⟩, rfl⟩
    refine ⟨st', hst', hnodup.2, ?_⟩
    rintro x hx ⟨m, hm, hc⟩
    rcases (grows_of_addManifest hstored).new m hm with hm | rfl
    · exact hfree x (List.mem_cons_of_mem _ hx) ⟨m, hm, hc⟩
    · have hordinal : source.ordinal = x.ordinal := hc.2.2.2
      rw [hordinal] at hnodup
      exact hnodup.1 (List.mem_map_of_mem hx)

omit [DecidableEq D] in
/-- No tail of a coverage starts at its committed cursor. -/
lemma CoverageInv.no_tail_at_cursor (h : CoverageInv db) (hc : coverage ∈ db.coverages)
    {tail : TailChunk D} (htail : tail ∈ db.tailChunks) (howner : tail.coverageId = coverage.id) :
    tail.startOrdinal ≠ coverage.sourceCommittedCursor := by
  have hmem : tail.receipt.link ∈ coverageTails db coverage := by
    refine List.mem_map_of_mem (f := fun tail : TailChunk D => tail.receipt.link) ?_
    exact List.mem_filter.mpr ⟨htail, by simpa using howner⟩
  have hbounds := (h.chained coverage hc).bounds hmem
  simp only [Receipt.link, TailChunk.receipt] at hbounds
  omega

/-- A tail that passes its checks goes on to be committed. -/
lemma applySourceTailChunk_eq (hcoverage : CoverageInv db)
    (h : TailPasses env hash db coverage payload bound) :
    applySourceTailChunk env hash db payload = commitTail env db coverage payload bound := by
  obtain ⟨hmem, -⟩ := Reconciliation.activeCoverage_eq_some h.active
  have hstart := (tailFault_eq_none h.generation h.evidence).start
  have hstale : staleGenerationTail db coverage payload = false := by
    simp [staleGenerationTail, h.generation]
  have hnone : (db.tailChunks.rows.find? fun x => x.coverageId == coverage.id &&
      x.generation == payload.terminalGeneration && x.startOrdinal == payload.startOrdinal) =
      none := by
    rw [List.find?_eq_none]
    intro tail htail hfound
    simp only [Bool.and_eq_true, beq_iff_eq] at hfound
    exact hcoverage.no_tail_at_cursor hmem htail hfound.1.1 (hfound.2.trans hstart)
  have hidentity : ¬ (payload.terminalSerial ≠ coverage.terminalSerial ∨
      payload.terminalGeneration ≠ coverage.terminalGeneration) := by
    simp [h.serial, h.generation]
  unfold applySourceTailChunk
  simp only [h.active, hstale, h.epoch, hnone, newTail, h.custody, h.evidence, h.binds]
  simp [bind, Except.bind, h.owned, h.serial, h.generation]

/-- A tail that passes its checks is committed exactly when the ledger has no canonical row at its
ordinals. -/
lemma tail_commits_iff (hcoverage : CoverageInv db) (hunique : Unique db.manifests)
    (h : TailPasses env hash db coverage payload bound) :
    (∃ answer, applySourceTailChunk env hash db payload = .ok answer ∧
        Unique answer.db.manifests ∧ ∀ source ∈ payload.records,
          Covered answer.db.manifests coverage.terminalGeneration coverage.sourceEpochId
            source.ordinal) ↔
      ∀ source ∈ payload.records, ¬ Covered db.manifests coverage.terminalGeneration
        coverage.sourceEpochId source.ordinal := by
  rw [applySourceTailChunk_eq hcoverage h]
  obtain ⟨⟨bindings, hbindings⟩, -⟩ := boundSourceAttendance_ok h.binds
  obtain ⟨attendance, hattendance⟩ :=
    ingestAttendance_eq env bound.db (tailAttendance db payload bound)
  have hmanifests :
      (ingestAttendance env bound.db (tailAttendance db payload bound)).manifests =
        db.manifests := by
    rw [hattendance, hbindings]
  have htails : (ingestAttendance env bound.db (tailAttendance db payload bound)).tailChunks =
      db.tailChunks := by
    rw [hattendance, hbindings]
  rw [← hmanifests, ← h.generation]
  constructor
  · rintro ⟨answer, hcommit, -⟩
    simp only [commitTail, bind_eq_ok] at hcommit
    obtain ⟨st, hst, -⟩ := hcommit
    exact storeTailRecords_iff.mp ⟨st, hst⟩
  · intro hfree
    obtain ⟨st, hst⟩ := storeTailRecords_iff.mpr hfree
    have hstTails : st.db.tailChunks = db.tailChunks := by
      have hdb := foldlM_ok (P := fun _ st => st.db.tailChunks = db.tailChunks) hst htails ?_
      · exact hdb
      · rintro done source st st' - htails hstore
        simp only [storeTailRecord, bind_eq_ok, pure_eq_ok] at hstore
        obtain ⟨stored, hadd, rfl⟩ := hstore
        obtain ⟨-, heq⟩ := addManifest_eq_ok.mp hadd
        rw [heq]
        exact htails
    have hadd : ∃ stored, addTailChunk st.db coverage payload st.rawPreserved = .ok stored := by
      simp only [addTailChunk, bind_eq_ok, refuse_eq_ok, pure_eq_ok]
      refine ⟨_, (), ?_, rfl⟩
      rintro ⟨tail, htail, howner, -, hstart⟩
      rw [hstTails] at htail
      exact hcoverage.no_tail_at_cursor (Reconciliation.activeCoverage_eq_some h.active).1 htail
        howner (hstart.trans (tailFault_eq_none h.generation h.evidence).start)
    obtain ⟨stored, hadd⟩ := hadd
    have hcommit : ∃ answer, commitTail env db coverage payload bound = .ok answer := by
      simp only [commitTail, bind_eq_ok, pure_eq_ok]
      exact ⟨_, st, hst, stored, hadd, rfl⟩
    obtain ⟨answer, hcommit⟩ := hcommit
    obtain ⟨-, hextension⟩ := commitTail_ok h.binds hcommit
    exact ⟨answer, hcommit, hextension.grows.unique hunique, hextension.stored⟩

end Tail

/-! ### A chunk over committed ordinals -/

section Chunk

variable {env : Env D} {job : Job D} {cutoffCount recordSize : Nat} {payload : ChunkRequest D}
  {bound : BoundAttendance D}

/-- The chunk passes every check up to the call of ingestion, and its records equal the canonical
rows the job's epoch holds at their ordinals. -/
structure ChunkPasses (env : Env D) (hash : Hash D) (db : Db D) (job : Job D)
    (cutoffCount recordSize : Nat) (payload : ChunkRequest D) (bound : BoundAttendance D) :
    Prop where
  mem : job ∈ db.jobs
  id : job.id = payload.jobId
  cutoff : job.cutoffCount = some cutoffCount
  size : job.recordSize = some recordSize
  epoch : requireSourceEpoch env db job.sourceEpochId job.terminalGeneration
    payload.sourceEpoch = .ok ()
  checks : checkChunk env hash job cutoffCount recordSize payload = .ok ()
  sequence : ∀ chunk ∈ db.chunks, chunk.jobId = job.id →
    chunk.generation = payload.generation → chunk.sequence ≠ payload.sequence
  lineage : chunkLineage db job recordSize payload = .agrees
  same : ∀ source ∈ payload.records, ∀ m ∈ db.manifests,
    m.Canonical job.terminalGeneration job.sourceEpochId source.ordinal → sameSourceRead m source
  binds : boundSourceAttendance env db job.terminalSerial (chunkIngestible db job payload) true =
    .ok bound

lemma reading_compared {records : List (SourceRecord D)} {source : SourceRecord D}
    {prior : Manifest D} (h : (reading db job records source).compared = some prior) :
    (reading db job records source).kept = some prior := by
  cases hr : reading db job records source <;> rw [hr] at h <;> cases h <;> rfl

/-- Reads that equal the rows they are compared with agree with the ledger. -/
lemma ordinaryComparison_of_same {records rest : List (SourceRecord D)}
    (h : ∀ source ∈ rest, ∀ m ∈ db.manifests,
      m.Canonical job.terminalGeneration job.sourceEpochId source.ordinal →
        sameSourceRead m source) :
    ordinaryComparison db job records rest = .agrees := by
  induction rest with
  | nil => rfl
  | cons source rest ih =>
    have hrest := ih fun x hx => h x (List.mem_cons_of_mem _ hx)
    rw [ordinaryComparison]
    split
    · exact hrest
    next prior hprior =>
      obtain ⟨hmem, hc⟩ := sourceRow_eq_some (reading_kept (reading_compared hprior))
      obtain ⟨hdigest, hkey, hindex⟩ := h source List.mem_cons_self prior hmem hc
      rw [if_neg (not_not.mpr hdigest), if_neg (by simp [hkey, hindex])]
      exact hrest

omit [DecidableEq D] in
/-- The job that is scanned is the only open one. -/
lemma JobInv.openJobBlock_eq_false (h : JobInv db) (hjob : job ∈ db.jobs)
    (hopen : job.status ∉ terminalJobStates) (priors : List (Manifest D)) :
    openJobBlock db job priors = false := by
  unfold openJobBlock
  split
  · rw [otherOpenCertifiedJob, List.any_eq_false]
    intro other hother hblock
    simp only [Bool.and_eq_true, bne_iff_ne, ne_eq, decide_eq_true_eq] at hblock
    obtain ⟨⟨⟨⟨-, hne⟩, -⟩, hopen'⟩, -⟩ := hblock
    exact hne (congrArg Job.id (h.single other hother job hjob hopen' hopen))
  · rfl

/-- What storing the records still to come needs of the tables: their ordinals are free where a
row is to be stored, and the job owns no row at them. -/
def Storable (before : Db D) (job : Job D) (payload : ChunkRequest D)
    (rest : List (SourceRecord D)) (st : Storing D) : Prop :=
  (rest.map (·.ordinal)).Nodup ∧ ∀ source ∈ rest,
    ((reading before job payload.records source).kept = none →
      ¬ Covered st.db.manifests payload.generation job.sourceEpochId source.ordinal) ∧
    ∀ m ∈ st.db.manifests, m.jobId = some job.id → m.ordinal ≠ source.ordinal

/-- A row at another ordinal leaves the records still to come storable. -/
lemma Storable.of_add {before : Db D} {source : SourceRecord D} {rest : List (SourceRecord D)}
    {st st' : Storing D} (h : Storable before job payload (source :: rest) st)
    {mk : Nat → Manifest D} {hid : ∀ i, Row.rowId (mk i) = i}
    (hordinal : (mk st.db.manifests.rows.length).ordinal = source.ordinal)
    (hadd : st.db.addManifest mk hid = .ok st'.db) : Storable before job payload rest st' := by
  obtain ⟨hnodup, hfree⟩ := h
  rw [List.map_cons, List.nodup_cons] at hnodup
  have hother : ∀ x ∈ rest, source.ordinal ≠ x.ordinal := fun x hx heq =>
    hnodup.1 (heq ▸ List.mem_map_of_mem (f := fun r : SourceRecord D => r.ordinal) hx)
  refine ⟨hnodup.2, fun x hx => ⟨fun hkept => ?_, fun m hm hj => ?_⟩⟩
  · rintro ⟨m, hm, hc⟩
    rcases (grows_of_addManifest hadd).new m hm with hm | rfl
    · exact (hfree x (List.mem_cons_of_mem _ hx)).1 hkept ⟨m, hm, hc⟩
    · exact hother x hx (hordinal.symm.trans hc.2.2.2)
  · rcases (grows_of_addManifest hadd).new m hm with hm | rfl
    · exact (hfree x (List.mem_cons_of_mem _ hx)).2 m hm hj
    · rw [hordinal]
      exact hother x hx

/-- Storable records are stored. -/
lemma exists_storeRecords {before : Db D} (recordSize : Nat)
    (events : List (AttendanceEventIn D)) {st : Storing D}
    (h : Storable before job payload payload.records st) :
    ∃ st', payload.records.foldlM (storeRecord before job recordSize payload events) st =
      .ok st' := by
  refine exists_foldlM_ok (P := Storable before job payload) ?_ h
  intro source rest st h
  obtain ⟨hfree, howned⟩ := h.2 source List.mem_cons_self
  have hjob : ∀ mk : Nat → Manifest D, (∀ i, (mk i).jobId = some job.id) →
      (∀ i, (mk i).ordinal = source.ordinal) → ∀ x ∈ st.db.manifests, ∀ j,
      (mk st.db.manifests.rows.length).jobId = some j → x.jobId = some j →
      x.ordinal ≠ (mk st.db.manifests.rows.length).ordinal := by
    intro mk hmk hordinal x hx j hj hxj
    rw [hordinal]
    exact howned x hx (hxj.trans (hj.symm.trans (hmk _)))
  rcases hkept : (reading before job payload.records source).kept with _ | prior
  · let held := chunkHolds before job payload source
    let event := if held then none else storedEvent st.db.attendance events source
    obtain ⟨stored, hstored⟩ : ∃ stored, st.db.addManifest
        (baselineManifest job recordSize payload source event held
          (storedDisposition source event held st.seenKeys)) = .ok stored :=
      addManifest_free (h := fun _ => rfl) (hjob _ (fun _ => rfl) fun _ => rfl) fun _ => hfree hkept
    obtain ⟨st', hst', rfl⟩ : ∃ st', storeRecord before job recordSize payload events st source =
        .ok st' ∧ st'.db = stored := by
      simp only [storeRecord, hkept, bind_eq_ok, pure_eq_ok]
      exact ⟨_, ⟨stored, hstored, rfl⟩, rfl⟩
    exact ⟨st', hst', h.of_add rfl hstored⟩
  · cases hreceipted : (reading before job payload.records source).receipted with
    | true =>
      obtain ⟨stored, hstored⟩ :
          ∃ stored, st.db.addManifest (rereadReceipt job recordSize source) = .ok stored :=
        addManifest_free (h := fun _ => rfl) (hjob _ (fun _ => rfl) fun _ => rfl)
          fun hc => by cases hc
      obtain ⟨st', hst', rfl⟩ : ∃ st', storeRecord before job recordSize payload events st source =
          .ok st' ∧ st'.db = stored := by
        simp only [storeRecord, hkept, hreceipted, if_true, bind_eq_ok, pure_eq_ok]
        exact ⟨_, ⟨stored, hstored, rfl⟩, rfl⟩
      exact ⟨st', hst', h.of_add rfl hstored⟩
    | false =>
      obtain ⟨st', hst', heq⟩ : ∃ st', storeRecord before job recordSize payload events st source =
          .ok st' ∧ st'.db = st.db := by
        simp only [storeRecord, hkept, hreceipted, Bool.false_eq_true, if_false, pure_eq_ok]
        exact ⟨_, rfl, rfl⟩
      refine ⟨st', hst', ?_⟩
      obtain ⟨hnodup, hrest⟩ := h
      rw [List.map_cons, List.nodup_cons] at hnodup
      refine ⟨hnodup.2, fun x hx => ?_⟩
      rw [heq]
      exact hrest x (List.mem_cons_of_mem _ hx)

/-- After the settled rows were retired, the records of a chunk are storable. -/
lemma JobInv.storable (h : JobInv db) (hjob : job ∈ db.jobs)
    (hcontinues : Continues hash job payload) {t : Table (Manifest D)}
    (hrows : ∀ m ∈ t, m ∈ db.manifests ∨
      ∃ prior ∈ chunkSettled db job payload, m = { prior with canonicalSource := false })
    (hretired : ∀ m ∈ t, (∃ prior ∈ chunkSettled db job payload, m.id = prior.id) →
      m.canonicalSource = false) {st : Storing D} (hst : st.db.manifests = t) :
    Storable db job payload payload.records st := by
  refine ⟨payload.contiguous ▸ List.nodup_range', fun source hs => ⟨fun hkept => ?_, ?_⟩⟩
  · rw [hst, hcontinues.generation]
    rintro ⟨m, hm, hc⟩
    have hold : m ∈ db.manifests := by
      rcases hrows m hm with hm | ⟨prior, -, rfl⟩
      · exact hm
      · cases hc.1
    -- the slot had a row: it was settled, so it is the one that was retired
    cases hrow : db.sourceRow job.terminalGeneration job.sourceEpochId source.ordinal with
    | none => exact sourceRow_eq_none.mp hrow ⟨m, hold, hc⟩
    | some prior =>
      obtain ⟨hprior, hpc⟩ := sourceRow_eq_some hrow
      obtain rfl := h.unique m hold prior hprior _ _ _ hc hpc
      have hsettled : reading db job payload.records source = .settled m := by
        unfold reading at hkept ⊢
        simp only [hrow] at hkept ⊢
        split_ifs at hkept ⊢ <;> first | rfl | cases hkept
      have hfalse := hretired m hm ⟨m, mem_chunkSettled.mpr ⟨source, hs, hsettled⟩, rfl⟩
      rw [hc.1] at hfalse
      cases hfalse
  · intro m hm hj
    have hbelow : m.ordinal < job.committedNextOrdinal := by
      have hx : ∃ x ∈ db.manifests, x.jobId = some job.id ∧ x.ordinal = m.ordinal := by
        rcases hrows m (hst ▸ hm) with hm | ⟨prior, hprior, rfl⟩
        · exact ⟨m, hm, hj, rfl⟩
        · obtain ⟨source, -, hr⟩ := mem_chunkSettled.mp hprior
          exact ⟨prior, (sourceRow_eq_some (reading_settled hr)).1, hj, rfl⟩
      obtain ⟨x, hx, hxj, hordinal⟩ := hx
      obtain ⟨owner, howner, hid, hlt⟩ := h.owned x hx _ hxj
      rw [Table.eq_of_rowId howner hjob hid] at hlt
      omega
    have hge := (ordinal_bounds payload.contiguous hs).1
    have hstart := hcontinues.start
    omega

/-- A chunk over ordinals whose rows equal its records is committed, and each of its ordinals then
has one canonical row. -/
lemma chunk_commits (h : JobInv db)
    (hpasses : ChunkPasses env hash db job cutoffCount recordSize payload bound) :
    ∃ answer, applyReconciliationChunk env hash db payload = .ok answer ∧
      answer.chunk.isSome = true ∧ answer.duplicate = false ∧ Unique answer.db.manifests ∧
      ∀ source ∈ payload.records, Covered answer.db.manifests job.terminalGeneration
        job.sourceEpochId source.ordinal := by
  obtain ⟨hcontinues, hopen⟩ := checkChunk_ok hpasses.checks
  have hplan : planChunk env db job recordSize payload = .ok (.commit bound) :=
    planChunk_eq_commit.mpr ⟨hpasses.lineage, ordinaryComparison_of_same hpasses.same,
      h.openJobBlock_eq_false hpasses.mem hopen _, hpasses.binds⟩
  obtain ⟨⟨bindings, hbindings⟩, -⟩ := boundSourceAttendance_ok hpasses.binds
  obtain ⟨attendance, hattendance⟩ := ingestAttendance_eq env bound.db bound.events
  have hingested : ingestAttendance env bound.db bound.events = { db with attendance } := by
    rw [hattendance, hbindings]
  obtain ⟨t, hretired, hrows, -, hout⟩ :=
    retire_all (chunkSettled db job payload) { db with attendance }
  have hfree : ∀ chunk ∈ db.chunks, chunk.jobId = job.id →
      chunk.startOrdinal ≠ payload.startOrdinal := by
    intro chunk hchunk howner
    obtain ⟨x, hx, hid, hlt⟩ := h.starts chunk hchunk
    rw [Table.eq_of_rowId hx hpasses.mem (hid.trans howner)] at hlt
    have hstart := hcontinues.start
    omega
  obtain ⟨answer, hcommit, hchunk, hduplicate⟩ : ∃ answer,
      commitChunk env db job recordSize payload bound = .ok answer ∧
      answer.chunk.isSome = true ∧ answer.duplicate = false := by
    have hstorable : Storable db job payload payload.records
        ⟨{ db with attendance, manifests := t }, seenTerminalKeys { db with attendance }
          payload.generation job.sourceEpochId payload.startOrdinal, 0⟩ :=
      h.storable hpasses.mem hcontinues hrows hout rfl
    obtain ⟨st, hst⟩ := exists_storeRecords recordSize bound.events hstorable
    have hchunks : st.db.chunks = db.chunks := by
      refine foldlM_ok (P := fun _ st => st.db.chunks = db.chunks) hst rfl ?_
      rintro done source st st' - hchunks hstore
      rcases storeRecord_ok hstore with ⟨-, hadd⟩ | ⟨-, hsame | hadd⟩
      · rw [(addManifest_eq_ok.mp hadd).2]
        exact hchunks
      · rw [hsame]
        exact hchunks
      · rw [(addManifest_eq_ok.mp hadd).2]
        exact hchunks
    have hadd : ∃ stored, addChunk st.db job payload st.rawPreserved = .ok stored := by
      simp only [addChunk, bind_eq_ok, refuse_eq_ok, pure_eq_ok]
      refine ⟨_, (), ?_, (), ?_, rfl⟩
      · rintro ⟨chunk, hchunk, howner, hgeneration, hsequence⟩
        exact hpasses.sequence chunk (hchunks ▸ hchunk) howner hgeneration hsequence
      · rintro ⟨chunk, hchunk, howner, -, hstart⟩
        exact hfree chunk (hchunks ▸ hchunk) howner hstart
    obtain ⟨stored, hadd⟩ := hadd
    simp only [commitChunk, bind_eq_ok, pure_eq_ok, hingested, hretired]
    exact ⟨_, ⟨st, hst, stored, hadd, rfl⟩, rfl, rfl⟩
  have happly : applyReconciliationChunk env hash db payload = .ok answer := by
    have hnone : (db.chunks.rows.find? fun x => x.jobId == job.id &&
        x.generation == payload.generation && x.startOrdinal == payload.startOrdinal) = none := by
      rw [List.find?_eq_none]
      intro chunk hchunk hfound
      simp only [Bool.and_eq_true, beq_iff_eq] at hfound
      exact hfree chunk hchunk hfound.1.1 hfound.2
    rw [applyReconciliationChunk, bind_eq_ok]
    refine ⟨job, deviceJob_eq_ok.mpr ⟨hpasses.mem, hpasses.id⟩, ?_⟩
    simp only [bind_eq_ok, refuse_eq_ok, hpasses.cutoff, hpasses.size, hnone]
    exact ⟨(), not_not.mpr hcontinues.generation, (), hpasses.epoch, (), hpasses.checks, _, hplan,
      hcommit⟩
  obtain ⟨-, hrescan⟩ := commitChunk_ok hpasses.binds hcontinues.generation hcommit
  exact ⟨answer, happly, hchunk, hduplicate, hrescan.unique h.unique, hrescan.scanned⟩

end Chunk

/-- A job of one record is certified and closed, and a tail commits ordinal 1. A second job of
three records has scanned ordinal 0. -/
def tailThenScanCalls : List (Call (List Nat)) :=
  let first := plainPunch 16 0 1
  let chunk := plainChunk 0 0 none first []
  [.create plainEnv 1, .anchor plainEnv (plainAnchor 0 1 first 16 layout_sixteen),
    .chunk plainEnv chunk, .manifest plainEnv (plainManifest 0 1 chunk.resultingChainDigest),
    .tail plainEnv (plainTail chunk.resultingChainDigest (plainPunch 16 1 2) 16 layout_sixteen),
    .manage 0 .completed none none none none,
    .create plainEnv 1, .anchor plainEnv (plainAnchor 1 3 first 16 layout_sixteen),
    .chunk plainEnv (plainChunk 1 0 none first [])]

/-- The next tail, and the job's chunk over the ordinal the first tail committed. -/
def nextTail : TailRequest (List Nat) :=
  let tail := plainTail (plainChunk 0 0 none (plainPunch 16 0 1) []).resultingChainDigest
    (plainPunch 16 1 2) 16 layout_sixteen
  plainTail tail.resultingChainDigest (plainPunch 16 2 3) 16 layout_sixteen

def nextChunk : ChunkRequest (List Nat) :=
  plainChunk 1 1 (plainChunk 1 0 none (plainPunch 16 0 1) []).resultingChainDigest
    (plainPunch 16 1 2) []

omit [DecidableEq D] in
lemma eq_ok_of_isOk {x : Except Refusal Unit} (h : x.isOk = true) : x = .ok () := by
  cases x with
  | error r => cases h
  | ok u => rfl

/-- The checks of a tail, evaluated. -/
def tailPasses (env : Env (List Nat)) (hash : Hash (List Nat)) (db : Db (List Nat))
    (coverage : Coverage (List Nat)) (payload : TailRequest (List Nat)) : Bool :=
  (requireSourceEpoch env db coverage.sourceEpochId coverage.terminalGeneration
      payload.sourceEpoch).isOk &&
    payload.terminalSerial == coverage.terminalSerial &&
    payload.terminalGeneration == coverage.terminalGeneration &&
    (requireRawCustody env payload.records).isOk &&
    (tailFault hash db coverage payload).isNone &&
    match boundSourceAttendance env db coverage.terminalSerial payload.records false with
    | .ok bound => bound.retainedElsewhere.isEmpty
    | .error _  => false

lemma exists_tailPasses {env : Env (List Nat)} {hash : Hash (List Nat)} {db : Db (List Nat)}
    {coverage : Coverage (List Nat)} {payload : TailRequest (List Nat)}
    (hactive : db.activeCoverage = some coverage)
    (h : tailPasses env hash db coverage payload = true) :
    ∃ bound, TailPasses env hash db coverage payload bound := by
  simp only [tailPasses, Bool.and_eq_true, beq_iff_eq, Option.isNone_iff_eq_none] at h
  obtain ⟨⟨⟨⟨⟨hepoch, hserial⟩, hgeneration⟩, hcustody⟩, hevidence⟩, hbound⟩ := h
  split at hbound
  next bound hbinds =>
    exact ⟨bound, hactive, eq_ok_of_isOk hepoch, hserial, hgeneration, eq_ok_of_isOk hcustody,
      hevidence, hbinds, List.isEmpty_iff.mp hbound⟩
  next => cases hbound

/-- The checks of a chunk, evaluated. -/
def chunkPasses (env : Env (List Nat)) (hash : Hash (List Nat)) (db : Db (List Nat))
    (job : Job (List Nat)) (cutoffCount recordSize : Nat) (payload : ChunkRequest (List Nat)) :
    Bool :=
  job.id == payload.jobId && job.cutoffCount == some cutoffCount &&
    job.recordSize == some recordSize &&
    (requireSourceEpoch env db job.sourceEpochId job.terminalGeneration payload.sourceEpoch).isOk &&
    (checkChunk env hash job cutoffCount recordSize payload).isOk &&
    db.chunks.rows.all (fun x => decide (x.jobId = job.id → x.generation = payload.generation →
      x.sequence ≠ payload.sequence)) &&
    (match chunkLineage db job recordSize payload with
      | .agrees => true
      | _       => false) &&
    payload.records.all (fun source => db.manifests.rows.all fun m => decide
      (m.Canonical job.terminalGeneration job.sourceEpochId source.ordinal →
        sameSourceRead m source)) &&
    (boundSourceAttendance env db job.terminalSerial (chunkIngestible db job payload) true).isOk

lemma exists_chunkPasses {env : Env (List Nat)} {hash : Hash (List Nat)} {db : Db (List Nat)}
    {job : Job (List Nat)} {cutoffCount recordSize : Nat} {payload : ChunkRequest (List Nat)}
    (hjob : job ∈ db.jobs)
    (h : chunkPasses env hash db job cutoffCount recordSize payload = true) :
    ∃ bound, ChunkPasses env hash db job cutoffCount recordSize payload bound := by
  simp only [chunkPasses, Bool.and_eq_true, beq_iff_eq, List.all_eq_true, decide_eq_true_eq] at h
  obtain ⟨⟨⟨⟨⟨⟨⟨⟨hid, hcutoff⟩, hsize⟩, hepoch⟩, hchecks⟩, hsequence⟩, hlineage⟩, hsame⟩, hbound⟩ := h
  cases hbinds : boundSourceAttendance env db job.terminalSerial
      (chunkIngestible db job payload) true with
  | error r =>
    rw [hbinds] at hbound
    cases hbound
  | ok bound =>
    refine ⟨bound, hjob, hid, hcutoff, hsize, eq_ok_of_isOk hepoch, eq_ok_of_isOk hchecks,
      hsequence, ?_, hsame, hbinds⟩
    split at hlineage
    · assumption
    · cases hlineage

/-- The second job reads ordinal 1 before any tail does. -/
def scanBeforeTailCalls : List (Call (List Nat)) :=
  let first := plainPunch 16 0 1
  let chunk := plainChunk 0 0 none first []
  let again := plainChunk 1 0 none first []
  [.create plainEnv 1, .anchor plainEnv (plainAnchor 0 1 first 16 layout_sixteen),
    .chunk plainEnv chunk, .manifest plainEnv (plainManifest 0 1 chunk.resultingChainDigest),
    .manage 0 .completed none none none none,
    .create plainEnv 1, .anchor plainEnv (plainAnchor 1 2 first 16 layout_sixteen),
    .chunk plainEnv again,
    .chunk plainEnv (plainChunk 1 1 again.resultingChainDigest (plainPunch 16 1 2) [])]

/-- The tail with the bytes the scan stored. -/
def lateTail : TailRequest (List Nat) :=
  plainTail (plainChunk 0 0 none (plainPunch 16 0 1) []).resultingChainDigest (plainPunch 16 1 2) 16
    layout_sixteen

end Reconciliation
