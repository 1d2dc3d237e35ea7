import AutoAttn.Reconciliation.Collision

/-!
# Replays

A chunk or a tail whose acknowledgement was lost is sent again, at any later time. It finds the
row it committed and changes nothing. A payload that starts where a committed one starts, but has
another content, holds its job, takes its coverage out of service or leaves receipts.
-/

namespace Reconciliation

variable {D : Type} [DecidableEq D] {hash : Hash D}

/-! ### Later tables -/

/-- The tables `db'` are reached from `db` by calls. -/
def Later (hash : Hash D) (db db' : Db D) : Prop :=
  Relation.ReflTransGen (fun x y => ∃ call : Call D, call.run hash x = .ok y) db db'

/-- What no call takes back: the rows of chunks and tails, the anchor of a job and the identity of
a coverage. -/
structure Keeping (db db' : Db D) : Prop where
  chunks : db.chunks.rows <+: db'.chunks.rows
  tailChunks : db.tailChunks.rows <+: db'.tailChunks.rows
  anchored : ∀ job ∈ db.jobs, ∀ job' ∈ db'.jobs, job'.id = job.id →
    (job.cutoffCount.isSome = true → job'.cutoffCount.isSome = true) ∧
    (job.recordSize.isSome = true → job'.recordSize.isSome = true)
  jobs : ∀ job ∈ db.jobs, ∃ job' ∈ db'.jobs, job'.id = job.id
  coverages : ∀ c ∈ db.coverages, ∀ c' ∈ db'.coverages, c'.id = c.id →
    c'.terminalSerial = c.terminalSerial ∧ c'.terminalGeneration = c.terminalGeneration
  covered : ∀ c ∈ db.coverages, ∃ c' ∈ db'.coverages, c'.id = c.id

omit [DecidableEq D] in
lemma Keeping.refl (db : Db D) : Keeping db db where
  chunks := List.prefix_refl _
  tailChunks := List.prefix_refl _
  anchored job hjob job' hjob' hid := by
    rw [Table.eq_of_rowId hjob' hjob hid]
    exact ⟨id, id⟩
  jobs job hjob := ⟨job, hjob, rfl⟩
  coverages c hc c' hc' hid := by
    rw [Table.eq_of_rowId hc' hc hid]
    exact ⟨rfl, rfl⟩
  covered c hc := ⟨c, hc, rfl⟩

omit [DecidableEq D] in
lemma Keeping.trans {db db' db'' : Db D} (h : Keeping db db') (h' : Keeping db' db'') :
    Keeping db db'' where
  chunks := h.chunks.trans h'.chunks
  tailChunks := h.tailChunks.trans h'.tailChunks
  anchored job hjob job'' hjob'' hid := by
    obtain ⟨job', hjob', hid'⟩ := h.jobs job hjob
    have h₁ := h.anchored job hjob job' hjob' hid'
    have h₂ := h'.anchored job' hjob' job'' hjob'' (hid.trans hid'.symm)
    exact ⟨fun hcutoff => h₂.1 (h₁.1 hcutoff), fun hsize => h₂.2 (h₁.2 hsize)⟩
  jobs job hjob := by
    obtain ⟨job', hjob', hid'⟩ := h.jobs job hjob
    obtain ⟨job'', hjob'', hid''⟩ := h'.jobs job' hjob'
    exact ⟨job'', hjob'', hid''.trans hid'⟩
  coverages c hc c'' hc'' hid := by
    obtain ⟨c', hc', hid'⟩ := h.covered c hc
    have h₁ := h.coverages c hc c' hc' hid'
    have h₂ := h'.coverages c' hc' c'' hc'' (hid.trans hid'.symm)
    exact ⟨h₂.1.trans h₁.1, h₂.2.trans h₁.2⟩
  covered c hc := by
    obtain ⟨c', hc', hid'⟩ := h.covered c hc
    obtain ⟨c'', hc'', hid''⟩ := h'.covered c' hc'
    exact ⟨c'', hc'', hid''.trans hid'⟩

section Tables

omit [DecidableEq D]

/-- Tables that only grow keep their numbered rows. -/
lemma exists_rowId {α : Type} [Row α] {t t' : Table α} (hlength : t.rows.length ≤ t'.rows.length)
    {r : α} (hr : r ∈ t) : ∃ r' ∈ t', Row.rowId r' = Row.rowId r :=
  Table.exists_of_lt ((Table.rowId_lt hr).trans_le hlength)

/-- Jobs of which each is an old one, still anchored, or has a new number. -/
def KeepsAnchors (t t' : Table (Job D)) : Prop :=
  ∀ job' ∈ t', (∃ job ∈ t, job.id = job'.id ∧
    (job.cutoffCount.isSome = true → job'.cutoffCount.isSome = true) ∧
    (job.recordSize.isSome = true → job'.recordSize.isSome = true)) ∨ t.rows.length ≤ job'.id

/-- Coverages of which each is an old one of the same identity or has a new number. -/
def KeepsIdentity (t t' : Table (Coverage D)) : Prop :=
  ∀ c' ∈ t', (∃ c ∈ t, c.id = c'.id ∧ c'.terminalSerial = c.terminalSerial ∧
    c'.terminalGeneration = c.terminalGeneration) ∨ t.rows.length ≤ c'.id

lemma Keeping.of_tables {db db' : Db D} (chunks : db.chunks.rows <+: db'.chunks.rows)
    (tailChunks : db.tailChunks.rows <+: db'.tailChunks.rows)
    (jobs : KeepsAnchors db.jobs db'.jobs) (jobs_length : db.jobs.rows.length ≤ db'.jobs.rows.length)
    (coverages : KeepsIdentity db.coverages db'.coverages)
    (coverages_length : db.coverages.rows.length ≤ db'.coverages.rows.length) :
    Keeping db db' where
  chunks := chunks
  tailChunks := tailChunks
  anchored job hjob job' hjob' hid := by
    rcases jobs job' hjob' with ⟨x, hx, hxid, hkept⟩ | hnew
    · rw [Table.eq_of_rowId hx hjob (hxid.trans hid)] at hkept
      exact hkept
    · have := Table.rowId_lt hjob
      rw [rowId_job] at this
      omega
  jobs job hjob := exists_rowId jobs_length hjob
  coverages c hc c' hc' hid := by
    rcases coverages c' hc' with ⟨x, hx, hxid, hkept⟩ | hnew
    · rw [Table.eq_of_rowId hx hc (hxid.trans hid)] at hkept
      exact hkept
    · have : c.id < db.coverages.rows.length := Table.rowId_lt hc
      omega
  covered c hc := exists_rowId coverages_length hc

lemma KeepsAnchors.refl (t : Table (Job D)) : KeepsAnchors t t :=
  fun job hjob => .inl ⟨job, hjob, rfl, id, id⟩

lemma KeepsIdentity.refl (t : Table (Coverage D)) : KeepsIdentity t t :=
  fun c hc => .inl ⟨c, hc, rfl, rfl, rfl⟩

lemma SameScans.keepsAnchors {t t' : Table (Job D)} (h : SameScans t t') : KeepsAnchors t t' := by
  intro job' hjob'
  obtain ⟨job, hjob, hsame⟩ := h.rows job' hjob'
  refine .inl ⟨job, hjob, hsame.id.symm, ?_⟩
  rw [hsame.same]
  exact ⟨id, id⟩

lemma keepsAnchors_put {t : Table (Job D)} {job job' : Job D} (hjob : job ∈ t)
    (hid : job'.id = job.id)
    (hcutoff : job.cutoffCount.isSome = true → job'.cutoffCount.isSome = true)
    (hsize : job.recordSize.isSome = true → job'.recordSize.isSome = true) :
    KeepsAnchors t (t.put job') := by
  intro x hx
  rcases Table.of_mem_put hx with rfl | ⟨hx, -⟩
  · exact .inl ⟨job, hjob, hid.symm, hcutoff, hsize⟩
  · exact .inl ⟨x, hx, rfl, id, id⟩

lemma Withdrawn.keepsIdentity {t t' : Table (Coverage D)} (h : Withdrawn t t') :
    KeepsIdentity t t' := by
  intro c' hc'
  obtain ⟨c, hc, -, heq⟩ := h.rows c' hc'
  refine .inl ⟨c, hc, ?_⟩
  rw [heq]
  exact ⟨rfl, rfl, rfl⟩

end Tables

lemma keeping_of_run {call : Call D} {db db' : Db D} (h : call.run hash db = .ok db') :
    Keeping db db' := by
  cases effect_of_run h with
  | quiet hquiet =>
    refine .of_tables ?_ ?_ hquiet.jobs.keepsAnchors hquiet.jobs.length.ge
      hquiet.coverages.keepsIdentity hquiet.coverages.length.ge
    · rw [hquiet.chunks]
    · rw [hquiet.tailChunks]
  | @created env generation epochs jobs job closed rows new =>
    refine .of_tables (List.prefix_refl _) (List.prefix_refl _) (fun x hx => ?_) ?_
      (.refl _) le_rfl
    · have hid : job.id = db.jobs.rows.length := Table.rowId_of_append rows
      rw [Table.mem_def, rows, List.mem_append, List.mem_singleton] at hx
      rcases hx with hx | rfl
      · exact .inl ⟨x, hx, rfl, id, id⟩
      · exact .inr hid.ge
    · change db.jobs.rows.length ≤ jobs.rows.length
      rw [rows, List.length_append]
      omega
  | @anchored env payload job hjob =>
    exact .of_tables (List.prefix_refl _) (List.prefix_refl _)
      (keepsAnchors_put hjob.mem rfl (fun _ => rfl) fun _ => rfl) (Table.length_put _ _).ge
      (.refl _) le_rfl
  | @scanned env payload job size answer row attendance manifests chunks hjob hsize continues rows
      owner generation receipt tables rescan =>
    rw [tables]
    refine .of_tables ?_ (List.prefix_refl _) (keepsAnchors_put hjob.mem ?_ ?_ ?_)
      (Table.length_put _ _).ge (.refl _) le_rfl
    · change db.chunks.rows <+: chunks.rows
      rw [rows]
      exact List.prefix_append _ _
    · unfold Job.advance
      dsimp only
      split_ifs <;> rfl
    · unfold Job.advance
      dsimp only
      split_ifs <;> exact id
    · unfold Job.advance
      dsimp only
      split_ifs <;> exact id
  | @extended env payload coverage answer row attendance manifests tailChunks active continues rows
      owner generation receipt tables extension =>
    rw [tables]
    refine .of_tables (List.prefix_refl _) ?_ (.refl _) le_rfl (fun c hc => ?_)
      (Table.length_put _ _).ge
    · change db.tailChunks.rows <+: tailChunks.rows
      rw [rows]
      exact List.prefix_append _ _
    · rcases Table.of_mem_put hc with rfl | ⟨hc, -⟩
      · exact .inl ⟨coverage, (activeCoverage_eq_some active).1, rfl, rfl, rfl⟩
      · exact .inl ⟨c, hc, rfl, rfl, rfl⟩
  | @recovered env payload job _ divergence found hjob hopen hepoch hrecovered =>
    obtain ⟨_, _, _, htables⟩ := hrecovered.tables
    have hjobs : db'.jobs = db.jobs.put { job with
        sourceEpochId := db.epochs.rows.length, status := .queued, error := none } := by
      rw [htables]
    refine .of_tables (by rw [htables]) (by rw [htables]) ?_ ?_
      hrecovered.withdrawn.keepsIdentity hrecovered.withdrawn.length.ge
    · rw [hjobs]
      exact keepsAnchors_put hjob.mem rfl id id
    · rw [hjobs, Table.length_put]
  | @certified env payload job _ hjob hcertified =>
    obtain ⟨_, htables⟩ := hcertified.tables
    obtain ⟨t, c, hwithdrawn, hrows, -⟩ := hcertified.added
    refine .of_tables (by rw [htables]) (by rw [htables]) hcertified.jobs.keepsAnchors
      hcertified.jobs.length.ge (fun x hx => ?_) ?_
    · have hid : c.id = t.rows.length := Table.rowId_of_append hrows
      rw [Table.mem_def, hrows, List.mem_append, List.mem_singleton] at hx
      rcases hx with hx | rfl
      · exact hwithdrawn.keepsIdentity x hx
      · exact .inr (by rw [hid, hwithdrawn.length])
    · rw [hrows, List.length_append, hwithdrawn.length]
      omega

lemma Later.keeping {db db' : Db D} (h : Later hash db db') : Keeping db db' := by
  induction h with
  | refl => exact .refl db
  | tail _ hstep ih =>
    obtain ⟨call, hcall⟩ := hstep
    exact ih.trans (keeping_of_run hcall)

lemma Later.of_replay {calls : List (Call D)} {db db' : Db D}
    (h : replay hash (fun _ _ => True) db calls = some db') : Later hash db db' := by
  induction calls generalizing db with
  | nil =>
    cases h
    exact .refl
  | cons call calls ih =>
    rw [replay, if_pos trivial] at h
    split at h
    next next_ hrun => exact .head ⟨call, hrun⟩ (ih h)
    next => cases h

omit [DecidableEq D] in
/-- A row that is found in a table is found in a longer one. -/
lemma find?_of_isPrefix {α : Type} {l l' : List α} {p : α → Bool} {x : α} (h : l <+: l')
    (hfound : l.find? p = some x) : l'.find? p = some x := by
  obtain ⟨more, rfl⟩ := h
  rw [List.find?_append, hfound, Option.some_or]

/-! ### Chunks -/

/-- `_require_source_epoch` lets the epoch of a message pass: it names the epoch that the job or
coverage is in, or it names none and none is required of the connector. -/
def EpochAccepted (env : Env D) (db : Db D) (sourceEpochId terminalGeneration : Nat)
    (supplied : Option Nat) : Prop :=
  supplied = none ∧ env.epochRequired = false ∨
    supplied ≠ none ∧ supplied = sourceEpochUuid db sourceEpochId terminalGeneration

omit [DecidableEq D] in
lemma EpochAccepted.ok {env : Env D} {db : Db D} {epoch generation : Nat} {supplied : Option Nat}
    (h : EpochAccepted env db epoch generation supplied) :
    requireSourceEpoch env db epoch generation supplied = .ok () := by
  unfold requireSourceEpoch
  rw [refuse_eq_ok]
  rintro ⟨hrequired, hother⟩
  rcases h with hnone | ⟨hsome, heq⟩
  · exact hrequired hnone
  · rcases hother with hnone | hne
    · exact hsome hnone
    · exact hne heq

section Chunks

variable {env env' : Env D} {db db' : Db D} {payload : ChunkRequest D}

/-- The row of a committed chunk, as a lookup of its start finds it. -/
structure CommittedAs (hash : Hash D) (db : Db D) (payload : ChunkRequest D) (row : Chunk D) :
    Prop where
  found : (db.chunks.rows.find? fun x => x.jobId == payload.jobId &&
    x.generation == payload.generation && x.startOrdinal == payload.startOrdinal) = some row
  receipt : row.receipt = payload.receipt
  digest : reconciliationChunkDigest hash payload.records = payload.chunkDigest

lemma checkChunk_digest {job : Job D} {cutoff recordSize : Nat} {u : Unit}
    (h : checkChunk env hash job cutoff recordSize payload = .ok u) :
    reconciliationChunkDigest hash payload.records = payload.chunkDigest := by
  simp only [checkChunk, bind_eq_ok, refuse_eq_ok, not_not] at h
  obtain ⟨-, -, -, -, -, -, -, -, -, -, -, -, -, -, -, -, -, hdigest, -⟩ := h
  exact hdigest

/-- A chunk that adds a row was anchored, and the row is found at its start from then on. -/
lemma applyReconciliationChunk_commits {answer : ChunkAnswer D}
    (h : applyReconciliationChunk env hash db payload = .ok answer)
    (hgrows : answer.db.chunks ≠ db.chunks) :
    ∃ row, answer.chunk = some row.id ∧ CommittedAs hash answer.db payload row ∧
      ∃ job ∈ answer.db.jobs, job.id = payload.jobId ∧ job.cutoffCount.isSome = true ∧
        job.recordSize.isSome = true := by
  simp only [applyReconciliationChunk, bind_eq_ok, deviceJob_eq_ok] at h
  obtain ⟨job, ⟨hjob, hid⟩, -, -, -, -, h⟩ := h
  split at h
  next cutoff recordSize hcutoff hsize =>
    split at h
    next existing _ =>
      unfold replayChunk at h
      split_ifs at h
      · simp only [bind_eq_ok, pure_eq_ok] at h
        obtain ⟨-, -, rfl⟩ := h
        exact absurd rfl hgrows
      · cases h
        exact absurd rfl hgrows
    next hnone =>
      simp only [bind_eq_ok] at h
      obtain ⟨u, hcheck, plan, hplan, h⟩ := h
      cases plan with
      | stop held =>
        cases h
        have hquiet := planChunk_stop hjob (checkChunk_ok hcheck).2 hplan
        exact absurd hquiet.chunks hgrows
      | commit bound =>
        obtain ⟨-, -, -, hbound⟩ := planChunk_eq_commit.mp hplan
        have hanswer : answer.chunk = some db.chunks.rows.length := by
          simp only [commitChunk, bind_eq_ok, pure_eq_ok] at h
          obtain ⟨-, -, -, -, rfl⟩ := h
          rfl
        have hgeneration := (checkChunk_ok hcheck).1.generation
        obtain ⟨⟨attendance, manifests, chunks, row, htables, hrows, howner, hrowgen, hreceipt⟩, -⟩ :=
          commitChunk_ok hbound hgeneration h
        have hrow : row.id = db.chunks.rows.length := Table.rowId_of_append hrows
        have hstart : row.startOrdinal = payload.startOrdinal :=
          congrArg Receipt.startOrdinal hreceipt
        refine ⟨row, by rw [hanswer, hrow], ⟨?_, hreceipt, checkChunk_digest hcheck⟩, ?_⟩
        · rw [htables]
          change chunks.rows.find? _ = _
          rw [hid] at hnone howner
          rw [hrows, List.find?_append, hnone, Option.none_or]
          simp [howner, hrowgen, hstart, hgeneration]
        · rw [htables]
          have hadvanced : (job.advance payload).id = job.id ∧
              (job.advance payload).cutoffCount = job.cutoffCount ∧
              (job.advance payload).recordSize = job.recordSize := by
            unfold Job.advance
            dsimp only
            split_ifs <;> exact ⟨rfl, rfl, rfl⟩
          refine ⟨job.advance payload, Table.mem_put_self ⟨job, hjob, hadvanced.1.symm⟩,
            hadvanced.1.trans hid, ?_⟩
          rw [hadvanced.2.1, hadvanced.2.2, hcutoff, hsize]
          exact ⟨rfl, rfl⟩
  next => cases h

/-- The replay of a committed chunk. -/
lemma CommittedAs.replay {row : Chunk D} (h : CommittedAs hash db payload row) {job : Job D}
    (hjob : job ∈ db.jobs) (hid : job.id = payload.jobId)
    (hgeneration : job.terminalGeneration = payload.generation)
    (hcutoff : job.cutoffCount.isSome = true) (hsize : job.recordSize.isSome = true)
    (hepoch : EpochAccepted env db job.sourceEpochId job.terminalGeneration payload.sourceEpoch) :
    applyReconciliationChunk env hash db payload = .ok ⟨db, some row.id, true⟩ := by
  obtain ⟨cutoff, hcutoff⟩ := Option.isSome_iff_exists.mp hcutoff
  obtain ⟨size, hsize⟩ := Option.isSome_iff_exists.mp hsize
  have hdevice : deviceJob db payload.jobId = .ok job := deviceJob_eq_ok.mpr ⟨hjob, hid⟩
  have hsame : ¬ (row.chunkDigest ≠ payload.chunkDigest ∨ row.endOrdinal ≠ payload.endOrdinal ∨
      row.resultingChainDigest ≠ payload.resultingChainDigest ∨
      (row.rawPreservedCount ≠ 0 ∧
        reconciliationChunkDigest hash payload.records ≠ payload.chunkDigest)) := by
    have hdigest := congrArg Receipt.chunkDigest h.receipt
    have hend := congrArg Receipt.endOrdinal h.receipt
    have hresulting := congrArg Receipt.resultingChainDigest h.receipt
    rintro (hne | hne | hne | ⟨-, hne⟩)
    · exact hne hdigest
    · exact hne hend
    · exact hne hresulting
    · exact hne h.digest
  have hrefuse : refuse (payload.generation ≠ job.terminalGeneration)
      (.evidence "SOURCE_GENERATION_MISMATCH"
        "Reconciliation generation does not match the assignment.") = .ok () := by
    rw [refuse_eq_ok, not_not]
    exact hgeneration.symm
  have hfound := h.found
  rw [← hid] at hfound
  unfold applyReconciliationChunk
  simp only [hdevice, hrefuse, hepoch.ok, hcutoff, hsize, hfound, bind, Except.bind, replayChunk,
    if_neg hsame]
  rfl

/-- A chunk that starts where a committed chunk of its job starts holds the job at most. -/
lemma chunk_restarts {answer : ChunkAnswer D} (hinv : JobInv db) {row : Chunk D}
    (hrow : row ∈ db.chunks) (howner : row.jobId = payload.jobId)
    (hstart : row.startOrdinal = payload.startOrdinal)
    (h : applyReconciliationChunk env hash db payload = .ok answer) :
    answer.db = db ∨ ∃ job ∈ db.jobs, job.id = payload.jobId ∧ ∃ code message,
      answer.db = safetyHold db job code message := by
  simp only [applyReconciliationChunk, bind_eq_ok, deviceJob_eq_ok] at h
  obtain ⟨job, ⟨hjob, hid⟩, -, -, -, -, h⟩ := h
  split at h
  next cutoff recordSize _ _ =>
    split at h
    next existing _ =>
      unfold replayChunk at h
      split_ifs at h
      · simp only [bind_eq_ok, pure_eq_ok] at h
        obtain ⟨-, -, rfl⟩ := h
        exact .inr ⟨job, hjob, hid, _, _, rfl⟩
      · cases h
        exact .inl rfl
    next =>
      -- a committed start lies below the checkpoint, where no new chunk starts
      simp only [bind_eq_ok] at h
      obtain ⟨u, hcheck, -⟩ := h
      have hnext := (checkChunk_ok hcheck).1.start
      obtain ⟨owner, hmem, hownerid, hlt⟩ := hinv.starts row hrow
      obtain rfl := Table.eq_of_rowId hmem hjob (hownerid.trans (howner.trans hid.symm))
      omega
  next => cases h

end Chunks

/-! ### Tails -/

section Tails

variable {env env' : Env D} {db db' : Db D} {payload : TailRequest D}

/-- The row of a committed tail, as a lookup of its start finds it. -/
structure ExtendedAs (hash : Hash D) (db : Db D) (coverageId : Nat) (payload : TailRequest D)
    (row : TailChunk D) : Prop where
  found : (db.tailChunks.rows.find? fun x => x.coverageId == coverageId &&
    x.generation == payload.terminalGeneration && x.startOrdinal == payload.startOrdinal) =
      some row
  receipt : row.receipt = payload.receipt
  digest : reconciliationChunkDigest hash payload.records = payload.chunkDigest

lemma tailFault_digest {coverage : Coverage D} (h : tailFault hash db coverage payload = none) :
    reconciliationChunkDigest hash payload.records = payload.chunkDigest := by
  unfold tailFault at h
  split at h
  · cases h
  split at h
  · cases h
  split at h
  · cases h
  split at h
  · cases h
  next hdigest => exact not_not.mp hdigest

/-- A tail that adds a row belongs to the active coverage, and the row is found at its start from
then on. -/
lemma applySourceTailChunk_commits {answer : TailAnswer D}
    (h : applySourceTailChunk env hash db payload = .ok answer)
    (hgrows : answer.db.tailChunks ≠ db.tailChunks) :
    ∃ coverage row, db.activeCoverage = some coverage ∧
      payload.terminalSerial = coverage.terminalSerial ∧
      payload.terminalGeneration = coverage.terminalGeneration ∧
      answer.chunk = some row.id ∧ ExtendedAs hash answer.db coverage.id payload row := by
  unfold applySourceTailChunk at h
  split at h
  · cases h
  next coverage hactive =>
    obtain ⟨hcoverage, -⟩ := activeCoverage_eq_some hactive
    split at h
    · cases h
      exact absurd rfl hgrows
    simp only [bind_eq_ok] at h
    obtain ⟨-, -, h⟩ := h
    split at h
    · cases h
      exact absurd (quiet_invalidateTailCoverage hcoverage _ _).tailChunks hgrows
    next hidentity =>
    simp only [not_or, not_not] at hidentity
    split at h
    next existing _ =>
      unfold replayTail at h
      split_ifs at h
      · split at h
        · simp only [bind_eq_ok, pure_eq_ok] at h
          obtain ⟨recorded, hrecorded, rfl⟩ := h
          exact absurd (quiet_recordSupersededReplay hrecorded).tailChunks hgrows
        · cases h
          exact absurd (quiet_invalidateTailCoverage hcoverage _ _).tailChunks hgrows
      · cases h
        exact absurd rfl hgrows
    next hnone =>
      simp only [newTail, bind_eq_ok] at h
      obtain ⟨-, -, h⟩ := h
      split at h
      · cases h
        exact absurd (quiet_invalidateTailCoverage hcoverage _ _).tailChunks hgrows
      next hfault =>
      simp only [bind_eq_ok] at h
      obtain ⟨bound, hbound, h⟩ := h
      split_ifs at h
      · cases h
        exact absurd (quiet_invalidateTailCoverage hcoverage _ _).tailChunks hgrows
      have hanswer : answer.chunk = some db.tailChunks.rows.length := by
        simp only [commitTail, bind_eq_ok, pure_eq_ok] at h
        obtain ⟨-, -, -, -, rfl⟩ := h
        rfl
      obtain ⟨⟨attendance, manifests, tailChunks, row, htables, hrows, howner, hgeneration,
        hreceipt⟩, -⟩ := commitTail_ok hbound h
      have hrow : row.id = db.tailChunks.rows.length := Table.rowId_of_append hrows
      have hstart : row.startOrdinal = payload.startOrdinal :=
        congrArg Receipt.startOrdinal hreceipt
      refine ⟨coverage, row, hactive, hidentity.1, hidentity.2, by rw [hanswer, hrow],
        ?_, hreceipt, tailFault_digest hfault⟩
      rw [htables]
      change tailChunks.rows.find? _ = _
      rw [hrows, List.find?_append, hnone, Option.none_or]
      simp [howner, hgeneration, hstart]

/-- The replay of a committed tail of the active coverage. -/
lemma ExtendedAs.replay {coverage : Coverage D} {row : TailChunk D}
    (h : ExtendedAs hash db coverage.id payload row) (hactive : db.activeCoverage = some coverage)
    (hserial : payload.terminalSerial = coverage.terminalSerial)
    (hgeneration : payload.terminalGeneration = coverage.terminalGeneration)
    (hepoch : EpochAccepted env db coverage.sourceEpochId coverage.terminalGeneration
      payload.sourceEpoch) :
    applySourceTailChunk env hash db payload = .ok ⟨db, some row.id, true, none⟩ := by
  have hstale : staleGenerationTail db coverage payload = false := by
    simp [staleGenerationTail, hgeneration]
  have hidentity : ¬ (payload.terminalSerial ≠ coverage.terminalSerial ∨
      payload.terminalGeneration ≠ coverage.terminalGeneration) := by
    simp [hserial, hgeneration]
  have hsame : ¬ (row.endOrdinal ≠ payload.endOrdinal ∨ row.chunkDigest ≠ payload.chunkDigest ∨
      row.resultingChainDigest ≠ payload.resultingChainDigest ∨
      (row.rawPreservedCount ≠ 0 ∧
        reconciliationChunkDigest hash payload.records ≠ payload.chunkDigest)) := by
    have hdigest := congrArg Receipt.chunkDigest h.receipt
    have hend := congrArg Receipt.endOrdinal h.receipt
    have hresulting := congrArg Receipt.resultingChainDigest h.receipt
    rintro (hne | hne | hne | ⟨-, hne⟩)
    · exact hne hend
    · exact hne hdigest
    · exact hne hresulting
    · exact hne h.digest
  unfold applySourceTailChunk
  simp only [hactive, hstale, hepoch.ok, h.found, bind, Except.bind, replayTail, if_neg hsame,
    if_neg hidentity, Bool.false_eq_true, if_false]
  rfl

/-- What a tail does that starts where a committed tail of the active coverage starts: nothing, or
it takes the coverage out of service, or it leaves receipts. -/
inductive RestartedTail (db : Db D) (coverage : Coverage D) : Db D → Prop where
  | unchanged : RestartedTail db coverage db
  | invalidated (code message : String) :
      RestartedTail db coverage (invalidateTailCoverage db coverage code message)
  | receipts {manifests supersededReplays}
      (grows : Grows (fun m => m.canonicalSource = false ∧ m.jobId = none) db.manifests manifests) :
      RestartedTail db coverage { db with manifests, supersededReplays }

lemma recordSupersededReplay_restarted {coverage : Coverage D}
    (h : recordSupersededReplay db coverage payload = .ok db') : RestartedTail db coverage db' := by
  have hgrows := (quiet_recordSupersededReplay h).manifests
  dsimp only [recordSupersededReplay] at h
  split_ifs at h
  · cases h
    exact .unchanged
  · have htables : ∃ manifests supersededReplays,
        db' = { db with manifests, supersededReplays } := by
      refine Checks.foldlM_ok (P := fun _ st => ∃ manifests supersededReplays,
        st = { db with manifests, supersededReplays }) h ⟨_, _, rfl⟩ ?_
      rintro done source st st' - ⟨_, _, rfl⟩ hadd
      obtain ⟨-, heq⟩ := addManifest_eq_ok.mp hadd
      exact ⟨_, _, heq⟩
    obtain ⟨manifests, supersededReplays, rfl⟩ := htables
    exact .receipts hgrows

lemma tail_restarts {answer : TailAnswer D} (hinv : CoverageInv db) {coverage : Coverage D}
    (hactive : db.activeCoverage = some coverage) {row : TailChunk D} (hrow : row ∈ db.tailChunks)
    (howner : row.coverageId = coverage.id) (hstart : row.startOrdinal = payload.startOrdinal)
    (h : applySourceTailChunk env hash db payload = .ok answer) :
    RestartedTail db coverage answer.db := by
  unfold applySourceTailChunk at h
  simp only [hactive] at h
  split at h
  · cases h
    exact .unchanged
  simp only [bind_eq_ok] at h
  obtain ⟨-, -, h⟩ := h
  split at h
  · cases h
    exact .invalidated _ _
  next hidentity =>
  simp only [not_or, not_not] at hidentity
  split at h
  next existing _ =>
    unfold replayTail at h
    split_ifs at h
    · split at h
      · simp only [bind_eq_ok, pure_eq_ok] at h
        obtain ⟨recorded, hrecorded, rfl⟩ := h
        exact recordSupersededReplay_restarted hrecorded
      · cases h
        exact .invalidated _ _
    · cases h
      exact .unchanged
  next =>
    simp only [newTail, bind_eq_ok] at h
    obtain ⟨-, -, h⟩ := h
    split at h
    · cases h
      exact .invalidated _ _
    next hfault =>
      -- a new tail starts at the cursor, where no committed tail starts
      have hcursor := (tailFault_eq_none hidentity.2 hfault).start
      have hne := hinv.no_tail_at_cursor (activeCoverage_eq_some hactive).1 hrow howner
      exact absurd (hstart.trans hcursor) hne

end Tails

/-! ### Replays in runs -/

/-- A committed chunk or tail that is sent again finds its row and changes nothing, as long as its
source epoch is accepted; one with another content changes no committed row, cursor or chain. -/
theorem replay_changes_nothing {db : Db D} (h : Run hash (fun _ _ => True) db) :
    (∀ env payload answer, applyReconciliationChunk env hash db payload = .ok answer →
      answer.db.chunks ≠ db.chunks → ∀ db', Later hash answer.db db' →
      ∀ job ∈ db'.jobs, job.id = payload.jobId → job.terminalGeneration = payload.generation →
      ∀ env', EpochAccepted env' db' job.sourceEpochId job.terminalGeneration
        payload.sourceEpoch →
      applyReconciliationChunk env' hash db' payload = .ok ⟨db', answer.chunk, true⟩) ∧
    (∀ env payload answer, applySourceTailChunk env hash db payload = .ok answer →
      answer.db.tailChunks ≠ db.tailChunks → ∀ db', Later hash answer.db db' →
      ∀ coverage coverage', db.activeCoverage = some coverage →
      db'.activeCoverage = some coverage' → coverage'.id = coverage.id →
      ∀ env', EpochAccepted env' db' coverage'.sourceEpochId coverage'.terminalGeneration
        payload.sourceEpoch →
      applySourceTailChunk env' hash db' payload = .ok ⟨db', answer.chunk, true, none⟩) ∧
    (∀ env payload answer, ∀ row ∈ db.chunks, row.jobId = payload.jobId →
      row.startOrdinal = payload.startOrdinal →
      applyReconciliationChunk env hash db payload = .ok answer →
      answer.db = db ∨ ∃ job ∈ db.jobs, job.id = payload.jobId ∧ ∃ code message,
        answer.db = safetyHold db job code message) ∧
    ∀ env payload answer coverage, db.activeCoverage = some coverage →
      ∀ row ∈ db.tailChunks, row.coverageId = coverage.id →
      row.startOrdinal = payload.startOrdinal →
      applySourceTailChunk env hash db payload = .ok answer →
      RestartedTail db coverage answer.db := by
  refine ⟨?_, ?_, ?_, ?_⟩
  · intro env payload answer hanswer hgrows db' hlater job hjob hid hgeneration env' hepoch
    obtain ⟨row, hchunk, hcommitted, first, hfirst, hfirstid, hcutoff, hsize⟩ :=
      applyReconciliationChunk_commits hanswer hgrows
    have hkeeping := hlater.keeping
    have hanchored := hkeeping.anchored first hfirst job hjob (hid.trans hfirstid.symm)
    have hlater' : CommittedAs hash db' payload row :=
      ⟨find?_of_isPrefix hkeeping.chunks hcommitted.found, hcommitted.receipt, hcommitted.digest⟩
    rw [hchunk]
    exact hlater'.replay hjob hid hgeneration (hanchored.1 hcutoff) (hanchored.2 hsize) hepoch
  · intro env payload answer hanswer hgrows db' hlater coverage coverage' hactive hactive' hid env'
      hepoch
    obtain ⟨found, row, hfound, hserial, hgeneration, hchunk, hextended⟩ :=
      applySourceTailChunk_commits hanswer hgrows
    obtain rfl : found = coverage := Option.some_inj.mp (hfound.symm.trans hactive)
    have hcall : Call.run hash db (.tail env payload) = .ok answer.db := by
      simp only [Call.run, hanswer, bind_eq_ok, pure_eq_ok]
      exact ⟨answer, rfl, rfl⟩
    have hkeeping : Keeping db db' := (keeping_of_run hcall).trans hlater.keeping
    obtain ⟨hserial', hgeneration'⟩ := hkeeping.coverages found (activeCoverage_eq_some hactive).1
      coverage' (activeCoverage_eq_some hactive').1 hid
    have hlater' : ExtendedAs hash db' coverage'.id payload row := by
      rw [hid]
      exact ⟨find?_of_isPrefix hlater.keeping.tailChunks hextended.found, hextended.receipt,
        hextended.digest⟩
    rw [hchunk]
    exact hlater'.replay hactive' (hserial.trans hserial'.symm) (hgeneration.trans hgeneration'.symm)
      hepoch
  · intro env payload answer row hrow howner hstart hanswer
    exact chunk_restarts (JobInv.of_run h) hrow howner hstart hanswer
  · intro env payload answer coverage hactive row hrow howner hstart hanswer
    exact tail_restarts (CoverageInv.of_run h) hactive hrow howner hstart hanswer

/-- An anchored job of two records. -/
def anchoredCalls : List (Call (List Nat)) :=
  [.create plainEnv 1, .anchor plainEnv (plainAnchor 0 2 (plainPunch 16 0 1) 16 layout_sixteen)]

/-- Its first chunk, which names no source epoch. -/
def firstChunk : ChunkRequest (List Nat) := plainChunk 0 0 none (plainPunch 16 0 1) []

/-- The calls that follow the first chunk, up to the job's certificate. -/
def certifyingCalls : List (Call (List Nat)) :=
  let second := plainChunk 0 1 (some firstChunk.resultingChainDigest) (plainPunch 16 1 2) []
  [.chunk plainEnv second, .manifest plainEnv (plainManifest 0 2 second.resultingChainDigest)]

/-- The tables after the first chunk of the anchored job, and the answer it got. -/
lemma firstChunk_commits : ∃ db answer, Run plainHash (fun _ _ => True) db ∧
    applyReconciliationChunk plainEnv plainHash db firstChunk = .ok answer ∧
    answer.db.chunks ≠ db.chunks ∧
    (∃ db', replay plainHash (fun _ _ => True) answer.db certifyingCalls = some db' ∧
      db'.activeCoverage.isSome = true ∧ ∃ job ∈ db'.jobs, job.id = firstChunk.jobId ∧
        job.terminalGeneration = firstChunk.generation) ∧
    ∃ job ∈ db.jobs, ∃ job' ∈ answer.db.jobs, job'.id = job.id ∧ job.id = firstChunk.jobId ∧
      job'.terminalGeneration = job.terminalGeneration ∧ job'.sourceEpochId = job.sourceEpochId ∧
      (applyReconciliationChunk { plainEnv with epochRequired := true } plainHash answer.db
        firstChunk).toOption.isNone = true := by
  have hchecks : ∃ db ∈ replay plainHash (fun _ _ => True) (Db.blank (some "T")) anchoredCalls,
      ∃ answer ∈ (applyReconciliationChunk plainEnv plainHash db firstChunk).toOption,
        answer.db.chunks.rows.length ≠ db.chunks.rows.length ∧
        (∃ db' ∈ replay plainHash (fun _ _ => True) answer.db certifyingCalls,
          db'.activeCoverage.isSome = true ∧ ∃ job ∈ db'.jobs.rows, job.id = firstChunk.jobId ∧
            job.terminalGeneration = firstChunk.generation) ∧
        ∃ job ∈ db.jobs.rows, ∃ job' ∈ answer.db.jobs.rows, job'.id = job.id ∧
          job.id = firstChunk.jobId ∧ job'.terminalGeneration = job.terminalGeneration ∧
          job'.sourceEpochId = job.sourceEpochId ∧
          (applyReconciliationChunk { plainEnv with epochRequired := true } plainHash answer.db
            firstChunk).toOption.isNone = true := by
    decide +kernel
  obtain ⟨db, hdb, answer, hanswer, hlength, hlater, hjobs⟩ := hchecks
  refine ⟨db, answer, (Run.start _).of_replay hdb, ?_, fun heq => hlength (by rw [heq]), hlater,
    hjobs⟩
  cases hresult : applyReconciliationChunk plainEnv plainHash db firstChunk with
  | ok x =>
    rw [hresult] at hanswer
    cases hanswer
    rfl
  | error refusal =>
    rw [hresult] at hanswer
    cases hanswer

theorem replay_changes_nothing_after_certificate :
    ∃ (db : Db (List Nat)) (chunk : Option Nat), db.activeCoverage.isSome = true ∧
      applyReconciliationChunk plainEnv plainHash db firstChunk = .ok ⟨db, chunk, true⟩ := by
  obtain ⟨db, answer, hrun, hanswer, hgrows, ⟨db', hreplay, hactive, job, hjob, hid, hgeneration⟩, -⟩ :=
    firstChunk_commits
  exact ⟨db', answer.chunk, hactive, (replay_changes_nothing hrun).1 plainEnv firstChunk answer
    hanswer hgrows db' (.of_replay hreplay) job hjob hid hgeneration plainEnv (.inl ⟨rfl, rfl⟩)⟩

/-- Once the connector must name the epoch, the replay of a chunk that named none is refused,
although its job keeps its generation and epoch. -/
theorem replay_without_required_epoch_refused :
    ∃ db answer, Run plainHash (fun _ _ => True) db ∧
      applyReconciliationChunk plainEnv plainHash db firstChunk = .ok answer ∧
      answer.db.chunks ≠ db.chunks ∧
      ∃ job ∈ db.jobs, ∃ job' ∈ answer.db.jobs, job'.id = job.id ∧ job.id = firstChunk.jobId ∧
        job'.terminalGeneration = job.terminalGeneration ∧
        job'.sourceEpochId = job.sourceEpochId ∧
        ∀ result, applyReconciliationChunk { plainEnv with epochRequired := true } plainHash
          answer.db firstChunk ≠ .ok result := by
  obtain ⟨db, answer, hrun, hanswer, hgrows, -, job, hjob, job', hjob', hid, hid', hgeneration,
    hepoch, hrefused⟩ := firstChunk_commits
  refine ⟨db, answer, hrun, hanswer, hgrows, job, hjob, job', hjob', hid, hid', hgeneration, hepoch,
    fun result hresult => ?_⟩
  rw [hresult] at hrefused
  cases hrefused

end Reconciliation
