import AutoAttn.Reconciliation.Effects

/-!
# Integrity of a scan

The chunks of a job tile the ordinals below its checkpoint and link their digests, and its epoch
holds one canonical row for each of those ordinals.
-/

namespace Reconciliation

open ChainedRanges (Link Chained)

variable {D : Type}

/-! ### The chain proof succeeds on a chain -/

/-- A receipt counts its records and its digest is the one the chain continues with. -/
structure Receipt.Sound (hash : Hash D) (row : Receipt D) : Prop where
  count : row.endOrdinal = row.startOrdinal + row.recordCount
  bounds : 1 ≤ row.recordCount ∧ row.recordCount ≤ 100
  resulting : row.resultingChainDigest = reconciliationChainDigest hash row.previousChainDigest
    row.startOrdinal row.endOrdinal row.chunkDigest

variable [DecidableEq D] {hash : Hash D}

/-- The rows of a page lead the check along their chain. -/
lemma foldlM_checkReceipt {page : List (Receipt D)} {a b stop : Nat} {d e : Option D}
    (h : Chained a d (page.map Receipt.link) b e) (hstop : b ≤ stop)
    (hsound : ∀ row ∈ page, row.Sound hash) :
    page.foldlM (checkReceipt hash stop) (a, d) = .ok (b, e) := by
  induction page generalizing a d with
  | nil =>
    obtain ⟨rfl, rfl⟩ := h
    rfl
  | cons row page ih =>
    obtain ⟨hstart, hlt, hbefore, h⟩ := h
    have hrow := hsound row List.mem_cons_self
    have hle := h.le
    simp only [Receipt.link] at hstart hlt hbefore h hle
    have hcheck : checkReceipt hash stop (a, d) row =
        .ok (row.endOrdinal, some row.resultingChainDigest) := by
      have hcount := hrow.count
      have hbounds := hrow.bounds
      refine if_neg ?_
      simp only [not_or, not_not]
      refine ⟨hstart, by omega, by omega, hbounds, hbefore, ?_⟩
      rw [hrow.resulting, hbefore, hstart]
    rw [List.foldlM_cons, hcheck]
    exact ih h fun x hx => hsound x (List.mem_cons_of_mem _ hx)

/-- The loop of the chain proof goes to the end of a chain. -/
lemma chainLoop_ok {done rest : List (Receipt D)} {a b m rounds : Nat} {d e f : Option D}
    (hdone : Chained a d (done.map Receipt.link) m f)
    (hrest : Chained m f (rest.map Receipt.link) b e)
    (hsound : ∀ row ∈ rest, row.Sound hash) (hrounds : b - m ≤ rounds) :
    chainLoop hash (done ++ rest) b rounds (m, f) = .ok (b, e) := by
  induction rounds generalizing done rest m f with
  | zero =>
    obtain rfl : m = b := by
      have := hrest.le
      omega
    have hnil := hrest.eq_nil
    rw [hnil] at hrest
    rw [hrest.2]
    rfl
  | succ rounds ih =>
    rw [chainLoop]
    split_ifs with hlt
    · have hpage : receiptPage (done ++ rest) m b = rest.take coverageProofPage := by
        rw [receiptPage]
        congr 1
        have hfilter : (done ++ rest).filter
            (fun row => m ≤ row.startOrdinal ∧ row.startOrdinal < b) = rest :=
          hdone.filter_start hrest
        rw [hfilter]
        exact hrest.mergeSort_eq
      have hsplit := List.take_append_drop coverageProofPage rest
      generalize hp : rest.take coverageProofPage = page at hpage hsplit
      generalize rest.drop coverageProofPage = later at hsplit
      subst hsplit
      rw [List.map_append, ChainedRanges.chained_append] at hrest
      obtain ⟨m', f', hpageChain, hlater⟩ := hrest
      simp only [hpage]
      have hne : page ≠ [] := by
        rintro rfl
        simp only [List.nil_append, List.take_eq_nil_iff] at hp
        rcases hp with hp | rfl
        · cases hp
        · obtain ⟨rfl, -⟩ := hpageChain
          obtain ⟨rfl, -⟩ := hlater
          exact absurd hlt (lt_irrefl _)
      obtain ⟨first, others, rfl⟩ := List.exists_cons_of_ne_nil hne
      have hmoved : m < m' := by
        have := hpageChain.bounds (l := first.link) (by simp)
        omega
      have hfold := foldlM_checkReceipt hpageChain hlater.le fun x hx =>
        hsound x (List.mem_append_left _ hx)
      simp only [hfold, bind, Except.bind]
      rw [← List.append_assoc]
      refine ih ?_ hlater (fun x hx => hsound x (List.mem_append_right _ hx)) (by omega)
      rw [List.map_append]
      exact ChainedRanges.chained_append.mpr ⟨m, f, hdone, hpageChain⟩
    · obtain rfl : m = b := by
        have := hrest.le
        omega
      have hnil := hrest.eq_nil
      rw [hnil] at hrest
      rw [hrest.2]

/-- The proof of a committed chain succeeds within its limit. -/
lemma committedChainProof_ok {rows : List (Receipt D)} {stop : Nat} {last : Option D}
    (h : Chained 0 none (rows.map Receipt.link) stop last)
    (hsound : ∀ row ∈ rows, row.Sound hash) (hlimit : stop ≤ coverageProofMaxRecords) :
    committedChainProof hash rows 0 stop none (last.getD hash.zeros) = .ok () := by
  have hnil : Chained 0 none (([] : List (Receipt D)).map Receipt.link) 0 none := ⟨rfl, rfl⟩
  have hloop := chainLoop_ok hnil h hsound le_rfl
  rw [List.nil_append] at hloop
  rw [committedChainProof, if_pos ⟨Nat.zero_le _, hlimit⟩, hloop]
  simp [bind, Except.bind]

/-! ### The invariant -/

section Invariant

omit [DecidableEq D]

variable {db db' : Db D}

/-- The chunks of a job, in the order they were committed. -/
def jobChunks (db : Db D) (job : Job D) : List (Chunk D) :=
  db.chunks.rows.filter (·.jobId == job.id)

/-- The chunks of a job lead from nothing to its checkpoint. -/
def ChunkChain (db : Db D) (job : Job D) : Prop :=
  Chained 0 none ((jobChunks db job).map (·.receipt.link)) job.committedNextOrdinal
    job.lastChainDigest

structure ScanInv (hash : Hash D) (db : Db D) : Prop where
  unique : Unique db.manifests
  owners : ∀ chunk ∈ db.chunks, chunk.jobId < db.jobs.rows.length
  generation : ∀ chunk ∈ db.chunks, ∀ job ∈ db.jobs, chunk.jobId = job.id →
    chunk.generation = job.terminalGeneration
  sound : ∀ chunk ∈ db.chunks, chunk.receipt.Sound hash
  chained : ∀ job ∈ db.jobs, ChunkChain db job
  covered : ∀ job ∈ db.jobs, ∀ o < job.committedNextOrdinal,
    Covered db.manifests job.terminalGeneration job.sourceEpochId o

lemma ScanInv.blank (serial : Option String) : ScanInv hash (Db.blank serial : Db D) where
  unique m hm := (Table.not_mem_empty m hm).elim
  owners chunk hchunk := (Table.not_mem_empty chunk hchunk).elim
  generation chunk hchunk := (Table.not_mem_empty chunk hchunk).elim
  sound chunk hchunk := (Table.not_mem_empty chunk hchunk).elim
  chained job hjob := (Table.not_mem_empty job hjob).elim
  covered job hjob := (Table.not_mem_empty job hjob).elim

/-- The job keeps its checkpoint, and its ledger when it has committed anything. -/
structure KeepsScan (db db' : Db D) (job job' : Job D) : Prop where
  id : job'.id = job.id
  committed : job'.committedNextOrdinal = job.committedNextOrdinal
  chain : job'.lastChainDigest = job.lastChainDigest
  generation : 0 < job.committedNextOrdinal → job'.terminalGeneration = job.terminalGeneration
  ledger : ∀ o < job.committedNextOrdinal,
    Covered db.manifests job.terminalGeneration job.sourceEpochId o →
    Covered db'.manifests job'.terminalGeneration job'.sourceEpochId o

/-- A job without a committed ordinal has no chunks. -/
lemma ScanInv.jobChunks_eq_nil (h : ScanInv hash db) {job : Job D} (hjob : job ∈ db.jobs)
    (hzero : job.committedNextOrdinal = 0) : jobChunks db job = [] := by
  have hchain := h.chained job hjob
  unfold ChunkChain at hchain
  rw [hzero] at hchain
  exact List.map_eq_nil_iff.mp hchain.eq_nil

/-- Calls that commit no chunk keep the invariant when every job keeps its scan. -/
lemma ScanInv.of_keepsScan (h : ScanInv hash db) (hunique : Unique db'.manifests)
    (hchunks : db'.chunks = db.chunks) (hlength : db.jobs.rows.length ≤ db'.jobs.rows.length)
    (hjobs : ∀ job' ∈ db'.jobs, ∃ job ∈ db.jobs, KeepsScan db db' job job') :
    ScanInv hash db' where
  unique := hunique
  owners chunk hchunk := (h.owners chunk (hchunks ▸ hchunk)).trans_le hlength
  generation chunk hchunk job' hjob' howner := by
    obtain ⟨job, hjob, hkeeps⟩ := hjobs job' hjob'
    rw [hchunks] at hchunk
    rw [hkeeps.id] at howner
    rw [h.generation chunk hchunk job hjob howner]
    refine (hkeeps.generation (Nat.pos_of_ne_zero fun hzero => ?_)).symm
    have hmem : chunk ∈ jobChunks db job := List.mem_filter.mpr ⟨hchunk, by simpa using howner⟩
    rw [h.jobChunks_eq_nil hjob hzero] at hmem
    cases hmem
  sound chunk hchunk := h.sound chunk (hchunks ▸ hchunk)
  chained job' hjob' := by
    obtain ⟨job, hjob, hkeeps⟩ := hjobs job' hjob'
    unfold ChunkChain jobChunks
    rw [hchunks, hkeeps.id, hkeeps.committed, hkeeps.chain]
    exact h.chained job hjob
  covered job' hjob' o ho := by
    obtain ⟨job, hjob, hkeeps⟩ := hjobs job' hjob'
    rw [hkeeps.committed] at ho
    exact hkeeps.ledger o ho (h.covered job hjob o ho)

/-- Changes of statuses and credits keep every scan. -/
lemma KeepsScan.of_sameScan {job job' : Job D} (h : SameScan job job')
    (hcovered : ∀ g e o, Covered db.manifests g e o → Covered db'.manifests g e o) :
    KeepsScan db db' job job' := by
  rw [h.same]
  exact ⟨rfl, rfl, rfl, fun _ => rfl, fun o _ => hcovered _ _ o⟩

lemma ScanInv.of_sameScans (h : ScanInv hash db) (hunique : Unique db'.manifests)
    (hchunks : db'.chunks = db.chunks) (hjobs : SameScans db.jobs db'.jobs)
    (hcovered : ∀ g e o, Covered db.manifests g e o → Covered db'.manifests g e o) :
    ScanInv hash db' := by
  refine h.of_keepsScan hunique hchunks hjobs.length.ge fun job' hjob' => ?_
  obtain ⟨job, hjob, hsame⟩ := hjobs.rows job' hjob'
  exact ⟨job, hjob, .of_sameScan hsame hcovered⟩

/-- A job that is put back keeps the scans of all others. -/
lemma ScanInv.of_putJob (h : ScanInv hash db) (hunique : Unique db'.manifests)
    (hchunks : db'.chunks = db.chunks) {job job' : Job D} (hjob : job ∈ db.jobs)
    (hjobs : db'.jobs = db.jobs.put job')
    (hcovered : ∀ g e o, Covered db.manifests g e o → Covered db'.manifests g e o)
    (hkeeps : KeepsScan db db' job job') : ScanInv hash db' := by
  refine h.of_keepsScan hunique hchunks (by rw [hjobs, Table.length_put]) fun x hx => ?_
  rw [hjobs] at hx
  rcases Table.of_mem_put hx with rfl | ⟨hx, -⟩
  · exact ⟨job, hjob, hkeeps⟩
  · exact ⟨x, hx, .of_sameScan (.refl x) hcovered⟩

/-- A new job has no chunks, because chunks name jobs that exist. -/
lemma ScanInv.created (h : ScanInv hash db) {epochs : Table Epoch} {jobs : Table (Job D)}
    {new : Job D} (hrows : jobs.rows = db.jobs.rows ++ [new]) (hnew : Unscanned new) :
    ScanInv hash { db with epochs, jobs } := by
  have hmem : ∀ x, x ∈ jobs ↔ x ∈ db.jobs ∨ x = new := by
    intro x
    rw [Table.mem_def, hrows, List.mem_append, List.mem_singleton]
    exact Iff.rfl
  have hid : new.id = db.jobs.rows.length := by
    have hids := jobs.ids
    rw [hrows] at hids
    simpa [db.jobs.ids, List.range_succ] using hids
  have hlength : db.jobs.rows.length ≤ jobs.rows.length := by simp [hrows]
  refine ⟨h.unique, fun chunk hchunk => (h.owners chunk hchunk).trans_le hlength, ?_, h.sound,
    fun job hjob => ?_, fun job hjob o ho => ?_⟩
  · intro chunk hchunk job hjob howner
    rcases (hmem job).mp hjob with hjob | rfl
    · exact h.generation chunk hchunk job hjob howner
    · exact absurd (howner.trans hid) (h.owners chunk hchunk).ne
  · rcases (hmem job).mp hjob with hjob | rfl
    · exact h.chained job hjob
    · have hnone : jobChunks { db with epochs, jobs } job = [] := by
        rw [jobChunks, List.filter_eq_nil_iff]
        intro chunk hchunk
        simp only [beq_iff_eq, hid]
        exact (h.owners chunk hchunk).ne
      unfold ChunkChain
      rw [hnone, hnew.committed, hnew.chain]
      exact ⟨rfl, rfl⟩
  · rcases (hmem job).mp hjob with hjob | rfl
    · exact h.covered job hjob o ho
    · rw [hnew.committed] at ho
      exact absurd ho (Nat.not_lt_zero o)

/-- A committed chunk extends the chain of its job and covers its records. -/
lemma ScanInv.scanned (h : ScanInv hash db) {job : Job D} {recordSize : Nat}
    {payload : ChunkRequest D} {row : Chunk D} (hjob : job ∈ db.jobs)
    (hcontinues : Continues hash job payload)
    (hrows : db'.chunks.rows = db.chunks.rows ++ [row]) (howner : row.jobId = job.id)
    (hgeneration : row.generation = job.terminalGeneration)
    (hreceipt : row.receipt = payload.receipt)
    (hjobs : db'.jobs = db.jobs.put (job.advance payload))
    (hrescan : Rescan db job recordSize payload db') : ScanInv hash db' := by
  obtain ⟨hid, hepoch, hgen, hnext, hlast⟩ :
      (job.advance payload).id = job.id ∧
      (job.advance payload).sourceEpochId = job.sourceEpochId ∧
      (job.advance payload).terminalGeneration = job.terminalGeneration ∧
      (job.advance payload).committedNextOrdinal = payload.endOrdinal ∧
      (job.advance payload).lastChainDigest = some payload.resultingChainDigest := by
    dsimp only [Job.advance]
    split_ifs <;> exact ⟨rfl, rfl, rfl, rfl, rfl⟩
  have hchunk : ∀ x, x ∈ db'.chunks ↔ x ∈ db.chunks ∨ x = row := by
    intro x
    rw [Table.mem_def, hrows, List.mem_append, List.mem_singleton]
    exact Iff.rfl
  have hrange := payload.range
  have hbounds := payload.bounds
  refine ⟨hrescan.unique h.unique, fun x hx => ?_, fun x hx y hy hxy => ?_, fun x hx => ?_,
    fun y hy => ?_, fun y hy o ho => ?_⟩
  · rw [hjobs, Table.length_put]
    rcases (hchunk x).mp hx with hx | rfl
    · exact h.owners x hx
    · rw [howner]
      exact Table.rowId_lt hjob
  · rw [hjobs] at hy
    -- the table before holds a job of the same number and generation
    obtain ⟨z, hz, hzid, hzgen⟩ : ∃ z ∈ db.jobs, z.id = y.id ∧
        z.terminalGeneration = y.terminalGeneration := by
      rcases Table.of_mem_put hy with rfl | ⟨hy, -⟩
      · exact ⟨job, hjob, hid.symm, hgen.symm⟩
      · exact ⟨y, hy, rfl, rfl⟩
    rw [← hzid] at hxy
    rw [← hzgen]
    rcases (hchunk x).mp hx with hx | rfl
    · exact h.generation x hx z hz hxy
    · rw [Table.eq_of_rowId hz hjob (hxy.symm.trans howner)]
      exact hgeneration
  · rcases (hchunk x).mp hx with hx | rfl
    · exact h.sound x hx
    · rw [hreceipt]
      refine ⟨hrange, hbounds, ?_⟩
      simp only [ChunkRequest.receipt]
      rw [hcontinues.previous]
      exact hcontinues.resulting
  · rw [hjobs] at hy
    unfold ChunkChain jobChunks
    rw [hrows, List.filter_append]
    rcases Table.of_mem_put hy with rfl | ⟨hy, hne⟩
    · have hself : [row].filter (·.jobId == (job.advance payload).id) = [row] := by
        simp [howner, hid]
      have hlink : row.receipt.link = ⟨payload.startOrdinal, payload.endOrdinal,
          payload.previousChainDigest, payload.resultingChainDigest⟩ := by
        rw [hreceipt]
        rfl
      rw [hself, hid, hnext, hlast, List.map_append, List.map_singleton, hlink]
      exact (h.chained job hjob).concat hcontinues.start (by simp; omega) hcontinues.previous
    · have hother : [row].filter (·.jobId == y.id) = [] := by
        rw [List.filter_eq_nil_iff]
        intro x hx
        rw [List.mem_singleton.mp hx, howner, ← hid]
        simpa using fun heq => hne heq.symm
      rw [hother, List.append_nil]
      exact h.chained y hy
  · rw [hjobs] at hy
    rcases Table.of_mem_put hy with rfl | ⟨hy, -⟩
    · rw [hgen, hepoch]
      rw [hnext] at ho
      by_cases hold : o < job.committedNextOrdinal
      · exact hrescan.covered _ _ _ (h.covered job hjob o hold)
      · have hstart := hcontinues.start
        obtain ⟨source, hsource, rfl⟩ :=
          exists_of_ordinal payload.contiguous (o := o) (by omega) (by omega)
        exact hrescan.scanned source hsource
    · exact hrescan.covered _ _ _ (h.covered y hy o ho)

end Invariant

/-! ### Runs -/

/-- A probe judges a divergence that was opened in its job's current epoch, and an anchor leaves
the generation of a job that has committed records alone. -/
def InOwnLedger (db : Db D) : Call D → Prop
  | .anchor _ payload => ∀ job ∈ db.jobs.rows, job.id = payload.jobId →
      0 < job.committedNextOrdinal → payload.terminalGeneration = job.terminalGeneration
  | .probe _ payload => ∀ job ∈ db.jobs.rows, job.id = payload.jobId →
      ∀ divergence ∈ openDivergence db job payload.ordinal,
        divergence.sourceEpochId = job.sourceEpochId
  | _ => True

instance (db : Db D) (call : Call D) : Decidable (InOwnLedger db call) :=
  match call with
  | .anchor _ payload => inferInstanceAs (Decidable (∀ job ∈ db.jobs.rows,
      job.id = payload.jobId → 0 < job.committedNextOrdinal →
        payload.terminalGeneration = job.terminalGeneration))
  | .probe _ payload => inferInstanceAs (Decidable (∀ job ∈ db.jobs.rows,
      job.id = payload.jobId → ∀ divergence ∈ openDivergence db job payload.ordinal,
        divergence.sourceEpochId = job.sourceEpochId))
  | .create .. | .chunk .. | .release .. | .tail .. | .manifest .. | .fault _ | .heartbeat ..
  | .manage .. | .capture _ => inferInstanceAs (Decidable True)

lemma ScanInv.step {db db' : Db D} {call : Call D} (h : ScanInv hash db)
    (hmeets : InOwnLedger db call) (hrun : call.run hash db = .ok db') : ScanInv hash db' := by
  cases effect_of_run hrun with
  | quiet hquiet =>
    exact h.of_sameScans (hquiet.manifests.unique h.unique) hquiet.chunks hquiet.jobs
      fun _ _ _ => hquiet.manifests.covered
  | created closed rows new => exact h.created rows new
  | @anchored env payload job hjob =>
    refine h.of_putJob h.unique rfl hjob.mem rfl (fun _ _ _ => id) ⟨rfl, rfl, rfl, ?_, ?_⟩
    · exact hmeets job hjob.mem hjob.id
    · intro o ho hcovered
      have hgeneration := hmeets job hjob.mem hjob.id (Nat.zero_lt_of_lt ho)
      change Covered db.manifests payload.terminalGeneration job.sourceEpochId o
      rw [hgeneration]
      exact hcovered
  | scanned hjob size continues rows owner generation receipt tables rescan =>
    rw [tables] at rescan ⊢
    exact h.scanned hjob.mem continues rows owner generation receipt rfl rescan
  | extended active continues rows owner generation receipt tables extension =>
    rw [tables] at extension ⊢
    exact h.of_sameScans (extension.grows.unique h.unique) rfl (.refl _)
      fun _ _ _ => extension.grows.covered
  | @recovered env payload job _ divergence found hjob hopen hepoch hrecovered =>
    obtain ⟨_, _, _, htables⟩ := hrecovered.tables
    have hown := hmeets job hjob.mem hjob.id found hopen
    have hjobs : db'.jobs = db.jobs.put { job with
        sourceEpochId := db.epochs.rows.length, status := .queued, error := none } := by
      rw [htables]
    refine h.of_putJob (hrecovered.grows.unique h.unique) (by rw [htables]) hjob.mem hjobs
      (fun _ _ _ => hrecovered.grows.covered)
      ⟨rfl, rfl, rfl, fun _ => rfl, fun o ho hcovered => ?_⟩
    refine hrecovered.copied o ho ?_
    rw [hepoch, hown]
    exact hcovered
  | certified hjob hcertified =>
    obtain ⟨_, htables⟩ := hcertified.tables
    exact h.of_sameScans (by rw [htables]; exact h.unique) (by rw [htables]) hcertified.jobs
      (by rw [htables]; exact fun _ _ _ => id)

lemma ScanInv.of_run {db : Db D} (h : Run hash InOwnLedger db) : ScanInv hash db :=
  h.induction .blank fun h hmeets hrun => h.step hmeets hrun

/-- The chunks of a job in the order of their starts. -/
def sortedChunks (db : Db D) (job : Job D) : List (Chunk D) :=
  (db.chunks.rows.filter (·.jobId == job.id)).mergeSort fun x y => x.startOrdinal ≤ y.startOrdinal

/-- Integrity of every job's ledger, in every run in which probes and anchors stay in their job's
own ledger. -/
theorem source_ledger_integrity {db : Db D} (h : Run hash InOwnLedger db) :
    ∀ job ∈ db.jobs,
      Chained 0 none ((sortedChunks db job).map (·.receipt.link)) job.committedNextOrdinal
        job.lastChainDigest ∧
      (∀ chunk ∈ sortedChunks db job, 1 ≤ chunk.recordCount ∧ chunk.recordCount ≤ 100 ∧
        chunk.endOrdinal = chunk.startOrdinal + chunk.recordCount) ∧
      (job.committedNextOrdinal ≤ coverageProofMaxRecords →
        committedChainProof hash (jobReceipts db job) 0 job.committedNextOrdinal none
          (job.lastChainDigest.getD hash.zeros) = .ok ()) ∧
      ∀ o < job.committedNextOrdinal, ∃! m, m ∈ db.manifests ∧
        m.Canonical job.terminalGeneration job.sourceEpochId o := by
  intro job hjob
  have hinv := ScanInv.of_run h
  have hchain := hinv.chained job hjob
  have hsorted : sortedChunks db job = jobChunks db job := hchain.mergeSort_eq
  have hmem : ∀ chunk ∈ jobChunks db job, chunk ∈ db.chunks ∧ chunk.jobId = job.id := by
    intro chunk hchunk
    obtain ⟨hchunk, howner⟩ := List.mem_filter.mp hchunk
    exact ⟨hchunk, by simpa using howner⟩
  rw [hsorted]
  refine ⟨hchain, fun chunk hchunk => ?_, fun hlimit => ?_, fun o ho => ?_⟩
  · have hsound := hinv.sound chunk (hmem chunk hchunk).1
    exact ⟨hsound.bounds.1, hsound.bounds.2, hsound.count⟩
  · -- the proof reads the chunks of the job's generation, and these are all of them
    have hreceipts : jobReceipts db job = (jobChunks db job).map Chunk.receipt := by
      rw [jobReceipts, jobChunks]
      congr 1
      refine List.filter_congr fun chunk hchunk => ?_
      by_cases howner : chunk.jobId = job.id
      · simp [howner, hinv.generation chunk hchunk job hjob howner]
      · simp [howner]
    rw [hreceipts]
    refine committedChainProof_ok (by rw [List.map_map]; exact hchain) ?_ hlimit
    intro row hrow
    obtain ⟨chunk, hchunk, rfl⟩ := List.mem_map.mp hrow
    exact hinv.sound chunk (hmem chunk hchunk).1
  · obtain ⟨m, hm, hcanonical⟩ := hinv.covered job hjob o ho
    exact ⟨m, ⟨hm, hcanonical⟩, fun x hx => hinv.unique x hx.1 m hm _ _ _ hx.2 hcanonical⟩

/-! ### A stale divergence -/

/-- One job reads four records and is cancelled. A second job meets two changed records, at the
ordinals 1 and 2. Fresh reads confirm the first change, and the job goes on in a recovery epoch,
up to ordinal 5. -/
def recoveredCalls : List (Call (List Nat)) :=
  let old := fun ordinal : Nat => plainPunch 16 ordinal (ordinal.toUInt8 + 1)
  let new := fun ordinal : Nat => plainPunch 16 ordinal (ordinal.toUInt8 + 101)
  let first := plainChunk 1 0 none (old 0) []
  let digest := some first.resultingChainDigest
  [.create plainEnv 1, .anchor plainEnv (plainAnchor 0 4 (old 0) 16 layout_sixteen),
    .chunk plainEnv (plainChunk 0 0 none (old 0) [old 1, old 2, old 3]),
    .manage 0 .cancelled none none none none,
    .create plainEnv 1, .anchor plainEnv (plainAnchor 1 6 (old 0) 16 layout_sixteen),
    .chunk plainEnv first,
    .chunk plainEnv (plainChunk 1 1 digest (new 1) []),
    .chunk plainEnv (plainChunk 1 1 digest (old 1) [new 2]),
    .probe plainEnv (plainProbe 1 (new 1) 16 layout_sixteen),
    .probe plainEnv (plainProbe 1 (new 1) 16 layout_sixteen),
    .chunk plainEnv (plainChunk 1 1 digest (new 1) [new 2, new 3, new 4])]

theorem source_ledger_integrity_recovered :
    ∃ db job, Run plainHash InOwnLedger db ∧ job ∈ db.jobs ∧ job.committedNextOrdinal = 5 ∧
      job.sourceEpochId = 1 ∧
      committedChainProof plainHash (jobReceipts db job) 0 job.committedNextOrdinal none
        (job.lastChainDigest.getD plainHash.zeros) = .ok () ∧
      ∀ o < job.committedNextOrdinal, ∃! m, m ∈ db.manifests ∧
        m.Canonical job.terminalGeneration job.sourceEpochId o := by
  obtain ⟨db, hdb⟩ : ∃ db, replay plainHash InOwnLedger (Db.blank (some "T")) recoveredCalls =
      some db := Option.isSome_iff_exists.mp (by decide +kernel)
  have hrun : Run plainHash InOwnLedger db := (Run.start _).of_replay hdb
  have hjob : ∃ job ∈ db.jobs.rows, job.committedNextOrdinal = 5 ∧ job.sourceEpochId = 1 := by
    have : ∃ db ∈ replay plainHash InOwnLedger (Db.blank (some "T")) recoveredCalls,
        ∃ job ∈ db.jobs.rows, job.committedNextOrdinal = 5 ∧ job.sourceEpochId = 1 := by
      decide +kernel
    obtain ⟨x, hx, hjob⟩ := this
    rw [Option.mem_def, hdb, Option.some_inj] at hx
    exact hx ▸ hjob
  obtain ⟨job, hjob, hcommitted, hepoch⟩ := hjob
  obtain ⟨-, -, hproof, hrows⟩ := source_ledger_integrity hrun job hjob
  refine ⟨db, job, hrun, hjob, hcommitted, hepoch, hproof ?_, hrows⟩
  rw [hcommitted]
  decide

/-- Fresh reads of the second change then activate one more epoch. -/
def staleDivergenceCalls : List (Call (List Nat)) :=
  recoveredCalls ++ [.probe plainEnv (plainProbe 1 (plainPunch 16 2 103) 16 layout_sixteen),
    .probe plainEnv (plainProbe 1 (plainPunch 16 2 103) 16 layout_sixteen)]

/-- The prefix of that epoch is copied from the one the divergence was opened in, which has no row
for ordinal 4. -/
theorem stale_divergence_loses_row :
    ∃ db, replay plainHash (fun _ _ => True) (Db.blank (some "T")) staleDivergenceCalls = some db ∧
      Run plainHash (fun _ _ => True) db ∧ ∃ job ∈ db.jobs, 4 < job.committedNextOrdinal ∧
        ¬ ∃ m ∈ db.manifests, m.Canonical job.terminalGeneration job.sourceEpochId 4 := by
  have hlost : ∃ db ∈ replay plainHash (fun _ _ => True) (Db.blank (some "T"))
      staleDivergenceCalls, ∃ job ∈ db.jobs.rows, 4 < job.committedNextOrdinal ∧
        db.sourceRow job.terminalGeneration job.sourceEpochId 4 = none := by
    decide +kernel
  obtain ⟨db, hdb, job, hjob, hlt, hnone⟩ := hlost
  exact ⟨db, hdb, (Run.start _).of_replay hdb, job, hjob, hlt, sourceRow_eq_none.mp hnone⟩

end Reconciliation
