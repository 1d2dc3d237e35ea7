import AutoAttn.Reconciliation.Effects

/-!
# One record size for a ledger

A chunk is checked against the size its job was anchored with. A tail names a size of its own,
which no check compares with the job that certified its coverage.
-/

namespace Reconciliation

variable {D : Type} {db db' : Db D} {R : Nat}

/-- What the inventory proof asks of a row, apart from its serial. -/
structure SoundRow (R : Nat) (m : Manifest D) : Prop where
  size : m.recordSize = R
  raw : m.protectedRawRecord.isSome = true
  occurrence : 1 ≤ m.occurrenceIndex

/-- A job that was anchored with the size. -/
def AnchoredWith (R : Nat) (t : Table (Job D)) (id : Nat) : Prop :=
  ∃ job ∈ t, job.id = id ∧ job.recordSize = some R

structure SizeInv (R : Nat) (db : Db D) : Prop where
  rows : ∀ m ∈ db.manifests, m.canonicalSource = true → SoundRow R m
  jobs : ∀ job ∈ db.jobs, job.cutoffCount ≠ none ∨ job.recordSize ≠ none →
    job.recordSize = some R
  coverages : ∀ c ∈ db.coverages, AnchoredWith R db.jobs c.jobId

lemma SizeInv.blank (serial : Option String) : SizeInv R (Db.blank serial : Db D) where
  rows m hm := (Table.not_mem_empty m hm).elim
  jobs job hjob := (Table.not_mem_empty job hjob).elim
  coverages c hc := (Table.not_mem_empty c hc).elim

lemma SizeInv.jobs_of_sameScans (h : SizeInv R db) (hjobs : SameScans db.jobs db'.jobs) :
    ∀ job ∈ db'.jobs, job.cutoffCount ≠ none ∨ job.recordSize ≠ none →
      job.recordSize = some R := by
  intro job' hjob'
  obtain ⟨job, hjob, hsame⟩ := hjobs.rows job' hjob'
  rw [hsame.same]
  exact h.jobs job hjob

lemma AnchoredWith.of_sameScans {t t' : Table (Job D)} (hjobs : SameScans t t') {id : Nat}
    (h : AnchoredWith R t id) : AnchoredWith R t' id := by
  obtain ⟨job, hjob, rfl, hsize⟩ := h
  obtain ⟨job', hjob', hsame⟩ := hjobs.exists_of_mem hjob
  exact ⟨job', hjob', hsame.id, by rw [hsame.same]; exact hsize⟩

/-- A job that is put back with the size keeps every anchored job. -/
lemma AnchoredWith.put {t : Table (Job D)} {job job' : Job D} (hjob : job ∈ t)
    (hid : job'.id = job.id) (hsize : job'.recordSize = some R) {id : Nat}
    (h : AnchoredWith R t id) : AnchoredWith R (t.put job') id := by
  obtain ⟨x, hx, rfl, hxsize⟩ := h
  by_cases heq : x.id = job'.id
  · exact ⟨job', Table.mem_put_self ⟨job, hjob, hid.symm⟩, heq.symm, hsize⟩
  · exact ⟨x, Table.mem_put_of_ne hx heq, rfl, hxsize⟩

lemma Withdrawn.jobId {t t' : Table (Coverage D)} (h : Withdrawn t t') {c' : Coverage D}
    (hc' : c' ∈ t') : ∃ c ∈ t, c'.jobId = c.jobId := by
  obtain ⟨c, hc, -, heq⟩ := h.rows c' hc'
  exact ⟨c, hc, by rw [heq]⟩

/-- A job put back with the size keeps the invariant. -/
lemma SizeInv.of_putJob (h : SizeInv R db) {job job' : Job D} (hjob : job ∈ db.jobs)
    (hid : job'.id = job.id) (hsize : job'.recordSize = some R)
    (hjobs : db'.jobs = db.jobs.put job')
    (hrows : ∀ m ∈ db'.manifests, m.canonicalSource = true → SoundRow R m)
    (hcoverages : ∀ c' ∈ db'.coverages, ∃ c ∈ db.coverages, c'.jobId = c.jobId) :
    SizeInv R db' where
  rows := hrows
  jobs x hx := by
    rw [hjobs] at hx
    rcases Table.of_mem_put hx with rfl | ⟨hx, -⟩
    · exact fun _ => hsize
    · exact h.jobs x hx
  coverages c' hc' := by
    obtain ⟨c, hc, heq⟩ := hcoverages c' hc'
    rw [hjobs, heq]
    exact (h.coverages c hc).put hjob hid hsize

/-- Calls that put no other job in place keep the invariant. -/
lemma SizeInv.of_sameScans (h : SizeInv R db) (hjobs : SameScans db.jobs db'.jobs)
    (hrows : ∀ m ∈ db'.manifests, m.canonicalSource = true → SoundRow R m)
    (hcoverages : ∀ c' ∈ db'.coverages, ∃ c ∈ db.coverages, c'.jobId = c.jobId) :
    SizeInv R db' where
  rows := hrows
  jobs := h.jobs_of_sameScans hjobs
  coverages c' hc' := by
    obtain ⟨c, hc, heq⟩ := hcoverages c' hc'
    rw [heq]
    exact (h.coverages c hc).of_sameScans hjobs

lemma StoredRead.soundRow {source : SourceRecord D} {m : Manifest D}
    (h : StoredRead db R source m) (hraw : source.rawRecord.isSome = true) : SoundRow R m :=
  ⟨h.recordSize, h.raw ▸ hraw, h.occurrence ▸ source.occurrence_pos⟩

/-- Every anchor and every tail declares the record size `R`. -/
def DeclaresSize (R : Nat) : Call D → Prop
  | .anchor _ payload => payload.recordSize = R
  | .tail _ payload   => payload.recordSize = R
  | _                 => True

instance (call : Call D) : Decidable (DeclaresSize R call) :=
  match call with
  | .anchor _ payload => inferInstanceAs (Decidable (payload.recordSize = R))
  | .tail _ payload => inferInstanceAs (Decidable (payload.recordSize = R))
  | .create .. | .chunk .. | .release .. | .probe .. | .manifest .. | .fault _ | .heartbeat ..
  | .manage .. | .capture _ => inferInstanceAs (Decidable True)

variable [DecidableEq D] {hash : Hash D}

lemma SizeInv.step {call : Call D} (h : SizeInv R db) (hmeets : DeclaresSize R call)
    (hrun : call.run hash db = .ok db') : SizeInv R db' := by
  cases effect_of_run hrun with
  | quiet hquiet =>
    refine h.of_sameScans hquiet.jobs (fun m hm hc => ?_) fun c' hc' => hquiet.coverages.jobId hc'
    rcases hquiet.manifests.new m hm with hm | ⟨hnew, -⟩
    · exact h.rows m hm hc
    · rw [hnew] at hc
      cases hc
  | @created env generation epochs jobs new closed hrows hnew =>
    have hmem : ∀ x, x ∈ jobs ↔ x ∈ db.jobs ∨ x = new := by
      intro x
      rw [Table.mem_def, hrows, List.mem_append, List.mem_singleton]
      exact Iff.rfl
    refine ⟨h.rows, fun job hjob hanchored => ?_, fun c hc => ?_⟩
    · rcases (hmem job).mp hjob with hjob | rfl
      · exact h.jobs job hjob hanchored
      · simp [hnew.cutoff, hnew.size] at hanchored
    · obtain ⟨job, hjob, heq⟩ := h.coverages c hc
      exact ⟨job, (hmem job).mpr (.inl hjob), heq⟩
  | anchored hjob =>
    refine h.of_putJob hjob.mem ?_ ?_ rfl h.rows fun c hc => ⟨c, hc, rfl⟩
    · rfl
    · exact congrArg some hmeets
  | @scanned env payload job recordSize _ row _ _ _ hjob hsize hcontinues rows owner generation
      receipt tables hrescan =>
    obtain rfl : recordSize = R := by
      have := h.jobs job hjob.mem (.inr (by simp [hsize]))
      exact Option.some_inj.mp (hsize.symm.trans this)
    obtain ⟨hid, hsize'⟩ : (job.advance payload).id = job.id ∧
        (job.advance payload).recordSize = some recordSize := by
      dsimp only [Job.advance]
      split_ifs <;> exact ⟨rfl, hsize⟩
    refine h.of_putJob hjob.mem hid hsize' (by rw [tables]) (fun m hm hc => ?_)
      (by rw [tables]; exact fun c hc => ⟨c, hc, rfl⟩)
    rcases hrescan.canonical m hm hc with hm | ⟨source, hs, hread⟩
    · exact h.rows m hm hc
    · exact hread.soundRow (hcontinues.verified source hs)
  | @extended env payload coverage _ row _ _ _ active hcontinues rows owner generation receipt
      tables hextension =>
    refine h.of_sameScans (by rw [tables]; exact .refl _) (fun m hm hc => ?_) fun c' hc' => ?_
    · rcases hextension.grows.new m hm with hm | ⟨-, source, hs, hread⟩
      · exact h.rows m hm hc
      · obtain rfl : payload.recordSize = R := hmeets
        exact hread.soundRow (hcontinues.verified source hs)
    · rw [tables] at hc'
      rcases Table.of_mem_put hc' with rfl | ⟨hc', -⟩
      · exact ⟨coverage, (activeCoverage_eq_some active).1, rfl⟩
      · exact ⟨c', hc', rfl⟩
  | @recovered env payload job _ divergence found hjob hopen hepoch hrecovered =>
    obtain ⟨_, _, _, htables⟩ := hrecovered.tables
    have hrows : ∀ m ∈ db'.manifests, m.canonicalSource = true → SoundRow R m := by
      intro m hm hc
      rcases hrecovered.grows.new m hm with hm | ⟨prior, hprior, hcanonical, heq⟩
      · exact h.rows m hm hc
      · have hsound := h.rows prior hprior hcanonical
        rw [heq]
        exact ⟨hsound.size, hsound.raw, hsound.occurrence⟩
    have hjobs : db'.jobs = db.jobs.put { job with
        sourceEpochId := db.epochs.rows.length, status := .queued, error := none } := by
      rw [htables]
    refine ⟨hrows, fun x hx => ?_, fun c' hc' => ?_⟩
    · rw [hjobs] at hx
      rcases Table.of_mem_put hx with rfl | ⟨hx, -⟩
      · exact h.jobs job hjob.mem
      · exact h.jobs x hx
    · obtain ⟨c, hc, heq⟩ := hrecovered.withdrawn.jobId hc'
      obtain ⟨x, hx, hid, hsize⟩ := h.coverages c hc
      rw [hjobs, heq]
      by_cases hsame : x.id = job.id
      · obtain rfl := Table.eq_of_rowId hx hjob.mem hsame
        exact ⟨_, Table.mem_put_self ⟨x, hx, rfl⟩, hid, hsize⟩
      · exact ⟨x, Table.mem_put_of_ne hx hsame, hid, hsize⟩
  | @certified env payload job _ hjob hcertified =>
    obtain ⟨_, htables⟩ := hcertified.tables
    obtain ⟨t, c, hwithdrawn, hrows, hjobId, -⟩ := hcertified.added
    refine ⟨by rw [htables]; exact h.rows, h.jobs_of_sameScans hcertified.jobs, fun x hx => ?_⟩
    rw [Table.mem_def, hrows, List.mem_append, List.mem_singleton] at hx
    rcases hx with hx | rfl
    · obtain ⟨y, hy, heq⟩ := hwithdrawn.jobId hx
      rw [heq]
      exact (h.coverages y hy).of_sameScans hcertified.jobs
    · have hsize := h.jobs job hjob.mem (.inl (by simp [hcertified.cutoff]))
      exact AnchoredWith.of_sameScans hcertified.jobs ⟨job, hjob.mem, hjobId.symm, hsize⟩

lemma SizeInv.of_run (h : Run hash (fun _ => DeclaresSize R) db) : SizeInv R db :=
  h.induction .blank fun h hmeets hrun => h.step hmeets hrun

/-- A job of one record is certified, and a tail of records of a size extends its coverage. -/
def sizedTailCalls (size : Nat) (layout : size ∈ sourceSizes) : List (Call (List Nat)) :=
  let first := plainPunch 16 0 1
  let chunk := plainChunk 0 0 none first []
  [.create plainEnv 1, .anchor plainEnv (plainAnchor 0 1 first 16 layout_sixteen),
    .chunk plainEnv chunk, .manifest plainEnv (plainManifest 0 1 chunk.resultingChainDigest),
    .tail plainEnv (plainTail chunk.resultingChainDigest (plainPunch size 1 2) size layout)]

end Reconciliation
