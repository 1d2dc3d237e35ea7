import AutoAttn.Reconciliation.Effects

/-!
# The active coverage

At most one coverage is active, its tails form a chain from the certificate to the committed
cursor, and no call moves that cursor back.
-/

namespace Reconciliation

open ChainedRanges (Link Chained)

variable {D : Type}

/-- The tails of a coverage, in the order they were committed. -/
def coverageTails (db : Db D) (coverage : Coverage D) : List (Link D) :=
  (db.tailChunks.rows.filter (·.coverageId == coverage.id)).map (·.receipt.link)

/-- The tails of a coverage lead from its certificate to its committed cursor. -/
def TailChain (db : Db D) (c : Coverage D) : Prop :=
  Chained c.certifiedSourceCursor (some c.sourceChainDigest) (coverageTails db c)
    c.sourceCommittedCursor (some c.sourceCommittedChainDigest)

structure CoverageInv (db : Db D) : Prop where
  single : ∀ c ∈ db.coverages, ∀ c' ∈ db.coverages, c.active = true → c'.active = true → c = c'
  tailed : ∀ tail ∈ db.tailChunks, tail.coverageId < db.coverages.rows.length
  chained : ∀ c ∈ db.coverages, TailChain db c

lemma CoverageInv.blank (serial : Option String) : CoverageInv (Db.blank serial : Db D) :=
  ⟨nofun, nofun, nofun⟩

/-- Coverages that are withdrawn keep their tails. -/
lemma TailChain.withdrawn {db db' : Db D} {c c' : Coverage D} (h : TailChain db c)
    (htails : db'.tailChunks = db.tailChunks)
    (heq : c' = { c with active := c'.active, invalidatedReason := c'.invalidatedReason }) :
    TailChain db' c' := by
  rw [heq]
  unfold TailChain coverageTails
  rw [htails]
  exact h

/-- The invariant speaks about coverages and their tails alone. -/
lemma CoverageInv.of_withdrawn {db db' : Db D} (h : CoverageInv db)
    (htails : db'.tailChunks = db.tailChunks) (hcoverages : Withdrawn db.coverages db'.coverages) :
    CoverageInv db' where
  single c hc c' hc' hactive hactive' := by
    obtain ⟨x, hx, hxactive, -⟩ := hcoverages.rows c hc
    obtain ⟨x', hx', hxactive', -⟩ := hcoverages.rows c' hc'
    obtain rfl := hxactive hactive
    obtain rfl := hxactive' hactive'
    exact h.single c hx c' hx' hactive hactive'
  tailed tail htail := by
    rw [htails] at htail
    rw [hcoverages.length]
    exact h.tailed tail htail
  chained c hc := by
    obtain ⟨x, hx, -, heq⟩ := hcoverages.rows c hc
    exact (h.chained x hx).withdrawn htails heq

variable {db db' : Db D}

lemma CoverageInv.activeCoverage_eq_some (h : CoverageInv db) {c : Coverage D} :
    db.activeCoverage = some c ↔ c ∈ db.coverages ∧ c.active = true := by
  refine ⟨Reconciliation.activeCoverage_eq_some, fun ⟨hc, hactive⟩ => ?_⟩
  obtain ⟨x, hx⟩ : ∃ x, db.activeCoverage = some x := by
    rw [← Option.isSome_iff_exists, Db.activeCoverage, List.find?_isSome]
    exact ⟨c, hc, hactive⟩
  obtain ⟨hmem, hxactive⟩ := Reconciliation.activeCoverage_eq_some hx
  rw [hx, h.single x hmem c hc hxactive hactive]

/-! ### Each step keeps the invariant -/

/-- The coverage after a committed tail. -/
def Coverage.extended (c : Coverage D) (payload : TailRequest D) : Coverage D :=
  { c with
    sourceCommittedCursor := payload.endOrdinal
    sourceCommittedChainDigest := payload.resultingChainDigest }

lemma CoverageInv.extended (h : CoverageInv db) {hash : Hash D} {c : Coverage D}
    {payload : TailRequest D} {row : TailChunk D} (hc : c ∈ db.coverages)
    (hcontinues : Extends hash c payload) (hrows : db'.tailChunks.rows = db.tailChunks.rows ++ [row])
    (howner : row.coverageId = c.id) (hreceipt : row.receipt = payload.receipt)
    (hcoverages : db'.coverages = db.coverages.put (c.extended payload)) : CoverageInv db' where
  single x hx x' hx' hactive hactive' := by
    rw [hcoverages] at hx hx'
    rcases Table.of_mem_put hx with rfl | ⟨hx, hne⟩
    · rcases Table.of_mem_put hx' with rfl | ⟨hx', hne⟩
      · rfl
      · exact absurd (congrArg Coverage.id (h.single x' hx' c hc hactive' hactive)) hne
    · rcases Table.of_mem_put hx' with rfl | ⟨hx', -⟩
      · exact absurd (congrArg Coverage.id (h.single x hx c hc hactive hactive')) hne
      · exact h.single x hx x' hx' hactive hactive'
  tailed tail htail := by
    rw [hcoverages, Table.length_put]
    rw [Table.mem_def, hrows] at htail
    rcases List.mem_append.mp htail with htail | htail
    · exact h.tailed tail htail
    · rw [List.mem_singleton.mp htail, howner]
      exact Table.rowId_lt hc
  chained x hx := by
    rw [hcoverages] at hx
    unfold TailChain coverageTails
    rw [hrows, List.filter_append]
    rcases Table.of_mem_put hx with rfl | ⟨hx, hne⟩
    · have hself : [row].filter (·.coverageId == (c.extended payload).id) = [row] := by
        simp [howner, Coverage.extended]
      have hlink : row.receipt.link = ⟨payload.startOrdinal, payload.endOrdinal,
          some payload.previousChainDigest, payload.resultingChainDigest⟩ := by
        rw [hreceipt]
        rfl
      rw [hself, List.map_append, List.map_singleton, hlink]
      have hbounds := payload.bounds
      have hrange := payload.range
      exact (h.chained c hc).concat hcontinues.start (by simp; omega)
        (congrArg some hcontinues.previous)
    · have hother : [row].filter (·.coverageId == x.id) = [] := by
        rw [List.filter_eq_nil_iff]
        intro tail htail
        rw [List.mem_singleton.mp htail, howner]
        simpa using fun heq => hne heq.symm
      rw [hother, List.append_nil]
      exact h.chained x hx

lemma CoverageInv.certified (h : CoverageInv db) {job : Job D} {payload : ManifestRequest D}
    (hcertified : Certified db job payload db') : CoverageInv db' := by
  obtain ⟨t, c, hwithdrawn, hrows, -, -, -, hcertified', hcommitted, hchain, hactive⟩ :=
    hcertified.added
  have htails : db'.tailChunks = db.tailChunks := by
    obtain ⟨_, heq⟩ := hcertified.tables
    rw [heq]
  have hbefore : CoverageInv { db with coverages := t } := h.of_withdrawn rfl hwithdrawn
  have hmem : ∀ x, x ∈ db'.coverages ↔ x ∈ t ∨ x = c := by
    intro x
    rw [Table.mem_def, hrows, List.mem_append, List.mem_singleton]
    exact Iff.rfl
  have hid : c.id = t.rows.length := by
    have hids := db'.coverages.ids
    rw [hrows] at hids
    simpa [t.ids, List.range_succ] using hids
  refine ⟨fun x hx x' hx' hxactive hxactive' => ?_, fun tail htail => ?_, fun x hx => ?_⟩
  · rcases (hmem x).mp hx with hx | rfl
    · rcases (hmem x').mp hx' with hx' | rfl
      · exact hbefore.single x hx x' hx' hxactive hxactive'
      · rw [if_pos hxactive'] at hactive
        rw [hactive.1 x hx] at hxactive
        cases hxactive
    · rcases (hmem x').mp hx' with hx' | rfl
      · rw [if_pos hxactive] at hactive
        rw [hactive.1 x' hx'] at hxactive'
        cases hxactive'
      · rfl
  · have hlt := hbefore.tailed tail (htails ▸ htail)
    rw [hrows, List.length_append]
    exact Nat.lt_of_lt_of_le hlt (Nat.le_add_right _ _)
  · rcases (hmem x).mp hx with hx | rfl
    · exact (hbefore.chained x hx).withdrawn htails rfl
    · -- a new coverage has no tails yet
      have hnone : coverageTails db' x = [] := by
        rw [coverageTails, List.map_eq_nil_iff, List.filter_eq_nil_iff]
        intro tail htail
        have hlt := hbefore.tailed tail (htails ▸ htail)
        simp only [beq_iff_eq, hid]
        exact hlt.ne
      unfold TailChain
      rw [hnone, hcertified', hcommitted, hchain]
      exact ⟨rfl, rfl⟩

variable [DecidableEq D]

/-- Every call keeps the invariant. -/
lemma CoverageInv.step {hash : Hash D} {call : Call D} (h : CoverageInv db)
    (hrun : call.run hash db = .ok db') : CoverageInv db' := by
  cases effect_of_run hrun with
  | quiet hquiet => exact h.of_withdrawn hquiet.tailChunks hquiet.coverages
  | created closed rows new => exact h.of_withdrawn rfl (.refl _)
  | anchored job => exact h.of_withdrawn rfl (.refl _)
  | scanned job size continues rows owner generation receipt tables rescan =>
    rw [tables]
    exact h.of_withdrawn rfl (.refl _)
  | extended active continues rows owner generation receipt tables extension =>
    rw [tables]
    exact h.extended (Reconciliation.activeCoverage_eq_some active).1 continues rows owner receipt
      rfl
  | recovered job open_ epoch hrecovered =>
    obtain ⟨_, _, _, heq⟩ := hrecovered.tables
    exact h.of_withdrawn (by rw [heq]) hrecovered.withdrawn
  | certified job hcertified => exact h.certified hcertified

/-- Every run keeps the invariant. -/
lemma CoverageInv.of_run {hash : Hash D} {Meets : Db D → Call D → Prop} (h : Run hash Meets db) :
    CoverageInv db :=
  h.induction .blank fun h _ hrun => h.step hrun

/-! ### No call moves the cursor back -/

/-- The active coverage after a call is the one before it, unchanged or extended, or it was
certified by the call and replaces one that ended earlier or is older. -/
lemma CoverageInv.active_step {hash : Hash D} {call : Call D} (h : CoverageInv db)
    (hrun : call.run hash db = .ok db') {c c' : Coverage D} (hc : db.activeCoverage = some c)
    (hc' : db'.activeCoverage = some c') :
    c' = c ∨ (∃ payload, c' = c.extended payload ∧ c.sourceCommittedCursor ≤ payload.endOrdinal) ∨
      (c.terminalGeneration = c'.terminalGeneration ∧
          c.sourceCommittedCursor < c'.sourceCommittedCursor ∨
        c.terminalGeneration < c'.terminalGeneration) := by
  have hkept : Withdrawn db.coverages db'.coverages → c' = c := by
    intro hwithdrawn
    obtain ⟨hmem', hactive'⟩ := Reconciliation.activeCoverage_eq_some hc'
    obtain ⟨hmem, hactive⟩ := Reconciliation.activeCoverage_eq_some hc
    obtain ⟨x, hx, heq, -⟩ := hwithdrawn.rows c' hmem'
    obtain rfl := heq hactive'
    exact h.single c' hx c hmem hactive' hactive
  cases effect_of_run hrun with
  | quiet hquiet => exact .inl (hkept hquiet.coverages)
  | created closed rows new => exact .inl (hkept (.refl _))
  | anchored job => exact .inl (hkept (.refl _))
  | scanned job size continues rows owner generation receipt tables rescan =>
    exact .inl (hkept (by rw [tables]; exact .refl _))
  | @extended env payload coverage _ row _ _ _ active continues rows owner generation receipt
      tables extension =>
    obtain rfl := Option.some_inj.mp (active.symm.trans hc)
    obtain ⟨hmem, hactive⟩ := Reconciliation.activeCoverage_eq_some hc
    have hextended : CoverageInv db' := h.step hrun
    refine .inr (.inl ⟨payload, ?_, ?_⟩)
    · obtain ⟨hmem', hactive'⟩ := Reconciliation.activeCoverage_eq_some hc'
      refine hextended.single c' hmem' _ ?_ hactive' hactive
      rw [tables]
      exact Table.mem_put_self (r := coverage.extended payload) ⟨coverage, hmem, rfl⟩
    · have hrange := payload.range
      have hstart := continues.start
      omega
  | recovered job open_ epoch hrecovered => exact .inl (hkept hrecovered.withdrawn)
  | certified job hcertified =>
    obtain ⟨t, coverage, hwithdrawn, hrows, -, -, hgeneration, -, hcommitted, -, hactive⟩ :=
      hcertified.added
    obtain ⟨hmem', hactive'⟩ := Reconciliation.activeCoverage_eq_some hc'
    obtain ⟨hmem, hcactive⟩ := Reconciliation.activeCoverage_eq_some hc
    rw [Table.mem_def, hrows, List.mem_append, List.mem_singleton] at hmem'
    rcases hmem' with hmem' | rfl
    · obtain ⟨x, hx, heq, -⟩ := hwithdrawn.rows c' hmem'
      obtain rfl := heq hactive'
      exact .inl (h.single c' hx c hmem hactive' hcactive)
    · rw [if_pos hactive'] at hactive
      rw [hgeneration, hcommitted]
      exact .inr (.inr (hactive.2 c hmem hcactive))

/-- Coverage never regresses silently. In every reachable state at most one coverage is active and
its tails are a linked chain from its certificate to its committed cursor. A call that leaves a
coverage of the same generation and epoch active does not move the cursor back. A manifest keeps
the active coverage as it is, or replaces it by a longer one of the same generation or by one of
a newer generation. -/
theorem coverage_never_regresses {hash : Hash D} (h : Run hash (fun _ _ => True) db) :
    (∀ c ∈ db.coverages, ∀ c' ∈ db.coverages, c.active = true → c'.active = true → c = c') ∧
    (∀ c, db.activeCoverage = some c →
      Chained c.certifiedSourceCursor (some c.sourceChainDigest) (coverageTails db c)
        c.sourceCommittedCursor (some c.sourceCommittedChainDigest)) ∧
    (∀ call db' c c', Call.run hash db call = .ok db' → db.activeCoverage = some c →
      db'.activeCoverage = some c' → c'.terminalGeneration = c.terminalGeneration →
      c'.sourceEpochId = c.sourceEpochId → c.sourceCommittedCursor ≤ c'.sourceCommittedCursor) ∧
    ∀ env payload db' c, Call.run hash db (.manifest env payload) = .ok db' →
      db.activeCoverage = some c → db'.activeCoverage = some c ∨
        ∃ c', db'.activeCoverage = some c' ∧ c'.jobId = payload.jobId ∧
          c'.sourceCommittedCursor = payload.cutoffCount ∧
          (c'.terminalGeneration = c.terminalGeneration ∧
              c.sourceCommittedCursor < payload.cutoffCount ∨
            c.terminalGeneration < c'.terminalGeneration) := by
  have hinv := CoverageInv.of_run h
  refine ⟨hinv.single, fun c hc => ?_, fun call db' c c' hrun hc hc' hgeneration _ => ?_,
    fun env payload db' c hrun hc => ?_⟩
  · exact hinv.chained c (Reconciliation.activeCoverage_eq_some hc).1
  · rcases hinv.active_step hrun hc hc' with rfl | ⟨payload, rfl, hle⟩ | hlonger | hnewer
    · exact le_rfl
    · exact hle
    · exact hlonger.2.le
    · omega
  · have hinv' : CoverageInv db' := hinv.step hrun
    obtain ⟨hmem, hactive⟩ := Reconciliation.activeCoverage_eq_some hc
    rcases applyReconciliationManifest_ok hrun with ⟨-, hsame⟩ | ⟨job, hjob, hcertified⟩
    · left
      rw [hinv'.activeCoverage_eq_some, hsame]
      exact ⟨hmem, hactive⟩
    · obtain ⟨t, coverage, -, hrows, hjobId, -, hgeneration, -, hcommitted, -, hactive'⟩ :=
        hcertified.added
      have hin : ∀ x, x ∈ db'.coverages ↔ x ∈ t ∨ x = coverage := by
        intro x
        rw [Table.mem_def, hrows, List.mem_append, List.mem_singleton]
        exact Iff.rfl
      cases hnew : coverage.active with
      | true =>
        rw [if_pos hnew] at hactive'
        refine .inr ⟨coverage, ?_, hjobId.trans hjob.id, hcommitted, ?_⟩
        · exact hinv'.activeCoverage_eq_some.mpr ⟨(hin coverage).mpr (.inr rfl), hnew⟩
        · rw [hgeneration]
          exact (hactive'.2 c hmem hactive).imp_left fun hlt => ⟨hlt.1.symm, hlt.2⟩
      | false =>
        rw [hnew, if_neg Bool.false_ne_true] at hactive'
        subst hactive'
        left
        rw [hinv'.activeCoverage_eq_some]
        exact ⟨(hin c).mpr (.inl hmem), hactive⟩

/-- A job of one record is certified, a tail extends its coverage. -/
def extendedCoverageCalls : List (Call (List Nat)) :=
  let first := plainPunch 16 0 1
  let chunk := plainChunk 0 0 none first []
  [.create plainEnv 1, .anchor plainEnv (plainAnchor 0 1 first 16 layout_sixteen),
    .chunk plainEnv chunk, .manifest plainEnv (plainManifest 0 1 chunk.resultingChainDigest),
    .tail plainEnv (plainTail chunk.resultingChainDigest (plainPunch 16 1 2) 16 layout_sixteen)]

theorem coverage_never_regresses_extended :
    ∃ db c, Run plainHash (fun _ _ => True) db ∧ db.activeCoverage = some c ∧
      c.certifiedSourceCursor = 1 ∧ c.sourceCommittedCursor = 2 ∧
      Chained c.certifiedSourceCursor (some c.sourceChainDigest) (coverageTails db c)
        c.sourceCommittedCursor (some c.sourceCommittedChainDigest) := by
  obtain ⟨db, hdb⟩ : ∃ db, replay plainHash (fun _ _ => True) (Db.blank (some "T"))
      extendedCoverageCalls = some db := Option.isSome_iff_exists.mp (by decide +kernel)
  have hrun : Run plainHash (fun _ _ => True) db := (Run.start _).of_replay hdb
  have hcursors : (db.activeCoverage.map fun c =>
      (c.certifiedSourceCursor, c.sourceCommittedCursor)) = some (1, 2) := by
    have : ((replay plainHash (fun _ _ => True) (Db.blank (some "T")) extendedCoverageCalls).bind
        fun db => db.activeCoverage.map fun c =>
          (c.certifiedSourceCursor, c.sourceCommittedCursor)) = some (1, 2) := by decide +kernel
    rwa [hdb] at this
  obtain ⟨c, hc, hpair⟩ := Option.map_eq_some_iff.mp hcursors
  obtain ⟨hcertified, hcommitted⟩ := Prod.mk.inj hpair
  exact ⟨db, c, hrun, hc, hcertified, hcommitted, (coverage_never_regresses hrun).2.1 c hc⟩

end Reconciliation
