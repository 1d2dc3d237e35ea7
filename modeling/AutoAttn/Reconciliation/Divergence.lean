import AutoAttn.Reconciliation.Effects

/-!
# Divergences and fresh reads

A divergence is opened by a chunk and judged by fresh probes. As long as no chunk is compared again
at its ordinal, every later observation of it is a fresh probe, and the source change is adopted
only when the last two of them carry it.
-/

namespace Reconciliation

variable {D : Type}

/-! ### Observations and their verdict -/

/-- The divergence is still probed. -/
def Divergence.isOpen (d : Divergence D) : Bool := d.state == .observed || d.state == .probing

/-- The divergence after a fresh read of its ordinal. -/
def Divergence.probed (d : Divergence D) (source : SourceRecord D) : Divergence D :=
  { d with
    observations := d.observations ++
      [⟨.freshSourceProbe, source.rawRecordDigest, source.disposition⟩] }

/-- The observations of a divergence are the chunk that opened it and fresh probes. -/
def Divergence.FreshSinceOpened (d : Divergence D) : Prop :=
  ∃ opening probes, d.observations = opening :: probes ∧ opening.kind = .reconciliationChunk ∧
    ∀ item ∈ probes, item.kind = .freshSourceProbe

lemma Divergence.FreshSinceOpened.probed {d : Divergence D} (h : d.FreshSinceOpened)
    (source : SourceRecord D) : (d.probed source).FreshSinceOpened := by
  obtain ⟨opening, probes, hobservations, hopening, hprobes⟩ := h
  refine ⟨opening, probes ++ [⟨.freshSourceProbe, source.rawRecordDigest, source.disposition⟩],
    ?_, hopening, fun item hitem => ?_⟩
  · rw [Divergence.probed, hobservations, List.cons_append]
  · rcases List.mem_append.mp hitem with hitem | hitem
    · exact hprobes item hitem
    · rw [List.mem_singleton.mp hitem]

lemma probeDigests_probed (d : Divergence D) (source : SourceRecord D) :
    probeDigests (d.probed source).observations =
      probeDigests d.observations ++ [source.rawRecordDigest] := by
  simp [probeDigests, Divergence.probed]

lemma probeDigests_of_fresh {opening : Observation D} {probes : List (Observation D)}
    (hopening : opening.kind = .reconciliationChunk)
    (hprobes : ∀ item ∈ probes, item.kind = .freshSourceProbe) :
    probeDigests (opening :: probes) = probes.map (·.rawRecordDigest) := by
  have hfilter : probes.filter (·.kind == .freshSourceProbe) = probes := by
    rw [List.filter_eq_self]
    intro item hitem
    simp [hprobes item hitem]
  have hskip : (opening.kind == .freshSourceProbe) = false := by rw [hopening]; rfl
  rw [probeDigests, List.filter_cons_of_neg (by simp [hskip]), hfilter]

/-- What the observations of a divergence lead to. -/
inductive Verdict (D : Type) where
  /-- the old bytes were read again -/
  | transient
  /-- `_activate_recovery_epoch` is called for this divergence -/
  | adopted (divergence : Divergence D)
  | undecided

/-- The divergence a recovery epoch is activated for. -/
def Verdict.judged? : Verdict D → Option (Divergence D)
  | .adopted divergence => some divergence
  | _ => none

lemma Verdict.judged?_eq_some {v : Verdict D} {d : Divergence D} :
    v.judged? = some d ↔ v = .adopted d := by
  cases v <;> simp [Verdict.judged?]

variable [DecidableEq D]

/-- The cases `apply_source_probe_result` tells apart. -/
def verdict (divergence : Divergence D) : Verdict D :=
  let observations := divergence.observations
  let recent := probeDigests observations
  if 2 ≤ recent.length ∧ recent.drop (recent.length - 2) =
      [divergence.oldRawDigest, divergence.oldRawDigest] then .transient
  else if 3 ≤ observations.length ∧ ∀ item ∈ observations.drop (observations.length - 3),
      item.rawRecordDigest = divergence.newRawDigest then .adopted divergence
  else if 3 ≤ recent.length ∧
      (recent.drop (recent.length - 3)).all (fun digest => some digest = recent.getLast?) then
    let stable := observations.reverse.find? fun item =>
      item.kind == .freshSourceProbe && decide (some item.rawRecordDigest = recent.getLast?)
    .adopted { divergence with
      newRawDigest := recent.getLast?.getD divergence.newRawDigest
      newDisposition := stable.elim divergence.newDisposition (·.disposition) }
  else .undecided

lemma judgeProbe_eq (env : Env D) (db : Db D) (job : Job D) (divergence : Divergence D) :
    judgeProbe env db job divergence =
      match verdict divergence with
      | .transient =>
        .ok ((db.putDivergence { divergence with state := .transientRecovered }).putJob
          { job with status := .queued })
      | .adopted judged => activateRecoveryEpoch env db job judged
      | .undecided =>
        if divergence.createdAt + 15 * 60 ≤ env.now then
          .ok ((db.putDivergence { divergence with state := .unstableReviewRequired }).putJob
            { job with
              status := .needsAttention
              error := some ("SOURCE_DIVERGENCE_UNSTABLE",
                "Fresh terminal reads did not converge within the protected verification window.") })
        else
          .ok ((db.putDivergence { divergence with state := .probing }).putJob
            { job with status := .running }) := by
  unfold judgeProbe verdict
  dsimp only
  split_ifs <;> rfl

/-- Two fresh reads of the old bytes in a row are decided first. -/
lemma verdict_of_old {d : Divergence D}
    (h : [d.oldRawDigest, d.oldRawDigest] <:+ probeDigests d.observations) :
    verdict d = .transient := by
  have hlength := h.length_le
  have hdrop := List.suffix_iff_eq_drop.mp h
  unfold verdict
  dsimp only
  rw [if_pos ⟨hlength, hdrop.symm⟩]

lemma adopted_same {d judged : Divergence D} (h : verdict d = .adopted judged) :
    judged = { d with
      newRawDigest := judged.newRawDigest, newDisposition := judged.newDisposition } := by
  unfold verdict at h
  dsimp only at h
  split_ifs at h <;> cases h <;> rfl

omit [DecidableEq D] in
/-- The end of a list of at least two digests. -/
lemma exists_last_two {l : List D} (h : 2 ≤ l.length) : ∃ before x y, l = before ++ [x, y] := by
  obtain ⟨init, y, rfl⟩ : ∃ init y, l = init ++ [y] := by
    rcases List.eq_nil_or_concat' l with rfl | hconcat
    · simp at h
    · exact hconcat
  rcases List.eq_nil_or_concat' init with rfl | ⟨before, x, rfl⟩
  · simp at h
  · exact ⟨before, x, y, by simp⟩

/-- A source change is adopted on two fresh reads of it, the last two that were made. -/
lemma adopted_digests {d judged : Divergence D} (hfresh : d.FreshSinceOpened)
    (h : verdict d = .adopted judged) :
    judged.newRawDigest ≠ judged.oldRawDigest ∧ ∃ before,
      probeDigests judged.observations = before ++ [judged.newRawDigest, judged.newRawDigest] := by
  obtain ⟨opening, probes, hobservations, hopening, hprobes⟩ := hfresh
  have hdigests : probeDigests d.observations = probes.map (·.rawRecordDigest) := by
    rw [hobservations, probeDigests_of_fresh hopening hprobes]
  unfold verdict at h
  dsimp only at h
  split at h
  · cases h
  next hold =>
  -- whatever the last two reads are, they are not both the old bytes
  have hchanged : ∀ before x, probeDigests d.observations = before ++ [x, x] →
      x ≠ d.oldRawDigest := by
    rintro before x heq rfl
    apply hold
    rw [heq]
    simp
  split at h
  next hsame =>
    cases h
    obtain ⟨hlength, hall⟩ := hsame
    have htwo : 2 ≤ (probeDigests d.observations).length := by
      rw [hobservations, List.length_cons] at hlength
      rw [hdigests, List.length_map]
      omega
    obtain ⟨before, x, y, hxy⟩ := exists_last_two htwo
    -- both are among the last three observations
    have hlast : ∀ z ∈ [x, y], z = d.newRawDigest := by
      intro z hz
      rw [hdigests] at hxy
      obtain ⟨early, late, hsplit, hearly, hlate⟩ := List.map_eq_append_iff.mp hxy
      rw [← hlate] at hz
      obtain ⟨item, hitem, rfl⟩ := List.mem_map.mp hz
      apply hall
      have hlate : late.length = 2 := by simpa using congrArg List.length hlate
      have hcut : d.observations.length - 3 ≤ (opening :: early).length := by
        rw [hobservations, hsplit]
        simp
        omega
      rw [hobservations, hsplit, ← List.cons_append, List.drop_append_of_le_length
        (by rw [hobservations, hsplit] at hcut; simpa using hcut)]
      exact List.mem_append_right _ hitem
    have hx := hlast x (by simp)
    have hy := hlast y (by simp)
    rw [hx, hy] at hxy
    exact ⟨hchanged before _ hxy, before, hxy⟩
  next hother =>
    split at h
    next hstable =>
      cases h
      obtain ⟨hlength, hall⟩ := hstable
      obtain ⟨before, x, y, hxy⟩ := exists_last_two (by omega : 2 ≤ (probeDigests d.observations).length)
      have hgetLast : (probeDigests d.observations).getLast? = some y := by rw [hxy]; simp
      have hsame : x = y := by
        rw [List.all_eq_true] at hall
        have hmem : x ∈ (probeDigests d.observations).drop
            ((probeDigests d.observations).length - 3) := by
          rw [hxy, List.drop_append_of_le_length (by simp)]
          simp
        simpa [hgetLast] using hall x hmem
      subst hsame
      dsimp only
      rw [hgetLast, Option.getD_some]
      exact ⟨hchanged before x hxy, before, hxy⟩
    next => cases h

/-! ### What calls do to divergences -/

/-- The call compares records of the scan with the ledger. -/
def Call.readsSource : Call D → Bool
  | .chunk .. | .probe .. => true
  | _ => false

section Calls

variable {env : Env D} {hash : Hash D} {db db' : Db D}

omit [DecidableEq D] in
lemma divergences_invalidateTailCoverage (coverage : Coverage D) (code message : String) :
    (invalidateTailCoverage db coverage code message).divergences = db.divergences := by
  dsimp only [invalidateTailCoverage]
  split <;> rfl

lemma divergences_recordSupersededReplay {coverage : Coverage D}
    {payload : TailRequest D} (h : recordSupersededReplay db coverage payload = .ok db') :
    db'.divergences = db.divergences := by
  dsimp only [recordSupersededReplay] at h
  split_ifs at h
  · cases h
    rfl
  · refine Checks.foldlM_ok (P := fun _ st => st.divergences = db.divergences) h rfl ?_
    intro done source st st' _ hst hadd
    obtain ⟨-, heq⟩ := addManifest_eq_ok.mp hadd
    rw [heq]
    exact hst

lemma divergences_tail {payload : TailRequest D} {answer : TailAnswer D}
    (h : applySourceTailChunk env hash db payload = .ok answer) :
    answer.db.divergences = db.divergences := by
  unfold applySourceTailChunk at h
  split at h
  · cases h
  next coverage hactive =>
    split at h
    · cases h
      rfl
    simp only [bind_eq_ok] at h
    obtain ⟨-, -, h⟩ := h
    split at h
    · cases h
      exact divergences_invalidateTailCoverage _ _ _
    split at h
    next existing _ =>
      unfold replayTail at h
      split_ifs at h
      · split at h
        · simp only [bind_eq_ok, pure_eq_ok] at h
          obtain ⟨recorded, hrecorded, rfl⟩ := h
          exact divergences_recordSupersededReplay hrecorded
        · cases h
          exact divergences_invalidateTailCoverage _ _ _
      · cases h
        rfl
    next =>
      simp only [newTail, bind_eq_ok] at h
      obtain ⟨-, -, h⟩ := h
      split at h
      · cases h
        exact divergences_invalidateTailCoverage _ _ _
      simp only [bind_eq_ok] at h
      obtain ⟨bound, hbound, h⟩ := h
      split_ifs at h
      · cases h
        exact divergences_invalidateTailCoverage _ _ _
      · obtain ⟨⟨_, _, _, _, htables, -⟩, -⟩ := commitTail_ok hbound h
        rw [htables]

omit [DecidableEq D] in
lemma divergences_retirePriors (job : Job D) (payload : ManifestRequest D)
    (plan : FinalisationPlan D) : (retirePriors db job payload plan).divergences =
      db.divergences := by
  cases plan with
  | hold code message => rfl
  | retain coverage => rfl
  | fresh => rfl
  | supersede predecessor outcome =>
    change (retirePreviousGeneration db job predecessor outcome payload).divergences = _
    unfold retirePreviousGeneration
    split
    · rfl
    · exact divergences_invalidateTailCoverage _ _ _

lemma divergences_manifest {payload : ManifestRequest D}
    (h : applyReconciliationManifest env hash db payload = .ok db') :
    db'.divergences = db.divergences := by
  simp only [applyReconciliationManifest, bind_eq_ok] at h
  obtain ⟨job, -, -, -, h⟩ := h
  split at h
  · simp only [bind_eq_ok, pure_eq_ok] at h
    obtain ⟨-, -, rfl⟩ := h
    rfl
  simp only [bind_eq_ok] at h
  obtain ⟨-, -, h⟩ := h
  split_ifs at h
  · cases h
    rfl
  · cases h
    rfl
  · cases h
    rfl
  · cases h
    rfl
  split at h
  · cases h
    rfl
  · simp only [certifyJob, bind_eq_ok, pure_eq_ok] at h
    obtain ⟨-, -, rfl⟩ := h
    exact divergences_retirePriors _ _ _

/-- Only chunks and probes touch divergences. -/
lemma divergences_of_run {call : Call D} (h : call.run hash db = .ok db')
    (hother : call.readsSource = false) : db'.divergences = db.divergences := by
  cases call with
  | create env generation =>
    simp only [Call.run, createReconciliationJob, bind_eq_ok, pure_eq_ok] at h
    obtain ⟨-, -, rfl⟩ := h
    rfl
  | anchor env payload =>
    simp only [Call.run, applyReconciliationAnchor, bind_eq_ok, pure_eq_ok] at h
    obtain ⟨job, -, -, -, -, -, -, -, rfl⟩ := h
    unfold anchorJob
    split_ifs <;> rfl
  | chunk env payload => cases hother
  | release env payload =>
    simp only [Call.run, applyReconciliationAssignmentRelease, bind_eq_ok] at h
    obtain ⟨job, -, -, -, h⟩ := h
    split at h
    · simp only [bind_eq_ok, pure_eq_ok] at h
      obtain ⟨-, -, rfl⟩ := h
      rfl
    · simp only [bind_eq_ok] at h
      obtain ⟨-, -, -, -, h⟩ := h
      split at h <;> cases h <;> rfl
  | tail env payload =>
    simp only [Call.run, bind_eq_ok, pure_eq_ok] at h
    obtain ⟨answer, h, rfl⟩ := h
    exact divergences_tail h
  | probe env payload => cases hother
  | manifest env payload => exact divergences_manifest h
  | fault code =>
    cases h
    unfold applyReconciliationDeviceFault
    split
    · dsimp only
      split <;> rfl
    · split
      · split
        · exact divergences_invalidateTailCoverage _ _ _
        · rfl
      · rfl
  | heartbeat env report =>
    cases h
    dsimp only [invalidateCoverageForTerminalChange]
    split
    · rfl
    · split
      · exact divergences_invalidateTailCoverage _ _ _
      · rfl
  | manage jobId status error assignment creditStart creditEnd =>
    simp only [Call.run, bind_eq_ok, pure_eq_ok] at h
    obtain ⟨job, -, -, -, rfl⟩ := h
    rfl
  | capture attendance =>
    simp only [Call.run, bind_eq_ok, pure_eq_ok] at h
    obtain ⟨-, -, rfl⟩ := h
    rfl

/-- A comparison stops at a record it was given. -/
lemma mem_of_lineageComparison {predecessor : Predecessor} {recordSize : Nat}
    {records : List (SourceRecord D)} {prior : Manifest D} {source : SourceRecord D}
    (h : lineageComparison db predecessor recordSize records = .diverged prior source) :
    source ∈ records := by
  induction records with
  | nil => cases h
  | cons first rest ih =>
    rw [lineageComparison] at h
    split at h
    · exact List.mem_cons_of_mem _ (ih h)
    · split_ifs at h
      · exact List.mem_cons_of_mem _ (ih h)
      · cases h
        exact List.mem_cons_self
      · exact List.mem_cons_of_mem _ (ih h)

lemma mem_of_ordinaryComparison {job : Job D} {all records : List (SourceRecord D)}
    {prior : Manifest D} {source : SourceRecord D}
    (h : ordinaryComparison db job all records = .diverged prior source) : source ∈ records := by
  induction records with
  | nil => cases h
  | cons first rest ih =>
    rw [ordinaryComparison] at h
    split at h
    · exact List.mem_cons_of_mem _ (ih h)
    · split_ifs at h
      · cases h
        exact List.mem_cons_self
      · exact List.mem_cons_of_mem _ (ih h)

/-- A chunk leaves the divergences alone, or it met a changed record. -/
lemma divergences_chunk {payload : ChunkRequest D} {answer : ChunkAnswer D}
    (h : applyReconciliationChunk env hash db payload = .ok answer) :
    answer.db.divergences = db.divergences ∨ ∃ job prior, ∃ source ∈ payload.records,
      job.id = payload.jobId ∧
        answer.db.divergences = (beginSourceDivergence env db job prior source).divergences := by
  simp only [applyReconciliationChunk, bind_eq_ok, deviceJob_eq_ok] at h
  obtain ⟨job, ⟨-, hid⟩, -, -, -, -, h⟩ := h
  split at h
  next cutoff recordSize _ _ =>
    split at h
    next existing _ =>
      unfold replayChunk at h
      split_ifs at h
      · simp only [bind_eq_ok, pure_eq_ok] at h
        obtain ⟨-, -, rfl⟩ := h
        exact .inl rfl
      · cases h
        exact .inl rfl
    next =>
      simp only [bind_eq_ok] at h
      obtain ⟨u, hcheck, plan, hplan, h⟩ := h
      cases plan with
      | stop held =>
        cases h
        unfold planChunk at hplan
        split at hplan
        next _ prior source hlineage =>
          cases hplan
          refine .inr ⟨job, prior, source, ?_, hid, rfl⟩
          unfold chunkLineage at hlineage
          split at hlineage
          · exact mem_of_lineageComparison hlineage
          · cases hlineage
        next =>
          cases hplan
          exact .inl rfl
        next prior source _ hordinary =>
          cases hplan
          exact .inr ⟨job, prior, source, mem_of_ordinaryComparison hordinary, hid, rfl⟩
        next =>
          cases hplan
          exact .inl rfl
        next =>
          split_ifs at hplan
          · cases hplan
            exact .inl rfl
          · simp only [bind_eq_ok, pure_eq_ok] at hplan
            obtain ⟨-, -, ⟨⟩⟩ := hplan
      | commit bound =>
        obtain ⟨-, -, -, hbound⟩ := planChunk_eq_commit.mp hplan
        obtain ⟨⟨_, _, _, _, htables, -⟩, -⟩ :=
          commitChunk_ok hbound (checkChunk_ok hcheck).1.generation h
        left
        rw [htables]
  next => cases h

omit [DecidableEq D] in
lemma divergences_activate {job : Job D} {divergence : Divergence D}
    (h : activateRecoveryEpoch env db job divergence = .ok db') :
    ∃ state, (state = .mutationLimitReviewRequired ∨ state = .confirmedNewEpoch) ∧
      db'.divergences = db.divergences.put { divergence with state } := by
  dsimp only [activateRecoveryEpoch] at h
  split_ifs at h
  · cases h
    exact ⟨_, .inl rfl, rfl⟩
  · simp only [bind_eq_ok, pure_eq_ok] at h
    obtain ⟨-, -, copied, hcopied, rfl⟩ := h
    obtain ⟨hdb, -⟩ := recoveryCopies_ok hcopied
    refine ⟨_, .inr rfl, ?_⟩
    change copied.divergences.put _ = _
    rw [hdb]

omit [DecidableEq D] in
lemma openDivergence_eq_some {job : Job D} {ordinal : Nat} {d : Divergence D}
    (h : openDivergence db job ordinal = some d) :
    d ∈ db.divergences ∧ d.jobId = job.id ∧ d.ordinal = ordinal ∧ d.isOpen = true := by
  have hd := List.find?_some h
  simp only [Bool.and_eq_true, beq_iff_eq] at hd
  exact ⟨List.mem_of_find?_eq_some h, hd.1.1, hd.1.2, hd.2⟩

/-- The row of a divergence after a probe. -/
structure Judged (newest : Bool) (observed judged : Divergence D) : Prop where
  same : judged = { observed with
    state := judged.state
    newRawDigest := judged.newRawDigest
    newDisposition := judged.newDisposition }
  transient : newest = false →
    [observed.oldRawDigest, observed.oldRawDigest] <:+ probeDigests observed.observations →
      judged.state = .transientRecovered

/-- A probe leaves the divergences alone, or it is judged with the open divergence it reads. -/
lemma divergences_probe {payload : ProbeRequest D}
    (h : applySourceProbeResult env hash db payload = .ok db') :
    db'.divergences = db.divergences ∨ ∃ job ∈ db.jobs, job.id = payload.jobId ∧ ∃ found judged,
      openDivergence db job payload.ordinal = some found ∧
      db'.divergences = db.divergences.put judged ∧
      Judged (newestSlotDivergence db job (found.probed payload.record) payload.record)
        (found.probed payload.record) judged := by
  simp only [applySourceProbeResult, bind_eq_ok, deviceJob_eq_ok] at h
  obtain ⟨job, ⟨hjob, hid⟩, -, -, -, -, h⟩ := h
  split at h
  · cases h
    exact .inl rfl
  split at h
  · cases h
  next found hfound =>
  simp only [bind_eq_ok] at h
  obtain ⟨-, -, h⟩ := h
  split at h
  · cases h
  simp only [bind_eq_ok] at h
  obtain ⟨-, -, h⟩ := h
  refine .inr ⟨job, hjob, hid, found, ?_⟩
  change (if newestSlotDivergence db job (found.probed payload.record) payload.record then _ else _)
    = _ at h
  split at h
  next hnewest =>
    cases h
    refine ⟨_, hfound, rfl, rfl, fun hold => ?_⟩
    rw [hnewest] at hold
    cases hold
  next hnewest =>
    change judgeProbe env db job (found.probed payload.record) = _ at h
    rw [judgeProbe_eq] at h
    have hundecided : verdict (found.probed payload.record) ≠ .transient →
        ¬ [(found.probed payload.record).oldRawDigest, (found.probed payload.record).oldRawDigest]
          <:+ probeDigests (found.probed payload.record).observations :=
      fun hne hold => hne (verdict_of_old hold)
    cases hverdict : verdict (found.probed payload.record) with
    | transient =>
      rw [hverdict] at h
      cases h
      exact ⟨_, hfound, rfl, rfl, fun _ _ => rfl⟩
    | adopted judged =>
      rw [hverdict] at h hundecided
      obtain ⟨state, -, hdivergences⟩ := divergences_activate h
      refine ⟨_, hfound, hdivergences, ?_, fun _ hold => absurd hold (hundecided (by simp))⟩
      rw [adopted_same hverdict]
    | undecided =>
      rw [hverdict] at h hundecided
      dsimp only at h
      split at h
      · cases h
        exact ⟨_, hfound, rfl, rfl, fun _ hold => absurd hold (hundecided (by simp))⟩
      · cases h
        exact ⟨_, hfound, rfl, rfl, fun _ hold => absurd hold (hundecided (by simp))⟩

end Calls

/-! ### Runs -/

/-- A chunk leaves out the ordinals of its job's open divergences, and a probe that reads the old
bytes for the second time in a row does not read a newest slot. -/
def Undisputed (db : Db D) : Call D → Prop
  | .chunk _ payload => ∀ d ∈ db.divergences.rows, d.jobId = payload.jobId → d.isOpen = true →
      d.ordinal < payload.startOrdinal ∨ payload.endOrdinal ≤ d.ordinal
  | .probe _ payload => ∀ job ∈ db.jobs.rows, job.id = payload.jobId →
      ∀ found ∈ openDivergence db job payload.ordinal,
        [found.oldRawDigest, found.oldRawDigest] <:+
            probeDigests (found.probed payload.record).observations →
          newestSlotDivergence db job (found.probed payload.record) payload.record = false
  | _ => True

instance (db : Db D) (call : Call D) : Decidable (Undisputed db call) :=
  match call with
  | .chunk _ payload => inferInstanceAs (Decidable (∀ d ∈ db.divergences.rows,
      d.jobId = payload.jobId → d.isOpen = true →
        d.ordinal < payload.startOrdinal ∨ payload.endOrdinal ≤ d.ordinal))
  | .probe _ payload => inferInstanceAs (Decidable (∀ job ∈ db.jobs.rows,
      job.id = payload.jobId → ∀ found ∈ openDivergence db job payload.ordinal,
        [found.oldRawDigest, found.oldRawDigest] <:+
            probeDigests (found.probed payload.record).observations →
          newestSlotDivergence db job (found.probed payload.record) payload.record = false))
  | .create .. | .anchor .. | .release .. | .tail .. | .manifest .. | .fault _ | .heartbeat ..
  | .manage .. | .capture _ => inferInstanceAs (Decidable True)

/-- The rows of divergences in undisputed runs. -/
structure DivergenceInv (db : Db D) : Prop where
  fresh : ∀ d ∈ db.divergences, d.isOpen = true → d.FreshSinceOpened
  settled : ∀ d ∈ db.divergences,
    [d.oldRawDigest, d.oldRawDigest] <:+: probeDigests d.observations →
      d.state = .transientRecovered

variable {hash : Hash D} {db db' : Db D}

omit [DecidableEq D] in
lemma DivergenceInv.of_divergences (h : DivergenceInv db)
    (heq : db'.divergences = db.divergences) : DivergenceInv db' :=
  ⟨heq ▸ h.fresh, heq ▸ h.settled⟩

omit [DecidableEq D] in
/-- A changed record at an ordinal that is not disputed opens a divergence. -/
lemma DivergenceInv.begin {env : Env D} {job : Job D} {prior : Manifest D}
    {source : SourceRecord D} (h : DivergenceInv db)
    (hnone : openDivergence db job source.ordinal = none)
    (heq : db'.divergences = (beginSourceDivergence env db job prior source).divergences) :
    DivergenceInv db' := by
  have hrows : ∀ d ∈ db'.divergences, d ∈ db.divergences ∨
      d.observations = [⟨.reconciliationChunk, source.rawRecordDigest, source.disposition⟩] := by
    intro d hd
    rw [heq] at hd
    dsimp only [beginSourceDivergence] at hd
    rw [show db.divergences.rows.find? _ = none from hnone] at hd
    rcases Table.mem_insert.mp hd with hd | rfl
    · exact .inl hd
    · exact .inr rfl
  refine ⟨fun d hd hopen => ?_, fun d hd hold => ?_⟩
  · rcases hrows d hd with hd | hobservations
    · exact h.fresh d hd hopen
    · exact ⟨_, [], hobservations, rfl, by simp⟩
  · rcases hrows d hd with hd | hobservations
    · exact h.settled d hd hold
    · rw [hobservations] at hold
      have hlength := hold.length_le
      simp [probeDigests] at hlength

omit [DecidableEq D] in
/-- A probe adds a fresh read to an open divergence, which no two reads of the old bytes in a row
have settled yet. -/
lemma DivergenceInv.judge {newest : Bool} {found judged : Divergence D} {source : SourceRecord D}
    (h : DivergenceInv db) (hfound : found ∈ db.divergences) (hopen : found.isOpen = true)
    (hjudged : Judged newest (found.probed source) judged)
    (hnewest : [found.oldRawDigest, found.oldRawDigest] <:+
      probeDigests (found.probed source).observations → newest = false)
    (heq : db'.divergences = db.divergences.put judged) : DivergenceInv db' := by
  refine ⟨fun d hd hd' => ?_, fun d hd hold => ?_⟩
  · rw [heq] at hd
    rcases Table.of_mem_put hd with rfl | ⟨hd, -⟩
    · obtain ⟨opening, probes, hobservations, hrest⟩ := (h.fresh found hfound hopen).probed source
      refine ⟨opening, probes, ?_, hrest⟩
      rw [hjudged.same]
      exact hobservations
    · exact h.fresh d hd hd'
  · rw [heq] at hd
    rcases Table.of_mem_put hd with rfl | ⟨hd, -⟩
    · have hlast : [found.oldRawDigest, found.oldRawDigest] <:+
          probeDigests (found.probed source).observations := by
        rw [hjudged.same] at hold
        change [found.oldRawDigest, found.oldRawDigest] <:+:
          probeDigests (found.probed source).observations at hold
        rw [probeDigests_probed] at hold ⊢
        rcases List.infix_concat_iff.mp hold with hold | hold
        · exact hold
        · -- a divergence that was settled before is not open
          rw [Divergence.isOpen, h.settled found hfound hold] at hopen
          cases hopen
      exact hjudged.transient (hnewest hlast) hlast
    · exact h.settled d hd hold

lemma DivergenceInv.step {call : Call D} (h : DivergenceInv db) (hmeets : Undisputed db call)
    (hrun : call.run hash db = .ok db') : DivergenceInv db' := by
  cases call with
  | chunk env payload =>
    simp only [Call.run, bind_eq_ok, pure_eq_ok] at hrun
    obtain ⟨answer, hanswer, rfl⟩ := hrun
    rcases divergences_chunk hanswer with heq | ⟨job, prior, source, hsource, hid, heq⟩
    · exact h.of_divergences heq
    · refine h.begin ?_ heq
      rw [Option.eq_none_iff_forall_ne_some]
      intro d hd
      obtain ⟨hmem, hjob, hordinal, hopen⟩ := openDivergence_eq_some hd
      have hin : source.ordinal ∈ payload.records.map (·.ordinal) := List.mem_map_of_mem hsource
      rw [payload.contiguous, List.mem_range'_1] at hin
      have hrange := payload.range
      have := hmeets d hmem (hjob.trans hid) hopen
      omega
  | probe env payload =>
    rcases divergences_probe hrun with heq | ⟨job, hjob, hid, found, judged, hfound, heq, hjudged⟩
    · exact h.of_divergences heq
    · obtain ⟨hmem, -, -, hopen⟩ := openDivergence_eq_some hfound
      exact h.judge hmem hopen hjudged (hmeets job hjob hid found hfound) heq
  | _ => exact h.of_divergences (divergences_of_run hrun rfl)

lemma DivergenceInv.of_run (h : Run hash Undisputed db) : DivergenceInv db :=
  h.induction (fun _ => ⟨nofun, nofun⟩) fun h hmeets hrun => h.step hmeets hrun

/-- `apply_source_probe_result` calls `_activate_recovery_epoch` for this divergence. -/
structure Activates (db : Db D) (payload : ProbeRequest D) (job : Job D)
    (judged : Divergence D) : Prop where
  job_ : deviceJob db payload.jobId = .ok job
  judged_ : ∃ found, openDivergence db job payload.ordinal = some found ∧
    newestSlotDivergence db job (found.probed payload.record) payload.record = false ∧
    verdict (found.probed payload.record) = .adopted judged

/-- In every undisputed run a source change is adopted only after its last two fresh reads agreed
on it, and a divergence whose old bytes were read twice in a row is transient for good. -/
theorem source_change_adopted_on_fresh_reads (h : Run hash Undisputed db) :
    (∀ payload job judged, Activates db payload job judged →
      judged.newRawDigest ≠ judged.oldRawDigest ∧ ∃ before,
        probeDigests judged.observations =
          before ++ [judged.newRawDigest, judged.newRawDigest]) ∧
    ∀ d ∈ db.divergences, [d.oldRawDigest, d.oldRawDigest] <:+: probeDigests d.observations →
      d.state = .transientRecovered ∧
        ∀ payload job judged, Activates db payload job judged → judged.id ≠ d.id := by
  have hinv := DivergenceInv.of_run h
  refine ⟨fun payload job judged hactivates => ?_, fun d hd hold => ?_⟩
  · obtain ⟨found, hfound, -, hverdict⟩ := hactivates.judged_
    obtain ⟨hmem, -, -, hopen⟩ := openDivergence_eq_some hfound
    exact adopted_digests ((hinv.fresh found hmem hopen).probed payload.record) hverdict
  · have htransient := hinv.settled d hd hold
    refine ⟨htransient, fun payload job judged hactivates hid => ?_⟩
    obtain ⟨found, hfound, -, hverdict⟩ := hactivates.judged_
    obtain ⟨hmem, -, -, hopen⟩ := openDivergence_eq_some hfound
    rw [adopted_same hverdict] at hid
    obtain rfl := Table.eq_of_rowId hmem hd hid
    rw [Divergence.isOpen, htransient] at hopen
    cases hopen

/-- The calls up to a divergence at ordinal 1: one job reads three records and is cancelled, and a
second one meets a changed record. -/
def divergedCalls : List (Call (List Nat)) :=
  let old := fun ordinal : Nat => plainPunch 16 ordinal (ordinal.toUInt8 + 1)
  let chunk := plainChunk 1 0 none (old 0) [plainPunch 16 1 101]
  [.create plainEnv 1, .anchor plainEnv (plainAnchor 0 3 (old 0) 16 layout_sixteen),
    .chunk plainEnv (plainChunk 0 0 none (old 0) [old 1, old 2]),
    .manage 0 .cancelled none none none none,
    .create plainEnv 1, .anchor plainEnv (plainAnchor 1 3 (old 0) 16 layout_sixteen),
    .chunk plainEnv chunk]

/-- A fresh read of the changed record. -/
def changedProbe : ProbeRequest (List Nat) := plainProbe 1 (plainPunch 16 1 101) 16 layout_sixteen

theorem source_change_adopted_on_fresh_reads_second :
    ∃ db job judged, Run plainHash Undisputed db ∧ Activates db changedProbe job judged ∧
      judged.newRawDigest ≠ judged.oldRawDigest ∧ ∃ before,
        probeDigests judged.observations =
          before ++ [judged.newRawDigest, judged.newRawDigest] := by
  have hchecks : ∃ db ∈ replay plainHash Undisputed (Db.blank (some "T"))
      (divergedCalls ++ [.probe plainEnv changedProbe]), ∃ job ∈ db.jobs.rows, job.id = 1 ∧
        ∃ found ∈ openDivergence db job 1,
          newestSlotDivergence db job (found.probed changedProbe.record) changedProbe.record =
            false ∧
          ((verdict (found.probed changedProbe.record)).judged?).isSome = true := by
    decide +kernel
  obtain ⟨db, hdb, job, hjob, hid, found, hfound, hnewest, hverdict⟩ := hchecks
  obtain ⟨judged, hjudged⟩ := Option.isSome_iff_exists.mp hverdict
  have hrun : Run plainHash Undisputed db := (Run.start _).of_replay hdb
  have hactivates : Activates db changedProbe job judged :=
    ⟨deviceJob_eq_ok.mpr ⟨hjob, hid⟩, found, hfound, hnewest, Verdict.judged?_eq_some.mp hjudged⟩
  have hadopted := (source_change_adopted_on_fresh_reads hrun).1 changedProbe job judged hactivates
  exact ⟨db, job, judged, hrun, hactivates, hadopted⟩

/-! ### A repeated chunk -/

/-- The changed chunk is delivered once more, without an assignment, while its divergence is
open. -/
def repeatedChunkCalls : List (Call (List Nat)) :=
  divergedCalls ++ [.chunk plainEnv
    (plainChunk 1 0 none (plainPunch 16 0 1) [plainPunch 16 1 101])]

/-- The repeated chunk stands in for a fresh read: the first probe of the change activates a
recovery epoch. -/
theorem repeated_chunk_adopts_on_one_fresh_read :
    ∃ db, replay plainHash (fun _ _ => True) (Db.blank (some "T")) repeatedChunkCalls = some db ∧
      Run plainHash (fun _ _ => True) db ∧ ∃ job judged, Activates db changedProbe job judged ∧
        (probeDigests judged.observations).length = 1 ∧
        ∃ db', applySourceProbeResult plainEnv plainHash db changedProbe = .ok db' ∧
          ∃ job' ∈ db'.jobs, job'.id = job.id ∧ job'.sourceEpochId ≠ job.sourceEpochId := by
  have hchecks : ∃ db ∈ replay plainHash (fun _ _ => True) (Db.blank (some "T"))
      repeatedChunkCalls, ∃ job ∈ db.jobs.rows, job.id = 1 ∧
        ∃ found ∈ openDivergence db job 1,
          newestSlotDivergence db job (found.probed changedProbe.record) changedProbe.record =
            false ∧
          ∃ judged ∈ (verdict (found.probed changedProbe.record)).judged?,
            (probeDigests judged.observations).length = 1 ∧
            ∃ db' ∈ (applySourceProbeResult plainEnv plainHash db changedProbe).toOption,
              ∃ job' ∈ db'.jobs.rows, job'.id = job.id ∧ job'.sourceEpochId ≠ job.sourceEpochId := by
    decide +kernel
  obtain ⟨db, hdb, job, hjob, hid, found, hfound, hnewest, judged, hjudged, hone, db', hdb', hepoch⟩ :=
    hchecks
  refine ⟨db, hdb, (Run.start _).of_replay hdb, job, judged, ?_, hone, db', ?_, hepoch⟩
  · exact ⟨deviceJob_eq_ok.mpr ⟨hjob, hid⟩, found, hfound, hnewest,
      Verdict.judged?_eq_some.mp hjudged⟩
  · cases hresult : applySourceProbeResult plainEnv plainHash db changedProbe with
    | ok x =>
      rw [hresult] at hdb'
      cases hdb'
      rfl
    | error refusal =>
      rw [hresult] at hdb'
      cases hdb'

end Reconciliation
