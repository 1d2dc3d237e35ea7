import AutoAttn.Reconciliation.Ledger

/-!
# What a commit stores

A committed chunk, a committed tail and a recovery epoch, by the rows they leave in the ledger.
-/

namespace Reconciliation

open Checks (foldlM_ok)

variable {D : Type} [DecidableEq D]

/-! ### Punches -/

omit [DecidableEq D] in
lemma sourcePunch_eq_some {source : SourceRecord D} {punch : AttendanceEventIn D} :
    sourcePunch source = some punch ↔
      sourceIdentityMissing source = false ∧ source.event = some punch := by
  unfold sourcePunch
  split_ifs with h <;> simp [h]

omit [DecidableEq D] in
/-- Each bound event is a record's punch, bound to the terminal. -/
lemma mem_bindEvents {serial : String} {records : List (SourceRecord D)}
    {events : List (AttendanceEventIn D)} (h : bindEvents serial records = .ok events)
    {event : AttendanceEventIn D} :
    event ∈ events ↔ ∃ source ∈ records, ∃ punch, sourcePunch source = some punch ∧
      event = { punch with terminalSerial := some serial } := by
  induction records generalizing events with
  | nil =>
    cases h
    simp
  | cons source rest ih =>
    rw [bindEvents] at h
    split at h
    next hnone =>
      have hpunch : sourcePunch source = none := by simp [sourcePunch, hnone]
      simp [ih h, hpunch]
    next incoming hsome =>
      simp only [bind_eq_ok, pure_eq_ok] at h
      obtain ⟨-, -, -, -, others, hothers, rfl⟩ := h
      split_ifs with hmissing
      · have hpunch : sourcePunch source = none := by simp [sourcePunch, hmissing]
        simp [ih hothers, hpunch]
      · have hpunch : sourcePunch source = some incoming := by simp [sourcePunch, hmissing, hsome]
        simp [ih hothers, hpunch]

/-- Attendance that was held is held. -/
def Keeps (t t' : Table (Attendance D)) : Prop :=
  ∀ row ∈ t, ∃ row' ∈ t', row'.eventUid = row.eventUid

omit [DecidableEq D] in
lemma Keeps.trans {t t' t'' : Table (Attendance D)} (h : Keeps t t') (h' : Keeps t' t'') :
    Keeps t t'' := by
  intro row hrow
  obtain ⟨row', hrow', heq⟩ := h row hrow
  obtain ⟨row'', hrow'', heq'⟩ := h' row' hrow'
  exact ⟨row'', hrow'', heq'.trans heq⟩

omit [DecidableEq D] in
lemma Keeps.holds {db db' : Db D} (h : Keeps db.attendance db'.attendance) {uid : D} :
    db.Holds uid → db'.Holds uid := by
  rintro ⟨row, hrow, rfl⟩
  exact h row hrow

lemma ingestAttendance_keeps (env : Env D) (db : Db D) (events : List (AttendanceEventIn D)) :
    Keeps db.attendance (ingestAttendance env db events).attendance := by
  induction events generalizing db with
  | nil => exact fun row hrow => ⟨row, hrow, rfl⟩
  | cons event events ih =>
    rw [ingestAttendance]
    split_ifs with h
    · exact ih db
    · refine Keeps.trans (fun row hrow => ⟨row, ?_, rfl⟩) (ih _)
      exact Table.mem_insert.mpr (.inl hrow)

/-- After ingestion every punch passed to it is held. -/
lemma ingestAttendance_holds (env : Env D) (db : Db D) {events : List (AttendanceEventIn D)}
    {event : AttendanceEventIn D} (h : event ∈ events) :
    (ingestAttendance env db events).Holds event.eventUid := by
  induction events generalizing db with
  | nil => simp at h
  | cons first events ih =>
    rw [ingestAttendance]
    rcases List.mem_cons.mp h with rfl | h
    · split_ifs with hheld
      · exact (ingestAttendance_keeps env db events).holds hheld
      · exact (ingestAttendance_keeps env _ events).holds
          ⟨_, Table.mem_insert.mpr (.inr rfl), rfl⟩
    · split_ifs with hheld
      · exact ih db h
      · exact ih _ h

lemma boundSourceAttendance_keeps {env : Env D} {db : Db D} {serial : Option String}
    {records : List (SourceRecord D)} {link : Bool} {bound : BoundAttendance D}
    (h : boundSourceAttendance env db serial records link = .ok bound) :
    Keeps db.attendance bound.db.attendance := by
  simp only [boundSourceAttendance, bind_eq_ok] at h
  obtain ⟨-, -, events, hevents, h⟩ := h
  split_ifs at h with hlink
  · cases h
    exact fun row hrow => ⟨row, hrow, rfl⟩
  · simp only [bind_eq_ok] at h
    obtain ⟨-, -, h⟩ := h
    split at h
    · cases h
    · cases h
      intro row hrow
      refine ⟨_, List.mem_map_of_mem hrow, ?_⟩
      split_ifs <;> rfl

/-- The newest reads that are held: punches ADD does not hold, which no other record of the
payload carries at another ordinal. -/
lemma mem_heldNewestUids {db : Db D} {records : List (SourceRecord D)} {newest : Option Nat}
    {o : Nat} {uid : D} :
    (o, uid) ∈ heldNewestUids db records newest ↔ ∃ source ∈ records, ∃ punch,
      sourcePunch source = some punch ∧ source.ordinal = o ∧ punch.eventUid = uid ∧
      some source.ordinal = newest ∧ source.disposition ≠ .rawPreserved ∧ ¬ db.Holds uid ∧
      ∀ other ∈ records, some other.ordinal ≠ newest →
        other.event.map (·.eventUid) ≠ some uid := by
  simp only [heldNewestUids, List.mem_filterMap]
  constructor
  · rintro ⟨source, hs, h⟩
    split at h
    · cases h
    next punch hpunch =>
      split_ifs at h with hcond
      cases h
      exact ⟨source, hs, punch, hpunch, rfl, rfl, hcond⟩
  · rintro ⟨source, hs, punch, hpunch, rfl, rfl, hcond⟩
    refine ⟨source, hs, ?_⟩
    rw [hpunch]
    exact if_pos hcond

/-- A punch whose own record is not held is not held through another record. -/
lemma not_mem_heldNewestUids {db : Db D} {records : List (SourceRecord D)} {newest : Option Nat}
    {source : SourceRecord D} (hs : source ∈ records) {punch : AttendanceEventIn D}
    (hpunch : sourcePunch source = some punch)
    (hordinal : source.ordinal ∉ (heldNewestUids db records newest).map Prod.fst) :
    punch.eventUid ∉ (heldNewestUids db records newest).map Prod.snd := by
  intro huid
  obtain ⟨⟨o, uid⟩, hheld, rfl⟩ := List.mem_map.mp huid
  obtain ⟨other, -, -, -, ho, -, hnewest, -, -, hothers⟩ := mem_heldNewestUids.mp hheld
  have hevent := (sourcePunch_eq_some.mp hpunch).2
  by_cases hnew : some source.ordinal = newest
  · refine hordinal (List.mem_map.mpr ⟨_, hheld, ?_⟩)
    rw [← Option.some_inj, hnew, ← hnewest, ho]
  · exact hothers source hs hnew (by rw [hevent]; rfl)

/-! ### Stored reads -/

/-- The row keeps what a record says. A row with a parsed disposition keeps a punch ADD holds,
unless the reader itself declared the record a duplicate. -/
structure StoredRead (db : Db D) (recordSize : Nat) (source : SourceRecord D) (m : Manifest D) :
    Prop where
  ordinal : m.ordinal = source.ordinal
  recordSize : m.recordSize = recordSize
  digest : m.rawRecordDigest = source.rawRecordDigest
  raw : m.protectedRawRecord = source.rawRecord
  occurrence : m.occurrenceIndex = source.occurrenceIndex
  parsed : m.disposition ∈ parsedDispositions →
    source.disposition = .terminalDuplicate ∨ ∃ e, source.event = some e ∧ db.Holds e.eventUid

/-- A record is stored as parsed only with a punch that ADD holds, when every punch that is not
held back was ingested. -/
lemma storedDisposition_parsed {db : Db D} {events : List (AttendanceEventIn D)}
    {source : SourceRecord D} {held : Bool} {seenKeys : List D}
    (hingested : held = false → ∀ punch, sourcePunch source = some punch →
      db.Holds punch.eventUid)
    (h : storedDisposition source (if held then none else storedEvent db.attendance events source)
      held seenKeys ∈ parsedDispositions) :
    source.disposition = .terminalDuplicate ∨
      ∃ e, source.event = some e ∧ db.Holds e.eventUid := by
  cases held with
  | true => simp [storedDisposition, parsedDispositions] at h
  | false =>
    rcases hpunch : sourcePunch source with _ | punch
    · have hevent : storedEvent db.attendance events source = none := by simp [storedEvent, hpunch]
      simp only [hevent, ite_self, storedDisposition, Bool.or_false] at h
      have hparsed := source.parsed_event
      cases hmissing : sourceIdentityMissing source with
      | true => simp [hmissing, parsedDispositions] at h
      | false =>
        have hnone : source.event = none := by simpa [sourcePunch, hmissing] using hpunch
        simp only [hmissing, parsedDispositions, Bool.false_eq_true, if_false, List.mem_cons,
          List.not_mem_nil, or_false] at h
        rcases h with h | h | h
        · exact absurd hnone (hparsed (.inl h))
        · exact absurd hnone (hparsed (.inr h))
        · exact .inl h
    · obtain ⟨-, hevent⟩ := sourcePunch_eq_some.mp hpunch
      exact .inr ⟨punch, hevent, hingested rfl punch hpunch⟩

/-! ### Records in a row -/

section Contiguous

variable {records : List (SourceRecord D)} {start : Nat}

omit [DecidableEq D] in
lemma ordinal_bounds (h : records.map (·.ordinal) = List.range' start records.length)
    {source : SourceRecord D} (hs : source ∈ records) :
    start ≤ source.ordinal ∧ source.ordinal < start + records.length := by
  have hmem : source.ordinal ∈ records.map (·.ordinal) := List.mem_map_of_mem hs
  rw [h, List.mem_range'_1] at hmem
  exact hmem

omit [DecidableEq D] in
lemma exists_of_ordinal (h : records.map (·.ordinal) = List.range' start records.length)
    {o : Nat} (ho : start ≤ o) (ho' : o < start + records.length) :
    ∃ source ∈ records, source.ordinal = o := by
  have hmem : o ∈ records.map (·.ordinal) := by
    rw [h, List.mem_range'_1]
    exact ⟨ho, ho'⟩
  simpa using hmem

end Contiguous

/-! ### A committed chunk -/

section Chunk

variable {env : Env D} {hash : Hash D} {db : Db D} {job : Job D} {recordSize : Nat}
  {payload : ChunkRequest D} {bound : BoundAttendance D}

/-- The record is held back from ingestion. -/
def chunkHolds (db : Db D) (job : Job D) (payload : ChunkRequest D) (source : SourceRecord D) :
    Bool :=
  decide (source.ordinal ∈ (chunkHeldUids db job payload).map Prod.fst)

/-- A settled row is the canonical row of its record's ordinal. -/
lemma reading_settled {records : List (SourceRecord D)} {source : SourceRecord D}
    {prior : Manifest D} (h : reading db job records source = .settled prior) :
    db.sourceRow job.terminalGeneration job.sourceEpochId source.ordinal = some prior := by
  unfold reading at h
  split at h
  · cases h
  · split_ifs at h <;> cases h <;> assumption

/-- So is a row that is kept. -/
lemma reading_kept {records : List (SourceRecord D)} {source : SourceRecord D}
    {prior : Manifest D} (h : (reading db job records source).kept = some prior) :
    db.sourceRow job.terminalGeneration job.sourceEpochId source.ordinal = some prior := by
  unfold reading at h
  split at h
  · cases h
  · split_ifs at h <;> cases h <;> assumption

lemma mem_chunkSettled {prior : Manifest D} :
    prior ∈ chunkSettled db job payload ↔
      ∃ source ∈ payload.records, reading db job payload.records source = .settled prior := by
  simp only [chunkSettled, List.mem_filterMap]
  constructor
  · rintro ⟨source, hs, h⟩
    split at h <;> cases h
    exact ⟨source, hs, by assumption⟩
  · rintro ⟨source, hs, h⟩
    exact ⟨source, hs, by rw [h]⟩

/-- A record that gets a row of its own is ingested unless it is held back. -/
lemma mem_chunkIngestible {source : SourceRecord D} (hs : source ∈ payload.records)
    (hkept : (reading db job payload.records source).kept = none)
    (hheld : chunkHolds db job payload source = false) :
    source ∈ chunkIngestible db job payload := by
  rw [chunkIngestible, List.mem_filter]
  refine ⟨hs, ?_⟩
  have hheld' := of_decide_eq_false hheld
  cases hr : reading db job payload.records source <;> simp_all [Reading.kept]

/-- What storing one record adds to the ledger. -/
lemma storeRecord_ok {events : List (AttendanceEventIn D)} {st st' : Storing D}
    {source : SourceRecord D}
    (h : storeRecord db job recordSize payload events st source = .ok st') :
    (reading db job payload.records source).kept = none ∧
      (let held := chunkHolds db job payload source
       let event := if held then none else storedEvent st.db.attendance events source
       st.db.addManifest (baselineManifest job recordSize payload source event held
         (storedDisposition source event held st.seenKeys)) = .ok st'.db) ∨
    (∃ prior, (reading db job payload.records source).kept = some prior) ∧
      (st'.db = st.db ∨ st.db.addManifest (rereadReceipt job recordSize source) = .ok st'.db) := by
  rw [storeRecord] at h
  split at h
  next hkept =>
    simp only [bind_eq_ok, pure_eq_ok] at h
    obtain ⟨stored, hadd, rfl⟩ := h
    exact .inl ⟨hkept, hadd⟩
  next prior hkept =>
    refine .inr ⟨⟨prior, hkept⟩, ?_⟩
    cases hreceipted : (reading db job payload.records source).receipted with
    | true =>
      simp only [hreceipted, if_true, bind_eq_ok, pure_eq_ok] at h
      obtain ⟨stored, hadd, rfl⟩ := h
      exact .inr hadd
    | false =>
      simp only [hreceipted, Bool.false_eq_true, if_false, pure_eq_ok] at h
      rw [← h]
      exact .inl rfl

/-- A row that a chunk adds. -/
def ChunkRow (db : Db D) (job : Job D) (recordSize : Nat) (payload : ChunkRequest D)
    (m : Manifest D) : Prop :=
  m.jobId = some job.id ∧ ∃ source ∈ payload.records, m.ordinal = source.ordinal ∧
    (m.canonicalSource = true → StoredRead db recordSize source m)

/-- The records of a chunk, stored one after the other. -/
lemma storeRecords_ok {before retired : Db D} {events : List (AttendanceEventIn D)}
    {seenKeys : List D} {n : Nat} {st : Storing D}
    (hingested : ∀ source ∈ payload.records,
      (reading before job payload.records source).kept = none →
      chunkHolds before job payload source = false →
      ∀ punch, sourcePunch source = some punch → retired.Holds punch.eventUid)
    (h : payload.records.foldlM (storeRecord before job recordSize payload events)
      ⟨retired, seenKeys, n⟩ = .ok st) :
    st.db = { retired with manifests := st.db.manifests } ∧
      Grows (ChunkRow retired job recordSize payload) retired.manifests st.db.manifests ∧
      ∀ source ∈ payload.records, (reading before job payload.records source).kept = none →
        Covered st.db.manifests payload.generation job.sourceEpochId source.ordinal := by
  refine foldlM_ok (P := fun done st =>
    st.db = { retired with manifests := st.db.manifests } ∧
      Grows (ChunkRow retired job recordSize payload) retired.manifests st.db.manifests ∧
      ∀ source ∈ done, (reading before job payload.records source).kept = none →
        Covered st.db.manifests payload.generation job.sourceEpochId source.ordinal) h
    ⟨rfl, Grows.refl _, by simp⟩ ?_
  rintro done source st st' hdone ⟨hdb, hgrows, hcovered⟩ hstore
  have hsource : source ∈ payload.records := hdone.subset (by simp)
  -- both kinds of row extend the ledger, so what was covered stays covered
  have hadd : ∀ mk h, st.db.addManifest mk h = .ok st'.db →
      ChunkRow retired job recordSize payload (mk st.db.manifests.rows.length) →
      st'.db = { retired with manifests := st'.db.manifests } ∧
        Grows (ChunkRow retired job recordSize payload) retired.manifests st'.db.manifests := by
    intro mk h hadd hrow
    refine ⟨?_, hgrows.trans ((grows_of_addManifest hadd).mono fun m hm => hm ▸ hrow)⟩
    obtain ⟨-, heq⟩ := addManifest_eq_ok.mp hadd
    rw [heq, hdb]
  rcases storeRecord_ok hstore with ⟨hkept, hstored⟩ | ⟨⟨prior, hkept⟩, hsame | hreceipt⟩
  · have hrow := hadd _ _ hstored ⟨rfl, source, hsource, rfl, fun _ =>
      ⟨rfl, rfl, rfl, rfl, rfl, fun hparsed => ?_⟩⟩
    · refine ⟨hrow.1, hrow.2, fun x hx hxkept => ?_⟩
      rcases List.mem_append.mp hx with hx | hx
      · exact (grows_of_addManifest hstored).covered (hcovered x hx hxkept)
      · rw [List.mem_singleton.mp hx]
        exact ⟨_, mem_of_addManifest hstored, rfl, rfl, rfl, rfl⟩
    · have hattendance : st.db.attendance = retired.attendance := by rw [hdb]
      rw [hattendance] at hparsed
      exact storedDisposition_parsed (hingested source hsource hkept) hparsed
  · rw [hsame]
    refine ⟨hdb, hgrows, fun x hx hxkept => ?_⟩
    rcases List.mem_append.mp hx with hx | hx
    · exact hcovered x hx hxkept
    · rw [List.mem_singleton.mp hx, hkept] at hxkept
      cases hxkept
  · have hrow := hadd _ _ hreceipt ⟨rfl, source, hsource, rfl, by simp [rereadReceipt]⟩
    refine ⟨hrow.1, hrow.2, fun x hx hxkept => ?_⟩
    rcases List.mem_append.mp hx with hx | hx
    · exact (grows_of_addManifest hreceipt).covered (hcovered x hx hxkept)
    · rw [List.mem_singleton.mp hx, hkept] at hxkept
      cases hxkept

/-- The receipt a committed chunk leaves. -/
def ChunkRequest.receipt (payload : ChunkRequest D) : Receipt D :=
  ⟨payload.startOrdinal, payload.endOrdinal, payload.records.length, payload.chunkDigest,
    payload.previousChainDigest, payload.resultingChainDigest⟩

/-- How a committed chunk changes the ledger. Rows of settled newest-slot reads give way to the
records that settle them, and every other row stays. -/
structure Rescan (db : Db D) (job : Job D) (recordSize : Nat) (payload : ChunkRequest D)
    (db' : Db D) : Prop where
  covered : ∀ g e o, Covered db.manifests g e o → Covered db'.manifests g e o
  scanned : ∀ source ∈ payload.records,
    Covered db'.manifests job.terminalGeneration job.sourceEpochId source.ordinal
  unique : Unique db.manifests → Unique db'.manifests
  canonical : ∀ m ∈ db'.manifests, m.canonicalSource = true →
    m ∈ db.manifests ∨ ∃ source ∈ payload.records, StoredRead db' recordSize source m
  owned : ∀ m ∈ db'.manifests, ∀ j, m.jobId = some j →
    (∃ x ∈ db.manifests, x.jobId = some j ∧ x.ordinal = m.ordinal) ∨
      j = job.id ∧ m.ordinal < payload.endOrdinal
  attendance : Keeps db.attendance db'.attendance

/-- The tables a committed chunk leaves. -/
lemma commitChunk_ok {answer : ChunkAnswer D}
    (hbound : boundSourceAttendance env db job.terminalSerial (chunkIngestible db job payload)
      true = .ok bound)
    (hgeneration : payload.generation = job.terminalGeneration)
    (h : commitChunk env db job recordSize payload bound = .ok answer) :
    (∃ attendance manifests chunks row, answer.db =
        { db with attendance, manifests, chunks, jobs := db.jobs.put (job.advance payload) } ∧
      chunks.rows = db.chunks.rows ++ [row] ∧ row.jobId = job.id ∧
      row.generation = job.terminalGeneration ∧ row.receipt = payload.receipt) ∧
    Rescan db job recordSize payload answer.db := by
  simp only [commitChunk, addChunk, bind_eq_ok, pure_eq_ok] at h
  obtain ⟨st, hst, stored, ⟨-, -, -, -, rfl⟩, rfl⟩ := h
  obtain ⟨⟨bindings, hbindings⟩, hevents⟩ := boundSourceAttendance_ok hbound
  obtain ⟨attendance, hattendance⟩ := ingestAttendance_eq env bound.db bound.events
  have hkeeps : Keeps db.attendance attendance := by
    have := ingestAttendance_keeps env bound.db bound.events
    rw [hattendance] at this
    exact (boundSourceAttendance_keeps hbound).trans this
  have hholds : ∀ event ∈ bound.events,
      ({ bound.db with attendance } : Db D).Holds event.eventUid := by
    intro event hevent
    exact hattendance ▸ ingestAttendance_holds env bound.db hevent
  rw [hattendance, hbindings] at hst
  obtain ⟨t, hretired, hrows, hkept, -⟩ :=
    retire_all (chunkSettled db job payload) { db with attendance }
  simp only [hretired] at hst
  obtain ⟨hdb, hgrows, hstored⟩ := storeRecords_ok (fun source hs hnone hheld punch hpunch => by
    have hmem := mem_chunkIngestible hs hnone hheld
    have := hholds _ ((mem_bindEvents hevents).mpr ⟨source, hmem, punch, hpunch, rfl⟩)
    exact this) hst
  rw [hgeneration] at hstored
  -- a settled row is canonical at the ordinal of the record that settles it
  have hsettled : ∀ prior ∈ chunkSettled db job payload, ∃ source ∈ payload.records,
      (reading db job payload.records source).kept = none ∧ prior ∈ db.manifests ∧
      prior.Canonical job.terminalGeneration job.sourceEpochId source.ordinal := by
    intro prior hprior
    obtain ⟨source, hs, hr⟩ := mem_chunkSettled.mp hprior
    exact ⟨source, hs, by rw [hr]; rfl, sourceRow_eq_some (reading_settled hr)⟩
  have hcovered : ∀ g e o, Covered db.manifests g e o → Covered st.db.manifests g e o := by
    rintro g e o ⟨m, hm, hc⟩
    by_cases hprior : ∃ prior ∈ chunkSettled db job payload, m.id = prior.id
    · obtain ⟨prior, hprior, hid⟩ := hprior
      obtain ⟨source, hs, hnone, hmem, hcanonical⟩ := hsettled prior hprior
      obtain rfl := Table.eq_of_rowId hm hmem hid
      obtain ⟨-, rfl, rfl, rfl⟩ := hc
      obtain ⟨-, h₁, h₂, h₃⟩ := hcanonical
      rw [h₁, h₂, h₃]
      exact hstored source hs hnone
    · push Not at hprior
      exact hgrows.covered ⟨m, hkept m hm hprior, hc⟩
  have hchunks : st.db.chunks = db.chunks := by rw [hdb]
  refine ⟨⟨attendance, st.db.manifests, _, _, by rw [hdb]; rfl, by rw [← hchunks]; rfl, ?_, ?_, ?_⟩,
    ?_⟩
  · rfl
  · exact hgeneration
  · rfl
  refine ⟨hcovered, fun source hs => ?_, fun hunique => hgrows.unique ?_, fun m hm hc => ?_,
    fun m hm j hj => ?_, ?_⟩
  · rcases hnone : (reading db job payload.records source).kept with _ | prior
    · exact hstored source hs hnone
    · obtain ⟨hmem, hc⟩ := sourceRow_eq_some (reading_kept hnone)
      exact hcovered _ _ _ ⟨prior, hmem, hc⟩
  · intro m hm m' hm' g e o hc hc'
    have hold : ∀ x ∈ t, x.Canonical g e o → x ∈ db.manifests := by
      rintro x hx ⟨hx', -⟩
      rcases hrows x hx with h | ⟨prior, -, rfl⟩
      · exact h
      · cases hx'
    exact hunique m (hold m hm hc) m' (hold m' hm' hc') g e o hc hc'
  · rcases hgrows.new m hm with hm | ⟨-, source, hs, -, hread⟩
    · rcases hrows m hm with hm | ⟨prior, -, rfl⟩
      · exact .inl hm
      · cases hc
    · have hread := hread hc
      refine .inr ⟨source, hs, { hread with parsed := fun hparsed => ?_ }⟩
      have := hread.parsed hparsed
      rw [hdb]
      exact this
  · rcases hgrows.new m hm with hm | ⟨hjob, source, hs, hordinal, -⟩
    · rcases hrows m hm with hm | ⟨prior, hprior, rfl⟩
      · exact .inl ⟨m, hm, hj, rfl⟩
      · obtain ⟨source, -, -, hmem, -⟩ := hsettled prior hprior
        exact .inl ⟨prior, hmem, hj, rfl⟩
    · refine .inr ⟨Option.some_inj.mp (hj.symm.trans hjob), ?_⟩
      have := (ordinal_bounds payload.contiguous hs).2
      rw [hordinal, payload.range]
      exact this
  · rw [hdb]
    exact hkeeps

end Chunk

/-! ### A committed tail -/

section Tail

variable {env : Env D} {db : Db D} {coverage : Coverage D} {payload : TailRequest D}
  {bound : BoundAttendance D}

/-- The receipt a committed tail leaves. -/
def TailRequest.receipt (payload : TailRequest D) : Receipt D :=
  ⟨payload.startOrdinal, payload.endOrdinal, payload.records.length, payload.chunkDigest,
    some payload.previousChainDigest, payload.resultingChainDigest⟩

/-- How a committed tail changes the ledger: it adds a canonical row for each record. -/
structure Extension (db : Db D) (coverage : Coverage D) (payload : TailRequest D) (db' : Db D) :
    Prop where
  grows : Grows (fun m => m.jobId = none ∧
    ∃ source ∈ payload.records, StoredRead db' payload.recordSize source m)
    db.manifests db'.manifests
  stored : ∀ source ∈ payload.records, Covered db'.manifests payload.terminalGeneration
    coverage.sourceEpochId source.ordinal
  attendance : Keeps db.attendance db'.attendance

/-- The records of a tail, stored one after the other. -/
lemma storeTailRecords_ok {before ingested : Db D} {events : List (AttendanceEventIn D)}
    {seenKeys : List D} {n : Nat} {st : Storing D}
    (hingested : ∀ source ∈ payload.records,
      source.ordinal ∉ (tailHeldUids before payload).map Prod.fst →
      ∀ punch, sourcePunch source = some punch → ingested.Holds punch.eventUid)
    (h : payload.records.foldlM (storeTailRecord before coverage payload events)
      ⟨ingested, seenKeys, n⟩ = .ok st) :
    st.db = { ingested with manifests := st.db.manifests } ∧
      Grows (fun m => m.jobId = none ∧
        ∃ source ∈ payload.records, StoredRead ingested payload.recordSize source m)
        ingested.manifests st.db.manifests ∧
      ∀ source ∈ payload.records, Covered st.db.manifests payload.terminalGeneration
        coverage.sourceEpochId source.ordinal := by
  refine foldlM_ok (P := fun done st => st.db = { ingested with manifests := st.db.manifests } ∧
    Grows (fun m => m.jobId = none ∧
      ∃ source ∈ payload.records, StoredRead ingested payload.recordSize source m)
      ingested.manifests st.db.manifests ∧
    ∀ source ∈ done, Covered st.db.manifests payload.terminalGeneration
      coverage.sourceEpochId source.ordinal) h ⟨rfl, Grows.refl _, by simp⟩ ?_
  rintro done source st st' hdone ⟨hdb, hgrows, hcovered⟩ hstore
  have hsource : source ∈ payload.records := hdone.subset (by simp)
  simp only [storeTailRecord, bind_eq_ok, pure_eq_ok] at hstore
  obtain ⟨stored, hadd, rfl⟩ := hstore
  refine ⟨?_, hgrows.trans ((grows_of_addManifest hadd).mono ?_), fun x hx => ?_⟩
  · obtain ⟨-, heq⟩ := addManifest_eq_ok.mp hadd
    rw [heq, hdb]
  · rintro m rfl
    refine ⟨rfl, source, hsource, rfl, rfl, rfl, rfl, rfl, fun hparsed => ?_⟩
    have hattendance : st.db.attendance = ingested.attendance := by rw [hdb]
    rw [hattendance] at hparsed
    exact storedDisposition_parsed
      (fun hheld => hingested source hsource (of_decide_eq_false hheld)) hparsed
  · rcases List.mem_append.mp hx with hx | hx
    · exact (grows_of_addManifest hadd).covered (hcovered x hx)
    · rw [List.mem_singleton.mp hx]
      exact ⟨_, mem_of_addManifest hadd, rfl, rfl, rfl, rfl⟩

/-- The tables a committed tail leaves. -/
lemma commitTail_ok {answer : TailAnswer D}
    (hbound : boundSourceAttendance env db coverage.terminalSerial payload.records false =
      .ok bound)
    (h : commitTail env db coverage payload bound = .ok answer) :
    (∃ attendance manifests tailChunks row, answer.db =
        { db with
          attendance, manifests, tailChunks
          coverages := db.coverages.put { coverage with
            sourceCommittedCursor := payload.endOrdinal
            sourceCommittedChainDigest := payload.resultingChainDigest } } ∧
      tailChunks.rows = db.tailChunks.rows ++ [row] ∧ row.coverageId = coverage.id ∧
      row.generation = payload.terminalGeneration ∧ row.receipt = payload.receipt) ∧
    Extension db coverage payload answer.db := by
  simp only [commitTail, addTailChunk, bind_eq_ok, pure_eq_ok] at h
  obtain ⟨st, hst, stored, ⟨-, -, rfl⟩, rfl⟩ := h
  obtain ⟨⟨bindings, hbindings⟩, hevents⟩ := boundSourceAttendance_ok hbound
  obtain ⟨attendance, hattendance⟩ :=
    ingestAttendance_eq env bound.db (tailAttendance db payload bound)
  have hkeeps : Keeps db.attendance attendance := by
    have := ingestAttendance_keeps env bound.db (tailAttendance db payload bound)
    rw [hattendance] at this
    exact (boundSourceAttendance_keeps hbound).trans this
  have hholds : ∀ event ∈ tailAttendance db payload bound,
      ({ bound.db with attendance } : Db D).Holds event.eventUid := by
    intro event hevent
    exact hattendance ▸ ingestAttendance_holds env bound.db hevent
  rw [hattendance, hbindings] at hst
  obtain ⟨hdb, hgrows, hstored⟩ := storeTailRecords_ok (fun source hs hheld punch hpunch => by
    have hmem := (mem_bindEvents hevents).mpr ⟨source, hs, punch, hpunch, rfl⟩
    have hfree := not_mem_heldNewestUids hs hpunch hheld
    have := hholds _ (List.mem_filter.mpr ⟨hmem, decide_eq_true hfree⟩)
    exact this) hst
  have htails : st.db.tailChunks = db.tailChunks := by rw [hdb]
  refine ⟨⟨attendance, st.db.manifests, _, _, by rw [hdb]; rfl, by rw [← htails]; rfl, ?_, ?_, ?_⟩,
    ⟨hgrows.mono ?_, hstored, ?_⟩⟩
  · rfl
  · rfl
  · rfl
  · rintro m ⟨hjob, source, hs, hread⟩
    refine ⟨hjob, source, hs, { hread with parsed := fun hparsed => ?_ }⟩
    have := hread.parsed hparsed
    rw [hdb]
    exact this
  · rw [hdb]
    exact hkeeps

end Tail

/-! ### Coverages taken out of service -/

section Withdrawn

variable {t t' t'' : Table (Coverage D)}

/-- Coverages were taken out of service, and none was changed otherwise. -/
structure Withdrawn (t t' : Table (Coverage D)) : Prop where
  rows : ∀ c' ∈ t', ∃ c ∈ t, (c'.active = true → c' = c) ∧
    c' = { c with active := c'.active, invalidatedReason := c'.invalidatedReason }
  length : t'.rows.length = t.rows.length

omit [DecidableEq D] in
lemma Withdrawn.refl (t : Table (Coverage D)) : Withdrawn t t :=
  ⟨fun c hc => ⟨c, hc, fun _ => rfl, rfl⟩, rfl⟩

omit [DecidableEq D] in
lemma Withdrawn.trans (h : Withdrawn t t') (h' : Withdrawn t' t'') : Withdrawn t t'' where
  rows c'' hc'' := by
    obtain ⟨c', hc', hactive', heq'⟩ := h'.rows c'' hc''
    obtain ⟨c, hc, hactive, heq⟩ := h.rows c' hc'
    refine ⟨c, hc, fun hc'' => ?_, by rw [heq', heq]⟩
    obtain rfl := hactive' hc''
    exact hactive hc''
  length := h'.length.trans h.length

omit [DecidableEq D] in
lemma withdrawn_put {c : Coverage D} (hc : c ∈ t) (reason : Option String) :
    Withdrawn t (t.put { c with active := false, invalidatedReason := reason }) where
  rows c' hc' := by
    rcases Table.of_mem_put hc' with rfl | ⟨hc', -⟩
    · exact ⟨c, hc, by simp, rfl⟩
    · exact ⟨c', hc', fun _ => rfl, rfl⟩
  length := Table.length_put _ _

omit [DecidableEq D] in
lemma withdrawn_map (t : Table (Coverage D)) (reason : Option String) :
    Withdrawn t (t.map (fun c =>
        if c.active then { c with active := false, invalidatedReason := reason } else c)
      fun c => by split_ifs <;> rfl) where
  rows c' hc' := by
    obtain ⟨c, hc, rfl⟩ := Table.mem_map.mp hc'
    split_ifs with hactive
    · exact ⟨c, hc, by simp, rfl⟩
    · exact ⟨c, hc, fun _ => rfl, rfl⟩
  length := List.length_map _

end Withdrawn

/-! ### A recovery epoch -/

section Recovery

variable {env : Env D} {db db' : Db D} {job : Job D} {divergence : Divergence D}

omit [DecidableEq D] in
/-- The prefix that a recovery copies, row by row. -/
lemma recoveryCopies_ok {epoch : Nat} {rows : List (Manifest D)}
    (h : rows.foldlM (fun st prior => st.addManifest (recoveryCopy epoch prior)) db = .ok db') :
    db' = { db with manifests := db'.manifests } ∧
      Grows (fun m => ∃ prior ∈ rows, m = recoveryCopy epoch prior m.id)
        db.manifests db'.manifests ∧
      ∀ prior ∈ rows, ∃ id, recoveryCopy epoch prior id ∈ db'.manifests := by
  refine foldlM_ok (P := fun done st => st = { db with manifests := st.manifests } ∧
    Grows (fun m => ∃ prior ∈ rows, m = recoveryCopy epoch prior m.id)
      db.manifests st.manifests ∧
    ∀ prior ∈ done, ∃ id, recoveryCopy epoch prior id ∈ st.manifests) h
    ⟨rfl, Grows.refl _, by simp⟩ ?_
  rintro done prior st st' hdone ⟨hdb, hgrows, hcopied⟩ hadd
  have hprior : prior ∈ rows := hdone.subset (by simp)
  refine ⟨?_, hgrows.trans ((grows_of_addManifest hadd).mono ?_), fun x hx => ?_⟩
  · obtain ⟨-, heq⟩ := addManifest_eq_ok.mp hadd
    rw [heq, hdb]
  · rintro m rfl
    exact ⟨prior, hprior, rfl⟩
  · rcases List.mem_append.mp hx with hx | hx
    · obtain ⟨id, hid⟩ := hcopied x hx
      exact ⟨id, (grows_of_addManifest hadd).kept _ hid⟩
    · rw [List.mem_singleton.mp hx]
      exact ⟨_, mem_of_addManifest hadd⟩

omit [DecidableEq D] in
lemma mem_ledgerScope {g e start stop : Nat} {m : Manifest D} :
    m ∈ db.ledgerScope g e start stop ↔
      m ∈ db.manifests ∧ m.Canonical g e m.ordinal ∧ start ≤ m.ordinal ∧ m.ordinal < stop := by
  simp only [Db.ledgerScope, List.mem_filter, Bool.and_eq_true, beq_iff_eq, decide_eq_true_eq,
    Manifest.Canonical, and_assoc, true_and]
  exact Iff.rfl

/-- A probe that activates a recovery epoch: the rows below the job's checkpoint in the
divergence's epoch are canonical in the new one too, and no coverage is active. -/
structure Recovered (db : Db D) (job : Job D) (divergence : Divergence D) (db' : Db D) :
    Prop where
  tables : ∃ epochs manifests divergences, db' = { db with
    epochs, manifests, divergences
    coverages := db'.coverages
    jobs := db.jobs.put { job with
      sourceEpochId := db.epochs.rows.length, status := .queued, error := none } }
  grows : Grows (fun m => ∃ prior ∈ db.manifests, prior.canonicalSource = true ∧
    m = recoveryCopy db.epochs.rows.length prior m.id) db.manifests db'.manifests
  copied : ∀ o < job.committedNextOrdinal,
    Covered db.manifests job.terminalGeneration divergence.sourceEpochId o →
    Covered db'.manifests job.terminalGeneration db.epochs.rows.length o
  withdrawn : Withdrawn db.coverages db'.coverages

omit [DecidableEq D] in
lemma activateRecoveryEpoch_ok (h : activateRecoveryEpoch env db job divergence = .ok db') :
    (∃ state error, db' = (db.putDivergence { divergence with state }).putJob
      { job with status := .needsAttention, error }) ∨
    Recovered db job divergence db' := by
  dsimp only [activateRecoveryEpoch] at h
  split_ifs at h with hlimit
  · cases h
    exact .inl ⟨_, _, rfl⟩
  · simp only [bind_eq_ok, pure_eq_ok] at h
    obtain ⟨-, -, copied, hcopied, rfl⟩ := h
    obtain ⟨hdb, hgrows, hcopies⟩ := recoveryCopies_ok hcopied
    refine .inr ⟨⟨_, _, _, by rw [hdb]; rfl⟩, hgrows.mono ?_, ?_, ?_⟩
    · rintro m ⟨prior, hprior, hm⟩
      obtain ⟨hmem, ⟨hc, -⟩, -⟩ := mem_ledgerScope.mp hprior
      exact ⟨prior, hmem, hc, hm⟩
    · rintro o ho ⟨m, hm, hc⟩
      obtain ⟨hc, hg, he, rfl⟩ := hc
      obtain ⟨id, hid⟩ := hcopies m (mem_ledgerScope.mpr
        ⟨hm, ⟨hc, hg, he, rfl⟩, Nat.zero_le _, ho⟩)
      exact ⟨_, hid, rfl, hg, rfl, rfl⟩
    · rw [hdb]
      exact withdrawn_map _ _

end Recovery

end Reconciliation
