import AutoAttn.Reconciliation.Effects

/-!
# Punches read at the newest slot

A punch that ADD does not hold is handed to ingestion only with a read of it away from the
terminal's newest slot. The rule rests on what stored rows say about the punch they were read as.
-/

namespace Reconciliation

variable {D : Type}

/-! ### Rows with a parsed disposition -/

/-- The record carries its event under a parsed disposition and nothing else is parsed, and its
bytes determine the UID of the event. -/
structure Decodes (uidOf : D → D) (source : SourceRecord D) : Prop where
  carried : source.event ≠ none → source.disposition = .event ∨ source.disposition = .blockedIdentity
  declared : source.disposition ≠ .terminalDuplicate
  uid : ∀ e ∈ source.event, e.eventUid = uidOf source.rawRecordDigest

instance [DecidableEq D] (uidOf : D → D) (source : SourceRecord D) :
    Decidable (Decodes uidOf source) :=
  decidable_of_iff ((source.event.isSome → source.disposition = .event ∨
      source.disposition = .blockedIdentity) ∧ source.disposition ≠ .terminalDuplicate ∧
      ∀ e ∈ source.event, e.eventUid = uidOf source.rawRecordDigest)
    ⟨fun h => ⟨fun he => h.1 (Option.isSome_iff_ne_none.mpr he), h.2.1, h.2.2⟩,
      fun h => ⟨fun he => h.carried (Option.isSome_iff_ne_none.mp he), h.declared, h.uid⟩⟩

/-- Every record of the call decodes so. -/
def CallDecodes (uidOf : D → D) : Call D → Prop
  | .chunk _ payload => ∀ source ∈ payload.records, Decodes uidOf source
  | .tail _ payload  => ∀ source ∈ payload.records, Decodes uidOf source
  | _                => True

instance [DecidableEq D] (uidOf : D → D) (call : Call D) : Decidable (CallDecodes uidOf call) :=
  match call with
  | .chunk _ payload =>
    inferInstanceAs (Decidable (∀ source ∈ payload.records, Decodes uidOf source))
  | .tail _ payload =>
    inferInstanceAs (Decidable (∀ source ∈ payload.records, Decodes uidOf source))
  | .create .. | .anchor .. | .release .. | .probe .. | .manifest .. | .fault _ | .heartbeat ..
  | .manage .. | .capture _ => inferInstanceAs (Decidable True)

variable {uidOf : D → D} {db db' : Db D}

/-- ADD holds the punch of every canonical row that is stored as parsed. -/
def ParsedInv (uidOf : D → D) (db : Db D) : Prop :=
  ∀ m ∈ db.manifests, m.canonicalSource = true → m.disposition ∈ parsedDispositions →
    db.Holds (uidOf m.rawRecordDigest)

lemma StoredRead.holds {recordSize : Nat} {source : SourceRecord D} {m : Manifest D}
    (h : StoredRead db recordSize source m) (hdecodes : Decodes uidOf source)
    (hparsed : m.disposition ∈ parsedDispositions) : db.Holds (uidOf m.rawRecordDigest) := by
  rcases h.parsed hparsed with hdeclared | ⟨e, he, hholds⟩
  · exact absurd hdeclared hdecodes.declared
  · rw [h.digest, ← hdecodes.uid e he]
    exact hholds

/-- Rows that stay keep their punch. -/
lemma ParsedInv.of_new (h : ParsedInv uidOf db) (hattendance : Keeps db.attendance db'.attendance)
    (hnew : ∀ m ∈ db'.manifests, m.canonicalSource = true → m.disposition ∈ parsedDispositions →
      m ∈ db.manifests ∨ db'.Holds (uidOf m.rawRecordDigest)) : ParsedInv uidOf db' := by
  intro m hm hc hparsed
  rcases hnew m hm hc hparsed with hm | hholds
  · exact hattendance.holds (h m hm hc hparsed)
  · exact hholds

variable [DecidableEq D] {hash : Hash D}

lemma ParsedInv.step {call : Call D} (h : ParsedInv uidOf db) (hmeets : CallDecodes uidOf call)
    (hrun : call.run hash db = .ok db') : ParsedInv uidOf db' := by
  cases effect_of_run hrun with
  | quiet hquiet =>
    refine h.of_new hquiet.attendance fun m hm hc _ => ?_
    rcases hquiet.manifests.new m hm with hm | ⟨hnew, -⟩
    · exact .inl hm
    · rw [hnew] at hc
      cases hc
  | created closed rows new => exact h.of_new (.refl _) fun m hm _ _ => .inl hm
  | anchored hjob => exact h.of_new (.refl _) fun m hm _ _ => .inl hm
  | scanned hjob size continues rows owner generation receipt tables hrescan =>
    refine h.of_new hrescan.attendance fun m hm hc hparsed => ?_
    rcases hrescan.canonical m hm hc with hm | ⟨source, hs, hread⟩
    · exact .inl hm
    · exact .inr (hread.holds (hmeets source hs) hparsed)
  | extended active continues rows owner generation receipt tables hextension =>
    refine h.of_new hextension.attendance fun m hm hc hparsed => ?_
    rcases hextension.grows.new m hm with hm | ⟨-, source, hs, hread⟩
    · exact .inl hm
    · exact .inr (hread.holds (hmeets source hs) hparsed)
  | recovered hjob hopen hepoch hrecovered =>
    obtain ⟨_, _, _, htables⟩ := hrecovered.tables
    have hattendance : Keeps db.attendance db'.attendance := by
      rw [htables]
      exact .refl _
    refine h.of_new hattendance fun m hm hc hparsed => ?_
    rcases hrecovered.grows.new m hm with hm | ⟨prior, hprior, hcanonical, heq⟩
    · exact .inl hm
    · -- a copy says what the row it copies says
      rw [heq] at hparsed ⊢
      exact .inr (hattendance.holds (h prior hprior hcanonical hparsed))
  | certified hjob hcertified =>
    obtain ⟨_, htables⟩ := hcertified.tables
    rw [htables]
    exact h.of_new (.refl _) fun m hm _ _ => .inl hm

lemma ParsedInv.of_run (h : Run hash (fun _ => CallDecodes uidOf) db) : ParsedInv uidOf db :=
  h.induction (fun _ m hm => (Table.not_mem_empty m hm).elim)
    fun h hmeets hrun => h.step hmeets hrun

/-! ### What is passed to ingestion -/

/-- At the job's final ordinal a read is new, compared as it is, or kept as a receipt. -/
lemma reading_newest (db : Db D) {job : Job D} (records : List (SourceRecord D))
    {source : SourceRecord D} (hnewest : some source.ordinal = baselineNewestOrdinal job) :
    reading db job records source = .fresh ∨
      (∃ prior, reading db job records source = .ordinary prior) ∨
      ∃ prior, reading db job records source = .reread prior := by
  unfold reading
  split
  · exact .inl rfl
  next prior _ =>
    rw [if_pos hnewest]
    split_ifs
    · exact .inr (.inl ⟨prior, rfl⟩)
    · exact .inr (.inl ⟨prior, rfl⟩)
    · exact .inr (.inr ⟨prior, rfl⟩)

/-- Reads that agree with the rows they are compared with have their bytes. -/
lemma ordinaryComparison_agrees {job : Job D} {records rest : List (SourceRecord D)}
    (h : ordinaryComparison db job records rest = .agrees) {source : SourceRecord D}
    (hs : source ∈ rest) {prior : Manifest D}
    (hcompared : (reading db job records source).compared = some prior) :
    prior.rawRecordDigest = source.rawRecordDigest := by
  induction rest with
  | nil => cases hs
  | cons first rest ih =>
    rw [ordinaryComparison] at h
    split at h
    next hnone =>
      rcases List.mem_cons.mp hs with rfl | hs
      · rw [hnone] at hcompared
        cases hcompared
      · exact ih h hs
    next x hx =>
      split_ifs at h with hdigest hkey
      rcases List.mem_cons.mp hs with rfl | hs
      · rw [hx] at hcompared
        cases hcompared
        exact not_not.mp hdigest
      · exact ih h hs

omit [DecidableEq D] in
/-- A record with an event is not raw custody. -/
lemma disposition_ne_rawPreserved {source : SourceRecord D} {punch : AttendanceEventIn D}
    (h : source.event = some punch) : source.disposition ≠ .rawPreserved := by
  intro hraw
  rw [(source.rawPreserved_claims hraw).1] at h
  cases h

/-- A newest read that is not held is held by ADD or read elsewhere in the payload. -/
lemma exists_other_of_not_held {records : List (SourceRecord D)} {newest : Option Nat}
    {source : SourceRecord D} (hs : source ∈ records) {punch : AttendanceEventIn D}
    (hpunch : sourcePunch source = some punch) (hnewest : some source.ordinal = newest)
    (hnot : (source.ordinal, punch.eventUid) ∉ heldNewestUids db records newest)
    (hunknown : ¬ db.Holds punch.eventUid) :
    ∃ other ∈ records, other.event.map (·.eventUid) = some punch.eventUid ∧
      some other.ordinal ≠ newest := by
  by_contra hnone
  push Not at hnone
  refine hnot (mem_heldNewestUids.mpr ⟨source, hs, punch, hpunch, rfl, rfl, hnewest,
    disposition_ne_rawPreserved (sourcePunch_eq_some.mp hpunch).2, hunknown, ?_⟩)
  intro other hother hne heq
  exact hne (hnone other hother heq)

/-- A chunk passes an unknown punch to ingestion only with a read below its job's final slot. -/
lemma chunk_passes_confirmed {env : Env D} {job : Job D} {recordSize : Nat}
    {payload : ChunkRequest D} {bound : BoundAttendance D} (h : ParsedInv uidOf db)
    (hdecodes : ∀ source ∈ payload.records, Decodes uidOf source)
    (hplan : planChunk env db job recordSize payload = .ok (.commit bound))
    {event : AttendanceEventIn D} (hevent : event ∈ bound.events)
    (hunknown : ¬ db.Holds event.eventUid) :
    ∃ source ∈ payload.records, source.event.map (·.eventUid) = some event.eventUid ∧
      some source.ordinal ≠ baselineNewestOrdinal job := by
  obtain ⟨-, hordinary, -, hbound⟩ := planChunk_eq_commit.mp hplan
  obtain ⟨-, hevents⟩ := boundSourceAttendance_ok hbound
  obtain ⟨source, hingestible, punch, hpunch, rfl⟩ := (mem_bindEvents hevents).mp hevent
  obtain ⟨hs, hfilter⟩ := List.mem_filter.mp hingestible
  simp only [Bool.and_eq_true, decide_eq_true_eq] at hfilter
  obtain ⟨hreading, hheld⟩ := hfilter
  have hcarried := (sourcePunch_eq_some.mp hpunch).2
  by_cases hnewest : some source.ordinal = baselineNewestOrdinal job
  swap
  · exact ⟨source, hs, by rw [hcarried]; rfl, hnewest⟩
  rcases reading_newest db payload.records hnewest with
    hfresh | ⟨prior, hprior⟩ | ⟨prior, hprior⟩
  · -- the first read of the slot in its epoch: an unknown punch would be held
    have hnone : db.sourceRow job.terminalGeneration job.sourceEpochId source.ordinal = none := by
      unfold reading at hfresh
      split at hfresh
      · assumption
      · split_ifs at hfresh
    have hin := ordinal_bounds payload.contiguous hs
    rw [← payload.range] at hin
    have huids : chunkHeldUids db job payload =
        heldNewestUids db payload.records (some source.ordinal) := by
      simp only [chunkHeldUids, ← hnewest]
      exact if_pos ⟨by rw [hnone]; rfl, hin⟩
    rw [huids] at hheld
    have hother := exists_other_of_not_held hs hpunch rfl
      (fun hmem => hheld (List.mem_map.mpr ⟨_, hmem, rfl⟩)) hunknown
    rw [← hnewest]
    exact hother
  · -- the slot was read before with the same bytes: its row was stored as parsed
    rw [hprior] at hreading
    have hcompared : (reading db job payload.records source).compared = some prior := by
      rw [hprior]
      rfl
    have hrow := sourceRow_eq_some
      (reading_kept (by rw [hprior]; rfl : (reading db job payload.records source).kept = some prior))
    have hparsed : prior.disposition ∈ parsedDispositions := by
      have hdisposition := (hdecodes source hs).carried (by rw [hcarried]; simp)
      by_contra hnot
      rcases hdisposition with hd | hd <;> simp [interpretationDrift, hnot, hd] at hreading
    have hholds := h prior hrow.1 hrow.2.1 hparsed
    rw [ordinaryComparison_agrees hordinary hs hcompared,
      ← (hdecodes source hs).uid punch hcarried] at hholds
    exact absurd hholds hunknown
  · rw [hprior] at hreading
    cases hreading

/-- A tail passes an unknown punch to ingestion only with a read below the newest slot. -/
lemma tail_passes_confirmed {env : Env D} {serial : Option String} {payload : TailRequest D}
    {bound : BoundAttendance D}
    (hbound : boundSourceAttendance env db serial payload.records false = .ok bound)
    {event : AttendanceEventIn D} (hevent : event ∈ tailAttendance db payload bound)
    (hunknown : ¬ db.Holds event.eventUid) :
    ∃ source ∈ payload.records, source.event.map (·.eventUid) = some event.eventUid ∧
      source.ordinal ≠ payload.latestTerminalCount - 1 := by
  obtain ⟨hbound', hnot⟩ := List.mem_filter.mp hevent
  simp only [decide_eq_true_eq] at hnot
  obtain ⟨-, hevents⟩ := boundSourceAttendance_ok hbound
  obtain ⟨source, hs, punch, hpunch, rfl⟩ := (mem_bindEvents hevents).mp hbound'
  have hcarried := (sourcePunch_eq_some.mp hpunch).2
  by_cases hnewest : source.ordinal = payload.latestTerminalCount - 1
  swap
  · exact ⟨source, hs, by rw [hcarried]; rfl, hnewest⟩
  obtain ⟨other, hother, huid, hne⟩ := exists_other_of_not_held hs hpunch (congrArg some hnewest)
    (fun hmem => hnot (List.mem_map.mpr ⟨_, hmem, rfl⟩)) hunknown
  exact ⟨other, hother, huid, fun heq => hne (congrArg some heq)⟩

/-- The UID that `plainPunch` derives from the bytes behind a digest. -/
def plainUid (digest : List Nat) : List Nat := [digest.getD 1 0]

/-- A job over two records, of which a chunk reads both. -/
def twoPunchesChunk : ChunkRequest (List Nat) :=
  plainChunk 0 0 none (plainPunch 16 0 1) [plainPunch 16 1 2]

/-- A reader declares the only record of the terminal a duplicate, without a punch. -/
def declaredDuplicate : SourceRecord (List Nat) :=
  { plainPunch 16 0 1 with
    disposition := .terminalDuplicate
    event := none
    rawPreserved_claims := nofun
    unresolved_event := nofun
    parsed_event := by simp }

def declaredDuplicateCalls : List (Call (List Nat)) :=
  [.create plainEnv 1, .anchor plainEnv (plainAnchor 0 1 declaredDuplicate 16 layout_sixteen),
    .chunk plainEnv (plainChunk 0 0 none declaredDuplicate []),
    .manage 0 .cancelled none none none none,
    .create plainEnv 1, .anchor plainEnv (plainAnchor 1 1 declaredDuplicate 16 layout_sixteen)]

end Reconciliation
