import AutoAttn.QueueEvidence.Rejections
import AutoAttn.UniqueKeys

/-!
# What the alerts say about refused copies

An alert lists the pending copies and counts the untracked refusals. Only refusals and acceptances of queue
evidence change them, and no other type of message does, also when an alert is closed or its entries are
dropped.
-/

namespace QueueEvidence

/-! ### Held copies -/

section Held

variable {store : Store} {copy other : Copy} {row : Row}

/-- What a held row has to match. -/
lemma holdsRefusedCopy_ne_none :
    holdsRefusedCopy copy row ≠ none ↔ copy.reason ∉ operatorOnlyReasons ∧ isDigest row.payloadDigest = true ∧
      (row.identity = copy.identity ∧ (some row.payloadDigest = digest? copy.claimedDigest ∨
          some row.payloadDigest = digest? copy.receivedDigest) ∨ SameBytes copy row) := by
  unfold holdsRefusedCopy
  dsimp only
  split_ifs <;> simp_all

/-- Matching reads the key, the checksum, and whether the reason is for an operator. -/
lemma holdsRefusedCopy_congr (hkey : copy.key = other.key) (hcrc : copy.receivedCrc32 = other.receivedCrc32)
    (hcopy : copy.reason ∉ operatorOnlyReasons) (hother : other.reason ∉ operatorOnlyReasons) :
    holdsRefusedCopy copy row = holdsRefusedCopy other row := by
  simp only [Copy.key, Key.mk.injEq] at hkey
  obtain ⟨hidentity, hclaimed, hreceived⟩ := hkey
  have hnames : namesReceivedBytes copy = namesReceivedBytes other := by
    rw [namesReceivedBytes, namesReceivedBytes, hidentity, hcrc]
  have hsame : SameBytes copy row ↔ SameBytes other row := by
    rw [SameBytes, SameBytes, hidentity, hclaimed, hreceived, hnames]
  simp only [holdsRefusedCopy, hsame, hidentity, hclaimed, hreceived, hcopy, hother, if_false]

lemma mem_of_firstById {rows : List Row} (h : firstById rows = some row) : row ∈ rows := List.argmin_mem h

lemma exists_firstById {rows : List Row} (p : Row → Bool) (hrow : row ∈ rows) (hp : p row = true) :
    ∃ found ∈ rows, p found = true ∧ firstById (rows.filter p) = some found := by
  cases hfirst : firstById (rows.filter p) with
  | none =>
    rw [firstById, List.argmin_eq_none, List.filter_eq_nil_iff] at hfirst
    exact absurd hp (hfirst row hrow)
  | some found =>
    obtain ⟨hfound, hpfound⟩ := List.mem_filter.1 (mem_of_firstById hfirst)
    exact ⟨found, hfound, hpfound, rfl⟩

lemma mem_rows_of_mem_heldCandidates (h : some row ∈ heldCandidates store copy) : row ∈ store.rows := by
  simp only [heldCandidates, List.mem_append, List.mem_singleton, List.mem_ite_nil_right] at h
  obtain (h | ⟨-, h⟩) | ⟨-, h⟩ := h
  · exact List.mem_of_find?_eq_some h.symm
  · exact List.mem_of_mem_filter (List.mem_of_mem_filter (mem_of_firstById h.symm))
  · exact List.mem_of_mem_filter (List.mem_of_mem_filter (mem_of_firstById h.symm))

/-- There is one row for an identity. -/
lemma find?_identity (hrow : row ∈ store.rows) (hidentity : row.identity = copy.identity) :
    store.rows.find? (·.identity = copy.identity) = some row :=
  (UniqueKeys.find?_eq_some store.unique).2 ⟨hrow, hidentity⟩

/-- If a row holds the copy, then so does a row that `find_held_copy` looks at. -/
lemma exists_mem_heldCandidates (hrow : row ∈ store.rows) (hholds : holdsRefusedCopy copy row ≠ none) :
    ∃ found, some found ∈ heldCandidates store copy ∧ holdsRefusedCopy copy found ≠ none := by
  have hne := hholds
  rw [holdsRefusedCopy_ne_none] at hholds
  obtain ⟨hreason, -, ⟨hidentity, -⟩ | ⟨hqueue, hgeneration, hdigest⟩⟩ := hholds
  · refine ⟨row, ?_, hne⟩
    simp [heldCandidates, find?_identity hrow hidentity]
  have helse : row ∈ store.rows.filter fun row => row.identity.queue = copy.identity.queue ∧
      row.identity.queueGeneration ≠ copy.identity.queueGeneration := by
    simp [hrow, hqueue, hgeneration]
  by_cases hclaimed : some row.payloadDigest = digest? copy.claimedDigest
  · obtain ⟨found, hfound, hdigest, hfirst⟩ := exists_firstById
      (some ·.payloadDigest = digest? copy.claimedDigest) helse (decide_eq_true hclaimed)
    have hne : digest? copy.claimedDigest ≠ none := by simp [← hclaimed]
    refine ⟨found, ?_, ?_⟩
    · refine List.mem_append_left _ (List.mem_append_right _ ?_)
      rw [if_pos hne, hfirst]
      exact List.mem_singleton_self _
    · simp only [List.mem_filter, decide_eq_true_eq] at hfound hdigest
      exact holdsRefusedCopy_ne_none.2
        ⟨hreason, store.digests _ hfound.1, .inr ⟨hfound.2.1, hfound.2.2, .inl hdigest⟩⟩
  · obtain ⟨hreceived, hrecord, hnames⟩ := hdigest.resolve_left hclaimed
    obtain ⟨found, hfound, hdigest, hfirst⟩ := exists_firstById
      (fun row => row.identity.recordId = copy.identity.recordId ∧
        some row.payloadDigest = digest? copy.receivedDigest) helse (decide_eq_true ⟨hrecord, hreceived⟩)
    have hne : digest? copy.receivedDigest ≠ none := by simp [← hreceived]
    refine ⟨found, ?_, ?_⟩
    · refine List.mem_append_right _ ?_
      rw [if_pos ⟨hne, fun h => hclaimed (hreceived.trans h), hnames⟩, hfirst]
      exact List.mem_singleton_self _
    · simp only [List.mem_filter, decide_eq_true_eq] at hfound hdigest
      exact holdsRefusedCopy_ne_none.2 ⟨hreason, store.digests _ hfound.1,
        .inr ⟨hfound.2.1, hfound.2.2, .inr ⟨hdigest.2, hdigest.1, hnames⟩⟩⟩

lemma findHeldCopy_mem {result : Match × Finding} (h : findHeldCopy store copy = some (row, result)) :
    row ∈ store.rows ∧ holdsRefusedCopy copy row = some result := by
  unfold findHeldCopy at h
  split_ifs at h with hreason
  obtain ⟨row?, hmem, hrow⟩ := List.exists_of_findSome?_eq_some h
  simp only [Option.bind_eq_some_iff, Option.map_eq_some_iff, Prod.mk.injEq] at hrow
  obtain ⟨found, rfl, result', hresult, rfl, rfl⟩ := hrow
  exact ⟨mem_rows_of_mem_heldCandidates hmem, hresult⟩

lemma findHeldCopy_eq_none :
    findHeldCopy store copy = none ↔ ∀ row ∈ store.rows, holdsRefusedCopy copy row = none := by
  constructor
  · intro h row hrow
    by_contra hholds
    obtain ⟨found, hmem, hfound⟩ := exists_mem_heldCandidates hrow hholds
    have hreason := (holdsRefusedCopy_ne_none.1 hholds).1
    rw [findHeldCopy, if_neg hreason, List.findSome?_eq_none_iff] at h
    have hnone := h _ hmem
    simp [hfound] at hnone
  · intro h
    cases hfound : findHeldCopy store copy with
    | none => rfl
    | some found =>
      obtain ⟨hrow, hresult⟩ := findHeldCopy_mem hfound
      rw [h _ hrow] at hresult
      exact absurd hresult (by simp)

end Held

/-! ### What the alerts list -/

/-- The pending copies and the untracked refusals of an entry. -/
def unheld (entry : Option Entry) : List Copy × Nat :=
  (entry.bind (·.tracking)).elim ([], 0) fun t => (t.pending, t.untrackedRefusals)

/-- The pending copies and the untracked refusals of an open alert. -/
def unheldOf (alerts : Alerts) (code : Code) : List Copy × Nat :=
  unheld ((alerts code).bind (·.types.get? queueEvidence))

lemma unheld_of_unheldEvidence {entry : Option Entry} (h : entry.elim (0, 0) unheldEvidence = (0, 0)) :
    unheld entry = ([], 0) := by
  cases entry with
  | none => rfl
  | some entry =>
    cases ht : entry.tracking with
    | none => simp [unheld, ht]
    | some t => simpa [unheld, unheldEvidence, ht] using h

lemma unheld_startTracking (entry : Option Entry) :
    ((startTracking entry).pending, (startTracking entry).untrackedRefusals) = unheld entry := by
  unfold startTracking unheld
  cases entry.bind (·.tracking) <;> rfl

/-- Dropping old entries loses no refused copy. -/
lemma unheld_evict (rounds : Nat) (types : Types) :
    unheld ((evict rounds types).get? queueEvidence) = unheld (types.get? queueEvidence) := by
  induction rounds generalizing types with
  | zero => rfl
  | succ rounds ih =>
    unfold evict
    split_ifs with hlong
    · split
      · rfl
      · rename_i p hp
        rw [ih]
        by_cases hname : p.1 = queueEvidence
        · have hdrop := (List.mem_filter.1 (List.argmin_mem hp)).2
          rw [decide_eq_true_eq, hname] at hdrop
          rw [hname, Types.get?_erase_self, unheld_of_unheldEvidence hdrop]
          rfl
        · rw [Types.get?_erase types (Ne.symm hname)]
    · rfl

lemma unheld_alertTypes (existing : Option Alert) :
    unheld ((alertTypes existing).get? queueEvidence) = unheld (existing.bind (·.types.get? queueEvidence)) := by
  cases existing with
  | none => rfl
  | some alert =>
    unfold alertTypes
    dsimp only
    split_ifs with hlegacy
    · -- A legacy row has no tracked copies, whatever its type.
      simp only [Option.bind_some, hlegacy.1]
      by_cases hname : alert.messageType = queueEvidence <;> simp [Types.get?, hname, unheld]
    · rfl

variable {store : Store} {alerts : Alerts} {r : Refusal} {evidence : Option Facts}

lemma unheldOf_record_ne {code : Code} (h : code ≠ r.category.code) :
    unheldOf (recordMessageRejection store alerts r evidence) code = unheldOf alerts code := by
  rw [unheldOf, unheldOf, recordMessageRejection, Function.update_of_ne h]

/-- An alert lists what is in the entry of queue evidence, also if it is closed. -/
lemma unheld_recordedAlert (existing : Option Alert) {entry : Entry} {resolution : Option Resolution}
    (h : r.messageType = queueEvidence) :
    unheld ((recordedAlert existing r entry resolution).bind (·.types.get? queueEvidence)) =
      unheld (some entry) := by
  cases hheld : heldAtOnce entry resolution with
  | false =>
    simp only [recordedAlert, hheld, h, Bool.false_eq_true, false_and, if_false, Option.bind_some, upsertAlert]
    rw [unheld_evict, Types.get?_set_self]
  | true =>
    have hempty : (some entry).elim (0, 0) unheldEvidence = (0, 0) := by simp_all [heldAtOnce]
    rw [unheld_of_unheldEvidence hempty]
    simp only [recordedAlert, hheld, h, true_and, if_true]
    split_ifs
    · cases existing with
      | none => rfl
      | some alert =>
        simp only [Option.map_some, Option.bind_some]
        rw [unheld_evict, Types.get?_erase_self]
        rfl
    · rfl

/-- A refusal of another type changes nothing. -/
lemma unheldOf_record_other (h : r.messageType ≠ queueEvidence) :
    unheldOf (recordMessageRejection store alerts r evidence) r.category.code =
      unheldOf alerts r.category.code := by
  have hheld (entry) : heldAtOnce entry none = false := rfl
  simp only [unheldOf, recordMessageRejection, refusedEntry, if_neg h, recordedAlert, hheld,
    Function.update_self, Bool.false_eq_true, false_and, if_false, Option.bind_some, upsertAlert]
  rw [unheld_evict, Types.get?_set _ _ h.symm, unheld_alertTypes]

/-- A refusal of queue evidence tracks its copy. -/
lemma unheldOf_record (h : r.messageType = queueEvidence) :
    unheldOf (recordMessageRejection store alerts r evidence) r.category.code =
      let t := (trackRefusedEvidence store ((alertTypes (alerts r.category.code)).get? queueEvidence)
        evidence r).1
      (t.pending, t.untrackedRefusals) := by
  rw [unheldOf, recordMessageRejection]
  dsimp only
  rw [Function.update_self, unheld_recordedAlert _ h, refusedEntry, if_pos h, h]
  rfl

variable {messageType : String} {row? : Option Row} {now : Nat}

lemma unheld_settled (alert : Alert) (remaining : Types) (held : List Resolution) :
    unheld ((settled alert remaining held).bind (·.types.get? queueEvidence)) =
      unheld (remaining.get? queueEvidence) := by
  by_cases hnil : remaining = []
  · rw [settled, if_pos hnil, hnil]
    rfl
  · rw [settled, if_neg hnil]
    rfl

/-- An acceptance of another type changes nothing. -/
lemma unheldOf_resolve_other (h : messageType ≠ queueEvidence) (code : Code) :
    unheldOf (resolveMessageRejection alerts messageType row? now) code = unheldOf alerts code := by
  unfold unheldOf resolveMessageRejection
  cases alerts code with
  | none => rfl
  | some alert =>
    simp only [Option.bind_some, resolveAlert, if_neg h]
    split_ifs with hnil htype
    · rw [hnil]
      rfl
    · rfl
    · cases alert.types.get? messageType with
      | none => rfl
      | some entry =>
        dsimp only
        rw [unheld_settled, Types.get?_erase _ h.symm]

/-- The copies of an entry without those that the accepted row holds. -/
lemma unheld_settleRefusedEvidence (entry : Entry) :
    unheld (settleRefusedEvidence entry row? now).1 =
      ((unheld (some entry)).1.filter fun copy => row?.bind (holdsRefusedCopy copy) = none,
        (unheld (some entry)).2) := by
  unfold settleRefusedEvidence
  split
  · rename_i hnone
    simp [unheld, hnone]
  · rename_i t ht
    dsimp only
    split_ifs with hdone
    · simp only [unheld, Option.bind_none, Option.bind_some, ht, Option.elim, hdone]
    · simp only [unheld, Option.bind_some, ht, Option.elim]

/-- If an entry does not change, then the accepted row holds none of its copies. -/
lemma unheld_of_not_changed {entry : Entry} (h : (settleRefusedEvidence entry row? now).2.2 = false) :
    unheld (settleRefusedEvidence entry row? now).1 = unheld (some entry) := by
  rw [unheld_settleRefusedEvidence, Prod.mk.injEq, List.filter_eq_self]
  refine ⟨?_, rfl⟩
  intro copy hcopy
  unfold settleRefusedEvidence at h
  split at h
  · simp at h
  · rename_i t ht
    dsimp only at h
    split_ifs at h with hdone
    have hpending : copy ∈ t.pending := by simpa [unheld, ht] using hcopy
    simp only [Bool.or_eq_false_iff, decide_eq_false_iff_not, not_not, List.filterMap_eq_nil_iff] at h
    have hnone := h.1.1 copy hpending
    cases row? with
    | none => rfl
    | some row => simpa using hnone

/-- An accepted copy removes those that it holds. -/
lemma unheldOf_resolve (code : Code) :
    unheldOf (resolveMessageRejection alerts queueEvidence row? now) code =
      ((unheldOf alerts code).1.filter fun copy => row?.bind (holdsRefusedCopy copy) = none,
        (unheldOf alerts code).2) := by
  unfold unheldOf resolveMessageRejection
  cases alerts code with
  | none => rfl
  | some alert =>
    simp only [Option.bind_some, resolveAlert, if_pos]
    split_ifs with hnil htype
    · rw [hnil]
      rfl
    · rw [hnil]
      simp only [Option.bind_some, hnil]
      rfl
    · cases hentry : alert.types.get? queueEvidence with
      | none => simp [hentry, unheld]
      | some entry =>
        dsimp only
        rw [← unheld_settleRefusedEvidence]
        split_ifs with hchanged
        · rw [unheld_settled]
          cases (settleRefusedEvidence entry row? now).1 with
          | none => simp
          | some outstanding => simp
        · rw [unheld_of_not_changed (by simpa using hchanged), Option.bind_some, hentry]

end QueueEvidence
