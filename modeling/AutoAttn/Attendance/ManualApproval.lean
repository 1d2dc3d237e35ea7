import Mathlib.Logic.Relation
import AutoAttn.Attendance.ManualGuard

/-!
# Attendance that needed approval

The requirement of approval is in the flag of the row and nowhere else: what the row was like before
a flush makes no difference to the guard. So it lasts while the application does not clear the flag.
-/

namespace Attendance

variable {row : AttendanceEvent} {s : Session} {id : Nat}

/-! ### What the guard does to a row -/

/-- The row with the flag that the guard gives it. -/
def AttendanceEvent.flagged (row : AttendanceEvent) : AttendanceEvent :=
  { row with manualReleaseRequired := requiresApproval row }

/-- The row as the guard holds it back. -/
def AttendanceEvent.heldBack (row : AttendanceEvent) : AttendanceEvent :=
  { row with
    manualReleaseRequired := true, ordsStatus := some .blockedIdentity
    oracleConfirmedAt := none, oracleConfirmationPath := none }

lemma requiresApproval_iff :
    requiresApproval row = true ↔
      row.isHeld = true ∨ row.manualReleaseRequired = true ∧ row.resolved = false := by
  cases hheld : row.isHeld <;> cases hres : row.resolved <;> simp [requiresApproval, hheld, hres]

/-- The history is of no use: the flag is set if the row as it is now requires approval. -/
lemma retainFlag_eq (s : Session) (id : Nat) (row : AttendanceEvent) :
    s.retainFlag id row = row.flagged := by
  rw [Session.retainFlag, AttendanceEvent.flagged]
  cases hreq : requiresApproval row with
  | false => rfl
  | true =>
    rw [Bool.not_true, if_neg Bool.false_ne_true]
    rcases requiresApproval_iff.1 hreq with hheld | ⟨hmanual, -⟩
    · simp [hheld]
    · rw [← hmanual, ite_self]

/-- The flag does not change whether the row requires approval. -/
@[simp] lemma requiresApproval_flagged (row : AttendanceEvent) :
    requiresApproval row.flagged = requiresApproval row := by
  have hiff : requiresApproval row.flagged = true ↔ row.isHeld = true ∨
      requiresApproval row = true ∧ row.resolved = false := requiresApproval_iff
  rw [Bool.eq_iff_iff, hiff, requiresApproval_iff]
  tauto

lemma guardEvent_eq (s : Session) (id : Nat) (row : AttendanceEvent) :
    s.guardEvent id row =
      if requiresApproval row && row.isDelivering && !s.approved (s.rowId id) then row.heldBack
      else row.flagged := by
  rw [Session.guardEvent, retainFlag_eq, Session.deliveryAuthorized, requiresApproval_flagged]
  cases hreq : requiresApproval row with
  | false => simp [AttendanceEvent.flagged, hreq]
  | true =>
    have hflag : row.flagged.manualReleaseRequired = true := hreq
    have hdeliver : row.flagged.isDelivering = row.isDelivering := rfl
    rw [hflag, hdeliver, Bool.not_true, if_neg Bool.false_ne_true, AttendanceEvent.flagged, hreq]
    rfl

/-- What the guard lets through is the row with its flag. -/
lemma guardEvent_of_delivering (h : (s.guardEvent id row).isDelivering = true) :
    s.guardEvent id row = row.flagged ∧
      (requiresApproval row = true → s.approved (s.rowId id) = true) := by
  rw [guardEvent_eq] at h ⊢
  split_ifs at h ⊢ with hback
  · cases h
  · refine ⟨rfl, fun hreq => ?_⟩
    have hdeliver : row.isDelivering = true := h
    simpa [hreq, hdeliver] using hback

/-- The guard keeps the flag or the resolution, if the row comes with one of them or is held. -/
lemma guardEvent_keeps (h : row.manualReleaseRequired = true ∨ row.isHeld = true ∨ row.resolved = true) :
    (s.guardEvent id row).manualReleaseRequired = true ∨ (s.guardEvent id row).resolved = true := by
  rw [guardEvent_eq]
  split_ifs with hback
  · exact .inl rfl
  · change requiresApproval row = true ∨ row.resolved = true
    rw [requiresApproval_iff]
    cases hres : row.resolved with
    | true => exact .inr rfl
    | false =>
      rw [hres] at h
      tauto

/-! ### Runs -/

/-- The database, and the events for which a flush ever stored a held status or the flag. -/
structure State where
  db : Db
  needed : Nat → Prop

/-- The row says that approval is needed. -/
def AttendanceEvent.needs (row : AttendanceEvent) : Prop :=
  row.manualReleaseRequired = true ∨ row.isHeld = true

/-- A database before the run. -/
def State.initial (db : Db) : State := ⟨db, fun id => ∃ row, db.events id = some row ∧ row.needs⟩

def State.flush (st : State) (s : Session) : State where
  db := s.flush
  needed id := st.needed id ∨ ∃ row, s.flush.events id = some row ∧ row.needs

/-- The session can flush. Rows have ids from one on, and the columns of a status are not nullable:
only a row that is inserted can do without. -/
structure Flushes (st : State) (s : Session) : Prop where
  db : s.db = st.db
  ids : s.events 0 = none
  assigned : ∀ id row, s.events id = some row → (st.db.events id).isSome → row.ordsStatus.isSome
  outboxAssigned : ∀ id row, s.outbox id = some row → (st.db.outbox id).isSome → row.status.isSome

/-- The application does not clear the flag of an event that ever needed approval, unless the event
is resolved or held, and it inserts no outbox row for it without a status. -/
structure Retains (st : State) (s : Session) : Prop where
  event : ∀ id row, st.needed id → s.events id = some row →
    row.manualReleaseRequired = true ∨ row.isHeld = true ∨ row.resolved = true
  outbox : ∀ j o id, st.needed id → s.outbox j = some o → o.attendanceEventId = some id →
    o.status.isSome

/-- Flushes that meet a condition. -/
inductive Run (Meets : State → Session → Prop) : State → Prop where
  | initial {db : Db} (h : db.events 0 = none) : Run Meets (.initial db)
  | flush {st : State} {s : Session} (h : Run Meets st) (hs : Flushes st s) (hm : Meets st s) :
      Run Meets (st.flush s)

/-- An event that ever needed approval, or its outbox row, is stored for delivery only if a decision
approves it or its identity is resolved. -/
structure Guarded (st : State) (s : Session) : Prop where
  event : ∀ id row row', st.needed id → s.events id = some row → s.flush.events id = some row' →
    row'.isDelivering = true → s.approved (some id) = true ∨ row'.resolved = true
  outbox : ∀ j o o' id, st.needed id → s.outbox j = some o → s.flush.outbox j = some o' →
    o'.attendanceEventId = some id → o'.isDelivering = true →
    s.approved (some id) = true ∨ ∃ row, s.flush.events id = some row ∧ row.resolved = true

/-- What a run that retains the flag keeps: the flag, or what stands in for it. -/
structure Inv (st : State) : Prop where
  ids : st.db.events 0 = none
  kept : ∀ id, st.needed id → ∃ row, st.db.events id = some row ∧
    (row.manualReleaseRequired = true ∨ row.isHeld = true ∨ row.resolved = true)

lemma flush_event (h : s.events id = some row) :
    s.flush.events id = some (Session.storeEvent (s.guardEvent id row)) := by
  simp [Session.flush, h]

lemma flush_event_none (h : s.events id = none) : s.flush.events id = s.db.events id := by
  simp [Session.flush, h]

/-- A step keeps the invariant. -/
lemma Inv.flush {st : State} (h : Inv st) (hs : Flushes st s) (hr : Retains st s) :
    Inv (st.flush s) where
  ids := by
    change s.flush.events 0 = none
    rw [flush_event_none hs.ids, hs.db, h.ids]
  kept id hneeded := by
    change ∃ row, s.flush.events id = some row ∧ _
    rcases hneeded with hneeded | ⟨row, hrow, hneeds⟩
    · cases hev : s.events id with
      | none =>
        rw [flush_event_none hev, hs.db]
        exact h.kept id hneeded
      | some row =>
        refine ⟨_, flush_event hev, ?_⟩
        exact (guardEvent_keeps (hr.event id row hneeded hev)).imp_right .inr
    · exact ⟨row, hrow, hneeds.imp_right .inl⟩

lemma Run.inv {st : State} (h : Run Retains st) : Inv st := by
  induction h with
  | initial h => exact ⟨h, fun id ⟨row, hrow, hneeds⟩ => ⟨row, hrow, hneeds.imp_right .inl⟩⟩
  | flush _ hs hm ih => exact ih.flush hs hm

/-! ### Delivery -/

lemma storeEvent_of_assigned (h : row.ordsStatus.isSome) : Session.storeEvent row = row := by
  obtain ⟨status, _, _, _, _, _, _, _⟩ := row
  cases status with
  | none => cases h
  | some _ => rfl

lemma storeOutbox_of_assigned {o : OrdsOutbox} (h : o.status.isSome) : Session.storeOutbox o = o := by
  obtain ⟨_, status, _, _, _⟩ := o
  cases status with
  | none => cases h
  | some _ => rfl

/-- A row that is stored with a status has one. -/
lemma storeEvent_guardEvent (h : row.ordsStatus.isSome) :
    Session.storeEvent (s.guardEvent id row) = s.guardEvent id row := by
  apply storeEvent_of_assigned
  rw [guardEvent_eq]
  split_ifs
  · rfl
  · exact h

/-- A row that comes with the flag, held or resolved, and requires no approval, is resolved. -/
lemma resolved_of_not_requires
    (h : row.manualReleaseRequired = true ∨ row.isHeld = true ∨ row.resolved = true)
    (hreq : requiresApproval row = false) : row.resolved = true := by
  by_contra hres
  rw [Bool.not_eq_true] at hres
  have hnot := Bool.eq_false_iff.1 hreq
  rw [Ne, requiresApproval_iff, hres] at hnot
  rw [hres] at h
  tauto

/-- What the guard of outbox rows lets through. -/
lemma guardOutbox_delivering {o : OrdsOutbox} {attendance : AttendanceEvent}
    (hid : o.attendanceEventId = some id) (h0 : id ≠ 0) (hget : s.getEvent id = some attendance)
    (h : (s.guardOutbox o).isDelivering = true) : s.deliveryAuthorized (some id) attendance = true := by
  have hfind : (o.attendanceEventId.filter (· ≠ 0)).bind s.getEvent = some attendance := by
    rw [hid, Option.filter_some, if_pos (by simpa using h0)]
    exact hget
  rw [Session.guardOutbox] at h
  split_ifs at h with hdeliver
  · rw [hfind, hid] at h
    by_contra hauth
    simp only [hauth] at h
    cases h
  · exact absurd h hdeliver

lemma attendanceEventId_guardOutbox (s : Session) (o : OrdsOutbox) :
    (s.guardOutbox o).attendanceEventId = o.attendanceEventId := by
  rw [Session.guardOutbox]
  split_ifs
  · split
    · split_ifs <;> rfl
    · rfl
  · rfl

lemma status_guardOutbox (s : Session) {o : OrdsOutbox} (h : o.status.isSome) :
    (s.guardOutbox o).status.isSome := by
  rw [Session.guardOutbox]
  split_ifs
  · split
    · split_ifs
      · exact h
      · rfl
    · exact h
  · exact h

/-- A session that retains the flag delivers nothing that needs approval and has none. -/
lemma Inv.guarded {st : State} (h : Inv st) (hs : Flushes st s) (hr : Retains st s) :
    Guarded st s where
  event id row row' hneeded hrow hrow' hdeliver := by
    obtain ⟨old, hold, -⟩ := h.kept id hneeded
    have hid : s.rowId id = some id := by simp [Session.rowId, hs.db, hold]
    rw [flush_event hrow, storeEvent_guardEvent (hs.assigned id row hrow (by simp [hold]))] at hrow'
    obtain rfl := Option.some.inj hrow'
    obtain ⟨heq, happroved⟩ := guardEvent_of_delivering hdeliver
    cases hreq : requiresApproval row with
    | true => exact .inl (hid ▸ happroved hreq)
    | false =>
      have hres : row.resolved = true := resolved_of_not_requires (hr.event id row hneeded hrow) hreq
      exact .inr (heq ▸ hres)
  outbox j o o' id hneeded ho ho' hid hdeliver := by
    obtain ⟨old, hold, hkept⟩ := h.kept id hneeded
    have h0 : id ≠ 0 := by
      rintro rfl
      rw [h.ids] at hold
      cases hold
    have ho'' : o' = Session.storeOutbox (s.guardOutbox o) := by
      simpa [Session.flush, ho] using ho'.symm
    rw [ho''] at hid
    have hido : o.attendanceEventId = some id := (attendanceEventId_guardOutbox s o).symm.trans hid
    have hstatus := status_guardOutbox s (hr.outbox j o id hneeded ho hido)
    rw [ho'', storeOutbox_of_assigned hstatus] at hdeliver
    -- The event as the guard of outbox rows sees it.
    obtain ⟨attendance, hget, hkept', hflush⟩ : ∃ attendance, s.getEvent id = some attendance ∧
        (attendance.manualReleaseRequired = true ∨ attendance.isHeld = true ∨
          attendance.resolved = true) ∧
        ∃ row, s.flush.events id = some row ∧ row.resolved = attendance.resolved := by
      cases hev : s.events id with
      | none =>
        refine ⟨old, by simp [Session.getEvent, hs.db, hold, hev], hkept, old, ?_, rfl⟩
        rw [flush_event_none hev, hs.db, hold]
      | some row =>
        refine ⟨s.guardEvent id row, by simp [Session.getEvent, hs.db, hold, hev], ?_, _,
          flush_event hev, rfl⟩
        exact (guardEvent_keeps (hr.event id row hneeded hev)).imp_right .inr
    have hauth := guardOutbox_delivering hido h0 hget hdeliver
    rw [Session.deliveryAuthorized] at hauth
    split_ifs at hauth with hreq
    · have hres := resolved_of_not_requires hkept' (by simpa using hreq)
      obtain ⟨row, hrow, heq⟩ := hflush
      exact .inr ⟨row, hrow, heq.trans hres⟩
    · exact .inl hauth

/-- While the application does not clear the flag of events that ever needed approval, no flush
stores such an event or its outbox row for delivery, unless a decision approves it or its identity
is resolved. Where it clears the flag, the guard stores the row as it is, and an outbox row that is
inserted without a status is pending. -/
theorem approval_required_while_flag_retained {st : State} (h : Run Retains st) (hs : Flushes st s) :
    (Retains st s → Guarded st s) ∧
    (∀ id row, st.needed id → s.events id = some row → row.manualReleaseRequired = false →
      row.isHeld = false → s.flush.events id = some row) ∧
    ∀ j o, s.outbox j = some o → o.status = none → ∃ o', s.flush.outbox j = some o' ∧
      o'.attendanceEventId = o.attendanceEventId ∧ o'.status = some .pending := by
  refine ⟨h.inv.guarded hs, fun id row hneeded hrow hmanual hheld => ?_, fun j o ho hstatus => ?_⟩
  · obtain ⟨old, hold, -⟩ := h.inv.kept id hneeded
    have hreq : requiresApproval row = false := by
      rw [← Bool.not_eq_true, requiresApproval_iff, hmanual, hheld]
      simp
    have hflagged : row.flagged = row := by rw [AttendanceEvent.flagged, hreq, ← hmanual]
    rw [flush_event hrow, storeEvent_guardEvent (hs.assigned id row hrow (by simp [hold])),
      guardEvent_eq, hreq, hflagged]
    rfl
  · have hguard : s.guardOutbox o = o := by simp [Session.guardOutbox, OrdsOutbox.isDelivering, hstatus]
    refine ⟨Session.storeOutbox o, by simp [Session.flush, ho, hguard], rfl, ?_⟩
    simp [Session.storeOutbox, hstatus]

/-! ### An event whose flag is cleared -/

def sampleEvent : AttendanceEvent where
  ordsStatus := some .blockedIdentity
  manualReleaseRequired := false
  identityResolutionStatus := .other "BLOCKED_IDENTITY"
  identityRepairReason := none
  cnicLookupHash := none
  clockQuality := .ok
  oracleConfirmedAt := none
  oracleConfirmationPath := none

def noDecisions : Decisions := ⟨[], [], [], []⟩

/-- A session that writes one event. -/
def writing (db : Db) (row : AttendanceEvent) : Session where
  db := db
  events id := if id = 1 then some row else none
  outbox _ := none
  newForceRelease := []
  newSafeRepair := []
  priorRequired _ := [true]
  stored := noDecisions

lemma eq_of_writing {db : Db} {row' : AttendanceEvent} (h : (writing db row).events id = some row') :
    row' = row := by
  simp only [writing] at h
  split_ifs at h
  exact (Option.some.inj h).symm

def emptyDb : Db := ⟨fun _ => none, fun _ => none, noDecisions⟩

/-- The event was stored as held. -/
def heldState : State := (State.initial emptyDb).flush (writing emptyDb sampleEvent)

lemma run_heldState (Meets : State → Session → Prop)
    (h : Meets (.initial emptyDb) (writing emptyDb sampleEvent)) : Run Meets heldState := by
  refine .flush (.initial rfl) ⟨rfl, rfl, fun id row _ hstored => ?_, fun id row hrow => ?_⟩ h
  · cases hstored
  · cases hrow

lemma flushes_heldState {row : AttendanceEvent} (h : row.ordsStatus.isSome) :
    Flushes heldState (writing heldState.db row) := by
  refine ⟨rfl, rfl, fun id row' hrow _ => ?_, fun id row' hrow => ?_⟩
  · rw [eq_of_writing hrow]
    exact h
  · cases hrow

lemma needed_heldState : heldState.needed 1 :=
  .inr ⟨{ sampleEvent with manualReleaseRequired := true }, by decide +kernel, .inl rfl⟩

theorem approval_required_while_flag_retained_held :
    Guarded heldState (writing heldState.db
      { sampleEvent with ordsStatus := some .pending, manualReleaseRequired := true }) := by
  have hrun : Run Retains heldState := by
    refine run_heldState _ ⟨fun id row ⟨_, hnone, _⟩ => ?_, fun _ _ id ⟨_, hnone, _⟩ => ?_⟩
    · cases hnone
    · cases hnone
  refine (approval_required_while_flag_retained hrun (flushes_heldState rfl)).1
    ⟨fun id row _ hrow => ?_, fun j o id _ ho => ?_⟩
  · rw [eq_of_writing hrow]
    exact .inl rfl
  · cases ho

/-- The application clears the flag with the status, and what was held is pending with no decision. -/
theorem cleared_flag_lifts_requirement :
    ∃ st s, Run (fun _ _ => True) st ∧ Flushes st s ∧ st.needed 1 ∧ s.approved (some 1) = false ∧
      ¬Guarded st s := by
  let row : AttendanceEvent := { sampleEvent with ordsStatus := some .pending }
  refine ⟨heldState, writing heldState.db row, run_heldState _ trivial, flushes_heldState rfl,
    needed_heldState, by decide +kernel, fun hguarded => ?_⟩
  have hstored : (writing heldState.db row).flush.events 1 = some row := by decide +kernel
  rcases hguarded.event 1 row row needed_heldState rfl hstored (by decide +kernel) with hno | hno
  · revert hno
    decide +kernel
  · revert hno
    decide +kernel

end Attendance
