import AutoAttn.Reconciliation.NewestSlot

/-!
# What a read is compared with, and the attendance it carries

The ledger of an older terminal generation that a read must still match, and the punches that a
verified read hands to ingestion.
-/

namespace Reconciliation

variable {D : Type} [DecidableEq D]

/-! ### The older generation's ledger -/

/-- The result of `_lineage_predecessor`. -/
structure Predecessor where
  sourceEpochId : Option Nat
  generation : Nat
  through : Nat
  rowRequired : Bool

/-- `_replay_window` of the certificate of a coverage. -/
def replayWindow (coverage : Coverage D) : Option (Nat × Replay) :=
  coverage.captureEvidence.supersededGeneration.bind fun block =>
    block.replay.map fun replay => (block.terminalGeneration, replay)

/-- An older generation's coverage that is still active has not been replaced yet. -/
def olderActive (db : Db D) (generation : Nat) (serial : Option String) : Option (Coverage D) :=
  db.coverages.rows.find? fun row =>
    row.active && decide (row.terminalGeneration < generation) && some row.terminalSerial == serial

/-- The first replay window among the certificates of an epoch. Generation 1 replaced nothing. -/
def epochReplay (db : Db D) (generation sourceEpochId : Nat) : Option (Nat × Replay) :=
  if 1 < generation then
    db.coverages.rows.findSome? fun row =>
      if row.terminalGeneration = generation ∧ row.sourceEpochId = sourceEpochId then
        replayWindow row
      else none
  else none

/-- `_lineage_predecessor`: the older ledger a read in `generation` must still match. A tail
passes the coverage it extends, a job passes none. -/
def lineagePredecessor (db : Db D) (generation : Nat) (serial : Option String)
    (sourceEpochId : Nat) (coverage : Option (Coverage D)) : Option Predecessor :=
  match coverage, olderActive db generation serial with
  | none, some row =>
    some ⟨row.sourceEpochId, row.terminalGeneration, row.sourceCommittedCursor, false⟩
  | _, _ =>
    ((coverage.bind replayWindow).or (epochReplay db generation sourceEpochId)).map
      fun ⟨ledger, replay⟩ =>
        ⟨(db.epochs.get? replay.sourceEpoch).map (·.id), ledger, replay.through,
          replay.previousRowRequired⟩

/-- The row that `_predecessor_rows` finds for an ordinal. -/
def predecessorRow (db : Db D) (predecessor : Predecessor) (ordinal : Nat) :
    Option (Manifest D) :=
  if ordinal < predecessor.through then
    predecessor.sourceEpochId.bind fun epoch => db.sourceRow predecessor.generation epoch ordinal
  else none

/-! ### Attendance -/

/-- `_replay_conflict`: the first retained fact a verified replay contradicts. -/
def replayConflict (row : Attendance D) (incoming : AttendanceEventIn D) (terminalSerial : String) :
    Option String :=
  if row.owned = false ∧ row.deviceSerial = none then some "SOURCE_REPLAY_TERMINAL_UNPROVEN"
  else if row.deviceSerial ≠ none ∧ row.deviceSerial ≠ some terminalSerial then
    some "SOURCE_REPLAY_TERMINAL_MISMATCH"
  else if row.userId ≠ incoming.userId then some "SOURCE_REPLAY_USER_MISMATCH"
  else if row.deviceEventTime ≠ incoming.deviceEventTime then some "SOURCE_REPLAY_TIME_MISMATCH"
  else if row.owned = false ∧ row.punch ≠ incoming.punch then some "SOURCE_REPLAY_PUNCH_MISMATCH"
  else none

/-- The nested events of verified records, bound to the terminal they were read from. -/
def bindEvents (terminalSerial : String) :
    List (SourceRecord D) → Except Refusal (List (AttendanceEventIn D))
  | []             => .ok []
  | source :: rest =>
    match source.event with
    | none          => bindEvents terminalSerial rest
    | some incoming => do
      refuse (incoming.terminalSerial ≠ none ∧ incoming.terminalSerial ≠ some terminalSerial)
        (.evidence "SOURCE_EVENT_TERMINAL_MISMATCH"
          "Attendance terminal differs from its source envelope.")
      refuse (incoming.source ≠ .fullHistory ∧ incoming.source ≠ .currentReconcile)
        (.evidence "SOURCE_EVENT_CAPTURE_TYPE_INVALID"
          "Source history must use a historical capture type.")
      let events ← bindEvents terminalSerial rest
      return if sourceIdentityMissing source then events
        else { incoming with terminalSerial := some terminalSerial } :: events

/-- What `_bound_source_attendance` returns: the events to ingest, and the rows of other
connectors that already hold one of these punches. -/
structure BoundAttendance (D : Type) where
  db : Db D
  events : List (AttendanceEventIn D)
  retainedElsewhere : List (Attendance D)

/-- The last event with a UID, as a dictionary keeps it. -/
def eventOf (events : List (AttendanceEventIn D)) (uid : D) : Option (AttendanceEventIn D) :=
  events.reverse.find? fun event => event.eventUid = uid

/-- `_bound_source_attendance` -/
def boundSourceAttendance (env : Env D) (db : Db D) (terminalSerial : Option String)
    (records : List (SourceRecord D)) (linkRetainedElsewhere : Bool) :
    Except Refusal (BoundAttendance D) := do
  refuse (terminalSerial = none ∨ terminalSerial = some "" ∨ terminalSerial ≠ db.zktSerial)
    (.evidence "SOURCE_TERMINAL_BINDING_MISMATCH"
      "Source terminal no longer matches the connector binding.")
  let serial := terminalSerial.getD ""
  let events ← bindEvents serial records
  let existing := db.attendance.rows.filter fun row => (eventOf events row.eventUid).isSome
  let retainedElsewhere := existing.filter fun row => !row.owned
  if retainedElsewhere ≠ [] ∧ linkRetainedElsewhere = false then
    return ⟨db, events, retainedElsewhere⟩
  else do
    refuse (retainedElsewhere ≠ [] ∧ env.ownerStillBound retainedElsewhere = true)
      (.evidence "SOURCE_REPLAY_OWNER_STILL_BOUND"
        "Replayed attendance conflicts with retained source ownership.")
    let conflict := existing.findSome? fun row =>
      (eventOf events row.eventUid).bind fun incoming => replayConflict row incoming serial
    match conflict with
    | some code =>
      throw (.evidence code "Replayed attendance conflicts with retained source ownership.")
    | none =>
      -- a legacy row of this connector gets the serial that the replay verified
      let attendance := db.attendance.map
        (fun row =>
          if row.owned ∧ (eventOf events row.eventUid).isSome ∧ row.deviceSerial = none ∧
              env.reviewed row.id = false then
            { row with deviceSerial := some serial }
          else row)
        (fun row => by split_ifs <;> rfl)
      return ⟨{ db with attendance }, events, retainedElsewhere⟩

/-- `ingest_attendance`: store each punch whose UID ADD does not hold yet. -/
def ingestAttendance (env : Env D) (db : Db D) : List (AttendanceEventIn D) → Db D
  | []                 => db
  | incoming :: events =>
    if db.Holds incoming.eventUid then ingestAttendance env db events
    else
      let attendance := db.attendance.insert fun id =>
        { id, eventUid := incoming.eventUid, owned := true
          deviceSerial := incoming.terminalSerial, userId := incoming.userId
          deviceEventTime := incoming.deviceEventTime, punch := incoming.punch
          blockedIdentity := (env.identity incoming).1, cnicKnown := (env.identity incoming).2 }
      ingestAttendance env { db with attendance } events

/-- The stored event of a record, among the punches that were ingested with it. -/
def storedEvent (attendance : Table (Attendance D)) (ingested : List (AttendanceEventIn D))
    (source : SourceRecord D) : Option (Attendance D) :=
  (sourcePunch source).bind fun punch =>
    if (eventOf ingested punch.eventUid).isSome then
      attendance.rows.find? fun row => row.eventUid = punch.eventUid
    else none

/-- The disposition a record is stored with, by the event it is linked to. -/
def storedDisposition (source : SourceRecord D) (event : Option (Attendance D)) (held : Bool)
    (seenKeys : List D) : Disposition :=
  let disposition :=
    if sourceIdentityMissing source || held then .identityUnresolved else source.disposition
  match event with
  | none     => disposition
  | some row =>
    if source.terminalRecordKey ∈ seenKeys then .terminalDuplicate
    else if row.blockedIdentity then .blockedIdentity
    else if disposition = .blockedIdentity ∧ row.cnicKnown then .event
    else disposition

/-- `SOURCE_MISSING_REFERENCE` -/
def sourceMissingReference : String := "HISTORICAL_IDENTITY_EVIDENCE_REQUIRED"

/-- The error code a record is stored with. -/
def storedErrorCode (source : SourceRecord D) (held : Bool) : Option String :=
  if sourceIdentityMissing source then some sourceMissingReference
  else if held then some heldCode
  else source.errorCode

/-- The keys of canonical rows below `start`, against which a record counts as a duplicate. -/
def seenTerminalKeys (db : Db D) (generation epoch start : Nat) : List D :=
  (db.ledgerScope generation epoch 0 start).map (·.terminalRecordKey)

end Reconciliation
