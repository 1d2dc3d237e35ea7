import Mathlib.Data.List.Basic

/-!
# The approval guard

Attendance whose identity was in doubt is held until someone approves its release. Before each
flush of a session, a hook goes over the rows that the flush is about to write, and holds back what
would be delivered without approval.
-/

namespace Attendance

/-! ### Rows -/

/-- `AttendanceEvent.ords_status` and `OrdsOutbox.status`. -/
inductive OrdsStatus where
  | pending
  | inFlight
  | failedRetryable
  | retrying
  | acked
  | ackedCheck
  | blockedIdentity
  | quarantinedIdentityReuse
  | waitingForSnapshot
  | other (name : String)
deriving DecidableEq

/-- `HELD` -/
def held : List OrdsStatus := [.blockedIdentity, .quarantinedIdentityReuse, .waitingForSnapshot]

/-- The statuses of attendance that is delivered or about to be. -/
def delivering : List OrdsStatus :=
  [.pending, .inFlight, .failedRetryable, .retrying, .acked, .ackedCheck]

inductive ResolutionStatus where
  | resolvedSyncedCnic
  | other (name : String)
deriving DecidableEq

inductive RepairReason where
  | verifiedSyncedCnic
  | other (name : String)
deriving DecidableEq

inductive ClockQuality where
  | ok
  | other (name : String)
deriving DecidableEq

/-- `AttendanceEvent`. A status that was never assigned gets its default on insertion only. -/
structure AttendanceEvent where
  ordsStatus : Option OrdsStatus
  manualReleaseRequired : Bool
  identityResolutionStatus : ResolutionStatus
  identityRepairReason : Option RepairReason
  cnicLookupHash : Option String
  clockQuality : ClockQuality
  oracleConfirmedAt : Option Nat
  oracleConfirmationPath : Option String
deriving DecidableEq

/-- `OrdsOutbox`. -/
structure OrdsOutbox where
  attendanceEventId : Option Nat
  status : Option OrdsStatus
  lastError : Option String
  nextAttemptAt : Option Nat
  acknowledgedAt : Option Nat
deriving DecidableEq

/-- `AttendanceForceReleaseDecision`. -/
structure ForceReleaseDecision where
  attendanceEventId : Option Nat
deriving DecidableEq

/-- `AttendanceSafeRepairDecision`. -/
structure SafeRepairDecision where
  attendanceEventId : Option Nat
  actor : String
deriving DecidableEq

/-- `AttendanceRepairItem`. -/
structure RepairItem where
  attendanceEventId : Option Nat
  jobId : Nat
deriving DecidableEq

/-- `AttendanceRepairJob`. -/
structure RepairJob where
  id : Nat
  approvedAt : Option Nat
deriving DecidableEq

/-- The tables of decisions, in the order of their ids. -/
structure Decisions where
  forceRelease : List ForceReleaseDecision
  safeRepair : List SafeRepairDecision
  repairItems : List RepairItem
  repairJobs : List RepairJob

/-- Events and outbox rows by their ids, and the decisions. -/
structure Db where
  events : Nat → Option AttendanceEvent
  outbox : Nat → Option OrdsOutbox
  decisions : Decisions

/-- A session that is about to flush: the rows of `session.new` and `session.dirty`, as the
application left them, under the ids that they have or get. The history of the flag is empty where
the flag was assigned without having been loaded. `stored` is what the other tables hold after the
flush. -/
structure Session where
  db : Db
  events : Nat → Option AttendanceEvent
  outbox : Nat → Option OrdsOutbox
  newForceRelease : List ForceReleaseDecision
  newSafeRepair : List SafeRepairDecision
  priorRequired : Nat → List Bool
  stored : Decisions

/-! ### Approval -/

/-- The synced CNIC resolves the identity. -/
def AttendanceEvent.resolved (row : AttendanceEvent) : Bool :=
  row.identityResolutionStatus = .resolvedSyncedCnic &&
    row.identityRepairReason = some .verifiedSyncedCnic &&
    row.cnicLookupHash.any (· ≠ "") && row.clockQuality = .ok

def AttendanceEvent.isHeld (row : AttendanceEvent) : Bool := row.ordsStatus.any (· ∈ held)

def AttendanceEvent.isDelivering (row : AttendanceEvent) : Bool :=
  row.ordsStatus.any (· ∈ delivering)

def OrdsOutbox.isDelivering (row : OrdsOutbox) : Bool := row.status.any (· ∈ delivering)

def requiresApproval (row : AttendanceEvent) : Bool :=
  if row.resolved && !row.isHeld then false else row.manualReleaseRequired || row.isHeld

namespace Session

variable (s : Session)

/-- `row.id`: a row of `session.new` has none yet. -/
def rowId (id : Nat) : Option Nat := (s.db.events id).map fun _ => id

def decisionFor (id : Option Nat) : Option ForceReleaseDecision :=
  match (s.newForceRelease.filter (·.attendanceEventId = id)).getLast? with
  | some decision => some decision
  | none          =>
    if id.any (· ≠ 0) then
      (s.db.decisions.forceRelease.filter (·.attendanceEventId = id)).getLast?
    else none

/-- `startswith("system:")` and `like("system:%")`. -/
def systemActor (actor : String) : Bool := "system:".toList.isPrefixOf actor.toList

def safeRepairFor (id : Option Nat) : Bool :=
  (s.newSafeRepair.any fun d => d.attendanceEventId = id && !systemActor d.actor) ||
    (id.any (· ≠ 0) &&
      s.db.decisions.safeRepair.any fun d => d.attendanceEventId = id && !systemActor d.actor)

def repairJobFor (id : Option Nat) : Bool :=
  s.db.decisions.repairItems.any fun item => item.attendanceEventId = id &&
    s.db.decisions.repairJobs.any fun job => job.id = item.jobId && job.approvedAt.isSome

/-- A decision that approves the release of the event. -/
def approved (id : Option Nat) : Bool :=
  (s.decisionFor id).isSome || s.safeRepairFor id || s.repairJobFor id

def deliveryAuthorized (id : Option Nat) (row : AttendanceEvent) : Bool :=
  if !requiresApproval row then true else s.approved id

/-! ### The hook -/

/-- `history.deleted` of the status, which is always loaded before it is assigned. -/
def priorStatus (id : Nat) (row : AttendanceEvent) : List OrdsStatus :=
  match s.db.events id with
  | some old => if old.ordsStatus = row.ordsStatus then [] else old.ordsStatus.toList
  | none     => []

/-- The first part of the loop over events: the flag. -/
def retainFlag (id : Nat) (row : AttendanceEvent) : AttendanceEvent :=
  if !requiresApproval row then { row with manualReleaseRequired := false }
  else if row.isHeld || (s.priorStatus id row).any (· ∈ held) || true ∈ s.priorRequired id then
    { row with manualReleaseRequired := true }
  else row

/-- The loop of `retain_manual_approval_requirement` over events. -/
def guardEvent (id : Nat) (row : AttendanceEvent) : AttendanceEvent :=
  let row := s.retainFlag id row
  if row.manualReleaseRequired && row.isDelivering && !s.deliveryAuthorized (s.rowId id) row then
    { row with
      ordsStatus := some .blockedIdentity, oracleConfirmedAt := none, oracleConfirmationPath := none }
  else row

/-- `session.get`: a stored row, with the changes that the session has to it. -/
def getEvent (id : Nat) : Option AttendanceEvent :=
  (s.db.events id).map fun old => ((s.events id).map (s.guardEvent id)).getD old

/-- The loop of `retain_manual_approval_requirement` over outbox rows. -/
def guardOutbox (row : OrdsOutbox) : OrdsOutbox :=
  if row.isDelivering then
    match (row.attendanceEventId.filter (· ≠ 0)).bind s.getEvent with
    | some attendance =>
      if s.deliveryAuthorized row.attendanceEventId attendance then row
      else
        { row with
          status := some .blockedIdentity, lastError := some "MANUAL_APPROVAL_REQUIRED"
          nextAttemptAt := none, acknowledgedAt := none }
    | none => row
  else row

/-! ### The flush -/

/-- What is written for an event, with the column default. -/
def storeEvent (row : AttendanceEvent) : AttendanceEvent :=
  { row with ordsStatus := some (row.ordsStatus.getD .pending) }

def storeOutbox (row : OrdsOutbox) : OrdsOutbox :=
  { row with status := some (row.status.getD .pending) }

/-- The database after the flush. -/
def flush : Db where
  events id :=
    match s.events id with
    | some row => some (storeEvent (s.guardEvent id row))
    | none     => s.db.events id
  outbox id :=
    match s.outbox id with
    | some row => some (storeOutbox (s.guardOutbox row))
    | none     => s.db.outbox id
  decisions := s.stored

end Session

end Attendance
