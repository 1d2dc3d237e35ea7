import AutoAttn.Json

/-!
# History jobs

A job asks the terminal for one page after another: every record that it holds, those of the active
users, or only those at its end. Its row keeps how far it came.
-/

namespace Hikvision

/-! ### Evidence -/

inductive Channel where
  | stream
  | history
  | push
  | poll
deriving DecidableEq

inductive Disposition where
  | qualificationPending
  | sourceEpochRequired
  | unclassifiedSource
  | sourceFactConflict
  | sourceEpochReview
  | nonAttendance
  | identityBlocked
  | identityFactConflict
  | duplicateObservation
  | attendance
  | other (name : String)
deriving DecidableEq

/-- `HikvisionEvidence`, of one connector. -/
structure Evidence (D T : Type) where
  id : Nat
  terminalSerial : String
  sourceEpoch : String
  observationSha256 : D
  eventUid : Option D
  immutableDigest : Option D
  sourceEventId : Option Int
  channel : Channel
  disposition : Disposition
  raw : T

/-- The evidence rows of the connector. -/
structure Custody (D T : Type) where
  rows : List (Evidence D T)
  nextId : Nat

/-- A record of the checkpointed poll. -/
def pollCustody {D T : Type} (policy : String × String) (e : Evidence D T) : Bool :=
  e.terminalSerial = policy.1 && e.sourceEpoch = policy.2 && e.channel = .poll && e.eventUid.isSome

/-! ### Requests, checkpoints and certificates -/

/-- `AcsEventCond`. -/
structure Cond where
  searchID : String
  searchResultPosition : Int := 0
  maxResults : Nat
  major : Int := 0
  minor : Int := 0
  picEnable : Bool := false
  beginSerialNo : Option Int := none
  endSerialNo : Option Int := none
  employeeNoString : Option String := none

/-- The fields of `SerialCheckpoint`, as `asdict` stores them. -/
structure Fields (D : Type) where
  firstSerial : Int
  cutoffSerial : Int
  retainedCount : Int
  committedCount : Int
  lastSerial : Int
  chainDigest : D
deriving DecidableEq

/-- What a job certifies: an enumeration, or that the terminal was empty, or an enumeration for each
of the active users. -/
inductive Certificate (D : Type) where
  | serialSeek (firstSerial cutoffSerial recordCount : Int) (chainDigest firstAnchor lastAnchor : D)
  | empty
  | activeUsers (snapshotId : String) (snapshotDigest : D) (cutoffSerial recordCount : Int)
      (users : List (String × Certificate D))

/-! ### The state of a job -/

/-- The phases of the state of a job. -/
inductive Phase where
  | scopeFirst
  | scopeLast
  | scopeVerify
  | scopeEmptyVerify
  | first
  | verifyEmpty
  | last
  | count
  | scan1
  | scan2
  | verifyFirst
  | verifyLast
  | tail
  | sealed
deriving DecidableEq

/-- What the data of a job say of one enumeration. -/
structure History (D : Type) where
  firstSerial : Option Int := none
  lastSerial : Option Int := none
  initialCount : Option Int := none
  firstAnchor : Option D := none
  lastAnchor : Option D := none
  checkpoint : Option (Fields D) := none
  firstPass : Option (Fields D) := none
  secondPass : Option (Fields D) := none

/-- What they say of the frozen list of active users. -/
structure ActiveUsers (D : Type) where
  employeeNumbers : List String
  snapshotId : String
  snapshotDigest : D
  userIndex : Nat := 0
  completedRecords : Int := 0
  userCertificates : List (String × Certificate D) := []
  scopeFirst : Option Int := none
  scopeFirstAnchor : Option D := none
  scopeInitialCount : Option Int := none
  scopeCutoff : Option Int := none

/-- What they say of a tail. -/
structure Tail where
  anchorSerial : Int
  beginSerial : Int
  pollTopSerial : Int
  boundarySerial : Option Int := none
  stepbacks : Nat := 0
  lastSerial : Option Int := none
  lastFacts : Option (List Json) := none
  pages : Nat := 0
  records : Nat := 0
  overlapRecords : Nat := 0
  factConflicts : Nat := 0
  confirmedConflicts : Nat := 0
  continuityConflicts : Nat := 0
  anchorReturned : Option Bool := none
  caughtUp : Bool := false
  caughtUpAt : Option Nat := none
  followAfter : Option Nat := none
  lastPageAt : Option Nat := none
  pollOkEpoch : Option Int := none
  recentRequests : List (String × Cond) := []

inductive Scope (D : Type) where
  | allRecords
  | activeUsers (users : ActiveUsers D)
  | recentTail (tail : Tail)

/-- `HikvisionReconciliationState.data`. The token and the request are set and removed together. -/
structure Data (D : Type) where
  scope : Scope D
  phase : Phase
  history : History D := {}
  assigned : Option (String × Cond) := none

inductive JobStatus where
  | queued
  | running
  | needsAttention
  | paused
  | cancelled
  | failed
  | invalidated
  | completed
deriving DecidableEq

inductive JobPhase where
  | scanningTerminal
  | followingTerminalTail
  | safetyHold
  | oracleAssurance
  | completed
  | other (name : String)
deriving DecidableEq

/-- `ReconciliationJob`. -/
structure Job (D : Type) where
  jobId : String
  serialHistory : Bool
  terminalSerial : String
  status : JobStatus
  phase : JobPhase
  reviewRequired : Bool
  errorCode : Option String
  errorMessage : Option String
  waitReason : Option String
  cutoffCount : Option Int
  scannedCount : Int
  addDurableCount : Int
  captureCertificate : Option (Certificate D)
  captureCertifiedAt : Option Nat
  completionOutcome : Option String
  startedAt : Option Nat
  completedAt : Option Nat
  nextRetryAt : Option Nat
  lastProgressAt : Option Nat

end Hikvision
