import AutoAttn.QueueEvidence.Basic

/-!
# Alerts about rejected messages

ADD keeps one open alert for messages that a device got wrong and one for those that ADD could not process.
An alert has an entry for each message type. An accepted message closes the entry of its type, except that
the entry for queue evidence stays until ADD holds every copy that it refused.
-/

namespace QueueEvidence

/-! ### Entries -/

/-- `REJECTION_CODES` -/
inductive Code where
  | deviceMessageRejected
  | addMessageProcessingFailed
deriving DecidableEq

/-- The categories of `rejection_category`. -/
inductive Category where
  | schemaInvalid
  | evidenceInvalid
  | constraintConflict
  | databaseUnavailable
  | operationTimeout
  | internalError
deriving DecidableEq

def Category.text : Category → String
  | schemaInvalid       => "SCHEMA_INVALID"
  | evidenceInvalid     => "EVIDENCE_INVALID"
  | constraintConflict  => "CONSTRAINT_CONFLICT"
  | databaseUnavailable => "DATABASE_UNAVAILABLE"
  | operationTimeout    => "OPERATION_TIMEOUT"
  | internalError       => "INTERNAL_ERROR"

/-- `DEVICE_REJECTION_CATEGORIES` -/
def Category.deviceSide (category : Category) : Bool := category = schemaInvalid || category = evidenceInvalid

/-- The alert of a category. -/
def Category.code (category : Category) : Code :=
  if category.deviceSide then .deviceMessageRejected else .addMessageProcessingFailed

/-- `MAX_REJECTION_TYPES` -/
def maxRejectionTypes : Nat := 16

/-- `MAX_PENDING_EVIDENCE` -/
def maxPendingEvidence : Nat := 16

/-- `MAX_EVIDENCE_RESOLUTIONS` -/
def maxEvidenceResolutions : Nat := 16

/-- `_evidence_resolution` -/
structure Resolution where
  identity : Identity
  reason : String
  refusedRequestId : String
  refusedCount : Nat
  receivedBytes : Option Nat
  heldAs : Identity
  receiptId : String
  byteCount : Nat
  «match» : Match
  finding : Finding
  «at» : Nat

def evidenceResolution (copy : Copy) (row : Row) (result : Match × Finding) (now : Nat) : Resolution :=
  ⟨copy.identity, copy.reason, copy.requestId, copy.count, copy.receivedBytes, row.identity, row.receiptId,
    row.byteCount, result.1, result.2, now⟩

/-- The fields that track refused copies. -/
structure Tracking where
  pending : List Copy := []
  untrackedRefusals : Nat := 0
  legacyRefusals : Nat := 0

/-- The entry of a message type. There is no tracking before identities were tracked. -/
structure Entry where
  category : Option Category := none
  errorType : String := ""
  errorPaths : List String := []
  count : Nat := 0
  firstAt : Nat
  lastAt : Nat
  bootId : Option String := none
  firmwareVersion : Option String := none
  requestId : String := ""
  errorReason : Option String := none
  errorSite : Option String := none
  errorTypes : List String := []
  tracking : Option Tracking := none
  /-- `LATER_ACCEPTANCE` -/
  laterAcceptanceAt : Option Nat := none

/-- The entries by message type, in the order of their insertion. -/
abbrev Types := List (String × Entry)

namespace Types

def get? (types : Types) (name : String) : Option Entry := (types.find? (·.1 = name)).map (·.2)

def erase (types : Types) (name : String) : Types := types.filter (·.1 ≠ name)

def set (types : Types) (name : String) (entry : Entry) : Types := erase types name ++ [(name, entry)]

variable (types : Types) {name other : String} (entry : Entry)

@[simp]
lemma get?_erase_self : (types.erase name).get? name = none := by
  simp [get?, erase, List.find?_eq_none]

lemma get?_erase (h : other ≠ name) : (types.erase name).get? other = types.get? other := by
  rw [get?, get?, erase, List.find?_filter]
  congr 2
  funext p
  by_cases hp : p.1 = other <;> simp [hp, h]

@[simp]
lemma get?_set_self : (types.set name entry).get? name = some entry := by
  have hnone : (types.erase name).get? name = none := get?_erase_self types
  rw [get?, Option.map_eq_none_iff] at hnone
  simp [get?, set, List.find?_append, hnone]

lemma get?_set (h : other ≠ name) : (types.set name entry).get? other = types.get? other := by
  rw [← get?_erase types h, get?, set, List.find?_append]
  simp [get?, h.symm]

end Types

/-- An open alert. -/
structure Alert where
  severity : String
  message : String
  messageType : String
  errorType : String
  requestId : String
  errorCategory : Option Category
  errorReason : Option String
  types : Types
  evidenceResolutions : List Resolution := []
  firstSeenAt : Nat
  lastSeenAt : Nat

/-- The open alerts of a connector. -/
abbrev Alerts := Code → Option Alert

/-- `unheld_evidence` -/
def unheldEvidence (entry : Entry) : Nat × Nat :=
  entry.tracking.elim (0, 0) fun t => (t.pending.length, t.untrackedRefusals)

/-- `_evidence_resolutions` -/
def evidenceResolutions (previous added : List Resolution) : List Resolution :=
  (previous ++ added).drop ((previous ++ added).length - maxEvidenceResolutions)

/-! ### A refusal -/

/-- The arguments of `record_message_rejection`. -/
structure Refusal where
  messageType : String
  category : Category
  errorType : String
  errorPaths : List String
  requestId : String
  bootId : Option String
  firmwareVersion : Option String
  now : Nat
  errorReason : Option String
  errorSite : Option String
  errorTypes : List String

def queueEvidence : String := "queue_evidence"

/-- Why a copy was refused. -/
def Refusal.reason (r : Refusal) : String :=
  match r.errorReason with
  | some reason => if reason = "" then r.category.text else reason
  | none        => r.category.text

/-- The copy of a refusal, before it is known how often it was refused. -/
def refusalCopy (r : Refusal) (identity : Identity) (evidence : Facts) (previous : Option Copy) : Copy where
  identity := identity
  claimedDigest := evidence.claimedDigest
  receivedDigest := evidence.receivedDigest
  receivedBytes := evidence.receivedBytes
  receivedCrc32 := evidence.receivedCrc32
  reason := r.reason
  requestId := r.requestId
  count := previous.elim 0 (·.count) + 1
  firstAt := previous.elim r.now (·.firstAt)
  lastAt := r.now

/-- The tracking fields of an entry. Refusals from before identities were tracked stay legacy refusals. -/
def startTracking (entry : Option Entry) : Tracking :=
  match entry.bind (·.tracking) with
  | some t => t
  | none   => { legacyRefusals := entry.elim 0 (·.count) }

/-- `_track_refused_evidence` -/
def trackRefusedEvidence (store : Store) (entry : Option Entry) (evidence : Option Facts) (r : Refusal) :
    Tracking × Option Resolution :=
  let t := startTracking entry
  match evidence.bind fun facts => (evidenceIdentity facts).map fun identity => (facts, identity) with
  | none                   => ({ t with untrackedRefusals := t.untrackedRefusals + 1 }, none)
  | some (facts, identity) =>
    let key : Key := ⟨identity, facts.claimedDigest, facts.receivedDigest⟩
    let previous := t.pending.find? (·.key = key)
    let copy := refusalCopy r identity facts previous
    let others := previous.elim t.pending t.pending.erase
    match findHeldCopy store copy with
    | some (row, result) => ({ t with pending := others }, some (evidenceResolution copy row result r.now))
    | none               =>
      if previous = none ∧ maxPendingEvidence ≤ t.pending.length then
        ({ t with untrackedRefusals := t.untrackedRefusals + 1 }, none)
      else ({ t with pending := others ++ [copy] }, none)

/-- Drop the oldest entries beyond the bound. An entry with refused copies that ADD does not hold is never
dropped. Each round drops an entry, so that there are enough rounds. -/
def evict : Nat → Types → Types
  | 0, types          => types
  | rounds + 1, types =>
    if maxRejectionTypes < types.length then
      match (types.filter fun p =>
          (types.get? p.1).elim (0, 0) unheldEvidence = (0, 0)).argmin (·.2.lastAt) with
      | none   => types
      | some p => evict rounds (types.erase p.1)
    else types

/-- The types of the open alert. A row from before per-type tracking has one type at top level. -/
def alertTypes (existing : Option Alert) : Types :=
  match existing with
  | none       => []
  | some alert =>
    if alert.types = [] ∧ alert.messageType ≠ "" then
      [(alert.messageType, {
        category := alert.errorCategory, errorType := alert.errorType, count := 1
        firstAt := alert.firstSeenAt, lastAt := alert.lastSeenAt, requestId := alert.requestId })]
    else alert.types

/-- The entry after a refusal. A new refusal makes it live again, whatever was accepted before it. -/
def refreshed (r : Refusal) (entry : Option Entry) : Entry where
  category := some r.category
  errorType := r.errorType
  errorPaths := r.errorPaths.take 5
  count := entry.elim 0 (·.count) + 1
  firstAt := entry.elim r.now (·.firstAt)
  lastAt := r.now
  bootId := r.bootId
  firmwareVersion := r.firmwareVersion
  requestId := r.requestId
  errorReason := r.errorReason
  errorSite := r.errorSite
  errorTypes := r.errorTypes.take 5
  tracking := entry.bind (·.tracking)

/-- The text of the alert. -/
def Refusal.text (r : Refusal) : String :=
  let label :=
    match r.errorReason with
    | some reason => if reason = "" then r.category.text else r.category.text ++ ": " ++ reason
    | none        => r.category.text
  if r.category.deviceSide then r.messageType ++ " message was rejected (" ++ label ++ ")."
  else "ADD could not process a " ++ r.messageType ++ " message (" ++ label ++ ")."

/-- `upsert_alert` for a refusal. -/
def upsertAlert (existing : Option Alert) (r : Refusal) (types : Types) (resolutions : List Resolution) :
    Alert where
  severity := existing.elim (if r.category.deviceSide then "HIGH" else "WARNING") (·.severity)
  message := r.text
  messageType := r.messageType
  errorType := r.errorType
  requestId := r.requestId
  errorCategory := some r.category
  errorReason := r.errorReason
  types := types
  evidenceResolutions := resolutions
  firstSeenAt := existing.elim r.now (·.firstSeenAt)
  lastSeenAt := r.now

/-- What a refusal makes of the entry of its type, and the resolution if ADD already holds the copy. -/
def refusedEntry (store : Store) (entry : Option Entry) (evidence : Option Facts) (r : Refusal) :
    Entry × Option Resolution :=
  if r.messageType = queueEvidence then
    let (tracking, resolution) := trackRefusedEvidence store entry evidence r
    ({ refreshed r entry with tracking := some tracking }, resolution)
  else (refreshed r entry, none)

/-- Nothing is left open for the type. -/
def heldAtOnce (entry : Entry) (resolution : Option Resolution) : Bool :=
  resolution.isSome && unheldEvidence entry = (0, 0) && entry.tracking.elim 0 (·.legacyRefusals) = 0

/-- The alert with the entry of a refusal, or `none` if it is closed at once. -/
def recordedAlert (existing : Option Alert) (r : Refusal) (entry : Entry) (resolution : Option Resolution) :
    Option Alert :=
  let held := heldAtOnce entry resolution
  let types :=
    if held then (alertTypes existing).erase r.messageType else (alertTypes existing).set r.messageType entry
  let types := evict types.length types
  let resolutions := evidenceResolutions (existing.elim [] (·.evidenceResolutions)) resolution.toList
  if held ∧ types ≠ [] then
    -- Other rejected types keep the alert open; it still describes them.
    existing.map fun alert => { alert with types := types, evidenceResolutions := resolutions }
  else if held then none
  else some (upsertAlert existing r types resolutions)

/-- `record_message_rejection` -/
def recordMessageRejection (store : Store) (alerts : Alerts) (r : Refusal) (evidence : Option Facts) : Alerts :=
  let existing := alerts r.category.code
  let refused := refusedEntry store ((alertTypes existing).get? r.messageType) evidence r
  Function.update alerts r.category.code (recordedAlert existing r refused.1 refused.2)

/-! ### An acceptance -/

/-- `_settle_refused_evidence`: the entry that is still outstanding, what was held, and whether the entry
changed. -/
def settleRefusedEvidence (entry : Entry) (accepted : Option Row) (now : Nat) :
    Option Entry × List Resolution × Bool :=
  match entry.tracking with
  | none   => (none, [], true)
  | some t =>
    let kept := t.pending.filter fun copy => accepted.bind (holdsRefusedCopy copy) = none
    let held := t.pending.filterMap fun copy => accepted.bind fun row =>
      (holdsRefusedCopy copy row).map fun result => evidenceResolution copy row result now
    if kept = [] ∧ t.untrackedRefusals = 0 then (none, held, true)
    else
      (some { entry with
          tracking := some { t with pending := kept, legacyRefusals := 0 }
          laterAcceptanceAt := some (entry.laterAcceptanceAt.getD now) },
        held, held ≠ [] || 0 < t.legacyRefusals || entry.laterAcceptanceAt = none)

/-- The alert with the remaining types, or `none` if it is closed. -/
def settled (alert : Alert) (remaining : Types) (held : List Resolution) : Option Alert :=
  if remaining = [] then none
  else some { alert with
    types := remaining
    evidenceResolutions :=
      if held = [] then alert.evidenceResolutions else evidenceResolutions alert.evidenceResolutions held }

/-- One alert of `resolve_message_rejection`. -/
def resolveAlert (messageType : String) (evidence : Option Row) (now : Nat) (alert : Alert) : Option Alert :=
  if alert.types = [] then
    if alert.messageType = messageType then none else some alert
  else
    match alert.types.get? messageType with
    | none       => some alert
    | some entry =>
      let remaining := alert.types.erase messageType
      if messageType = queueEvidence then
        let (outstanding, held, changed) := settleRefusedEvidence entry evidence now
        -- Otherwise this acceptance holds none of the refused copies.
        if changed then settled alert (outstanding.elim remaining (remaining.set messageType)) held
        else some alert
      else settled alert remaining []

/-- `resolve_message_rejection` -/
def resolveMessageRejection (alerts : Alerts) (messageType : String) (evidence : Option Row) (now : Nat) :
    Alerts :=
  fun code => (alerts code).bind (resolveAlert messageType evidence now)

end QueueEvidence
