import Mathlib
import AutoAttn.Crc32
import AutoAttn.Json

/-!
# Queue evidence

Devices hand records that they could not deliver to ADD for custody. ADD keeps one row for each custody
identity. A copy that ADD refuses is described by its identity and two digests, and a held row accounts for
a refused copy only if it shows that ADD now holds what the copy carried.
-/

namespace QueueEvidence

open ZoneLite (dqCrc32)

/-! ### Identities and digests -/

/-- The custody identity. -/
structure Identity where
  queue : String
  queueGeneration : String
  recordId : String
deriving DecidableEq

def isLower (c : Char) : Bool := 'a' ≤ c && c ≤ 'z'

def isUpper (c : Char) : Bool := 'A' ≤ c && c ≤ 'Z'

def isDigit (c : Char) : Bool := '0' ≤ c && c ≤ '9'

/-- The characters of `queue`. -/
def queueChar (c : Char) : Bool := isLower c || isDigit c || c = '_'

/-- The characters of `queue_generation`. -/
def generationChar (c : Char) : Bool := isLower c || isUpper c || isDigit c || c = '_' || c = '-'

/-- The characters of `record_id`. -/
def recordChar (c : Char) : Bool := generationChar c || c = ':'

/-- A field of `IDENTITY_FIELDS`: not empty, not too long, and of the allowed characters. -/
def fieldValid (limit : Nat) (char : Char → Bool) (value : String) : Bool :=
  decide (1 ≤ value.length ∧ value.length ≤ limit) && value.toList.all char

/-- `DIGEST_PATTERN` -/
def isDigest (value : String) : Bool :=
  value.length = 64 && value.toList.all fun c => isDigit c || ('a' ≤ c && c ≤ 'f')

/-- `_digest` -/
def digest? (value : Option String) : Option String := value.filter isDigest

/-- `OPERATOR_ONLY_REASONS` -/
def operatorOnlyReasons : List String := ["QUEUE_EVIDENCE_IDENTITY_REUSED"]

/-- `CONNECTOR_MISMATCH` -/
def connectorMismatch : String := "QUEUE_EVIDENCE_CONNECTOR_MISMATCH"

/-- `IDENTITY_REUSED` -/
def identityReused : String := "QUEUE_EVIDENCE_IDENTITY_REUSED"

/-! ### What is known of a refused copy -/

/-- What is not part of ADD: the base64 decoder, SHA-256 in hexadecimal, and the digest of a provenance. -/
structure Env where
  b64decode : String → Option (List UInt8)
  sha256 : List UInt8 → String
  provenanceDigest : Json → String

/-- The facts of a refused copy. -/
structure Facts where
  queue : Option String
  queueGeneration : Option String
  recordId : Option String
  claimedDigest : Option String
  receivedDigest : Option String
  receivedBytes : Option Nat
  receivedCrc32 : Option UInt32

/-- A string member of the payload, if it is well-formed. -/
def field (payload : Json) (name : String) (valid : String → Bool) : Option String :=
  ((payload.get? name).bind Json.str?).filter valid

/-- `MAX_RAW_B64` -/
def maxRawB64 : Nat := 10924

/-- The bytes that arrived. -/
def receivedRaw (env : Env) (payload : Json) : Option (List UInt8) :=
  ((payload.get? "raw_b64").bind Json.str?).bind fun encoded =>
    if 4 ≤ encoded.length ∧ encoded.length ≤ maxRawB64 then env.b64decode encoded else none

/-- `refused_copy` -/
def refusedCopy (env : Env) (payload : Json) : Facts :=
  let raw := receivedRaw env payload
  { queue := field payload "queue" (fieldValid 40 queueChar)
    queueGeneration := field payload "queue_generation" (fieldValid 80 generationChar)
    recordId := field payload "record_id" (fieldValid 120 recordChar)
    claimedDigest := field payload "payload_digest" isDigest
    receivedDigest := raw.map env.sha256
    receivedBytes := raw.map (·.length)
    receivedCrc32 := raw.map dqCrc32 }

/-- `evidence_identity` -/
def evidenceIdentity (facts : Facts) : Option Identity :=
  match facts.queue, facts.queueGeneration, facts.recordId with
  | some queue, some queueGeneration, some recordId =>
    if queue ≠ "" ∧ queueGeneration ≠ "" ∧ recordId ≠ "" then some ⟨queue, queueGeneration, recordId⟩ else none
  | _, _, _                                         => none

/-- A refused copy that ADD does not hold yet. -/
structure Copy where
  identity : Identity
  claimedDigest : Option String
  receivedDigest : Option String
  receivedBytes : Option Nat
  receivedCrc32 : Option UInt32
  reason : String
  requestId : String
  count : Nat
  firstAt : Nat
  lastAt : Nat
deriving DecidableEq

/-- `_COPY_KEY` -/
structure Key where
  identity : Identity
  claimedDigest : Option String
  receivedDigest : Option String
deriving DecidableEq

def Copy.key (copy : Copy) : Key := ⟨copy.identity, copy.claimedDigest, copy.receivedDigest⟩

/-! ### Held records -/

/-- `QueueEvidence`, with the columns that custody compares. -/
structure Row where
  id : Nat
  receiptId : String
  identity : Identity
  payloadDigest : String
  provenanceDigest : String
  byteCount : Nat
deriving DecidableEq

/-- The rows of a connector. The table has one row for an identity, and its digests are well-formed. -/
structure Store where
  rows : List Row
  unique : (rows.map (·.identity)).Nodup
  digests : ∀ row ∈ rows, isDigest row.payloadDigest = true

inductive Match where
  | sameIdentity
  | sameBytes
deriving DecidableEq

inductive Finding where
  | copyIntact
  | sentBytesChanged
  | digestChanged
deriving DecidableEq

/-- `_names_received_bytes`: the record id ends with the CRC-32 of the bytes that arrived. -/
def namesReceivedBytes (copy : Copy) : Bool :=
  copy.receivedCrc32.any fun crc =>
    copy.identity.recordId.toList.contains ':' &&
      (copy.identity.recordId.splitOn ":").getLast? = some (toString crc.toNat)

/-- The digest of a held record is one that the copy carried. -/
def findingOf (claimed received : Option String) (digest : String) : Finding :=
  if some digest = claimed ∧ claimed = received then .copyIntact
  else if some digest = claimed then .sentBytesChanged
  else .digestChanged

/-- The record is held under another generation. -/
def SameBytes (copy : Copy) (row : Row) : Prop :=
  row.identity.queue = copy.identity.queue ∧ row.identity.queueGeneration ≠ copy.identity.queueGeneration ∧
    (some row.payloadDigest = digest? copy.claimedDigest ∨
      some row.payloadDigest = digest? copy.receivedDigest ∧ row.identity.recordId = copy.identity.recordId ∧
        namesReceivedBytes copy = true)

instance (copy : Copy) (row : Row) : Decidable (SameBytes copy row) := inferInstanceAs (Decidable (_ ∧ _ ∧ _))

/-- `holds_refused_copy` for a record that ADD holds. -/
def holdsRefusedCopy (copy : Copy) (row : Row) : Option (Match × Finding) :=
  let claimed := digest? copy.claimedDigest
  let received := digest? copy.receivedDigest
  if copy.reason ∈ operatorOnlyReasons then none
  else if isDigest row.payloadDigest = false then none
  else if row.identity = copy.identity ∧
      (some row.payloadDigest = claimed ∨ some row.payloadDigest = received) then
    some (.sameIdentity, findingOf claimed received row.payloadDigest)
  else if SameBytes copy row then some (.sameBytes, findingOf claimed received row.payloadDigest)
  else none

/-- The first row, by its id, of a query. -/
def firstById (rows : List Row) : Option Row := rows.argmin (·.id)

/-- The rows that `find_held_copy` looks at. -/
def heldCandidates (store : Store) (copy : Copy) : List (Option Row) :=
  let claimed := digest? copy.claimedDigest
  let received := digest? copy.receivedDigest
  let elsewhere := store.rows.filter fun row =>
    row.identity.queue = copy.identity.queue ∧ row.identity.queueGeneration ≠ copy.identity.queueGeneration
  [store.rows.find? (·.identity = copy.identity)] ++
    (if claimed ≠ none then [firstById (elsewhere.filter (some ·.payloadDigest = claimed))] else []) ++
    if received ≠ none ∧ received ≠ claimed ∧ namesReceivedBytes copy = true then
      [firstById (elsewhere.filter fun row =>
        row.identity.recordId = copy.identity.recordId ∧ some row.payloadDigest = received)]
    else []

/-- `find_held_copy` -/
def findHeldCopy (store : Store) (copy : Copy) : Option (Row × Match × Finding) :=
  if copy.reason ∈ operatorOnlyReasons then none
  else (heldCandidates store copy).findSome? fun row? =>
    row?.bind fun row => (holdsRefusedCopy copy row).map fun result => (row, result)

/-! ### Custody of a record -/

/-- `QueueEvidenceRequest`, which was validated. -/
structure Request where
  connectorId : String
  identity : Identity
  payloadDigest : String
  digest_valid : isDigest payloadDigest = true
  raw : List UInt8
  provenance : Json

lemma nodup_identities {rows : List Row} {row : Row} (h : (rows.map (·.identity)).Nodup)
    (hnew : rows.find? (·.identity = row.identity) = none) : ((rows ++ [row]).map (·.identity)).Nodup := by
  rw [List.map_append, List.nodup_append]
  refine ⟨h, List.nodup_singleton _, ?_⟩
  rintro identity hmem _ hrow rfl
  obtain ⟨other, hother, heq⟩ := List.mem_map.1 hmem
  have hne := List.find?_eq_none.1 hnew other hother
  simp_all

/-- The store with a new row. -/
def Store.add (store : Store) (row : Row) (hnew : store.rows.find? (·.identity = row.identity) = none)
    (hdigest : isDigest row.payloadDigest = true) : Store where
  rows := store.rows ++ [row]
  unique := nodup_identities store.unique hnew
  digests := List.forall_mem_append.2 ⟨store.digests, List.forall_mem_singleton.2 hdigest⟩

/-- The row of a request. -/
def Request.row (env : Env) (request : Request) (id : Nat) (receiptId : String) : Row :=
  ⟨id, receiptId, request.identity, request.payloadDigest, env.provenanceDigest request.provenance,
    request.raw.length⟩

/-- `preserve_queue_evidence`, with the id and the receipt of a new row. -/
def preserveQueueEvidence (env : Env) (connectorId : String) (store : Store) (id : Nat) (receiptId : String)
    (request : Request) : Except String (Store × Row) :=
  if request.connectorId ≠ connectorId then .error connectorMismatch
  else
    match h : store.rows.find? (·.identity = request.identity) with
    | some row =>
      if row.payloadDigest ≠ request.payloadDigest ∨
          row.provenanceDigest ≠ env.provenanceDigest request.provenance then .error identityReused
      else .ok (store, row)
    | none     =>
      .ok (store.add (request.row env id receiptId) h request.digest_valid, request.row env id receiptId)

end QueueEvidence
