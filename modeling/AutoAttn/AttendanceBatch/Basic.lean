import AutoAttn.Json
import AutoAttn.Table

/-!
# Attendance batches

A connector sends its attendance in batches. `settle_attendance_batch` gives every row of a batch its item under
a receipt before the batch is acknowledged: the row was accepted, ADD has it already, or it is quarantined with
the row itself as encrypted evidence. A batch that repeats a settled one is answered with the earlier receipt.
-/

namespace AttendanceBatch

/-! ### Rows -/

/-- `AttendanceBatchReceipt.outcome` -/
inductive Outcome where
  | pending
  | quarantined
  | committedWithQuarantine
  | committedWithDuplicates
  | committed
deriving DecidableEq, Repr

/-- `_COMMITTED_OUTCOMES` -/
def committedOutcomes : List Outcome := [.committed, .committedWithDuplicates]

/-- `AttendanceBatchReceipt`, of one connector. -/
structure Receipt where
  id : Nat
  batchId : String
  payloadDigest : String
  reportedPayloadDigest : Option String
  reportedDigestKey : String
  outcome : Outcome
  itemCount : Nat
  acceptedCount : Nat := 0
  duplicateCount : Nat := 0
  quarantinedCount : Nat := 0
  observationCount : Nat := 1
  contentDigest : Option String
deriving DecidableEq

instance : Row Receipt := ⟨Receipt.id⟩

/-- `AttendanceBatchItem.disposition` -/
inductive Disposition where
  | accepted
  | duplicate
  | quarantined
deriving DecidableEq, Repr

/-- An entry of `validation_summary`. -/
structure Summary where
  path : String
  type : String
deriving DecidableEq

/-- `AttendanceBatchItem`. The protected payload is the value that its decryption gives. -/
structure Item where
  receiptId : Nat
  itemIndex : Int
  disposition : Disposition
  eventUid : Option String
  attendanceEventId : Option Nat := none
  payloadDigest : String
  errorCode : Option String := none
  errorPath : Option String := none
  validationSummary : List Summary := []
  protectedPayload : Option Json := none

/-- `AttendanceEvent`, as far as settling looks at it. -/
structure Event where
  id : Nat
  eventUid : String
deriving DecidableEq

instance : Row Event := ⟨Event.id⟩

structure Db where
  receipts : Table Receipt := ∅
  items : List Item := []
  events : Table Event := ∅

/-- What comes with the libraries: the digest of a value's canonical text, which sorts the keys, and the
validation of a row by its schema. -/
structure Env (E : Type) where
  /-- `sha256(_canonical_json(value)).hexdigest()` -/
  digest : Json → String
  length_digest : ∀ value, (digest value).length = 64
  digest_sortKeys : ∀ value, digest value.sortKeys = digest value
  /-- `AttendanceEventIn.model_validate` -/
  modelValidate : Json → Except (List Summary) E
  /-- `event_uid` of a valid row. -/
  eventUid : E → String
  /-- `_CAPTURE_TIME.validate_python`, of a text. -/
  captureTime : String → Bool

variable {E : Type}

/-! ### Digests -/

/-- `MAX_BATCH_EVENTS` -/
def maxBatchEvents : Nat := 100

/-- `_HEX_64` -/
def hex64 (s : String) : Bool := s.length = 64 && s.toList.all fun c => '0' ≤ c ∧ c ≤ '9' ∨ 'a' ≤ c ∧ c ≤ 'f'

/-- `_well_formed_capture_time` -/
def wellFormedCaptureTime (env : Env E) : Json → Bool
  | .scalar (.str s) => env.captureTime s
  | _                => false

/-- `_content_row`: a well-formed send time is ignored, and anything else stays as it was sent. -/
def contentRow (env : Env E) : Json → Json
  | .obj members => .obj (members.map fun m =>
      if m.1 = "captured_at" then
        (m.1, if wellFormedCaptureTime env m.2 then .arr [.str "WELL_FORMED"] else .arr [.str "AS_SENT", m.2])
      else m)
  | item         => item

/-- `replay_content_digest` of a list of events. -/
def replayContentDigest (env : Env E) (events : List Json) : String :=
  env.digest (.obj [("schema", .str "attendance-batch-content-2"), ("events", .arr (events.map (contentRow env)))])

/-- `_reported_digest_key` -/
def reportedDigestKey (env : Env E) (value : Json) (valid : Bool) : String :=
  let state := if value = .null then "ABSENT" else if valid then "VALID" else "INVALID"
  env.digest (.obj [("state", .str state), ("value", value)])

/-- `CONTENT_DIGEST_UNAVAILABLE` -/
def contentDigestUnavailable : String := "UNAVAILABLE"

/-! ### Evidence -/

/-- `protected[key] = value` -/
def setMember (key : String) (value : Json) (members : List (String × Json)) : List (String × Json) :=
  if members.any (·.1 = key) then members.map fun m => if m.1 = key then (key, value) else m
  else members ++ [(key, value)]

/-- `raw if isinstance(raw, dict) else {"value": raw}` -/
def wrapped : Json → List (String × Json)
  | .obj members => members
  | raw          => [("value", raw)]

/-- The key of the context that evidence is annotated with. -/
def contextKey : String := "__batch_context"

/-- What `_quarantine_item` encrypts. -/
def evidence (raw : Json) (context : List (String × Json)) : Json :=
  .obj (if context.isEmpty then wrapped raw else setMember contextKey (.obj context) (wrapped raw))

/-- `_safe_event_uid` -/
def safeEventUid : Option Json → Option String
  | some (.scalar (.str s)) => if hex64 s then some s else none
  | _                       => none

/-- `_quarantine_item`. `encrypt_json` writes the keys sorted, and `decrypt_json` reads them so. -/
def quarantineItem (env : Env E) (receiptId : Nat) (itemIndex : Int) (raw : Json) (errorCode : String)
    (errorPath : Option String) (validationSummary : List Summary) (context : List (String × Json)) : Item where
  receiptId
  itemIndex
  disposition := .quarantined
  eventUid := safeEventUid ((Json.obj (wrapped raw)).get? "event_uid")
  payloadDigest := env.digest raw
  errorCode := some errorCode
  errorPath
  validationSummary
  protectedPayload := some (evidence raw context).sortKeys

/-- `re.sub(r"[^A-Za-z0-9]+", "_", text)` -/
def normalizedWords : List Char → Bool → List Char
  | [], _        => []
  | c :: cs, gap =>
    if c.toNat < 128 ∧ c.isAlphanum then c :: normalizedWords cs false
    else if gap then normalizedWords cs true
    else '_' :: normalizedWords cs true

/-- `_error_code` -/
def errorCode (validationType : String) : String :=
  let normalized := (normalizedWords validationType.toList false).dropWhile (· = '_')
  let normalized := (normalized.reverse.dropWhile (· = '_')).reverse
  let text := if normalized.isEmpty then "INVALID".toList else normalized.map Char.toUpper
  String.ofList (("ATTENDANCE_EVENT_".toList ++ text).take 120)

/-! ### Replays -/

/-- A settlement that repeats an earlier receipt. -/
inductive Replay where
  | exactRetry
  | captureReplay
deriving DecidableEq

/-- `AttendanceBatchSettlement` -/
structure Settlement where
  receipt : Receipt
  acceptedEventUids : List String
  duplicateEventUids : List String
  rejected : List (Int × Option String × Option String)
  duplicateBatch : Bool
  replay : Option Replay

/-- The items of a receipt, by index. -/
def itemsOf (db : Db) (receiptId : Nat) : List Item :=
  (db.items.filter (·.receiptId = receiptId)).insertionSort fun a b => a.itemIndex ≤ b.itemIndex

/-- `_settlement_from_receipt` -/
def settlementFromReceipt (db : Db) (receipt : Receipt) (replay : Option Replay) : Settlement :=
  let items := itemsOf db receipt.id
  { receipt
    acceptedEventUids := (items.filter (·.disposition = .accepted)).filterMap (·.eventUid)
    duplicateEventUids := (items.filter (·.disposition = .duplicate)).filterMap (·.eventUid)
    rejected := (items.filter (·.disposition = .quarantined)).map fun i => (i.itemIndex, i.errorCode, i.errorPath)
    duplicateBatch := replay.isSome
    replay }

/-- The row of a preserved item, where it can be rebuilt exactly. -/
def preservedRow (env : Env E) (item : Item) : Option Json :=
  match item.protectedPayload with
  | some (.obj members) =>
    let raw := members.filter (·.1 ≠ contextKey)
    -- a value that is no object was stored as such a wrapper
    if raw.isEmpty ∨ raw.all (·.1 = "value") then none
    else if env.digest (.obj raw) = item.payloadDigest then some (.obj raw) else none
  | _                   => none

/-- `_preserved_content_digest` -/
def preservedContentDigest (env : Env E) (db : Db) (receipt : Receipt) : Option String :=
  let items := itemsOf db receipt.id
  if items.length ≠ receipt.itemCount ∨ items.map (·.itemIndex) ≠ (List.range receipt.itemCount).map Int.ofNat ∨
      items.any (fun i => i.disposition ≠ .quarantined || i.protectedPayload.isNone) then none
  else (items.mapM (preservedRow env)).map (replayContentDigest env)

/-- `_LEGACY_COMPARE_LIMIT` -/
def legacyCompareLimit : Nat := 3

/-- The loop over the candidates without a content digest: each is read once and gets one. -/
def deriveCandidates (env : Env E) (contentDigest : String) : List Receipt → Db → Db × Option Receipt
  | [], db              => (db, none)
  | candidate :: rest, db =>
    let derived := preservedContentDigest env db candidate
    let candidate := { candidate with contentDigest := some (derived.getD contentDigestUnavailable) }
    let db := { db with receipts := db.receipts.put candidate }
    if derived = some contentDigest then (db, some candidate) else deriveCandidates env contentDigest rest db

/-- `_replayed_receipt` -/
def replayedReceipt (env : Env E) (db : Db) (batchId contentDigest : String) (itemCount : Nat) :
    Db × Option Receipt :=
  let matching := db.receipts.rows.filter fun r => r.batchId = batchId ∧ r.contentDigest = some contentDigest
  -- a committed original is preferred, and then the first
  match (matching.find? (·.outcome ∈ committedOutcomes)).or matching.head? with
  | some prior => (db, some prior)
  | none       =>
    let candidates := db.receipts.rows.filter fun r => r.batchId = batchId ∧ r.contentDigest = none ∧
      r.outcome = .quarantined ∧ r.itemCount = itemCount ∧ r.quarantinedCount = itemCount
    deriveCandidates env contentDigest (candidates.reverse.take legacyCompareLimit) db

/-- `_replay_rows_valid` -/
def replayRowsValid (env : Env E) (db : Db) (receipt : Receipt) (events : List Json) : Bool :=
  events.zipIdx.all fun (raw, index) =>
    match db.items.find? fun i => i.receiptId = receipt.id ∧ i.itemIndex = Int.ofNat index ∧
        i.disposition ≠ .quarantined with
    | none      => true
    | some item =>
      match env.modelValidate raw with
      | .error _   => false
      | .ok parsed => item.eventUid = some (env.eventUid parsed)

/-! ### Ingestion -/

/-- The loop of `ingest_attendance` that tells new events from those ADD has. -/
def splitEvents (env : Env E) : List E → List String → List E × List String
  | [], _              => ([], [])
  | event :: events, seen =>
    let uid := env.eventUid event
    if uid ∈ seen then
      let (pending, duplicates) := splitEvents env events seen
      (pending, uid :: duplicates)
    else
      let (pending, duplicates) := splitEvents env events (uid :: seen)
      (event :: pending, duplicates)

/-- `ingest_attendance`: the rows of the new events, and the uids of the new and of the other ones. -/
def ingestAttendance (env : Env E) (db : Db) (events : List E) : Db × List String × List String :=
  let existing := (db.events.rows.map (·.eventUid)).filter (· ∈ events.map env.eventUid)
  let (pending, duplicates) := splitEvents env events existing
  let table := pending.foldl (fun t event => t.insert fun id => ⟨id, env.eventUid event⟩) db.events
  ({ db with events := table }, pending.map env.eventUid, duplicates)

/-! ### Settling -/

/-- What keeps a batch from being settled. -/
inductive Failure where
  | noDevice
  | hikvision
  | totalsMismatch
  | rowsNotCovered
deriving DecidableEq

/-- The connector of the batch. -/
structure Connector where
  assigned : Bool
  hikvision : Bool

/-- What a payload says. A value that is not there is null. -/
structure Request where
  isObject : Bool
  events : Option (List Json)
  digest : String
  rawBatchId : Json
  batchIdValid : Bool
  batchId : String
  reportedValue : Json
  reportedDigest : Option String
  reportedDigestKey : String

/-- The beginning of `settle_attendance_batch`. -/
def request (env : Env E) (payload : Json) : Request :=
  let mapping := if payload.isObj then payload else .obj []
  let events := (mapping.get? "events").bind Json.arr?
  let digest := env.digest (events.elim mapping .arr)
  let rawBatchId := (mapping.get? "batch_id").getD .null
  let batchIdValid := match rawBatchId with
    | .scalar (.str s) => 1 ≤ s.length && s.length ≤ 120 && !s.toList.contains '\x00'
    | _                => false
  let batchId := match rawBatchId with
    | .scalar (.str s) => if batchIdValid then s else "invalid-" ++ String.ofList (digest.toList.take 32)
    | _                => "invalid-" ++ String.ofList (digest.toList.take 32)
  let reportedValue := (mapping.get? "payload_digest").getD .null
  let reportedDigest := match reportedValue with
    | .scalar (.str s) => if hex64 s then some s else none
    | _                => none
  { isObject := payload.isObj
    events
    digest
    rawBatchId
    batchIdValid
    batchId
    reportedValue
    reportedDigest
    reportedDigestKey := reportedDigestKey env reportedValue reportedDigest.isSome }

/-- The events of a batch of a permitted length. -/
def Request.bounded (req : Request) : Option (List Json) :=
  req.events.filter fun events => 1 ≤ events.length && events.length ≤ maxBatchEvents

/-- The context that rows of the batch are quarantined with. -/
def Request.context (req : Request) : List (String × Json) :=
  [("batch_id", req.rawBatchId), ("payload_digest", req.reportedValue)]

/-- Why the batch as a whole is quarantined. -/
def Request.batchError (req : Request) (conflict : Bool) : Option (String × Option String) :=
  if !req.isObject then some ("ATTENDANCE_BATCH_NOT_OBJECT", none)
  else if !req.batchIdValid then some ("ATTENDANCE_BATCH_ID_INVALID", some "batch_id")
  else if req.bounded.isNone then some ("ATTENDANCE_BATCH_EVENT_COUNT_INVALID", some "events")
  else if conflict then some ("ATTENDANCE_BATCH_ID_CONFLICT", some "batch_id")
  else if req.reportedValue ≠ .null ∧ req.reportedDigest ≠ some req.digest then
    some ("ATTENDANCE_BATCH_DIGEST_MISMATCH", some "payload_digest")
  else none

/-- The items of a batch that is quarantined as a whole. -/
def batchItems (env : Env E) (req : Request) (payload : Json) (receiptId : Nat) (code : String)
    (path : Option String) : List Item :=
  match req.bounded with
  | some events => events.zipIdx.map fun (raw, index) =>
      quarantineItem env receiptId index raw code path [] req.context
  | none        => [quarantineItem env receiptId (-1) (.obj [("batch", payload)]) code path [] []]

/-- The item of a row that is not valid. -/
def rejectedItem (env : Env E) (req : Request) (receiptId index : Nat) (raw : Json) (summary : List Summary) : Item :=
  let first := summary.head?.getD ⟨"", "invalid"⟩
  quarantineItem env receiptId index raw (errorCode first.type) (if first.path = "" then none else some first.path)
    summary req.context

/-- The rows that are not valid, as items, and the others. -/
def validateRows (env : Env E) (req : Request) (receiptId : Nat) : List (Json × Nat) → List Item × List (Nat × E × Json)
  | []                   => ([], [])
  | (raw, index) :: rows =>
    let (items, valid) := validateRows env req receiptId rows
    match env.modelValidate raw with
    | .error summary => (rejectedItem env req receiptId index raw summary :: items, valid)
    | .ok parsed     => (items, (index, parsed, raw) :: valid)

/-- The items of the valid rows. Of the rows with one uid only the first is accepted. -/
def settledItems (env : Env E) (db : Db) (receiptId : Nat) : List (Nat × E × Json) → List String → List Item
  | [], _                              => []
  | (index, parsed, raw) :: valid, accepted =>
    let uid := env.eventUid parsed
    { receiptId
      itemIndex := index
      disposition := if uid ∈ accepted then .accepted else .duplicate
      eventUid := some uid
      attendanceEventId := (db.events.rows.find? (·.eventUid = uid)).map (·.id)
      payloadDigest := env.digest raw } ::
    settledItems env db receiptId valid (accepted.filter (· ≠ uid))

/-- `_finish_receipt` -/
def finishReceipt (db : Db) (receipt : Receipt) (accepted duplicates quarantined : Nat) :
    Except Failure (Db × Settlement) :=
  let dispositions := (db.items.filter (·.receiptId = receipt.id)).length
  if dispositions ≠ accepted + duplicates + quarantined then .error .totalsMismatch
  else if 1 ≤ receipt.itemCount ∧ receipt.itemCount ≤ maxBatchEvents ∧
      accepted + duplicates + quarantined ≠ receipt.itemCount then .error .rowsNotCovered
  else
    let receipt := { receipt with
      acceptedCount := accepted
      duplicateCount := duplicates
      quarantinedCount := quarantined
      outcome :=
        if quarantined ≠ 0 ∧ accepted = 0 ∧ duplicates = 0 then .quarantined
        else if quarantined ≠ 0 then .committedWithQuarantine
        else if duplicates ≠ 0 then .committedWithDuplicates
        else .committed }
    let db := { db with receipts := db.receipts.put receipt }
    .ok (db, settlementFromReceipt db receipt none)

/-- The items of a batch, the events after it and its totals. -/
structure Disposed where
  items : List Item
  events : Table Event
  accepted : Nat := 0
  duplicates : Nat := 0
  quarantined : Nat

/-- What becomes of the rows of a batch. -/
def dispose (env : Env E) (connector : Connector) (req : Request) (payload : Json) (conflict : Bool) (receiptId : Nat)
    (db : Db) : Except Failure Disposed :=
  match req.batchError conflict with
  | some (code, path) =>
    let items := batchItems env req payload receiptId code path
    .ok { items, events := db.events, quarantined := items.length }
  | none              =>
    let (rejected, valid) := validateRows env req receiptId (req.events.getD []).zipIdx
    if valid.isEmpty then .ok { items := rejected, events := db.events, quarantined := rejected.length }
    else if connector.hikvision then .error .hikvision
    else
      let (db, accepted, duplicates) := ingestAttendance env db (valid.map (·.2.1))
      .ok
        { items := rejected ++ settledItems env db receiptId valid accepted
          events := db.events
          accepted := accepted.length
          duplicates := duplicates.length
          quarantined := rejected.length }

/-- A batch that no earlier receipt answers. -/
def settleNew (env : Env E) (connector : Connector) (req : Request) (payload : Json) (conflict : Bool)
    (contentDigest : Option String) (db : Db) : Except Failure (Db × Settlement) :=
  if !connector.assigned then .error .noDevice
  else
    let receipt : Receipt :=
      { id := db.receipts.rows.length
        batchId := req.batchId
        payloadDigest := req.digest
        reportedPayloadDigest := req.reportedDigest
        reportedDigestKey := req.reportedDigestKey
        outcome := .pending
        itemCount := (req.events.getD []).length
        contentDigest }
    match dispose env connector req payload conflict receipt.id db with
    | .error failure => .error failure
    | .ok d          =>
      finishReceipt
        { receipts := db.receipts.insert fun id => { receipt with id }
          items := db.items ++ d.items
          events := d.events }
        receipt d.accepted d.duplicates d.quarantined

/-- The receipt of exactly this batch. -/
def existingReceipt (db : Db) (req : Request) : Option Receipt :=
  db.receipts.rows.find? fun r => r.batchId = req.batchId ∧ r.payloadDigest = req.digest ∧
    r.reportedDigestKey = req.reportedDigestKey

/-- `settle_attendance_batch` -/
def settleAttendanceBatch (env : Env E) (connector : Connector) (db : Db) (payload : Json) :
    Except Failure (Db × Settlement) :=
  let req := request env payload
  let contentDigest := req.events.map (replayContentDigest env)
  match existingReceipt db req with
  | some existing =>
    let existing := { existing with
      observationCount := existing.observationCount + 1
      contentDigest :=
        if existing.contentDigest ∈ [none, some contentDigestUnavailable] then contentDigest.or existing.contentDigest
        else existing.contentDigest }
    let db := { db with receipts := db.receipts.put existing }
    .ok (db, settlementFromReceipt db existing (some .exactRetry))
  | none          =>
    let conflict := db.receipts.rows.any fun r => r.batchId = req.batchId ∧ r.payloadDigest ≠ req.digest
    match req.bounded, contentDigest with
    | some events, some content =>
      if conflict ∧ req.isObject ∧ req.batchIdValid ∧ req.reportedValue = .null then
        match replayedReceipt env db req.batchId content events.length with
        | (db, some prior) =>
          if replayRowsValid env db prior events then
            let prior := { prior with observationCount := prior.observationCount + 1 }
            let db := { db with receipts := db.receipts.put prior }
            .ok (db, settlementFromReceipt db prior (some .captureReplay))
          else settleNew env connector req payload conflict contentDigest db
        | (db, none)       => settleNew env connector req payload conflict contentDigest db
      else settleNew env connector req payload conflict contentDigest db
    | _, _                      => settleNew env connector req payload conflict contentDigest db

/-- The receipt of exactly this batch when it is sent again. -/
def retried (env : Env E) (req : Request) (r : Receipt) : Receipt :=
  { r with
    observationCount := r.observationCount + 1
    contentDigest :=
      if r.contentDigest ∈ [none, some contentDigestUnavailable] then
        (req.events.map (replayContentDigest env)).or r.contentDigest
      else r.contentDigest }

end AttendanceBatch
