import Mathlib
import AutoAttn.Json
import AutoAttn.Table
import AutoAttn.Zkt.Packet

/-!
# Custody of captured observations

ADD settles each item of a batch into a receipt that never changes. A receipt is linked to a row of derived
work: its own row, or the row of the packet that it is a fragment of. Work rows are inspected later, when their
evidence may still be incomplete.

The payload of an item is arbitrary JSON. Validation by the schema classes, encryption, and what is known of the
terminal's source ledger are parameters.
-/

namespace Zkt.Custody

open Checks

/-! ### Observations -/

inductive RawFormat where
  | liveFrame
  | sourceRecord
  | unknown
  | livePacket
  | packetFragment
deriving DecidableEq

/-- `OccurrenceReference` -/
structure OccurrenceReference where
  sourceEpoch : String
  ordinal : Nat
deriving DecidableEq

/-- `Observation`, after its own `verify`. Digests are the bytes that the source spells in hex. -/
structure Observation where
  observationId : String
  terminalSerial : String
  captureEpoch : String
  captureSequence : Nat
  raw : List UInt8
  rawDigest : List UInt8
  rawFormat : RawFormat
  decoderProfile : String
  decoderVersion : String
  occurrence : Option OccurrenceReference
  fragment_valid : rawFormat = .packetFragment → ∃ fragment, parseFragment raw = .ok fragment
  occurrence_source : occurrence ≠ none → rawFormat = .sourceRecord

/-- `JournalException` -/
structure JournalException where
  observationId : String
  terminalSerial : String
  captureEpoch : String
  exceptionKind : String
  rawDigest : List UInt8

inductive Parsed where
  | observation (value : Observation)
  | exception (value : JournalException)

namespace Parsed

def observationId : Parsed → String
  | observation value => value.observationId
  | exception value   => value.observationId

def terminalSerial : Parsed → String
  | observation value => value.terminalSerial
  | exception value   => value.terminalSerial

def captureEpoch : Parsed → String
  | observation value => value.captureEpoch
  | exception value   => value.captureEpoch

def rawDigest : Parsed → List UInt8
  | observation value => value.rawDigest
  | exception value   => value.rawDigest

def observation? : Parsed → Option Observation
  | observation value => some value
  | exception _       => none

end Parsed

/-- The fragment that an observation carries. -/
def Observation.fragment (value : Observation) : Option PacketFragment :=
  if value.rawFormat = .packetFragment then (parseFragment value.raw).toOption else none

/-- Hashing and schema validation. -/
structure Codec where
  /-- The digest of the text of a value. -/
  hash : Json → String
  /-- The length of the text of a value. There is no text for a number that JSON does not have. -/
  size : Json → Option Nat
  sha256 : List UInt8 → List UInt8
  /-- `Observation.model_validate` -/
  observation : Json → Option Observation
  /-- `JournalException.model_validate` -/
  journalException : Json → Option JournalException

namespace Codec

variable (codec : Codec)

/-- `digest` -/
def digest (value : Json) : String := codec.hash value.sortKeys

/-- The validation of one item of a batch. -/
def parse (raw : Json) : Option Parsed :=
  if raw.get? "item_type" = some (.str "JOURNAL_EXCEPTION") then (codec.journalException raw).map .exception
  else (codec.observation raw).map .observation

/-- What the receipt of an item is stored under. -/
def identity (raw : Json) : String :=
  match codec.parse raw with
  | some parsed => parsed.observationId
  | none        => codec.digest raw

/-- Validation does not look at the order of the members of an object. -/
def Unordered : Prop :=
  ∀ a b, a.sortKeys = b.sortKeys →
    codec.observation a = codec.observation b ∧ codec.journalException a = codec.journalException b

end Codec

/-! ### Receipts and work -/

inductive Disposition where
  | preservedException
  | preservedUnresolved
deriving DecidableEq

/-- `ZktObservationReceipt`. The protected observation is the item itself. -/
structure Receipt where
  id : Nat
  observationId : String
  payloadDigest : String
  rawDigest : Option (List UInt8)
  terminalSerial : Option String
  captureEpoch : Option String
  captureSequence : Option Nat
  decoderProfile : Option String
  decoderVersion : Option String
  protectedObservation : Json
  disposition : Disposition
  errorCode : Option String

instance : Row Receipt := ⟨Receipt.id⟩

/-- `work_key`, by the parts that it is the digest of. -/
inductive WorkKey where
  | packet (terminalSerial captureEpoch : Option String) (group : List UInt8)
  | receipt (receiptId : Nat)
  | source (manifestId : Nat)
deriving DecidableEq

inductive WorkKind where
  | exception
  | raw (format : RawFormat)
  | sourceLedger
deriving DecidableEq

inductive WorkState where
  | pending
  | heldException
  | heldOccurrence
  | heldSource
  | waitFragments
  | waitProfile
  | waitSource
  | sourceAssociated
  | attendanceCreated
  | interpreting
  | retrySystem
deriving DecidableEq

inductive Owner where
  | addProtocol
  | addEvidenceReview
  | addOperations
  | addReconciliation
deriving DecidableEq

/-- `ZktCustodyWork`. Times are in milliseconds. -/
structure Work where
  id : Nat
  workKey : WorkKey
  kind : WorkKind
  terminalSerial : Option String
  captureEpoch : Option String
  decoderProfile : Option String
  decoderVersion : Option String
  expectedBytes : Option Int
  expectedDigest : Option (List UInt8)
  state : WorkState
  reasonCode : String
  owner : Owner
  evidenceRevision : Nat
  processedRevision : Nat
  interpretationVersion : Option String
  attemptCount : Nat
  nextAttemptAt : Option Nat
  assembledDigest : Option (List UInt8)
  assembledAt : Option Nat
  createdAt : Nat
  updatedAt : Nat

instance : Row Work := ⟨Work.id⟩

/-- `ZktCustodyWorkReceipt` -/
structure WorkReceipt where
  workId : Nat
  receiptId : Nat
  packetOffset : Int
  dataLength : Option Nat

/-- `ZktObservationLink` -/
structure ObservationLink where
  receiptId : Nat
  occurrenceAliasId : Nat

/-- The custody tables of one connector. -/
structure Db where
  receipts : Table Receipt
  works : Table Work
  workReceipts : List WorkReceipt
  observationLinks : List ObservationLink

def Db.empty : Db := ⟨∅, ∅, [], []⟩

def Work.hold (work : Work) (reason : String) : Work :=
  { work with state := .heldException, reasonCode := reason, owner := .addEvidenceReview }

/-! ### Attaching receipts to work -/

def workKey (receipt : Receipt) : Option PacketFragment → WorkKey
  | some fragment => .packet receipt.terminalSerial receipt.captureEpoch fragment.group
  | none          => .receipt receipt.id

/-- The row that the first receipt of a key gets. -/
def newWork (now : Nat) (receipt : Receipt) (value : Option Observation) (fragment : Option PacketFragment)
    (id : Nat) : Work where
  id := id
  workKey := workKey receipt fragment
  kind := if receipt.errorCode.isSome then .exception else .raw ((value.map (·.rawFormat)).getD .unknown)
  terminalSerial := receipt.terminalSerial
  captureEpoch := receipt.captureEpoch
  decoderProfile := receipt.decoderProfile
  decoderVersion := receipt.decoderVersion
  expectedBytes := (fragment.map (·.total)).or (value.map (·.raw.length))
  expectedDigest := (fragment.map (·.packetDigest)).or receipt.rawDigest
  state := if receipt.errorCode.isSome then .heldException else .pending
  reasonCode := receipt.errorCode.getD "AWAITING_INTERPRETATION"
  owner := if receipt.errorCode.isSome then .addEvidenceReview else .addProtocol
  evidenceRevision := 1
  processedRevision := 0
  interpretationVersion := none
  attemptCount := 0
  nextAttemptAt := if receipt.errorCode.isSome then none else some now
  assembledDigest := none
  assembledAt := none
  createdAt := now
  updatedAt := now

/-- The fragment is of the packet that the row waits for, by the same decoder. -/
def Agrees (work : Work) (receipt : Receipt) (fragment : PacketFragment) : Prop :=
  work.expectedBytes = some fragment.total ∧ work.expectedDigest = some fragment.packetDigest ∧
    work.decoderProfile = receipt.decoderProfile ∧ work.decoderVersion = receipt.decoderVersion

instance (work : Work) (receipt : Receipt) (fragment : PacketFragment) : Decidable (Agrees work receipt fragment) :=
  inferInstanceAs (Decidable (_ ∧ _ ∧ _ ∧ _))

/-- A further receipt for a row. -/
def addEvidence (now : Nat) (receipt : Receipt) (fragment : Option PacketFragment) (work : Work) : Work :=
  let work := { work with evidenceRevision := work.evidenceRevision + 1, updatedAt := now }
  if ∃ part ∈ fragment, Agrees work receipt part then
    if work.state = .heldException then work
    else { work with state := .pending, reasonCode := "NEW_PACKET_EVIDENCE", nextAttemptAt := some now }
  else { work.hold "CONFLICTING_PACKET_METADATA" with nextAttemptAt := none }

def workReceipt (workId : Nat) (receipt : Receipt) (value : Option Observation) (fragment : Option PacketFragment) :
    WorkReceipt where
  workId := workId
  receiptId := receipt.id
  packetOffset := (fragment.map (·.offset)).getD 0
  dataLength := (fragment.map (·.data.length)).or (value.map (·.raw.length))

/-- The new link of a receipt, with the row that it starts or is further evidence for. -/
def attachNew (now : Nat) (db : Db) (receipt : Receipt) (value : Option Observation)
    (fragment : Option PacketFragment) : Db × Nat :=
  match db.works.rows.find? (·.workKey = workKey receipt fragment) with
  | none      =>
    let id := db.works.rows.length
    ({ db with
        works := db.works.insert (newWork now receipt value fragment)
        workReceipts := db.workReceipts ++ [workReceipt id receipt value fragment] }, id)
  | some work =>
    ({ db with
        works := db.works.put (addEvidence now receipt fragment work)
        workReceipts := db.workReceipts ++ [workReceipt work.id receipt value fragment] }, work.id)

/-- The value that is read for a receipt. One that has an error may not even be an observation. -/
def readable (receipt : Receipt) (value : Option Observation) : Option Observation :=
  if receipt.errorCode.isSome then none else value

/-- `attach_work`, with the number of the row that it returns. -/
def attachWork (now : Nat) (db : Db) (receipt : Receipt) (value : Option Observation) : Db × Nat :=
  match db.workReceipts.find? (·.receiptId = receipt.id) with
  | some link => (db, link.workId)
  | none      =>
    let value := readable receipt value
    attachNew now db receipt value (value.bind Observation.fragment)

/-! ### Source occurrences -/

/-- The terminal that the connector is bound to. -/
structure Terminal where
  serial : String
  confirmedSerial : String

structure Manifest where
  id : Nat
  rawRecordDigest : List UInt8

structure Alias where
  id : Nat
  occurrenceId : String

/-- The source ledger of the terminal at one moment. -/
structure Source where
  /-- The canonical row with the coordinates of an observation's occurrence. -/
  manifest : Observation → Option Manifest
  /-- `bind_manifest_occurrences` for one row, or the text of its error. -/
  bindManifest : Manifest → Except String Alias

/-- The terminal is confirmed and has this serial. -/
def Bound (terminal : Option Terminal) (serial : String) : Prop :=
  ∃ t ∈ terminal, t.serial = serial ∧ t.confirmedSerial = serial

instance (terminal : Option Terminal) (serial : String) : Decidable (Bound terminal serial) := by
  unfold Bound
  infer_instance

/-- `bind_source_occurrence` -/
def bindSourceOccurrence (terminal : Option Terminal) (source : Source) (links : List ObservationLink)
    (receipt : Receipt) (value : Observation) : Except String (List ObservationLink × Option String) := do
  if value.occurrence = none ∨ ¬ Bound terminal value.terminalSerial then pure (links, none)
  else
    match source.manifest value with
    | none          => pure (links, none)
    | some manifest =>
      refuse (manifest.rawRecordDigest ≠ value.rawDigest) "SOURCE_RAW_DIGEST_MISMATCH"
      let found ← source.bindManifest manifest
      match links.find? (·.receiptId = receipt.id) with
      | none       => pure (links ++ [⟨receipt.id, found.id⟩], some found.occurrenceId)
      | some prior =>
        refuse (prior.occurrenceAliasId ≠ found.id) "OBSERVATION_ALREADY_BOUND"
        pure (links, some found.occurrenceId)

/-! ### Settling a batch -/

section Settle

variable (codec : Codec)

/-- The error of an item before its identity is looked up. -/
def itemError (terminal : Option Terminal) : Option Parsed → Option String
  | none        => some "OBSERVATION_SCHEMA_INVALID"
  | some parsed =>
    if Bound terminal parsed.terminalSerial then
      match parsed with
      | .observation _   => none
      | .exception value => some s!"JOURNAL_{value.exceptionKind}_EXCEPTION"
    else some "TERMINAL_BINDING_MISMATCH"

def newReceipt (raw : Json) (error : Option String) (id : Nat) : Receipt :=
  let parsed := codec.parse raw
  let value := parsed.bind Parsed.observation?
  { id := id
    observationId := codec.identity raw
    payloadDigest := codec.digest raw
    rawDigest := parsed.map (·.rawDigest)
    terminalSerial := parsed.map (·.terminalSerial)
    captureEpoch := parsed.map (·.captureEpoch)
    captureSequence := value.map (·.captureSequence)
    decoderProfile := value.map (·.decoderProfile)
    decoderVersion := value.map (·.decoderVersion)
    protectedObservation := raw
    disposition := if error.isSome then .preservedException else .preservedUnresolved
    errorCode := error }

/-- The receipt of an item, and whether it was there. -/
def settleReceipt (terminal : Option Terminal) (db : Db) (raw : Json) : Db × Receipt × Bool :=
  match db.receipts.rows.find? fun r => r.observationId = codec.identity raw ∧ r.payloadDigest = codec.digest raw with
  | some receipt => (db, receipt, true)
  | none         =>
    let error :=
      if ∃ r ∈ db.receipts.rows, r.observationId = codec.identity raw then some "CAPTURE_IDENTITY_REUSED"
      else itemError terminal (codec.parse raw)
    ({ db with receipts := db.receipts.insert (newReceipt codec raw error) },
      newReceipt codec raw error db.receipts.rows.length, false)

/-- The association of an item with the source ledger. An error changes nothing but the work row. -/
def associate (terminal : Option Terminal) (source : Source) (db : Db) (receipt : Receipt) :
    Option Parsed → Db × Except String (Option String)
  | some (.observation value) =>
    if value.occurrence ≠ none ∧ receipt.errorCode = none then
      match bindSourceOccurrence terminal source db.observationLinks receipt value with
      | .ok (links, occurrence) => ({ db with observationLinks := links }, .ok occurrence)
      | .error reason           => (db, .error reason)
    else (db, .ok none)
  | _                         => (db, .ok none)

/-- One entry of `items`. -/
structure ItemResult where
  index : Nat
  observationId : String
  payloadDigest : String
  receiptId : Nat
  custody : Disposition
  errorCode : Option String
  occurrenceId : Option String
  replay : Bool

/-- The hold on the row of an item whose association failed. -/
def holdFailed (db : Db) (workId : Nat) : Except String (Option String) → Db
  | .ok _         => db
  | .error reason =>
    match db.works.get? workId with
    | some work => { db with works := db.works.put { work.hold reason with nextAttemptAt := none } }
    | none      => db

/-- One item of the loop in `settle_observations`. -/
def settleItem (terminal : Option Terminal) (source : Source) (now : Nat) (db : Db) (index : Nat) (raw : Json) :
    Db × ItemResult :=
  let parsed := codec.parse raw
  let (db, receipt, replay) := settleReceipt codec terminal db raw
  let (db, occurrence) := associate terminal source db receipt parsed
  let (db, workId) := attachWork now db receipt (parsed.bind Parsed.observation?)
  (holdFailed db workId occurrence,
    { index := index
      observationId := codec.identity raw
      payloadDigest := codec.digest raw
      receiptId := receipt.id
      custody := receipt.disposition
      errorCode := receipt.errorCode
      occurrenceId := occurrence.toOption.join
      replay := replay })

/-- The items of a batch from number `index` on. What the ledger and the clock say may change between items. -/
def settleItems (terminal : Option Terminal) (source : Nat → Source) (now : Nat → Nat) (db : Db) :
    Nat → List Json → Db × List ItemResult
  | _, []               => (db, [])
  | index, raw :: items =>
    let (db, result) := settleItem codec terminal (source index) (now index) db index raw
    let (db, results) := settleItems terminal source now db (index + 1) items
    (db, result :: results)

/-- The connector of a batch. -/
structure Connector where
  firmwareFamily : String
  zktCustodyEnabled : Bool
  zktDevice : Option Terminal

/-- The items of a well-formed batch. -/
def batchItems : Json → Option (List Json)
  | .obj members =>
    if members.length = 2 ∧ Json.get? "schema_version" (.obj members) = some (.int 1) then
      ((Json.get? "observations" (.obj members)).bind Json.arr?).filter fun items => 1 ≤ items.length ∧ items.length ≤ 64
    else none
  | _            => none

/-- `settle_observations`. Nothing is committed after an error. -/
def settleObservations (connector : Connector) (source : Nat → Source) (now : Nat → Nat) (db : Db) (payload : Json) :
    Except String (Db × List ItemResult) := do
  refuse (connector.firmwareFamily ≠ "zkt" ∨ connector.zktCustodyEnabled = false) "ZKT_CUSTODY_NOT_ENABLED"
  let items ← require (batchItems payload) "INVALID_CUSTODY_BATCH"
  let size ← require (codec.size payload) "OUT_OF_RANGE_FLOAT"
  refuse (96 * 1024 < size) "CUSTODY_BATCH_TOO_LARGE"
  pure (settleItems codec connector.zktDevice source now db 0 items)

end Settle

/-! ### Inspection -/

/-- The receipts of a row, in the order of their numbers. -/
def Db.receiptsOf (db : Db) (workId : Nat) : List Receipt :=
  db.receipts.rows.filter fun r => db.workReceipts.any fun link => link.workId = workId ∧ link.receiptId = r.id

/-- Why an inspection stops. -/
inductive Failure where
  /-- `EvidenceInvalid`, `DerivedEvidenceInvalid` -/
  | evidenceInvalid (reason : String)
  /-- Any other error: the evidence may be fine. -/
  | system

/-- Where the inspection of a source row ends. -/
structure SourceOutcome where
  state : WorkState
  reasonCode : String
  owner : Owner
  nextAttemptAt : Option Nat

/-- What an inspection meets outside of the custody tables. -/
structure Inspection where
  now : Nat
  /-- There is a custody key. -/
  keyPresent : Bool
  /-- The custody key opens the receipt. -/
  opens : Receipt → Bool
  /-- `derive_step`: whether derived evidence is still incomplete. -/
  derive : Work → List UInt8 → Except Failure Bool
  /-- The inspection of rows of the source ledger and of source records. -/
  inspectSource : Work → SourceOutcome

/-- The fragments and the packet that were read so far. -/
structure Evidence where
  fragments : List PacketFragment
  packet : Option (List UInt8)

section Inspect

variable (codec : Codec)

/-- One receipt of the loop in `materialize_packet`. -/
def readReceipt (inspection : Inspection) (work : Work) (evidence : Evidence) (receipt : Receipt) :
    Except Failure Evidence := do
  refuse (inspection.opens receipt = false) .system
  refuse (codec.digest receipt.protectedObservation ≠ receipt.payloadDigest)
    (.evidenceInvalid "RECEIPT_DIGEST_MISMATCH")
  let parsed ← require (codec.observation receipt.protectedObservation) (.evidenceInvalid "PACKET_SCHEMA_INVALID")
  refuse (receipt.errorCode.isSome = true ∨ some parsed.terminalSerial ≠ work.terminalSerial ∨
    some parsed.captureEpoch ≠ work.captureEpoch ∨ some parsed.decoderProfile ≠ work.decoderProfile ∨
    some parsed.decoderVersion ≠ work.decoderVersion) (.evidenceInvalid "PACKET_EVIDENCE_BINDING")
  if work.kind = .raw .packetFragment ∧ parsed.rawFormat = .packetFragment then
    let fragment ← require (parseFragment parsed.raw).toOption .system
    pure { evidence with fragments := evidence.fragments ++ [fragment] }
  else if (work.kind = .raw .livePacket ∨ work.kind = .raw .liveFrame) ∧ work.kind = .raw parsed.rawFormat ∧
      evidence.packet = none then
    pure { evidence with packet := some parsed.raw }
  else .error (.evidenceInvalid "PACKET_EVIDENCE_KIND")

/-- The packet of what was read. -/
def assemble (evidence : Evidence) : Except Failure (Option (List UInt8)) :=
  if evidence.fragments = [] then .ok evidence.packet
  else
    match reassemble codec.sha256 evidence.fragments with
    | .ok packet => .ok packet
    | .error _   => .error (.evidenceInvalid "PACKET_FRAGMENT_CONFLICT")

/-- `materialize_packet` -/
def materializePacket (inspection : Inspection) (db : Db) (work : Work) : Except Failure (Option (List UInt8)) := do
  let receipts := db.receiptsOf work.id
  refuse (receipts = [] ∨ maxFragments < receipts.length) (.evidenceInvalid "PACKET_EVIDENCE_BOUNDS")
  refuse (inspection.keyPresent = false) .system
  let evidence ← receipts.foldlM (readReceipt codec inspection work) ⟨[], none⟩
  let packet ← assemble codec evidence
  refuse (∃ bytes ∈ packet, work.expectedBytes ≠ some (bytes.length : Int) ∨
    work.expectedDigest ≠ some (codec.sha256 bytes)) (.evidenceInvalid "PACKET_DIGEST_MISMATCH")
  pure packet

/-- `INTERPRETATION_VERSION` -/
def interpretationVersion : String := "zkt-facts-1/derived-1"

/-- The end of an inspection that failed. -/
def Work.failed (inspection : Inspection) (work : Work) : Failure → Work
  | .evidenceInvalid reason => work.hold reason
  | .system                 =>
    { work with
      state := .retrySystem, reasonCode := "CUSTODY_DECRYPT_UNAVAILABLE", owner := .addOperations
      nextAttemptAt := some (inspection.now + 60000) }

/-- The row as an inspection starts. -/
def Work.started (inspection : Inspection) (work : Work) : Work :=
  { work with
    nextAttemptAt := none, processedRevision := work.evidenceRevision, attemptCount := work.attemptCount + 1
    interpretationVersion := some Custody.interpretationVersion, updatedAt := inspection.now }

/-- The row once its packet is there. -/
def Work.assembled (inspection : Inspection) (work : Work) (raw : List UInt8) : Work :=
  { work with
    assembledDigest := some (codec.sha256 raw), assembledAt := work.assembledAt.or (some inspection.now)
    state := .waitProfile, reasonCode := "PROFILE_QUALIFICATION_REQUIRED", owner := .addProtocol }

/-- The interpretation of an assembled packet. -/
def interpret (inspection : Inspection) (work : Work) (raw : List UInt8) : Work :=
  match inspection.derive work raw with
  | .error failure => work.failed inspection failure
  | .ok true       =>
    { work with
      state := .interpreting, reasonCode := "DERIVED_EVIDENCE_INCOMPLETE", owner := .addProtocol
      nextAttemptAt := some inspection.now }
  | .ok false      => work

/-- The inspection of a packet or a frame. -/
def inspectPacket (inspection : Inspection) (db : Db) (work : Work) : Work :=
  match materializePacket codec inspection db work with
  | .error failure  => work.failed inspection failure
  | .ok none        =>
    { work with state := .waitFragments, reasonCode := "INCOMPLETE_PACKET", owner := .addProtocol }
  | .ok (some raw)  => interpret inspection (work.assembled codec inspection raw) raw

/-- `inspect_work` -/
def inspectWork (inspection : Inspection) (db : Db) (work : Work) : Work :=
  if work.state = .heldException then work
  else
    let work := work.started inspection
    match work.kind with
    | .exception | .raw .unknown            =>
      { work with state := .waitProfile, reasonCode := "UNKNOWN_RAW_FORMAT", owner := .addProtocol }
    | .sourceLedger | .raw .sourceRecord    =>
      let outcome := inspection.inspectSource work
      { work with
        state := outcome.state, reasonCode := outcome.reasonCode, owner := outcome.owner
        nextAttemptAt := outcome.nextAttemptAt }
    | .raw .livePacket | .raw .liveFrame | .raw .packetFragment => inspectPacket codec inspection db work

end Inspect

/-! ### Runs -/

/-- An item is settled, or a row is inspected. -/
inductive Step (codec : Codec) : Db → Db → Prop
  | settle (db : Db) (terminal : Option Terminal) (source : Source) (now index : Nat) (raw : Json) :
    Step codec db (settleItem codec terminal source now db index raw).1
  | inspect (db : Db) (inspection : Inspection) (work : Work) (hwork : work ∈ db.works) :
    Step codec db { db with works := db.works.put (inspectWork codec inspection db work) }

abbrev Steps (codec : Codec) : Db → Db → Prop := Relation.ReflTransGen (Step codec)

/-- A run from empty tables leads here. -/
def Reachable (codec : Codec) (db : Db) : Prop := Steps codec Db.empty db

end Zkt.Custody
