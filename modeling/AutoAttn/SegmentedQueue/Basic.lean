import AutoAttn.LegacyQueue.Basic

/-!
# Transfers to and from the segmented queues

The storage task owns the queues. Other tasks reach them by requests of at most 512 bytes (`zkt_segmented_store.c`): a
record is copied into a buffer of the owner chunk by chunk and appended by a last request, or is read into another
buffer by a first request and copied out chunk by chunk. There is one buffer of each kind. Any request may find that a
buffer was replaced, or has expired, since the one before it.
-/

namespace SegmentedQueue

open Bytes

/-! ### Requests and replies -/

/-- `dq_result_t` -/
inductive Result where
  | ok
  | empty
  | full
  | io
  | corrupt
  | stale
  | bufferSmall
  | pending
deriving DecidableEq

/-- `zq_domain_t` -/
inductive Domain where
  | segmented
  | addLegacy
  | quarantine
  | attendanceLegacy
deriving DecidableEq

/-- `qs_admission_t` -/
inductive Policy where
  | live
  | historical
  | recovery
  | optionalHistorical
deriving DecidableEq

/-- `zq_operation_t` -/
inductive Operation where
  | appendBegin
  | appendChunk
  | appendCommit
  | peekBegin
  | peekChunk
  | settle
  | snapshot
  | generation
  | recover
  | probe
deriving DecidableEq

/-- `ZQ_CHUNK_BYTES` -/
def chunkBytes : Nat := 512

/-- `DQ_MAX_RECORD_BYTES` -/
def maxRecordBytes : Nat := 8192

/-- `UINT64_MAX` -/
def uint64Max : Nat := 2 ^ 64 - 1

/-- `zq_domain_lanes` -/
def Domain.lanes : Domain → Nat
  | .segmented        => 7
  | .addLegacy        => 2
  | .quarantine       => 3
  | .attendanceLegacy => 2

/-- `dq_token_t` -/
structure Token where
  segment : UInt32 := 0
  offset : UInt32 := 0
  endOffset : UInt32 := 0
  sequence : UInt32 := 0
  crc : UInt32 := 0
deriving DecidableEq

/-- A zeroed `lq_token_t`. -/
def noLegacyToken : LegacyQueue.Token := ⟨0, 0, 0, 0, false, false⟩

/-- `zq_request_t`. `bytes` is the used part of the array, so `length` is its length. -/
structure Request where
  operation : Operation
  deadline : Nat
  transfer : Nat := 0
  token : Token := {}
  legacyToken : LegacyQueue.Token := noLegacyToken
  offset : Nat := 0
  total : Nat := 0
  lane : Nat
  policy : Policy := .live
  domain : Domain
  custody : Bool := false
  bytes : List UInt8 := []
deriving DecidableEq

/-- The checks of `zq_request_valid` for each operation. -/
def Request.fields (r : Request) : Bool :=
  match r.operation with
  | .appendBegin  => r.transfer = 0 ∧ r.bytes = [] ∧ r.offset = 0 ∧ r.total ≠ 0 ∧ r.total ≤ maxRecordBytes
  | .appendChunk  => r.transfer ≠ 0 ∧ r.bytes ≠ [] ∧ r.offset ≤ maxRecordBytes - r.bytes.length
  | .appendCommit => r.transfer ≠ 0 ∧ r.bytes = []
  | .peekBegin    => r.transfer = 0 ∧ r.bytes = []
  | .peekChunk    => r.transfer ≠ 0 ∧ r.bytes = [] ∧ r.offset < maxRecordBytes
  | .settle       => r.bytes = [] ∧
      if r.domain = .segmented then r.token.endOffset > r.token.offset
      else r.legacyToken.endOffset > r.legacyToken.offset
  | _             => r.bytes = [] ∧ r.transfer = 0

/-- An operation that only the segmented queues have. -/
def Operation.afterSettle : Operation → Bool
  | .snapshot | .generation | .recover | .probe => true
  | _ => false

/-- An operation that a read-only queue does not have. -/
def Operation.beforePeek : Operation → Bool
  | .appendBegin | .appendChunk | .appendCommit => true
  | _ => false

/-- `zq_request_valid` -/
def Request.valid (r : Request) : Bool :=
  decide (r.deadline ≠ 0 ∧ r.lane < r.domain.lanes ∧ r.policy ≠ .optionalHistorical ∧
    r.bytes.length ≤ chunkBytes) &&
  !(r.domain != .segmented && r.operation.afterSettle) &&
  !(r.domain == .quarantine && (r.operation.beforePeek || (r.operation == .settle && !r.custody))) &&
  r.fields

/-- `zq_reply_t`. `bytes` is the used part of the array, so `length` is its length. -/
structure Reply where
  result : Result
  transfer : Nat := 0
  token : Token := {}
  legacyToken : LegacyQueue.Token := noLegacyToken
  total : Nat := 0
  depth : Nat := 0
  verified : Bool := false
  generation : List UInt8 := []
  bytes : List UInt8 := []
deriving DecidableEq

/-! ### The queues below -/

/-- A call of the append of a queue. -/
structure AppendCall where
  domain : Domain
  lane : Nat
  policy : Policy
  bytes : List UInt8
deriving DecidableEq

/-- What the peek of a queue returns, with the buffer that it fills. -/
structure Peeked where
  result : Result
  buffer : Block maxRecordBytes
  length : Nat
  token : Token
  legacyToken : LegacyQueue.Token
deriving DecidableEq

/-- What the queues would return if they were called now. -/
structure Answers where
  append : Result
  peek : Peeked
  settle : Result
  snapshot : Option Nat
  generation : Option (List UInt8)
  recover : Bool
  probe : Bool

/-- `zq_legacy_port_t`: which functions are set. -/
structure Port where
  append : Bool
  peek : Bool
  settle : Bool

/-! ### The store -/

/-- The fields of `zq_store_t` for the record that is copied in. -/
structure AppendCopy where
  transfer : Nat := 0
  deadline : Nat := 0
  used : Nat := 0
  total : Nat := 0
  lane : Nat := 0
  policy : Policy := .live
  domain : Domain := .segmented
  bytes : Block maxRecordBytes := .zero maxRecordBytes

/-- The fields of `zq_store_t` for the record that is copied out. -/
structure ReadCopy where
  transfer : Nat := 0
  deadline : Nat := 0
  length : Nat := 0
  lane : Nat := 0
  domain : Domain := .segmented
  token : Token := {}
  legacyToken : LegacyQueue.Token := noLegacyToken
  bytes : Block maxRecordBytes := .zero maxRecordBytes

/-- What the peek of a queue writes. -/
def ReadCopy.fill (read : ReadCopy) (domain : Domain) (p : Peeked) : ReadCopy :=
  { read with
    bytes := p.buffer
    token := if domain = .segmented then p.token else read.token
    legacyToken := if domain = .segmented then read.legacyToken else p.legacyToken }

/-- `zq_store_t` -/
structure Store where
  nextTransfer : Nat := 0
  append : AppendCopy := {}
  read : ReadCopy := {}
  legacy : Port
  quarantine : Port
  attendance : Port

namespace Store

/-- The store as it is allocated, with its ports. -/
def zeroed (legacy quarantine attendance : Port) : Store := { legacy, quarantine, attendance }

/-- `legacy_port` -/
def legacyPort (s : Store) : Domain → Port
  | .addLegacy  => s.legacy
  | .quarantine => s.quarantine
  | _           => s.attendance

/-- Whether a function of a queue can be called. -/
def reaches (s : Store) (domain : Domain) (function : Port → Bool) : Bool :=
  domain == .segmented || function (s.legacyPort domain)

/-- The identifier that `transfer` returns, and the counter after it. Zero is none. -/
def transfer (s : Store) : Nat × Nat :=
  if s.nextTransfer = uint64Max then (0, s.nextTransfer) else (s.nextTransfer + 1, s.nextTransfer + 1)

/-- `expire` -/
def expire (s : Store) (now : Nat) : Store :=
  { s with
    append := if s.append.transfer ≠ 0 ∧ now ≥ s.append.deadline then
        { s.append with transfer := 0, bytes := .zero maxRecordBytes } else s.append
    read := if s.read.transfer ≠ 0 ∧ now ≥ s.read.deadline then
        { s.read with transfer := 0, bytes := .zero maxRecordBytes } else s.read }

end Store

/-- What a request did: the store after it, the reply, and the calls of the append and the peek of a queue. -/
structure Executed where
  store : Store
  reply : Reply
  appended : Option AppendCall := none
  peeked : Option Peeked := none

namespace Store

/-- `ZQ_APPEND_BEGIN` -/
def appendBegin (s : Store) (r : Request) : Executed :=
  let (id, next) := s.transfer
  { store :=
      { s with
        nextTransfer := next
        append :=
          { transfer := id
            deadline := r.deadline
            used := 0
            total := r.total
            lane := r.lane
            policy := r.policy
            domain := r.domain
            bytes := .zero maxRecordBytes } }
    reply := { result := if id ≠ 0 then .ok else .full, transfer := id } }

/-- The request is for the record that is copied in. -/
def Appends (s : Store) (r : Request) : Prop :=
  s.append.transfer = r.transfer ∧ s.append.lane = r.lane ∧ s.append.policy = r.policy ∧
    s.append.domain = r.domain ∧ s.append.deadline = r.deadline

instance (s : Store) (r : Request) : Decidable (s.Appends r) := inferInstanceAs (Decidable (_ ∧ _))

/-- `ZQ_APPEND_CHUNK` -/
def appendChunk (s : Store) (r : Request) : Executed :=
  if ¬ s.Appends r then { store := s, reply := { result := .stale } }
  else if r.offset ≠ s.append.used ∨ r.bytes.length > s.append.total - s.append.used then
    { store := s, reply := { result := .stale } }
  else
    let used := s.append.used + r.bytes.length
    { store :=
        { s with
          append :=
            { s.append with
              bytes := s.append.bytes.patch s.append.used r.bytes
              used } }
      reply := { result := .ok, transfer := s.append.transfer, total := used } }

/-- `ZQ_APPEND_COMMIT`. The transfer is burned before the append, whatever comes of it. -/
def appendCommit (s : Store) (r : Request) (a : Answers) : Executed :=
  if ¬ s.Appends r then { store := s, reply := { result := .stale } }
  else if s.append.used ≠ s.append.total then { store := s, reply := { result := .stale } }
  else
    let store := { s with append := { s.append with transfer := 0, bytes := .zero maxRecordBytes } }
    if s.reaches r.domain Port.append then
      { store
        reply := { result := a.append }
        appended := some ⟨r.domain, r.lane, r.policy, slice s.append.bytes.val 0 s.append.total⟩ }
    else { store, reply := { result := .io } }

/-- `ZQ_PEEK_BEGIN` -/
def peekBegin (s : Store) (r : Request) (a : Answers) : Executed :=
  let cleared : ReadCopy :=
    { s.read with
      transfer := 0, length := 0, bytes := .zero maxRecordBytes, token := {}, legacyToken := noLegacyToken }
  if s.reaches r.domain Port.peek then
    let filled := cleared.fill r.domain a.peek
    if a.peek.result ≠ .ok then
      { store := { s with read := filled }, reply := { result := a.peek.result }, peeked := some a.peek }
    else if a.peek.length = 0 ∨ a.peek.length > maxRecordBytes then
      { store := { s with read := filled }, reply := { result := .corrupt }, peeked := some a.peek }
    else
      let (id, next) := s.transfer
      if id = 0 then
        { store := { s with nextTransfer := next, read := filled }
          reply := { result := .full }
          peeked := some a.peek }
      else
        { store :=
            { s with
              nextTransfer := next
              read :=
                { filled with
                  transfer := id, length := a.peek.length, lane := r.lane, deadline := r.deadline,
                  domain := r.domain } }
          reply :=
            { result := .ok, transfer := id, total := a.peek.length, token := filled.token,
              legacyToken := filled.legacyToken }
          peeked := some a.peek }
  else { store := { s with read := cleared }, reply := { result := .io } }

/-- The request is for the record that is copied out. -/
def Reads (s : Store) (r : Request) : Prop :=
  s.read.transfer = r.transfer ∧ s.read.lane = r.lane ∧ s.read.domain = r.domain ∧
    s.read.deadline = r.deadline ∧ r.offset < s.read.length

instance (s : Store) (r : Request) : Decidable (s.Reads r) := inferInstanceAs (Decidable (_ ∧ _))

/-- `ZQ_PEEK_CHUNK` -/
def peekChunk (s : Store) (r : Request) : Executed :=
  if ¬ s.Reads r then { store := s, reply := { result := .stale } }
  else
    { store := s
      reply :=
        { result := .ok
          transfer := s.read.transfer
          total := s.read.length
          token := s.read.token
          legacyToken := s.read.legacyToken
          bytes := slice s.read.bytes.val r.offset (min (s.read.length - r.offset) chunkBytes) } }

/-- The operations that copy nothing. -/
def other (s : Store) (r : Request) (a : Answers) : Reply :=
  match r.operation with
  | .settle     => { result := if s.reaches r.domain Port.settle then a.settle else .io }
  | .snapshot   =>
    { result := if a.snapshot.isSome then .ok else .pending, verified := a.snapshot.isSome,
      depth := a.snapshot.getD 0 }
  | .generation =>
    { result := if a.generation.isSome then .ok else .io, verified := a.generation.isSome,
      generation := a.generation.getD [] }
  | .recover    => { result := if a.recover then .ok else .pending, verified := a.recover }
  | .probe      => { result := if a.probe then .ok else .pending, verified := a.probe }
  | _           => { result := .io }

/-- The switch of `zq_store_execute`. -/
def perform (s : Store) (r : Request) (a : Answers) : Executed :=
  match r.operation with
  | .appendBegin  => s.appendBegin r
  | .appendChunk  => s.appendChunk r
  | .appendCommit => s.appendCommit r a
  | .peekBegin    => s.peekBegin r a
  | .peekChunk    => s.peekChunk r
  | _             => { store := s, reply := s.other r a }

/-- `zq_store_execute` -/
def execute (s : Store) (now : Nat) (r : Request) (a : Answers) : Executed :=
  if r.valid = false then { store := s, reply := { result := .io } }
  else if now ≥ r.deadline then { store := s.expire now, reply := { result := .pending } }
  else (s.expire now).perform r a

end Store

/-! ### Runs -/

/-- A request that is executed, with the clock and what the queues would return. -/
structure Input where
  now : Nat
  request : Request
  answers : Answers

/-- A request that was executed. -/
structure Step where
  request : Request
  reply : Reply
  appended : Option AppendCall
  peeked : Option Peeked

def Executed.step (e : Executed) (request : Request) : Step := ⟨request, e.reply, e.appended, e.peeked⟩

/-- Requests one after the other. -/
def run (s : Store) : List Input → List Step
  | []              => []
  | input :: inputs =>
    let e := s.execute input.now input.request input.answers
    e.step input.request :: run e.store inputs

/-- The identifier that a request was given. -/
def Step.given (step : Step) : Option Nat :=
  if (step.request.operation = .appendBegin ∨ step.request.operation = .peekBegin) ∧ step.reply.result = .ok then
    some step.reply.transfer
  else none

/-- The chunk of a transfer that was accepted. -/
def Step.chunk (t : Nat) (step : Step) : List UInt8 :=
  if step.request.operation = .appendChunk ∧ step.request.transfer = t ∧ step.reply.result = .ok then
    step.request.bytes
  else []

/-- The chunks of a transfer that were accepted, one after the other. -/
def accepted (t : Nat) (steps : List Step) : List UInt8 := steps.flatMap (Step.chunk t)

end SegmentedQueue
