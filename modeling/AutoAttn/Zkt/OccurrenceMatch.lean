import Mathlib
import AutoAttn.QueueEvidence.Basic
import AutoAttn.Zkt.Decode

/-!
# Links between live observations and source occurrences

ADD proposes a link between a punch that it observed live and a row of the terminal's history when both are
the only ones left with their facts. Proposals are made in a window that is proved complete on both sides.
-/

namespace Zkt

open Checks
open QueueEvidence (isDigest isLower isUpper isDigit)

/-! ### Windows -/

def maxWindowRecords : Nat := 2048

/-- `MatchWindow` -/
structure MatchWindow where
  terminalSerial : String
  sourceEpoch : String
  startOrdinal : Nat
  /-- Exclusive. -/
  endOrdinal : Nat
  sourceChainDigest : String
  evidenceRevision : String
  decoderProfile : String
  decoderVersion : String
  sourceRecordSize : Nat
  liveRecordSizes : Finset Nat
  profileQualified : Bool
  sourceComplete : Bool
  liveComplete : Bool

/-- `SourceOccurrence`. There are no facts for a row that was not decoded. -/
structure SourceOccurrence where
  terminalSerial : String
  sourceEpoch : String
  ordinal : Nat
  rawDigest : String
  decoderProfile : String
  decoderVersion : String
  facts : Option PunchFacts

/-- `LiveObservation` -/
structure LiveObservation where
  terminalSerial : String
  sourceEpoch : String
  workKey : String
  recordOffset : Nat
  rawDigest : String
  decoderProfile : String
  decoderVersion : String
  facts : PunchFacts

section Identity

variable (digest : Json → String)

/-- `SourceOccurrence.identity`, by `occurrence_id`. -/
def SourceOccurrence.identity (row : SourceOccurrence) : String :=
  digest (.arr [.str "zkt-occurrence-v1", .str row.terminalSerial, .str row.sourceEpoch, .int row.ordinal,
    .str row.rawDigest])

/-- `LiveObservation.identity` -/
def LiveObservation.identity (row : LiveObservation) : String :=
  digest (.arr [.str "zkt-live-punch-v1", .str row.workKey, .int row.recordOffset, .str row.rawDigest])

end Identity

structure Binding where
  observationId : String
  occurrenceId : String
deriving DecidableEq

inductive MatchState where
  | proposed
  | existing
  | held
deriving DecidableEq

/-- The reasons of a decision. -/
inductive MatchReason where
  | profileQualificationRequired
  | sourceWindowIncomplete
  | liveWindowIncomplete
  | sourceWindowHasUnresolvedFacts
  | missingUserReference
  | sourceOccurrenceAlreadyBound
  | noSourceCandidate
  | ambiguousSourceOccurrences
  | competingLiveObservations
  | retainedBinding
  | uniqueFullFactsInClosedWindow
deriving DecidableEq

/-- `MatchDecision` -/
structure MatchDecision where
  observationId : String
  state : MatchState
  reason : MatchReason
  occurrenceId : Option String := none
  candidateCount : Nat := 0
deriving DecidableEq

/-- `MatchPlan` -/
structure MatchPlan where
  evidenceRevision : String
  sourceChainDigest : String
  decisions : List MatchDecision
  unboundOccurrences : List String

/-- The categories of `MatchEvidenceError`. -/
inductive MatchError where
  | invalidDecodedFacts
  | invalidDecodedUserReference
  | matchWindowBounds
  | sourceWindowBinding
  | duplicateSourceCoordinates
  | sourceOrdinalGap
  | liveWindowBinding
  | duplicateLiveObservation
  | priorBindingConflict
deriving DecidableEq

/-! ### Matching -/

/-- The facts that are compared: the user, the encoded time, the status and the punch. -/
structure FactKey where
  userId : String
  encodedTime : Nat
  status : Nat
  punch : Nat
deriving DecidableEq

/-- The decoded values are consistent. -/
def FactsValid (facts : PunchFacts) : Prop :=
  encodeTime facts.localTime = some facts.encodedTime ∧ facts.utcTime.utcoffset = some 0 ∧
    facts.utcTime.sameInstant facts.localTime = true ∧ facts.status ≤ 255 ∧ facts.punch ≤ 255

instance (facts : PunchFacts) : Decidable (FactsValid facts) := by
  unfold FactsValid
  infer_instance

def UserIdValid (userId : String) : Prop :=
  1 ≤ userId.length ∧ userId.length ≤ 24 ∧ userId.toList.getLast? ≠ some ' ' ∧
    ∀ c ∈ userId.toList, 32 ≤ c.toNat ∧ c.toNat ≤ 126

instance (userId : String) : Decidable (UserIdValid userId) := inferInstanceAs (Decidable (_ ∧ _ ∧ _ ∧ _))

/-- `_fact_key` -/
def factKey (facts : PunchFacts) : Except MatchError (Option FactKey) := do
  refuse (¬ FactsValid facts) .invalidDecodedFacts
  match facts.userId with
  | none        => pure none
  | some userId =>
    refuse (¬ UserIdValid userId) .invalidDecodedUserReference
    pure (some ⟨userId, facts.encodedTime, facts.status, facts.punch⟩)

/-- The pattern of a terminal serial. -/
def serialValid (serial : String) : Bool :=
  decide (1 ≤ serial.length ∧ serial.length ≤ 120) &&
    serial.toList.all fun c => isLower c || isUpper c || isDigit c || c ∈ ['.', '_', ':', '-']

/-- `EPOCH`: groups of 8, 4, 4, 4 and 12 digits. -/
def epochValid (epoch : String) : Bool :=
  epoch.length = 36 && epoch.toList.zipIdx.all fun (c, i) =>
    if i ∈ [8, 13, 18, 23] then c = '-' else isDigit c || ('a' ≤ c && c ≤ 'f')

/-- The window and the numbers of rows are within their bounds. -/
def WindowValid (window : MatchWindow) (source live prior : Nat) : Prop :=
  serialValid window.terminalSerial = true ∧ epochValid window.sourceEpoch = true ∧
    window.startOrdinal ≤ window.endOrdinal ∧ window.endOrdinal ≤ 2 ^ 31 ∧
    window.endOrdinal - window.startOrdinal ≤ maxWindowRecords ∧
    source ≤ maxWindowRecords ∧ live ≤ maxWindowRecords ∧ prior ≤ maxWindowRecords ∧
    isDigest window.sourceChainDigest = true ∧ isDigest window.evidenceRevision = true ∧
    window.decoderProfile ∈ modelProfiles ∧ window.decoderVersion = decoderVersion ∧
    window.sourceRecordSize ∈ sourceSizes ∧ window.liveRecordSizes ≠ ∅ ∧ window.liveRecordSizes ⊆ liveSizes

instance (window : MatchWindow) (source live prior : Nat) : Decidable (WindowValid window source live prior) := by
  unfold WindowValid
  infer_instance

/-- The row belongs to the window. -/
def SourceInWindow (window : MatchWindow) (row : SourceOccurrence) : Prop :=
  row.terminalSerial = window.terminalSerial ∧ row.sourceEpoch = window.sourceEpoch ∧
    row.decoderProfile = window.decoderProfile ∧ row.decoderVersion = window.decoderVersion ∧
    window.startOrdinal ≤ row.ordinal ∧ row.ordinal < window.endOrdinal ∧
    (∀ facts ∈ row.facts, facts.length = window.sourceRecordSize) ∧ isDigest row.rawDigest = true

instance (window : MatchWindow) (row : SourceOccurrence) : Decidable (SourceInWindow window row) := by
  unfold SourceInWindow
  infer_instance

/-- The observation belongs to the window. -/
def LiveInWindow (window : MatchWindow) (row : LiveObservation) : Prop :=
  row.terminalSerial = window.terminalSerial ∧ row.sourceEpoch = window.sourceEpoch ∧
    row.decoderProfile = window.decoderProfile ∧ row.decoderVersion = window.decoderVersion ∧
    isDigest row.workKey = true ∧ isDigest row.rawDigest = true ∧ row.recordOffset < 65536 ∧
    row.facts.offset = row.recordOffset ∧ row.facts.length ∈ window.liveRecordSizes ∧
    row.recordOffset + row.facts.length ≤ 65536

instance (window : MatchWindow) (row : LiveObservation) : Decidable (LiveInWindow window row) := by
  unfold LiveInWindow
  infer_instance

/-- A row of `source_by_id` with its key. -/
structure SourceEntry where
  identity : String
  ordinal : Nat
  key : Option FactKey

/-- An observation of `live_by_id` with its key. -/
structure LiveEntry where
  identity : String
  key : Option FactKey

section Propose

variable (digest : Json → String) (window : MatchWindow)

/-- The key of a source row. -/
def SourceOccurrence.readKey (row : SourceOccurrence) : Except MatchError (Option FactKey) :=
  match row.facts with
  | none       => pure none
  | some facts => factKey facts

def readSource (done : List SourceEntry) (row : SourceOccurrence) : Except MatchError SourceEntry := do
  refuse (¬ SourceInWindow window row) .sourceWindowBinding
  refuse (∃ other ∈ done, other.ordinal = row.ordinal ∨ other.identity = row.identity digest)
    .duplicateSourceCoordinates
  let key ← row.readKey
  pure ⟨row.identity digest, row.ordinal, key⟩

def readLive (done : List LiveEntry) (row : LiveObservation) : Except MatchError LiveEntry := do
  refuse (¬ LiveInWindow window row) .liveWindowBinding
  refuse (∃ other ∈ done, other.identity = row.identity digest) .duplicateLiveObservation
  let key ← factKey row.facts
  pure ⟨row.identity digest, key⟩

/-- A prior link is between rows with the same facts. -/
def PriorValid (sources : List SourceEntry) (lives : List LiveEntry) (row : Binding) : Prop :=
  ∃ l ∈ lives, l.identity = row.observationId ∧ l.key ≠ none ∧
    ∃ s ∈ sources, s.identity = row.occurrenceId ∧ s.key = l.key

instance (sources : List SourceEntry) (lives : List LiveEntry) (row : Binding) :
    Decidable (PriorValid sources lives row) := by
  unfold PriorValid
  infer_instance

def readPrior (sources : List SourceEntry) (lives : List LiveEntry) (done : List Binding) (row : Binding) :
    Except MatchError Binding := do
  refuse (¬ PriorValid sources lives row ∨
    ∃ other ∈ done, other.observationId = row.observationId ∨ other.occurrenceId = row.occurrenceId)
    .priorBindingConflict
  pure row

/-- Why no association is made in the window. -/
def gate (sources : List SourceEntry) : Option MatchReason :=
  if window.profileQualified = false then some .profileQualificationRequired
  else if window.sourceComplete = false then some .sourceWindowIncomplete
  else if window.liveComplete = false then some .liveWindowIncomplete
  else if ∃ s ∈ sources, s.key = none then some .sourceWindowHasUnresolvedFacts
  else none

/-- `available`: the occurrences with the key that are not bound. -/
def available (sources : List SourceEntry) (bound : List Binding) (key : FactKey) : List String :=
  (sources.filter fun s => s.identity ∉ bound.map (·.occurrenceId) ∧ s.key = some key).map (·.identity)

/-- `pending`: the observations with the key that are not bound. -/
def pending (lives : List LiveEntry) (bound : List Binding) (key : FactKey) : List String :=
  (lives.filter fun l => l.identity ∉ bound.map (·.observationId) ∧ l.key = some key).map (·.identity)

/-- Why an observation has no unique counterpart. -/
def holdReason (sources : List SourceEntry) (lives : List LiveEntry) (bound : List Binding)
    (key : Option FactKey) : Option MatchReason :=
  match key with
  | none     => some .missingUserReference
  | some key =>
    let candidates := available sources bound key
    if candidates = [] then
      if ∃ s ∈ sources, s.key = some key then some .sourceOccurrenceAlreadyBound else some .noSourceCandidate
    else if 1 < candidates.length then some .ambiguousSourceOccurrences
    else if 1 < (pending lives bound key).length then some .competingLiveObservations
    else none

/-- The decision for one observation. -/
def decision (sources : List SourceEntry) (lives : List LiveEntry) (bound : List Binding) (l : LiveEntry) :
    MatchDecision :=
  match bound.find? (·.observationId = l.identity) with
  | some b => ⟨l.identity, .existing, .retainedBinding, some b.occurrenceId, 0⟩
  | none   =>
    let candidates := l.key.elim [] (available sources bound)
    match (gate window sources).or (holdReason sources lives bound l.key) with
    | some reason => ⟨l.identity, .held, reason, none, candidates.length⟩
    | none        => ⟨l.identity, .proposed, .uniqueFullFactsInClosedWindow, candidates.head?, 1⟩

/-- The links of the decisions in a state. -/
def linksIn (state : MatchState) (decisions : List MatchDecision) : List Binding :=
  decisions.filterMap fun d =>
    if d.state = state then d.occurrenceId.map fun occurrence => ⟨d.observationId, occurrence⟩ else none

/-- The plan for rows that were read. -/
def matchPlan (sources : List SourceEntry) (lives : List LiveEntry) (bound : List Binding) : MatchPlan :=
  let decisions := lives.map (decision window sources lives bound)
  { evidenceRevision := window.evidenceRevision
    sourceChainDigest := window.sourceChainDigest
    decisions := decisions
    unboundOccurrences := (sources.map (·.identity)).filter fun identity =>
      identity ∉ bound.map (·.occurrenceId) ∧ identity ∉ (linksIn .proposed decisions).map (·.occurrenceId) }

/-- `propose_matches` -/
def proposeMatches (source : List SourceOccurrence) (live : List LiveObservation) (prior : List Binding) :
    Except MatchError MatchPlan := do
  refuse (¬ WindowValid window source.length live.length prior.length) .matchWindowBounds
  let sources ← readAll (readSource digest window) source
  -- Rows that were not decoded are part of the window too.
  refuse (source.length ≠ window.endOrdinal - window.startOrdinal) .sourceOrdinalGap
  let lives ← readAll (readLive digest window) live
  let bound ← readAll (readPrior sources lives) prior
  pure (matchPlan window sources lives bound)

end Propose

end Zkt
