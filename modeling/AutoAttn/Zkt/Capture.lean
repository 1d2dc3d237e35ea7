import AutoAttn.Journal.Store
import AutoAttn.Zkt.Packet

/-!
# Capture of packets

The terminal session hands each packet to the journal before it acknowledges it. A packet that does not fit a
record is split into fragments of one random group. The capture is done when the storage owner has confirmed
every record.
-/

namespace ZoneLite

open Bytes

/-! ### Port and state -/

/-- `zj_reply_t`, as far as the capture reads it. -/
structure ZjReply where
  /-- `none` for `ZJ_OK`. -/
  result : Option ZjError
  captureSequence : Nat

/-- `zj_capture_port_t` over the states of everything outside. -/
structure ZjCapturePort (σ : Type) where
  nowMs : σ → UInt32 × σ
  waitMs : Nat → σ → σ
  random : σ → Option (Block 16) × σ
  digest : List UInt8 → Option (Block 32)
  /-- A ticket, if the request was taken. -/
  submit : ZjObservation → σ → Option Nat × σ
  /-- The reply, if it is complete. -/
  poll : Nat → σ → Option ZjReply × σ
  abandon : Nat → σ → Bool × σ

/-- `zj_capture_facts_t`. -/
structure ZjCaptureFacts where
  wallSeconds : Int64
  uptimeMs : UInt64
  identityRevision : UInt32
  timeQuality : ZjTimeQuality

/-- `zj_capture_health_t`, without the latencies. -/
structure ZjCaptureHealth where
  pendingTicket : Nat := 0
  packets : Nat := 0
  fragments : Nat := 0
  failures : Nat := 0
  timeouts : Nat := 0
  firstSequence : Nat := 0
  lastSequence : Nat := 0
  startedMs : UInt32 := 0
  progressMs : UInt32 := 0
  committedBytes : Nat := 0
  lastResult : Option ZjError := none
  running : Bool := false

/-- `zj_capture_t`, with the world outside and the observations that were confirmed as stored. -/
structure ZjCapture (σ : Type) where
  world : σ
  health : ZjCaptureHealth := {}
  initialized : Bool := true
  committed : List ZjObservation := []

/-- Calls of a capture. A wait that never ends has no result. -/
abbrev CaptureM (σ : Type) := StateT (ZjCapture σ) Option

variable {σ : Type} (port : ZjCapturePort σ)

/-- A call of the port. -/
def call {α : Type} (f : σ → α × σ) : CaptureM σ α := fun c => some ((f c.world).1, { c with world := (f c.world).2 })

def onHealth (f : ZjCaptureHealth → ZjCaptureHealth) : CaptureM σ Unit :=
  modify fun c => { c with health := f c.health }

/-- The storage owner confirmed the record. -/
def confirm (o : ZjObservation) : CaptureM σ Unit := modify fun c => { c with committed := c.committed ++ [o] }

def clockMs : CaptureM σ UInt32 := call port.nowMs

/-! ### Capture -/

/-- `CAPTURE_DEADLINE_MS` -/
def captureDeadlineMs : UInt32 := 15000

/-- `APPEND_DEADLINE_MS` -/
def appendDeadlineMs : UInt32 := 5000

/-- `ZJ_PACKET_MAX` -/
def zjPacketMax : Nat := 65536

/-- `ZJ_FRAGMENT_HEADER` -/
def zjFragmentHeader : Nat := 60

/-- `ZJ_FRAGMENT_DATA` -/
def zjFragmentData : Nat := zjRawMax - zjFragmentHeader

def releaseReply : CaptureM σ Bool := do
  let ticket := (← get).health.pendingTicket
  if ticket = 0 then return true
  if !(← call (port.abandon ticket)) then return false
  onHealth fun h => { h with pendingTicket := 0 }
  return true

/-- What `append` does with a complete reply. -/
def appended (o : ZjObservation) (reply : ZjReply) : CaptureM σ Bool := do
  onHealth fun h => { h with pendingTicket := 0, lastResult := reply.result }
  if reply.result ≠ none then return false
  confirm o
  if reply.captureSequence = 0 then
    onHealth fun h => { h with lastResult := some .invalid }
    return false
  onHealth fun h => { h with
    firstSequence := if h.firstSequence = 0 then reply.captureSequence else h.firstSequence
    lastSequence := reply.captureSequence
    fragments := h.fragments + 1 }
  let now ← clockMs port
  onHealth fun h => { h with progressMs := now }
  return true

/-- The deadline of the record or of the packet has passed. -/
def appendLate (start : UInt32) : CaptureM σ Bool := do
  if (← clockMs port) - start ≥ appendDeadlineMs then return true
  return (← clockMs port) - (← get).health.startedMs ≥ captureDeadlineMs

/-- The loop of `append`. -/
def awaitReply (ticket : Nat) (start : UInt32) (o : ZjObservation) : Nat → CaptureM σ Bool
  | 0        => failure
  | fuel + 1 => do
    match ← call (port.poll ticket) with
    | some reply => appended port o reply
    | none       =>
      if ← appendLate port start then
        onHealth fun h => { h with lastResult := some .uncertain, timeouts := h.timeouts + 1 }
        let _ ← releaseReply port
        return false
      call fun w => ((), port.waitMs 10 w)
      awaitReply ticket start o fuel

/-- `append` -/
def append (fuel : Nat) (o : ZjObservation) : CaptureM σ Bool := do
  let _ ← clockMs port
  match ← call (port.submit o) with
  | none | some 0   =>
    onHealth fun h => { h with lastResult := some .full }
    return false
  | some ticket =>
    onHealth fun h => { h with pendingTicket := ticket }
    awaitReply port ticket (← clockMs port) o fuel

/-- The raw bytes of a fragment. -/
def fragmentRaw (group : Block 16) (digest : Block 32) (packet : List UInt8) (offset bytes : Nat) : List UInt8 :=
  ascii "ZJF1" ++ group.val ++ le 4 packet.length ++ le 4 offset ++ digest.val ++ slice packet offset bytes

/-- The observation that is submitted. Its sequence is for validation only. -/
def captureObservation (facts : ZjCaptureFacts) (rawFormat : ZjRawFormat) (raw : List UInt8) : ZjObservation where
  sequence := 1
  rawFormat := rawFormat
  timeQuality := facts.timeQuality
  encodedTime := 0
  capturedAtSeconds := facts.wallSeconds
  capturedUptimeMs := facts.uptimeMs
  sourceEpoch := Block.zero 16
  sourceOrdinal := 0xffffffff
  identityRevision := facts.identityRevision
  raw := raw

/-- How many bytes of the packet the record at the offset takes. -/
def captureBytes (length offset : Nat) : Nat :=
  if zjRawMax < length then min (length - offset) zjFragmentData else length - offset

/-- The record at the offset. -/
def captureRecord (facts : ZjCaptureFacts) (group : Block 16) (digest : Block 32) (packet : List UInt8)
    (offset : Nat) : ZjObservation :=
  if zjRawMax < packet.length then
    captureObservation facts .packetFragment
      (fragmentRaw group digest packet offset (captureBytes packet.length offset))
  else captureObservation facts .livePacket packet

/-- The loop of `zj_capture_packet`. Each round takes some bytes, so that there are enough rounds. -/
def captureLoop (fuel : Nat) (facts : ZjCaptureFacts) (group : Block 16) (digest : Block 32)
    (packet : List UInt8) : Nat → Nat → CaptureM σ Bool
  | 0, _               => failure
  | rounds + 1, offset => do
    if packet.length ≤ offset then return true
    if (← clockMs port) - (← get).health.startedMs ≥ captureDeadlineMs then
      onHealth fun h => { h with lastResult := some .uncertain, timeouts := h.timeouts + 1 }
      return false
    let o := captureRecord facts group digest packet offset
    if !zjObservationValid o then return false
    if !(← append port fuel o) then return false
    let next := offset + captureBytes packet.length offset
    onHealth fun h => { h with committedBytes := next }
    captureLoop fuel facts group digest packet rounds next

/-- The group and the digest of a packet that is split. -/
def captureGroup (packet : List UInt8) : CaptureM σ (Option (Block 16 × Block 32)) := do
  if packet.length ≤ zjRawMax then return some (Block.zero 16, Block.zero 32)
  match ← call port.random with
  | none       => return none
  | some group =>
    match port.digest packet with
    | none        => return none
    | some digest => return if group.present then some (group, digest) else none

/-- What `zj_capture_packet` does before `done`. -/
def captureRecords (fuel : Nat) (packet : List UInt8) (facts : ZjCaptureFacts) : CaptureM σ Bool := do
  if packet.length < 8 ∨ zjPacketMax < packet.length then return false
  if !(← releaseReply port) then return false
  onHealth fun h => { h with running := true }
  match ← captureGroup port packet with
  | none                 => return false
  | some (group, digest) =>
    if !(← captureLoop port fuel facts group digest packet (packet.length + 1) 0) then return false
    onHealth fun h => { h with packets := h.packets + 1, lastResult := none }
    return true

/-- `zj_capture_packet`. `fuel` bounds how often a reply is polled. -/
def zjCapturePacket (fuel : Nat) (packet : List UInt8) (facts : ZjCaptureFacts) : CaptureM σ Bool := do
  let c ← get
  if !c.initialized || c.health.running then return false
  let started ← clockMs port
  onHealth fun h => { h with
    startedMs := started, committedBytes := 0, firstSequence := 0, lastSequence := 0, lastResult := some .invalid }
  let ok ← captureRecords port fuel packet facts
  if !ok then onHealth fun h => { h with failures := h.failures + 1 }
  onHealth fun h => { h with running := false }
  if ok then let _ ← clockMs port
  return ok

/-! ### What is committed -/

/-- If the call returns, then it has added observations that meet the condition. -/
def Adds {α : Type} (m : CaptureM σ α) (post : α → List ZjObservation → Prop) : Prop :=
  ∀ c a c', m c = some (a, c') → ∃ new, c'.committed = c.committed ++ new ∧ post a new

section Adds

variable {α β : Type} {m : CaptureM σ α} {f : α → CaptureM σ β} {P P' : α → List ZjObservation → Prop}
  {Q : β → List ZjObservation → Prop} {port}

lemma Adds.bind (hm : Adds m P) (hf : ∀ a before, P a before → Adds (f a) fun b after => Q b (before ++ after)) :
    Adds (m >>= f) Q := by
  intro c b c' h
  obtain ⟨⟨a, c₁⟩, hm', hf'⟩ := Option.bind_eq_some_iff.1 h
  obtain ⟨before, hbefore, hP⟩ := hm c a c₁ hm'
  obtain ⟨after, hafter, hQ⟩ := hf a before hP c₁ b c' hf'
  exact ⟨before ++ after, by rw [hafter, hbefore, List.append_assoc], hQ⟩

lemma Adds.mono (hm : Adds m P) (h : ∀ a new, P a new → P' a new) : Adds m P' := by
  intro c a c' hc
  obtain ⟨new, hnew, hP⟩ := hm c a c' hc
  exact ⟨new, hnew, h a new hP⟩

lemma adds_pure {a : α} (h : P a []) : Adds (pure a : CaptureM σ α) P := by
  rintro c a' c' hc
  cases hc
  exact ⟨[], (List.append_nil _).symm, h⟩

lemma adds_failure : Adds (failure : CaptureM σ α) P := nofun

/-- The call adds nothing. -/
def Silent (m : CaptureM σ α) : Prop := Adds m fun _ new => new = []

lemma Silent.bind (hm : Silent m) (hf : ∀ a, Adds (f a) Q) : Adds (m >>= f) Q := by
  refine Adds.bind hm ?_
  rintro a _ rfl
  simpa using hf a

lemma silent_call (f : σ → α × σ) : Silent (call f) := by
  rintro c a c' hc
  cases hc
  exact ⟨[], (List.append_nil _).symm, rfl⟩

lemma silent_onHealth (f : ZjCaptureHealth → ZjCaptureHealth) : Silent (onHealth f : CaptureM σ Unit) := by
  rintro c a c' hc
  cases hc
  exact ⟨[], (List.append_nil _).symm, rfl⟩

lemma adds_confirm (o : ZjObservation) : Adds (confirm o : CaptureM σ Unit) fun _ new => new = [o] := by
  rintro c a c' hc
  cases hc
  exact ⟨[o], rfl, rfl⟩

lemma silent_get : Silent (get : CaptureM σ (ZjCapture σ)) := by
  rintro c a c' hc
  cases hc
  exact ⟨[], (List.append_nil _).symm, rfl⟩

lemma silent_releaseReply : Silent (releaseReply port) := by
  refine silent_get.bind fun c => ?_
  dsimp only
  split_ifs
  · exact adds_pure rfl
  · refine (silent_call _).bind fun ok => ?_
    split_ifs
    · exact adds_pure rfl
    · exact (silent_onHealth _).bind fun _ => adds_pure rfl

lemma silent_appendLate (start : UInt32) : Silent (appendLate port start) := by
  refine (silent_call _).bind fun now => ?_
  split_ifs
  · exact adds_pure rfl
  · exact (silent_call _).bind fun _ => silent_get.bind fun _ => adds_pure rfl

/-- A confirmed record was added. -/
lemma adds_appended (o : ZjObservation) (reply : ZjReply) :
    Adds (appended port o reply) fun ok new => ok = true → new = [o] := by
  refine (silent_onHealth _).bind fun _ => ?_
  split
  · exact adds_pure nofun
  · refine (adds_confirm o).bind ?_
    rintro _ _ rfl
    split
    · exact (silent_onHealth _).bind fun _ => adds_pure nofun
    · exact (silent_onHealth _).bind fun _ => (silent_call _).bind fun _ =>
        (silent_onHealth _).bind fun _ => adds_pure fun _ => rfl

lemma adds_awaitReply (ticket : Nat) (start : UInt32) (o : ZjObservation) (fuel : Nat) :
    Adds (awaitReply port ticket start o fuel) fun ok new => ok = true → new = [o] := by
  induction fuel with
  | zero => exact adds_failure
  | succ fuel ih =>
    refine (silent_call _).bind fun reply => ?_
    cases reply with
    | some reply => exact adds_appended o reply
    | none =>
      refine (silent_appendLate start).bind fun late => ?_
      split_ifs
      · exact (silent_onHealth _).bind fun _ => silent_releaseReply.bind fun _ => adds_pure nofun
      · exact (silent_call _).bind fun _ => ih

lemma adds_append (fuel : Nat) (o : ZjObservation) :
    Adds (append port fuel o) fun ok new => ok = true → new = [o] := by
  refine (silent_call _).bind fun _ => (silent_call _).bind fun ticket => ?_
  split
  · exact (silent_onHealth _).bind fun _ => adds_pure nofun
  · exact (silent_onHealth _).bind fun _ => adds_pure nofun
  · exact (silent_onHealth _).bind fun _ => (silent_call _).bind fun _ => adds_awaitReply _ _ o fuel

variable {fuel : Nat} {facts : ZjCaptureFacts} {group : Block 16} {digest : Block 32} {packet : List UInt8}

/-- The offsets of the records, from one on. -/
def offsetsFrom (length : Nat) : Nat → Nat → List Nat
  | 0, _               => []
  | rounds + 1, offset =>
    if length ≤ offset then [] else offset :: offsetsFrom length rounds (offset + captureBytes length offset)

lemma adds_captureLoop (rounds offset : Nat) :
    Adds (captureLoop port fuel facts group digest packet rounds offset) fun ok new => ok = true →
      new = (offsetsFrom packet.length rounds offset).map (captureRecord facts group digest packet) := by
  induction rounds generalizing offset with
  | zero => exact adds_failure
  | succ rounds ih =>
    unfold captureLoop offsetsFrom
    split
    · exact adds_pure fun _ => rfl
    · refine (silent_call _).bind fun now => silent_get.bind fun c => ?_
      split
      · exact (silent_onHealth _).bind fun _ => adds_pure nofun
      · dsimp only
        split
        · exact adds_pure nofun
        · refine (adds_append fuel _).bind fun ok before hbefore => ?_
          cases ok with
          | false => exact adds_pure nofun
          | true =>
            refine (silent_onHealth _).bind fun _ => (ih _).mono fun ok after hafter hok => ?_
            rw [hbefore rfl, hafter hok]
            rfl

/-- The group and the digest of a packet that is split are present. -/
def GroupValid (port : ZjCapturePort σ) (packet : List UInt8) (group : Block 16) (digest : Block 32) : Prop :=
  zjRawMax < packet.length → group.present = true ∧ port.digest packet = some digest

lemma adds_captureGroup :
    Adds (captureGroup port packet) fun result new => new = [] ∧
      ∀ group digest, result = some (group, digest) → GroupValid port packet group digest := by
  unfold captureGroup
  split
  · rename_i hlength
    exact adds_pure ⟨rfl, fun _ _ _ hlong => absurd hlong (not_lt.2 hlength)⟩
  · refine (silent_call _).bind fun group => ?_
    cases group with
    | none => exact adds_pure ⟨rfl, nofun⟩
    | some group =>
      dsimp only
      split
      · exact adds_pure ⟨rfl, nofun⟩
      · rename_i digest hdigest
        refine adds_pure ⟨rfl, fun group' digest' hresult _ => ?_⟩
        split_ifs at hresult with hpresent
        cases hresult
        exact ⟨hpresent, hdigest⟩

/-- A capture that succeeds has stored a record for each part of the packet. -/
lemma adds_captureRecords :
    Adds (captureRecords port fuel packet facts) fun ok new => ok = true →
      8 ≤ packet.length ∧ packet.length ≤ zjPacketMax ∧ ∃ group digest, GroupValid port packet group digest ∧
        new = (offsetsFrom packet.length (packet.length + 1) 0).map (captureRecord facts group digest packet) := by
  unfold captureRecords
  split
  · exact adds_pure nofun
  · rename_i hlength
    refine silent_releaseReply.bind fun ok => ?_
    split
    · exact adds_pure nofun
    · refine (silent_onHealth _).bind fun _ => adds_captureGroup.bind ?_
      rintro result _ ⟨rfl, hvalid⟩
      cases result with
      | none => exact adds_pure nofun
      | some result =>
        obtain ⟨group, digest⟩ := result
        refine (adds_captureLoop _ _).bind fun ok new hnew => ?_
        cases ok with
        | false => exact adds_pure nofun
        | true =>
          refine (silent_onHealth _).bind fun _ => adds_pure fun _ => ?_
          refine ⟨by omega, by omega, group, digest, hvalid group digest rfl, ?_⟩
          rw [hnew rfl]
          simp

lemma adds_zjCapturePacket :
    Adds (zjCapturePacket port fuel packet facts) fun ok new => ok = true →
      8 ≤ packet.length ∧ packet.length ≤ zjPacketMax ∧ ∃ group digest, GroupValid port packet group digest ∧
        new = (offsetsFrom packet.length (packet.length + 1) 0).map (captureRecord facts group digest packet) := by
  unfold zjCapturePacket
  refine silent_get.bind fun c => ?_
  split
  · exact adds_pure nofun
  · refine (silent_call _).bind fun started => (silent_onHealth _).bind fun _ => ?_
    refine adds_captureRecords.bind fun ok new hnew => ?_
    cases ok with
    | false =>
      exact (silent_onHealth _).bind fun _ => (silent_onHealth _).bind fun _ => adds_pure nofun
    | true =>
      refine (silent_onHealth _).bind fun _ => (silent_call _).bind fun _ => adds_pure fun _ => ?_
      simpa using hnew rfl

end Adds

/-! ### Fragments of a packet -/

section Fragments

open Zkt Chunks Checks

variable {group : Block 16} {digest : Block 32} {packet : List UInt8}

/-- A packet that fits a record has one. -/
lemma offsetsFrom_live {length : Nat} (h : 8 ≤ length) (hlive : length ≤ zjRawMax) :
    offsetsFrom length (length + 1) 0 = [0] := by
  obtain ⟨n, rfl⟩ : ∃ n, length = n + 1 := ⟨length - 1, by omega⟩
  simp [offsetsFrom, captureBytes, not_lt.2 hlive]

/-- A packet that is split has a record for each chunk. -/
lemma offsetsFrom_split {length : Nat} (h : zjRawMax < length) (rounds i : Nat)
    (hrounds : length < rounds + min (i * fragmentData) length) :
    offsetsFrom length rounds (min (i * fragmentData) length) =
      (List.range' i (fragmentCount length - i)).map (· * fragmentData) := by
  induction rounds generalizing i with
  | zero => omega
  | succ rounds ih =>
    have hcount := lt_count_iff (k := fragmentData) (n := length) (i := i) (by decide)
    by_cases hend : length ≤ i * fragmentData
    · have hzero : fragmentCount length - i = 0 := by
        rw [Nat.sub_eq_zero_iff_le, fragmentCount]
        omega
      rw [hzero, min_eq_right hend, offsetsFrom, if_pos le_rfl]
      rfl
    · have hpos : fragmentCount length - i = fragmentCount length - (i + 1) + 1 := by
        rw [fragmentCount]
        omega
      have hnext : i * fragmentData + captureBytes length (i * fragmentData) =
          min ((i + 1) * fragmentData) length := by
        have hsize : zjFragmentData = fragmentData := rfl
        rw [captureBytes, if_pos h, hsize, Nat.succ_mul]
        omega
      rw [min_eq_left (by omega), offsetsFrom, if_neg hend, hnext, ih, hpos, List.range'_succ, List.map_cons]
      rw [Nat.succ_mul]
      have : 0 < fragmentData := by decide
      omega

/-- The bytes of a record of a split packet. -/
lemma slice_captureBytes (h : zjRawMax < packet.length) (i : Nat) :
    slice packet (i * fragmentData) (captureBytes packet.length (i * fragmentData)) =
      chunk fragmentData packet i := by
  have hsize : zjFragmentData = fragmentData := rfl
  rw [captureBytes, if_pos h, hsize, slice, chunk, List.take_eq_take_iff, List.length_drop]
  omega

/-- The record of a chunk is parsed as its fragment. -/
lemma parseFragment_fragmentRaw (h : zjRawMax < packet.length) (hmax : packet.length ≤ zjPacketMax)
    (hgroup : group.present = true) {i : Nat} (hi : i * fragmentData < packet.length) :
    parseFragment (fragmentRaw group digest packet (i * fragmentData)
      (captureBytes packet.length (i * fragmentData))) = .ok (fragmentAt group.val digest.val packet i) := by
  generalize hraw : fragmentRaw group digest packet (i * fragmentData)
    (captureBytes packet.length (i * fragmentData)) = raw
  rw [fragmentRaw, slice_captureBytes h] at hraw
  have hmarker : slice raw 0 4 = ascii "ZJF1" := by
    rw [← hraw]
    simp [slice, ascii]
  have hg : slice raw 4 16 = group.val := by
    rw [← hraw]
    simp [slice, ascii, List.drop_append]
  have htotal : slice raw 20 4 = le 4 packet.length := by
    rw [← hraw]
    simp [slice, ascii, List.drop_append, List.drop_eq_nil_of_le]
  have hoffset : slice raw 24 4 = le 4 (i * fragmentData) := by
    rw [← hraw]
    simp [slice, ascii, List.drop_append, List.drop_eq_nil_of_le]
  have hdigest : slice raw 28 32 = digest.val := by
    rw [← hraw]
    simp [slice, ascii, List.drop_append, List.drop_eq_nil_of_le]
  have hdata : raw.drop fragmentHeader = chunk fragmentData packet i := by
    rw [← hraw]
    simp [fragmentHeader, ascii, List.drop_append, List.drop_eq_nil_of_le]
  have hlength : raw.length = fragmentHeader + (chunk fragmentData packet i).length := by
    rw [← hraw]
    simp [fragmentHeader, ascii]
    omega
  have htotal' : unle (le 4 packet.length) = packet.length := unle_le_of_lt (lt_of_le_of_lt hmax (by decide))
  have hoffset' : unle (le 4 (i * fragmentData)) = i * fragmentData :=
    unle_le_of_lt (hi.trans (lt_of_le_of_lt hmax (by decide)))
  have hchunk := length_chunk fragmentData packet i
  simp only [parseFragment, hmarker, hg, htotal, hoffset, hdigest, hdata, htotal', hoffset', bind_eq_ok,
    refuse_eq_ok, pure_eq_ok, exists_const, not_or, not_not]
  refine ⟨⟨⟨?_, ?_⟩, trivial⟩, ⟨?_, ⟨h, hmax⟩, not_le.2 hi, ?_, hchunk⟩, rfl⟩
  · have hpos : 0 < min fragmentData (packet.length - i * fragmentData) :=
      lt_min (by decide) (Nat.sub_pos_of_lt hi)
    omega
  · have hle : min fragmentData (packet.length - i * fragmentData) ≤ fragmentData := min_le_left _ _
    have hsum : fragmentHeader + fragmentData = 512 := rfl
    omega
  · simpa [Block.present] using hgroup
  · simp

/-- The records of a split packet are parsed as its fragments. -/
lemma forall₂_parseFragment {facts : ZjCaptureFacts} (h : zjRawMax < packet.length)
    (hmax : packet.length ≤ zjPacketMax) (hgroup : group.present = true) :
    List.Forall₂ (fun o part => o.rawFormat = .packetFragment ∧ parseFragment o.raw = .ok part)
      ((offsetsFrom packet.length (packet.length + 1) 0).map (captureRecord facts group digest packet))
      (fragmentsOf group.val digest.val packet) := by
  have hoffsets := offsetsFrom_split h (packet.length + 1) 0 (by omega)
  rw [Nat.zero_mul, Nat.zero_min, Nat.sub_zero, ← List.range_eq_range'] at hoffsets
  rw [hoffsets, fragmentsOf, List.map_map, List.forall₂_map_left_iff, List.forall₂_map_right_iff,
    List.forall₂_same]
  intro i hi
  rw [List.mem_range, fragmentCount, lt_count_iff (by decide)] at hi
  rw [Function.comp_apply, captureRecord, if_pos h]
  exact ⟨rfl, parseFragment_fragmentRaw h hmax hgroup hi⟩

/-- Capture and reassembly are inverse. A packet that fits is stored as it is. Otherwise its fragments give the
packet in any order and however often they come, a missing fragment leaves it incomplete, and a foreign fragment
beside all of them is an error. -/
theorem capture_reassemble {σ : Type} (port : ZjCapturePort σ) (sha256 : List UInt8 → List UInt8)
    (hsha : ∀ bytes digest, port.digest bytes = some digest → digest.val = sha256 bytes) (fuel : Nat)
    (packet : List UInt8) (facts : ZjCaptureFacts) (c c' : ZjCapture σ)
    (hcapture : zjCapturePacket port fuel packet facts c = some (true, c')) :
    ∃ new, c'.committed = c.committed ++ new ∧
      (packet.length ≤ 512 → ∃ o, new = [o] ∧ o.rawFormat = .livePacket ∧ o.raw = packet) ∧
      (512 < packet.length → ∃ parts, (parts.map (·.offset)).Nodup ∧
        List.Forall₂ (fun o part => o.rawFormat = .packetFragment ∧ parseFragment o.raw = .ok part) new parts ∧
        (∀ list, list ⊆ parts → parts ⊆ list → list.length ≤ maxFragments →
          reassemble sha256 list = .ok (some packet)) ∧
        (∀ list, list ≠ [] → list ⊆ parts → ¬ parts ⊆ list → list.length ≤ maxFragments →
          reassemble sha256 list = .ok none) ∧
        ∀ list x, parts ⊆ list → x ∈ list → x ∉ parts → ∃ e, reassemble sha256 list = .error e) := by
  obtain ⟨new, hnew, hrecords⟩ := adds_zjCapturePacket c true c' hcapture
  obtain ⟨hmin, hmax, group, digest, hvalid, rfl⟩ := hrecords rfl
  refine ⟨_, hnew, ?_, ?_⟩
  · intro hlive
    rw [offsetsFrom_live hmin hlive]
    have hrecord : captureRecord facts group digest packet 0 = captureObservation facts .livePacket packet :=
      if_neg (not_lt.2 hlive)
    exact ⟨_, rfl, by rw [hrecord]; rfl, by rw [hrecord]; rfl⟩
  · intro hsplit
    obtain ⟨hpresent, hdigest⟩ := hvalid hsplit
    have hgroup : group.val.length = 16 ∧ group.val.any (· ≠ 0) = true := ⟨group.length_val, hpresent⟩
    refine ⟨fragmentsOf group.val digest.val packet, nodup_offsets, forall₂_parseFragment hsplit hmax hpresent,
      ?_, ?_, ?_⟩
    · intro list hsub hall hbound
      exact reassemble_complete hsub hbound hgroup ⟨hsplit, hmax⟩ digest.length_val (hsha packet digest hdigest).symm
        hall
    · intro list hne hsub hmissing hbound
      exact reassemble_incomplete hsub hbound hgroup ⟨hsplit, hmax⟩ digest.length_val hne hmissing
    · intro list x hall hx hforeign
      exact reassemble_conflict hall (List.ne_nil_of_length_pos (by omega)) hx hforeign

/-- A port that confirms every record at once. -/
def promptPort : ZjCapturePort Unit where
  nowMs w := (0, w)
  waitMs _ w := w
  random w := (some ⟨List.replicate 16 1, List.length_replicate⟩, w)
  digest _ := some (Block.zero 32)
  submit _ w := (some 1, w)
  poll _ w := (some ⟨none, 1⟩, w)
  abandon _ w := (true, w)

theorem capture_reassemble_two_fragments :
    ∃ c', zjCapturePacket promptPort 1 (List.replicate 513 7) ⟨0, 0, 0, .unknown⟩ { world := () } = some (true, c') ∧
      ∃ parts, List.Forall₂ (fun o part => o.rawFormat = .packetFragment ∧ parseFragment o.raw = .ok part)
          c'.committed parts ∧
        (parts.length ≤ maxFragments →
          reassemble (fun _ => List.replicate 32 0) parts = .ok (some (List.replicate 513 7))) := by
  have hok : (zjCapturePacket promptPort 1 (List.replicate 513 7) ⟨0, 0, 0, .unknown⟩
      { world := () }).map (·.1) = some true := by
    decide +kernel
  obtain ⟨⟨ok, c'⟩, hcapture, rfl⟩ := Option.map_eq_some_iff.1 hok
  obtain ⟨new, hnew, -, hsplit⟩ := capture_reassemble promptPort (fun _ => List.replicate 32 0)
    (fun _ _ h => congrArg Subtype.val (Option.some.inj h).symm) 1 (List.replicate 513 7) ⟨0, 0, 0, .unknown⟩ _ c'
    hcapture
  obtain ⟨parts, -, hparts, hcomplete, -⟩ := hsplit (by rw [List.length_replicate]; decide)
  rw [List.nil_append] at hnew
  exact ⟨c', hcapture, parts, hnew ▸ hparts, fun hbound =>
    hcomplete parts (List.Subset.refl _) (List.Subset.refl _) hbound⟩

end Fragments

end ZoneLite
