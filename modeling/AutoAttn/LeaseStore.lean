import AutoAttn.Journal.Store

/-!
# The stored lease

The obligation to revoke an elevation is one record in NVS (`zkt_lease_store.c`). Each record that
replaces it has the next generation. A second blob says that there was a record, so that a record that
is missing later is not taken for one that was never there.
-/

namespace LeaseStore

open Bytes Crash ZoneLite

/-! ### Records -/

/-- `sizeof(zl_lease_record_t)` -/
def recordBytes : Nat := 176

/-- `zl_lease_record_t`, with its padding. -/
abbrev LeaseRecord := Block recordBytes

def int64 (bytes : List UInt8) : Int := (BitVec.ofNat 64 (unle bytes)).toInt

def lowerHex (c : UInt8) : Bool := (48 ≤ c && c ≤ 57) || (97 ≤ c && c ≤ 102)

namespace LeaseRecord

variable (r : LeaseRecord)

def version : Nat := unle (slice r.val 0 4)
def generation : Nat := unle (slice r.val 4 4)
def expiresEpoch : Int := int64 (slice r.val 8 8)
def uid : Nat := unle (slice r.val 16 2)
def active : Nat := unle (slice r.val 18 1)
def terminalSerial : List UInt8 := slice r.val 19 81
def identityFingerprint : List UInt8 := slice r.val 100 65
def crc : Nat := unle (slice r.val 168 4)

end LeaseRecord

/-- `ZL_LEASE_VERSION` -/
def leaseVersion : Nat := 2

/-- `zl_lease_valid` -/
def zlLeaseValid (r : LeaseRecord) : Bool :=
  r.version = leaseVersion ∧ r.generation ≠ 0 ∧ r.active ≤ 1 ∧ r.uid ≠ 0 ∧
    cstr r.terminalSerial ≠ [] ∧ 0 ∈ r.terminalSerial ∧ slice r.val 164 1 = [0] ∧
    (if r.active ≠ 0 then 1767225600 ≤ r.expiresEpoch else r.expiresEpoch = 0) ∧
    r.crc = (dqCrc32 (slice r.val 0 168)).toNat ∧ (r.identityFingerprint.take 64).all lowerHex

/-- `zl_lease_matches` -/
def zlLeaseMatches (r : LeaseRecord) (serial : List UInt8) (uid : Nat) (fingerprint : List UInt8) : Bool :=
  zlLeaseValid r ∧ r.uid = uid ∧ cstr r.terminalSerial = cstr serial ∧
    cstr r.identityFingerprint = cstr fingerprint

/-- `same_facts` -/
def sameFacts (left right : LeaseRecord) : Bool :=
  left.active = right.active ∧ left.uid = right.uid ∧ left.expiresEpoch = right.expiresEpoch ∧
    cstr left.terminalSerial = cstr right.terminalSerial ∧
    cstr left.identityFingerprint = cstr right.identityFingerprint

/-- `sizeof(runtime_checkpoint_t)` -/
def runtimeBytes : Nat := 184

/-- `runtime_checkpoint_valid` -/
def runtimeCheckpointValid (b : Block runtimeBytes) : Bool :=
  unle (slice b.val 0 4) = 1 ∧ unle (slice b.val 4 4) ≠ 0 ∧ unle (slice b.val 75 1) ≤ 1 ∧
    unle (slice b.val 76 1) ≤ 1 ∧ unle (slice b.val 77 1) ≤ 1 ∧ unle (slice b.val 78 1) ≤ 1 ∧
    0 ∈ slice b.val 79 32 ∧ slice b.val 175 1 = [0] ∧
    unle (slice b.val 176 4) = (dqCrc32 (slice b.val 0 176)).toNat ∧ (slice b.val 111 64).all lowerHex

/-- `lease_active` of a `runtime_checkpoint_t`. -/
def runtimeLeaseActive (b : Block runtimeBytes) : Nat := unle (slice b.val 77 1)

/-- `root_witness` -/
def rootWitness : List UInt8 := le 8 0x32455341454c4b5a

/-! ### NVS -/

/-- The namespace `zone_lite`: whether it was made, and the blobs `lease_v2`, `lease_v2_root` and
`runtime_v1` in it. -/
structure LeaseNvs where
  created : Bool
  lease : Option (List UInt8)
  root : Option (List UInt8)
  runtime : Option (List UInt8)
deriving DecidableEq

/-- NVS, and what the clock shows when it is read next. -/
structure LeaseDevice where
  nvs : LeaseNvs
  clock : List Nat
deriving DecidableEq

/-- A `zj_result_t`, with what is returned besides a `ZJ_OK`. -/
abbrev Reply (α : Type) := Except ZjError α

/-- `esp_timer_get_time` -/
def espTimerGetTime : Prog LeaseDevice Nat := do
  let t ← Prog.gets fun d => d.clock.headD 0
  Prog.modify fun d => { d with clock := d.clock.tail }
  return t

/-- `nvs_get_blob` into a buffer. A blob that does not fit is an error. -/
def nvsGetBlob (blob : LeaseNvs → Option (List UInt8)) (length : Nat) : Prog LeaseDevice (Reply (Option (List UInt8))) := do
  if ← Prog.look then
    match ← Prog.gets fun d => blob d.nvs with
    | none       => return .ok none
    | some bytes => return if length < bytes.length then .error .io else .ok (some bytes)
  else return .error .io

/-- `nvs_set_blob` and `nvs_commit`. Whatever they report, the old or the new value is there. -/
def nvsSetBlob (set : LeaseNvs → LeaseNvs) : Prog LeaseDevice Bool := do
  if ← Prog.atomic fun d => { d with nvs := set d.nvs } then Prog.look else return false

/-- `nvs_open` for writing makes the namespace. -/
def nvsOpenReadWrite : Prog LeaseDevice Bool :=
  Prog.atomic fun d => { d with nvs := { d.nvs with created := true } }

/-! ### The store -/

def readRoot : Prog LeaseDevice (Reply Unit) := do
  match ← nvsGetBlob LeaseNvs.root 8 with
  | .error e         => return .error e
  | .ok none         => return .error .empty
  | .ok (some bytes) => return if bytes = rootWitness then .ok () else .error .corrupt

def readRecord : Prog LeaseDevice (Reply LeaseRecord) := do
  match ← nvsGetBlob LeaseNvs.lease recordBytes with
  | .error e         => return .error e
  | .ok none         => return .error .empty
  | .ok (some bytes) =>
    return if bytes.length = recordBytes ∧ zlLeaseValid (Block.ofList recordBytes bytes) then
      .ok (Block.ofList recordBytes bytes)
    else .error .corrupt

/-- `zl_lease_load_boot` -/
def zlLeaseLoadBoot : Prog LeaseDevice (Reply LeaseRecord) := do
  if ← Prog.look then
    if ← Prog.gets fun d => d.nvs.created then
      match ← readRecord with
      | .error .empty =>
        match ← readRoot with
        | .error .empty => return .error .empty
        | .error .io    => return .error .io
        | _             => return .error .corrupt
      | result => return result
    else return .error .empty
  else return .error .io

/-- `witness:` of `zl_lease_commit`. -/
def witness (deadline : Nat) (current : LeaseRecord) : Prog LeaseDevice (Reply LeaseRecord) := do
  match ← readRoot with
  | .ok _         => return .ok current
  | .error .empty =>
    if deadline ≤ (← espTimerGetTime) then return .error .uncertain
    else if ← nvsSetBlob fun n => { n with root := some rootWitness } then
      match ← readRoot with
      | .ok _    => return .ok current
      | .error _ => return .error .uncertain
    else return .error .uncertain
  | .error _ => return .error .uncertain

/-- `zl_lease_commit` from where nothing speaks against the proposal. -/
def store (proposed : LeaseRecord) (deadline : Nat) : Prog LeaseDevice (Reply LeaseRecord) := do
  if deadline ≤ (← espTimerGetTime) then return .error .stale
  else if ← nvsSetBlob fun n => { n with lease := some proposed.val } then
    match ← readRecord with
    | .ok current => if current = proposed then witness deadline current else return .error .uncertain
    | .error _    => return .error .uncertain
  else return .error .uncertain

/-- `zl_lease_commit` when there is no record. -/
def commitFirst (proposed : LeaseRecord) (deadline : Nat) : Prog LeaseDevice (Reply LeaseRecord) := do
  if proposed.generation ≠ 1 ∨ proposed.active = 0 then return .error .corrupt
  else
    match ← readRoot with
    | .error .empty =>
      match ← nvsGetBlob LeaseNvs.runtime runtimeBytes with
      | .ok (some bytes) =>
        if bytes.length ≠ runtimeBytes ∨ !runtimeCheckpointValid (Block.ofList runtimeBytes bytes) ∨
            runtimeLeaseActive (Block.ofList runtimeBytes bytes) ≠ 0 then return .error .corrupt
        else store proposed deadline
      | _ => return .error .io
    | .error .io => return .error .io
    | _          => return .error .corrupt

/-- `UINT32_MAX` -/
def uint32Max : Nat := 2 ^ 32 - 1

/-- `zl_lease_commit` when there is a record. -/
def commitOver (proposed : LeaseRecord) (deadline : Nat) (current : LeaseRecord) : Prog LeaseDevice (Reply LeaseRecord) := do
  match ← readRoot with
  | .error .io      => return .error .io
  | .error .corrupt => return .error .corrupt
  | _ =>
    if proposed.generation = current.generation ∧ sameFacts proposed current then
      -- the commit succeeded and its acknowledgement was lost
      witness deadline current
    else if current.generation = uint32Max then return .error .full
    else if proposed.generation ≠ current.generation + 1 then return .error .stale
    else if current.active ≠ 0 ∧ !zlLeaseMatches current proposed.terminalSerial proposed.uid
        proposed.identityFingerprint then return .error .invalid
    else if cstr current.terminalSerial ≠ cstr proposed.terminalSerial then return .error .invalid
    else store proposed deadline

/-- `zl_lease_commit` -/
def zlLeaseCommit (proposed : LeaseRecord) (deadline : Nat) : Prog LeaseDevice (Reply LeaseRecord) := do
  if !zlLeaseValid proposed ∨ deadline = 0 then return .error .invalid
  else if deadline ≤ (← espTimerGetTime) then return .error .stale
  else if ← nvsOpenReadWrite then
    match ← readRecord with
    | .error .empty => commitFirst proposed deadline
    | .error e      => return .error e
    | .ok current   => commitOver proposed deadline current
  else return .error .io

/-! ### What is read -/

section Read

variable {d : LeaseDevice} {C : LeaseDevice → Prop}

/-- What `read_root` can find. -/
def RootRead (n : LeaseNvs) : Reply Unit → Prop
  | .ok _           => n.root = some rootWitness
  | .error .empty   => n.root = none
  | .error .corrupt => n.root ≠ none ∧ n.root ≠ some rootWitness
  | .error .io      => True
  | .error _        => False

/-- What `read_record` can find. -/
def RecordRead (n : LeaseNvs) : Reply LeaseRecord → Prop
  | .ok r           => n.lease = some r.val ∧ zlLeaseValid r
  | .error .empty   => n.lease = none
  | .error .corrupt => n.lease ≠ none
  | .error .io      => True
  | .error _        => False

lemma wp_nvsGetBlob {Q : Reply (Option (List UInt8)) → LeaseDevice → Prop}
    {blob : LeaseNvs → Option (List UInt8)} {length : Nat} (hio : Q (.error .io) d)
    (hok : Q (.ok (blob d.nvs)) d) (hC : C d) : (nvsGetBlob blob length).wp Q C d := by
  rw [nvsGetBlob, Prog.wp_bind, Prog.wp_look]
  refine ⟨?_, hio, hC⟩
  rw [if_pos rfl, Prog.wp_bind, Prog.wp_gets]
  generalize blob d.nvs = found at hok ⊢
  cases found with
  | none => exact hok
  | some bytes =>
    rw [Prog.wp_pure]
    split_ifs
    · exact hio
    · exact hok

lemma wp_readRoot {Q : Reply Unit → LeaseDevice → Prop} (hQ : ∀ r, RootRead d.nvs r → Q r d) (hC : C d) :
    readRoot.wp Q C d := by
  rw [readRoot, Prog.wp_bind]
  refine wp_nvsGetBlob (hQ _ trivial) ?_ hC
  cases hroot : d.nvs.root with
  | none => exact hQ _ hroot
  | some bytes =>
    rw [Prog.wp_pure]
    split_ifs with hwitness
    · exact hQ _ (hroot.trans (congrArg some hwitness))
    · refine hQ _ ⟨by simp [hroot], ?_⟩
      simpa [hroot] using hwitness

lemma wp_readRecord {Q : Reply LeaseRecord → LeaseDevice → Prop} (hQ : ∀ r, RecordRead d.nvs r → Q r d)
    (hC : C d) : readRecord.wp Q C d := by
  rw [readRecord, Prog.wp_bind]
  refine wp_nvsGetBlob (hQ _ trivial) ?_ hC
  cases hlease : d.nvs.lease with
  | none => exact hQ _ hlease
  | some bytes =>
    rw [Prog.wp_pure]
    split_ifs with hvalid
    · refine hQ _ ⟨?_, hvalid.2⟩
      rw [hlease, Block.val_ofList hvalid.1]
    · exact hQ _ (by simp [RecordRead, hlease])

lemma wp_nvsSetBlob {Q : Bool → LeaseDevice → Prop} {set : LeaseNvs → LeaseNvs} (hold : Q false d ∧ C d)
    (hnew : (∀ ok, Q ok { d with nvs := set d.nvs }) ∧ C { d with nvs := set d.nvs }) :
    (nvsSetBlob set).wp Q C d := by
  rw [nvsSetBlob, Prog.wp_bind, Prog.wp_atomic]
  simp only [if_true, Prog.wp_look, Bool.false_eq_true, if_false, Prog.wp_pure]
  exact ⟨⟨hnew.1 true, hnew.1 false, hnew.2⟩, ⟨hold.1, hnew.1 false⟩, hold.2, hnew.2⟩

lemma wp_espTimerGetTime {Q : Nat → LeaseDevice → Prop}
    (hQ : Q (d.clock.headD 0) { d with clock := d.clock.tail }) : espTimerGetTime.wp Q C d := hQ

end Read

/-! ### One call -/

/-- The proposal may take the place of what is stored. -/
inductive Admits (n : LeaseNvs) (p : LeaseRecord) : Prop where
  | first (hlease : n.lease = none) (hroot : n.root = none) (hgeneration : p.generation = 1)
      (hactive : p.active ≠ 0)
  | next (current : LeaseRecord) (hlease : n.lease = some current.val) (hvalid : zlLeaseValid current)
      (hroot : n.root = none ∨ n.root = some rootWitness)
      (hgeneration : p.generation = current.generation + 1)
      (hactive : current.active ≠ 0 →
        zlLeaseMatches current p.terminalSerial p.uid p.identityFingerprint)
      (hserial : cstr current.terminalSerial = cstr p.terminalSerial)

/-- What a call with this proposal can have done to NVS at any time. -/
structure Commits (p : LeaseRecord) (n n' : LeaseNvs) : Prop where
  lease : n'.lease = n.lease ∨ n'.lease = some p.val ∧ zlLeaseValid p ∧ Admits n p
  root : n'.root = n.root ∨ n.root = none ∧ n'.root = some rootWitness
  created : n.created → n'.created

/-- What a call with this proposal has done when it returns `ZJ_OK`. -/
structure Confirms (p : LeaseRecord) (n' : LeaseNvs) (r : LeaseRecord) : Prop where
  lease : n'.lease = some r.val
  valid : zlLeaseValid r
  generation : r.generation = p.generation
  facts : sameFacts p r
  root : n'.root = some rootWitness
  created : n'.created

/-- The specification of a call: what is stored at its end, and at any time before. -/
def CommitSpec (p : LeaseRecord) (n : LeaseNvs) (r : Reply LeaseRecord) (d : LeaseDevice) : Prop :=
  Commits p n d.nvs ∧ ∀ record, r = .ok record → Confirms p d.nvs record

section Commit

variable {p current : LeaseRecord} {deadline : Nat} {n : LeaseNvs} {d : LeaseDevice}

lemma Commits.refl (p : LeaseRecord) (n : LeaseNvs) : Commits p n n := ⟨.inl rfl, .inl rfl, id⟩

lemma CommitSpec.error (h : Commits p n d.nvs) (e : ZjError) : CommitSpec p n (.error e) d :=
  ⟨h, fun _ h => by cases h⟩

lemma wp_witness (h : Commits p n d.nvs) (hcreated : d.nvs.created) (hlease : d.nvs.lease = some current.val)
    (hvalid : zlLeaseValid current) (hgeneration : current.generation = p.generation)
    (hfacts : sameFacts p current) :
    (witness deadline current).wp (CommitSpec p n) (fun d' => Commits p n d'.nvs) d := by
  rw [witness, Prog.wp_bind]
  refine wp_readRoot (fun r hr => ?_) h
  match r, hr with
  | .ok _, hroot =>
    refine ⟨h, fun _ hok => ?_⟩
    cases hok
    exact ⟨hlease, hvalid, hgeneration, hfacts, hroot, hcreated⟩
  | .error .empty, hroot =>
    -- the witness is written now, if there was none at the start
    have hnone : n.root = none := by
      rcases h.root with hsame | ⟨hnone, -⟩
      · rw [← hsame]
        exact hroot
      · exact hnone
    have hnew : Commits p n { d.nvs with root := some rootWitness } :=
      ⟨h.lease, .inr ⟨hnone, rfl⟩, h.created⟩
    simp only [Prog.wp_bind]
    refine wp_espTimerGetTime ?_
    rw [Prog.wp_ite]
    refine ⟨fun _ => .error h _, fun _ => ?_⟩
    rw [Prog.wp_bind]
    refine wp_nvsSetBlob ⟨.error h _, h⟩ ⟨?_, hnew⟩
    intro ok
    cases ok with
    | false => exact .error hnew _
    | true =>
      simp only [if_true, Prog.wp_bind]
      refine wp_readRoot (fun r hr => ?_) hnew
      cases r with
      | error e => exact .error hnew _
      | ok =>
        refine ⟨hnew, fun _ hok => ?_⟩
        cases hok
        exact ⟨hlease, hvalid, hgeneration, hfacts, rfl, hcreated⟩
  | .error .corrupt, _ => exact .error h _
  | .error .io, _ => exact .error h _

lemma sameFacts_self (r : LeaseRecord) : sameFacts r r := by simp [sameFacts]

lemma wp_store (h : Commits p n d.nvs) (hcreated : d.nvs.created) (hvalid : zlLeaseValid p)
    (hadmits : Admits n p) :
    (store p deadline).wp (CommitSpec p n) (fun d' => Commits p n d'.nvs) d := by
  have hnew : Commits p n { d.nvs with lease := some p.val } :=
    ⟨.inr ⟨rfl, hvalid, hadmits⟩, h.root, h.created⟩
  rw [store, Prog.wp_bind]
  refine wp_espTimerGetTime ?_
  rw [Prog.wp_ite]
  refine ⟨fun _ => .error h _, fun _ => ?_⟩
  rw [Prog.wp_bind]
  refine wp_nvsSetBlob ⟨.error h _, h⟩ ⟨?_, hnew⟩
  intro ok
  cases ok with
  | false => exact .error hnew _
  | true =>
    simp only [if_true, Prog.wp_bind]
    refine wp_readRecord (fun r hr => ?_) hnew
    cases r with
    | error e => exact .error hnew _
    | ok r =>
      simp only [Prog.wp_ite]
      refine ⟨?_, fun _ => .error hnew _⟩
      rintro rfl
      exact wp_witness hnew hcreated rfl hvalid rfl (sameFacts_self r)

lemma wp_commitFirst (h : Commits p n d.nvs) (hn : n.lease = none)
    (hcreated : d.nvs.created) (hvalid : zlLeaseValid p) (hroot : d.nvs.root = n.root) :
    (commitFirst p deadline).wp (CommitSpec p n) (fun d' => Commits p n d'.nvs) d := by
  rw [commitFirst, Prog.wp_ite]
  refine ⟨fun _ => .error h _, fun hfirst => ?_⟩
  rw [Prog.wp_bind]
  refine wp_readRoot (fun r hr => ?_) h
  match r, hr with
  | .ok _, _ => exact .error h _
  | .error .corrupt, _ => exact .error h _
  | .error .io, _ => exact .error h _
  | .error .empty, hnone =>
    simp only [Prog.wp_bind]
    refine wp_nvsGetBlob (.error h _) ?_ h
    cases d.nvs.runtime with
    | none => exact .error h _
    | some bytes =>
      simp only [Prog.wp_ite]
      refine ⟨fun _ => .error h _, fun _ => ?_⟩
      refine wp_store h hcreated hvalid (.first hn (hroot ▸ hnone) ?_ ?_) <;> tauto

lemma wp_commitOver (hlease : d.nvs.lease = some current.val) (hcur : zlLeaseValid current)
    (h : Commits p n d.nvs) (hn : n.lease = some current.val)
    (hcreated : d.nvs.created) (hvalid : zlLeaseValid p) (hroot : d.nvs.root = n.root) :
    (commitOver p deadline current).wp (CommitSpec p n) (fun d' => Commits p n d'.nvs) d := by
  have hgo : (n.root = none ∨ n.root = some rootWitness) → Prog.wp (CommitSpec p n) (fun d' => Commits p n d'.nvs)
      (if p.generation = current.generation ∧ sameFacts p current then witness deadline current
      else if current.generation = uint32Max then return .error .full
      else if p.generation ≠ current.generation + 1 then return .error .stale
      else if current.active ≠ 0 ∧ !zlLeaseMatches current p.terminalSerial p.uid
          p.identityFingerprint then return .error .invalid
      else if cstr current.terminalSerial ≠ cstr p.terminalSerial then return .error .invalid
      else store p deadline) d := by
    intro hmark
    simp only [Prog.wp_ite, Prog.wp_pure]
    refine ⟨fun hsame => wp_witness h hcreated hlease hcur hsame.1.symm hsame.2, fun _ =>
      ⟨fun _ => .error h _, fun _ => ⟨fun _ => .error h _, fun hgen => ⟨fun _ => .error h _, fun hmatch =>
        ⟨fun _ => .error h _, fun hserial => ?_⟩⟩⟩⟩⟩
    refine wp_store h hcreated hvalid (.next current hn hcur hmark (not_not.1 hgen) ?_ (not_not.1 hserial))
    intro hactive
    by_contra hno
    exact hmatch ⟨hactive, by simpa using hno⟩
  rw [commitOver, Prog.wp_bind]
  refine wp_readRoot (fun r hr => ?_) h
  cases r with
  | ok _ => exact hgo (.inr (hroot ▸ hr))
  | error e =>
    cases e with
    | empty => exact hgo (.inl (hroot ▸ hr))
    | corrupt => exact .error h _
    | io => exact .error h _
    | _ => exact hr.elim

lemma wp_zlLeaseCommit (p : LeaseRecord) (deadline : Nat) (d : LeaseDevice) :
    (zlLeaseCommit p deadline).wp (CommitSpec p d.nvs) (fun d' => Commits p d.nvs d'.nvs) d := by
  have hsame := Commits.refl p d.nvs
  have hmade : Commits p d.nvs { d.nvs with created := true } := ⟨.inl rfl, .inl rfl, fun _ => rfl⟩
  rw [zlLeaseCommit, Prog.wp_ite]
  refine ⟨fun _ => .error hsame _, fun hvalid => ?_⟩
  replace hvalid : zlLeaseValid p := by simp at hvalid; exact hvalid.1
  rw [Prog.wp_bind]
  refine wp_espTimerGetTime ?_
  rw [Prog.wp_ite]
  refine ⟨fun _ => .error hsame _, fun _ => ?_⟩
  rw [Prog.wp_bind, nvsOpenReadWrite, Prog.wp_atomic]
  refine ⟨?_, ⟨.error hsame _, .error hmade _⟩, hsame, hmade⟩
  rw [if_pos rfl, Prog.wp_bind]
  refine wp_readRecord (fun r hr => ?_) hmade
  match r, hr with
  | .ok current, ⟨hlease, hcur⟩ => exact wp_commitOver hlease hcur hmade hlease rfl hvalid rfl
  | .error .empty, hlease => exact wp_commitFirst hmade hlease rfl hvalid rfl
  | .error .corrupt, _ => exact .error hmade _
  | .error .io, _ => exact .error hmade _

/-! ### Calls in which nothing fails -/

section Eval

lemma eval_readRoot_none (hroot : d.nvs.root = none) : readRoot.eval d = (.error .empty, d) := by
  simp [readRoot, nvsGetBlob, hroot]

lemma eval_readRoot_witness (hroot : d.nvs.root = some rootWitness) : readRoot.eval d = (.ok (), d) := by
  have hlen : rootWitness.length = 8 := length_le 8 _
  simp [readRoot, nvsGetBlob, hroot, hlen]

lemma eval_readRecord (hlease : d.nvs.lease = some p.val) (hvalid : zlLeaseValid p) :
    readRecord.eval d = (.ok p, d) := by
  simp [readRecord, nvsGetBlob, hlease, hvalid]

lemma eval_espTimerGetTime (d : LeaseDevice) :
    espTimerGetTime.eval d = (d.clock.headD 0, { d with clock := d.clock.tail }) := rfl

/-- The deadline has not passed when the clock is read, whenever that is. -/
structure InTime (deadline : Nat) (clock : List Nat) : Prop where
  pos : deadline ≠ 0
  before : ∀ t ∈ clock, t < deadline

lemma InTime.head (h : InTime deadline d.clock) : ¬ deadline ≤ d.clock.head?.getD 0 := by
  have := h.pos
  cases hc : d.clock with
  | nil => simpa using this
  | cons t ts => simpa using h.before t (by simp [hc])

lemma InTime.tail (h : InTime deadline d.clock) : InTime deadline d.clock.tail :=
  ⟨h.pos, fun t ht => h.before t (List.mem_of_mem_tail ht)⟩

lemma eval_witness (hroot : d.nvs.root = none ∨ d.nvs.root = some rootWitness)
    (hclock : InTime deadline d.clock) :
    ((witness deadline current).eval d).1 = .ok current ∧
      ((witness deadline current).eval d).2.nvs.lease = d.nvs.lease := by
  rcases hroot with hroot | hroot
  · simp [witness, eval_readRoot_none hroot, eval_espTimerGetTime, nvsSetBlob,
      if_neg hclock.head, eval_readRoot_witness]
  · simp [witness, eval_readRoot_witness hroot]

/-- The proposal that is stored is confirmed when it is made again. -/
lemma eval_repeat (hlease : d.nvs.lease = some p.val) (hvalid : zlLeaseValid p)
    (hroot : d.nvs.root = none ∨ d.nvs.root = some rootWitness) (hclock : InTime deadline d.clock) :
    ((zlLeaseCommit p deadline).eval d).1 = .ok p ∧
      ((zlLeaseCommit p deadline).eval d).2.nvs.lease = d.nvs.lease := by
  set d' : LeaseDevice := ⟨⟨true, d.nvs.lease, d.nvs.root, d.nvs.runtime⟩, d.clock.tail⟩ with hd'
  have hrecord : readRecord.eval d' = (.ok p, d') := eval_readRecord hlease hvalid
  have hover : (commitOver p deadline p).eval d' = (witness deadline p).eval d' := by
    rcases hroot with hroot | hroot
    · have hread : readRoot.eval d' = (.error .empty, d') := eval_readRoot_none hroot
      simp [commitOver, hread, sameFacts_self]
    · have hread : readRoot.eval d' = (.ok (), d') := eval_readRoot_witness hroot
      simp [commitOver, hread, sameFacts_self]
  have hcommit : (zlLeaseCommit p deadline).eval d = (witness deadline p).eval d' := by
    simp [zlLeaseCommit, hvalid, hclock.pos, eval_espTimerGetTime, nvsOpenReadWrite, if_neg hclock.head]
    rw [← hd', hrecord]
    exact hover
  rw [hcommit]
  exact eval_witness hroot hclock.tail

end Eval

end Commit

/-! ### Sequences of calls -/

/-- What happens to the store: a call, a boot, or the loss of the record. The fates of the operations
and the times that are read are part of it. -/
inductive LeaseEvent where
  | commit (proposed : LeaseRecord) (deadline : Nat) (clock : List Nat) (fates : List Fate)
  | boot (fates : List Fate)
  | lose

def LeaseEvent.apply (n : LeaseNvs) : LeaseEvent → LeaseNvs
  | .commit proposed deadline clock fates =>
    ((zlLeaseCommit proposed deadline).run ⟨n, clock⟩ fates).state.nvs
  | .boot fates => (zlLeaseLoadBoot.run ⟨n, []⟩ fates).state.nvs
  | .lose       => { n with lease := none }

def runEvents (n : LeaseNvs) (events : List LeaseEvent) : LeaseNvs := events.foldl LeaseEvent.apply n

lemma wp_zlLeaseLoadBoot (d : LeaseDevice) :
    zlLeaseLoadBoot.wp (fun r d' => d' = d ∧ (r = .error .empty → d.nvs.created = false ∨ d.nvs.root = none))
      (fun d' => d' = d) d := by
  rw [zlLeaseLoadBoot, Prog.wp_bind, Prog.wp_look]
  refine ⟨?_, ⟨rfl, by simp⟩, rfl⟩
  rw [if_pos rfl, Prog.wp_bind, Prog.wp_gets, Prog.wp_ite]
  refine ⟨fun hcreated => ?_, fun hcreated => ⟨rfl, fun _ => .inl (by simpa using hcreated)⟩⟩
  rw [Prog.wp_bind]
  refine wp_readRecord (fun r hr => ?_) rfl
  cases r with
  | ok _ => exact ⟨rfl, by simp⟩
  | error e =>
    cases e with
    | corrupt => exact ⟨rfl, by simp⟩
    | io => exact ⟨rfl, by simp⟩
    | empty =>
      simp only [Prog.wp_bind]
      refine wp_readRoot (fun r hr => ?_) rfl
      cases r with
      | ok _ => exact ⟨rfl, by simp⟩
      | error e =>
        cases e with
        | corrupt => exact ⟨rfl, by simp⟩
        | io => exact ⟨rfl, by simp⟩
        | empty => exact ⟨rfl, fun _ => .inr hr⟩
        | _ => exact hr.elim
    | _ => exact hr.elim

/-- Where there was a record and there is none, the store is reported as corrupt. -/
lemma eval_zlLeaseLoadBoot {d : LeaseDevice} (hcreated : d.nvs.created) (hlease : d.nvs.lease = none)
    (hroot : d.nvs.root = some rootWitness) : (zlLeaseLoadBoot.eval d).1 = .error .corrupt := by
  have hrecord : readRecord.eval d = (.error .empty, d) := by simp [readRecord, nvsGetBlob, hlease]
  simp [zlLeaseLoadBoot, hcreated, hrecord, eval_readRoot_witness hroot]

section Run

variable {n : LeaseNvs}

lemma zlLeaseCommit_spec (p : LeaseRecord) (deadline : Nat) (n : LeaseNvs) (clock : List Nat)
    (fates : List Fate) :
    Commits p n ((zlLeaseCommit p deadline).run ⟨n, clock⟩ fates).state.nvs ∧
      ∀ record d' rest, (zlLeaseCommit p deadline).run ⟨n, clock⟩ fates = .done (.ok record) d' rest →
        Confirms p d'.nvs record := by
  have h := wp_zlLeaseCommit p deadline ⟨n, clock⟩
  refine ⟨Prog.wp_run_state (I := fun d => Commits p n d.nvs) (Prog.wp_mono h ?_ fun _ h => h) fates, ?_⟩
  · intro _ _ hspec
    exact hspec.1
  · intro record d' rest hrun
    have hspec := Prog.wp_done h hrun
    exact hspec.2 record rfl

lemma apply_boot (n : LeaseNvs) (fates : List Fate) : (LeaseEvent.boot fates).apply n = n := by
  have h : zlLeaseLoadBoot.wp (fun _ d => d = ⟨n, []⟩) (fun d => d = ⟨n, []⟩) ⟨n, []⟩ :=
    Prog.wp_mono (wp_zlLeaseLoadBoot ⟨n, []⟩) (fun _ _ h => h.1) fun _ h => h
  exact congrArg LeaseDevice.nvs (Prog.wp_run_state (I := fun d => d = ⟨n, []⟩) h fates)

/-- The presence witness is only ever written. -/
lemma apply_root (n : LeaseNvs) (e : LeaseEvent) :
    ((e.apply n).root = n.root ∨ n.root = none ∧ (e.apply n).root = some rootWitness) ∧
      (n.created → (e.apply n).created) := by
  cases e with
  | commit p deadline clock fates =>
    have h := (zlLeaseCommit_spec p deadline n clock fates).1
    exact ⟨h.root, h.created⟩
  | boot fates =>
    rw [apply_boot]
    exact ⟨.inl rfl, id⟩
  | lose => exact ⟨.inl rfl, id⟩

lemma runEvents_witness (events : List LeaseEvent) (hroot : n.root = some rootWitness)
    (hcreated : n.created) :
    (runEvents n events).root = some rootWitness ∧ (runEvents n events).created := by
  induction events generalizing n with
  | nil => exact ⟨hroot, hcreated⟩
  | cons e events ih =>
    obtain ⟨hnext | ⟨hnone, -⟩, hkeep⟩ := apply_root n e
    · exact ih (hnext.trans hroot) (hkeep hcreated)
    · simp [hroot] at hnone

lemma runEvents_sound (events : List LeaseEvent) (hroot : n.root = none ∨ n.root = some rootWitness) :
    (runEvents n events).root = none ∨ (runEvents n events).root = some rootWitness := by
  induction events generalizing n with
  | nil => exact hroot
  | cons e events ih =>
    obtain ⟨hnext | ⟨-, hnext⟩, -⟩ := apply_root n e
    · exact ih (hnext ▸ hroot)
    · exact ih (.inr hnext)

lemma generation_ne_zero {r : LeaseRecord} (h : zlLeaseValid r) : r.generation ≠ 0 := by
  simp only [zlLeaseValid, decide_eq_true_eq] at h
  exact h.2.1

/-- Unless the record is lost, there is always one of the same or a later generation. -/
lemma runEvents_generation {r : LeaseRecord} (events : List LeaseEvent) (hlose : .lose ∉ events)
    (hlease : n.lease = some r.val) (hvalid : zlLeaseValid r) :
    ∃ r', (runEvents n events).lease = some r'.val ∧ zlLeaseValid r' ∧ r.generation ≤ r'.generation := by
  induction events generalizing n r with
  | nil => exact ⟨r, hlease, hvalid, le_rfl⟩
  | cons e events ih =>
    have hmore : .lose ∉ events := fun h => hlose (List.mem_cons_of_mem e h)
    cases e with
    | commit p deadline clock fates =>
      obtain hsame | ⟨hnew, hp, hadmits⟩ := (zlLeaseCommit_spec p deadline n clock fates).1.lease
      · exact ih hmore (hsame.trans hlease) hvalid
      · obtain ⟨r', hr', hvalid', hle⟩ := ih hmore hnew hp
        refine ⟨r', hr', hvalid', ?_⟩
        cases hadmits with
        | first hnone => simp [hlease] at hnone
        | next current hcurrent _ _ hgeneration =>
          obtain rfl : r = current := Subtype.ext (Option.some.inj (hlease.symm.trans hcurrent))
          omega
    | boot fates =>
      refine ih hmore ?_ hvalid
      rw [apply_boot]
      exact hlease
    | lose => exact absurd List.mem_cons_self hlose

/-- With the witness in place a proposal of the first generation is never stored. -/
lemma commit_first_again (hroot : n.root = some rootWitness) {q : LeaseRecord} (hq : q.generation = 1)
    (deadline : Nat) (clock : List Nat) (fates : List Fate) :
    ((zlLeaseCommit q deadline).run ⟨n, clock⟩ fates).state.nvs.lease = n.lease := by
  obtain hsame | ⟨-, -, hadmits⟩ := (zlLeaseCommit_spec q deadline n clock fates).1.lease
  · exact hsame
  · cases hadmits with
    | first _ hnone => simp [hroot] at hnone
    | next current _ hvalid _ hgeneration =>
      have := generation_ne_zero hvalid
      omega

/-- With the witness in place a missing record is not an empty store. -/
lemma loadBoot_ne_empty (hroot : n.root = some rootWitness) (hcreated : n.created) (fates rest : List Fate)
    (d : LeaseDevice) : zlLeaseLoadBoot.run ⟨n, []⟩ fates ≠ .done (.error .empty) d rest := by
  intro hrun
  have h := Prog.wp_done (wp_zlLeaseLoadBoot ⟨n, []⟩) hrun
  obtain hmade | hnone := h.2 rfl
  · simp [hcreated] at hmade
  · simp [hroot] at hnone

lemma Admits.root {p : LeaseRecord} (h : Admits n p) : n.root = none ∨ n.root = some rootWitness := by
  cases h with
  | first _ hroot => exact .inl hroot
  | next _ _ _ hroot => exact hroot

lemma zlLeaseMatches_iff {r : LeaseRecord} {serial fingerprint : List UInt8} {uid : Nat} :
    zlLeaseMatches r serial uid fingerprint ↔ zlLeaseValid r ∧ r.uid = uid ∧
      cstr r.terminalSerial = cstr serial ∧ cstr r.identityFingerprint = cstr fingerprint := by
  simp [zlLeaseMatches]

/-- Commits from any store, with any faults. A call that succeeds has stored what was proposed, and the
witness; a record is replaced only by its successor, and while it is active only by one for the same user
of the same terminal; a proposal that was stored is confirmed again; and after a success a missing record
is never taken for an empty store. -/
theorem lease_commits_are_ordered (n : LeaseNvs) (p : LeaseRecord) (deadline : Nat) (clock : List Nat)
    (fates : List Fate) :
    let o := (zlLeaseCommit p deadline).run ⟨n, clock⟩ fates
    let n' := o.state.nvs
    (∀ record d' rest, o = .done (.ok record) d' rest → Confirms p n' record) ∧
    (n'.lease = n.lease ∨ n'.lease = some p.val ∧ zlLeaseValid p ∧
      (n.lease = none ∧ p.generation = 1 ∨
        ∃ current, n.lease = some current.val ∧ zlLeaseValid current ∧
          p.generation = current.generation + 1 ∧
          (current.active ≠ 0 → cstr current.terminalSerial = cstr p.terminalSerial ∧
            current.uid = p.uid ∧ cstr current.identityFingerprint = cstr p.identityFingerprint))) ∧
    (∀ later record, .lose ∉ later → n.lease = some record.val → zlLeaseValid record →
      ∃ record', (runEvents n later).lease = some record'.val ∧ zlLeaseValid record' ∧
        record.generation ≤ record'.generation) ∧
    (n'.lease ≠ n.lease → ∀ later clock' deadline', (runEvents n' later).lease = n'.lease →
      InTime deadline' clock' →
      ((zlLeaseCommit p deadline').eval ⟨runEvents n' later, clock'⟩).1 = .ok p ∧
        ((zlLeaseCommit p deadline').eval ⟨runEvents n' later, clock'⟩).2.nvs.lease = n'.lease) ∧
    (∀ record d' rest, o = .done (.ok record) d' rest → ∀ later,
      let m := runEvents n' later
      (m.lease = none → (zlLeaseLoadBoot.eval ⟨m, []⟩).1 = .error .corrupt ∧
        ∀ fates d'' rest, zlLeaseLoadBoot.run ⟨m, []⟩ fates ≠ .done (.error .empty) d'' rest) ∧
      ∀ q deadline clock fates, q.generation = 1 →
        let o' := (zlLeaseCommit q deadline).run ⟨m, clock⟩ fates
        o'.state.nvs.lease = m.lease ∧
          ∀ record d'' rest, o' = .done (.ok record) d'' rest →
            m.lease = some record.val ∧ record.generation = 1 ∧ sameFacts q record) := by
  intro o n'
  obtain ⟨hcommits, hok⟩ := zlLeaseCommit_spec p deadline n clock fates
  have hconfirms : ∀ record d' rest, o = .done (.ok record) d' rest → Confirms p n' record := by
    intro record d' rest hrun
    have hstate : n' = d'.nvs := congrArg (fun o => o.state.nvs) hrun
    rw [hstate]
    exact hok record d' rest hrun
  refine ⟨hconfirms, ?_, ?_, ?_, ?_⟩
  · obtain hsame | ⟨hnew, hvalid, hadmits⟩ := hcommits.lease
    · exact .inl hsame
    · refine .inr ⟨hnew, hvalid, ?_⟩
      cases hadmits with
      | first hnone _ hgeneration => exact .inl ⟨hnone, hgeneration⟩
      | next current hcurrent hcur _ hgeneration hactive =>
        refine .inr ⟨current, hcurrent, hcur, hgeneration, fun h => ?_⟩
        obtain ⟨-, huid, hserial, hfingerprint⟩ := zlLeaseMatches_iff.1 (hactive h)
        exact ⟨hserial, huid, hfingerprint⟩
  · intro later record hlose hlease hvalid
    exact runEvents_generation later hlose hlease hvalid
  · intro hne later clock' deadline' hlease hclock
    obtain hsame | ⟨hnew, hvalid, hadmits⟩ := hcommits.lease
    · exact absurd hsame hne
    · have hroot : n'.root = none ∨ n'.root = some rootWitness := by
        obtain hkept | ⟨-, hmade⟩ := hcommits.root
        · exact hkept ▸ hadmits.root
        · exact .inr hmade
      have hrepeat := eval_repeat (d := ⟨runEvents n' later, clock'⟩) (hlease.trans hnew) hvalid
        (runEvents_sound later hroot) hclock
      rwa [hlease] at hrepeat
  · intro record d' rest hrun later
    have hconf := hconfirms record d' rest hrun
    obtain ⟨hroot, hcreated⟩ := runEvents_witness later hconf.root hconf.created
    refine ⟨fun hlease => ⟨eval_zlLeaseLoadBoot hcreated hlease hroot, fun fates d'' rest =>
      loadBoot_ne_empty hroot hcreated fates rest d''⟩, ?_⟩
    intro q deadline clock fates hq
    have hkept := commit_first_again hroot hq deadline clock fates
    refine ⟨hkept, fun record d'' rest hrun' => ?_⟩
    have hagain := (zlLeaseCommit_spec q deadline _ clock fates).2 record d'' rest hrun'
    rw [hrun'] at hkept
    exact ⟨hkept.symm.trans hagain.lease, hagain.generation.trans hq, hagain.facts⟩

end Run

end LeaseStore
