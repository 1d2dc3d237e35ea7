import AutoAttn.Journal.State

/-!
# The root is never replaced

Whatever fails and whenever power is lost, a root that is stored keeps its key, its epoch and its
serial, gains the authority for delivery at most once, and its limit only grows.
-/

namespace ZoneLite

open Bytes Crash

section Root

variable {b : Block zjRootBytes} {serial : List UInt8}

/-! ### Roots -/

lemma length_checksum_field (b : Block zjRootBytes) :
    zjRootBytes - 4 + (le 4 (dqCrc32 (slice b.val 0 (zjRootBytes - 4))).toNat).length ≤
      b.val.length := by
  rw [length_le, Block.length_val]
  decide

lemma slice_checksum {i n : Nat} (h : i + n ≤ zjRootBytes - 4) :
    slice (checksum b).val i n = slice b.val i n := by
  rw [checksum, Block.val_patch (by rw [length_le]; decide)]
  exact slice_patch_before h (length_checksum_field b)

lemma checksum_checksum (b : Block zjRootBytes) : checksum (checksum b) = checksum b := by
  apply Subtype.ext
  have hslice := slice_checksum (b := b) (i := 0) (n := zjRootBytes - 4) (by omega)
  conv_lhs => rw [checksum, hslice, Block.val_patch (by rw [length_le]; decide)]
  rw [checksum, Block.val_patch (by rw [length_le]; decide)]
  exact patch_patch rfl (length_checksum_field b)

/-- `b'` may take the place of the root `b`. -/
structure Succeeds (b b' : Block zjRootBytes) : Prop where
  valid : ∀ {serial}, rootValid b serial = true → rootValid b' serial = true
  master : rootMaster b' = rootMaster b
  epoch : rootEpoch b' = rootEpoch b
  serial : rootSerial b' = rootSerial b
  authority : rootAuthority b = [1] → rootAuthority b' = [1]
  limit : rootLimit b ≤ rootLimit b'

lemma Succeeds.refl (b : Block zjRootBytes) : Succeeds b b :=
  ⟨id, rfl, rfl, rfl, id, le_rfl⟩

lemma Succeeds.trans {b' b'' : Block zjRootBytes} (h : Succeeds b b') (h' : Succeeds b' b'') :
    Succeeds b b'' :=
  ⟨fun hv => h'.valid (h.valid hv), h'.master.trans h.master, h'.epoch.trans h.epoch,
    h'.serial.trans h.serial, fun ha => h'.authority (h.authority ha), h.limit.trans h'.limit⟩

/-- The fields of a root with one of them changed. -/
lemma slice_checksum_patch {off i n : Nat} {data : List UInt8} (hd : off + data.length ≤ zjRootBytes)
    (hn : i + n ≤ zjRootBytes - 4) (hi : i + n ≤ off ∨ off + data.length ≤ i) :
    slice (checksum (b.patch off data)).val i n = slice b.val i n := by
  have hd' : off + data.length ≤ b.val.length := by rwa [Block.length_val]
  rw [slice_checksum hn, Block.val_patch hd]
  rcases hi with hi | hi
  · exact slice_patch_before hi hd'
  · exact slice_patch_after hi hd'

lemma slice_checksum_patch_self {off : Nat} (data : List UInt8)
    (hd : off + data.length ≤ zjRootBytes - 4) :
    slice (checksum (b.patch off data)).val off data.length = data := by
  have hd' : off + data.length ≤ zjRootBytes := by omega
  rw [slice_checksum hd, Block.val_patch hd']
  exact slice_patch_self (by rwa [Block.length_val])

lemma rootValid_iff : rootValid b serial = true ↔
    slice b.val 0 8 = ascii "ZJROOT01" ∧ rootLimit b ≠ 0 ∧ rootLimit b ≤ zjSequenceMax + 1 ∧
      (rootMaster b).any (· ≠ 0) ∧ (rootEpoch b).any (· ≠ 0) ∧ b = checksum b ∧
      (rootAuthority b = [0] ∨ rootAuthority b = [1]) ∧ !(slice b.val 146 10).any (· ≠ 0) ∧
      (rootAuthority b = [1] ∨ rootLimit b = 1) ∧
      serial ≠ [] ∧ serial.length < 81 ∧ rootSerial b = field 81 serial := by
  rw [rootValid, decide_eq_true_iff]

lemma rootAuthority_withAdd (b : Block zjRootBytes) : rootAuthority (withAdd b) = [1] :=
  slice_checksum_patch_self [1] (by decide)

lemma rootLimit_withAdd (b : Block zjRootBytes) : rootLimit (withAdd b) = rootLimit b := by
  rw [rootLimit, rootLimit, withAdd, slice_checksum_patch (by decide) (by decide) (.inl (by decide))]

lemma succeeds_withAdd (b : Block zjRootBytes) : Succeeds b (withAdd b) := by
  have hkeep : ∀ {i n : Nat}, i + n ≤ zjRootBytes - 4 → i + n ≤ 145 ∨ 146 ≤ i →
      slice (withAdd b).val i n = slice b.val i n := fun hn hi =>
    slice_checksum_patch (by decide) hn (by simpa using hi)
  have hlimit := rootLimit_withAdd b
  have hmaster : rootMaster (withAdd b) = rootMaster b := hkeep (by decide) (.inl (by decide))
  have hepoch : rootEpoch (withAdd b) = rootEpoch b := hkeep (by decide) (.inl (by decide))
  have hserial : rootSerial (withAdd b) = rootSerial b := hkeep (by decide) (.inl (by decide))
  have hadd := rootAuthority_withAdd b
  refine ⟨fun {serial} h => ?_, hmaster, hepoch, hserial, fun _ => hadd, hlimit.ge⟩
  rw [rootValid_iff] at h ⊢
  obtain ⟨hmagic, h0, hmax, hm, he, -, -, hreserved, -, hlong⟩ := h
  rw [hlimit, hmaster, hepoch, hserial, hkeep (by decide) (.inl (by decide)),
    hkeep (by decide) (.inr (by decide))]
  exact ⟨hmagic, h0, hmax, hm, he, (checksum_checksum _).symm, .inr hadd, hreserved, .inl hadd, hlong⟩

lemma rootLimit_withLimit {limit : Nat} (h : limit ≤ zjSequenceMax + 1) (b : Block zjRootBytes) :
    rootLimit (withLimit b limit) = limit := by
  have hself := slice_checksum_patch_self (b := b) (le 8 limit)
    (show 8 + (le 8 limit).length ≤ zjRootBytes - 4 by rw [length_le]; decide)
  rw [length_le] at hself
  rw [rootLimit, withLimit, hself]
  exact unle_le_of_lt (h.trans_lt (by decide))

lemma succeeds_withLimit {limit : Nat} (hadd : rootAuthority b = [1])
    (hlimit : rootLimit b ≤ limit) (hmax : limit ≤ zjSequenceMax + 1) :
    Succeeds b (withLimit b limit) := by
  have hkeep : ∀ {i n : Nat}, i + n ≤ zjRootBytes - 4 → i + n ≤ 8 ∨ 16 ≤ i →
      slice (withLimit b limit).val i n = slice b.val i n := fun hn hi =>
    slice_checksum_patch (by rw [length_le]; decide) hn (by simpa using hi)
  have hnew := rootLimit_withLimit hmax b
  have hmaster : rootMaster (withLimit b limit) = rootMaster b := hkeep (by decide) (.inr (by decide))
  have hepoch : rootEpoch (withLimit b limit) = rootEpoch b := hkeep (by decide) (.inr (by decide))
  have hserial : rootSerial (withLimit b limit) = rootSerial b := hkeep (by decide) (.inr (by decide))
  have hauth : rootAuthority (withLimit b limit) = rootAuthority b :=
    hkeep (by decide) (.inr (by decide))
  refine ⟨fun {serial} h => ?_, hmaster, hepoch, hserial, fun _ => hauth.trans hadd,
    hlimit.trans hnew.ge⟩
  rw [rootValid_iff] at h ⊢
  obtain ⟨hmagic, h0, -, hm, he, -, hbyte, hreserved, -, hlong⟩ := h
  rw [hnew, hmaster, hepoch, hserial, hauth, hkeep (by decide) (.inl (by decide)),
    hkeep (by decide) (.inr (by decide))]
  exact ⟨hmagic, by omega, hmax, hm, he, (checksum_checksum _).symm, hbyte, hreserved, .inl hadd,
    hlong⟩

lemma rootLimit_newRoot (hlen : serial.length < 81) (random : Block 48) :
    rootLimit (newRoot serial random) = 1 := by
  have hbytes : (ascii "ZJROOT01" ++ le 8 1 ++ random.val ++ field 81 serial ++
      List.replicate 15 0).length = zjRootBytes := by
    simp only [List.length_append, length_le, Block.length_val, field, List.length_rightpad,
      List.length_replicate, Nat.max_eq_left hlen.le]
    decide
  rw [rootLimit, newRoot, slice_checksum (by decide), Block.val_ofList hbytes]
  simp only [List.append_assoc]
  rw [slice_append_right (by decide)]
  exact congrArg unle (slice_append_left (a := le 8 1) (by decide))

end Root

namespace Journal

variable {d d' : ZjDevice}

/-! ### Saving -/

section Save

variable {α : Type} {Q : Bool → ZjDevice → Prop} {C : ZjDevice → Prop}

/-- A blob is read as it is, or not at all. -/
lemma wp_readBlob {Q : Option (Option (List UInt8)) → ZjDevice → Prop} {name : ZjBlob} {length : Nat}
    (hnone : Q none d) (hread : (∀ bytes, d.nvs.get name = some bytes → bytes.length = length) →
      Q (some (d.nvs.get name)) d) (hC : C d) : (readBlob name length).wp Q C d := by
  rw [readBlob, Prog.wp_bind, Prog.wp_look]
  refine ⟨?_, hnone, hC⟩
  rw [if_pos rfl, Prog.wp_bind, Prog.wp_gets]
  generalize hget : d.nvs.get name = found at hread
  cases found with
  | none => exact hread (by simp)
  | some bytes =>
    rw [Prog.wp_pure]
    split_ifs with hlen
    · exact hread fun _ h => Option.some.inj h ▸ hlen
    · exact hnone

/-- The device with a blob written. -/
def written (name : ZjBlob) (bytes : List UInt8) (d : ZjDevice) : ZjDevice :=
  { d with nvs := d.nvs.set bytes name }

/-- The device with a state that refuses. -/
def halted (d : ZjDevice) : ZjDevice := { d with state := { d.state with ready := false } }

/-- After `save` the blob is there for sure, or it is uncertain and the state refuses. -/
lemma wp_save {name : ZjBlob} {bytes : List UInt8} (hok : Q true (written name bytes d))
    (hold : Q false (halted d)) (hnew : Q false (halted (written name bytes d)))
    (hC : C d) (hC' : C (written name bytes d)) : (save name bytes).wp Q C d := by
  have hverify : (saveVerified name bytes).wp
      (fun ok x => ok = true ∧ x = written name bytes d ∨ ok = false ∧ (x = d ∨ x = written name bytes d))
      (fun x => x = d ∨ x = written name bytes d) d := by
    rw [saveVerified, Prog.wp_ite]
    refine ⟨fun _ => .inr ⟨rfl, .inl rfl⟩, fun _ => ?_⟩
    rw [Prog.wp_bind, writeBlob, Prog.wp_atomic]
    refine ⟨?_, ⟨.inr ⟨rfl, .inl rfl⟩, .inr ⟨rfl, .inr rfl⟩⟩, .inl rfl, .inr rfl⟩
    rw [if_pos rfl, Prog.wp_bind]
    refine wp_readBlob ?_ (fun _ => ?_) (.inr rfl)
    · exact .inr ⟨rfl, .inr rfl⟩
    · exact .inl ⟨by simp, rfl⟩
  rw [save]
  refine Prog.wp_seq hverify ?_ ?_
  · rintro ok x (⟨rfl, rfl⟩ | ⟨rfl, rfl | rfl⟩)
    · exact hok
    · exact hold
    · exact hnew
  · rintro x (rfl | rfl)
    · exact hC
    · exact hC'

end Save

/-! ### What a call does -/

/-- What may happen to the root in NVS. -/
inductive RootChange (n n' : ZjNvs) : Prop where
  | same (h : n'.root = n.root)
  | made (b : Block zjRootBytes) (serial : List UInt8) (hroot : n.root = none)
      (hretirement : n.retirement = none) (hproof : n.readerV1 = none) (hsegments : n.segments = false)
      (hvalid : rootValid b serial = true) (h : n'.root = some b.val)
  | replaced (b b' : Block zjRootBytes) (serial : List UInt8) (hroot : n.root = some b.val)
      (hvalid : rootValid b serial = true) (hsucceeds : Succeeds b b') (h : n'.root = some b'.val)

/-- A state that is ready is the one in NVS. -/
structure Coherent (d : ZjDevice) (serial : List UInt8) : Prop where
  root : d.nvs.root = some d.state.root.val
  valid : rootValid d.state.root serial = true
  limit : d.state.limit = rootLimit d.state.root

def StateInv (d : ZjDevice) : Prop := d.state.ready = true → ∃ serial, Coherent d serial

lemma stateInv_of_not_ready (h : d.state.ready = false) : StateInv d := by
  simp [StateInv, h]

/-- What opening may do to NVS: nothing, or store the first root. -/
inductive FirstRoot (serial : List UInt8) (n n' : ZjNvs) : Prop where
  | same (h : n' = n)
  | made (b : Block zjRootBytes) (hroot : n.root = none) (hretirement : n.retirement = none)
      (hproof : n.readerV1 = none) (hsegments : n.segments = false)
      (hvalid : rootValid b serial = true) (hlimit : rootLimit b = 1)
      (h : n' = { n with root := some b.val })

lemma FirstRoot.change {serial : List UInt8} {n n' : ZjNvs} (h : FirstRoot serial n n') :
    RootChange n n' := by
  cases h with
  | same h => exact .same (congrArg ZjNvs.root h)
  | made b hroot hretirement hproof hsegments hvalid _ h =>
    exact .made b serial hroot hretirement hproof hsegments hvalid (congrArg ZjNvs.root h)

/-- What a call that returned did. -/
structure StateSpec (d : ZjDevice) (ok : Bool) (d' : ZjDevice) : Prop where
  inv : StateInv d'
  change : RootChange d.nvs d'.nvs
  failed : ok = false → d' = d ∨ d'.state.ready = false

lemma StateSpec.same (h : StateInv d) (ok : Bool) : StateSpec d ok d := ⟨h, .same rfl, fun _ => .inl rfl⟩

lemma StateSpec.refused {ok : Bool} (hr : d'.state.ready = false) (hc : RootChange d.nvs d'.nvs) :
    StateSpec d ok d' :=
  ⟨stateInv_of_not_ready hr, hc, fun _ => .inr hr⟩

lemma ewp_absentBlob (name : ZjBlob) (length : Nat) :
    Prog.ewp (fun _ d' => d' = d ∧ d.nvs.get name = none) (fun _ d' => d' = d) (fun d' => d' = d)
      (absentBlob name length) d := by
  rw [absentBlob, Prog.ewp_bind, Prog.ewp_lift]
  refine wp_readBlob ?_ (fun _ => ?_) rfl
  · rw [Prog.ewp_throw]
  · cases h : d.nvs.get name with
    | none =>
      rw [Prog.ewp_pure]
      exact ⟨rfl, rfl⟩
    | some bytes => rw [Prog.ewp_throw]

lemma wp_journalAbsent :
    journalAbsent.wp (fun absent d' => d' = d ∧ (absent = true → d.nvs.segments = false))
      (fun d' => d' = d) d := by
  rw [journalAbsent, Prog.wp_bind, Prog.wp_look]
  refine ⟨?_, ⟨rfl, by simp⟩, rfl⟩
  rw [if_pos rfl, Prog.wp_bind, Prog.wp_gets, Prog.wp_pure]
  exact ⟨rfl, by simp⟩

/-- The outcome of reading or making the root: it is in memory as it is in NVS. -/
structure Loaded (serial : List UInt8) (d d' : ZjDevice) : Prop where
  root : d'.nvs.root = some d'.state.root.val
  change : FirstRoot serial d.nvs d'.nvs
  unready : d'.state.ready = false

/-- Nothing is ready. -/
def Refused (serial : List UInt8) (d d' : ZjDevice) : Prop :=
  d'.state.ready = false ∧ FirstRoot serial d.nvs d'.nvs

lemma ewp_noEvidence :
    Prog.ewp (fun _ d' => d' = d ∧ d.nvs.retirement = none ∧ d.nvs.readerV1 = none ∧
      d.nvs.segments = false) (fun _ d' => d' = d) (fun d' => d' = d) noEvidence d := by
  rw [noEvidence]
  refine Prog.ewp_seq (ewp_absentBlob .retirement _) ?_ (fun _ _ h => h) fun _ h => h
  rintro - _ ⟨rfl, hretirement⟩
  refine Prog.ewp_seq (ewp_absentBlob .readerV1 _) ?_ (fun _ _ h => h) fun _ h => h
  rintro - _ ⟨rfl, hproof⟩
  rw [Prog.ewp_bind, Prog.ewp_lift]
  refine Prog.wp_mono wp_journalAbsent ?_ fun _ h => h
  rintro absent _ ⟨rfl, hsegments⟩
  rw [Prog.ewp_ite, Prog.ewp_pure, Prog.ewp_throw]
  exact ⟨fun h => ⟨rfl, hretirement, hproof, hsegments h⟩, fun _ => rfl⟩

lemma ewp_makeRoot {serial : List UInt8} (random : Option (Block 48)) (hlen : serial.length < 81)
    (hready : d.state.ready = false) (hroot : d.nvs.root = none)
    (hretirement : d.nvs.retirement = none) (hproof : d.nvs.readerV1 = none)
    (hsegments : d.nvs.segments = false) :
    Prog.ewp (fun _ => Loaded serial d) (fun _ => Refused serial d)
      (fun d' => FirstRoot serial d.nvs d'.nvs) (makeRoot serial random) d := by
  cases random with
  | none =>
    rw [makeRoot, Prog.ewp_throw]
    exact ⟨hready, .same rfl⟩
  | some bytes =>
    rw [makeRoot]
    obtain ⟨b, hb⟩ : ∃ b, b = newRoot serial bytes := ⟨_, rfl⟩
    have hlimit : rootLimit b = 1 := hb ▸ rootLimit_newRoot hlen bytes
    simp only [Prog.ewp_bind, Prog.ewp_lift, setState, Prog.wp_modify, Prog.ewp_ite, Prog.ewp_throw,
      Prog.ewp_pure, ← hb]
    refine ⟨fun _ => ⟨hready, .same rfl⟩, fun hvalid => ?_⟩
    have hnew : FirstRoot serial d.nvs { d.nvs with root := some b.val } :=
      .made b hroot hretirement hproof hsegments (by simpa using hvalid) hlimit rfl
    refine wp_save ?_ ?_ ?_ (.same rfl) hnew
    · exact ⟨fun _ => ⟨rfl, hnew, hready⟩, fun h => absurd rfl h⟩
    · exact ⟨fun h => absurd h (by decide), fun _ => ⟨rfl, .same rfl⟩⟩
    · exact ⟨fun h => absurd h (by decide), fun _ => ⟨rfl, hnew⟩⟩

lemma ewp_loadRoot {serial : List UInt8} (random : Option (Block 48)) (hlen : serial.length < 81)
    (hready : d.state.ready = false) :
    Prog.ewp (fun _ => Loaded serial d) (fun _ => Refused serial d)
      (fun d' => FirstRoot serial d.nvs d'.nvs) (loadRoot serial random) d := by
  rw [loadRoot, Prog.ewp_bind, Prog.ewp_lift]
  refine wp_readBlob ?_ (fun hlen => ?_) (.same rfl)
  · rw [Prog.ewp_throw]
    exact ⟨hready, .same rfl⟩
  · generalize hroot : d.nvs.get .root = found at hlen
    cases found with
    | none =>
      have hrefused : Refused serial d d := ⟨hready, .same rfl⟩
      refine Prog.ewp_seq ewp_noEvidence ?_ (fun _ _ h => h.symm ▸ hrefused)
        fun _ h => h.symm ▸ hrefused.2
      rintro - _ ⟨rfl, hretirement, hproof, hsegments⟩
      exact ewp_makeRoot random ‹_› hready hroot hretirement hproof hsegments
    | some bytes =>
      rw [Prog.ewp_lift, setState, Prog.wp_modify]
      refine ⟨?_, .same rfl, hready⟩
      exact hroot.trans (congrArg some (Block.val_ofList (hlen bytes rfl)).symm)

/-- Opening reads the root, or stores the first one, and then the state is ready with it. -/
lemma ewp_zjStateOpen (d : ZjDevice) (serial : List UInt8) (random : Option (Block 48)) :
    Prog.ewp (fun _ d' => Coherent d' serial ∧ FirstRoot serial d.nvs d'.nvs)
      (fun _ => Refused serial d) (fun d' => FirstRoot serial d.nvs d'.nvs)
      (zjStateOpen serial random) d := by
  have hzero : Refused serial d { d with state := ZjState.zero } := ⟨rfl, .same rfl⟩
  rw [zjStateOpen, Prog.ewp_bind, Prog.ewp_lift, setState, Prog.wp_modify, Prog.ewp_ite,
    Prog.ewp_ite, Prog.ewp_throw]
  refine ⟨fun _ => hzero, fun hserial => ⟨fun _ => hzero, fun _ => ?_⟩⟩
  have hlen : serial.length < 81 := not_le.1 fun h => hserial (.inr h)
  refine Prog.ewp_seq (ewp_loadRoot random hlen rfl) ?_ (fun _ _ h => h) fun _ h => h
  rintro - d' ⟨hroot, hchange, hready⟩
  rw [acceptRoot, Prog.ewp_bind, Prog.ewp_lift, getState, Prog.wp_gets, Prog.ewp_ite, Prog.ewp_lift,
    Prog.ewp_throw, setState, Prog.wp_modify]
  exact ⟨fun hvalid => ⟨⟨hroot, hvalid, rfl⟩, hchange⟩, fun _ => ⟨hready, hchange⟩⟩

/-- A root that succeeds the one in memory is stored. -/
lemma wp_replaceRoot {serial : List UInt8} {b : Block zjRootBytes} {limit : Nat}
    (hd : Coherent d serial) (hb : Succeeds d.state.root b) (hlimit : limit = rootLimit b) :
    (replaceRoot b limit).wp (StateSpec d) (fun d' => RootChange d.nvs d'.nvs) d := by
  have hnew : ∀ n', n'.root = some b.val → RootChange d.nvs n' := fun n' h =>
    .replaced d.state.root b serial hd.root hd.valid hb h
  rw [replaceRoot, Prog.wp_bind]
  refine wp_save ?_ ?_ ?_ (.same rfl) (hnew _ rfl)
  · rw [if_pos rfl, setState, Prog.wp_bind, Prog.wp_modify, Prog.wp_pure]
    exact ⟨fun _ => ⟨serial, rfl, hb.valid hd.valid, hlimit⟩, hnew _ rfl, by simp⟩
  · exact .refused rfl (.same rfl)
  · exact .refused rfl (hnew _ rfl)

lemma zjStateAuthority_add {s : ZjState} (h : zjStateAuthority s = .add) :
    s.ready = true ∧ rootAuthority s.root = [1] := by
  unfold zjStateAuthority at h
  split_ifs at h with hready hadd
  exact ⟨by simpa using hready, hadd⟩

lemma ewp_zjStateEnableAdd (h : StateInv d) :
    Prog.ewp (fun _ => StateSpec d true) (fun _ => StateSpec d false)
      (fun d' => RootChange d.nvs d'.nvs) zjStateEnableAdd d := by
  rw [zjStateEnableAdd, Prog.ewp_bind, Prog.ewp_lift, getState, Prog.wp_gets, Prog.ewp_ite,
    Prog.ewp_ite, Prog.ewp_throw, Prog.ewp_pure]
  -- The new root is named, so that nothing computes its checksum.
  obtain ⟨b, hb⟩ : ∃ b, b = withAdd d.state.root := ⟨_, rfl⟩
  have hsucceeds : Succeeds d.state.root b := hb ▸ succeeds_withAdd _
  have hlimit : rootLimit b = rootLimit d.state.root := hb ▸ rootLimit_withAdd _
  rw [← hb]
  refine ⟨fun _ => .same h _, fun hready => ⟨fun _ => .same h _, fun _ => ?_⟩⟩
  obtain ⟨serial, hd⟩ := h (by simpa using hready)
  rw [Prog.ewp_bind, Prog.ewp_lift]
  refine Prog.wp_mono (wp_replaceRoot hd hsucceeds (hd.limit.trans hlimit.symm)) ?_ fun _ h => h
  intro ok d' hspec
  rw [Prog.ewp_ite, Prog.ewp_pure, Prog.ewp_throw]
  exact ⟨fun hok => hok ▸ hspec, fun hok => Bool.eq_false_of_not_eq_true hok ▸ hspec⟩

lemma wp_zjStateReserve (h : StateInv d) (limit : Nat) :
    (zjStateReserve limit).wp (StateSpec d) (fun d' => RootChange d.nvs d'.nvs) d := by
  rw [zjStateReserve, Prog.wp_bind, getState, Prog.wp_gets, Prog.wp_ite, Prog.wp_pure]
  obtain ⟨b, hb⟩ : ∃ b, b = withLimit d.state.root limit := ⟨_, rfl⟩
  rw [← hb]
  refine ⟨fun _ => .same h _, fun hguard => ?_⟩
  simp only [not_or, not_not, not_le, not_lt, ne_eq, gt_iff_lt] at hguard
  obtain ⟨hauthority, hlt, hmax⟩ := hguard
  obtain ⟨hready, hadd⟩ := zjStateAuthority_add hauthority
  obtain ⟨serial, hd⟩ := h hready
  rw [hd.limit] at hlt
  exact wp_replaceRoot hd (hb ▸ succeeds_withLimit hadd hlt.le hmax)
    (by rw [hb, rootLimit_withLimit hmax])

lemma wp_zjStateCheckpointCommit (h : StateInv d) (cp : Block zjCheckpointBytes) :
    (zjStateCheckpointCommit cp).wp (StateSpec d) (fun d' => RootChange d.nvs d'.nvs) d := by
  rw [zjStateCheckpointCommit, Prog.wp_bind, getState, Prog.wp_gets, Prog.wp_ite, Prog.wp_pure]
  refine ⟨fun _ => .same h _, fun hready => ?_⟩
  refine wp_save ⟨fun hr => ?_, .same rfl, by simp⟩ (.refused rfl (.same rfl))
    (.refused rfl (.same rfl)) (.same rfl) (.same rfl)
  obtain ⟨serial, hd⟩ := h hr
  exact ⟨serial, hd.root, hd.valid, hd.limit⟩

lemma wp_zjStateCheckpointLoad :
    zjStateCheckpointLoad.wp (fun _ d' => d' = d) (fun d' => d' = d) d := by
  rw [zjStateCheckpointLoad, Prog.wp_bind, getState, Prog.wp_gets, Prog.wp_ite, Prog.wp_pure]
  refine ⟨fun _ => rfl, fun _ => ?_⟩
  rw [Prog.wp_bind]
  exact wp_readBlob rfl (fun _ => rfl) rfl

end Journal

/-! ### Runs -/

/-- The calls on the state. -/
inductive ZjStateCall where
  | openState (serial : List UInt8) (random : Option (Block 48))
  | enableAdd
  | reserve (exclusiveLimit : Nat)
  | checkpointLoad
  | checkpointCommit (checkpoint : Block zjCheckpointBytes)

namespace ZjStateCall

/-- What a call runs. The result says whether it succeeded. -/
def prog : ZjStateCall → Prog ZjDevice Bool
  | .openState serial random      => return (← (Journal.zjStateOpen serial random).run).isOk
  | .enableAdd                    => return (← Journal.zjStateEnableAdd.run).isOk
  | .reserve exclusiveLimit       => Journal.zjStateReserve exclusiveLimit
  | .checkpointLoad               => return (← Journal.zjStateCheckpointLoad).isSome
  | .checkpointCommit checkpoint  => Journal.zjStateCheckpointCommit checkpoint

def isOpen : ZjStateCall → Bool
  | .openState .. => true
  | _             => false

end ZjStateCall

namespace ZjDevice

variable {d d' : ZjDevice}

open Journal

/-- Power is lost and comes back. -/
def reset (d : ZjDevice) : ZjDevice := { d with state := ZjState.zero }

/-- One step of a run. The proof of the reader and the segment files belong to others. -/
inductive Step (d : ZjDevice) : ZjDevice → Prop where
  | call (c : ZjStateCall) {fs rest : List Fate} {ok : Bool} {d' : ZjDevice}
      (h : c.prog.run d fs = .done ok d' rest) : Step d d'
  | crash (c : ZjStateCall) {fs : List Fate} {d' : ZjDevice} (h : c.prog.run d fs = .halt d') :
      Step d d'.reset
  | reset : Step d d.reset
  | others (readerV1 : Option (List UInt8)) (segments : Bool) :
      Step d { d with nvs := { d.nvs with readerV1 := readerV1, segments := segments } }

/-- A device is reached from one on which nothing was opened since power came. -/
def Reach (d : ZjDevice) : Prop :=
  ∃ d₀, d₀.state.ready = false ∧ Relation.ReflTransGen Step d₀ d

lemma wp_call (h : StateInv d) (c : ZjStateCall) :
    c.prog.wp (StateSpec d) (fun d' => RootChange d.nvs d'.nvs) d := by
  cases c with
  | openState serial random =>
    refine Prog.wp_seq (Prog.wp_of_ewp (ewp_zjStateOpen d serial random)) ?_ fun _ h => h.change
    intro x d' hx
    cases x with
    | ok => exact ⟨fun _ => ⟨serial, hx.1⟩, hx.2.change, by simp [Except.isOk, Except.toBool]⟩
    | error => exact .refused hx.1 hx.2.change
  | enableAdd =>
    refine Prog.wp_seq (Prog.wp_of_ewp (ewp_zjStateEnableAdd h)) ?_ fun _ h => h
    intro x d' hx
    cases x <;> exact hx
  | reserve exclusiveLimit => exact wp_zjStateReserve h exclusiveLimit
  | checkpointLoad =>
    refine Prog.wp_seq wp_zjStateCheckpointLoad ?_ fun _ h => h ▸ .same rfl
    rintro _ _ rfl
    exact .same h _
  | checkpointCommit checkpoint => exact wp_zjStateCheckpointCommit h checkpoint

lemma Step.spec (hstep : Step d d') (h : StateInv d) : StateInv d' ∧ RootChange d.nvs d'.nvs := by
  cases hstep with
  | @call c fs _ _ _ hrun =>
    have hsat := Prog.wp_run (wp_call h c) fs
    rw [hrun] at hsat
    exact ⟨hsat.inv, hsat.change⟩
  | @crash c fs _ hrun =>
    have hsat := Prog.wp_run (wp_call h c) fs
    rw [hrun] at hsat
    exact ⟨stateInv_of_not_ready rfl, hsat⟩
  | reset => exact ⟨stateInv_of_not_ready rfl, .same rfl⟩
  | others readerV1 segments =>
    refine ⟨fun hr => ?_, .same rfl⟩
    obtain ⟨serial, hd⟩ := h hr
    exact ⟨serial, hd.root, hd.valid, hd.limit⟩

lemma Reach.inv (h : Reach d) : StateInv d := by
  obtain ⟨d₀, h₀, hsteps⟩ := h
  induction hsteps with
  | refl => exact stateInv_of_not_ready h₀
  | tail _ hstep ih => exact (hstep.spec ih).1

/-- A root has only successors. -/
lemma succeeds_of_steps {b : Block zjRootBytes} (h : StateInv d)
    (hsteps : Relation.ReflTransGen Step d d') (hroot : d.nvs.root = some b.val) :
    StateInv d' ∧ ∃ b', d'.nvs.root = some b'.val ∧ Succeeds b b' := by
  induction hsteps with
  | refl => exact ⟨h, b, hroot, .refl b⟩
  | tail _ hstep ih =>
    obtain ⟨hinv, b₁, hroot₁, hsucc⟩ := ih
    obtain ⟨hinv', hchange⟩ := hstep.spec hinv
    refine ⟨hinv', ?_⟩
    cases hchange with
    | same hsame => exact ⟨b₁, hsame.trans hroot₁, hsucc⟩
    | made _ _ hnone => simp [hroot₁] at hnone
    | replaced b₂ b₃ _ hroot₂ _ hsucc' hnew =>
      obtain rfl : b₁ = b₂ := Subtype.ext (Option.some.inj (hroot₁.symm.trans hroot₂))
      exact ⟨b₃, hnew, hsucc.trans hsucc'⟩

/-- A state that is not ready refuses everything but to be opened. -/
lemma wp_of_not_ready (h : d.state.ready = false) {c : ZjStateCall} (hc : c.isOpen = false) :
    c.prog.wp (fun ok d' => ok = false ∧ d' = d) (fun _ => False) d := by
  have hrefuse : (!d.state.ready) = true := by rw [h]; rfl
  cases c with
  | openState => simp [ZjStateCall.isOpen] at hc
  | enableAdd =>
    have : Prog.ewp (fun _ _ => False) (fun _ d' => d' = d) (fun _ => False) zjStateEnableAdd d := by
      rw [zjStateEnableAdd, Prog.ewp_bind, Prog.ewp_lift, getState, Prog.wp_gets, if_pos hrefuse,
        Prog.ewp_throw]
    refine Prog.wp_seq (Prog.wp_of_ewp this) ?_ fun _ h => h
    intro x d' hx
    cases x with
    | ok => exact hx.elim
    | error => exact ⟨rfl, hx⟩
  | reserve exclusiveLimit =>
    have hunknown : zjStateAuthority d.state = .unknown := if_pos hrefuse
    rw [ZjStateCall.prog, zjStateReserve, Prog.wp_bind, getState, Prog.wp_gets,
      if_pos (.inl (by rw [hunknown]; decide)), Prog.wp_pure]
    exact ⟨rfl, rfl⟩
  | checkpointLoad =>
    rw [ZjStateCall.prog, zjStateCheckpointLoad, Prog.wp_bind, Prog.wp_bind, getState, Prog.wp_gets,
      if_pos hrefuse, Prog.wp_pure, Prog.wp_pure]
    exact ⟨rfl, rfl⟩
  | checkpointCommit checkpoint =>
    rw [ZjStateCall.prog, zjStateCheckpointCommit, Prog.wp_bind, getState, Prog.wp_gets,
      if_pos hrefuse, Prog.wp_pure]
    exact ⟨rfl, rfl⟩

/-- The root is one-way: a root has only successors, as valid as itself, with the same key, epoch
and serial, no smaller limit and no less authority; a new one is written only where there is no trace of another
one. A state that is ready is the one in NVS, and after a save that failed or was not verified it
refuses everything until it is opened again. -/
theorem root_is_one_way (h : Reach d) :
    (∀ d' b, Relation.ReflTransGen Step d d' → d.nvs.root = some b.val →
      ∃ b', d'.nvs.root = some b'.val ∧ Succeeds b b') ∧
    (∀ b serial, d.nvs.root = some b.val → rootValid b serial = true → rootAuthority b ≠ [1] →
      rootLimit b = 1) ∧
    (∀ d', Step d d' → d'.nvs.root ≠ d.nvs.root →
      (d.nvs.root = none ∧ d.nvs.retirement = none ∧ d.nvs.readerV1 = none ∧
        d.nvs.segments = false) ∨
      ∃ b serial, d.nvs.root = some b.val ∧ rootValid b serial = true) ∧
    (d.state.ready = true → d.nvs.root = some d.state.root.val) ∧
    (∀ name bytes fs ok d' rest, (save name bytes).run d fs = .done ok d' rest →
      if ok then d'.nvs.get name = some bytes else d'.state.ready = false) ∧
    (∀ (c : ZjStateCall) fs d' rest, c.prog.run d fs = .done false d' rest →
      d' = d ∨ d'.state.ready = false) ∧
    (d.state.ready = false → zjStateAuthority d.state = .unknown ∧ zjStateIdentity d.state = none ∧
      ∀ (c : ZjStateCall) fs, c.isOpen = false → ∃ rest, c.prog.run d fs = .done false d rest) := by
  have hinv := h.inv
  refine ⟨?_, ?_, ?_, ?_, ?_, ?_, ?_⟩
  · intro d' b hsteps hroot
    exact (succeeds_of_steps hinv hsteps hroot).2
  · intro b serial _ hvalid hauthority
    rw [rootValid_iff] at hvalid
    exact hvalid.2.2.2.2.2.2.2.2.1.resolve_left hauthority
  · intro d' hstep hne
    obtain ⟨-, hchange⟩ := hstep.spec hinv
    cases hchange with
    | same hsame => exact absurd hsame hne
    | made _ _ hroot hretirement hproof hsegments =>
      exact .inl ⟨hroot, hretirement, hproof, hsegments⟩
    | replaced b _ serial hroot hvalid => exact .inr ⟨b, serial, hroot, hvalid⟩
  · intro hready
    obtain ⟨serial, hd⟩ := hinv hready
    exact hd.root
  · intro name bytes fs ok d' rest hrun
    have hsave : (save name bytes).wp (fun ok d' =>
        if ok then d'.nvs.get name = some bytes else d'.state.ready = false) (fun _ => True) d :=
      wp_save (d.nvs.get_set _ _) rfl rfl trivial trivial
    have hsat := Prog.wp_run hsave fs
    rw [hrun] at hsat
    exact hsat
  · intro c fs d' rest hrun
    have hsat := Prog.wp_run (wp_call hinv c) fs
    rw [hrun] at hsat
    exact hsat.failed rfl
  · intro hready
    refine ⟨by simp [zjStateAuthority, hready], by simp [zjStateIdentity, hready], fun c fs hc => ?_⟩
    have hsat := Prog.wp_run (wp_of_not_ready hready hc) fs
    cases hrun : c.prog.run d fs with
    | done ok d' rest =>
      rw [hrun] at hsat
      obtain ⟨rfl, rfl⟩ := hsat
      exact ⟨rest, rfl⟩
    | halt d' =>
      rw [hrun] at hsat
      exact hsat.elim

/-- A device on which nothing was ever stored. -/
def blank : ZjDevice := ⟨⟨none, none, none, false⟩, ZjState.zero⟩

/-- The first time the journal is opened. -/
def opened : ZjDevice :=
  ((ZjStateCall.openState (ascii "ZONE-1") (some ⟨List.replicate 48 1, rfl⟩)).prog.eval blank).2

lemma reach_opened : Reach opened :=
  ⟨blank, rfl, .single (.call _ (Prog.run_nil _ _))⟩

theorem root_is_one_way_opened : opened.state.ready = true ∧
    rootValid opened.state.root (ascii "ZONE-1") = true ∧ ∀ d', Relation.ReflTransGen Step opened d' →
      ∃ b', d'.nvs.root = some b'.val ∧ Succeeds opened.state.root b' := by
  have hready : opened.state.ready = true := by decide +kernel
  refine ⟨hready, by decide +kernel, fun d' hsteps => ?_⟩
  obtain ⟨hsucceeds, -, -, hstored, -⟩ := root_is_one_way reach_opened
  exact hsucceeds d' _ hsteps (hstored hready)

end ZjDevice

end ZoneLite
