import AutoAttn.Journal.Codec

/-!
# Encoding and decoding agree
-/

namespace ZoneLite

open Bytes

/-! ### Metadata -/

lemma length_field {capacity : Nat} {p : List UInt8} (h : p.length ≤ capacity) :
    (field capacity p).length = capacity := by
  simp only [field, List.rightpad, List.length_append, List.length_replicate]
  omega

lemma length_lt_of_identifier {capacity : Nat} {p : List UInt8}
    (h : identifier p capacity = true) : p.length < capacity := (of_decide_eq_true h).2.1

/-- A text with no NUL in it is read back from its buffer. -/
lemma cstr_field {capacity : Nat} {p : List UInt8} (h : identifier p capacity = true) :
    cstr (field capacity p) = p := by
  obtain ⟨-, hlt, hall⟩ := of_decide_eq_true h
  have hne : ∀ c ∈ p, decide (c ≠ 0) = true := by
    intro c hc
    have hident := List.all_eq_true.1 hall c hc
    apply decide_eq_true
    rintro rfl
    exact absurd hident (by decide)
  obtain ⟨k, hk⟩ : ∃ k, capacity - p.length = k + 1 := ⟨capacity - p.length - 1, by omega⟩
  rw [cstr, field, List.rightpad, List.takeWhile_append_of_pos hne, hk, List.replicate_succ]
  simp

lemma length_of_zjMetadataEncode {m : ZjMetadata} {b : List UInt8}
    (h : zjMetadataEncode m = some b) : b.length = zjMetaBytes := by
  simp only [zjMetadataEncode] at h
  split_ifs at h with hv
  cases h
  obtain ⟨-, -, -, h1, h2, h3⟩ := hv
  have e1 := length_field (length_lt_of_identifier h1).le
  have e2 := length_field (length_lt_of_identifier h2).le
  have e3 := length_field (length_lt_of_identifier h3).le
  simp [ascii, e1, e2, e3, zjMetaBytes]

/-- Where the values of the metadata stand. -/
structure MetadataLayout (m : ZjMetadata) (b : List UInt8) : Prop where
  magic : slice b 0 8 = ascii "ZJ270S01"
  version : unle (slice b 8 2) = 1
  bytes : unle (slice b 10 2) = zjMetaBytes
  segmentId : unle (slice b 16 8) = m.segmentId
  captureEpoch : slice b 24 16 = m.captureEpoch.val
  terminalSerial : slice b 40 81 = field 81 m.terminalSerial
  decoderProfile : slice b 121 65 = field 65 m.decoderProfile
  decoderVersion : slice b 186 33 = field 33 m.decoderVersion

lemma layout_of_zjMetadataEncode {m : ZjMetadata} {b : List UInt8}
    (h : zjMetadataEncode m = some b) : MetadataLayout m b := by
  simp only [zjMetadataEncode] at h
  split_ifs at h with hv
  obtain ⟨-, hid, -, h1, h2, h3⟩ := hv
  have e1 := length_field (length_lt_of_identifier h1).le
  have e2 := length_field (length_lt_of_identifier h2).le
  have e3 := length_field (length_lt_of_identifier h3).le
  have hseg : unle (le 8 m.segmentId) = m.segmentId := unle_le_of_lt (by
    have : zjSequenceMax < 256 ^ 8 := by decide
    omega)
  obtain rfl := Option.some.inj h
  constructor
  · simp [slice, ascii]
  · simp [slice, ascii, List.drop_append, unle_le_of_lt]
  · simp [slice, ascii, unle_le_of_lt, zjMetaBytes]
  · simp [slice, ascii, List.drop_append, List.drop_eq_nil_of_le, hseg]
  · simp [slice, ascii, List.drop_append, List.drop_eq_nil_of_le]
  · simp [slice, ascii, List.drop_append, List.drop_eq_nil_of_le, e1]
  · simp [slice, ascii, List.drop_append, List.drop_eq_nil_of_le, e1, e2]
  · simp [slice, ascii, List.drop_append, List.drop_eq_nil_of_le, e1, e2, e3]

lemma identifiers_of_zjMetadataEncode {m : ZjMetadata} {b : List UInt8} (h : zjMetadataEncode m = some b) :
    identifier m.terminalSerial 81 = true ∧ identifier m.decoderProfile 65 = true ∧
      identifier m.decoderVersion 33 = true := by
  simp only [zjMetadataEncode] at h
  split_ifs at h with hv
  exact hv.2.2.2

lemma zjMetadataDecode_encode {m : ZjMetadata} {b : List UInt8}
    (h : zjMetadataEncode m = some b) : zjMetadataDecode b = some m := by
  obtain ⟨hmagic, hversion, hbytes, hsegment, hepoch, hserial, hprofile, hdecoder⟩ := layout_of_zjMetadataEncode h
  obtain ⟨h1, h2, h3⟩ := identifiers_of_zjMetadataEncode h
  simp only [zjMetadataDecode, hmagic, hversion, hbytes, hsegment, hepoch, hserial, hprofile, hdecoder,
    cstr_field h1, cstr_field h2, cstr_field h3, Block.ofList_val, h, if_true]
  rw [if_neg (by decide)]

lemma zjMetadataEncode_of_decode {m : ZjMetadata} {b : List UInt8}
    (h : zjMetadataDecode b = some m) : zjMetadataEncode m = some b := by
  simp only [zjMetadataDecode] at h
  split_ifs at h with h1 h2
  · cases h
    exact h2

lemma zjMarker_eq : zjMarker = [90, 74, 79, 49] := rfl

/-! ### Records -/

@[simp] lemma length_recordHeader (o : ZjObservation) :
    (recordHeader o).length = zjHeaderBytes := by
  simp [recordHeader, zjMarker_eq, zjHeaderBytes]

@[simp] lemma length_recordPlain (o : ZjObservation) :
    (recordPlain o).length = zjFactBytes + o.raw.length := by
  simp [recordPlain, zjFactBytes]
  omega

/-- The length of the record of an observation. -/
def recordBytes (o : ZjObservation) : Nat :=
  zjHeaderBytes + zjFactBytes + o.raw.length + zjTagBytes

section Valid

variable {o : ZjObservation} (h : zjObservationValid o = true)
include h

lemma sequence_of_valid : o.sequence ≠ 0 ∧ o.sequence ≤ zjSequenceMax :=
  ⟨(of_decide_eq_true h).1, (of_decide_eq_true h).2.1⟩

lemma raw_of_valid : 0 < o.raw.length ∧ o.raw.length ≤ zjRawMax :=
  ⟨List.length_pos_iff.2 (of_decide_eq_true h).2.2.1, (of_decide_eq_true h).2.2.2.1⟩

lemma captured_of_valid : o.capturedAtSeconds.toUInt64.toNat ≤ 2 ^ 63 - 1 := by
  have h0 : 0 ≤ o.capturedAtSeconds := (of_decide_eq_true h).2.2.2.2.1
  have h1 : 0 ≤ o.capturedAtSeconds.toBitVec.toInt := Int64.le_iff_toInt_le.1 h0
  change o.capturedAtSeconds.toBitVec.toNat ≤ 2 ^ 63 - 1
  rw [BitVec.toInt_eq_toNat_cond] at h1
  split_ifs at h1 <;> omega

lemma unle_sequence : unle (le 8 o.sequence) = o.sequence := unle_le_of_lt (by
  have := (sequence_of_valid h).2
  have : zjSequenceMax < 256 ^ 8 := by decide
  omega)

lemma unle_raw_length : unle (le 2 o.raw.length) = o.raw.length := unle_le_of_lt (by
  have := (raw_of_valid h).2
  have : zjRawMax < 256 ^ 2 := by decide
  omega)

lemma unle_recordBytes : unle (le 2 (recordBytes o)) = recordBytes o := unle_le_of_lt (by
  have := (raw_of_valid h).2
  have : zjHeaderBytes + zjFactBytes + zjRawMax + zjTagBytes < 256 ^ 2 := by decide
  unfold recordBytes
  omega)

end Valid

section Header

variable (o : ZjObservation) (rest : List UInt8)

lemma slice_header_sequence : slice (recordHeader o ++ rest) 8 8 = le 8 o.sequence := by
  simp [recordHeader, slice, zjMarker_eq, List.drop_append, List.drop_eq_nil_of_le]

lemma slice_header_time : slice (recordHeader o ++ rest) 16 4 = le 4 o.encodedTime.toNat := by
  simp [recordHeader, slice, zjMarker_eq, List.drop_append, List.drop_eq_nil_of_le]

lemma slice_header_raw : slice (recordHeader o ++ rest) 20 2 = le 2 o.raw.length := by
  simp [recordHeader, slice, zjMarker_eq, List.drop_append, List.drop_eq_nil_of_le]

lemma slice_header_total : slice (recordHeader o ++ rest) 4 2 = le 2 (recordBytes o) := by
  simp [recordHeader, slice, zjMarker_eq, recordBytes]

lemma getD_header_format : (recordHeader o ++ rest).getD 6 0 = o.rawFormat.toByte := by
  simp [recordHeader, zjMarker_eq]

lemma getD_header_quality : (recordHeader o ++ rest).getD 7 0 = o.timeQuality.toByte := by
  simp [recordHeader, zjMarker_eq, List.getElem?_append_right]

lemma slice_header : slice (recordHeader o ++ rest) 0 zjHeaderBytes = recordHeader o := by
  simp [slice]

end Header

/-- The header of a valid observation frames its record. -/
lemma zjRecordLength_recordHeader {o : ZjObservation} (h : zjObservationValid o = true)
    (rest : List UInt8) : zjRecordLength (recordHeader o ++ rest) = some (recordBytes o) := by
  have hmark : slice (recordHeader o ++ rest) 0 4 = zjMarker := by
    simp [recordHeader, slice, zjMarker_eq]
  have hzero : slice (recordHeader o ++ rest) 22 2 = le 2 0 := by
    simp [recordHeader, slice, zjMarker_eq, List.drop_append, List.drop_eq_nil_of_le]
  have hraw : o.raw.length ≠ 0 := (raw_of_valid h).1.ne'
  simp only [zjRecordLength, hmark, hzero, slice_header_sequence, slice_header_raw,
    slice_header_total, getD_header_format, getD_header_quality, unle_sequence h,
    unle_raw_length h, unle_recordBytes h, ZjRawFormat.ofByte_toByte, ZjTimeQuality.ofByte_toByte]
  apply if_pos
  exact ⟨trivial, rfl, rfl, (sequence_of_valid h).1, (sequence_of_valid h).2, rfl, hraw,
    (raw_of_valid h).2, rfl⟩

lemma recordObservation_recordPlain {o : ZjObservation} (h : zjObservationValid o = true)
    (rest : List UInt8) :
    recordObservation (recordHeader o ++ rest) (recordPlain o) = some o := by
  have p0 : slice (recordPlain o) 0 8 = le 8 o.capturedAtSeconds.toUInt64.toNat := by
    simp [recordPlain, slice]
  have p1 : slice (recordPlain o) 8 8 = le 8 o.capturedUptimeMs.toNat := by
    simp [recordPlain, slice]
  have p2 : slice (recordPlain o) 16 16 = o.sourceEpoch.val := by
    simp [recordPlain, slice, List.drop_append, List.drop_eq_nil_of_le]
  have p3 : slice (recordPlain o) 32 4 = le 4 o.sourceOrdinal.toNat := by
    simp [recordPlain, slice, List.drop_append, List.drop_eq_nil_of_le]
  have p4 : slice (recordPlain o) 36 4 = le 4 o.identityRevision.toNat := by
    simp [recordPlain, slice, List.drop_append, List.drop_eq_nil_of_le]
  have p5 : slice (recordPlain o) zjFactBytes o.raw.length = o.raw := by
    simp [recordPlain, slice, List.drop_append, List.drop_eq_nil_of_le, zjFactBytes]
  have hup : unle (le 8 o.capturedUptimeMs.toNat) = o.capturedUptimeMs.toNat :=
    unle_le_of_lt o.capturedUptimeMs.toNat_lt
  have hcap : unle (le 8 o.capturedAtSeconds.toUInt64.toNat) = o.capturedAtSeconds.toUInt64.toNat :=
    unle_le_of_lt o.capturedAtSeconds.toUInt64.toNat_lt
  have hord : unle (le 4 o.sourceOrdinal.toNat) = o.sourceOrdinal.toNat :=
    unle_le_of_lt o.sourceOrdinal.toNat_lt
  have hrev : unle (le 4 o.identityRevision.toNat) = o.identityRevision.toNat :=
    unle_le_of_lt o.identityRevision.toNat_lt
  have htime : unle (le 4 o.encodedTime.toNat) = o.encodedTime.toNat :=
    unle_le_of_lt o.encodedTime.toNat_lt
  have hsec : Int64.ofNat o.capturedAtSeconds.toUInt64.toNat = o.capturedAtSeconds := by
    apply Int64.toBitVec_inj.1
    simp [Int64.ofNat]
  simp only [recordObservation, getD_header_format, getD_header_quality, slice_header_sequence,
    slice_header_time, slice_header_raw, unle_sequence h, unle_raw_length h, p0, p1, p2, p3, p4, p5,
    hup, hcap, hord, hrev, htime, hsec, ZjRawFormat.ofByte_toByte, ZjTimeQuality.ofByte_toByte,
    Block.ofList_val, UInt64.ofNat_toNat, UInt32.ofNat_toNat, Option.bind_eq_bind, Option.bind_some,
    h, captured_of_valid h, and_self, if_true]

/-- What framing accepts starts with the marker and has the length of a record. -/
lemma marker_of_zjRecordLength {b : List UInt8} {n : Nat} (h : zjRecordLength b = some n) :
    slice b 0 4 = zjMarker ∧ zjHeaderBytes + zjFactBytes + zjTagBytes < n ∧ n ≤ zjRecordMax := by
  simp only [zjRecordLength] at h
  split_ifs at h with hv
  obtain ⟨hmark, -, -, -, -, -, hraw, hmax, -⟩ := hv
  cases h
  refine ⟨hmark, ?_, ?_⟩
  · omega
  · simp only [zjRecordMax]
    omega

section Crypto

variable {crypto : ZjCrypto} {metadata record : List UInt8} {o : ZjObservation}

lemma zjRecordEncode_ok {capacity : Nat}
    (h : zjRecordEncode crypto metadata o capacity = .ok record) :
    zjObservationValid o = true ∧ (zjMetadataDecode metadata).isSome ∧
      recordBytes o ≤ capacity ∧ ∃ cipher tag,
        crypto.sealBytes metadata (nonceFor o.sequence) (metadata ++ recordHeader o)
          (recordPlain o) = some (cipher, tag) ∧
        record = recordHeader o ++ cipher ++ tag.val := by
  simp only [zjRecordEncode] at h
  split_ifs at h with hv hc
  simp only [Bool.or_eq_true, Bool.not_eq_true', not_or, Bool.not_eq_false,
    Option.isNone_iff_eq_none] at hv
  split at h
  · cases h
  · rename_i cipher tag hseal
    cases h
    exact ⟨hv.1, Option.ne_none_iff_isSome.1 hv.2, not_lt.1 hc, cipher, tag, hseal, rfl⟩

lemma length_of_zjRecordEncode {capacity : Nat}
    (h : zjRecordEncode crypto metadata o capacity = .ok record) :
    record.length = recordBytes o := by
  obtain ⟨-, -, -, cipher, tag, hseal, rfl⟩ := zjRecordEncode_ok h
  have hlen := crypto.length_sealBytes hseal
  simp only [List.length_append, length_recordHeader, hlen, length_recordPlain, Block.length_val,
    recordBytes, zjTagBytes]
  omega

/-- A sealed record that the cipher opens again decodes to the observation it was made from. -/
lemma zjRecordDecode_encode {capacity : Nat} {log : List ZjSealed}
    (h : zjRecordEncode crypto metadata o capacity = .ok record)
    (hopen : ∀ cipher tag, record = recordHeader o ++ cipher ++ tag →
      cipher.length = (recordPlain o).length →
      crypto.openBytes log metadata (nonceFor o.sequence) (metadata ++ recordHeader o) cipher tag =
        some (recordPlain o)) :
    zjRecordDecode crypto log metadata record = .ok o := by
  have hlen := length_of_zjRecordEncode h
  obtain ⟨hv, hmeta, -, cipher, tag, hseal, hrec⟩ := zjRecordEncode_ok h
  have hclen := crypto.length_sealBytes hseal
  have hopen := hopen cipher tag.val hrec hclen
  have hshape : record = recordHeader o ++ (cipher ++ tag.val) := by
    rw [hrec, List.append_assoc]
  have hframe : zjRecordLength record = some record.length := by
    rw [hlen, hshape, zjRecordLength_recordHeader hv]
  have hcipher : slice record zjHeaderBytes (record.length - zjHeaderBytes - zjTagBytes) =
      cipher := by
    have : record.length - zjHeaderBytes - zjTagBytes = cipher.length := by
      rw [hlen, hclen, length_recordPlain, recordBytes]
      omega
    rw [this, hshape, slice_append_right (by simp)]
    simp [slice]
  have htag : slice record (record.length - zjTagBytes) zjTagBytes = tag.val := by
    have : record.length - zjTagBytes = (recordHeader o ++ cipher).length := by
      rw [hlen, List.length_append, hclen, length_recordPlain, length_recordHeader, recordBytes]
      omega
    rw [this, hrec, slice_append_right le_rfl]
    simp [slice, zjTagBytes, List.take_of_length_le]
  have hshort : ¬record.length < zjHeaderBytes := by
    rw [hlen, recordBytes]
    omega
  simp only [zjRecordDecode, hframe, hcipher, htag]
  rw [if_neg (by simp [hshort, Option.isSome_iff_ne_none.1 hmeta])]
  rw [hshape, slice_header, slice_header_sequence, unle_sequence hv, hopen]
  simp only [recordObservation_recordPlain hv]

lemma zjRecordDecode_ok {log : List ZjSealed}
    (h : zjRecordDecode crypto log metadata record = .ok o) :
    zjRecordLength record = some record.length ∧ ∃ plain,
      crypto.openBytes log metadata (nonceFor (unle (slice record 8 8)))
        (metadata ++ slice record 0 zjHeaderBytes)
        (slice record zjHeaderBytes (record.length - zjHeaderBytes - zjTagBytes))
        (slice record (record.length - zjTagBytes) zjTagBytes) = some plain ∧
      recordObservation record plain = some o := by
  simp only [zjRecordDecode] at h
  split_ifs at h with hv
  simp only [Bool.or_eq_true, decide_eq_true_eq, not_or, not_not] at hv
  split at h
  · cases h
  · rename_i plain hopen
    split at h
    · cases h
    · rename_i o' ho
      cases h
      exact ⟨hv.2, plain, hopen, ho⟩

lemma valid_of_recordObservation {plain : List UInt8}
    (h : recordObservation record plain = some o) : zjObservationValid o = true := by
  simp only [recordObservation, Option.bind_eq_bind, Option.bind_eq_some_iff] at h
  obtain ⟨format, -, quality, -, h⟩ := h
  split_ifs at h with hv
  cases h
  exact hv.2

lemma valid_of_zjRecordDecode {log : List ZjSealed}
    (h : zjRecordDecode crypto log metadata record = .ok o) : zjObservationValid o = true := by
  obtain ⟨-, plain, -, ho⟩ := zjRecordDecode_ok h
  exact valid_of_recordObservation ho

end Crypto

end ZoneLite
