import AutoAttn.Journal.Spec

/-!
# One encoding for each value

Every header that `zj_metadata_decode` accepts is the encoding of the value that it returns, because the code encodes
that value again. A record has no such check. There every byte is compared, bounded or authenticated, so that a record
is the encoding of the observation that it decodes to, if the cipher opens only what it sealed.
-/

namespace ZoneLite

open Bytes

/-! ### Metadata -/

/-- `zj_metadata_t`, with the texts as they lie in memory. -/
structure ZjMetadataBuffers where
  segmentId : Nat
  captureEpoch : Block 16
  terminalSerial : Block 81
  decoderProfile : Block 65
  decoderVersion : Block 33
deriving DecidableEq

namespace ZjMetadataBuffers

/-- What the code reads of the texts. -/
def texts (m : ZjMetadataBuffers) : ZjMetadata where
  segmentId := m.segmentId
  captureEpoch := m.captureEpoch
  terminalSerial := cstr m.terminalSerial.val
  decoderProfile := cstr m.decoderProfile.val
  decoderVersion := cstr m.decoderVersion.val

/-- `zj_metadata_encode` -/
def encode (m : ZjMetadataBuffers) : Option (List UInt8) := zjMetadataEncode m.texts

/-- `zj_metadata_decode` -/
def decode (b : List UInt8) : Option ZjMetadataBuffers :=
  if slice b 0 8 ≠ ascii "ZJ270S01" ∨ unle (slice b 8 2) ≠ 1 ∨ unle (slice b 10 2) ≠ zjMetaBytes
  then none
  else
    let candidate : ZjMetadataBuffers :=
      { segmentId := unle (slice b 16 8)
        captureEpoch := .ofList 16 (slice b 24 16)
        terminalSerial := .ofList 81 (slice b 40 81)
        decoderProfile := .ofList 65 (slice b 121 65)
        decoderVersion := .ofList 33 (slice b 186 33) }
    if candidate.encode = some b then some candidate else none

/-- Nothing but zeros stands behind a text. -/
structure Padded (m : ZjMetadataBuffers) : Prop where
  terminalSerial : m.terminalSerial.val = field 81 (cstr m.terminalSerial.val)
  decoderProfile : m.decoderProfile.val = field 65 (cstr m.decoderProfile.val)
  decoderVersion : m.decoderVersion.val = field 33 (cstr m.decoderVersion.val)

lemma decode_encode {m : ZjMetadataBuffers} {b : List UInt8} (h : m.encode = some b) (hpadded : m.Padded) :
    decode b = some m := by
  obtain ⟨hmagic, hversion, hbytes, hsegment, hepoch, hserial, hprofile, hdecoder⟩ := layout_of_zjMetadataEncode h
  have hserial : slice b 40 81 = m.terminalSerial.val := hserial.trans hpadded.terminalSerial.symm
  have hprofile : slice b 121 65 = m.decoderProfile.val := hprofile.trans hpadded.decoderProfile.symm
  have hdecoder : slice b 186 33 = m.decoderVersion.val := hdecoder.trans hpadded.decoderVersion.symm
  have hsegment : unle (slice b 16 8) = m.segmentId := hsegment
  have hepoch : slice b 24 16 = m.captureEpoch.val := hepoch
  simp only [decode, hmagic, hversion, hbytes, hsegment, hepoch, hserial, hprofile, hdecoder, Block.ofList_val, h,
    if_true]
  rw [if_neg (by decide)]

lemma encode_of_decode {m : ZjMetadataBuffers} {b : List UInt8} (h : decode b = some m) : m.encode = some b := by
  simp only [decode] at h
  split_ifs at h with hframe hsame
  cases h
  exact hsame

end ZjMetadataBuffers

/-! ### Records -/

lemma ZjRawFormat.toByte_of_ofByte {b : UInt8} {f : ZjRawFormat} (h : ofByte b = some f) : f.toByte = b := by
  simpa using List.find?_some h

lemma ZjTimeQuality.toByte_of_ofByte {b : UInt8} {q : ZjTimeQuality} (h : ofByte b = some q) : q.toByte = b := by
  simpa using List.find?_some h

lemma slice_one {b : List UInt8} {i : Nat} (h : i < b.length) : slice b i 1 = [b.getD i 0] := by
  rw [slice, List.drop_eq_getElem_cons h, List.getD_eq_getElem?_getD, List.getElem?_eq_getElem h]
  rfl

section

variable {record plain : List UInt8} {o : ZjObservation}

/-- Every byte of the header is determined by the observation. -/
lemma recordHeader_of_recordObservation (hlength : zjHeaderBytes ≤ record.length)
    (hframe : zjRecordLength record = some record.length) (h : recordObservation record plain = some o)
    (hraw : o.raw.length = unle (slice record 20 2)) : recordHeader o = slice record 0 zjHeaderBytes := by
  simp only [zjHeaderBytes] at hlength
  simp only [zjRecordLength] at hframe
  split_ifs at hframe with hv
  obtain ⟨hmarker, -, -, -, -, hzero, -, -, htotal⟩ := hv
  simp only [recordObservation, Option.bind_eq_bind, Option.bind_eq_some_iff] at h
  obtain ⟨format, hformat, quality, hquality, h⟩ := h
  split_ifs at h
  have hslice {off n : Nat} (hle : off + n ≤ 24) : le n (unle (slice record off n)) = slice record off n :=
    le_unle (length_slice_of_le (hle.trans hlength))
  have htime : (UInt32.ofNat (unle (slice record 16 4))).toNat = unle (slice record 16 4) := by
    refine UInt32.toNat_ofNat_of_lt' ?_
    have hlt := unle_lt (slice record 16 4)
    rwa [length_slice_of_le (by omega)] at hlt
  have hsplit : slice record 0 zjHeaderBytes = slice record 0 4 ++ slice record 4 2 ++ slice record 6 1 ++
      slice record 7 1 ++ slice record 8 8 ++ slice record 16 4 ++ slice record 20 2 ++ slice record 22 2 := by
    rw [slice_append_slice record 0 4 2, slice_append_slice record 0 6 1, slice_append_slice record 0 7 1,
      slice_append_slice record 0 8 8, slice_append_slice record 0 16 4, slice_append_slice record 0 20 2,
      slice_append_slice record 0 22 2]
    rfl
  cases h
  rw [hsplit, recordHeader, hraw, ← htotal, hslice (by omega), hmarker, slice_one (by omega), slice_one (by omega),
    ZjRawFormat.toByte_of_ofByte hformat, ZjTimeQuality.toByte_of_ofByte hquality, htime, hslice (by omega),
    hslice (by omega), hslice (by omega), ← hzero, hslice (by omega)]
  simp only [List.append_assoc, List.cons_append, List.nil_append]

/-- Every byte that was sealed is determined by the observation. -/
lemma recordPlain_of_recordObservation (hlength : plain.length = zjFactBytes + unle (slice record 20 2))
    (h : recordObservation record plain = some o) :
    recordPlain o = plain ∧ o.raw.length = unle (slice record 20 2) := by
  simp only [zjFactBytes] at hlength
  simp only [recordObservation, Option.bind_eq_bind, Option.bind_eq_some_iff] at h
  obtain ⟨format, -, quality, -, h⟩ := h
  split_ifs at h with hv
  cases h
  have hlt {off n : Nat} (hle : off + n ≤ 40) : unle (slice plain off n) < 256 ^ n := by
    have hlt := unle_lt (slice plain off n)
    rwa [length_slice_of_le (by omega)] at hlt
  have hslice {off n : Nat} (hle : off + n ≤ 40) : le n (unle (slice plain off n)) = slice plain off n :=
    le_unle (length_slice_of_le (by omega))
  have hseconds : (Int64.ofNat (unle (slice plain 0 8))).toUInt64.toNat = unle (slice plain 0 8) := by
    change (BitVec.ofNat 64 (unle (slice plain 0 8))).toNat = _
    rw [BitVec.toNat_ofNat]
    exact Nat.mod_eq_of_lt (hlt (by omega))
  have huptime : (UInt64.ofNat (unle (slice plain 8 8))).toNat = unle (slice plain 8 8) :=
    UInt64.toNat_ofNat_of_lt' (hlt (by omega))
  have hordinal : (UInt32.ofNat (unle (slice plain 32 4))).toNat = unle (slice plain 32 4) :=
    UInt32.toNat_ofNat_of_lt' (hlt (by omega))
  have hrevision : (UInt32.ofNat (unle (slice plain 36 4))).toNat = unle (slice plain 36 4) :=
    UInt32.toNat_ofNat_of_lt' (hlt (by omega))
  have hraw : (slice plain zjFactBytes (unle (slice record 20 2))).length = unle (slice record 20 2) :=
    length_slice_of_le (by rw [hlength, zjFactBytes])
  refine ⟨?_, hraw⟩
  dsimp only [recordPlain]
  rw [hseconds, huptime, hordinal, hrevision, hslice (by omega), hslice (by omega), hslice (by omega),
    hslice (by omega), Block.val_ofList (length_slice_of_le (by omega)), slice_append_slice plain 0 8 8,
    slice_append_slice plain 0 16 16, slice_append_slice plain 0 32 4, slice_append_slice plain 0 36 4,
    show zjFactBytes = 0 + (36 + 4) from rfl, slice_append_slice, ← hlength, slice_self]

lemma sequence_of_recordObservation (h : recordObservation record plain = some o) :
    o.sequence = unle (slice record 8 8) := by
  simp only [recordObservation, Option.bind_eq_bind, Option.bind_eq_some_iff] at h
  obtain ⟨format, -, quality, -, h⟩ := h
  split_ifs at h
  cases h
  rfl

/-- A cipher that opens exactly what it seals. -/
structure ZjCrypto.Exact (crypto : ZjCrypto) : Prop where
  seals : ∀ metadata nonce aad plain, (crypto.sealBytes metadata nonce aad plain).isSome
  opens : ∀ log metadata nonce aad cipher (tag : Block 16) plain,
    crypto.openBytes log metadata nonce aad cipher tag.val = some plain ↔
      crypto.sealBytes metadata nonce aad plain = some (cipher, tag)

variable {crypto : ZjCrypto} {metadata : List UInt8} {log : List ZjSealed} {capacity : Nat}

lemma zjRecordEncode_eq_ok (hvalid : zjObservationValid o = true) (hmetadata : (zjMetadataDecode metadata).isSome)
    (hcapacity : recordBytes o ≤ capacity) {cipher : List UInt8} {tag : Block 16}
    (hseal : crypto.sealBytes metadata (nonceFor o.sequence) (metadata ++ recordHeader o) (recordPlain o) =
      some (cipher, tag)) :
    zjRecordEncode crypto metadata o capacity = .ok (recordHeader o ++ cipher ++ tag.val) := by
  have hsome : (zjMetadataDecode metadata).isNone = false := by
    rw [← Option.not_isSome, hmetadata]
    rfl
  have hroom : ¬ capacity < zjHeaderBytes + zjFactBytes + o.raw.length + zjTagBytes := not_lt.mpr hcapacity
  simp [zjRecordEncode, hvalid, hsome, hroom, hseal]

/-- A valid observation is encoded and read back. -/
lemma ZjCrypto.Exact.decode_encode (hexact : crypto.Exact) (hvalid : zjObservationValid o = true)
    (hmetadata : (zjMetadataDecode metadata).isSome) (hcapacity : recordBytes o ≤ capacity) :
    ∃ record, zjRecordEncode crypto metadata o capacity = .ok record ∧
      zjRecordLength (record.take zjHeaderBytes) = some record.length ∧
      ∀ log, zjRecordDecode crypto log metadata record = .ok o := by
  obtain ⟨⟨cipher, tag⟩, hseal⟩ := Option.isSome_iff_exists.mp
    (hexact.seals metadata (nonceFor o.sequence) (metadata ++ recordHeader o) (recordPlain o))
  have hencode := zjRecordEncode_eq_ok hvalid hmetadata hcapacity hseal
  refine ⟨_, hencode, ?_, fun log => zjRecordDecode_encode hencode ?_⟩
  · have htake : (recordHeader o ++ cipher ++ tag.val).take zjHeaderBytes = recordHeader o ++ [] := by
      rw [List.append_assoc, List.append_nil]
      exact List.take_left' (length_recordHeader o)
    rw [htake, zjRecordLength_recordHeader hvalid, length_of_zjRecordEncode hencode]
  · intro cipher' tag' hsame hlength
    have hcipher := crypto.length_sealBytes hseal
    obtain ⟨hfront, rfl⟩ := List.append_inj hsame (by simp [hcipher, hlength])
    obtain rfl := List.append_cancel_left hfront
    exact (hexact.opens log _ _ _ _ tag _).mpr hseal

lemma metadata_of_zjRecordDecode (h : zjRecordDecode crypto log metadata record = .ok o) :
    (zjMetadataDecode metadata).isSome := by
  simp only [zjRecordDecode] at h
  split_ifs at h with hv
  simp only [Bool.or_eq_true, not_or, Option.isNone_iff_eq_none] at hv
  exact Option.isSome_iff_ne_none.mpr hv.1.2

lemma length_of_zjRecordLength (h : zjRecordLength record = some record.length) :
    record.length = zjHeaderBytes + zjFactBytes + unle (slice record 20 2) + zjTagBytes := by
  simp only [zjRecordLength] at h
  split_ifs at h
  exact (Option.some.inj h).symm

/-- A record that is accepted is the encoding of what it decodes to. -/
lemma ZjCrypto.Exact.encode_of_decode (hexact : crypto.Exact)
    (h : zjRecordDecode crypto log metadata record = .ok o) (hcapacity : record.length ≤ capacity) :
    zjRecordEncode crypto metadata o capacity = .ok record := by
  obtain ⟨hframe, plain, hopen, hobservation⟩ := zjRecordDecode_ok h
  have hlength := length_of_zjRecordLength hframe
  have hplain : plain.length = zjFactBytes + unle (slice record 20 2) := by
    rw [crypto.length_openBytes hopen, length_slice]
    omega
  obtain ⟨hsealed, hraw⟩ := recordPlain_of_recordObservation hplain hobservation
  have hheader := recordHeader_of_recordObservation (by omega) hframe hobservation hraw
  have hsequence : o.sequence = unle (slice record 8 8) := sequence_of_recordObservation hobservation
  have htag : (slice record (record.length - zjTagBytes) zjTagBytes).length = 16 := length_slice_of_le (by omega)
  rw [← hheader, ← hsequence, ← hsealed] at hopen
  have hseal := (hexact.opens log _ _ _ _ ⟨_, htag⟩ _).mp hopen
  have hbytes : recordBytes o = record.length := by rw [recordBytes, hraw, ← hlength]
  have hrecord : slice record 0 zjHeaderBytes ++
      slice record zjHeaderBytes (record.length - zjHeaderBytes - zjTagBytes) ++
      slice record (record.length - zjTagBytes) zjTagBytes = record := by
    have hcipher := slice_append_slice record 0 zjHeaderBytes (record.length - zjHeaderBytes - zjTagBytes)
    have hrest := slice_append_slice record 0 (record.length - zjTagBytes) zjTagBytes
    rw [Nat.zero_add] at hcipher hrest
    rw [hcipher, show zjHeaderBytes + (record.length - zjHeaderBytes - zjTagBytes) = record.length - zjTagBytes by omega,
      hrest, Nat.sub_add_cancel (by omega), slice_self]
  rw [zjRecordEncode_eq_ok (valid_of_recordObservation hobservation) (metadata_of_zjRecordDecode h)
    (hbytes.trans_le hcapacity) hseal, hheader, hrecord]

end

/-! ### Round trips -/

/-- Metadata and records are read back as they were written, and what is accepted was written so. -/
theorem codec_canonical (crypto : ZjCrypto) (hexact : crypto.Exact) :
    (∀ (m : ZjMetadataBuffers) b, m.encode = some b → m.Padded →
      b.length = zjMetaBytes ∧ ZjMetadataBuffers.decode b = some m) ∧
    (∀ (m : ZjMetadataBuffers) b, b.length = zjMetaBytes → ZjMetadataBuffers.decode b = some m → m.encode = some b) ∧
    (∀ metadata o capacity, zjObservationValid o = true → (zjMetadataDecode metadata).isSome →
      recordBytes o ≤ capacity → ∃ record, zjRecordEncode crypto metadata o capacity = .ok record ∧
        zjRecordLength (record.take zjHeaderBytes) = some record.length ∧
        ∀ log, zjRecordDecode crypto log metadata record = .ok o) ∧
    (∀ log metadata record o, zjRecordDecode crypto log metadata record = .ok o →
      ∀ capacity, record.length ≤ capacity → zjRecordEncode crypto metadata o capacity = .ok record) := by
  refine ⟨?_, ?_, ?_, ?_⟩
  · intro m b h hpadded
    exact ⟨length_of_zjMetadataEncode h, ZjMetadataBuffers.decode_encode h hpadded⟩
  · exact fun m b _ h => ZjMetadataBuffers.encode_of_decode h
  · exact fun metadata o capacity => hexact.decode_encode
  · exact fun log metadata record o h capacity => hexact.encode_of_decode h

/-- A cipher that hides nothing and marks all that it seals alike. -/
def copyCrypto : ZjCrypto where
  sealBytes := plainCrypto.sealBytes
  openBytes _ _ _ _ cipher tag := if tag = (Block.zero 16).val then some cipher else none
  digest _ := none
  length_sealBytes := plainCrypto.length_sealBytes
  length_openBytes h := by
    split_ifs at h
    cases h
    rfl

lemma copyCrypto_exact : copyCrypto.Exact := by
  refine ⟨fun _ _ _ _ => rfl, ?_⟩
  intro log metadata nonce aad cipher tag plain
  simp only [copyCrypto, plainCrypto]
  constructor
  · intro h
    split_ifs at h with htag
    cases h
    rw [Subtype.ext htag]
  · intro h
    cases h
    exact if_pos rfl

def paddedMetadata : ZjMetadataBuffers where
  segmentId := 1
  captureEpoch := .ofList 16 [1]
  terminalSerial := .ofList 81 (ascii "A1")
  decoderProfile := .ofList 65 (ascii "tcp")
  decoderVersion := .ofList 33 (ascii "1.0")

def shortObservation : ZjObservation where
  sequence := 1
  rawFormat := .liveFrame
  timeQuality := .verified
  encodedTime := 7
  capturedAtSeconds := 5
  capturedUptimeMs := 9
  sourceEpoch := .zero 16
  sourceOrdinal := 0xffffffff
  identityRevision := 1
  raw := [1, 2, 3]

theorem codec_canonical_copyCrypto : copyCrypto.Exact ∧ paddedMetadata.Padded ∧ zjObservationValid shortObservation ∧
    ∃ metadata, ZjMetadataBuffers.decode metadata = some paddedMetadata ∧
      ∃ record, zjRecordEncode copyCrypto metadata shortObservation 600 = .ok record ∧
        ∀ log, zjRecordDecode copyCrypto log metadata record = .ok shortObservation := by
  have hpadded : paddedMetadata.Padded := ⟨by decide +kernel, by decide +kernel, by decide +kernel⟩
  have hvalid : zjObservationValid shortObservation = true := by decide +kernel
  obtain ⟨metadata, hmetadata⟩ : ∃ metadata, paddedMetadata.encode = some metadata :=
    Option.isSome_iff_exists.mp (by decide +kernel)
  obtain ⟨hround, -, hrecord, -⟩ := codec_canonical copyCrypto copyCrypto_exact
  have hdecode : (zjMetadataDecode metadata).isSome := by
    rw [zjMetadataDecode_encode hmetadata]
    rfl
  obtain ⟨record, hencode, -, hback⟩ := hrecord metadata shortObservation 600 hvalid hdecode (by decide +kernel)
  exact ⟨copyCrypto_exact, hpadded, hvalid, metadata, (hround _ _ hmetadata hpadded).2, record, hencode, hback⟩

end ZoneLite
