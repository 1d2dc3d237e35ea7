import AutoAttn.Journal.Drain

/-!
# What storage holds

The records of a segment follow each other from the header on, and the cursor is never inside one
of them. This is stated about storage alone, so that it makes sense at every instant; what the
store in memory knows about storage comes on top.
-/

namespace ZoneLite

open Bytes Crash

/-- An ideal cipher: it opens what was sealed, and nothing else. -/
structure ZjCrypto.Ideal (crypto : ZjCrypto) : Prop where
  sound : ∀ {log : List ZjSealed} {m n a c t p : List UInt8}, crypto.openBytes log m n a c t = some p →
    ∃ e ∈ log, e.metadata = m ∧ n = nonceFor e.observation.sequence ∧
      a = m ++ recordHeader e.observation ∧ e.record = recordHeader e.observation ++ c ++ t ∧
      p = recordPlain e.observation
  complete : ∀ {log : List ZjSealed} {e : ZjSealed} {c t : List UInt8}, e ∈ log →
    e.record = recordHeader e.observation ++ c ++ t →
    c.length = (recordPlain e.observation).length →
    (crypto.openBytes log e.metadata (nonceFor e.observation.sequence)
      (e.metadata ++ recordHeader e.observation) c t).isSome

namespace ZjSealed

/-- The segment the record was sealed for. -/
def segment (e : ZjSealed) : Nat := ((zjMetadataDecode e.metadata).map (·.segmentId)).getD 0

def sequence (e : ZjSealed) : Nat := e.observation.sequence

def stop (e : ZjSealed) : Nat := e.offset + e.record.length

end ZjSealed

namespace Journal

variable {crypto : ZjCrypto} {log : List ZjSealed} {e x : ZjSealed}

/-! ### Sealed records -/

/-- How a record came to be sealed. -/
structure Genuine (crypto : ZjCrypto) (e : ZjSealed) : Prop where
  encoded : zjRecordEncode crypto e.metadata e.observation zjRecordMax = .ok e.record
  ordered : e.segment < e.sequence

/-- `x` was sealed before `e`: all of its numbers were handed out before `e`'s, unless they share
the segment. -/
def Earlier (x e : ZjSealed) : Prop :=
  x.sequence < e.sequence ∧ (x.segment = e.segment ∨ x.sequence < e.segment)

/-- The log, latest first. -/
def InOrder (log : List ZjSealed) : Prop := log.Pairwise fun e x => Earlier x e

lemma Genuine.valid (h : Genuine crypto e) : zjObservationValid e.observation = true :=
  (zjRecordEncode_ok h.encoded).1

lemma Genuine.length (h : Genuine crypto e) : e.record.length = recordBytes e.observation :=
  length_of_zjRecordEncode h.encoded

lemma Genuine.pos (h : Genuine crypto e) : 0 < e.record.length := by
  rw [h.length, recordBytes]
  have := (raw_of_valid h.valid).1
  omega

lemma InOrder.earlier_or (h : InOrder log) (hx : x ∈ log) (he : e ∈ log) :
    x = e ∨ Earlier x e ∨ Earlier e x := by
  induction h with
  | nil => cases hx
  | cons hall _ ih =>
    rcases List.mem_cons.1 hx with rfl | hx' <;> rcases List.mem_cons.1 he with rfl | he'
    · exact .inl rfl
    · exact .inr (.inr (hall e he'))
    · exact .inr (.inl (hall x hx'))
    · exact ih hx' he'

/-- A sequence number is sealed once. -/
lemma InOrder.eq_of_sequence (h : InOrder log) (hx : x ∈ log) (he : e ∈ log)
    (hs : x.sequence = e.sequence) : x = e := by
  rcases h.earlier_or hx he with h | h | h
  · exact h
  · exact absurd h.1 (by omega)
  · exact absurd h.1 (by omega)

/-- Sequence numbers grow with the segments they are in. -/
lemma InOrder.sequence_lt (h : InOrder log) (hx : x ∈ log) (he : e ∈ log)
    (hgx : Genuine crypto x) (hge : Genuine crypto e) (hs : x.segment < e.segment) :
    x.sequence < e.sequence := by
  rcases h.earlier_or hx he with rfl | h | h
  · exact absurd hs (lt_irrefl _)
  · exact h.1
  · rcases h.2 with h' | h'
    · omega
    · have := hgx.ordered
      have := hge.ordered
      omega

section Ideal

variable (hi : crypto.Ideal) (ho : InOrder log) (hg : ∀ e ∈ log, Genuine crypto e)
include hi ho hg

/-- What was sealed is decoded to what it was sealed from. -/
lemma decode_sealed (he : e ∈ log) :
    zjRecordDecode crypto log e.metadata e.record = .ok e.observation := by
  refine zjRecordDecode_encode (hg e he).encoded fun cipher tag hrec hlen => ?_
  obtain ⟨p, hp⟩ := Option.isSome_iff_exists.1 (hi.complete he hrec hlen)
  obtain ⟨x, hx, -, hnonce, -, -, rfl⟩ := hi.sound hp
  have hseq : x.sequence = e.sequence := by
    have := congrArg unle (List.append_cancel_left hnonce)
    rw [unle_sequence (hg x hx).valid, unle_sequence (hg e he).valid] at this
    exact this.symm
  rw [hp, ho.eq_of_sequence hx he hseq]

omit ho in
/-- What is decoded was sealed. -/
lemma sealed_of_decode {metadata record : List UInt8} {o : ZjObservation}
    (h : zjRecordDecode crypto log metadata record = .ok o) :
    ∃ e ∈ log, e.metadata = metadata ∧ e.record = record ∧ e.observation = o := by
  obtain ⟨hframe, plain, hopen, hobs⟩ := zjRecordDecode_ok h
  obtain ⟨e, he, hm, -, haad, hrec, rfl⟩ := hi.sound hopen
  have hhead := List.append_cancel_left haad
  have hlen := (marker_of_zjRecordLength hframe).2.1
  have hrecord : e.record = record := by
    rw [hrec, ← hhead]
    have h1 := slice_append_slice record 0 zjHeaderBytes
      (record.length - zjHeaderBytes - zjTagBytes)
    have h2 := slice_append_slice record 0
      (zjHeaderBytes + (record.length - zjHeaderBytes - zjTagBytes)) zjTagBytes
    rw [Nat.zero_add] at h1 h2
    rw [h1, show record.length - zjTagBytes =
      zjHeaderBytes + (record.length - zjHeaderBytes - zjTagBytes) by omega, h2,
      show zjHeaderBytes + (record.length - zjHeaderBytes - zjTagBytes) + zjTagBytes =
        record.length by omega, slice_self]
  refine ⟨e, he, hm, hrecord, ?_⟩
  rw [← hrecord, hrec, List.append_assoc, recordObservation_recordPlain (hg e he).valid] at hobs
  exact Option.some.inj hobs

end Ideal

/-! ### The records of a segment -/

def flat (recs : List ZjSealed) : List UInt8 := recs.flatMap (·.record)

/-- The records follow each other from `off` on, with growing sequence numbers. -/
def Contiguous : Nat → List ZjSealed → Prop
  | _, []        => True
  | off, e :: es => e.offset = off ∧ (∀ x ∈ es, e.sequence < x.sequence) ∧ Contiguous e.stop es

namespace Contiguous

variable {off : Nat} {recs : List ZjSealed}

lemma concat (h : Contiguous off recs) (he : e.offset = off + (flat recs).length)
    (hs : ∀ x ∈ recs, x.sequence < e.sequence) : Contiguous off (recs ++ [e]) := by
  induction recs generalizing off with
  | nil => exact ⟨by simpa [flat] using he, by simp, trivial⟩
  | cons r rs ih =>
    obtain ⟨hoff, hlt, hrest⟩ := h
    refine ⟨hoff, ?_, ih hrest ?_ fun x hx => hs x (List.mem_cons_of_mem _ hx)⟩
    · intro x hx
      rcases List.mem_append.1 hx with hx | hx
      · exact hlt x hx
      · rw [List.mem_singleton.1 hx]
        exact hs r List.mem_cons_self
    · simp only [flat, List.flatMap_cons, List.length_append] at he ⊢
      rw [ZjSealed.stop]
      omega

lemma bounds (h : Contiguous off recs) (he : e ∈ recs) :
    off ≤ e.offset ∧ e.stop ≤ off + (flat recs).length := by
  induction recs generalizing off with
  | nil => cases he
  | cons r rs ih =>
    obtain ⟨hoff, -, hrest⟩ := h
    simp only [flat, List.flatMap_cons, List.length_append]
    rcases List.mem_cons.1 he with rfl | he
    · rw [ZjSealed.stop]
      omega
    · have := ih hrest he
      simp only [flat, ZjSealed.stop] at this ⊢
      omega

lemma slice_flat (h : Contiguous off recs) (he : e ∈ recs) :
    slice (flat recs) (e.offset - off) e.record.length = e.record := by
  induction recs generalizing off with
  | nil => cases he
  | cons r rs ih =>
    obtain ⟨hoff, -, hrest⟩ := h
    simp only [flat, List.flatMap_cons]
    rcases List.mem_cons.1 he with rfl | he
    · rw [hoff, Nat.sub_self, slice_append_left (by omega), slice_self]
    · have hb := (hrest.bounds he).1
      rw [ZjSealed.stop] at hb
      have hoff' : e.offset - off - r.record.length = e.offset - r.stop := by
        rw [ZjSealed.stop]
        omega
      rw [slice_append_right (by omega), hoff']
      exact ih hrest he

/-- A place that is inside no record is the start of one, or behind them all. -/
lemma starts_or (h : Contiguous off recs) {p : Nat} (hp : off ≤ p)
    (hout : ∀ e ∈ recs, p ≤ e.offset ∨ e.stop ≤ p) :
    (∃ e ∈ recs, e.offset = p) ∨ off + (flat recs).length ≤ p := by
  induction recs generalizing off with
  | nil => exact .inr (by simpa [flat] using hp)
  | cons r rs ih =>
    obtain ⟨hoff, -, hrest⟩ := h
    rcases hout r List.mem_cons_self with hle | hle
    · exact .inl ⟨r, List.mem_cons_self, by omega⟩
    · rcases ih hrest hle fun e he => hout e (List.mem_cons_of_mem _ he) with ⟨e, he, heq⟩ | hend
      · exact .inl ⟨e, List.mem_cons_of_mem _ he, heq⟩
      · refine .inr ?_
        simp only [flat, List.flatMap_cons, List.length_append, ZjSealed.stop] at hend ⊢
        omega

/-- Two records are apart, in the order of their sequence numbers. -/
lemma apart (h : Contiguous off recs) (he : e ∈ recs) (hx : x ∈ recs) :
    e = x ∨ (e.stop ≤ x.offset ∧ e.sequence < x.sequence) ∨
      (x.stop ≤ e.offset ∧ x.sequence < e.sequence) := by
  induction recs generalizing off with
  | nil => cases he
  | cons r rs ih =>
    obtain ⟨-, hlt, hrest⟩ := h
    rcases List.mem_cons.1 he with rfl | he' <;> rcases List.mem_cons.1 hx with rfl | hx'
    · exact .inl rfl
    · exact .inr (.inl ⟨(hrest.bounds hx').1, hlt x hx'⟩)
    · exact .inr (.inr ⟨(hrest.bounds he').1, hlt e he'⟩)
    · exact ih hrest he' hx'

/-- The records that end at `n` or before are the first ones. -/
lemma takeWhile (h : Contiguous off recs) (n : Nat) :
    Contiguous off (recs.takeWhile (·.stop ≤ n)) ∧
      (∀ e ∈ recs, e.stop ≤ n → e ∈ recs.takeWhile (·.stop ≤ n)) ∧
      (recs.takeWhile (·.stop ≤ n) ≠ [] →
        off + (flat (recs.takeWhile (·.stop ≤ n))).length ≤ n) := by
  induction recs generalizing off with
  | nil => exact ⟨trivial, by simp, by simp⟩
  | cons r rs ih =>
    obtain ⟨hoff, hlt, hrest⟩ := h
    obtain ⟨h1, h2, h3⟩ := ih hrest
    by_cases hr : r.stop ≤ n
    · rw [List.takeWhile_cons_of_pos (by simpa using hr)]
      refine ⟨⟨hoff, fun x hx => hlt x ((List.takeWhile_prefix _).subset hx), h1⟩, ?_, fun _ => ?_⟩
      · intro e he hstop
        rcases List.mem_cons.1 he with rfl | he
        · exact List.mem_cons_self
        · exact List.mem_cons_of_mem _ (h2 e he hstop)
      · have hstop : r.stop = r.offset + r.record.length := rfl
        simp only [flat, List.flatMap_cons, List.length_append] at h3 ⊢
        by_cases hnil : rs.takeWhile (·.stop ≤ n) = []
        · rw [hnil, List.flatMap_nil, List.length_nil]
          omega
        · have := h3 hnil
          omega
    · rw [List.takeWhile_cons_of_neg (by simpa using hr)]
      refine ⟨trivial, fun e he hstop => ?_, by simp⟩
      rcases List.mem_cons.1 he with rfl | he
      · exact absurd hstop hr
      · have := (hrest.bounds he).1
        rw [ZjSealed.stop] at hstop
        omega

end Contiguous

/-- A segment file: its header, its records, and a tail that is none. -/
structure Holds (log : List ZjSealed) (id : Nat) (bytes : List UInt8) (recs : List ZjSealed)
    (header tail : List UInt8) : Prop where
  named : ∃ m, zjMetadataDecode header = some m ∧ m.segmentId = id
  bytes_eq : bytes = header ++ flat recs ++ tail
  contiguous : Contiguous zjMetaBytes recs
  mine : ∀ e ∈ recs, e.metadata = header ∧ e ∈ log

namespace Holds

variable {id : Nat} {bytes header tail : List UInt8} {recs : List ZjSealed}

lemma length_header (h : Holds log id bytes recs header tail) : header.length = zjMetaBytes := by
  obtain ⟨m, hm, -⟩ := h.named
  exact length_of_zjMetadataEncode (zjMetadataEncode_of_decode hm)

lemma length_eq (h : Holds log id bytes recs header tail) :
    bytes.length = zjMetaBytes + (flat recs).length + tail.length := by
  rw [h.bytes_eq, List.length_append, List.length_append, h.length_header]

lemma headerOf (h : Holds log id bytes recs header tail) :
    ∃ m, Journal.headerOf id bytes = some (header, m) := by
  obtain ⟨m, hm, hid⟩ := h.named
  refine ⟨m, ?_⟩
  have hslice : slice bytes 0 zjMetaBytes = header := by
    rw [h.bytes_eq, List.append_assoc, slice_append_left (by rw [h.length_header]; omega),
      ← h.length_header, slice_self]
  rw [Journal.headerOf, hslice, hm]
  simp [hid]

lemma segment (h : Holds log id bytes recs header tail) (he : e ∈ recs) : e.segment = id := by
  obtain ⟨m, hm, hid⟩ := h.named
  rw [ZjSealed.segment, (h.mine e he).1, hm]
  exact hid

lemma slice_record (h : Holds log id bytes recs header tail) (he : e ∈ recs) :
    slice bytes e.offset e.record.length = e.record := by
  obtain ⟨hlo, hhi⟩ := h.contiguous.bounds he
  rw [ZjSealed.stop] at hhi
  rw [h.bytes_eq, slice_append_left (by rw [List.length_append, h.length_header]; omega),
    slice_append_right (by rw [h.length_header]; omega), h.length_header,
    h.contiguous.slice_flat he]

lemma stop_le (h : Holds log id bytes recs header tail) (he : e ∈ recs) :
    e.stop ≤ bytes.length := by
  have := (h.contiguous.bounds he).2
  rw [h.length_eq]
  omega

lemma authentic (h : Holds log id bytes recs header tail) (hi : crypto.Ideal) (ho : InOrder log)
    (hg : ∀ e ∈ log, Genuine crypto e) (he : e ∈ recs) :
    Authentic crypto log header bytes e.offset e.record.length e.observation := by
  obtain ⟨hm, hlog⟩ := h.mine e he
  have hslice := h.slice_record he
  refine ⟨?_, h.stop_le he, ?_⟩
  · obtain ⟨hv, -, -, cipher, tag, -, hrec⟩ := zjRecordEncode_ok (hg e hlog).encoded
    have hlen := (hg e hlog).length
    have hhead : slice bytes e.offset zjHeaderBytes = recordHeader e.observation := by
      rw [← Nat.add_zero e.offset, ← slice_slice (n := e.record.length), hslice, hrec,
        List.append_assoc, slice_header]
      rw [hlen, recordBytes]
      omega
    have := zjRecordLength_recordHeader hv []
    rw [List.append_nil] at this
    rw [hhead, this, (hg e hlog).length]
  · rw [hslice, ← hm]
    exact decode_sealed hi ho hg hlog

end Holds

/-- A tail that is the beginning of the last record sealed for the segment. -/
def Torn (log : List ZjSealed) (header : List UInt8) (off : Nat) (tail : List UInt8) : Prop :=
  tail = [] ∨ ∃ e ∈ log, e.metadata = header ∧ e.offset = off ∧ tail <+: e.record ∧
    tail.length < e.record.length ∧ ∀ x ∈ log, x.metadata = header → x.sequence ≤ e.sequence

/-- A file that holds the records `recs`. When nothing that was written is lost or changed, the
rest of the file is the beginning of a header, or of one more record. -/
def Layout (whole : Prop) (log : List ZjSealed) (id : Nat) (f : File) (recs : List ZjSealed) :
    Prop :=
  (recs = [] ∧ (whole → f.size < zjMetaBytes)) ∨ ∃ header tail,
    Holds log id f.bytes recs header tail ∧
      (whole → Torn log header (zjMetaBytes + (flat recs).length) tail)

/-! ### The cursor -/

/-- The cursor on storage. -/
def Stored.cursor (d : Stored) : ZjCheckpoint :=
  (d.checkpoint.bind parseCheckpoint).getD ⟨0, 0, 0, 0⟩

lemma Stored.cursor_bounds (d : Stored) : d.cursor.revision ≤ uint64Max ∧
    d.cursor.segment ≤ zjSequenceMax ∧ d.cursor.sequence ≤ zjSequenceMax := by
  unfold cursor
  cases h : d.checkpoint.bind parseCheckpoint with
  | none => exact ⟨Nat.zero_le _, Nat.zero_le _, Nat.zero_le _⟩
  | some c =>
    obtain ⟨cp, -, hcp⟩ := Option.bind_eq_some_iff.1 h
    exact bounds_of_parseCheckpoint hcp

/-- The byte `p` of segment `id` is before the cursor. -/
def Before (c : ZjCheckpoint) (id p : Nat) : Prop :=
  id < c.segment ∨ id = c.segment ∧ p < c.offset

/-- The byte `p` of segment `id` is in the extent of a settled token. -/
def Covered (settled : List ZjToken) (id p : Nat) : Prop :=
  ∃ t ∈ settled, t.segmentId = id ∧ t.offset ≤ p ∧ p < t.stop

lemma Covered.cons {settled : List ZjToken} {id p : Nat} (h : Covered settled id p)
    (t : ZjToken) : Covered (t :: settled) id p := by
  obtain ⟨t', ht', h⟩ := h
  exact ⟨t', List.mem_cons_of_mem _ ht', h⟩

/-! ### The invariant of storage -/

/-- `kept` are the records whose append succeeded, `settled` the tokens whose settlement reached
storage, and `recs` the records of each segment. -/
structure Sound (crypto : ZjCrypto) (whole : Prop) (kept : List ZjSealed) (settled : List ZjToken)
    (recs : Nat → List ZjSealed) (d : Stored) : Prop where
  counted : Counted d
  files : ∀ id f, d.disk.lookup id = some f → id ∈ d.handed
  genuine : ∀ e ∈ d.log, Genuine crypto e
  drawn : ∀ e ∈ d.log, e.sequence ∈ d.handed ∧ e.segment ∈ d.handed
  order : InOrder d.log
  layout : ∀ id f, d.disk.lookup id = some f → Layout whole d.log id f (recs id)
  gone : ∀ id, d.disk.lookup id = none → recs id = []
  kept_log : ∀ e ∈ kept, e ∈ d.log
  kept_stable : ∀ e ∈ kept, ∀ f, d.disk.lookup e.segment = some f →
    e ∈ recs e.segment ∧ e.stop ≤ f.stable
  covered : ∀ e ∈ kept, ∀ p, e.offset ≤ p → p < e.stop →
    d.disk.lookup e.segment = none ∨ Before d.cursor e.segment p → Covered settled e.segment p
  pointed : d.cursor.segment = 0 ∨ d.cursor.segment ∈ d.handed
  last : crypto.Ideal → d.cursor.sequence = 0 ∨ d.cursor.sequence ∈ d.handed
  aligned : crypto.Ideal → ∀ e ∈ recs d.cursor.segment,
    d.cursor.offset ≤ e.offset ∨ e.stop ≤ d.cursor.offset
  later : crypto.Ideal → ∀ id, ∀ e ∈ recs id, ¬Before d.cursor id e.offset →
    d.cursor.sequence < e.sequence
  retired : crypto.Ideal → whole → ∀ id, ∀ e ∈ recs id, Before d.cursor id e.offset →
    ∃ t ∈ settled, t.segmentId = id ∧ t.offset = e.offset ∧ t.stop = e.stop
  placed : whole → ∀ e ∈ d.log, ∀ f, d.disk.lookup e.segment = some f →
    (∃ x ∈ recs e.segment, x.offset = e.offset) ∨
      e.offset = zjMetaBytes + (flat (recs e.segment)).length

namespace Sound

variable {whole : Prop} {kept : List ZjSealed} {settled : List ZjToken}
  {recs : Nat → List ZjSealed} {d : Stored}

/-- A record is in the file of its segment. -/
lemma holds (h : Sound crypto whole kept settled recs d) {id : Nat} (he : e ∈ recs id) :
    ∃ f header tail, d.disk.lookup id = some f ∧ Holds d.log id f.bytes (recs id) header tail ∧
      (whole → Torn d.log header (zjMetaBytes + (flat (recs id)).length) tail) := by
  cases hf : d.disk.lookup id with
  | none => simp [h.gone id hf] at he
  | some f =>
    rcases h.layout id f hf with ⟨hnil, -⟩ | ⟨header, tail, hh, ht⟩
    · simp [hnil] at he
    · exact ⟨f, header, tail, rfl, hh, ht⟩

/-- Drawing numbers changes nothing else. -/
lemma draw (h : Sound crypto whole kept settled recs d) {given : List Nat} {limit : Nat}
    (hc : Counted { d with handed := given ++ d.handed, limit := limit }) :
    Sound crypto whole kept settled recs { d with handed := given ++ d.handed, limit := limit } where
  counted := hc
  files id f hf := List.mem_append_right _ (h.files id f hf)
  genuine := h.genuine
  drawn e he := ⟨List.mem_append_right _ (h.drawn e he).1, List.mem_append_right _ (h.drawn e he).2⟩
  order := h.order
  layout := h.layout
  gone := h.gone
  kept_log := h.kept_log
  kept_stable := h.kept_stable
  covered := h.covered
  pointed := h.pointed.imp_right fun hp => List.mem_append_right _ hp
  last hi := (h.last hi).imp_right fun hl => List.mem_append_right _ hl
  aligned := h.aligned
  later := h.later
  retired := h.retired
  placed := h.placed

lemma Holds_log_mono {id : Nat} {bytes header tail : List UInt8} {recs : List ZjSealed}
    (h : Holds log id bytes recs header tail) (e : ZjSealed) :
    Holds (e :: log) id bytes recs header tail :=
  ⟨h.named, h.bytes_eq, h.contiguous, fun x hx =>
    ⟨(h.mine x hx).1, List.mem_cons_of_mem _ (h.mine x hx).2⟩⟩

/-- A record is sealed for the end of its segment's file. -/
lemma push (h : Sound crypto whole kept settled recs d) {f : File} (hge : Genuine crypto e)
    (hdrawn : e.sequence ∈ d.handed ∧ e.segment ∈ d.handed) (hafter : ∀ x ∈ d.log, Earlier x e)
    (hf : d.disk.lookup e.segment = some f)
    (hholds : Holds d.log e.segment f.bytes (recs e.segment) e.metadata [])
    (hoff : e.offset = f.size) :
    Sound crypto whole kept settled recs { d with log := e :: d.log } where
  counted := ⟨h.counted.sorted, h.counted.below⟩
  files := h.files
  genuine := List.forall_mem_cons.2 ⟨hge, h.genuine⟩
  drawn := List.forall_mem_cons.2 ⟨hdrawn, h.drawn⟩
  order := List.pairwise_cons.2 ⟨hafter, h.order⟩
  layout := by
    intro id f' hf'
    by_cases hid : id = e.segment
    · subst hid
      obtain rfl : f' = f := Option.some.inj (hf'.symm.trans hf)
      exact .inr ⟨e.metadata, [], Holds_log_mono hholds e, fun _ => .inl rfl⟩
    · rcases h.layout id f' hf' with hnil | ⟨header, tail, hh, htorn⟩
      · exact .inl hnil
      · refine .inr ⟨header, tail, Holds_log_mono hh e, fun hw => (htorn hw).imp_right ?_⟩
        rintro ⟨x, hx, hm, ho, hpre, hlt, hmax⟩
        refine ⟨x, List.mem_cons_of_mem _ hx, hm, ho, hpre, hlt, List.forall_mem_cons.2
          ⟨fun hme => ?_, hmax⟩⟩
        -- The header names another segment than the new record's.
        obtain ⟨m, hdec, hseg⟩ := hh.named
        rw [ZjSealed.segment, hme, hdec] at hid
        exact absurd hseg.symm hid
  gone := h.gone
  kept_log x hx := List.mem_cons_of_mem _ (h.kept_log x hx)
  kept_stable := h.kept_stable
  covered := h.covered
  pointed := h.pointed
  last := h.last
  aligned := h.aligned
  later := h.later
  retired := h.retired
  placed hw := by
    refine List.forall_mem_cons.2 ⟨fun f' hf' => .inr ?_, h.placed hw⟩
    have := hholds.length_eq
    simp only [List.length_nil, Nat.add_zero] at this
    rw [hoff, File.size, this]

/-- One file is created or changed, and may hold more records than before. -/
lemma replace (h : Sound crypto whole kept settled recs d) {id : Nat} {f' : File}
    {disk : Disk Nat} {recs' : Nat → List ZjSealed}
    (hdisk : ∀ k, disk.lookup k = if k = id then some f' else d.disk.lookup k)
    (hrecs : ∀ k, k ≠ id → recs' k = recs k) (hid : id ∈ d.handed)
    (hstable : ∀ f, d.disk.lookup id = some f → f.stable ≤ f'.stable)
    (hnew : d.disk.lookup id = none → ∀ e ∈ d.log, e.segment ≠ id)
    (hlayout : Layout whole d.log id f' (recs' id)) (hsub : ∀ e ∈ recs id, e ∈ recs' id)
    (hahead : ∀ e ∈ recs' id, e ∈ recs id ∨
      ¬Before d.cursor id e.offset ∧ (crypto.Ideal → d.cursor.sequence < e.sequence))
    (hplaced : whole → ∀ e ∈ d.log, e.segment = id → (∃ x ∈ recs' id, x.offset = e.offset) ∨
      e.offset = zjMetaBytes + (flat (recs' id)).length) :
    Sound crypto whole kept settled recs' { d with disk := disk } where
  counted := ⟨h.counted.sorted, h.counted.below⟩
  files k f hf := by
    by_cases hk : k = id
    · exact hk ▸ hid
    · exact h.files k f (by rwa [hdisk, if_neg hk] at hf)
  genuine := h.genuine
  drawn := h.drawn
  order := h.order
  layout k f hf := by
    by_cases hk : k = id
    · subst hk
      rw [hdisk, if_pos rfl] at hf
      cases hf
      exact hlayout
    · rw [hdisk, if_neg hk] at hf
      rw [hrecs k hk]
      exact h.layout k f hf
  gone k hk := by
    by_cases hkid : k = id
    · simp [hdisk, hkid] at hk
    · rw [hdisk, if_neg hkid] at hk
      rw [hrecs k hkid]
      exact h.gone k hk
  kept_log := h.kept_log
  kept_stable e he f hf := by
    by_cases hk : e.segment = id
    · rw [hdisk, if_pos hk] at hf
      cases hf
      cases hold : d.disk.lookup id with
      | none => exact absurd hk (hnew hold e (h.kept_log e he))
      | some f₀ =>
        obtain ⟨hmem, hle⟩ := h.kept_stable e he f₀ (hk ▸ hold)
        rw [hk] at hmem ⊢
        exact ⟨hsub e hmem, hle.trans (hstable f₀ hold)⟩
    · rw [hdisk, if_neg hk] at hf
      rw [hrecs _ hk]
      exact h.kept_stable e he f hf
  covered e he p hlo hhi hor := by
    refine h.covered e he p hlo hhi (hor.imp_left fun hnone => ?_)
    rw [hdisk] at hnone
    split_ifs at hnone
    exact hnone
  pointed := h.pointed
  last := h.last
  aligned hi e he := by
    by_cases hk : d.cursor.segment = id
    · change e ∈ recs' d.cursor.segment at he
      rw [hk] at he
      rcases hahead e he with hold | ⟨hnot, -⟩
      · exact h.aligned hi e (hk.symm ▸ hold)
      · exact .inl (not_lt.1 fun hlt => hnot (.inr ⟨hk.symm, hlt⟩))
    · exact h.aligned hi e (hrecs _ hk ▸ he)
  later hi k e he hnot := by
    by_cases hk : k = id
    · subst hk
      rcases hahead e he with hold | ⟨-, hseq⟩
      · exact h.later hi k e hold hnot
      · exact hseq hi
    · exact h.later hi k e (hrecs k hk ▸ he) hnot
  retired hi hw k e he hbefore := by
    by_cases hk : k = id
    · subst hk
      rcases hahead e he with hold | ⟨hnot, -⟩
      · exact h.retired hi hw k e hold hbefore
      · exact absurd hbefore hnot
    · exact h.retired hi hw k e (hrecs k hk ▸ he) hbefore
  placed hw e he f hf := by
    by_cases hk : e.segment = id
    · rw [hk]
      exact hplaced hw e he hk
    · rw [hdisk, if_neg hk] at hf
      rw [hrecs _ hk]
      exact h.placed hw e he f hf

/-- A file whose kept records are all settled goes. -/
lemma erase (h : Sound crypto whole kept settled recs d) {id : Nat}
    (hcov : ∀ e ∈ kept, e.segment = id → ∀ p, e.offset ≤ p → p < e.stop → Covered settled id p) :
    Sound crypto whole kept settled (fun k => if k = id then [] else recs k)
      { d with disk := d.disk.erase id } where
  counted := ⟨h.counted.sorted, h.counted.below⟩
  files k f hf := h.files k f (Disk.lookup_erase_some hf)
  genuine := h.genuine
  drawn := h.drawn
  order := h.order
  layout k f hf := by
    by_cases hk : k = id
    · subst hk
      simp at hf
    · simp only [hk, if_false]
      exact h.layout k f (Disk.lookup_erase_some hf)
  gone k hk := by
    by_cases hkid : k = id
    · simp [hkid]
    · simp only [hkid, if_false]
      exact h.gone k (by rwa [AList.lookup_erase_ne hkid] at hk)
  kept_log := h.kept_log
  kept_stable e he f hf := by
    by_cases hk : e.segment = id
    · rw [hk, AList.lookup_erase] at hf
      cases hf
    · simp only [hk, if_false]
      exact h.kept_stable e he f (Disk.lookup_erase_some hf)
  covered e he p hlo hhi hor := by
    by_cases hk : e.segment = id
    · rw [hk]
      exact hcov e he hk p hlo hhi
    · refine h.covered e he p hlo hhi (hor.imp_left fun hnone => ?_)
      rwa [AList.lookup_erase_ne hk] at hnone
  pointed := h.pointed
  last := h.last
  aligned hi e he := by
    split_ifs at he
    · cases he
    · exact h.aligned hi e he
  later hi k e he hnot := by
    split_ifs at he
    · cases he
    · exact h.later hi k e he hnot
  retired hi hw k e he hbefore := by
    split_ifs at he
    · cases he
    · exact h.retired hi hw k e he hbefore
  placed hw e he f hf := by
    by_cases hk : e.segment = id
    · rw [hk, AList.lookup_erase] at hf
      cases hf
    · simp only [hk, if_false]
      exact h.placed hw e he f (Disk.lookup_erase_some hf)

/-- An append succeeded. -/
lemma keep (h : Sound crypto whole kept settled recs d) {f : File} (hlog : e ∈ d.log)
    (hf : d.disk.lookup e.segment = some f) (hmem : e ∈ recs e.segment) (hle : e.stop ≤ f.stable)
    (hnot : ¬Before d.cursor e.segment e.offset) :
    Sound crypto whole (e :: kept) settled recs d :=
  { h with
    kept_log := List.forall_mem_cons.2 ⟨hlog, h.kept_log⟩
    kept_stable := by
      refine List.forall_mem_cons.2 ⟨fun f' hf' => ?_, h.kept_stable⟩
      obtain rfl : f' = f := Option.some.inj (hf'.symm.trans hf)
      exact ⟨hmem, hle⟩
    covered := by
      refine List.forall_mem_cons.2 ⟨fun p hlo _ hor => ?_, h.covered⟩
      rcases hor with hnone | hlt | ⟨heq, hlt⟩
      · simp [hf] at hnone
      · exact absurd (.inl hlt) hnot
      · exact absurd (.inr ⟨heq, by omega⟩) hnot }

/-- The cursor goes back to the beginning. -/
lemma rewind (h : Sound crypto whole kept settled recs d) {cp : Option (Block zjCheckpointBytes)}
    {revision : Nat} (hcp : (cp.bind parseCheckpoint).getD ⟨0, 0, 0, 0⟩ = ⟨revision, 0, 0, 0⟩) :
    Sound crypto whole kept settled recs { d with checkpoint := cp } := by
  have hcursor : Stored.cursor { d with checkpoint := cp } = ⟨revision, 0, 0, 0⟩ := hcp
  have hbefore : ∀ id p, ¬Before ⟨revision, 0, 0, 0⟩ id p := by
    rintro id p (hlt | ⟨-, hlt⟩)
    · exact absurd hlt (Nat.not_lt_zero _)
    · exact absurd hlt (Nat.not_lt_zero _)
  exact
    { counted := ⟨h.counted.sorted, h.counted.below⟩
      files := h.files
      genuine := h.genuine
      drawn := h.drawn
      order := h.order
      layout := h.layout
      gone := h.gone
      kept_log := h.kept_log
      kept_stable := h.kept_stable
      covered := by
        intro e he p hlo hhi hor
        rw [hcursor] at hor
        rcases hor with hnone | hlt
        · exact h.covered e he p hlo hhi (.inl hnone)
        · exact absurd hlt (hbefore _ _)
      pointed := .inl (by rw [hcursor])
      last := fun _ => .inl (by rw [hcursor])
      aligned := fun _ e _ => .inl (by rw [hcursor]; exact Nat.zero_le _)
      later := by
        intro _ id e he _
        rw [hcursor]
        obtain ⟨f, header, tail, -, hh, -⟩ := h.holds he
        exact Nat.pos_of_ne_zero (sequence_of_valid (h.genuine e (hh.mine e he).2).valid).1
      retired := by
        intro _ _ id e _ hb
        rw [hcursor] at hb
        exact absurd hb (hbefore _ _)
      placed := h.placed }

/-- Every file changes, and some records may be lost. -/
lemma mapFiles (h : Sound crypto whole kept settled recs d) {disk : Disk Nat}
    {g : Nat → File → File} {recs' : Nat → List ZjSealed}
    (hdisk : ∀ k, disk.lookup k = (d.disk.lookup k).map (g k))
    (hsub : ∀ k, ∀ e ∈ recs' k, e ∈ recs k)
    (hlayout : ∀ k f, d.disk.lookup k = some f → Layout whole d.log k (g k f) (recs' k))
    (hkept : ∀ e ∈ kept, ∀ f, d.disk.lookup e.segment = some f →
      e ∈ recs' e.segment ∧ e.stop ≤ (g e.segment f).stable) (hwhole : whole → recs' = recs) :
    Sound crypto whole kept settled recs' { d with disk := disk } where
  counted := ⟨h.counted.sorted, h.counted.below⟩
  files k f hf := by
    obtain ⟨f₀, hf₀, -⟩ := Option.map_eq_some_iff.1 (hdisk k ▸ hf)
    exact h.files k f₀ hf₀
  genuine := h.genuine
  drawn := h.drawn
  order := h.order
  layout k f hf := by
    obtain ⟨f₀, hf₀, rfl⟩ := Option.map_eq_some_iff.1 (hdisk k ▸ hf)
    exact hlayout k f₀ hf₀
  gone k hk := by
    have hnone := h.gone k (Option.map_eq_none_iff.1 (hdisk k ▸ hk))
    exact List.eq_nil_iff_forall_not_mem.2 fun e he => by simpa [hnone] using hsub k e he
  kept_log := h.kept_log
  kept_stable e he f hf := by
    obtain ⟨f₀, hf₀, rfl⟩ := Option.map_eq_some_iff.1 (hdisk _ ▸ hf)
    exact hkept e he f₀ hf₀
  covered e he p hlo hhi hor :=
    h.covered e he p hlo hhi (hor.imp_left fun hn => Option.map_eq_none_iff.1 (hdisk _ ▸ hn))
  pointed := h.pointed
  last := h.last
  aligned hi e he := h.aligned hi e (hsub _ e he)
  later hi k e he hnot := h.later hi k e (hsub k e he) hnot
  retired hi hw k e he hbefore := h.retired hi hw k e (hsub k e he) hbefore
  placed hw e he f hf := by
    obtain ⟨f₀, hf₀, -⟩ := Option.map_eq_some_iff.1 (hdisk _ ▸ hf)
    rw [hwhole hw]
    exact h.placed hw e he f₀ hf₀

/-- Power is lost and comes back. What is not stable may be replaced by anything, unless it is
assumed that what was written stays. -/
lemma reset (h : Sound crypto whole kept settled recs d) (junk : Nat → List UInt8)
    (hjunk : whole → ∀ k f, d.disk.lookup k = some f → junk k = f.bytes.drop f.stable) :
    ∃ recs', Sound crypto whole kept settled recs' { d with disk := d.disk.reboot junk } := by
  have hdisk := fun k => Disk.lookup_reboot junk d.disk k
  by_cases hw : whole
  · refine ⟨recs, h.mapFiles hdisk (fun _ _ he => he) (fun k f hf => ?_) (fun e he f hf => ?_)
      fun _ => rfl⟩
    · have hbytes := File.bytes_reboot_eq (hjunk hw k f hf)
      rcases h.layout k f hf with ⟨hnil, hlt⟩ | hh
      · exact .inl ⟨hnil, fun _ => by rw [File.size, hbytes]; exact hlt hw⟩
      · exact .inr (by rwa [hbytes])
    · obtain ⟨hmem, hle⟩ := h.kept_stable e he f hf
      exact ⟨hmem, hle.trans (File.stable_le_reboot _ f)⟩
  · -- Only the records that are stable are left.
    obtain ⟨stable, hstable⟩ : ∃ stable : Nat → Nat, ∀ k f, d.disk.lookup k = some f →
        stable k = f.stable :=
      ⟨fun k => ((d.disk.lookup k).map File.stable).getD 0, fun k f hf => by simp [hf]⟩
    refine ⟨fun k => (recs k).takeWhile (·.stop ≤ stable k), h.mapFiles hdisk
      (fun k e he => (List.takeWhile_prefix _).subset he) (fun k f hf => ?_) (fun e he f hf => ?_)
      fun h => absurd h hw⟩
    · rcases h.layout k f hf with ⟨hnil, -⟩ | ⟨header, tail, hh, -⟩
      · exact .inl ⟨by simp [hnil], fun h => absurd h hw⟩
      · by_cases hne : (recs k).takeWhile (·.stop ≤ stable k) = []
        · exact .inl ⟨hne, fun h => absurd h hw⟩
        obtain ⟨hcont, -, hlen⟩ := hh.contiguous.takeWhile (stable k)
        have hlen := hlen hne
        obtain ⟨rest, hrest⟩ := List.takeWhile_prefix (l := recs k) fun e => e.stop ≤ stable k
        have hpre : header ++ flat ((recs k).takeWhile (·.stop ≤ stable k)) <+: f.bytes := by
          refine ⟨flat rest ++ tail, ?_⟩
          rw [hh.bytes_eq]
          conv_rhs => rw [← hrest]
          simp [flat]
        obtain ⟨tail', htail'⟩ := File.prefix_reboot (junk k) hpre (by
          rw [List.length_append, hh.length_header, ← hstable k f hf]
          exact hlen)
        exact .inr ⟨header, tail', ⟨hh.named, htail'.symm, hcont, fun e he =>
          hh.mine e ((List.takeWhile_prefix _).subset he)⟩, fun h => absurd h hw⟩
    · obtain ⟨hmem, hle⟩ := h.kept_stable e he f hf
      obtain ⟨f', header, tail, hf', hh, -⟩ := h.holds hmem
      exact ⟨(hh.contiguous.takeWhile _).2.1 e hmem (hstable _ f hf ▸ hle),
        hle.trans (File.stable_le_reboot _ f)⟩

end Sound

/-! ### The store in memory -/

/-- The writer's segment ends with its last record, and is the last segment. -/
structure Writing (d : Stored) (recs : Nat → List ZjSealed) (s : ZjStore) : Prop where
  listed : ∃ g ∈ s.segments, g.id = s.writerId ∧ g.metadataValid = true
  file : ∃ f, d.disk.lookup s.writerId = some f ∧
    Holds d.log s.writerId f.bytes (recs s.writerId) s.writerHeader []
  newest : ∀ g ∈ s.segments, g.id ≤ s.writerId
  reached : s.readSegment ≤ s.writerId
  log : ∀ x ∈ d.log, x.segment = s.writerId ∨ x.sequence < s.writerId

/-- What an open store knows about storage. -/
structure Tracked (d : Stored) (recs : Nat → List ZjSealed) (s : ZjStore) : Prop where
  sorted : s.segments.Pairwise (·.id < ·.id)
  known : ∀ g ∈ s.segments, g.id ∈ d.handed ∧ g.size < 2 ^ 32
  listed : ∀ id, recs id ≠ [] → ∃ g ∈ s.segments, g.id = id
  faithful : ∀ g ∈ s.segments, ∀ f, d.disk.lookup g.id = some f → g.size = f.size ∧
    (g.metadataValid = true → (headerOf g.id f.bytes).isSome) ∧
    (recs g.id ≠ [] → g.metadataValid = true)
  missing : ∀ g ∈ s.segments, d.disk.lookup g.id = none →
    g.id < s.readSegment ∨ g.size ≤ offsetIn s g
  cursor : d.cursor = ⟨s.checkpointRevision, s.readSegment, s.readOffset, s.lastSequence⟩
  inside : ∀ g ∈ s.segments, g.id = s.readSegment →
    s.readOffset ≤ g.size ∧ (g.metadataValid = true → zjMetaBytes ≤ s.readOffset)
  writing : s.writerId ≠ 0 → Writing d recs s
  counting : Counting d s.sequence

end Journal

end ZoneLite
