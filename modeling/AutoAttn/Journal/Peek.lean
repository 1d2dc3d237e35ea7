import AutoAttn.Journal.Spec

/-!
# What is at the cursor

`zj_store_peek` as a function of the bytes of the file it reads, and what that function does with
bytes that are not a record.
-/

namespace ZoneLite

open Bytes Crash

namespace Journal

variable {π : Type} {P : ZjPort π} {w : ZjWorld π}

/-- A header that decodes names its segment and takes 240 bytes. -/
lemma bounds_of_headerOf {id : Nat} {bytes header : List UInt8} {m : ZjMetadata}
    (h : headerOf id bytes = some (header, m)) :
    (id ≠ 0 ∧ id ≤ zjSequenceMax) ∧ zjMetaBytes ≤ bytes.length := by
  simp only [headerOf, Option.bind_eq_some_iff] at h
  obtain ⟨m', hm', h⟩ := h
  split_ifs at h with hid
  have henc := zjMetadataEncode_of_decode hm'
  have hlen := length_of_zjMetadataEncode henc
  rw [length_slice] at hlen
  simp only [zjMetadataEncode] at henc
  split_ifs at henc with hv
  subst hid
  exact ⟨⟨hv.1, hv.2.1⟩, by omega⟩

/-! ### The item at the cursor -/

/-- The header as `zj_store_peek` sees it. -/
def headerAt (g : ZjSegment) (bytes : List UInt8) : Option (List UInt8 × ZjMetadata) :=
  if g.size < zjMetaBytes then none else headerOf g.id bytes

lemma headerAt_some {g : ZjSegment} {bytes header : List UInt8} {m : ZjMetadata}
    (h : headerAt g bytes = some (header, m)) :
    zjMetadataDecode header = some m ∧ m.segmentId = g.id := by
  simp only [headerAt] at h
  split_ifs at h
  simp only [headerOf, Option.bind_eq_some_iff] at h
  obtain ⟨m', hm', h⟩ := h
  split_ifs at h with hid
  cases h
  exact ⟨hm', hid⟩

def frameOf (crypto : ZjCrypto) (log : List ZjSealed) (last : Nat) (g : ZjSegment)
    (bytes : List UInt8) (offset : Nat) : Option (List UInt8 × ZjMetadata) → ZjFrame
  | none               => ⟨if g.checkpointEvidence then .checkpoint else .metadata, none, []⟩
  | some (metadata, _) =>
    if g.size - offset < zjHeaderBytes then ⟨.tail, none, []⟩
    else match zjRecordLength (slice bytes offset zjHeaderBytes) with
      | none        => ⟨.frame, none, []⟩
      | some framed =>
        if framed > g.size - offset then ⟨.tail, none, []⟩
        else match zjRecordDecode crypto log metadata (slice bytes offset framed) with
          | .ok o    =>
            ⟨if o.sequence > last then .none else .auth, some o, slice bytes offset framed⟩
          | .error _ => ⟨.auth, none, slice bytes offset framed⟩

/-- How many bytes an exception takes. -/
def extentOf (g : ZjSegment) (bytes : List UInt8) (offset : Nat) (headerOk : Bool) : Nat :=
  if headerOk && g.size - offset > 4 then
    resync (slice bytes offset (min (g.size - offset) (zjExceptionMax + 3)))
      (min (g.size - offset) zjExceptionMax)
  else min (g.size - offset) zjExceptionMax

/-- The item that `g` holds at the cursor; `none` when the digest cannot be made. -/
def itemOf (crypto : ZjCrypto) (log : List ZjSealed) (s : ZjStore) (g : ZjSegment)
    (bytes : List UInt8) : Option ZjItem :=
  let offset := offsetIn s g
  let header := headerAt g bytes
  let frame := frameOf crypto log s.lastSequence g bytes offset header
  if frame.exception = .none then
    (crypto.digest frame.record).map fun digest => newItem s header frame []
      ⟨g.id, offset, offset + frame.record.length, digest,
        (frame.observation.map (·.sequence)).getD 0⟩
  else
    let length := extentOf g bytes offset header.isSome
    (crypto.digest (slice bytes offset length)).map fun digest =>
      newItem s header frame (slice bytes offset length) ⟨g.id, offset, offset + length, digest, 0⟩

lemma wp_frameAt (s : ZjStore) (g : ZjSegment) (offset : Nat)
    (header : Option (List UInt8 × ZjMetadata)) :
    Prog.ewp
      (fun r w' => w' = w ∧
        (∀ f, w.disk.lookup g.id = some f →
          r = frameOf P.crypto w.nv.log s.lastSequence g f.bytes offset header) ∧
        (r.exception = .none → ∃ f, w.disk.lookup g.id = some f))
      (fun e w' => e = .io ∧ Noted w w') (Noted w) (frameAt P s g offset header) w := by
  cases header with
  | none =>
    rw [frameAt, Prog.ewp_pure]
    refine ⟨rfl, fun f _ => rfl, ?_⟩
    split_ifs <;> simp
  | some h =>
    obtain ⟨metadata, m⟩ := h
    simp only [frameAt, Prog.ewp_ite, Prog.ewp_pure]
    refine ⟨fun hlt => ⟨trivial, fun f _ => by simp [frameOf, hlt], by simp⟩, fun hlt => ?_⟩
    refine Prog.ewp_seq (wp_readBytes _ _ _) ?_ (fun _ _ h => h) fun _ h => h
    rintro b w' ⟨rfl, f, hf, rfl, -⟩
    have huniq : ∀ f', w'.disk.lookup g.id = some f' → f' = f := by
      intro f' hf'
      rw [hf] at hf'
      exact (Option.some.inj hf').symm
    cases hl : zjRecordLength (slice f.bytes offset zjHeaderBytes) with
    | none =>
      simp only [Prog.ewp_pure]
      refine ⟨trivial, fun f' hf' => ?_, by simp⟩
      rw [huniq f' hf']
      simp [frameOf, hlt, hl]
    | some framed =>
      simp only [Prog.ewp_ite, Prog.ewp_pure]
      refine ⟨fun hgt => ⟨trivial, fun f' hf' => ?_, by simp⟩, fun hgt => ?_⟩
      · rw [huniq f' hf']
        simp [frameOf, hlt, hl, hgt]
      refine Prog.ewp_seq (wp_readBytes _ _ _) ?_ (fun _ _ h => h) fun _ h => h
      rintro b w'' ⟨rfl, f', hf', rfl, -⟩
      rw [huniq f' hf']
      simp only [Prog.ewp_bind, wp_perform, Prog.wp_gets]
      cases hd : zjRecordDecode P.crypto w''.nv.log metadata (slice f.bytes offset framed) with
      | error e =>
        simp only [Prog.ewp_pure]
        refine ⟨trivial, fun f' hf' => ?_, by simp⟩
        rw [huniq f' hf']
        simp [frameOf, hlt, hl, hgt, hd]
      | ok o =>
        simp only [Prog.ewp_pure]
        refine ⟨trivial, fun f' hf' => ?_, fun _ => ⟨f, hf⟩⟩
        rw [huniq f' hf']
        simp [frameOf, hlt, hl, hgt, hd]

lemma wp_exceptionLength (g : ZjSegment) (offset : Nat) (headerOk : Bool) :
    Prog.ewp
      (fun n w' => w' = w ∧ ∀ f, w.disk.lookup g.id = some f →
        n = extentOf g f.bytes offset headerOk)
      (fun e w' => e = .io ∧ Noted w w') (Noted w) (exceptionLength g offset headerOk) w := by
  simp only [exceptionLength, Prog.ewp_ite, Prog.ewp_pure]
  refine ⟨fun h => ?_, fun h => ⟨trivial, fun f _ => by simp [extentOf, h]⟩⟩
  refine Prog.ewp_seq (wp_readBytes _ _ _) ?_ (fun _ _ h => h) fun _ h => h
  rintro b w' ⟨rfl, f, hf, rfl, -⟩
  rw [Prog.ewp_pure]
  refine ⟨rfl, fun f' hf' => ?_⟩
  rw [hf] at hf'
  cases hf'
  simp [extentOf, h]

/-- `zj_store_peek` changes nothing, and what it returns is in the file of the head segment. -/
lemma wp_zjStorePeek :
    Prog.ewp
      (fun item w' => w' = w ∧ w.ram.ready = true ∧ ∃ g f, headSegment w.ram = some g ∧
        w.disk.lookup g.id = some f ∧ itemOf P.crypto w.nv.log w.ram g f.bytes = some item)
      (fun e w' => Noted w w' ∧ (e = .empty → headSegment w.ram = none)) (Noted w)
      (zjStorePeek P) w := by
  have hio : ∀ e w', e = ZjError.io ∧ Noted w w' →
      Noted w w' ∧ (e = .empty → headSegment w.ram = none) := by
    rintro _ w' ⟨rfl, h⟩
    exact ⟨h, by simp⟩
  simp only [zjStorePeek, Prog.ewp_bind, wp_getStore, Prog.ewp_ite, Prog.ewp_throw]
  refine ⟨fun _ => ⟨Noted.refl w, by simp⟩, fun hready => ?_⟩
  simp only [Bool.not_eq_true', Bool.not_eq_false] at hready
  cases hg : headSegment w.ram with
  | none => simp [Noted.refl]
  | some g =>
    rw [Prog.ewp_bind]
    refine Prog.ewp_mono (wp_readHeader g) ?_ (by simpa [hg] using hio) fun _ h => h
    rintro header w' ⟨rfl, hheader⟩
    rw [Prog.ewp_bind]
    refine Prog.ewp_mono (wp_frameAt (P := P) w'.ram g _ header) ?_ (by simpa [hg] using hio)
      fun _ h => h
    rintro frame w'' ⟨rfl, hframe, hfile⟩
    have hat : ∀ f, w''.disk.lookup g.id = some f → header = headerAt g f.bytes := by
      intro f hf
      rcases hheader with ⟨hlt, rfl⟩ | ⟨hle, f', hf', rfl⟩
      · simp [headerAt, hlt]
      · rw [hf] at hf'
        cases hf'
        simp [headerAt, not_lt.2 hle]
    by_cases hkind : frame.exception = .none
    · obtain ⟨f, hf⟩ := hfile hkind
      obtain rfl := hat f hf
      obtain rfl := hframe f hf
      simp only [hkind, if_true]
      cases hd : P.crypto.digest _ with
      | none => simp
      | some digest =>
        rw [Prog.ewp_pure]
        exact ⟨rfl, hready, g, f, rfl, hf, by simp only [itemOf, hkind, if_true, hd, Option.map_some]⟩
    · simp only [hkind, if_false]
      rw [Prog.ewp_bind]
      refine Prog.ewp_mono (wp_exceptionLength g _ header.isSome) ?_ (by simpa [hg] using hio)
        fun _ h => h
      rintro n w' ⟨rfl, hn⟩
      rw [Prog.ewp_bind]
      refine Prog.ewp_mono (wp_readBytes g.id _ n) ?_ (by simpa [hg] using hio) fun _ h => h
      rintro b w'' ⟨rfl, f, hf, rfl, -⟩
      obtain rfl := hat f hf
      obtain rfl := hframe f hf
      obtain rfl := hn f hf
      cases hd : P.crypto.digest _ with
      | none => simp
      | some digest =>
        rw [Prog.ewp_pure]
        exact ⟨rfl, hready, g, f, rfl, hf, by
          simp only [itemOf, hkind, if_false, hd, Option.map_some]⟩

/-! ### The run in which nothing goes wrong -/

lemma exec_frameAt (P : ZjPort π) (s : ZjStore) {g : ZjSegment} {f : File} {offset : Nat}
    (header : Option (List UInt8 × ZjMetadata)) (hf : w.disk.lookup g.id = some f)
    (hs : g.size = f.size) (ho : offset < g.size) :
    Prog.exec (frameAt P s g offset header) w =
      (.ok (frameOf P.crypto w.nv.log s.lastSequence g f.bytes offset header), w) := by
  have hs' : f.bytes.length = g.size := hs.symm
  cases header with
  | none => rfl
  | some h =>
    obtain ⟨metadata, m⟩ := h
    by_cases hlt : g.size - offset < zjHeaderBytes
    · simp [frameAt, frameOf, hlt]
    have hhead := exec_readBytes hf (show offset + zjHeaderBytes ≤ f.bytes.length by omega)
    cases hl : zjRecordLength (slice f.bytes offset zjHeaderBytes) with
    | none => simp [frameAt, frameOf, hlt, hhead, hl]
    | some framed =>
      by_cases hgt : framed > g.size - offset
      · simp [frameAt, frameOf, hlt, hhead, hl, hgt]
      have hrec := exec_readBytes hf (show offset + framed ≤ f.bytes.length by omega)
      cases hd : zjRecordDecode P.crypto w.nv.log metadata (slice f.bytes offset framed) <;>
        simp [frameAt, frameOf, hlt, hhead, hl, hgt, hrec, hd]

/-! ### The scan for the next marker -/

lemma resync_le (window : List UInt8) {length : Nat} (h : 0 < length) :
    0 < resync window length ∧ resync window length ≤ length := by
  unfold resync
  cases hfind : (List.range' 1 (length - 1)).find? _ with
  | none => exact ⟨h, le_rfl⟩
  | some i =>
    have hi := List.mem_of_find?_eq_some hfind
    rw [List.mem_range'_1] at hi
    simp only [Option.getD_some]
    omega

/-- No marker is passed over. -/
lemma resync_le_of_marker {window : List UInt8} {length i : Nat} (h0 : 0 < i) (hi : i < length)
    (h4 : i + 4 ≤ window.length) (hm : slice window i 4 = zjMarker) :
    resync window length ≤ i := by
  unfold resync
  cases hfind : (List.range' 1 (length - 1)).find? _ with
  | none =>
    have hmem : i ∈ List.range' 1 (length - 1) := List.mem_range'_1.2 (by omega)
    have := List.find?_eq_none.1 hfind i hmem
    simp [h4, hm] at this
  | some j =>
    obtain ⟨-, k, hk, rfl, hbefore⟩ := List.find?_eq_some_iff_getElem.1 hfind
    rw [Option.getD_some, List.getElem_range', Nat.one_mul]
    by_contra hlt
    have := hbefore (i - 1) (by omega)
    rw [List.getElem_range', Nat.one_mul, show 1 + (i - 1) = i by omega] at this
    simp [h4, hm] at this

lemma extentOf_le {g : ZjSegment} (bytes : List UInt8) {offset : Nat} (headerOk : Bool)
    (h : offset < g.size) :
    0 < extentOf g bytes offset headerOk ∧
      extentOf g bytes offset headerOk ≤ min (g.size - offset) zjExceptionMax := by
  have hpos : 0 < min (g.size - offset) zjExceptionMax := by
    simp only [zjExceptionMax]
    omega
  unfold extentOf
  split_ifs
  · exact resync_le _ hpos
  · exact ⟨hpos, le_rfl⟩

/-- An exception stops short of a marker. -/
lemma extentOf_le_of_marker {g : ZjSegment} {bytes : List UInt8} {offset p : Nat}
    (hlen : bytes.length = g.size) (hp : offset < p) (h4 : p + 4 ≤ bytes.length)
    (hm : slice bytes p 4 = zjMarker) : offset + extentOf g bytes offset true ≤ p := by
  have hmax : zjExceptionMax = 512 := rfl
  have hopen : (true && decide (g.size - offset > 4)) = true := by
    rw [Bool.true_and, decide_eq_true_eq]
    omega
  rw [extentOf, if_pos hopen]
  obtain ⟨window, hw⟩ : ∃ window, window =
    slice bytes offset (min (g.size - offset) (zjExceptionMax + 3)) := ⟨_, rfl⟩
  have hwlen : window.length = min (g.size - offset) (zjExceptionMax + 3) := by
    rw [hw, length_slice]
    omega
  have hle := resync_le window (show 0 < min (g.size - offset) zjExceptionMax by omega)
  rw [← hw]
  by_cases hi : p - offset < min (g.size - offset) zjExceptionMax
  · have hmark : slice window (p - offset) 4 = zjMarker := by
      rw [← hm, hw]
      simp only [slice, List.drop_take, List.drop_drop, List.take_take]
      rw [show offset + (p - offset) = p by omega, Nat.min_eq_left (by omega)]
    have := resync_le_of_marker (by omega) hi (by omega) hmark
    omega
  · omega

lemma exec_exceptionLength {g : ZjSegment} {f : File} {offset : Nat} (headerOk : Bool)
    (hf : w.disk.lookup g.id = some f) (hs : g.size = f.size) (ho : offset < g.size) :
    Prog.exec (exceptionLength g offset headerOk) w =
      (.ok (extentOf g f.bytes offset headerOk), w) := by
  have hs' : f.bytes.length = g.size := hs.symm
  by_cases h : (headerOk && decide (g.size - offset > 4)) = true
  · have hread := exec_readBytes hf (show offset + min (g.size - offset) (zjExceptionMax + 3) ≤
      f.bytes.length by omega)
    simp only [exceptionLength, extentOf, h, if_true, Prog.exec_bind, hread, Prog.exec_pure]
  · simp only [exceptionLength, extentOf, h]
    rfl

lemma exec_zjStorePeek {g : ZjSegment} {f : File} (hready : w.ram.ready = true)
    (hg : headSegment w.ram = some g) (hf : w.disk.lookup g.id = some f) (hs : g.size = f.size)
    (hd : ∀ b, (P.crypto.digest b).isSome) :
    ∃ item, itemOf P.crypto w.nv.log w.ram g f.bytes = some item ∧
      Prog.exec (zjStorePeek P) w = (.ok item, w) := by
  have ho : offsetIn w.ram g < g.size := by
    have := List.find?_some hg
    simp only [Bool.and_eq_true, decide_eq_true_eq] at this
    exact this.2
  have hheader : Prog.exec (readHeader g) w = (.ok (headerAt g f.bytes), w) := exec_readHeader hf hs
  have hframe := exec_frameAt P w.ram (headerAt g f.bytes) hf hs ho
  have hlen := exec_exceptionLength (headerAt g f.bytes).isSome hf hs ho
  have hext := extentOf_le f.bytes (headerAt g f.bytes).isSome ho
  have hread := exec_readBytes hf (show offsetIn w.ram g +
    extentOf g f.bytes (offsetIn w.ram g) (headerAt g f.bytes).isSome ≤ f.bytes.length by
      simp only [File.size] at hs
      omega)
  by_cases hkind : (frameOf P.crypto w.nv.log w.ram.lastSequence g f.bytes (offsetIn w.ram g)
      (headerAt g f.bytes)).exception = .none
  · obtain ⟨digest, hdig⟩ := Option.isSome_iff_exists.1 (hd (frameOf P.crypto w.nv.log
      w.ram.lastSequence g f.bytes (offsetIn w.ram g) (headerAt g f.bytes)).record)
    refine ⟨_, by simp only [itemOf, hkind, if_true, hdig, Option.map_some]; rfl, ?_⟩
    simp [zjStorePeek, hready, hg, hheader, hframe, hkind, hdig]
  · obtain ⟨digest, hdig⟩ := Option.isSome_iff_exists.1 (hd (slice f.bytes (offsetIn w.ram g)
      (extentOf g f.bytes (offsetIn w.ram g) (headerAt g f.bytes).isSome)))
    refine ⟨_, by simp only [itemOf, hkind, if_false, hdig, Option.map_some]; rfl, ?_⟩
    simp [zjStorePeek, hready, hg, hheader, hframe, hkind, hlen, hread, hdig]

lemma exec_zjStorePeek_empty (hready : w.ram.ready = true) (hg : headSegment w.ram = none) :
    Prog.exec (zjStorePeek P) w = (.error .empty, w) := by
  simp [zjStorePeek, hready, hg]

/-! ### What an item says about the file -/

/-- An authentic record of `n` bytes at `p`, complete in the file. -/
structure Authentic (crypto : ZjCrypto) (log : List ZjSealed) (header bytes : List UInt8)
    (p n : Nat) (o : ZjObservation) : Prop where
  framed : zjRecordLength (slice bytes p zjHeaderBytes) = some n
  complete : p + n ≤ bytes.length
  decoded : zjRecordDecode crypto log header (slice bytes p n) = .ok o

/-- The two kinds of item: a record with a later sequence than the last one, or bytes at which
there is no such record. -/
inductive Shape (crypto : ZjCrypto) (log : List ZjSealed) (s : ZjStore) (g : ZjSegment)
    (bytes : List UInt8) (item : ZjItem) : Prop where
  | observation {header : List UInt8} {m : ZjMetadata} {n : Nat} {o : ZjObservation}
      (kind : item.kind = .observation) (header_eq : headerAt g bytes = some (header, m))
      (authentic : Authentic crypto log header bytes (offsetIn s g) n o)
      (later : s.lastSequence < o.sequence) (value : item.observation = some o)
      (stop : item.token.stop = offsetIn s g + n) (sequence : item.token.sequence = o.sequence)
  | exception (kind : item.kind = .preservedException)
      (stop : item.token.stop =
        offsetIn s g + extentOf g bytes (offsetIn s g) (headerAt g bytes).isSome)
      (opaqueBytes : item.exceptionBytes =
        slice bytes (offsetIn s g) (extentOf g bytes (offsetIn s g) (headerAt g bytes).isSome))
      (sequence : item.token.sequence = 0)
      (none_later : ∀ header m n o, headerAt g bytes = some (header, m) →
        Authentic crypto log header bytes (offsetIn s g) n o → o.sequence ≤ s.lastSequence)

section Shape

variable {crypto : ZjCrypto} {log : List ZjSealed} {s : ZjStore} {g : ZjSegment}
  {bytes : List UInt8} {item : ZjItem}

/-- An observation frame is an authentic record, and every authentic record that comes later is
one. -/
lemma frameOf_eq_none_iff {last offset : Nat} (hlen : bytes.length = g.size) {header : List UInt8}
    {m : ZjMetadata} {r : ZjFrame}
    (hr : r = frameOf crypto log last g bytes offset (some (header, m))) :
    (r.exception = .none → ∃ n o, Authentic crypto log header bytes offset n o ∧
      last < o.sequence ∧ r.observation = some o ∧ r.record = slice bytes offset n) ∧
    (r.exception ≠ .none → ∀ n o, Authentic crypto log header bytes offset n o →
      o.sequence ≤ last) := by
  subst hr
  by_cases hlt : g.size - offset < zjHeaderBytes
  · refine ⟨by simp [frameOf, hlt], fun _ n o ha => ?_⟩
    have := (marker_of_zjRecordLength ha.framed).2.1
    have := ha.complete
    omega
  cases hl : zjRecordLength (slice bytes offset zjHeaderBytes) with
  | none =>
    refine ⟨by simp [frameOf, hlt, hl], fun _ n o ha => ?_⟩
    have := ha.framed
    simp [hl] at this
  | some framed =>
    have hn : ∀ n o, Authentic crypto log header bytes offset n o → n = framed := by
      intro n o ha
      have := ha.framed
      rw [hl] at this
      exact (Option.some.inj this).symm
    by_cases hgt : framed > g.size - offset
    · refine ⟨by simp [frameOf, hlt, hl, hgt], fun _ n o ha => ?_⟩
      have := hn n o ha
      have := ha.complete
      have := (marker_of_zjRecordLength ha.framed).2.1
      omega
    cases hd : zjRecordDecode crypto log header (slice bytes offset framed) with
    | error e =>
      refine ⟨by simp [frameOf, hlt, hl, hgt, hd], fun _ n o ha => ?_⟩
      have hdec := ha.decoded
      rw [hn n o ha, hd] at hdec
      cases hdec
    | ok o =>
      by_cases hlate : o.sequence > last
      · refine ⟨fun _ => ⟨framed, o, ⟨hl, ?_, hd⟩, hlate, ?_⟩, ?_⟩
        · have := (marker_of_zjRecordLength hl).2.1
          omega
        · simp [frameOf, hlt, hl, hgt, hd]
        · simp [frameOf, hlt, hl, hgt, hd, hlate]
      · refine ⟨by simp [frameOf, hlt, hl, hgt, hd, hlate], fun _ n o' ha => ?_⟩
        have hdec := ha.decoded
        rw [hn n o' ha, hd] at hdec
        cases hdec
        exact not_lt.1 hlate

/-- Without a header there is no observation. -/
lemma frameOf_none_ne (last offset : Nat) :
    (frameOf crypto log last g bytes offset none).exception ≠ .none := by
  simp only [frameOf]
  split_ifs <;> simp

lemma itemOf_shape (hlen : bytes.length = g.size) (h : itemOf crypto log s g bytes = some item) :
    item.token.segmentId = g.id ∧ item.token.offset = offsetIn s g ∧
      Shape crypto log s g bytes item := by
  obtain ⟨frame, hframe⟩ : ∃ frame, frame = frameOf crypto log s.lastSequence g bytes
    (offsetIn s g) (headerAt g bytes) := ⟨_, rfl⟩
  simp only [itemOf, ← hframe] at h
  split_ifs at h with hkind
  · obtain ⟨digest, -, rfl⟩ := Option.map_eq_some_iff.1 h
    refine ⟨rfl, rfl, ?_⟩
    cases hh : headerAt g bytes with
    | none =>
      rw [hh] at hframe
      exact absurd (hframe ▸ hkind) (frameOf_none_ne _ _)
    | some hm =>
      obtain ⟨header, m⟩ := hm
      rw [hh] at hframe
      obtain ⟨n, o, ha, hlate, hobs, hrec⟩ := (frameOf_eq_none_iff hlen hframe).1 hkind
      refine .observation (by simp [newItem, hkind]) hh ha hlate hobs ?_ (by simp [newItem, hobs])
      have := ha.complete
      simp only [newItem, hrec, length_slice]
      omega
  · obtain ⟨digest, -, rfl⟩ := Option.map_eq_some_iff.1 h
    refine ⟨rfl, rfl, .exception (by simp [newItem, hkind]) rfl rfl rfl ?_⟩
    intro header m n o hh ha
    rw [hh] at hframe
    exact (frameOf_eq_none_iff hlen hframe).2 hkind n o ha

lemma Shape.bounds (h : Shape crypto log s g bytes item) (hlen : bytes.length = g.size)
    (ho : offsetIn s g < g.size) :
    offsetIn s g < item.token.stop ∧ item.token.stop ≤ g.size := by
  cases h with
  | observation _ _ ha _ _ hstop =>
    have := ha.complete
    have := (marker_of_zjRecordLength ha.framed).2.1
    omega
  | exception _ hstop =>
    have := extentOf_le bytes (headerAt g bytes).isSome ho
    omega

/-- An exception ends before the next authentic record of the segment. -/
lemma Shape.stop_le (h : Shape crypto log s g bytes item) (hlen : bytes.length = g.size)
    (hkind : item.kind = .preservedException) {header : List UInt8} {m : ZjMetadata}
    (hh : headerAt g bytes = some (header, m)) {p n : Nat} {o : ZjObservation}
    (ha : Authentic crypto log header bytes p n o) (hp : offsetIn s g < p) :
    item.token.stop ≤ p := by
  cases h with
  | observation hk => simp [hk] at hkind
  | exception _ hstop =>
    obtain ⟨hmark, hn, -⟩ := marker_of_zjRecordLength ha.framed
    have hcomplete := ha.complete
    have h4 : 4 ≤ n := le_trans (by decide) hn.le
    have hmark' : slice bytes p 4 = zjMarker := by
      rw [← hmark]
      simp [slice, zjHeaderBytes, List.take_take]
    have := extentOf_le_of_marker (g := g) hlen hp (by omega) hmark'
    rw [hstop, hh, Option.isSome_some]
    omega

end Shape

end Journal

end ZoneLite
