import Mathlib.Algebra.Order.BigOperators.Group.List
import AutoAttn.Journal.Peek

/-!
# Draining

Peeking and settling in turn until the store is empty, while nothing fails.
-/

namespace ZoneLite

open Bytes Crash

namespace Journal

variable {π : Type} {P : ZjPort π} {V : P.View} {w : ZjWorld π} {receipt : Block 32}

/-- Alternating `zj_store_peek` and `zj_store_settle` until `ZJ_EMPTY` yields these items. -/
inductive Drains (P : ZjPort π) (receipt : Block 32) :
    ZjWorld π → List ZjItem → ZjWorld π → Prop where
  | empty {w w' : ZjWorld π} (h : Prog.exec (zjStorePeek P) w = (.error .empty, w')) :
      Drains P receipt w [] w'
  | item {w w₁ w₂ w' : ZjWorld π} {item : ZjItem} {items : List ZjItem}
      (hpeek : Prog.exec (zjStorePeek P) w = (.ok item, w₁))
      (hsettle : Prog.exec (zjStoreSettle P item.token receipt) w₁ = (.ok (), w₂))
      (h : Drains P receipt w₂ items w') : Drains P receipt w (item :: items) w'

/-- The store in memory after a settlement. -/
def advance (s : ZjStore) (token : ZjToken) : ZjStore :=
  recoveryPending (setCheckpoint (nextCheckpoint s token) s)

@[simp] lemma segments_advance (s : ZjStore) (token : ZjToken) :
    (advance s token).segments = s.segments := rfl

@[simp] lemma ready_advance (s : ZjStore) (token : ZjToken) :
    (advance s token).ready = s.ready := rfl

@[simp] lemma readSegment_advance (s : ZjStore) (token : ZjToken) :
    (advance s token).readSegment = token.segmentId := rfl

@[simp] lemma readOffset_advance (s : ZjStore) (token : ZjToken) :
    (advance s token).readOffset = token.stop := rfl

@[simp] lemma revision_advance (s : ZjStore) (token : ZjToken) :
    (advance s token).checkpointRevision = s.checkpointRevision + 1 := rfl

lemma lastSequence_advance (s : ZjStore) (token : ZjToken) :
    (advance s token).lastSequence =
      if token.sequence ≠ 0 then token.sequence else s.lastSequence := rfl

/-- Bytes that are still to be read. -/
def unread (s : ZjStore) : Nat :=
  (s.segments.map fun g => if g.id < s.readSegment then 0 else g.size - offsetIn s g).sum

/-- Every segment that is still to be read is there as the inventory has it. -/
structure Drainable (V : P.View) (w : ZjWorld π) : Prop where
  ready : w.ram.ready = true
  sorted : w.ram.segments.Pairwise (·.id < ·.id)
  ids : ∀ g ∈ w.ram.segments, g.id ≠ 0 ∧ g.id ≤ zjSequenceMax ∧ g.size < 2 ^ 32
  files : ∀ g ∈ w.ram.segments, w.ram.readSegment ≤ g.id → offsetIn w.ram g < g.size →
    ∃ f, w.disk.lookup g.id = some f ∧ f.size = g.size
  last : w.ram.lastSequence ≤ zjSequenceMax
  serves : V.serves w.nv.port
  revision : w.ram.checkpointRevision + unread w.ram ≤ uint64Max

lemma headSegment_spec {s : ZjStore} {g : ZjSegment} (h : headSegment s = some g) :
    g ∈ s.segments ∧ s.readSegment ≤ g.id ∧ offsetIn s g < g.size := by
  have hp := List.find?_some h
  simp only [Bool.and_eq_true, decide_eq_true_eq] at hp
  exact ⟨List.mem_of_find?_eq_some h, hp.1, hp.2⟩

lemma segment_eq {l : List ZjSegment} (h : l.Pairwise (·.id < ·.id)) {a b : ZjSegment} (ha : a ∈ l)
    (hb : b ∈ l) (hab : a.id = b.id) : a = b := by
  have hnodup : (l.map ZjSegment.id).Nodup := List.pairwise_map.2 (h.imp fun hlt => hlt.ne)
  exact List.inj_on_of_nodup_map hnodup ha hb hab

/-- A settlement leaves less to read. -/
lemma unread_advance_lt {s : ZjStore} {g : ZjSegment} {token : ZjToken}
    (hsorted : s.segments.Pairwise (·.id < ·.id)) (hg : headSegment s = some g)
    (hid : token.segmentId = g.id) (hstop : offsetIn s g < token.stop) :
    unread (advance s token) < unread s := by
  obtain ⟨hmem, hle, hlt⟩ := headSegment_spec hg
  have hself : ∀ x ∈ s.segments, x.id = g.id → x = g := fun x hx h => segment_eq hsorted hx hmem h
  unfold unread
  rw [segments_advance]
  apply List.sum_lt_sum
  · intro x hx
    simp only [offsetIn, readSegment_advance, readOffset_advance, hid]
    by_cases hxg : x.id = g.id
    · obtain rfl := hself x hx hxg
      simp only [offsetIn] at hstop
      split_ifs at hstop ⊢ <;> omega
    · split_ifs <;> omega
  · refine ⟨g, hmem, ?_⟩
    simp only [offsetIn, readSegment_advance, readOffset_advance, hid] at hstop hlt ⊢
    split_ifs at hstop hlt ⊢ <;> omega

/-- The checkpoint of a settlement is read back. -/
lemma parse_nextCheckpoint {log : List ZjSealed} {crypto : ZjCrypto} {s : ZjStore} {g : ZjSegment}
    {bytes : List UInt8} {item : ZjItem} (hlen : bytes.length = g.size)
    (hlt : offsetIn s g < g.size) (hid : item.token.segmentId = g.id)
    (hshape : Shape crypto log s g bytes item) (hmax : g.id ≤ zjSequenceMax)
    (h32 : g.size < 2 ^ 32) (hlast : s.lastSequence ≤ zjSequenceMax)
    (hrev : s.checkpointRevision < uint64Max) (receipt : Block 32) :
    parseCheckpoint (checkpointBytes (nextCheckpoint s item.token) receipt) =
      some (nextCheckpoint s item.token) := by
  refine parseCheckpoint_checkpointBytes receipt (Nat.succ_ne_zero _) hrev (hid.trans_le hmax) ?_ ?_
  · have := (hshape.bounds hlen hlt).2
    simp only [nextCheckpoint]
    omega
  · simp only [nextCheckpoint]
    split_ifs with hz
    · cases hshape with
      | observation _ _ ha _ _ _ hseq =>
        rw [hseq]
        exact (sequence_of_valid (valid_of_zjRecordDecode ha.decoded)).2
      | exception _ _ _ hseq => exact absurd hseq hz
    · exact hlast

lemma exec_zjStoreSettle {g : ZjSegment} {f : File} {item : ZjItem} (hw : Drainable V w)
    (hd : ∀ b, (P.crypto.digest b).isSome) (hreceipt : receipt.present = true)
    (hg : headSegment w.ram = some g) (hf : w.disk.lookup g.id = some f) (hs : f.size = g.size)
    (hitem : itemOf P.crypto w.nv.log w.ram g f.bytes = some item) :
    Prog.exec (zjStorePeek P) w = (.ok item, w) ∧ ∃ w', Drainable V w' ∧ w'.disk = w.disk ∧
      w'.nv.log = w.nv.log ∧ w'.ram = advance w.ram item.token ∧
      Prog.exec (zjStoreSettle P item.token receipt) w = (.ok (), w') := by
  obtain ⟨item', hitem', hpeek⟩ := exec_zjStorePeek hw.ready hg hf hs.symm hd
  rw [hitem] at hitem'
  cases hitem'
  obtain ⟨hmem, hle, ho⟩ := headSegment_spec hg
  obtain ⟨h0, hmax, hbig⟩ := hw.ids g hmem
  obtain ⟨hid, -, hshape⟩ := itemOf_shape (show f.bytes.length = g.size from hs) hitem
  obtain ⟨hpos, hstop⟩ := hshape.bounds hs ho
  have hless := unread_advance_lt hw.sorted hg hid hpos
  have hrev := hw.revision
  have hparse := parse_nextCheckpoint hs ho hid hshape hmax hbig hw.last (by omega) receipt
  obtain ⟨hok, hserves⟩ := V.commit_serves (checkpointBytes (nextCheckpoint w.ram item.token)
    receipt) w.nv.port hw.serves
  have hne : ¬w.ram.checkpointRevision = uint64Max := by omega
  refine ⟨hpeek, (portPart.set ((P.commit (checkpointBytes (nextCheckpoint w.ram item.token)
    receipt)).eval w.nv.port).2 w).onRam fun _ => advance w.ram item.token, ?_, rfl, rfl, rfl, ?_⟩
  · refine ⟨hw.ready, hw.sorted, hw.ids, fun x hx hxle hxlt => ?_,
      (bounds_of_parseCheckpoint hparse).2.2, hserves, ?_⟩
    · by_cases hxg : x.id = g.id
      · obtain rfl := segment_eq hw.sorted hx hmem hxg
        exact ⟨f, hf, hs⟩
      · refine hw.files x hx ?_ ?_
        all_goals
          simp only [offsetIn, World.ram_onRam, readSegment_advance, readOffset_advance,
            hid] at hxlt hxle ⊢
          split_ifs at hxlt ⊢ <;> omega
    · change w.ram.checkpointRevision + 1 + unread (advance w.ram item.token) ≤ uint64Max
      omega
  · have hnz : (nextCheckpoint w.ram item.token).segment ≠ 0 := by
      simp only [nextCheckpoint, hid]
      exact h0
    simp [zjStoreSettle, hw.ready, hreceipt, hne, hpeek, hok, loadCheckpoint, hparse, hnz]
    rfl

/-- Draining comes to an end, and what holds of the empty store and is passed on from the rest of
the items to all of them holds of what it yields. -/
lemma exists_drains {motive : ZjStore → List ZjItem → Prop} (hw : Drainable V w)
    (hd : ∀ b, (P.crypto.digest b).isSome) (hreceipt : receipt.present = true)
    (empty : ∀ s, headSegment s = none → motive s [])
    (item : ∀ s g f i items, s.segments = w.ram.segments → headSegment s = some g →
      w.disk.lookup g.id = some f → f.size = g.size →
      itemOf P.crypto w.nv.log s g f.bytes = some i → motive (advance s i.token) items →
      motive s (i :: items)) :
    ∃ items w', Drains P receipt w items w' ∧ motive w.ram items := by
  obtain ⟨n, hn⟩ : ∃ n, n = unread w.ram := ⟨_, rfl⟩
  induction n using Nat.strong_induction_on generalizing w with
  | _ n ih =>
    cases hg : headSegment w.ram with
    | none => exact ⟨[], w, .empty (exec_zjStorePeek_empty hw.ready hg), empty _ hg⟩
    | some g =>
      obtain ⟨hmem, hle, hlt⟩ := headSegment_spec hg
      obtain ⟨f, hf, hs⟩ := hw.files g hmem hle hlt
      obtain ⟨i, hi, -⟩ := exec_zjStorePeek hw.ready hg hf hs.symm hd
      obtain ⟨hpeek, w₁, hw₁, hdisk, hlog, hram, hsettle⟩ :=
        exec_zjStoreSettle hw hd hreceipt hg hf hs hi
      obtain ⟨hid, -, hshape⟩ := itemOf_shape (show f.bytes.length = g.size from hs) hi
      have hless : unread w₁.ram < n := by
        rw [hn, hram]
        exact unread_advance_lt hw.sorted hg hid (hshape.bounds hs hlt).1
      have hsegs : w₁.ram.segments = w.ram.segments := by
        rw [hram, segments_advance]
      obtain ⟨items, w', hdrain, hmotive⟩ := ih _ hless hw₁ (by
        intro s g f i items hsegs' hg' hf' hs' hi' hm
        rw [hdisk] at hf'
        rw [hlog] at hi'
        exact item s g f i items (hsegs'.trans hsegs) hg' hf' hs' hi' hm) rfl
      refine ⟨i :: items, w', .item hpeek hsettle hdrain, ?_⟩
      rw [hram] at hmotive
      exact item _ g f i items rfl hg hf hs hi hmotive

/-! ### One segment with arbitrary bytes -/

/-- The extents of the items are adjacent and not empty, and end at `size`. -/
def Tiles (size : Nat) : Nat → List ZjItem → Prop
  | off, []            => off = size
  | off, item :: items =>
    item.token.offset = off ∧ off < item.token.stop ∧ Tiles size item.token.stop items

/-- Every exception holds the bytes of its extent. -/
def Preserves (bytes : List UInt8) (items : List ZjItem) : Prop :=
  ∀ item ∈ items, item.kind = .preservedException →
    item.exceptionBytes = slice bytes item.token.offset (item.token.stop - item.token.offset) ∧
      item.token.stop - item.token.offset ≤ zjExceptionMax

/-- An authentic record from `off` on is among the items, unless it starts inside another record
that is, or its sequence is not above `last` and those before it. -/
def Finds (crypto : ZjCrypto) (log : List ZjSealed) (header bytes : List UInt8) (off last : Nat)
    (items : List ZjItem) : Prop :=
  ∀ p n o, off ≤ p → Authentic crypto log header bytes p n o → last < o.sequence →
    (∀ item ∈ items, item.kind = .observation → item.token.offset < p →
      item.token.sequence < o.sequence ∧ item.token.stop ≤ p) →
    ∃ item ∈ items, item.kind = .observation ∧ item.token.offset = p ∧
      item.observation = some o

section Single

variable {crypto : ZjCrypto} {log : List ZjSealed} {s : ZjStore} {g : ZjSegment}
  {bytes header : List UInt8} {m : ZjMetadata} {items : List ZjItem} {i : ZjItem}

lemma Authentic.pos {p n : Nat} {o : ZjObservation}
    (h : Authentic crypto log header bytes p n o) : 0 < n := by
  have := (marker_of_zjRecordLength h.framed).2.1
  omega

lemma Authentic.unique {p n n' : Nat} {o o' : ZjObservation}
    (h : Authentic crypto log header bytes p n o) (h' : Authentic crypto log header bytes p n' o') :
    n = n' ∧ o = o' := by
  obtain rfl : n = n' := Option.some.inj (h.framed.symm.trans h'.framed)
  exact ⟨rfl, Except.ok.inj (h.decoded.symm.trans h'.decoded)⟩

/-- What the rest of the items finds, all of them find. -/
lemma Finds.cons (hlen : bytes.length = g.size) (hh : headerAt g bytes = some (header, m))
    (hoff : i.token.offset = offsetIn s g) (hshape : Shape crypto log s g bytes i)
    (h : Finds crypto log header bytes i.token.stop (advance s i.token).lastSequence items) :
    Finds crypto log header bytes (offsetIn s g) s.lastSequence (i :: items) := by
  intro p n o hp ha hlast hbefore
  rw [List.forall_mem_cons] at hbefore
  rcases hp.eq_or_lt with rfl | hlt
  · cases hshape with
    | observation hkind hh' ha' _ hvalue =>
      rw [hh] at hh'
      cases hh'
      obtain ⟨-, rfl⟩ := ha.unique ha'
      exact ⟨i, List.mem_cons_self, hkind, hoff, hvalue⟩
    | exception _ _ _ _ hnone => exact absurd (hnone _ _ _ _ hh ha) (not_le.2 hlast)
  · have hrest : i.token.stop ≤ p ∧ (advance s i.token).lastSequence < o.sequence := by
      rw [lastSequence_advance]
      cases hshape with
      | observation hkind _ _ _ _ _ hseq =>
        obtain ⟨h1, h2⟩ := hbefore.1 hkind (hoff ▸ hlt)
        refine ⟨h2, ?_⟩
        split_ifs
        · exact h1
        · exact hlast
      | exception hkind hstop hbytes hseq hnone =>
        refine ⟨Shape.stop_le (.exception hkind hstop hbytes hseq hnone) hlen hkind hh ha hlt, ?_⟩
        rw [if_neg (by simpa using hseq)]
        exact hlast
    obtain ⟨item, hmem, hitem⟩ := h p n o hrest.1 ha hrest.2 hbefore.2
    exact ⟨item, List.mem_cons_of_mem _ hmem, hitem⟩

lemma Preserves.cons (ho : offsetIn s g < g.size) (hoff : i.token.offset = offsetIn s g)
    (hshape : Shape crypto log s g bytes i) (h : Preserves bytes items) :
    Preserves bytes (i :: items) := by
  unfold Preserves
  rw [List.forall_mem_cons]
  refine ⟨fun hkind => ?_, h⟩
  cases hshape with
  | observation hk => simp [hk] at hkind
  | exception _ hstop hbytes =>
    have hle := (extentOf_le bytes (headerAt g bytes).isSome ho).2
    have hsub : i.token.stop - i.token.offset =
        extentOf g bytes (offsetIn s g) (headerAt g bytes).isSome := by
      rw [hstop, hoff, Nat.add_sub_cancel_left]
    rw [hsub, hoff]
    exact ⟨hbytes, hle.trans (min_le_right _ _)⟩

/-- What draining from `s` makes of the only segment `g`. -/
structure Sweeps (crypto : ZjCrypto) (log : List ZjSealed) (g : ZjSegment)
    (header bytes : List UInt8) (s : ZjStore) (items : List ZjItem) : Prop where
  tiles : Tiles g.size (offsetIn s g) items
  preserves : Preserves bytes items
  finds : Finds crypto log header bytes (offsetIn s g) s.lastSequence items

/-- In the empty store the cursor is at the end of the file. -/
lemma Sweeps.nil (hlen : bytes.length = g.size) (hsegs : s.segments = [g])
    (hle : s.readSegment ≤ g.id) (hoff : offsetIn s g ≤ g.size) (hnone : headSegment s = none) :
    Sweeps crypto log g header bytes s [] := by
  have hend : offsetIn s g = g.size := by
    unfold headSegment at hnone
    rw [hsegs, List.find?_eq_none] at hnone
    have := hnone g (List.mem_singleton_self g)
    simp only [Bool.and_eq_true, decide_eq_true_eq, hle, true_and, not_lt] at this
    omega
  refine ⟨hend, by simp [Preserves], fun p n o hp ha _ _ => ?_⟩
  have := ha.pos
  have := ha.complete
  omega

lemma Sweeps.cons (hlen : bytes.length = g.size) (hh : headerAt g bytes = some (header, m))
    (hlt : offsetIn s g < g.size) (hi : itemOf crypto log s g bytes = some i)
    (h : Sweeps crypto log g header bytes (advance s i.token) items) :
    Sweeps crypto log g header bytes s (i :: items) := by
  obtain ⟨hseg, hoff, hshape⟩ := itemOf_shape hlen hi
  have hnext : offsetIn (advance s i.token) g = i.token.stop := by
    simp [offsetIn, hseg]
  obtain ⟨htiles, hpreserves, hfinds⟩ := h
  rw [hnext] at htiles hfinds
  exact ⟨⟨hoff, (hshape.bounds hlen hlt).1, htiles⟩, hpreserves.cons hlt hoff hshape,
    hfinds.cons hlen hh hoff hshape⟩

end Single

/-- A segment whose header decodes and whose other bytes are arbitrary is drained from its first
record on: the items tile the file, exceptions keep their bytes, and no authentic record is lost
to the damage around it. -/
theorem drain_resynchronises (V : P.View) {g : ZjSegment} {f : File} {header : List UInt8}
    {m : ZjMetadata} (hd : ∀ b, (P.crypto.digest b).isSome) (hreceipt : receipt.present = true)
    (hserves : V.serves w.nv.port) (hready : w.ram.ready = true) (hsegs : w.ram.segments = [g])
    (hf : w.disk.lookup g.id = some f) (hsize : f.size = g.size) (h32 : g.size < 2 ^ 32)
    (hvalid : g.metadataValid = true) (hheader : headerOf g.id f.bytes = some (header, m))
    (hle : w.ram.readSegment ≤ g.id)
    (hstart : w.ram.readSegment = g.id → w.ram.readOffset = zjMetaBytes)
    (hlast : w.ram.lastSequence ≤ zjSequenceMax)
    (hrev : w.ram.checkpointRevision + g.size ≤ uint64Max) :
    ∃ items w', Drains P receipt w items w' ∧ Tiles f.size zjMetaBytes items ∧
      Preserves f.bytes items ∧
      Finds P.crypto w.nv.log header f.bytes zjMetaBytes w.ram.lastSequence items := by
  have hlen : f.bytes.length = g.size := hsize
  obtain ⟨hid, h240⟩ := bounds_of_headerOf hheader
  have hoff : offsetIn w.ram g = zjMetaBytes := by
    unfold offsetIn
    split_ifs with h
    · exact hstart h.symm
    · rfl
  have hat : headerAt g f.bytes = some (header, m) := by
    rw [headerAt, if_neg (by omega), hheader]
  have hw : Drainable V w := by
    refine ⟨hready, ?_, ?_, ?_, hlast, hserves, ?_⟩
    · simp [hsegs]
    · simpa [hsegs] using ⟨hid.1, hid.2, h32⟩
    · simpa [hsegs] using fun _ _ => ⟨f, hf, hsize⟩
    · have : unread w.ram ≤ g.size := by
        simp only [unread, hsegs, List.map_cons, List.map_nil, List.sum_singleton]
        split_ifs <;> omega
      omega
  obtain ⟨items, w', hdrain, hsweeps⟩ := exists_drains
    (motive := fun s items => s.segments = [g] → s.readSegment ≤ g.id → offsetIn s g ≤ g.size →
      Sweeps P.crypto w.nv.log g header f.bytes s items) hw hd hreceipt
    (fun s hnone hs hsle hsoff => Sweeps.nil hlen hs hsle hsoff hnone) (by
      intro s g' f' i items _ hg' hf' _ hi hm hs _ _
      obtain ⟨hmem, -, hlt⟩ := headSegment_spec hg'
      obtain rfl : g' = g := by simpa [hs] using hmem
      obtain rfl : f' = f := Option.some.inj (hf'.symm.trans hf)
      obtain ⟨hseg, -, hshape⟩ := itemOf_shape hlen hi
      have hnext : offsetIn (advance s i.token) g' = i.token.stop := by
        simp [offsetIn, hseg]
      exact (hm hs hseg.le (hnext.symm ▸ (hshape.bounds hlen hlt).2)).cons hlen hat hlt hi)
  obtain ⟨htiles, hpreserves, hfinds⟩ := hsweeps hsegs hle (by omega)
  rw [hoff] at htiles hfinds
  rw [hsize]
  exact ⟨items, w', hdrain, htiles, hpreserves, hfinds⟩

/-- The metadata of a segment. -/
def sampleMetadata : ZjMetadata where
  segmentId := 7
  captureEpoch := ⟨List.replicate 16 1, rfl⟩
  terminalSerial := ascii "ZONE-1"
  decoderProfile := ascii "zkt"
  decoderVersion := ascii "1"

/-- A segment with a marker in the middle of bytes that are no record. -/
def sampleSegment : List UInt8 := (zjMetadataEncode sampleMetadata).getD [] ++ ascii "torn ZJO1"

/-- A store that has just opened a device with that one segment. -/
def sampleWorld : ZjWorld PlainStorage where
  disk := AList.insert 7 (File.synced sampleSegment) ∅
  nv := ⟨⟨none, 8⟩, [], []⟩
  ram := { ZjStore.zero with segments := [⟨7, 249, true, false⟩], ready := true }

theorem drain_resynchronises_sample :
    ∃ items w', Drains (plainPort plainCrypto) ⟨List.replicate 32 1, rfl⟩ sampleWorld items w' ∧
      Tiles (File.synced sampleSegment).size zjMetaBytes items ∧
      Preserves (File.synced sampleSegment).bytes items ∧
      Finds (plainPort plainCrypto).crypto sampleWorld.nv.log (slice sampleSegment 0 zjMetaBytes)
        (File.synced sampleSegment).bytes zjMetaBytes sampleWorld.ram.lastSequence items :=
  drain_resynchronises (plainView plainCrypto) (g := ⟨7, 249, true, false⟩) (m := sampleMetadata)
    (fun _ => rfl) (by decide) trivial rfl rfl (AList.lookup_insert _) (by decide +kernel)
    (by decide) rfl (by decide +kernel) (by decide) (fun h => absurd h (by decide)) (by decide)
    (by decide)

end Journal

end ZoneLite
