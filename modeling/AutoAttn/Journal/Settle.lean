import AutoAttn.Journal.Invariant

/-!
# Settling

A settlement moves the cursor over the item it was given, and over nothing else that was kept.
-/

namespace ZoneLite

open Bytes Crash

namespace Journal

variable {crypto : ZjCrypto} {whole : Prop} {kept : List ZjSealed} {settled : List ZjToken}
  {recs : Nat → List ZjSealed} {d : Stored} {s : ZjStore} {g : ZjSegment} {f : File}
  {item : ZjItem} {e : ZjSealed}

/-! ### The head segment -/

/-- Segments before the head have nothing left to read. -/
lemma size_le_of_lt_head (hsorted : s.segments.Pairwise (·.id < ·.id))
    (hg : headSegment s = some g) {x : ZjSegment} (hx : x ∈ s.segments) (hlt : x.id < g.id)
    (hle : s.readSegment ≤ x.id) : x.size ≤ offsetIn s x := by
  obtain ⟨-, before, after, hsegs, hbefore⟩ := List.find?_eq_some_iff_append.1 hg
  rw [hsegs] at hx hsorted
  rcases List.mem_append.1 hx with hx | hx
  · have := hbefore x hx
    simpa [hle] using this
  · -- From the head on, the ids are not smaller.
    obtain ⟨-, hcons, -⟩ := List.pairwise_append.1 hsorted
    rcases List.mem_cons.1 hx with rfl | hx
    · exact absurd hlt (lt_irrefl _)
    · exact absurd ((List.pairwise_cons.1 hcons).1 x hx) (not_lt.2 hlt.le)

/-- The records of segments before the head are before the cursor. -/
lemma Tracked.before_of_lt_head (ht : Tracked d recs s)
    (h : Sound crypto whole kept settled recs d) (hg : headSegment s = some g) {id : Nat}
    (he : e ∈ recs id) (hlt : id < g.id) {p : Nat} (hp : p < e.stop) : Before d.cursor id p := by
  rw [ht.cursor]
  by_cases hle : s.readSegment ≤ id
  · obtain ⟨f', header, tail, hf', hh, -⟩ := h.holds he
    obtain ⟨x, hx, rfl⟩ := ht.listed id (List.ne_nil_of_mem he)
    obtain ⟨hsize, -, hvalid⟩ := ht.faithful x hx f' hf'
    have hend := size_le_of_lt_head ht.sorted hg hx hlt hle
    have hstop := hh.stop_le he
    have hpos := (h.genuine e (hh.mine e he).2).pos
    have h240 := (hh.contiguous.bounds he).1
    have hvalid := hvalid (List.ne_nil_of_mem he)
    rw [hsize, File.size] at hend
    rw [ZjSealed.stop] at hstop hp
    rw [offsetIn] at hend
    split_ifs at hend with hrs
    · exact .inr ⟨hrs, show p < s.readOffset by omega⟩
    · omega
  · exact .inl (not_le.1 hle)

lemma segment_of_headerAt {bytes header : List UInt8} {m : ZjMetadata}
    (hat : headerAt g bytes = some (header, m)) (he : e.metadata = header) : e.segment = g.id := by
  obtain ⟨hm, hid⟩ := headerAt_some hat
  rw [ZjSealed.segment, he, hm]
  exact hid

/-- Where reading goes on in the head segment, if it has records. -/
lemma Tracked.offset_head (ht : Tracked d recs s) (hg : headSegment s = some g)
    (hf : d.disk.lookup g.id = some f) (hne : recs g.id ≠ []) :
    zjMetaBytes ≤ offsetIn s g ∧ ∀ p, zjMetaBytes ≤ p →
      (Before d.cursor g.id p ↔ p < offsetIn s g) := by
  obtain ⟨hmem, hle, -⟩ := headSegment_spec hg
  have hvalid := (ht.faithful g hmem f hf).2.2 hne
  rw [ht.cursor]
  unfold offsetIn Before
  split_ifs with hrs
  · exact ⟨(ht.inside g hmem hrs).2 hvalid, fun p _ => by simp [hrs]⟩
  · refine ⟨le_rfl, fun p hp => ?_⟩
    have : ¬g.id < s.readSegment := not_lt.2 hle
    simp [hrs, this, hp]

/-- With an ideal cipher, the place where reading goes on is inside no record. -/
lemma Sound.outside (h : Sound crypto whole kept settled recs d) (ht : Tracked d recs s)
    (hi : crypto.Ideal) (he : e ∈ recs g.id) :
    offsetIn s g ≤ e.offset ∨ e.stop ≤ offsetIn s g := by
  by_cases hrs : g.id = s.readSegment
  · have hcur : d.cursor.segment = g.id := by
      rw [ht.cursor, hrs]
    have := h.aligned hi e (hcur.symm ▸ he)
    rw [ht.cursor] at this
    rwa [offsetIn, if_pos hrs]
  · obtain ⟨f', header, tail, -, hh, -⟩ := h.holds he
    have hlo := (hh.contiguous.bounds he).1
    left
    rw [offsetIn, if_neg hrs]
    split_ifs <;> omega

/-- With an ideal cipher, a record at the cursor is the item. -/
lemma Sound.item_eq (h : Sound crypto whole kept settled recs d) (ht : Tracked d recs s)
    (hi : crypto.Ideal) (hg : headSegment s = some g) (hf : d.disk.lookup g.id = some f)
    (hshape : Shape crypto d.log s g f.bytes item) (he : e ∈ recs g.id)
    (hoff : offsetIn s g ≤ e.offset) :
    ∃ x ∈ recs g.id, x.offset = offsetIn s g ∧ item.token.stop = x.stop ∧
      item.token.sequence = x.sequence ∧ item.kind = .observation ∧
      item.observation = some x.observation := by
  have hne := List.ne_nil_of_mem he
  obtain ⟨f', header, tail, hf', hh, -⟩ := h.holds he
  obtain rfl : f' = f := Option.some.inj (hf'.symm.trans hf)
  obtain ⟨h240, hbefore⟩ := ht.offset_head hg hf hne
  have hout : ∀ x ∈ recs g.id, offsetIn s g ≤ x.offset ∨ x.stop ≤ offsetIn s g :=
    fun x hx => h.outside ht hi hx
  -- So the cursor is at the start of a record.
  obtain ⟨x, hx, hxoff⟩ : ∃ x ∈ recs g.id, x.offset = offsetIn s g := by
    rcases hh.contiguous.starts_or h240 hout with hx | hend
    · exact hx
    · have hstop := (hh.contiguous.bounds he).2
      have := (h.genuine e (hh.mine e he).2).pos
      rw [ZjSealed.stop] at hstop
      omega
  have hauth := hh.authentic hi h.order h.genuine hx
  have hlate : s.lastSequence < x.sequence := by
    have hnot : ¬Before d.cursor g.id x.offset := by
      rw [hbefore _ (hh.contiguous.bounds hx).1]
      omega
    have := h.later hi g.id x hx hnot
    rwa [ht.cursor] at this
  obtain ⟨m, hm⟩ := hh.headerOf
  have hat : headerAt g f'.bytes = some (header, m) := by
    have hsize := (ht.faithful g (headSegment_spec hg).1 f' hf).1
    have := hh.length_eq
    rw [File.size] at hsize
    rw [headerAt, if_neg (by omega), hm]
  rw [hxoff] at hauth
  refine ⟨x, hx, hxoff, ?_⟩
  cases hshape with
  | observation hkind hat' hauth' _ hvalue hstop hseq =>
    rw [hat] at hat'
    cases hat'
    obtain ⟨hn, ho⟩ := hauth.unique hauth'
    rw [hstop, hseq, hvalue, ← hn, ← ho, ZjSealed.stop, hxoff]
    exact ⟨rfl, rfl, hkind, rfl⟩
  | exception _ _ _ _ hnone => exact absurd (hnone _ _ _ _ hat hauth) (not_le.2 hlate)

/-! ### Moving the cursor -/

section Settle

variable (h : Sound crypto whole kept settled recs d) (ht : Tracked d recs s)
  (hg : headSegment s = some g) (hf : d.disk.lookup g.id = some f)
  (hid : item.token.segmentId = g.id) (hoff : item.token.offset = offsetIn s g)
  (hshape : Shape crypto d.log s g f.bytes item)

include ht hg hf hid hshape in
/-- What was before the cursor still is. -/
lemma before_next {id p : Nat} (hb : Before d.cursor id p) :
    Before (nextCheckpoint s item.token) id p := by
  obtain ⟨hmem, hle, hlt⟩ := headSegment_spec hg
  have hsize : f.bytes.length = g.size := (ht.faithful g hmem f hf).1.symm
  have hpos := (hshape.bounds hsize hlt).1
  rw [ht.cursor] at hb
  simp only [Before, nextCheckpoint, hid] at hb ⊢
  rcases hb with hb | ⟨rfl, hb⟩
  · exact .inl (by omega)
  · rcases hle.eq_or_lt with heq | hlt'
    · rw [offsetIn, if_pos heq.symm] at hpos
      exact .inr ⟨heq, by omega⟩
    · exact .inl hlt'

include h ht hg hf hid in
/-- A byte of a record that gets before the cursor is in the extent of the item. -/
lemma inside_of_before_next {id p : Nat} (he : e ∈ recs id) (hlo : e.offset ≤ p)
    (hhi : p < e.stop) (hnot : ¬Before d.cursor id p)
    (hb : Before (nextCheckpoint s item.token) id p) :
    id = g.id ∧ offsetIn s g ≤ p ∧ p < item.token.stop := by
  simp only [Before, nextCheckpoint, hid] at hb
  rcases hb with hlt | ⟨rfl, hlt⟩
  · exact absurd (ht.before_of_lt_head h hg he hlt hhi) hnot
  · obtain ⟨f', header, tail, hf', hh, -⟩ := h.holds he
    have hbefore := (ht.offset_head hg hf (List.ne_nil_of_mem he)).2 p
      ((hh.contiguous.bounds he).1.trans hlo)
    exact ⟨rfl, not_lt.1 fun hp => hnot (hbefore.2 hp), hlt⟩

include h ht hg hf hid hshape in
/-- With an ideal cipher, the record that gets before the cursor is the item. -/
lemma eq_item_of_before_next (hi : crypto.Ideal) {id : Nat} (he : e ∈ recs id)
    (hnot : ¬Before d.cursor id e.offset)
    (hb : Before (nextCheckpoint s item.token) id e.offset) :
    id = g.id ∧ e.offset = offsetIn s g ∧ e.stop = item.token.stop := by
  obtain ⟨f', header, tail, hf', hh, -⟩ := h.holds he
  have hpos := (h.genuine e (hh.mine e he).2).pos
  obtain ⟨rfl, hlo, hhi⟩ := inside_of_before_next h ht hg hf hid he le_rfl
    (by rw [ZjSealed.stop]; omega) hnot hb
  obtain ⟨x, hx, hxoff, hstop, -⟩ := h.item_eq ht hi hg hf hshape he hlo
  rcases hh.contiguous.apart he hx with rfl | ⟨hle, -⟩ | ⟨hle, -⟩
  · exact ⟨rfl, hxoff, hstop.symm⟩
  · rw [ZjSealed.stop] at hle
    omega
  · omega

include h ht hg hf hid hshape in
/-- With an ideal cipher, what is behind the item has a later sequence. -/
lemma sequence_lt_of_not_before (hi : crypto.Ideal) {id : Nat} (he : e ∈ recs id)
    (hnot : ¬Before (nextCheckpoint s item.token) id e.offset) :
    (nextCheckpoint s item.token).sequence < e.sequence := by
  have hold : ¬Before d.cursor id e.offset := fun hb => hnot (before_next ht hg hf hid hshape hb)
  have hlast : s.lastSequence < e.sequence := by
    have := h.later hi id e he hold
    rwa [ht.cursor] at this
  obtain ⟨f', header', tail, hf', hh, -⟩ := h.holds he
  cases hshape with
  | exception _ _ _ hseq => simpa [nextCheckpoint, hseq] using hlast
  | @observation header m n o hkind hat hauth hlate hvalue hstop hseq =>
    simp only [nextCheckpoint, hseq]
    split_ifs
    swap
    · exact hlast
    simp only [Before, nextCheckpoint, hid, not_or, not_and, not_lt] at hnot
    rcases hnot.1.eq_or_lt with rfl | hlt
    · -- In the same segment: the item is one of the records before `e`.
      obtain ⟨x, hx, hxoff, hxstop, hxseq, -⟩ := h.item_eq ht hi hg hf
        (.observation hkind hat hauth hlate hvalue hstop hseq) he (by
          have := hnot.2 rfl
          omega)
      have hpos := (h.genuine e (hh.mine e he).2).pos
      rw [← hseq, hxseq]
      rcases hh.contiguous.apart he hx with rfl | ⟨hle, -⟩ | ⟨-, hlt⟩
      · have := hnot.2 rfl
        rw [hxstop, ZjSealed.stop] at this
        omega
      · have := hnot.2 rfl
        rw [ZjSealed.stop] at hle
        omega
      · exact hlt
    · -- In a later segment: the item was sealed for this one.
      obtain ⟨x, hx, hxm, -, rfl⟩ := sealed_of_decode hi h.genuine hauth.decoded
      have hxseg : x.segment = g.id := segment_of_headerAt hat hxm
      refine h.order.sequence_lt hx (hh.mine e he).2 (h.genuine x hx)
        (h.genuine e (hh.mine e he).2) ?_
      rw [hxseg, hh.segment he]
      exact hlt

include h ht hg hf hid hoff hshape in
/-- The settlement of the item reaches storage. -/
lemma Sound.settle {cp : Block zjCheckpointBytes}
    (hcp : parseCheckpoint cp = some (nextCheckpoint s item.token)) :
    Sound crypto whole kept (item.token :: settled) recs { d with checkpoint := some cp } := by
  have hcursor : Stored.cursor { d with checkpoint := some cp } = nextCheckpoint s item.token := by
    simp [Stored.cursor, hcp]
  obtain ⟨hmem, -, hlt'⟩ := headSegment_spec hg
  refine
    { counted := ⟨h.counted.sorted, h.counted.below⟩
      files := h.files
      genuine := h.genuine
      drawn := h.drawn
      order := h.order
      layout := h.layout
      gone := h.gone
      kept_log := h.kept_log
      kept_stable := h.kept_stable
      covered := ?_
      pointed := ?_
      last := ?_
      aligned := ?_
      later := ?_
      retired := ?_
      placed := h.placed }
  · intro x hx p hlo hhi hor
    rw [hcursor] at hor
    by_cases hold : d.disk.lookup x.segment = none ∨ Before d.cursor x.segment p
    · exact (h.covered x hx p hlo hhi hold).cons _
    · rw [not_or] at hold
      obtain ⟨fx, hfx⟩ := Option.ne_none_iff_exists'.1 hold.1
      have hb := hor.resolve_left hold.1
      obtain ⟨hseg, hge, hlt⟩ := inside_of_before_next h ht hg hf hid
        (h.kept_stable x hx fx hfx).1 hlo hhi hold.2 hb
      exact ⟨item.token, List.mem_cons_self, hid.trans hseg.symm, hoff ▸ hge, hlt⟩
  · rw [hcursor]
    refine .inr ?_
    change item.token.segmentId ∈ d.handed
    rw [hid]
    exact (ht.known g hmem).1
  · intro hi
    rw [hcursor]
    cases hshape with
    | exception _ _ _ hseq => simpa [nextCheckpoint, hseq, ht.cursor] using h.last hi
    | observation hkind hat hauth hlate hvalue hstop hseq =>
      obtain ⟨x, hx, -, -, rfl⟩ := sealed_of_decode hi h.genuine hauth.decoded
      have hnz : x.observation.sequence ≠ 0 := by omega
      refine .inr ?_
      simp only [nextCheckpoint, hseq, hnz, ne_eq, not_false_eq_true, if_true]
      exact (h.drawn x hx).1
  · intro hi x hx
    rw [hcursor] at hx ⊢
    change x ∈ recs item.token.segmentId at hx
    rw [hid] at hx
    change item.token.stop ≤ x.offset ∨ x.stop ≤ item.token.stop
    by_cases hb : Before (nextCheckpoint s item.token) g.id x.offset
    · right
      by_cases hold : Before d.cursor g.id x.offset
      · obtain ⟨f', header, tail, hf', hh, -⟩ := h.holds hx
        have hlt := ((ht.offset_head hg hf (List.ne_nil_of_mem hx)).2 _
          (hh.contiguous.bounds hx).1).1 hold
        have hpos := (hshape.bounds (ht.faithful g hmem f hf).1.symm hlt').1
        have := (h.outside ht hi hx).resolve_left (not_le.2 hlt)
        omega
      · exact (eq_item_of_before_next h ht hg hf hid hshape hi hx hold hb).2.2.le
    · left
      exact not_lt.1 fun hlt => hb (.inr ⟨hid.symm, hlt⟩)
  · intro hi id x hx hnot
    rw [hcursor] at hnot ⊢
    exact sequence_lt_of_not_before h ht hg hf hid hshape hi hx hnot
  · intro hi hw id x hx hb
    rw [hcursor] at hb
    by_cases hold : Before d.cursor id x.offset
    · obtain ⟨t, ht', hrest⟩ := h.retired hi hw id x hx hold
      exact ⟨t, List.mem_cons_of_mem _ ht', hrest⟩
    · obtain ⟨rfl, hxoff, hxstop⟩ := eq_item_of_before_next h ht hg hf hid hshape hi hx hold hb
      exact ⟨item.token, List.mem_cons_self, hid, hoff.trans hxoff.symm, hxstop.symm⟩

include ht hg hf hid hshape in
/-- The store follows the cursor. -/
lemma Tracked.settle {cp : Block zjCheckpointBytes}
    (hcp : parseCheckpoint cp = some (nextCheckpoint s item.token)) :
    Tracked { d with checkpoint := some cp } recs (advance s item.token) := by
  obtain ⟨hmem, hle, hlt⟩ := headSegment_spec hg
  obtain ⟨hpos, hstop⟩ := hshape.bounds (ht.faithful g hmem f hf).1.symm hlt
  refine
    { sorted := ht.sorted
      known := ht.known
      listed := ht.listed
      faithful := ht.faithful
      missing := fun x hx hnone => ?_
      cursor := by simp [Stored.cursor, hcp]; rfl
      inside := fun x hx hxid => ?_
      writing := fun hw => ?_
      counting := ht.counting }
  · change x.id < item.token.segmentId ∨ x.size ≤ offsetIn (advance s item.token) x
    rw [hid]
    have hold := ht.missing x hx hnone
    by_cases hxg : x.id = g.id
    · rw [hxg] at hnone
      simp [hf] at hnone
    · simp only [offsetIn, readSegment_advance, hid, hxg, if_false] at hold ⊢
      split_ifs at hold ⊢ <;> omega
  · obtain rfl : x = g := segment_eq ht.sorted hx hmem (hxid.trans hid)
    refine ⟨hstop, fun hvalid => ?_⟩
    change zjMetaBytes ≤ item.token.stop
    rw [offsetIn] at hpos
    split_ifs at hpos with hrs
    · have := (ht.inside x hmem hrs).2 hvalid
      omega
    · omega
  · obtain ⟨hlisted, hfile, hnewest, -, hlog⟩ := ht.writing hw
    exact ⟨hlisted, hfile, hnewest, (hid.trans_le (hnewest g hmem) : item.token.segmentId ≤ _), hlog⟩

end Settle

end Journal

end ZoneLite
