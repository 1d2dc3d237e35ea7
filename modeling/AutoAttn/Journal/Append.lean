import AutoAttn.Journal.Safety

/-!
# Appending keeps the invariant

A number is drawn for every new segment and every record, so a new file or a new record comes
after everything there is. What of it lands is a prefix: the beginning of a header, or of a record.
-/

namespace ZoneLite

open Bytes Crash

namespace Journal

section Storage

variable {crypto : ZjCrypto} {whole : Prop} {kept : List ZjSealed} {settled : List ZjToken}
  {recs : Nat → List ZjSealed} {d : Stored} {s : ZjStore} {e : ZjSealed}

/-! ### New files -/

lemma layout_of_start {log : List ZjSealed} {id : Nat} {f : File} {header : List UInt8}
    {m : ZjMetadata} (hm : zjMetadataDecode header = some m) (hid : m.segmentId = id)
    (hf : f.bytes <+: header) : Layout whole log id f [] := by
  have hlen := length_of_zjMetadataEncode (zjMetadataEncode_of_decode hm)
  by_cases hlt : f.size < zjMetaBytes
  · exact .inl ⟨rfl, fun _ => hlt⟩
  · have hfull : f.bytes = header := hf.eq_of_length_le (by rw [hlen]; exact not_lt.1 hlt)
    exact .inr ⟨header, [], ⟨⟨m, hm, hid⟩, by simp [hfull, flat], trivial, by simp⟩,
      fun _ => .inl rfl⟩

/-- A file that was not there is created. -/
lemma Sound.create (h : Sound crypto whole kept settled recs d) {id : Nat} {f : File}
    {disk : Disk Nat} (hdisk : ∀ k, disk.lookup k = if k = id then some f else d.disk.lookup k)
    (hid : id ∈ d.handed) (hnone : d.disk.lookup id = none) (hlog : ∀ x ∈ d.log, x.segment ≠ id)
    (hl : Layout whole d.log id f []) :
    Sound crypto whole kept settled recs { d with disk := disk } := by
  have hnil := h.gone id hnone
  refine h.replace hdisk (fun _ _ => rfl) hid (by simp [hnone]) (fun _ => hlog) (hnil ▸ hl)
    (fun _ he => he) (fun _ he => .inl he) fun _ x hx hseg => absurd hseg (hlog x hx)

/-- A number that was drawn after everything there is. -/
structure Fresh (d : Stored) (s : ZjStore) (id : Nat) : Prop where
  handed : id ∈ d.handed
  log : ∀ x ∈ d.log, x.segment < id ∧ x.sequence < id
  listed : ∀ g ∈ s.segments, g.id < id
  cursor : d.cursor.segment < id

lemma Sound.fresh (h : Sound crypto whole kept settled recs d) (limit : Nat) {id : Nat}
    (hid : ∀ v ∈ d.handed, v < id) (hpos : 0 < id) (hs : ∀ g ∈ s.segments, g.id ∈ d.handed) :
    Fresh { d with handed := id :: d.handed, limit := limit } s id ∧ d.disk.lookup id = none := by
  refine ⟨⟨List.mem_cons_self, fun x hx => ⟨hid _ (h.drawn x hx).2, hid _ (h.drawn x hx).1⟩,
    fun g hg => hid _ (hs g hg), ?_⟩, ?_⟩
  · rcases h.pointed with h0 | hmem
    · exact h0.trans_lt hpos
    · exact hid _ hmem
  · cases hf : d.disk.lookup id with
    | none => rfl
    | some f => exact absurd (hid id (h.files id f hf)) (lt_irrefl id)

/-- A file appears that the inventory does not know. -/
lemma Tracked.orphan (h : Tracked d recs s) {id : Nat} {f : File} {disk : Disk Nat}
    (hdisk : ∀ k, disk.lookup k = if k = id then some f else d.disk.lookup k)
    (hfresh : Fresh d s id) (hw : s.writerId = 0) :
    Tracked { d with disk := disk } recs s where
  sorted := h.sorted
  known := h.known
  listed := h.listed
  faithful g hg f' hf' := by
    rw [hdisk, if_neg (hfresh.listed g hg).ne] at hf'
    exact h.faithful g hg f' hf'
  missing g hg hn := by
    rw [hdisk, if_neg (hfresh.listed g hg).ne] at hn
    exact h.missing g hg hn
  cursor := h.cursor
  inside := h.inside
  writing h0 := absurd hw h0
  counting := h.counting

/-- The new file enters the inventory. -/
lemma Tracked.enlist (h : Tracked d recs s) {id : Nat} {f : File} {valid evidence : Bool}
    (hf : d.disk.lookup id = some f) (hfresh : Fresh d s id) (hnil : recs id = [])
    (hw : s.writerId = 0) (hsize : f.size < 2 ^ 32)
    (hvalid : valid = true → (headerOf id f.bytes).isSome) :
    Tracked d recs (pushSegment ⟨id, f.size, valid, evidence⟩ s) where
  sorted := by
    refine List.pairwise_append.2 ⟨h.sorted, List.pairwise_singleton _ _, fun g hg x hx => ?_⟩
    rw [List.mem_singleton.1 hx]
    exact hfresh.listed g hg
  known := List.forall_mem_append.2 ⟨h.known, by simpa using ⟨hfresh.handed, hsize⟩⟩
  listed k hk := by
    obtain ⟨g, hg, hgk⟩ := h.listed k hk
    exact ⟨g, List.mem_append_left _ hg, hgk⟩
  faithful := by
    refine List.forall_mem_append.2 ⟨h.faithful, fun g hg f' hf' => ?_⟩
    obtain rfl := List.mem_singleton.1 hg
    obtain rfl : f' = f := Option.some.inj (hf'.symm.trans hf)
    exact ⟨rfl, hvalid, fun hne => absurd hnil hne⟩
  missing := by
    refine List.forall_mem_append.2 ⟨h.missing, fun g hg hn => ?_⟩
    obtain rfl := List.mem_singleton.1 hg
    simp [hf] at hn
  cursor := h.cursor
  inside := by
    refine List.forall_mem_append.2 ⟨h.inside, fun g hg hgs => ?_⟩
    obtain rfl := List.mem_singleton.1 hg
    have hcursor := hfresh.cursor
    rw [h.cursor] at hcursor
    exact absurd hgs.symm hcursor.ne
  writing h0 := absurd hw h0
  counting := h.counting

lemma setSegment_pushSegment {id : Nat} (f : ZjSegment → ZjSegment) {g : ZjSegment}
    (hid : g.id = id) (h : ∀ x ∈ s.segments, x.id < id) :
    ZjStore.setSegment id f (pushSegment g s) = pushSegment (f g) s := by
  have hmap : (s.segments.map fun x => if x.id = id then f x else x) = s.segments := by
    refine (List.map_congr_left fun x hx => ?_).trans (List.map_id _)
    exact if_neg (h x hx).ne
  simp only [ZjStore.setSegment, pushSegment, List.map_append, hmap, List.map_cons, List.map_nil,
    hid, if_true]

/-- The writer's header may change as long as there is no writer. -/
lemma Tracked.prepare (h : Tracked d recs s) (hw : s.writerId = 0)
    (metadata : Option ZjMetadata) (header : List UInt8) :
    Tracked d recs { s with writerMetadata := metadata, writerHeader := header } :=
  { h with writing := fun h0 => absurd hw h0 }

/-- Drawing numbers changes nothing else. -/
lemma Tracked.draw (h : Tracked d recs s) {given : List Nat} {limit : Nat} {q : ZjSequence}
    (hq : Counting { d with handed := given ++ d.handed, limit := limit } q) :
    Tracked { d with handed := given ++ d.handed, limit := limit } recs { s with sequence := q } where
  sorted := h.sorted
  known g hg := ⟨List.mem_append_right _ (h.known g hg).1, (h.known g hg).2⟩
  listed := h.listed
  faithful := h.faithful
  missing := h.missing
  cursor := h.cursor
  inside := h.inside
  writing h0 := ⟨(h.writing h0).listed, (h.writing h0).file, (h.writing h0).newest,
    (h.writing h0).reached, (h.writing h0).log⟩
  counting := hq

/-! ### New records -/

/-- The record is sealed, and not written yet. -/
lemma Tracked.push (h : Tracked d recs s) (he : s.writerId ≠ 0 → e.segment = s.writerId) :
    Tracked { d with log := e :: d.log } recs s :=
  { h with
    writing := fun h0 => by
      obtain ⟨f, hf, hh⟩ := (h.writing h0).file
      exact ⟨(h.writing h0).listed, ⟨f, hf, Sound.Holds_log_mono hh e⟩, (h.writing h0).newest,
        (h.writing h0).reached,
        List.forall_mem_cons.2 ⟨.inl (he h0), (h.writing h0).log⟩⟩ }

lemma Genuine.length_le (h : Genuine crypto e) : e.record.length ≤ zjRecordMax := by
  rw [h.length]
  exact (zjRecordEncode_ok h.encoded).2.2.1

/-- The last record that was sealed, for the end of its segment's file. -/
structure Pending (crypto : ZjCrypto) (d : Stored) (recs : Nat → List ZjSealed) (f : File)
    (e : ZjSealed) : Prop where
  log : e ∈ d.log
  newest : ∀ x ∈ d.log, x.metadata = e.metadata → x = e ∨ x.sequence < e.sequence
  file : d.disk.lookup e.segment = some f
  holds : Holds d.log e.segment f.bytes (recs e.segment) e.metadata []
  offset : e.offset = f.size
  ahead : ¬Before d.cursor e.segment e.offset
  last : crypto.Ideal → d.cursor.sequence < e.sequence

lemma Pending.contiguous {f : File} (hp : Pending crypto d recs f e) (hg : Genuine crypto e) :
    Contiguous zjMetaBytes (recs e.segment ++ [e]) := by
  have hlen := hp.holds.length_eq
  refine hp.holds.contiguous.concat ?_ fun x hx => ?_
  · rw [hp.offset, File.size, hlen, List.length_nil, Nat.add_zero]
  · obtain ⟨hm, hlog⟩ := hp.holds.mine x hx
    rcases hp.newest x hlog hm with rfl | hlt
    · have hstop := hp.holds.stop_le hx
      have hpos := hg.pos
      have hoff := hp.offset
      rw [ZjSealed.stop] at hstop
      rw [File.size] at hoff
      omega
    · exact hlt

lemma writer_spec {g : ZjSegment} (h : writer s = some g) :
    s.writerId ≠ 0 ∧ g ∈ s.segments ∧ g.id = s.writerId := by
  unfold writer at h
  split_ifs at h with h0
  exact ⟨h0, List.mem_of_find?_eq_some h, by simpa using List.find?_some h⟩

/-- A record is sealed for the end of the writer's file. -/
lemma Sound.pending (hs : Sound crypto whole kept settled recs d) {segment : ZjSegment}
    {o : ZjObservation} {record : List UInt8} {limit : Nat} {d' : Stored}
    (hd' : d' = { d with handed := o.sequence :: d.handed, limit := limit })
    (hs' : Sound crypto whole kept settled recs d') (ht' : Tracked d' recs s)
    (hwriter : writer s = some segment) (hnew : ∀ x ∈ d.handed, x < o.sequence)
    (henc : zjRecordEncode crypto s.writerHeader o zjRecordMax = .ok record)
    (he : e = ⟨s.writerHeader, o, record, segment.size⟩) :
    e.segment = s.writerId ∧ Sound crypto whole kept settled recs { d' with log := e :: d'.log } ∧
      Tracked { d' with log := e :: d'.log } recs s ∧
      ∃ f, Pending crypto { d' with log := e :: d'.log } recs f e := by
  obtain ⟨h0, hmem, hid⟩ := writer_spec hwriter
  have hw := ht'.writing h0
  obtain ⟨f, hf, hh⟩ := hw.file
  have hseg : e.segment = s.writerId := by
    obtain ⟨m, hm, hmid⟩ := hh.named
    rw [he, ZjSealed.segment, hm]
    exact hmid
  have hseq : e.sequence = o.sequence := by rw [he]; rfl
  have hheader : e.metadata = s.writerHeader := by rw [he]
  have hoff : e.offset = f.size := by
    rw [he]
    exact (ht'.faithful segment hmem f (hid ▸ hf)).1
  have hold : s.writerId ∈ d.handed := hs.files _ f (by rw [hd'] at hf; exact hf)
  have hhanded : d'.handed = o.sequence :: d.handed := by rw [hd']
  have hlog : ∀ x ∈ d'.log, x.sequence < o.sequence := by
    rw [hd']
    exact fun x hx => hnew _ (hs.drawn x hx).1
  have hgenuine : Genuine crypto e := by
    refine ⟨by rw [he]; exact henc, ?_⟩
    rw [hseg, hseq]
    exact hnew _ hold
  have hafter : ∀ x ∈ d'.log, Earlier x e := fun x hx =>
    ⟨hseq ▸ hlog x hx, hseg ▸ hw.log x hx⟩
  refine ⟨hseg, hs'.push hgenuine ?_ hafter (hseg ▸ hf) ?_ hoff, ht'.push fun _ => hseg, f,
    List.mem_cons_self, ?_, hseg ▸ hf, ?_, hoff, ?_, fun hi => ?_⟩
  · rw [hseg, hseq, hhanded]
    exact ⟨List.mem_cons_self, List.mem_cons_of_mem _ hold⟩
  · rw [hseg, hheader]
    exact hh
  · exact List.forall_mem_cons.2 ⟨fun _ => .inl rfl, fun x hx _ => .inr (hseq ▸ hlog x hx)⟩
  · rw [hseg, hheader]
    exact Sound.Holds_log_mono hh e
  · show ¬Before d'.cursor e.segment e.offset
    rw [ht'.cursor, hseg, hoff]
    rintro (hlt | ⟨heq, hlt⟩)
    · exact absurd hw.reached (not_le.2 hlt)
    · have hin := (ht'.inside segment hmem (hid.trans heq)).1
      rw [(ht'.faithful segment hmem f (hid ▸ hf)).1] at hin
      exact absurd hin (not_le.2 hlt)
  · show d'.cursor.sequence < e.sequence
    rw [hseq]
    have hpos := (hs'.counted.below o.sequence (by rw [hhanded]; exact List.mem_cons_self)).1
    rw [show d'.cursor = d.cursor by rw [hd']; rfl]
    rcases hs.last hi with hzero | hl
    · omega
    · exact hnew _ hl

/-- Some of the record lands: all of it, and the file holds one more record, or a beginning. -/
lemma Sound.grow (h : Sound crypto whole kept settled recs d) {f f' : File} {disk : Disk Nat}
    (hp : Pending crypto d recs f e)
    (hdisk : ∀ k, disk.lookup k = if k = e.segment then some f' else d.disk.lookup k)
    (hgrown : Grown e.record f f') :
    ∃ recs' tail, Sound crypto whole kept settled recs' { d with disk := disk } ∧
      (∀ k, k ≠ e.segment → recs' k = recs k) ∧
      Holds d.log e.segment f'.bytes (recs' e.segment) e.metadata tail ∧
      (f'.bytes = f.bytes ++ e.record → e ∈ recs' e.segment ∧ tail = []) := by
  obtain ⟨⟨t, ht, hb⟩, hstable⟩ := hgrown
  have hge := h.genuine e hp.log
  have hid : e.segment ∈ d.handed := (h.drawn e hp.log).2
  have hlen : e.offset = zjMetaBytes + (flat (recs e.segment)).length := by
    rw [hp.offset, File.size, hp.holds.length_eq, List.length_nil, Nat.add_zero]
  have hstable' : ∀ f₀, d.disk.lookup e.segment = some f₀ → f₀.stable ≤ f'.stable := by
    intro f₀ hf₀
    obtain rfl : f₀ = f := Option.some.inj (hf₀.symm.trans hp.file)
    exact hstable
  have hnew : d.disk.lookup e.segment = none → ∀ x ∈ d.log, x.segment ≠ e.segment := by
    simp [hp.file]
  by_cases hfull : t = e.record
  · subst hfull
    obtain ⟨recs', hself, hrest⟩ : ∃ recs' : Nat → List ZjSealed,
        recs' e.segment = recs e.segment ++ [e] ∧ ∀ k, k ≠ e.segment → recs' k = recs k :=
      ⟨fun k => if k = e.segment then recs e.segment ++ [e] else recs k, by simp,
        fun k hk => by simp [hk]⟩
    have hh : Holds d.log e.segment f'.bytes (recs' e.segment) e.metadata [] := by
      rw [hself]
      refine ⟨hp.holds.named, ?_, hp.contiguous hge, ?_⟩
      · rw [hb, hp.holds.bytes_eq]
        simp [flat]
      · exact List.forall_mem_append.2 ⟨hp.holds.mine, by simp [hp.log]⟩
    refine ⟨recs', [], h.replace hdisk hrest hid hstable' hnew (.inr ⟨_, _, hh, fun _ => .inl rfl⟩)
      ?_ ?_ ?_, hrest, hh, fun _ => ⟨by simp [hself], rfl⟩⟩
    · intro x hx
      rw [hself]
      exact List.mem_append_left _ hx
    · intro x hx
      rw [hself] at hx
      rcases List.mem_append.1 hx with hx | hx
      · exact .inl hx
      · obtain rfl := List.mem_singleton.1 hx
        exact .inr ⟨hp.ahead, hp.last⟩
    · intro hw x hx hseg
      left
      rw [hself]
      rcases h.placed hw x hx f (hseg ▸ hp.file) with ⟨y, hy, heq⟩ | hend
      · exact ⟨y, List.mem_append_left _ (hseg ▸ hy), heq⟩
      · exact ⟨e, by simp, by rw [hend, hlen, hseg]⟩
  · have hlt : t.length < e.record.length :=
      lt_of_le_of_ne ht.length_le fun heq => hfull (ht.eq_of_length heq)
    have hh : Holds d.log e.segment f'.bytes (recs e.segment) e.metadata t := by
      refine ⟨hp.holds.named, ?_, hp.holds.contiguous, hp.holds.mine⟩
      rw [hb, hp.holds.bytes_eq, List.append_nil]
    refine ⟨recs, t, h.replace hdisk (fun _ _ => rfl) hid hstable' hnew
      (.inr ⟨_, _, hh, fun _ => .inr ⟨e, hp.log, rfl, hlen, ht, hlt, fun x hx hm => ?_⟩⟩)
      (fun _ hx => hx) (fun _ hx => .inl hx) ?_, fun _ _ => rfl, hh, fun heq => ?_⟩
    · rcases hp.newest x hx hm with rfl | hlt
      · exact le_rfl
      · exact hlt.le
    · intro hw x hx hseg
      have := h.placed hw x hx f (hseg ▸ hp.file)
      rwa [hseg] at this
    · rw [hb] at heq
      exact absurd (List.append_cancel_left heq) hfull

lemma mem_setSegment {id : Nat} {size : ZjSegment → Nat} {x : ZjSegment}
    (hx : x ∈ (ZjStore.setSegment id (fun g => { g with size := size g }) s).segments) :
    ∃ g ∈ s.segments, g.id = x.id ∧ g.metadataValid = x.metadataValid ∧
      x.size = if g.id = id then size g else g.size := by
  obtain ⟨g, hg, rfl⟩ := List.mem_map.1 hx
  refine ⟨g, hg, ?_⟩
  split_ifs with hid <;> exact ⟨rfl, rfl, rfl⟩

/-- The inventory follows a file that grew. -/
lemma Tracked.grow (h : Tracked d recs s) {recs' : Nat → List ZjSealed} {id : Nat} {f f' : File}
    {disk : Disk Nat} {header tail : List UInt8} {size : ZjSegment → Nat}
    (hdisk : ∀ k, disk.lookup k = if k = id then some f' else d.disk.lookup k)
    (hf : d.disk.lookup id = some f) (hle : f.size ≤ f'.size) (hmax : f'.size < 2 ^ 32)
    (hrest : ∀ k, k ≠ id → recs' k = recs k)
    (hh : Holds d.log id f'.bytes (recs' id) header tail)
    (hg : ∃ g ∈ s.segments, g.id = id ∧ g.metadataValid = true)
    (hsize : ∀ g ∈ s.segments, g.id = id → size g = f'.size)
    (hw : s.writerId ≠ 0 → s.writerId = id ∧ header = s.writerHeader ∧ tail = []) :
    Tracked { d with disk := disk } recs'
      (ZjStore.setSegment id (fun g => { g with size := size g }) s) := by
  obtain ⟨g₀, hg₀, hid₀, hv₀⟩ := hg
  have hback : ∀ k, ∀ g ∈ s.segments, g.id = k →
      ∃ x ∈ (ZjStore.setSegment id (fun g => { g with size := size g }) s).segments,
        x.id = k ∧ x.metadataValid = g.metadataValid := by
    rintro k g hg rfl
    refine ⟨_, List.mem_map_of_mem hg, ?_⟩
    split_ifs <;> exact ⟨rfl, rfl⟩
  refine
    { sorted := ?_, known := fun x hx => ?_, listed := fun k hk => ?_, faithful := fun x hx => ?_
      missing := fun x hx => ?_, cursor := h.cursor, inside := fun x hx => ?_
      writing := fun h0 => ?_, counting := h.counting }
  · refine List.pairwise_map.2 (h.sorted.imp fun {a b} hab => ?_)
    split_ifs <;> exact hab
  · obtain ⟨g, hg, hid, -, hsz⟩ := mem_setSegment hx
    rw [← hid, hsz]
    refine ⟨(h.known g hg).1, ?_⟩
    split_ifs with hgid
    · rw [hsize g hg hgid]
      exact hmax
    · exact (h.known g hg).2
  · by_cases hkid : k = id
    · obtain ⟨x, hx, hxk, -⟩ := hback k g₀ hg₀ (hkid ▸ hid₀)
      exact ⟨x, hx, hxk⟩
    · obtain ⟨g, hg, hgk⟩ := h.listed k (hrest k hkid ▸ hk)
      obtain ⟨x, hx, hxk, -⟩ := hback k g hg hgk
      exact ⟨x, hx, hxk⟩
  · intro fx hfx
    obtain ⟨g, hg, hid, hv, hsz⟩ := mem_setSegment hx
    rw [← hid] at hfx ⊢
    rw [← hv, hsz]
    rw [hdisk] at hfx
    split_ifs at hfx ⊢ with hgid
    · cases hfx
      obtain rfl : g = g₀ := segment_eq h.sorted hg hg₀ (hgid.trans hid₀.symm)
      refine ⟨hsize g hg hgid, fun _ => ?_, fun _ => hv₀⟩
      obtain ⟨m, hm⟩ := hh.headerOf
      rw [hgid, hm]
      rfl
    · rw [hrest _ hgid]
      exact h.faithful g hg fx hfx
  · intro hnone
    obtain ⟨g, hg, hid, hv, hsz⟩ := mem_setSegment hx
    rw [← hid] at hnone ⊢
    rw [hdisk] at hnone
    split_ifs at hnone hsz
    have := h.missing g hg hnone
    rw [hsz]
    simpa only [offsetIn, ← hid, ← hv, ZjStore.setSegment] using this
  · intro hcur
    obtain ⟨g, hg, hid, hv, hsz⟩ := mem_setSegment hx
    obtain ⟨hin, hmeta⟩ := h.inside g hg (hid.trans hcur)
    refine ⟨?_, hv ▸ hmeta⟩
    rw [hsz]
    split_ifs with hgid
    · rw [hsize g hg hgid]
      rw [(h.faithful g hg f (hgid ▸ hf)).1] at hin
      exact hin.trans hle
    · exact hin
  · obtain ⟨hwid, rfl, rfl⟩ := hw h0
    have hwr := h.writing h0
    obtain ⟨x, hx, hxid, hxv⟩ := hback id g₀ hg₀ hid₀
    refine ⟨⟨x, hx, hxid.trans hwid.symm, hxv.trans hv₀⟩, ⟨f', ?_, ?_⟩, fun y hy => ?_, hwr.reached,
      hwr.log⟩
    · exact (hdisk _).trans (if_pos hwid)
    · show Holds d.log s.writerId f'.bytes (recs' s.writerId) s.writerHeader []
      rw [hwid]
      exact hh
    · obtain ⟨g, hg, hid, -, -⟩ := mem_setSegment hy
      exact hid ▸ hwr.newest g hg

end Storage

/-! ### The programs -/

variable {π : Type} {P : ZjPort π} {V : P.View} {whole : Prop} {kept : List ZjSealed}
  {settled : List ZjToken} {w w' : ZjWorld π}

lemma Wrote.stored {id : Nat} {f : File} (h : Wrote w w' id f) :
    stored V w' = { stored V w with disk := w'.disk } := by
  simp only [Journal.stored, h.nv]

lemma Wrote.of_noted {w₀ : ZjWorld π} {id : Nat} {f : File} (hn : Noted w₀ w)
    (h : Wrote w w' id f) : Wrote w₀ w' id f := by
  obtain ⟨operation, rfl⟩ := hn
  exact ⟨h.lookup, h.nv, h.ram⟩

/-- Neither storage nor the store in memory is different. -/
def Same (V : P.View) (w w' : ZjWorld π) : Prop := stored V w' = stored V w ∧ w'.ram = w.ram

lemma Inv.same (h : Inv V whole kept settled w) (hs : Same V w w') :
    Inv V whole kept settled w' := by
  rw [Inv, hs.1, hs.2]
  exact h

lemma wp_admits (n : Nat) :
    Prog.ewp (fun _ => Same V w) (fun _ _ => False) (Same V w) (onPort (P.admits n)) w := by
  have hsame : ∀ t, V.checkpoint t = V.checkpoint w.nv.port ∧ V.limit t = V.limit w.nv.port →
      Same V w (portPart.set t w) := by
    rintro t ⟨hc, hl⟩
    refine ⟨?_, rfl⟩
    rw [stored_set, hc, hl]
    rfl
  rw [wp_onPort]
  exact Prog.wp_mono (V.admits_spec n w.nv.port) (fun _ t => hsame t) hsame

/-- What drawing a number does, in terms of the invariant. -/
lemma wp_draw {recs : Nat → List ZjSealed}
    (hs : Sound P.crypto whole kept settled recs (stored V w))
    (ht : Tracked (stored V w) recs w.ram) :
    Prog.ewp
      (fun r w' => (Sound P.crypto whole kept settled recs (stored V w') ∧
        Tracked (stored V w') recs w'.ram) ∧ Drawn V w w' r.toList ∧
        ∀ v, r = some v → ∀ x ∈ w.nv.handed, x < v)
      (fun _ _ => False) (Safe V whole kept settled) (zjSequenceNext P) w := by
  refine Prog.ewp_mono (wp_zjSequenceNext V hs.counted ht.counting) ?_ (fun _ _ h => h) ?_
  · rintro r w' ⟨hc, hq, hd, hfresh⟩
    refine ⟨?_, hd, hfresh⟩
    obtain ⟨⟨limit, -, hst⟩, q, hram⟩ := hd
    rw [hram] at hq ⊢
    rw [hst] at hc hq ⊢
    exact ⟨hs.draw hc, ht.draw hq⟩
  · rintro w' ⟨⟨limit, hle, hst⟩, -⟩
    refine ⟨recs, ?_⟩
    rw [hst]
    exact hs.draw (hs.counted.mono hle)

/-- There is room for a record where the store writes. -/
def Roomy (s : ZjStore) : Prop :=
  ∀ g ∈ s.segments, g.id = s.writerId → g.size ≤ zjSegmentBytes - zjRecordMax

section Create

variable {recs : Nat → List ZjSealed} {id : Nat} {header : List UInt8} {m : ZjMetadata}

lemma Sound.written (hs : Sound P.crypto whole kept settled recs (stored V w))
    (hfresh : Fresh (stored V w) w.ram id) (hnone : w.disk.lookup id = none) {f : File}
    (hw : Wrote w w' id f) (hl : Layout whole w.nv.log id f []) :
    Sound P.crypto whole kept settled recs (stored V w') := by
  rw [hw.stored]
  exact hs.create hw.lookup hfresh.handed hnone (fun x hx => (hfresh.log x hx).1.ne) hl

lemma Fresh.wrote {s : ZjStore} {k : Nat} {f : File} (h : Fresh (stored V w) s id)
    (hw : Wrote w w' k f) : Fresh (stored V w') s id := by
  rw [hw.stored]
  exact ⟨h.handed, h.log, h.listed, h.cursor⟩

lemma Wrote.create (w : ZjWorld π) (id : Nat) :
    Wrote w (w.onDisk fun d => d.insert id File.fresh) id File.fresh := by
  refine ⟨fun k => ?_, rfl, w.ram.lastOperation, rfl⟩
  split_ifs with hk
  · rw [hk]
    exact AList.lookup_insert _
  · exact AList.lookup_insert_ne hk

lemma Wrote.lookup_self {f : File} (h : Wrote w w' id f) : w'.disk.lookup id = some f := by
  rw [h.lookup, if_pos rfl]

lemma Wrote.trans {w₁ w₂ : ZjWorld π} {f f' : File} (h : Wrote w w₁ id f) (h' : Wrote w₁ w₂ id f') :
    Wrote w w₂ id f' := by
  obtain ⟨op, hop⟩ := h.ram
  obtain ⟨op', hop'⟩ := h'.ram
  refine ⟨fun k => ?_, h'.nv.trans h.nv, op', by rw [hop', hop]⟩
  rw [h'.lookup, h.lookup]
  split_ifs <;> rfl

lemma wp_enterCreated {s : ZjStore} {f : File} {ok : Bool}
    (hs : Sound P.crypto whole kept settled recs (stored V w))
    (ht : Tracked (stored V w) recs s) (hram : w.ram = pushSegment ⟨id, 0, false, false⟩ s)
    (hready : s.ready = true) (hw : s.writerId = 0) (hfresh : Fresh (stored V w) s id)
    (hnil : recs id = []) (hf : w.disk.lookup id = some f) (hok : ok = true → f.bytes = header)
    (hm : zjMetadataDecode header = some m) (hmid : m.segmentId = id)
    (hheader : s.writerHeader = header) :
    Prog.ewp
      (fun _ w' => Inv V whole kept settled w' ∧ w'.ram.ready = true ∧ Roomy w'.ram)
      (fun _ => Inv V whole kept settled) (Safe V whole kept settled) (enterCreated id ok) w := by
  simp only [enterCreated, Prog.ewp_bind, wp_perform, wp_probe, hf, Prog.ewp_ite, wp_setStore,
    wp_failure, Prog.ewp_throw]
  refine ⟨⟨fun _ => Safe.inv ⟨recs, hs⟩ rfl, fun hmax => ?_⟩, Safe.inv ⟨recs, hs⟩ rfl, ⟨recs, hs⟩⟩
  obtain ⟨valid, hvalid⟩ : ∃ valid, valid = (ok && decide (f.size = zjMetaBytes)) := ⟨_, rfl⟩
  have hfull : valid = true → f.bytes = header ∧ f.size = zjMetaBytes := by
    simp only [hvalid, Bool.and_eq_true, decide_eq_true_eq]
    exact fun h => ⟨hok h.1, h.2⟩
  have hholds : valid = true → Holds w.nv.log id f.bytes (recs id) header [] := fun hv =>
    ⟨⟨m, hm, hmid⟩, by simp [hnil, flat, (hfull hv).1], by rw [hnil]; trivial, by simp [hnil]⟩
  have hsize : f.size < 2 ^ 32 := (not_lt.1 hmax).trans_lt (by decide)
  have htrack : Tracked (stored V w) recs (pushSegment ⟨id, f.size, valid, false⟩ s) := by
    refine ht.enlist hf hfresh hnil hw hsize fun hv => ?_
    obtain ⟨m, hm⟩ := (hholds hv).headerOf
    rw [hm]
    rfl
  have hentered : ZjStore.setSegment id (fun g => { g with size := f.size, metadataValid := valid })
      w.ram = pushSegment ⟨id, f.size, valid, false⟩ s := by
    rw [hram]
    exact setSegment_pushSegment _ rfl hfresh.listed
  simp only [← hvalid, World.onRam, hentered]
  refine ⟨fun hv => ⟨⟨recs, hs, fun _ => ?_⟩, hready, ?_⟩, fun _ => ⟨fun _ => ?_, fun _ => ?_⟩⟩
  · -- From here on the store writes to the new file.
    refine { htrack with writing := fun _ => ⟨⟨_, List.mem_append_right _ List.mem_cons_self, rfl, hv⟩,
      ⟨f, hf, hheader.symm ▸ hholds hv⟩, ?_, ?_, fun x hx => .inr (hfresh.log x hx).2⟩ }
    · exact List.forall_mem_append.2 ⟨fun g hg => (hfresh.listed g hg).le, by simp⟩
    · have := hfresh.cursor
      rw [ht.cursor] at this
      exact this.le
  · refine List.forall_mem_append.2 ⟨fun g hg hid => absurd hid (hfresh.listed g hg).ne, ?_⟩
    intro g hg _
    obtain rfl := List.mem_singleton.1 hg
    rw [(hfull hv).2]
    exact (by decide : zjMetaBytes ≤ zjSegmentBytes - zjRecordMax)
  · exact ⟨recs, hs, fun _ => htrack.relabel _ _ _ _⟩
  · exact ⟨recs, hs, fun _ => htrack⟩

lemma wp_createFile (hs : Sound P.crypto whole kept settled recs (stored V w))
    (ht : Tracked (stored V w) recs w.ram) (hready : w.ram.ready = true)
    (hw : w.ram.writerId = 0) (hfresh : Fresh (stored V w) w.ram id)
    (hnone : w.disk.lookup id = none) (hm : zjMetadataDecode header = some m)
    (hmid : m.segmentId = id) (hheader : w.ram.writerHeader = header) :
    Prog.ewp
      (fun _ w' => Inv V whole kept settled w' ∧ w'.ram.ready = true ∧ Roomy w'.ram)
      (fun _ => Inv V whole kept settled) (Safe V whole kept settled) (createFile id header) w := by
  have hinv : Inv V whole kept settled w := ⟨recs, hs, fun _ => ht⟩
  have hsound : ∀ {w' f}, Wrote w w' id f → f.bytes <+: header →
      Sound P.crypto whole kept settled recs (stored V w') :=
    fun hw' hf => hs.written hfresh hnone hw' (layout_of_start hm hmid hf)
  have htrack : ∀ {w' f}, Wrote w w' id f → Tracked (stored V w') recs w.ram := by
    intro w' f hw'
    rw [hw'.stored]
    exact ht.orphan hw'.lookup hfresh hw
  have hcreated := Wrote.create w id
  have hnew := hsound hcreated List.nil_prefix
  simp only [createFile, Prog.ewp_bind, wp_perform, wp_create hnone, Prog.ewp_ite, wp_failure,
    wp_setStore, wp_look, Bool.false_eq_true, false_imp_iff, true_imp_iff, not_true_eq_false,
    not_false_eq_true, true_and, and_true]
  have hnil := hs.gone id hnone
  have hlisted : Tracked (stored V (w.onDisk fun d => d.insert id File.fresh)) recs
      (pushSegment ⟨id, File.fresh.size, false, false⟩ w.ram) :=
    (htrack hcreated).enlist hcreated.lookup_self (hfresh.wrote hcreated) hnil hw (by decide)
      (by simp)
  refine ⟨⟨?_, ⟨recs, hnew, fun _ => hlisted.relabel _ _ _ _⟩, ⟨recs, hnew⟩⟩,
    ⟨hinv.noted (Noted.of_noted _ _), recs, hnew, fun _ => (htrack hcreated).relabel _ _ _ _⟩,
    hinv.safe, ⟨recs, hnew⟩⟩
  -- Writing the header does not depend on the inventory, which has the file already.
  have hwrote : ∀ {w₂ f'}, Wrote ((w.onDisk fun d => d.insert id File.fresh).onRam
      (pushSegment ⟨id, 0, false, false⟩)) w₂ id f' → Wrote w (w₂.onRam fun _ => w.ram) id f' :=
    fun h => hcreated.trans ⟨h.lookup, h.nv, _, rfl⟩
  have hstart : ∀ {f' : File}, Grown header File.fresh f' → f'.bytes <+: header := by
    rintro f' ⟨⟨t, ht, hb⟩, -⟩
    rw [hb]
    exact ht
  have hfile : ((w.onDisk fun d => d.insert id File.fresh).onRam
      (pushSegment ⟨id, 0, false, false⟩)).disk.lookup id = some File.fresh := hcreated.lookup_self
  refine Prog.ewp_mono (wp_commitFile hfile header true true) ?_ (fun _ _ h => h.elim) ?_
  · rintro ok w₂ ⟨f', hw₂, hg, hok⟩
    obtain ⟨operation, hram⟩ := hw₂.ram
    have hs₂ := hsound (hwrote hw₂) (hstart hg)
    have ht₂ := (htrack (hwrote hw₂)).relabel w.ram.writerMetadata w.ram.ready
      w.ram.checkpointRecoveryPending operation
    refine wp_enterCreated hs₂ ht₂ hram hready hw ?_ hnil hw₂.lookup_self ?_ hm hmid hheader
    · obtain ⟨h1, h2, h3, h4⟩ := hfresh.wrote (hwrote hw₂)
      exact ⟨h1, h2, h3, h4⟩
    · intro h
      rw [hok h]
      rfl
  · rintro w₂ ⟨f', hw₂, hg⟩
    have hs₂ := hsound (hwrote hw₂) (hstart hg)
    exact ⟨recs, hs₂⟩

lemma wp_createSegment (h : Inv V whole kept settled w) (hready : w.ram.ready = true)
    (hw : w.ram.writerId = 0) :
    Prog.ewp
      (fun _ w' => Inv V whole kept settled w' ∧ w'.ram.ready = true ∧ Roomy w'.ram)
      (fun _ => Inv V whole kept settled) (Safe V whole kept settled) (createSegment P) w := by
  simp only [createSegment, Prog.ewp_bind, wp_getStore, Prog.ewp_ite, wp_failure, Prog.ewp_throw]
  refine ⟨fun _ => h.noted (Noted.of_noted _ _), fun _ => ?_⟩
  refine Prog.ewp_mono (wp_admits _) ?_ (fun _ _ h => h.elim) fun w₁ h₁ => (h.same h₁).safe
  intro admission w₁ h₁
  refine ⟨fun _ => h.same h₁, fun _ => ?_⟩
  obtain ⟨recs, hs, ht⟩ := h.same h₁
  have ht := ht (h₁.2 ▸ hready)
  refine Prog.ewp_mono (wp_draw hs ht) ?_ (fun _ _ h => h.elim) fun _ h => h
  rintro r w₂ ⟨⟨hs₂, ht₂⟩, ⟨⟨limit, -, hst⟩, q, hram⟩, hfresh⟩
  cases r with
  | none =>
    rw [wp_failure]
    exact ⟨recs, hs₂, fun _ => ht₂.relabel _ _ _ _⟩
  | some id =>
    rw [h₁.2] at hram
    have hready₂ : w₂.ram.ready = true := by rw [hram]; exact hready
    have hw₂ : w₂.ram.writerId = 0 := by rw [hram]; exact hw
    simp only [Prog.ewp_bind, wp_setStore, wp_getStore, World.ram_onRam]
    cases hm : (w₂.ram.writerMetadata.map ({ · with segmentId := id })).bind zjMetadataEncode with
    | none =>
      rw [Prog.ewp_throw]
      exact ⟨recs, hs₂, fun _ => ht₂.relabel _ _ _ _⟩
    | some header =>
      obtain ⟨m', hm', henc⟩ := Option.bind_eq_some_iff.1 hm
      obtain ⟨m, -, rfl⟩ := Option.map_eq_some_iff.1 hm'
      rw [Prog.ewp_bind, wp_setStore]
      have hhanded : (stored V w₂).handed = id :: w₁.nv.handed := by rw [hst]; rfl
      have hpos := (hs₂.counted.below id (by rw [hhanded]; exact List.mem_cons_self)).1
      obtain ⟨hnew, hnone⟩ := hs.fresh (s := w₁.ram) limit (hfresh id rfl) hpos
        fun g hg => (ht.known g hg).1
      have hdisk : w₂.disk = w₁.disk := congrArg Stored.disk hst
      refine wp_createFile hs₂ (ht₂.prepare hw₂ _ header) hready₂ hw₂ ?_ ?_
        (zjMetadataDecode_encode henc) rfl rfl
      · show Fresh (stored V w₂) _ id
        rw [hst]
        refine ⟨hnew.handed, hnew.log, ?_, hnew.cursor⟩
        simp only [World.ram_onRam, hram, ← h₁.2]
        exact hnew.listed
      · show w₂.disk.lookup id = none
        rw [hdisk]
        exact hnone

lemma wp_ensureWriter (h : Inv V whole kept settled w) (hready : w.ram.ready = true) :
    Prog.ewp
      (fun _ w' => Inv V whole kept settled w' ∧ w'.ram.ready = true ∧ Roomy w'.ram)
      (fun _ => Inv V whole kept settled) (Safe V whole kept settled) (ensureWriter P) w := by
  obtain ⟨recs, hs, ht⟩ := h
  have ht := ht hready
  simp only [ensureWriter, Prog.ewp_bind, wp_getStore, Prog.ewp_ite, Prog.ewp_pure, wp_setStore]
  refine ⟨fun hany => ⟨⟨recs, hs, fun _ => ht⟩, hready, fun g hg hid => ?_⟩, fun _ => ?_⟩
  · cases hx : writer w.ram with
    | none => simp [hx] at hany
    | some x =>
      obtain ⟨-, hmem, hxid⟩ := writer_spec hx
      obtain rfl : g = x := segment_eq ht.sorted hg hmem (hid.trans hxid.symm)
      simpa [hx] using hany
  · refine wp_createSegment ⟨recs, hs, fun _ => ?_⟩ hready rfl
    exact ht.stopWriting fun h0 => absurd rfl h0

end Create

lemma wp_positioned (f : File) (segment : ZjSegment) :
    Prog.ewp (fun _ w' => Noted w w') (fun _ _ => False) (fun w' => Noted w w')
      (positioned f segment) w := by
  simp [positioned, Noted.refl]

lemma wp_appendRecord {recs : Nat → List ZjSealed} {e : ZjSealed} {f : File} {segment : ZjSegment}
    (hs : Sound P.crypto whole kept settled recs (stored V w)) (ht : Tracked (stored V w) recs w.ram)
    (hp : Pending P.crypto (stored V w) recs f e) (hmem : segment ∈ w.ram.segments)
    (hid : segment.id = e.segment) (hw : w.ram.writerId = e.segment)
    (hheader : w.ram.writerHeader = e.metadata)
    (hroom : segment.size ≤ zjSegmentBytes - zjRecordMax) :
    Prog.ewp
      (fun r w' => (r = e.sequence ∧ w'.nv = w.nv) ∧ Inv V whole (e :: kept) settled w')
      (fun _ => Inv V whole kept settled) (Safe V whole kept settled)
      (appendRecord segment e.sequence e.record) w := by
  have hinv : Inv V whole kept settled w := ⟨recs, hs, fun _ => ht⟩
  have hf : w.disk.lookup segment.id = some f := hid ▸ hp.file
  have hfile : ∀ g ∈ w.ram.segments, g.id = segment.id → g.size = f.size := fun g hg hgid =>
    (ht.faithful g hg f (hgid ▸ hf)).1
  have hsize := hfile segment hmem rfl
  have hne : w.ram.writerId ≠ 0 := by
    rw [hw]
    exact (hs.counted.below _ (hs.drawn e hp.log).2).1.ne'
  simp only [appendRecord, Prog.ewp_bind, wp_perform, wp_probe, hf, wp_failure]
  refine ⟨?_, hinv.noted (Noted.of_noted _ _), hinv.safe⟩
  refine Prog.ewp_mono (wp_positioned f segment) ?_ (fun _ _ h => h.elim) fun w₁ h₁ =>
    (hinv.noted h₁).safe
  intro at_end w₁ h₁
  have hf₁ : w₁.disk.lookup segment.id = some f := by
    obtain ⟨operation, rfl⟩ := h₁
    exact hf
  rw [hsize]
  -- What has to be shown once some of the record landed.
  have hgrow : ∀ {w₂ : ZjWorld π} {f' : File}, Wrote w₁ w₂ segment.id f' → Grown e.record f f' →
      ∃ recs' tail, Sound P.crypto whole kept settled recs' (stored V w₂) ∧
        (∀ k, k ≠ segment.id → recs' k = recs k) ∧
        Holds (stored V w).log segment.id f'.bytes (recs' segment.id) e.metadata tail ∧
        (f'.bytes = f.bytes ++ e.record → e ∈ recs' segment.id ∧ tail = []) := by
    intro w₂ f' hw₂ hg
    have hw₂ := hw₂.of_noted h₁
    rw [hw₂.stored, hid]
    exact hs.grow hp (hid ▸ hw₂.lookup) hg
  refine Prog.ewp_mono (wp_commitFile hf₁ e.record false at_end) ?_ (fun _ _ h => h.elim) ?_
  · rintro ok w₂ ⟨f', hw₂, hg, hok⟩
    obtain ⟨recs', tail, hs', hrest, hh, hfull⟩ := hgrow hw₂ hg
    have hf₂ : w₂.disk.lookup segment.id = some f' := (hw₂.lookup _).trans (if_pos rfl)
    obtain ⟨t, htpre, hbytes⟩ := hg.1
    have hlen : f'.size = f.size + t.length := by simp only [File.size, hbytes, List.length_append]
    have htlen : t.length ≤ zjRecordMax :=
      htpre.length_le.trans ((hs.genuine e hp.log).length_le)
    have hmax : f'.size < 2 ^ 32 := by
      have : zjSegmentBytes - zjRecordMax + zjRecordMax < 2 ^ 32 := by decide
      omega
    have htrack : ∀ {size : ZjSegment → Nat} {id : Nat},
        (∀ g ∈ w.ram.segments, g.id = segment.id → size g = f'.size) →
        (id ≠ 0 → id = w.ram.writerId ∧ tail = []) →
        Tracked (stored V w₂) recs' (ZjStore.setSegment segment.id (fun g => { g with size := size g })
          { w₂.ram with writerId := id }) := by
      intro size id hsz hw0
      obtain ⟨operation, hram⟩ := (hw₂.of_noted h₁).ram
      rw [(hw₂.of_noted h₁).stored, hram]
      refine ((ht.stopWriting fun h0 => (hw0 h0).1).relabel _ _ _ operation).grow
        (hw₂.of_noted h₁).lookup hf (by omega) hmax hrest hh ?_ hsz ?_
      · obtain ⟨g, hg, hgid, hv⟩ := (ht.writing hne).listed
        exact ⟨g, hg, hgid.trans (hw.trans hid.symm), hv⟩
      · intro h0
        obtain ⟨rfl, htail⟩ := hw0 h0
        exact ⟨hw.trans hid.symm, hheader.symm, htail⟩
    cases ok with
    | true =>
      obtain rfl := hok rfl
      obtain ⟨he, htail⟩ := hfull rfl
      simp only [Prog.ewp_bind, wp_setStore, Prog.ewp_pure, if_true]
      refine ⟨⟨trivial, (hw₂.of_noted h₁).nv⟩, recs', ?_, fun _ => ?_⟩
      · have hstop : e.stop ≤ (File.synced (f.bytes ++ e.record)).stable := by
          rw [ZjSealed.stop, hp.offset, File.stable_synced, List.length_append]
          exact le_rfl
        rw [hid] at he hf₂
        show Sound P.crypto whole (e :: kept) settled recs' (stored V w₂)
        refine hs'.keep ?_ hf₂ he hstop ?_
        · rw [(hw₂.of_noted h₁).stored]
          exact hp.log
        · rw [(hw₂.of_noted h₁).stored]
          exact hp.ahead
      · obtain ⟨operation, hram⟩ := (hw₂.of_noted h₁).ram
        refine htrack (fun g hg hgid => ?_) fun _ =>
          ⟨show w₂.ram.writerId = w.ram.writerId by rw [hram], htail⟩
        rw [hfile g hg hgid, File.size, File.size, File.bytes_synced, List.length_append]
    | false =>
      simp only [Prog.ewp_bind, wp_setStore, Bool.false_eq_true, if_false, wp_perform, wp_probe,
        Prog.ewp_throw]
      refine ⟨?_, Safe.inv ⟨recs', hs'⟩ rfl, ⟨recs', hs'⟩⟩
      simp only [World.disk_onRam, hf₂, Prog.ewp_ite, Prog.ewp_bind, wp_setStore, Prog.ewp_throw]
      exact ⟨fun _ => Safe.inv ⟨recs', hs'⟩ rfl, fun _ => ⟨recs', hs', fun _ =>
        htrack (fun _ _ _ => rfl) (by simp)⟩⟩
  · rintro w₂ ⟨f', hw₂, hg⟩
    obtain ⟨recs', -, hs', -⟩ := hgrow hw₂ hg
    exact ⟨recs', hs'⟩

lemma wp_append_inv (h : Inv V whole kept settled w) (o : ZjObservation) :
    Prog.ewp
      (fun r w' => ∃ e log, (w'.nv.log = e :: log ∧ e.observation = { o with sequence := r }) ∧
        Inv V whole (e :: kept) settled w')
      (fun _ => Inv V whole kept settled) (Safe V whole kept settled) (zjStoreAppend P o) w := by
  simp only [zjStoreAppend, Prog.ewp_bind, wp_getStore, Prog.ewp_ite, Prog.ewp_throw]
  refine ⟨fun _ => h, fun hready => ⟨fun _ => h, fun _ => ?_⟩⟩
  simp only [Bool.not_eq_true', Bool.not_eq_false] at hready
  refine Prog.ewp_mono (wp_ensureWriter h hready) ?_ (fun _ _ h => h) fun _ h => h
  rintro - w₁ ⟨h₁, hready₁, hroom⟩
  cases hwriter : writer w₁.ram with
  | none =>
    rw [Prog.ewp_throw]
    exact h₁
  | some segment =>
    simp only [Prog.ewp_bind, Prog.ewp_ite, Prog.ewp_throw]
    refine Prog.ewp_mono (wp_admits _) ?_ (fun _ _ h => h.elim) fun w₂ h₂ => (h₁.same h₂).safe
    intro admission w₂ h₂
    refine ⟨fun _ => h₁.same h₂, fun _ => ?_⟩
    obtain ⟨recs, hs, ht⟩ := h₁.same h₂
    have ht := ht (h₂.2 ▸ hready₁)
    refine Prog.ewp_mono (wp_draw hs ht) ?_ (fun _ _ h => h.elim) fun _ h => h
    rintro r w₃ ⟨⟨hs₃, ht₃⟩, ⟨⟨limit, -, hst⟩, q, hram⟩, hfresh⟩
    rw [h₂.2] at hram
    cases r with
    | none =>
      rw [wp_failure]
      exact ⟨recs, hs₃, fun _ => ht₃.relabel _ _ _ _⟩
    | some sequence =>
      have hwriter₃ : writer w₃.ram = some segment := by rw [hram]; exact hwriter
      have hheader : w₁.ram.writerHeader = w₃.ram.writerHeader := by rw [hram]
      rw [hheader]
      cases henc : zjRecordEncode P.crypto w₃.ram.writerHeader { o with sequence := sequence }
          zjRecordMax with
      | error e =>
        simp only [henc, wp_failure]
        exact ⟨recs, hs₃, fun _ => ht₃.relabel _ _ _ _⟩
      | ok record =>
        obtain ⟨e, he⟩ : ∃ e : ZjSealed, e =
          ⟨w₃.ram.writerHeader, { o with sequence := sequence }, record, segment.size⟩ := ⟨_, rfl⟩
        obtain ⟨hseg, hs₄, ht₄, f, hp⟩ := hs.pending (o := { o with sequence := sequence }) hst hs₃
          ht₃ hwriter₃ (hfresh sequence rfl) henc he
        obtain ⟨-, hmem, hid⟩ := writer_spec hwriter₃
        have hrecord : record = e.record := by rw [he]
        have hsequence : sequence = e.sequence := by rw [he]; rfl
        simp only [henc, Prog.ewp_bind, wp_perform, Prog.wp_modify, ← he]
        rw [hrecord, hsequence]
        refine Prog.ewp_mono (wp_appendRecord hs₄ ht₄ hp hmem (hid.trans hseg.symm) hseg.symm
          (by rw [he]; rfl) ?_) ?_ (fun _ _ h => h) fun _ h => h
        · rw [hram] at hmem hid
          exact hroom segment hmem hid
        · rintro r w₅ ⟨⟨rfl, hnv⟩, h₅⟩
          refine ⟨e, w₃.nv.log, ⟨by rw [hnv]; rfl, ?_⟩, h₅⟩
          rw [← hsequence, he]

end Journal

end ZoneLite
