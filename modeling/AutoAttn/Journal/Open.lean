import AutoAttn.Journal.Append

/-!
# Opening establishes the invariant

Opening reads the checkpoint and takes an inventory of the files. If the checkpoint cannot be right
it is preserved in a file of its own, and reading starts over from the earliest retained byte.
-/

namespace ZoneLite

open Bytes Crash

namespace Journal

variable {π : Type} {P : ZjPort π} {V : P.View} {whole : Prop} {kept : List ZjSealed}
  {settled : List ZjToken} {recs : Nat → List ZjSealed} {w w' : ZjWorld π}

/-! ### The inventory -/

/-- The inventory entry of a file. -/
def Entry (d : Disk Nat) (g : ZjSegment) : Prop :=
  ∃ f, d.lookup g.id = some f ∧ g.size = f.size ∧ f.size < 2 ^ 32 ∧
    (g.metadataValid = true ↔ zjMetaBytes ≤ f.size ∧ (headerOf g.id f.bytes).isSome)

lemma wp_scanEntry (limit : Nat) {id : Nat} {f : File} (h0 : id ≠ 0) (hmax : id ≤ zjSequenceMax)
    (hf : w.disk.lookup id = some f) :
    Prog.ewp (fun g w' => w' = w ∧ g.id = id ∧ Entry w.disk g) (fun _ => Noted w) (Noted w)
      (scanEntry limit (filename id)) w := by
  have hentry : ∀ {h : Option (List UInt8 × ZjMetadata)} (evidence : Bool),
      ((f.size < zjMetaBytes ∧ h = none) ∨ (zjMetaBytes ≤ f.size ∧
        ∃ f', w.disk.lookup id = some f' ∧ h = headerOf id f'.bytes)) → f.size < 2 ^ 32 →
      Entry w.disk ⟨id, f.size, h.isSome, evidence⟩ := by
    rintro h evidence hh hsize
    refine ⟨f, hf, rfl, hsize, ?_⟩
    rcases hh with ⟨hlt, rfl⟩ | ⟨hle, f', hf', rfl⟩
    · simpa using fun h => absurd h (not_le.2 hlt)
    · obtain rfl : f' = f := Option.some.inj (hf'.symm.trans hf)
      simp [hle]
  simp only [scanEntry, fileId_filename h0 hmax, Prog.ewp_ite, wp_failure, Prog.ewp_bind,
    wp_getStore, wp_perform, wp_probe, hf, Noted.of_noted, Prog.ewp_pure, implies_true, true_and]
  refine fun _ _ => ⟨fun hsize => ?_, Noted.refl w⟩
  refine Prog.ewp_mono (wp_readHeader _) ?_ (fun _ _ h => h.2) fun _ h => h
  rintro h w' ⟨rfl, hh⟩
  refine ⟨fun _ => ?_, fun _ => ⟨rfl, hentry false hh (not_le.1 hsize)⟩⟩
  refine Prog.ewp_mono (wp_readBytes id 0 8) ?_ (fun _ _ h => h.2) fun _ h => h
  rintro magic w' ⟨rfl, -⟩
  exact ⟨rfl, hentry _ hh (not_le.1 hsize)⟩

/-- Nothing on storage is different, and the store is as ready as before. -/
def Idle (w w' : ZjWorld π) : Prop :=
  w'.disk = w.disk ∧ w'.nv = w.nv ∧ w'.ram.ready = w.ram.ready

lemma Noted.idle (h : Noted w w') : Idle w w' := by
  obtain ⟨operation, rfl⟩ := h
  exact ⟨rfl, rfl, rfl⟩

/-- The directory loop lists every file, and notices when the cursor fits none of them. -/
lemma wp_scan {limit : Nat} (ids : List Nat) (hids : ∀ id ∈ ids, ∃ f,
      w.disk.lookup id = some f ∧ id ≠ 0 ∧ id ≤ zjSequenceMax) (replay : Bool) :
    Prog.ewp
      (fun r w' => ∃ gs, (gs.map ZjSegment.id = ids ∧ ∀ g ∈ gs, Entry w.disk g) ∧
        w' = w.onRam (fun s => { s with segments := s.segments ++ gs }) ∧
        (r = false → replay = false ∧ ∀ g ∈ gs, cursorDamaged w.ram g = false))
      (fun _ => Idle w) (Idle w) (scan limit (ids.map filename) replay) w := by
  induction ids generalizing w replay with
  | nil =>
    rw [List.map_nil, scan]
    simp only [Prog.ewp_bind, wp_look, Prog.ewp_ite, wp_failure, Prog.ewp_pure,
      Bool.not_true, Bool.not_false, Bool.false_eq_true, false_imp_iff, true_imp_iff,
      not_true_eq_false, not_false_eq_true, true_and, and_true]
    refine ⟨⟨[], ⟨rfl, by simp⟩, ?_, fun h => ⟨h, by simp⟩⟩, (Noted.of_noted _ _).idle,
      (Noted.refl w).idle⟩
    simp [World.onRam]
  | cons id ids ih =>
    obtain ⟨f, hf, h0, hmax⟩ := hids id List.mem_cons_self
    rw [List.map_cons, scan]
    simp only [Prog.ewp_bind, wp_look, Prog.ewp_ite, wp_failure, wp_getStore,
      Bool.not_true, Bool.not_false, Bool.false_eq_true, false_imp_iff, true_imp_iff,
      not_true_eq_false, not_false_eq_true, true_and, and_true]
    have hfail : Idle w (noted "directory_read" w) := ⟨rfl, rfl, rfl⟩
    refine ⟨?_, hfail, (Noted.refl w).idle⟩
    refine Prog.ewp_mono (wp_scanEntry limit h0 hmax hf) ?_ (fun _ _ h => h.idle) fun _ h => h.idle
    rintro g w' ⟨rfl, hgid, hg⟩
    rw [wp_setStore]
    have hrest : ∀ id ∈ ids, ∃ f, (w'.onRam (pushSegment g)).disk.lookup id = some f ∧ id ≠ 0 ∧
        id ≤ zjSequenceMax := fun id hid => hids id (List.mem_cons_of_mem _ hid)
    refine Prog.ewp_mono (ih hrest _) ?_ (fun _ _ h => h) fun _ h => h
    rintro r w'' ⟨gs, ⟨hmap, hgs⟩, rfl, hdamaged⟩
    refine ⟨g :: gs, ⟨by rw [List.map_cons, hgid, hmap], List.forall_mem_cons.2 ⟨hg, hgs⟩⟩, ?_, ?_⟩
    · simp [World.onRam, pushSegment]
    · intro hr
      obtain ⟨hr, hrest⟩ := hdamaged hr
      simp only [Bool.or_eq_false_iff] at hr
      exact ⟨hr.1, List.forall_mem_cons.2 ⟨hr.2, hrest⟩⟩

/-! ### The checkpoint -/

lemma parse_freshCheckpoint : parseCheckpoint freshCheckpoint = some ⟨1, 0, 0, 0⟩ :=
  parseCheckpoint_checkpointBytes _ (by decide) (by decide) (by decide) (by decide) (by decide)

lemma cursor_freshCheckpoint :
    ((some freshCheckpoint).bind parseCheckpoint).getD ⟨0, 0, 0, 0⟩ = ⟨1, 0, 0, 0⟩ := by
  simp [parse_freshCheckpoint]

/-- The cursor of the store. -/
def cursorOf (s : ZjStore) : ZjCheckpoint :=
  ⟨s.checkpointRevision, s.readSegment, s.readOffset, s.lastSequence⟩

lemma wp_openCheckpoint {limit : Nat} (hzero : cursorOf w.ram = ⟨0, 0, 0, 0⟩) :
    Prog.ewp
      (fun r w' => stored V w' = stored V w ∧ r.1 = (stored V w).checkpoint ∧
        ∃ c, w'.ram = setCheckpoint c w.ram ∧
          (r.2 = false → c = (stored V w).cursor) ∧ (r.2 = true → r.1.isSome ∧ c = ⟨0, 0, 0, 0⟩))
      (fun _ w' => stored V w' = stored V w ∧ w'.ram.ready = w.ram.ready)
      (fun w' => stored V w' = stored V w) (openCheckpoint P limit) w := by
  have hsame : ∀ t, V.checkpoint t = V.checkpoint w.nv.port ∧ V.limit t = V.limit w.nv.port →
      stored V (portPart.set t w) = stored V w := by
    rintro t ⟨hc, hl⟩
    rw [stored_set, hc, hl]
    rfl
  rw [openCheckpoint, Prog.ewp_bind, wp_onPort]
  refine Prog.wp_mono (V.load_spec w.nv.port) ?_ hsame
  rintro r t ⟨ht, hr⟩
  cases r with
  | none =>
    rw [wp_failure]
    exact ⟨hsame t ht, rfl⟩
  | some c =>
    obtain rfl := hr c rfl
    have hw : setCheckpoint ⟨0, 0, 0, 0⟩ w.ram = w.ram := by
      rw [← hzero]
      rfl
    cases hcp : V.checkpoint w.nv.port with
    | none =>
      rw [Prog.ewp_pure]
      refine ⟨hsame t ht, hcp.symm, ⟨0, 0, 0, 0⟩, hw.symm, fun _ => ?_, by simp⟩
      simp [Stored.cursor, stored, hcp]
    | some cp =>
      have hcheckpoint : some cp = (stored V w).checkpoint := hcp.symm
      simp only [loadCheckpoint]
      cases hparse : parseCheckpoint cp with
      | none =>
        simp only [Prog.ewp_bind, Prog.ewp_pure, wp_getStore, wp_setStore, Bool.not_false,
          Bool.true_or, if_true]
        exact ⟨hsame t ht, hcheckpoint, ⟨0, 0, 0, 0⟩, rfl, by simp, by simp⟩
      | some c =>
        have hcursor : (stored V w).cursor = c := by simp [Stored.cursor, ← hcheckpoint, hparse]
        simp only [Prog.ewp_bind, Prog.ewp_pure, wp_getStore, wp_setStore, Prog.ewp_ite]
        exact ⟨fun _ => ⟨hsame t ht, hcheckpoint, ⟨0, 0, 0, 0⟩, rfl, by simp, by simp⟩,
          fun _ => ⟨hsame t ht, hcheckpoint, c, rfl, fun _ => hcursor.symm, by simp⟩⟩

/-- An inventory of all files is what the store has to know. -/
lemma Sound.tracked {crypto : ZjCrypto} {d : Stored} {s : ZjStore}
    (hs : Sound crypto whole kept settled recs d) (hsorted : s.segments.Pairwise (·.id < ·.id))
    (hentry : ∀ g ∈ s.segments, Entry d.disk g)
    (hall : ∀ id f, d.disk.lookup id = some f → ∃ g ∈ s.segments, g.id = id)
    (hcursor : d.cursor = cursorOf s) (hfits : ∀ g ∈ s.segments, cursorDamaged s g = false)
    (hw : s.writerId = 0) (hq : Counting d s.sequence) : Tracked d recs s where
  sorted := hsorted
  known g hg := by
    obtain ⟨f, hf, hsize, hlt, -⟩ := hentry g hg
    exact ⟨hs.files g.id f hf, hsize ▸ hlt⟩
  listed id hne := by
    obtain ⟨e, he⟩ := List.exists_mem_of_ne_nil _ hne
    obtain ⟨f, -, -, hf, -⟩ := hs.holds he
    exact hall id f hf
  faithful g hg f hf := by
    obtain ⟨f', hf', hsize, -, hvalid⟩ := hentry g hg
    obtain rfl : f' = f := Option.some.inj (hf'.symm.trans hf)
    refine ⟨hsize, fun hv => (hvalid.1 hv).2, fun hne => hvalid.2 ?_⟩
    obtain ⟨e, he⟩ := List.exists_mem_of_ne_nil _ hne
    obtain ⟨f, header, tail, hf, hh, -⟩ := hs.holds he
    obtain rfl : f = f' := Option.some.inj (hf.symm.trans hf')
    obtain ⟨m, hm⟩ := hh.headerOf
    refine ⟨?_, by rw [hm]; rfl⟩
    rw [File.size, hh.length_eq]
    omega
  missing g hg hnone := by
    obtain ⟨f, hf, -⟩ := hentry g hg
    rw [hf] at hnone
    cases hnone
  cursor := hcursor
  inside g hg hid := by
    have := hfits g hg
    simp only [cursorDamaged, hid, decide_true, Bool.true_and, Bool.or_eq_false_iff,
      decide_eq_false_iff_not, not_lt, Bool.and_eq_false_imp] at this
    exact this
  writing h0 := absurd hw h0
  counting := hq

/-! ### Starting over -/

/-- Storage is sound, and the store knows it up to the cursor, which starts over. -/
structure Rewound (V : P.View) (whole : Prop) (kept : List ZjSealed) (settled : List ZjToken)
    (recs : Nat → List ZjSealed) (w : ZjWorld π) : Prop where
  sound : Sound P.crypto whole kept settled recs (stored V w)
  tracked : Tracked { stored V w with checkpoint := some freshCheckpoint } recs
    (setCheckpoint ⟨1, 0, 0, 0⟩ w.ram)
  unready : w.ram.ready = false
  idle : w.ram.writerId = 0

namespace Rewound

lemma inv (h : Rewound V whole kept settled recs w) : Inv V whole kept settled w :=
  Safe.inv ⟨recs, h.sound⟩ h.unready

lemma noted (h : Rewound V whole kept settled recs w) (hn : Noted w w') :
    Rewound V whole kept settled recs w' := by
  obtain ⟨operation, rfl⟩ := hn
  exact ⟨h.sound, h.tracked.relabel _ _ _ operation, h.unready, h.idle⟩

lemma same (h : Rewound V whole kept settled recs w) (hs : Same V w w') :
    Rewound V whole kept settled recs w' := by
  obtain ⟨hst, hram⟩ := hs
  exact ⟨by rw [hst]; exact h.sound, by rw [hst, hram]; exact h.tracked, by rw [hram]; exact h.unready,
    by rw [hram]; exact h.idle⟩

/-- A file is synchronised. -/
lemma sync (h : Rewound V whole kept settled recs w) {id : Nat} {f : File}
    (hf : w.disk.lookup id = some f) :
    Rewound V whole kept settled recs (w.onDisk fun d => d.update id File.sync) := by
  have hw := (Wrote.refl hf).sync
  have hs := h.sound
  refine ⟨?_, ?_, h.unready, h.idle⟩
  · rw [hw.stored]
    refine hs.replace hw.lookup (fun _ _ => rfl) (hs.files id f hf) ?_ (by simp [stored, hf])
      (hs.layout id f hf) (fun _ he => he) (fun _ he => .inl he) fun hwhole e he hseg => ?_
    · intro f' hf'
      obtain rfl : f' = f := Option.some.inj (hf'.symm.trans hf)
      exact f'.stable_le
    · have := hs.placed hwhole e he f (hseg ▸ hf)
      rwa [hseg] at this
  · rw [hw.stored]
    exact
      { h.tracked with
        faithful := fun g hg f' hf' => by
          rw [show _ = _ from hw.lookup g.id] at hf'
          split_ifs at hf' with hid
          · cases hf'
            exact h.tracked.faithful g hg f (hid ▸ hf)
          · exact h.tracked.faithful g hg f' hf'
        missing := fun g hg hnone => by
          rw [show _ = _ from hw.lookup g.id] at hnone
          split_ifs at hnone
          exact h.tracked.missing g hg hnone
        writing := fun h0 => absurd h.idle h0
        counting := h.tracked.counting }

end Rewound

lemma wp_preserveExisting (h : Rewound V whole kept settled recs w) (evidence : List UInt8)
    (segments : List ZjSegment) :
    Prog.ewp (fun _ => Rewound V whole kept settled recs) (fun _ => Inv V whole kept settled)
      (Safe V whole kept settled) (preserveExisting evidence segments) w := by
  induction segments with
  | nil =>
    rw [preserveExisting, Prog.ewp_pure]
    exact h
  | cons g gs ih =>
    rw [preserveExisting]
    simp only [Prog.ewp_ite, Prog.ewp_bind]
    refine ⟨fun _ => ih, fun _ => ?_⟩
    refine Prog.ewp_mono (wp_readBytes g.id 0 checkpointEvidenceBytes) ?_
      (fun _ _ hn => (h.noted hn.2).inv) fun _ hn => (h.noted hn).inv.safe
    rintro existing w' ⟨rfl, f, hf, -⟩
    refine ⟨fun _ => ih, fun _ => ?_⟩
    have hsynced := h.sync hf
    simp only [wp_perform, wp_probe, hf, wp_failure, Prog.ewp_bind, fsync, Prog.wp_atomic, wp_look,
      Prog.ewp_ite, Prog.ewp_pure]
    have hfail : ∀ op, Inv V whole kept settled (noted op w') := fun op =>
      (h.noted (Noted.of_noted op w')).inv
    have hfail' : ∀ op, Inv V whole kept settled
        (noted op (w'.onDisk fun d => d.update g.id File.sync)) := fun op =>
      (hsynced.noted (Noted.of_noted op _)).inv
    simp [hsynced, hfail, hfail', h.inv.safe, hsynced.inv.safe]

lemma Fresh.rewound {id : Nat} (h : Fresh (stored V w) w.ram id) :
    Fresh { stored V w with checkpoint := some freshCheckpoint } (setCheckpoint ⟨1, 0, 0, 0⟩ w.ram)
      id := by
  refine ⟨h.handed, h.log, h.listed, ?_⟩
  rw [Stored.cursor, cursor_freshCheckpoint]
  exact (Nat.zero_le _).trans_lt h.cursor

/-- Whatever landed of the evidence is too short to be taken for a segment with records. -/
lemma Rewound.written {id : Nat} {f : File} (h : Rewound V whole kept settled recs w)
    (hfresh : Fresh (stored V w) w.ram id) (hnone : w.disk.lookup id = none)
    (hw : Wrote w w' id f) (hf : f.size ≤ checkpointEvidenceBytes) :
    Rewound V whole kept settled recs w' := by
  have hs := h.sound.written hfresh hnone hw (.inl ⟨rfl, fun _ => hf.trans_lt (by decide)⟩)
  obtain ⟨operation, hram⟩ := hw.ram
  refine ⟨hs, ?_, by rw [hram]; exact h.unready, by rw [hram]; exact h.idle⟩
  rw [hw.stored, hram]
  exact (h.tracked.orphan hw.lookup hfresh.rewound h.idle).relabel _ _ _ operation

lemma wp_writeEvidence {id : Nat} {evidence : List UInt8}
    (h : Rewound V whole kept settled recs w) (hfresh : Fresh (stored V w) w.ram id)
    (hnone : w.disk.lookup id = none) (hlen : evidence.length = checkpointEvidenceBytes) :
    Prog.ewp (fun _ => Rewound V whole kept settled recs) (fun _ => Inv V whole kept settled)
      (Safe V whole kept settled) (writeEvidence id evidence) w := by
  have hcreated := Wrote.create w id
  have hnew := h.written hfresh hnone hcreated (Nat.zero_le _)
  have hfail : ∀ {w' op}, Rewound V whole kept settled recs w' →
      Inv V whole kept settled (noted op w') := fun h => (h.noted (Noted.of_noted _ _)).inv
  simp only [writeEvidence, Prog.ewp_bind, wp_perform, wp_create hnone, Prog.ewp_ite, wp_failure,
    wp_look, Bool.false_eq_true, false_imp_iff, true_imp_iff, not_true_eq_false, not_false_eq_true,
    true_and, and_true]
  refine ⟨⟨?_, hfail hnew, hnew.inv.safe⟩, ⟨hfail h, hfail hnew⟩, h.inv.safe, hnew.inv.safe⟩
  have hsize : ∀ {f' : File}, Grown evidence File.fresh f' → f'.size ≤ checkpointEvidenceBytes := by
    rintro f' ⟨⟨t, ht, hb⟩, -⟩
    rw [File.size, hb, ← hlen]
    exact ht.length_le
  refine Prog.ewp_mono (wp_commitFile hcreated.lookup_self evidence false true) ?_
    (fun _ _ h => h.elim) ?_
  · rintro ok w₂ ⟨f', hw₂, hg, -⟩
    have hw := hcreated.trans hw₂
    have h₂ := h.written hfresh hnone hw (hsize hg)
    refine ⟨fun _ => ?_, fun _ => ?_⟩
    · simp only [wp_probe, hw.lookup_self, Prog.ewp_ite, wp_setStore, wp_failure]
      refine ⟨⟨fun heq => ?_, fun _ => hfail h₂⟩, hfail h₂, h₂.inv.safe⟩
      refine ⟨h₂.sound, ?_, h₂.unready, h₂.idle⟩
      have hfresh₂ := hfresh.wrote hw
      obtain ⟨operation, hram⟩ := hw.ram
      rw [← heq]
      refine h₂.tracked.enlist hw.lookup_self (Fresh.rewound ?_) (h.sound.gone id hnone) h₂.idle ?_
        (by simp)
      · refine ⟨hfresh₂.handed, hfresh₂.log, ?_, hfresh₂.cursor⟩
        rw [hram]
        exact hfresh₂.listed
      · rw [heq]
        decide
    · rw [Prog.ewp_throw]
      exact h₂.inv
  · rintro w₂ ⟨f', hw₂, hg⟩
    exact (h.written hfresh hnone (hcreated.trans hw₂) (hsize hg)).inv.safe

lemma wp_preserveCheckpoint (h : Rewound V whole kept settled recs w)
    (cp : Block zjCheckpointBytes) :
    Prog.ewp (fun _ => Rewound V whole kept settled recs) (fun _ => Inv V whole kept settled)
      (Safe V whole kept settled) (preserveCheckpoint P cp) w := by
  have hfail : ∀ {w' op}, Rewound V whole kept settled recs w' →
      Inv V whole kept settled (noted op w') := fun h => (h.noted (Noted.of_noted _ _)).inv
  simp only [preserveCheckpoint, Prog.ewp_bind, wp_getStore]
  refine Prog.ewp_mono (wp_preserveExisting h _ _) ?_ (fun _ _ h => h) fun _ h => h
  intro found w₁ h₁
  simp only [Prog.ewp_ite, Prog.ewp_pure, Prog.ewp_bind, wp_getStore, wp_failure]
  refine ⟨fun _ => h₁, fun _ => ⟨fun _ => hfail h₁, fun _ => ?_⟩⟩
  refine Prog.ewp_mono (wp_admits _) ?_ (fun _ _ h => h.elim) fun _ h => (h₁.same h).inv.safe
  intro admission w₂ hsame
  have h₂ := h₁.same hsame
  cases admission with
  | full => exact wp_failure _ _ |>.2 (hfail h₂)
  | io => exact wp_failure _ _ |>.2 (hfail h₂)
  | granted =>
    rw [Prog.ewp_bind]
    refine Prog.ewp_mono (wp_zjSequenceNext V h₂.sound.counted h₂.tracked.counting) ?_
      (fun _ _ h => h.elim) ?_
    · rintro r w₃ ⟨hc, hq, ⟨⟨limit, -, hst⟩, q, hram⟩, hnew⟩
      have h₃ : Rewound V whole kept settled recs w₃ := by
        rw [hram] at hq
        rw [hst] at hc hq
        refine ⟨by rw [hst]; exact h₂.sound.draw hc, ?_, by rw [hram]; exact h₂.unready,
          by rw [hram]; exact h₂.idle⟩
        rw [hst, hram]
        exact h₂.tracked.draw hq
      cases r with
      | none => exact wp_failure _ _ |>.2 (hfail h₃)
      | some id =>
        have hhanded : (stored V w₃).handed = id :: w₂.nv.handed := by rw [hst]; rfl
        have hpos := (h₃.sound.counted.below id (by rw [hhanded]; exact List.mem_cons_self)).1
        obtain ⟨hfresh, hnone⟩ := h₂.sound.fresh (s := w₂.ram) limit (hnew id rfl) hpos
          fun g hg => (h₂.tracked.known g hg).1
        have hdisk : w₃.disk = w₂.disk := congrArg Stored.disk hst
        refine wp_writeEvidence h₃ ?_ (hdisk ▸ hnone) (by simp [evidenceMagic, ascii, cp.property]; rfl)
        rw [hst, hram]
        exact ⟨hfresh.handed, hfresh.log, hfresh.listed, hfresh.cursor⟩
    · rintro w₃ ⟨⟨limit, hle, hst⟩, -⟩
      refine ⟨recs, ?_⟩
      rw [hst]
      exact h₂.sound.draw (h₂.sound.counted.mono hle)

lemma wp_replayFrom (h : Rewound V whole kept settled recs w) (cp : Block zjCheckpointBytes) :
    Prog.ewp
      (fun _ w' => Sound P.crypto whole kept settled recs (stored V w') ∧
        Tracked (stored V w') recs w'.ram)
      (fun _ => Inv V whole kept settled) (Safe V whole kept settled) (replayFrom P cp) w := by
  simp only [replayFrom, Prog.ewp_bind, wp_setStore]
  have h₀ : Rewound V whole kept settled recs (w.onRam (setCheckpoint ⟨0, 0, 0, 0⟩)) :=
    ⟨h.sound, h.tracked, h.unready, h.idle⟩
  refine Prog.ewp_mono (wp_preserveCheckpoint h₀ cp) ?_ (fun _ _ h => h) fun _ h => h
  intro _ w₁ h₁
  have hnew : ∀ t, V.limit t = V.limit w₁.nv.port → V.checkpoint t = some freshCheckpoint →
      stored V (portPart.set t w₁) = { stored V w₁ with checkpoint := some freshCheckpoint } := by
    intro t hl hc
    rw [stored_set, hl, hc]
    rfl
  have hsound : Sound P.crypto whole kept settled recs
      { stored V w₁ with checkpoint := some freshCheckpoint } :=
    h₁.sound.rewind cursor_freshCheckpoint
  have hsafe : ∀ t, V.limit t = V.limit w₁.nv.port → (V.checkpoint t = some freshCheckpoint ∨
      V.checkpoint t = V.checkpoint w₁.nv.port) →
      Safe V whole kept settled (portPart.set t w₁) := by
    rintro t hl (hc | hc)
    · exact ⟨recs, hnew t hl hc ▸ hsound⟩
    · refine ⟨recs, ?_⟩
      rw [stored_set, hl, hc]
      exact h₁.sound
  rw [wp_onPort]
  refine Prog.wp_mono (V.commit_spec _ w₁.nv.port) ?_ ?_
  · rintro r t ⟨hl, hc⟩
    cases r with
    | true =>
      have hst := hnew t hl (by simpa using hc)
      simp only [Bool.not_true, Bool.false_eq_true, if_false, loadCheckpoint, parse_freshCheckpoint,
        Prog.ewp_bind, wp_setStore, Prog.ewp_pure, ne_eq, not_true_eq_false, decide_false,
        decide_true, Bool.and_self, Bool.or_true]
      refine ⟨?_, ?_⟩
      · show Sound P.crypto whole kept settled recs (stored V (portPart.set t w₁))
        rw [hst]
        exact hsound
      · show Tracked (stored V (portPart.set t w₁)) recs (setCheckpoint ⟨1, 0, 0, 0⟩ w₁.ram)
        rw [hst]
        exact h₁.tracked
    | false =>
      simp only [Bool.not_false, if_true, Prog.ewp_bind, wp_failure]
      exact Safe.inv (hsafe t hl (hc.imp_right And.right)) h₁.unready
  · rintro t ⟨hl, hc⟩
    exact hsafe t hl hc

/-! ### Opening -/

lemma pairwise_sortSegments {s : ZjStore} (h : (s.segments.map ZjSegment.id).Nodup) :
    (sortSegments s).segments.Pairwise (·.id < ·.id) := by
  have hperm := List.mergeSort_perm s.segments fun a b => decide (a.id ≤ b.id)
  have hle : (sortSegments s).segments.Pairwise fun a b => decide (a.id ≤ b.id) = true :=
    List.pairwise_mergeSort (fun a b c => by simpa using Nat.le_trans)
      (fun a b => by simpa using Nat.le_total a.id b.id) s.segments
  have hne : (sortSegments s).segments.Pairwise (·.id ≠ ·.id) :=
    List.pairwise_map.1 ((hperm.map ZjSegment.id).nodup_iff.2 h)
  exact (hle.and hne).imp fun h => lt_of_le_of_ne (by simpa using h.1) h.2

lemma mem_sortSegments {s : ZjStore} {g : ZjSegment} :
    g ∈ (sortSegments s).segments ↔ g ∈ s.segments := List.mem_mergeSort

lemma cursorDamaged_of_ne {s : ZjStore} {g : ZjSegment} (h : g.id ≠ s.readSegment) :
    cursorDamaged s g = false := by
  simp [cursorDamaged, h]

/-- The store as the directory loop leaves it knows all there is. -/
lemma Sound.tracked_scan {crypto : ZjCrypto} {d : Stored} {s : ZjStore} {gs : List ZjSegment}
    (hs : Sound crypto whole kept settled recs d) (hmap : gs.map ZjSegment.id = d.disk.keys)
    (hgs : ∀ g ∈ gs, Entry d.disk g) (hseg : s.segments = gs) (hcursor : d.cursor = cursorOf s)
    (hfits : ∀ g ∈ gs, cursorDamaged s g = false) (hw : s.writerId = 0)
    (hq : Counting d s.sequence) : Tracked d recs (sortSegments s) := by
  refine hs.tracked (pairwise_sortSegments ?_) (fun g hg => ?_) (fun id f hf => ?_) hcursor
    (fun g hg => ?_) hw hq
  · rw [hseg, hmap]
    exact d.disk.keys_nodup
  · rw [mem_sortSegments, hseg] at hg
    exact hgs g hg
  · have hid : id ∈ gs.map ZjSegment.id := by
      rw [hmap]
      exact AList.mem_keys.1 (AList.lookup_isSome.1 (by rw [hf]; rfl))
    obtain ⟨g, hg, rfl⟩ := List.mem_map.1 hid
    exact ⟨g, mem_sortSegments.2 (hseg ▸ hg), rfl⟩
  · rw [mem_sortSegments, hseg] at hg
    exact hfits g hg

lemma wp_openFiles {limit : Nat} {loaded : Option (Block zjCheckpointBytes)} {replay : Bool}
    (hs : Sound P.crypto whole kept settled recs (stored V w)) (hseg : w.ram.segments = [])
    (hw : w.ram.writerId = 0) (hr : w.ram.ready = false)
    (hq : Counting (stored V w) w.ram.sequence)
    (hok : replay = false → cursorOf w.ram = (stored V w).cursor)
    (hreplay : replay = true → loaded.isSome)
    (hloaded : loaded = none → cursorOf w.ram = ⟨0, 0, 0, 0⟩) :
    Prog.ewp (fun _ => Inv V whole kept settled) (fun _ => Inv V whole kept settled)
      (Safe V whole kept settled) (openFiles P limit loaded replay) w := by
  have hidle : ∀ {w'}, Idle w w' → Inv V whole kept settled w' := by
    rintro w' ⟨hd, hn, hready⟩
    refine Safe.inv ⟨recs, ?_⟩ (hready.trans hr)
    rw [show stored V w' = stored V w by simp only [stored, hd, hn]]
    exact hs
  have hids : ∀ id ∈ w.disk.keys, ∃ f, w.disk.lookup id = some f ∧ id ≠ 0 ∧
      id ≤ zjSequenceMax := by
    intro id hid
    obtain ⟨f, hf⟩ := Option.isSome_iff_exists.1 (AList.lookup_isSome.2 (AList.mem_keys.2 hid))
    obtain ⟨hpos, hmax, -⟩ := hs.counted.below id (hs.files id f hf)
    exact ⟨f, hf, hpos.ne', hmax⟩
  simp only [openFiles, Prog.ewp_bind, wp_look, Prog.ewp_ite, wp_failure, wp_perform, Prog.wp_gets,
    Bool.not_true, Bool.not_false, Bool.false_eq_true, false_imp_iff, true_imp_iff,
    not_true_eq_false, not_false_eq_true, true_and, and_true]
  refine ⟨?_, hidle (Noted.of_noted _ _).idle, (hidle (Noted.refl w).idle).safe⟩
  refine Prog.ewp_mono (wp_scan _ hids replay) ?_ (fun _ _ h => hidle h) fun _ h => (hidle h).safe
  rintro replay' w₁ ⟨gs, ⟨hmap, hgs⟩, rfl, hdamaged⟩
  refine ⟨?_, hidle ⟨rfl, rfl, rfl⟩, (hidle ⟨rfl, rfl, rfl⟩).safe⟩
  rw [wp_setStore]
  have hzero : ∀ {s : ZjStore}, s.readSegment = 0 → ∀ g ∈ gs, cursorDamaged s g = false := by
    intro s h0 g hg
    obtain ⟨f, hf, -⟩ := hgs g hg
    refine cursorDamaged_of_ne ?_
    rw [h0]
    exact (hs.counted.below _ (hs.files _ f hf)).1.ne'
  have hlist : w.ram.segments ++ gs = gs := by rw [hseg, List.nil_append]
  have htrack : cursorOf w.ram = (stored V w).cursor →
      (∀ g ∈ gs, cursorDamaged w.ram g = false) →
      Tracked (stored V w) recs (sortSegments { w.ram with segments := w.ram.segments ++ gs }) :=
    fun hc hf => hs.tracked_scan hmap hgs hlist hc.symm hf hw hq
  cases loaded with
  | none =>
    have hsame : replay = false := by
      cases replay with
      | false => rfl
      | true => simp at hreplay
    have ht := htrack (hok hsame) (hzero (congrArg ZjCheckpoint.segment (hloaded rfl)))
    cases replay' <;> exact (wp_setStore _).2 ⟨recs, hs, fun _ => ht.relabel _ _ _ _⟩
  | some cp =>
    cases replay' with
    | false =>
      obtain ⟨hsame, hfits⟩ := hdamaged rfl
      have ht := htrack (hok hsame) hfits
      exact (wp_setStore _).2 ⟨recs, hs, fun _ => ht.relabel _ _ _ _⟩
    | true =>
      have hrewound : Rewound V whole kept settled recs
          ((w.onRam fun s => { s with segments := s.segments ++ gs }).onRam sortSegments) := by
        refine ⟨hs, ?_, hr, hw⟩
        exact (hs.rewind cursor_freshCheckpoint).tracked_scan
          (s := setCheckpoint ⟨1, 0, 0, 0⟩ { w.ram with segments := w.ram.segments ++ gs })
          hmap hgs hlist cursor_freshCheckpoint (hzero rfl) hw hq
      rw [Prog.ewp_bind]
      refine Prog.ewp_mono (wp_replayFrom hrewound cp) ?_ (fun _ _ h => h) fun _ h => h
      rintro - w₂ ⟨hs₂, ht₂⟩
      exact (wp_setStore _).2 ⟨recs, hs₂, fun _ => ht₂.relabel _ _ _ _⟩

lemma wp_open_inv (h : Safe V whole kept settled w) (metadata : ZjMetadata) :
    Prog.ewp (fun _ => Inv V whole kept settled) (fun _ => Inv V whole kept settled)
      (Safe V whole kept settled) (zjStoreOpen P metadata (V.limit w.nv.port)) w := by
  obtain ⟨recs, hs⟩ := h
  have hfail : ∀ {w'}, stored V w' = stored V w → w'.ram.ready = false →
      Inv V whole kept settled w' := fun hst hr => Safe.inv ⟨recs, hst ▸ hs⟩ hr
  simp only [zjStoreOpen, Prog.ewp_bind, wp_setStore]
  cases henc : zjMetadataEncode metadata with
  | none =>
    rw [Prog.ewp_throw]
    exact hfail rfl rfl
  | some header =>
    cases hseq : zjSequenceInit (V.limit w.nv.port) with
    | none =>
      rw [Prog.ewp_throw]
      exact hfail rfl rfl
    | some q =>
      simp only [Prog.ewp_bind, wp_setStore]
      refine Prog.ewp_mono (wp_openCheckpoint (V := V) rfl) ?_ ?_ ?_
      · rintro ⟨loaded, replay⟩ w₁ ⟨hst, hloaded, c, hram, hok, hreplay⟩
        have hst : stored V w₁ = stored V w := hst
        refine wp_openFiles (hst ▸ hs) (by rw [hram]; rfl) (by rw [hram]; rfl) (by rw [hram]; rfl) ?_
          (fun h => ?_) (fun h => (hreplay h).1) fun h => ?_
        · rw [hst, hram]
          unfold zjSequenceInit at hseq
          split_ifs at hseq
          cases hseq
          exact fun _ => ⟨rfl, le_rfl, fun v hv => (hs.counted.below v hv).2.2⟩
        · rw [hst, hram]
          exact hok h
        · obtain rfl : loaded = none := h
          rw [hram]
          have hnot : replay = false := by
            cases replay with
            | false => rfl
            | true => exact absurd (hreplay rfl).1 (by simp)
          show c = ⟨0, 0, 0, 0⟩
          rw [hok hnot, Stored.cursor, ← hloaded]
          rfl
      · rintro _ w₁ ⟨hst, hr⟩
        exact hfail hst hr
      · exact fun w₁ hst => ⟨recs, hst ▸ hs⟩

end Journal

end ZoneLite
