import AutoAttn.Journal.Run

/-!
# When the journal reopens

A store is opened on whatever a run left behind, with any checkpoint, and nothing goes wrong while
it is. Then only the number of segment files can be in the way.
-/

namespace ZoneLite

open Bytes Crash

namespace Journal

variable {π : Type} {P : ZjPort π} {V : P.View} {w : ZjWorld π}

/-! ### What opening looks for -/

/-- The inventory entry of a file. -/
def entryOf (id : Nat) (f : File) : ZjSegment where
  id := id
  size := f.size
  metadataValid := (headerAt ⟨id, f.size, false, false⟩ f.bytes).isSome
  checkpointEvidence := f.size = checkpointEvidenceBytes && slice f.bytes 0 8 = evidenceMagic

/-- The cursor of a checkpoint whose fields can be right. -/
def cursorFrom (limit : Nat) (cp : Block zjCheckpointBytes) : Option ZjCheckpoint :=
  (parseCheckpoint cp).filter fun c =>
    (c.segment ≠ 0 || (c.offset = 0 && c.sequence = 0)) && c.segment < limit && c.sequence < limit

/-- The checkpoint cannot be right, or cannot be right for the segment it names. -/
def Rejects (limit : Nat) (disk : Disk Nat) (cp : Block zjCheckpointBytes) : Prop :=
  ∀ c, cursorFrom limit cp = some c → ∃ f, disk.lookup c.segment = some f ∧
    (f.size < c.offset ∨ (entryOf c.segment f).metadataValid = true ∧ c.offset < zjMetaBytes)

/-- The evidence of a checkpoint. -/
def evidenceOf (cp : Block zjCheckpointBytes) : List UInt8 := evidenceMagic ++ cp.val

/-- A segment holds the evidence of the checkpoint. -/
def Preserved (disk : Disk Nat) (cp : Block zjCheckpointBytes) : Prop :=
  ∃ id f, disk.lookup id = some f ∧ f.bytes = evidenceOf cp

/-- Files are not too long and not too many, and there is one to spare, and a number for it, if the
checkpoint has to be preserved. -/
structure Room (limit : Nat) (disk : Disk Nat) (checkpoint : Option (Block zjCheckpointBytes)) :
    Prop where
  sizes : ∀ id f, disk.lookup id = some f → f.size < 2 ^ 32
  files : disk.keys.length ≤ zjSegmentsMax
  spare : ∀ cp, checkpoint = some cp → Rejects limit disk cp →
    Preserved disk cp ∨ disk.keys.length < zjSegmentsMax ∧ limit ≤ zjSequenceMax

@[simp] lemma length_evidenceOf (cp : Block zjCheckpointBytes) :
    (evidenceOf cp).length = checkpointEvidenceBytes := by
  rw [evidenceOf, List.length_append, Block.length_val]
  rfl

lemma entryOf_of_evidence {id : Nat} {f : File} {cp : Block zjCheckpointBytes}
    (h : f.bytes = evidenceOf cp) : (entryOf id f).checkpointEvidence = true := by
  have hsize : f.size = checkpointEvidenceBytes := by rw [File.size, h, length_evidenceOf]
  have hmagic : slice f.bytes 0 8 = evidenceMagic := by
    rw [h, evidenceOf, slice_append_left (by decide)]
    rfl
  simp [entryOf, hsize, hmagic]

@[simp] lemma port_set (t : π) (w : ZjWorld π) : (portPart.set t w).nv.port = t := rfl

/-- The port serves every call while nothing goes wrong. -/
structure Willing (V : P.View) (S : π → Prop) : Prop where
  limit : ∀ t, S t → 0 < V.limit t ∧ V.limit t ≤ zjSequenceMax + 1
  load : ∀ t, S t → (P.load.eval t).1 = some (V.checkpoint t) ∧ S (P.load.eval t).2
  admits : ∀ n t, S t → ((P.admits n).eval t).1 = .granted ∧ S ((P.admits n).eval t).2
  reserve : ∀ n t, S t → V.limit t < n → n ≤ zjSequenceMax + 1 →
    ((P.reserve n).eval t).1 = true ∧ S ((P.reserve n).eval t).2
  commit : ∀ cp t, S t → ((P.commit cp).eval t).1 = true ∧ S ((P.commit cp).eval t).2

/-! ### The inventory -/

section Scan

variable {limit : Nat} {id : Nat} {f : File}

lemma exec_scanEntry (h0 : id ≠ 0) (hmax : id ≤ zjSequenceMax) (hlimit : id < limit)
    (hf : w.disk.lookup id = some f) :
    if f.size < 2 ^ 32 ∧ w.ram.segments.length ≠ zjSegmentsMax then
      Prog.exec (scanEntry limit (filename id)) w = (.ok (entryOf id f), w)
    else ∃ e w', Prog.exec (scanEntry limit (filename id)) w = (.error e, w') := by
  have hid : ¬id ≥ limit := by omega
  by_cases hcap : w.ram.segments.length = zjSegmentsMax
  · rw [if_neg (by simp [hcap])]
    refine ⟨.full, noted "segment_capacity" w, ?_⟩
    simp [scanEntry, fileId_filename h0 hmax, hid, hcap, failure, note, noted]
  by_cases hsize : f.size < 2 ^ 32
  · rw [if_pos ⟨hsize, hcap⟩]
    have hlong : ¬4294967296 ≤ f.size := by omega
    have hheader := exec_readHeader (w := w) (g := ⟨id, f.size, false, false⟩) hf rfl
    by_cases hev : f.size = checkpointEvidenceBytes
    · have hread := exec_readBytes hf (show 0 + 8 ≤ f.bytes.length by
        rw [← File.size, hev]
        decide)
      rw [hev] at hlong hheader
      simp [scanEntry, fileId_filename h0 hmax, hid, hcap, hf, hlong, hheader, hev, hread, entryOf,
        headerAt]
    · simp [scanEntry, fileId_filename h0 hmax, hid, hcap, hf, hlong, hheader, hev, entryOf, headerAt]
  · rw [if_neg fun h => hsize h.1]
    refine ⟨.io, noted "segment_stat" w, ?_⟩
    have hlong : 4294967296 ≤ f.size := by omega
    simp [scanEntry, fileId_filename h0 hmax, hid, hcap, hf, hlong, failure, note, noted]

/-- The directory loop goes on behind an entry that it could take. -/
lemma exec_scan_cons {name : List Char} (names : List (List Char)) (replay : Bool) {g : ZjSegment}
    (hg : Prog.exec (scanEntry limit name) w = (.ok g, w)) :
    Prog.exec (scan limit (name :: names) replay) w =
      Prog.exec (scan limit names (replay || cursorDamaged w.ram g)) (w.onRam (pushSegment g)) := by
  simp [scan, hg]

lemma exec_scan_error {name : List Char} (names : List (List Char)) (replay : Bool) {e : ZjError}
    {w' : ZjWorld π} (hg : Prog.exec (scanEntry limit name) w = (.error e, w')) :
    Prog.exec (scan limit (name :: names) replay) w = (.error e, w') := by
  simp [scan, hg]

/-- The inventory of the files `es`. -/
def inventory (es : List (Sigma fun _ : Nat => File)) : List ZjSegment :=
  es.map fun e => entryOf e.1 e.2

/-- Every file is as the disk has it, under a name that the store would give it. -/
def Listed (limit : Nat) (d : Disk Nat) (es : List (Sigma fun _ : Nat => File)) : Prop :=
  ∀ e ∈ es, d.lookup e.1 = some e.2 ∧ e.1 ≠ 0 ∧ e.1 ≤ zjSequenceMax ∧ e.1 < limit

/-- The directory loop takes all files, if they are not too long and not too many. -/
lemma exec_scan (es : List (Sigma fun _ : Nat => File)) (replay : Bool)
    (hes : Listed limit w.disk es) (hcap : w.ram.segments.length ≤ zjSegmentsMax) :
    if (∀ e ∈ es, e.2.size < 2 ^ 32) ∧ w.ram.segments.length + es.length ≤ zjSegmentsMax then
      Prog.exec (scan limit (es.map fun e => filename e.1) replay) w =
        (.ok (replay || (inventory es).any (cursorDamaged w.ram)),
          w.onRam fun s => { s with segments := s.segments ++ inventory es })
    else ∃ e w', Prog.exec (scan limit (es.map fun e => filename e.1) replay) w = (.error e, w') := by
  induction es generalizing w replay with
  | nil =>
    rw [if_pos ⟨by simp, hcap⟩]
    simp [scan, inventory, World.onRam]
  | cons e es ih =>
    obtain ⟨⟨hf, h0, hmax, hlimit⟩, hes⟩ := List.forall_mem_cons.1 hes
    have hentry := exec_scanEntry h0 hmax hlimit hf
    rw [List.map_cons]
    by_cases hfits : e.2.size < 2 ^ 32 ∧ w.ram.segments.length ≠ zjSegmentsMax
    · rw [if_pos hfits] at hentry
      have hlt : w.ram.segments.length < zjSegmentsMax := lt_of_le_of_ne hcap hfits.2
      have hrest := ih (w := w.onRam (pushSegment (entryOf e.1 e.2)))
        (replay || cursorDamaged w.ram (entryOf e.1 e.2)) hes (by simpa [pushSegment] using hlt)
      have hlen : (w.onRam (pushSegment (entryOf e.1 e.2))).ram.segments.length + es.length =
          w.ram.segments.length + (e :: es).length := by
        rw [World.ram_onRam, pushSegment, List.length_append, List.length_cons, List.length_cons,
          List.length_nil]
        omega
      have hiff : ((∀ x ∈ e :: es, x.2.size < 2 ^ 32) ∧ _) ↔ _ :=
        and_congr_left' (c := w.ram.segments.length + (e :: es).length ≤ zjSegmentsMax)
          (List.forall_mem_cons.trans (and_iff_right hfits.1))
      rw [exec_scan_cons _ _ hentry, if_congr hiff rfl rfl]
      rw [hlen] at hrest
      split_ifs at hrest ⊢ with hall
      · rw [hrest]
        simp [inventory, pushSegment, World.onRam, Bool.or_assoc]
        rfl
      · exact hrest
    · rw [if_neg hfits] at hentry
      obtain ⟨e', w', hw'⟩ := hentry
      rw [if_neg, exec_scan_error _ _ hw']
      · exact ⟨e', w', rfl⟩
      · rintro ⟨hsizes, hlen⟩
        refine hfits ⟨hsizes e List.mem_cons_self, fun heq => ?_⟩
        rw [List.length_cons] at hlen
        omega

end Scan

/-! ### The checkpoint -/

section Checkpoint

variable {S : π → Prop} {limit : Nat}

lemma exec_openCheckpoint_none (hV : Willing V S) (hS : S w.nv.port)
    (hcp : V.checkpoint w.nv.port = none) :
    Prog.exec (openCheckpoint P limit) w =
      (.ok (none, false), portPart.set (P.load.eval w.nv.port).2 w) := by
  have hload := (hV.load w.nv.port hS).1
  rw [hcp] at hload
  simp [openCheckpoint, hload]

/-- A checkpoint that can be right gives the cursor. -/
lemma exec_openCheckpoint_some (hV : Willing V S) (hS : S w.nv.port) {cp : Block zjCheckpointBytes}
    (hcp : V.checkpoint w.nv.port = some cp) :
    Prog.exec (openCheckpoint P limit) w =
      (.ok (some cp, (cursorFrom limit cp).isNone), (portPart.set (P.load.eval w.nv.port).2 w).onRam
        (setCheckpoint ((cursorFrom limit cp).getD ⟨0, 0, 0, 0⟩))) := by
  have hload := (hV.load w.nv.port hS).1
  rw [hcp] at hload
  cases hparse : parseCheckpoint cp with
  | none =>
    have hcursor : cursorFrom limit cp = none := by simp [cursorFrom, hparse]
    simp [openCheckpoint, hload, loadCheckpoint, hparse, hcursor]
  | some c =>
    by_cases hc : (c.segment ≠ 0 || (c.offset = 0 && c.sequence = 0)) && c.segment < limit &&
        c.sequence < limit
    · have hcursor : cursorFrom limit cp = some c := by
        rw [cursorFrom, hparse, Option.filter_some, if_pos hc]
      simp only [Bool.and_eq_true, decide_eq_true_eq] at hc
      have h1 : ¬limit ≤ c.segment := not_le.2 hc.1.2
      have h2 : ¬limit ≤ c.sequence := not_le.2 hc.2
      simp [openCheckpoint, hload, loadCheckpoint, hparse, hcursor, setCheckpoint, h1, h2]
      simpa [or_iff_not_imp_left] using hc.1.1
    · have hcursor : cursorFrom limit cp = none := by
        rw [cursorFrom, hparse, Option.filter_some, if_neg hc]
      have hbad : (c.segment = 0 ∧ (c.offset = 0 → ¬c.sequence = 0) ∨ limit ≤ c.segment) ∨
          limit ≤ c.sequence := by
        by_contra hgood
        simp only [not_or, not_le] at hgood
        exact hc (by simpa [hgood.1.2, hgood.2, or_iff_not_imp_left] using hgood.1.1)
      simp [openCheckpoint, hload, loadCheckpoint, hparse, hcursor]
      exact if_pos hbad

end Checkpoint

/-! ### The evidence -/

section Evidence

variable {S : π → Prop} {cp : Block zjCheckpointBytes} {id : Nat} {f : File}

/-- The segment holds the evidence. -/
def HoldsEvidence (d : Disk Nat) (cp : Block zjCheckpointBytes) (g : ZjSegment) : Prop :=
  ∃ f, d.lookup g.id = some f ∧ f.bytes = evidenceOf cp

/-- Reading a segment that is taken for evidence gives all of it. -/
lemma exec_readEvidence (hf : w.disk.lookup id = some f)
    (hev : (entryOf id f).checkpointEvidence = true) :
    Prog.exec (readBytes id 0 checkpointEvidenceBytes) w = (.ok f.bytes, w) := by
  simp only [entryOf, Bool.and_eq_true, decide_eq_true_eq] at hev
  rw [exec_readBytes hf (by rw [← File.size, hev.1, Nat.zero_add]), ← hev.1, File.size, slice_self]

/-- Evidence that is there is found, and synchronised. -/
lemma exec_preserveExisting (cp : Block zjCheckpointBytes) {gs : List ZjSegment}
    (hgs : ∀ g ∈ gs, ∃ f, w.disk.lookup g.id = some f ∧ g = entryOf g.id f) :
    ∃ found w', Prog.exec (preserveExisting (evidenceOf cp) gs) w = (.ok found, w') ∧
      (found = true ↔ ∃ g ∈ gs, HoldsEvidence w.disk cp g) ∧ w'.ram = w.ram ∧ w'.nv = w.nv ∧
      (found = false → w' = w) := by
  induction gs with
  | nil => exact ⟨false, w, rfl, by simp, rfl, rfl, fun _ => rfl⟩
  | cons g gs ih =>
    obtain ⟨⟨f, hf, hg⟩, hgs⟩ := List.forall_mem_cons.1 hgs
    by_cases hbytes : f.bytes = evidenceOf cp
    · have hev : (entryOf g.id f).checkpointEvidence = true := entryOf_of_evidence hbytes
      have hread := exec_readEvidence hf hev
      rw [← hg] at hev
      refine ⟨true, w.onDisk fun d => d.update g.id File.sync, ?_,
        iff_of_true rfl ⟨g, List.mem_cons_self, f, hf, hbytes⟩, rfl, rfl, by simp⟩
      simp [preserveExisting, hev, hread, hbytes, hf, fsync]
    · obtain ⟨found, w', hw', hfound, hram, hnv, hsame⟩ := ih hgs
      have hnot : ¬HoldsEvidence w.disk cp g := by
        rintro ⟨f', hf', hbytes'⟩
        exact hbytes (Option.some.inj (hf'.symm.trans hf) ▸ hbytes')
      refine ⟨found, w', ?_, ?_, hram, hnv, hsame⟩
      · cases hev : g.checkpointEvidence with
        | false => simpa [preserveExisting, hev] using hw'
        | true =>
          have hread := exec_readEvidence hf (hg ▸ hev)
          simpa [preserveExisting, hev, hread, hbytes] using hw'
      · rw [hfound, List.exists_mem_cons_iff, or_iff_right hnot]

/-- The first number after opening is the stored limit. -/
lemma exec_zjSequenceNext (hV : Willing V S) (hS : S w.nv.port)
    (hq : w.ram.sequence = ⟨V.limit w.nv.port, V.limit w.nv.port, true⟩)
    (h0 : V.limit w.nv.port ≠ 0) :
    if V.limit w.nv.port ≤ zjSequenceMax then
      ∃ w', Prog.exec (zjSequenceNext P) w = (.ok (some (V.limit w.nv.port)), w') ∧
        w'.disk = w.disk ∧ S w'.nv.port
    else Prog.exec (zjSequenceNext P) w = (.ok none, w) := by
  split_ifs with hmax
  · have hlt := lt_nextLimit hmax
    have hle : nextLimit (V.limit w.nv.port) ≤ zjSequenceMax + 1 := by
      unfold nextLimit
      split_ifs <;> omega
    obtain ⟨hok, hS'⟩ := hV.reserve _ w.nv.port hS hlt hle
    have hmax' : ¬zjSequenceMax < V.limit w.nv.port := not_lt.2 hmax
    let limit := V.limit w.nv.port
    let handed := ((portPart.set ((P.reserve (nextLimit limit)).eval w.nv.port).2 w).onRam fun s =>
      { s with sequence := ⟨limit + 1, nextLimit limit, true⟩ }).onNv fun n =>
      { n with handed := limit :: n.handed }
    refine ⟨handed, ?_, rfl, hS'⟩
    simp only [zjSequenceNext, setSequence, handOut, handed, limit]
    simp [hq, h0, hmax', hok]
    simp [portPart, World.onRam, World.onNv, hq]
  · have hmax' : zjSequenceMax < V.limit w.nv.port := not_le.1 hmax
    simp [zjSequenceNext, hq, hmax']

/-- A new file takes the evidence. -/
lemma exec_writeEvidence (cp : Block zjCheckpointBytes) (hid : w.disk.lookup id = none) :
    ∃ w', Prog.exec (writeEvidence id (evidenceOf cp)) w = (.ok (), w') ∧ w'.nv = w.nv := by
  have hbytes : (File.fresh.write 0 (evidenceOf cp)).bytes = evidenceOf cp := by
    rw [File.bytes_write _ (Nat.zero_le _)]
    simp
  have hcreate : (create id : Prog (ZjWorld π) Bool).eval w =
      (true, w.onDisk fun d => d.insert id File.fresh) := by
    simp [create, hid]
  have hne : (evidenceOf cp).length ≠ 0 := by
    rw [length_evidenceOf]
    decide
  refine ⟨((((w.onDisk fun d => d.insert id File.fresh).onDisk fun d =>
    d.update id (File.write 0 (evidenceOf cp))).onDisk fun d => d.update id File.sync)).onRam
      (pushSegment ⟨id, checkpointEvidenceBytes, false, true⟩), ?_, rfl⟩
  have hsize : File.size ((File.fresh.write 0 (evidenceOf cp)).sync) = checkpointEvidenceBytes := by
    rw [File.size, File.bytes_sync, hbytes, length_evidenceOf]
  simp only [writeEvidence, commitFile, commitData]
  simp [hcreate, fwrite, fflush, fsync, land, hne, hsize, -length_evidenceOf]

/-- The checkpoint is preserved, if it is already, or if there is room for its evidence. -/
lemma exec_preserveCheckpoint (cp : Block zjCheckpointBytes) (hV : Willing V S) (hS : S w.nv.port)
    (hq : w.ram.sequence = ⟨V.limit w.nv.port, V.limit w.nv.port, true⟩)
    (h0 : V.limit w.nv.port ≠ 0) (hfree : w.disk.lookup (V.limit w.nv.port) = none)
    (hgs : ∀ g ∈ w.ram.segments, ∃ f, w.disk.lookup g.id = some f ∧ g = entryOf g.id f) :
    ((Prog.exec (preserveCheckpoint P cp) w).1 = .ok () ↔
      (∃ g ∈ w.ram.segments, HoldsEvidence w.disk cp g) ∨
        w.ram.segments.length ≠ zjSegmentsMax ∧ V.limit w.nv.port ≤ zjSequenceMax) ∧
    S (Prog.exec (preserveCheckpoint P cp) w).2.nv.port := by
  obtain ⟨found, w', hw', hfound, hram, hnv, hsame⟩ := exec_preserveExisting cp hgs
  rw [evidenceOf] at hw'
  rw [← hfound]
  cases found with
  | true => simpa [preserveCheckpoint, hw', hnv] using hS
  | false =>
    obtain rfl := hsame rfl
    by_cases hcap : w'.ram.segments.length = zjSegmentsMax
    · simpa [preserveCheckpoint, hw', hcap, failure, note] using hS
    obtain ⟨hadmits, hS'⟩ := hV.admits checkpointEvidenceBytes w'.nv.port hS
    obtain ⟨-, hlimit⟩ := Prog.wp_eval (V.admits_spec checkpointEvidenceBytes w'.nv.port)
    obtain ⟨t, ht⟩ : ∃ t, t = ((P.admits checkpointEvidenceBytes).eval w'.nv.port).2 := ⟨_, rfl⟩
    rw [← ht] at hS' hlimit
    have hnext := exec_zjSequenceNext (w := portPart.set t w') hV hS'
      (by rw [port_set, hlimit]; exact hq) (by rw [port_set, hlimit]; exact h0)
    rw [port_set, hlimit] at hnext
    split_ifs at hnext with hmax
    · obtain ⟨w₁, hw₁, hdisk, hS₁⟩ := hnext
      obtain ⟨w₂, hw₂, hnv₂⟩ := exec_writeEvidence cp (hdisk ▸ hfree)
      rw [evidenceOf] at hw₂
      simpa [preserveCheckpoint, hw', hcap, hadmits, ← ht, hw₁, hw₂, hnv₂, hmax] using hS₁
    · simpa [preserveCheckpoint, hw', hcap, hadmits, ← ht, hnext, hmax, failure, note] using hS'

/-- Reading starts over, if the checkpoint is preserved. -/
lemma exec_replayFrom (hV : Willing V S) (hS : S w.nv.port)
    (hq : w.ram.sequence = ⟨V.limit w.nv.port, V.limit w.nv.port, true⟩)
    (h0 : V.limit w.nv.port ≠ 0) (hfree : w.disk.lookup (V.limit w.nv.port) = none)
    (hgs : ∀ g ∈ w.ram.segments, ∃ f, w.disk.lookup g.id = some f ∧ g = entryOf g.id f) :
    (Prog.exec (replayFrom P cp) w).1 = .ok () ↔
      (∃ g ∈ w.ram.segments, HoldsEvidence w.disk cp g) ∨
        w.ram.segments.length ≠ zjSegmentsMax ∧ V.limit w.nv.port ≤ zjSequenceMax := by
  obtain ⟨hiff, hS'⟩ := exec_preserveCheckpoint cp (w := w.onRam (setCheckpoint ⟨0, 0, 0, 0⟩))
    hV hS hq h0 hfree hgs
  refine Iff.trans ?_ hiff
  rw [replayFrom]
  obtain ⟨⟨x, w'⟩, hw'⟩ : ∃ y, y = Prog.exec (preserveCheckpoint P cp)
    (w.onRam (setCheckpoint ⟨0, 0, 0, 0⟩)) := ⟨_, rfl⟩
  rw [← hw'] at hS' ⊢
  cases x with
  | error e => simp [← hw']
  | ok _ =>
    have hcommit := (hV.commit freshCheckpoint w'.nv.port hS').1
    simp [← hw', hcommit, loadCheckpoint, parse_freshCheckpoint]

end Evidence

/-! ### Opening -/

section Opening

variable {S : π → Prop} {d : Disk Nat} {cp : Block zjCheckpointBytes} {limit : Nat}

lemma lookup_of_mem_entries {e : Sigma fun _ : Nat => File} (he : e ∈ d.entries) :
    d.lookup e.1 = some e.2 := AList.mem_lookup_iff.2 he

lemma exists_mem_inventory {p : ZjSegment → Prop} :
    (∃ g ∈ inventory d.entries, p g) ↔ ∃ id f, d.lookup id = some f ∧ p (entryOf id f) := by
  constructor
  · rintro ⟨g, hg, hp⟩
    obtain ⟨e, he, rfl⟩ := List.mem_map.1 hg
    exact ⟨e.1, e.2, lookup_of_mem_entries he, hp⟩
  · rintro ⟨id, f, hf, hp⟩
    exact ⟨entryOf id f, List.mem_map.2 ⟨⟨id, f⟩, AList.mem_lookup_iff.1 hf, rfl⟩, hp⟩

lemma preserved_iff : (∃ g ∈ inventory d.entries, HoldsEvidence d cp g) ↔ Preserved d cp := by
  rw [exists_mem_inventory]
  constructor
  · rintro ⟨id, _, -, f, hf, hbytes⟩
    exact ⟨id, f, hf, hbytes⟩
  · rintro ⟨id, f, hf, hbytes⟩
    exact ⟨id, f, hf, f, hf, hbytes⟩

/-- The replay flag. -/
lemma rejects_iff {s : ZjStore} (hs : setCheckpoint ((cursorFrom limit cp).getD ⟨0, 0, 0, 0⟩) s = s) :
    ((cursorFrom limit cp).isNone || (inventory d.entries).any (cursorDamaged s)) = true ↔
      Rejects limit d cp := by
  cases hc : cursorFrom limit cp with
  | none => simp [Rejects, hc]
  | some c =>
    rw [hc, Option.getD_some] at hs
    rw [← hs, Option.isNone_some, Bool.false_or, List.any_eq_true, exists_mem_inventory]
    simp only [Rejects, hc, Option.some.injEq, forall_eq', cursorDamaged, Bool.and_eq_true,
      Bool.or_eq_true, decide_eq_true_eq]
    constructor
    · rintro ⟨id, f, hf, rfl, hbad⟩
      exact ⟨f, hf, hbad⟩
    · rintro ⟨f, hf, hbad⟩
      exact ⟨c.segment, f, hf, rfl, hbad⟩

/-- What opening makes of the files. -/
lemma exec_openFiles (hV : Willing V S) (hS : S w.nv.port)
    (hq : w.ram.sequence = ⟨V.limit w.nv.port, V.limit w.nv.port, true⟩)
    (h0 : V.limit w.nv.port ≠ 0) (hempty : w.ram.segments = [])
    (hlisted : Listed (V.limit w.nv.port) w.disk w.disk.entries)
    (loaded : Option (Block zjCheckpointBytes)) (replay : Bool) :
    (Prog.exec (openFiles P (V.limit w.nv.port) loaded replay) w).1 = .ok () ↔
      (∀ id f, w.disk.lookup id = some f → f.size < 2 ^ 32) ∧
      w.disk.keys.length ≤ zjSegmentsMax ∧ ∀ cp, loaded = some cp →
        (replay || (inventory w.disk.entries).any (cursorDamaged w.ram)) = true →
        Preserved w.disk cp ∨ w.disk.keys.length < zjSegmentsMax ∧
          V.limit w.nv.port ≤ zjSequenceMax := by
  have hkeys : w.disk.keys.map filename = w.disk.entries.map fun e => filename e.1 := by
    rw [AList.keys, List.keys, List.map_map]
    rfl
  have hlen : w.disk.keys.length = w.disk.entries.length := by simp [AList.keys, List.keys]
  have hsizes : (∀ e ∈ w.disk.entries, e.2.size < 2 ^ 32) ↔
      ∀ id f, w.disk.lookup id = some f → f.size < 2 ^ 32 :=
    ⟨fun h id f hf => h ⟨id, f⟩ (AList.mem_lookup_iff.1 hf),
      fun h e he => h e.1 e.2 (lookup_of_mem_entries he)⟩
  have hscan := exec_scan w.disk.entries replay hlisted (by simp [hempty])
  rw [hempty, List.length_nil, Nat.zero_add] at hscan
  rw [openFiles, ← hsizes, hlen]
  simp only [Prog.exec_bind, Prog.exec_ite, exec_look, exec_perform, Prog.eval_gets, hkeys]
  split_ifs at hscan with hfits
  · obtain ⟨found, hfound⟩ : ∃ b, b = (replay || (inventory w.disk.entries).any (cursorDamaged w.ram)) :=
      ⟨_, rfl⟩
    rw [← hfound] at hscan ⊢
    obtain ⟨w₁, hw₁⟩ : ∃ w₁, w₁ = (w.onRam fun s =>
      { s with segments := s.segments ++ inventory w.disk.entries }).onRam sortSegments := ⟨_, rfl⟩
    have hmem : ∀ g, g ∈ w₁.ram.segments ↔ g ∈ inventory w.disk.entries := by
      simp [hw₁, sortSegments, hempty]
    have hlen₁ : w₁.ram.segments.length = w.disk.entries.length := by
      simp [hw₁, sortSegments, hempty, inventory]
    have hreplay : ∀ cp, (Prog.exec (replayFrom P cp) w₁).1 = .ok () ↔ Preserved w.disk cp ∨
        w.disk.entries.length < zjSegmentsMax ∧ V.limit w.nv.port ≤ zjSequenceMax := by
      intro cp
      rw [← preserved_iff, lt_iff_le_and_ne, and_iff_right hfits.2, ← hlen₁]
      simp only [← hmem]
      have hw : w₁.nv = w.nv ∧ w₁.disk = w.disk ∧ w₁.ram.sequence = w.ram.sequence := by
        rw [hw₁]
        exact ⟨rfl, rfl, rfl⟩
      rw [← hw.1, ← hw.2.1]
      refine exec_replayFrom hV (hw.1 ▸ hS) (by rw [hw.2.2, hw.1, hq]) (hw.1 ▸ h0) ?_ ?_
      · rw [hw.1, hw.2.1, Option.eq_none_iff_forall_ne_some]
        exact fun f hf => lt_irrefl _ (hlisted _ (AList.mem_lookup_iff.1 hf)).2.2.2
      · intro g hg
        obtain ⟨e, he, rfl⟩ := List.mem_map.1 ((hmem g).1 hg)
        exact ⟨e.2, hw.2.1 ▸ lookup_of_mem_entries he, rfl⟩
    rw [and_iff_right hfits.1, and_iff_right hfits.2]
    cases loaded with
    | none => simp [hscan]
    | some cp =>
      cases found with
      | false => simp [hscan]
      | true =>
        specialize hreplay cp
        obtain ⟨⟨x, w₂⟩, hw₂⟩ : ∃ y, y = Prog.exec (replayFrom P cp) w₁ := ⟨_, rfl⟩
        rw [← hw₂] at hreplay
        cases x with
        | error e => simpa [hscan, ← hw₁, ← hw₂] using hreplay
        | ok _ => simpa [hscan, ← hw₁, ← hw₂] using hreplay
  · obtain ⟨e, w', hw'⟩ := hscan
    simp only [hw']
    exact iff_of_false (by simp) fun h => hfits ⟨h.1, h.2.1⟩

/-- Opening succeeds where there is room. -/
lemma exec_zjStoreOpen (hV : Willing V S) (hS : S w.nv.port)
    (hlisted : Listed (V.limit w.nv.port) w.disk w.disk.entries) {metadata : ZjMetadata}
    (hm : (zjMetadataEncode metadata).isSome) :
    (Prog.exec (zjStoreOpen P metadata (V.limit w.nv.port)) w).1 = .ok () ↔
      Room (V.limit w.nv.port) w.disk (V.checkpoint w.nv.port) := by
  obtain ⟨header, hheader⟩ := Option.isSome_iff_exists.1 hm
  obtain ⟨hpos, hmax⟩ := hV.limit _ hS
  have hinit : zjSequenceInit (V.limit w.nv.port) =
      some ⟨V.limit w.nv.port, V.limit w.nv.port, true⟩ := if_neg (by omega)
  obtain ⟨-, hS'⟩ := hV.load _ hS
  obtain ⟨⟨-, hlimit⟩, -⟩ := Prog.wp_eval (V.load_spec w.nv.port)
  obtain ⟨t, ht⟩ : ∃ t, t = (P.load.eval w.nv.port).2 := ⟨_, rfl⟩
  rw [← ht] at hS' hlimit
  obtain ⟨w₀, hw₀⟩ : ∃ w₀ : ZjWorld π, w₀ = w.onRam fun _ => { ZjStore.zero with
    writerMetadata := some metadata, writerHeader := header,
    sequence := ⟨V.limit w.nv.port, V.limit w.nv.port, true⟩ } := ⟨_, rfl⟩
  have hstart : Prog.exec (zjStoreOpen P metadata (V.limit w.nv.port)) w = Prog.exec
      (openCheckpoint P (V.limit w.nv.port) >>= fun r => openFiles P (V.limit w.nv.port) r.1 r.2) w₀ := by
    simp [zjStoreOpen, hheader, hinit, hw₀, World.onRam]
  have hport : w₀.nv.port = w.nv.port := by rw [hw₀]; rfl
  have hfiles : ∀ f : ZjStore → ZjStore, (f w₀.ram).sequence = w₀.ram.sequence →
      (f w₀.ram).segments = w₀.ram.segments → ∀ loaded replay,
      ((Prog.exec (openFiles P (V.limit w.nv.port) loaded replay)
        ((portPart.set t w₀).onRam f)).1 = .ok () ↔
      (∀ id f, w.disk.lookup id = some f → f.size < 2 ^ 32) ∧ w.disk.keys.length ≤ zjSegmentsMax ∧
      ∀ cp, loaded = some cp →
        (replay || (inventory w.disk.entries).any (cursorDamaged (f w₀.ram))) = true →
        Preserved w.disk cp ∨ w.disk.keys.length < zjSegmentsMax ∧
          V.limit w.nv.port ≤ zjSequenceMax) := by
    intro f hsequence hsegments loaded replay
    have hsequence₀ : w₀.ram.sequence = ⟨V.limit t, V.limit t, true⟩ := by
      rw [hw₀, hlimit]
      rfl
    rw [← hlimit] at hlisted hpos ⊢
    have hdisk : w₀.disk = w.disk := by rw [hw₀]; rfl
    have hdisk' : ((portPart.set t w₀).onRam f).disk = w.disk := hdisk
    have h := exec_openFiles (w := (portPart.set t w₀).onRam f) hV hS'
      (hsequence.trans hsequence₀) hpos.ne'
      (hsegments.trans (by rw [hw₀]; rfl)) (by rw [hdisk']; exact hlisted) loaded replay
    rw [hdisk'] at h
    exact h
  rw [hstart, Prog.exec_bind]
  cases hcp : V.checkpoint w.nv.port with
  | none =>
    rw [exec_openCheckpoint_none hV (hport ▸ hS) (hport ▸ hcp), hport, ← ht]
    refine (hfiles id rfl rfl none false).trans ⟨fun h => ⟨h.1, h.2.1, by simp⟩, fun h => ?_⟩
    exact ⟨h.sizes, h.files, by simp⟩
  | some cp =>
    rw [exec_openCheckpoint_some hV (hport ▸ hS) (hport ▸ hcp), hport, ← ht]
    refine (hfiles _ rfl rfl (some cp) _).trans ?_
    rw [rejects_iff rfl]
    constructor
    · rintro ⟨hsizes, hlen, hspare⟩
      refine ⟨hsizes, hlen, ?_⟩
      rintro _ ⟨⟩ hrej
      exact hspare cp rfl hrej
    · rintro ⟨hsizes, hlen, hspare⟩
      refine ⟨hsizes, hlen, ?_⟩
      rintro _ ⟨⟩ hrej
      exact hspare cp rfl hrej

end Opening

end Journal

namespace ZjRun

open Journal

variable {π : Type} {P : ZjPort π} {V : P.View} {S : π → Prop} {r : ZjRun π}

/-- The files that a run leaves have names of segments. -/
lemma Reach.listed (h : Reach V False r) :
    Listed (V.limit r.world.nv.port) r.world.disk r.world.disk.entries := by
  obtain ⟨recs, hs, -⟩ := h.good
  intro e he
  have hf := lookup_of_mem_entries he
  obtain ⟨hpos, hmax, hlt⟩ := hs.counted.below e.1 (hs.files e.1 e.2 hf)
  exact ⟨hf, hpos.ne', hmax, hlt⟩

/-- Whatever a run left behind, and whatever the checkpoint is now, a store that is opened with the
limit in storage opens if nothing goes wrong meanwhile, unless files are too long or too many, or
there is none to spare for a checkpoint that has to be preserved. -/
theorem zjStoreOpen_ok_iff_room (hr : Reach V False r) (hV : Willing V S) {t : π} (hS : S t)
    (hlimit : V.limit t = V.limit r.world.nv.port) {metadata : ZjMetadata}
    (hm : (zjMetadataEncode metadata).isSome) :
    (Prog.exec (zjStoreOpen P metadata (V.limit t)) (portPart.set t r.world)).1 = .ok () ↔
      Room (V.limit t) r.world.disk (V.checkpoint t) :=
  exec_zjStoreOpen (w := portPart.set t r.world) hV hS (by rw [port_set, hlimit]; exact hr.listed) hm

lemma willing_plainView (crypto : ZjCrypto) :
    Willing (plainView crypto) fun s => 0 < s.limit ∧ s.limit ≤ zjSequenceMax + 1 where
  limit _ hS := hS
  load s hS := by simpa [plainPort, plainView] using hS
  admits _ s hS := by simpa [plainPort] using hS
  reserve n s _ hlt hle := by
    have : 0 < n := (Nat.zero_le _).trans_lt hlt
    simpa [plainPort] using ⟨this, hle⟩
  commit _ s hS := by simpa [plainPort] using hS

/-- A checkpoint of zeros. -/
def damagedCheckpoint : Block zjCheckpointBytes := Block.zero zjCheckpointBytes

lemma rejects_damagedCheckpoint (limit : Nat) (d : Disk Nat) : Rejects limit d damagedCheckpoint := by
  have hnone : cursorFrom limit damagedCheckpoint = none := by
    have : parseCheckpoint damagedCheckpoint = none := by decide +kernel
    rw [cursorFrom, this]
    rfl
  intro c hc
  rw [hnone] at hc
  cases hc

/-- What the port may find after a run. -/
def damagedStorage : PlainStorage := ⟨some damagedCheckpoint, 257⟩

lemma damagedStorage_limit : 0 < damagedStorage.limit ∧ damagedStorage.limit ≤ zjSequenceMax + 1 := by
  decide

theorem zjStoreOpen_ok_iff_room_damaged :
    Room 257 sampleRun.world.disk (some damagedCheckpoint) ∧
    (Prog.exec (zjStoreOpen (plainPort logCrypto) sampleMetadata 257)
      (portPart.set damagedStorage sampleRun.world)).1 = .ok () := by
  have hroom : Room 257 sampleRun.world.disk (some damagedCheckpoint) := by
    have hsizes : ∀ e ∈ sampleRun.world.disk.entries, e.2.size < 2 ^ 32 := by decide +kernel
    exact ⟨fun id f hf => hsizes ⟨id, f⟩ (AList.mem_lookup_iff.1 hf), by decide +kernel,
      fun _ _ _ => .inr (by decide +kernel)⟩
  exact ⟨hroom, (zjStoreOpen_ok_iff_room reach_sampleRun (willing_plainView logCrypto)
    damagedStorage_limit (by decide +kernel) (by decide +kernel)).2 hroom⟩

/-! ### A journal that is full -/

/-- The store is open, `n` appends created a file and got no further, and no number is taken back. -/
structure Filled (n : Nat) (w : ZjWorld PlainStorage) : Prop where
  ready : w.ram.ready = true
  writer : w.ram.writerId = 0
  metadata : ∃ id, w.ram.writerMetadata = some { sampleMetadata with segmentId := id }
  segments : w.ram.segments.length = n
  sequence : w.ram.sequence = ⟨n + 1, 257, true⟩
  limit : w.nv.port.limit = 257
  entries : w.disk.entries = (List.range' 1 n).reverse.map fun id => ⟨id, File.fresh⟩

/-- An append that creates a file and cannot open it. -/
lemma Filled.step {n : Nat} {w : ZjWorld PlainStorage} (h : Filled n w) (hn : n < 256) :
    ∃ w', Prog.run ((ZjCall.append sampleObservation).prog (plainPort plainCrypto)).run w
      [.ok, .ok, .fail 0] = .done (.error .io) w' [] ∧ Filled (n + 1) w' := by
  obtain ⟨id, hid⟩ := h.metadata
  have hvalid : zjObservationValid { sampleObservation with sequence := 1 } = true := by decide +kernel
  have hcap : ¬n = zjSegmentsMax := by
    rw [zjSegmentsMax]
    omega
  have hmax : ¬zjSequenceMax < n + 1 := by
    rw [zjSequenceMax]
    omega
  obtain ⟨header, hheader⟩ : ∃ header,
      zjMetadataEncode { sampleMetadata with segmentId := n + 1 } = some header := by
    have hrest : sampleMetadata.captureEpoch.present ∧ identifier sampleMetadata.terminalSerial 81 ∧
      identifier sampleMetadata.decoderProfile 65 ∧ identifier sampleMetadata.decoderVersion 33 := by
      decide +kernel
    exact ⟨_, if_pos ⟨Nat.succ_ne_zero n, not_lt.1 hmax, hrest⟩⟩
  have hlast : ¬n = 256 := hn.ne
  have hfree : n + 1 ∉ w.disk := by
    rw [AList.mem_keys, AList.keys, h.entries]
    simp [List.keys]
    omega
  have hcreate : ∀ w' : ZjWorld PlainStorage, w'.disk = w.disk → ∀ fs,
      (create (n + 1)).run w' (.ok :: fs) =
        .done true (w'.onDisk fun d => d.insert (n + 1) File.fresh) fs := by
    intro w' hdisk fs
    rw [create, Prog.run_bind, Prog.run_gets, hdisk, AList.lookup_eq_none.2 hfree]
    rfl
  have hadmits : ∀ k s fs, ((plainPort plainCrypto).admits k).run s (.ok :: fs) =
    .done .granted s fs := fun _ _ _ => rfl
  refine ⟨⟨w.disk.insert (n + 1) File.fresh, { w.nv with handed := (n + 1) :: w.nv.handed },
    { w.ram with
      writerId := 0, writerMetadata := some { sampleMetadata with segmentId := n + 1 }
      writerHeader := header, sequence := ⟨n + 2, 257, true⟩
      segments := w.ram.segments ++ [⟨n + 1, 0, false, false⟩], lastOperation := "segment_fdopen" }⟩, ?_, ?_⟩
  · change Prog.erun (zjStoreAppend (plainPort plainCrypto) sampleObservation) w [.ok, .ok, .fail 0] = _
    simp only [zjStoreAppend, ensureWriter, createSegment, createFile, zjSequenceNext, handOut, setSequence, setStore, getStore, perform, look, onPort, Journal.failure, note]
    simp [h.ready, hvalid, Journal.writer, h.writer, h.segments, hcap, Prog.run_zoom, hadmits, h.sequence, hmax, hlast, hid, hheader, hcreate, portPart, World.onRam, World.onNv, World.onDisk, pushSegment]
  · refine ⟨h.ready, rfl, ⟨n + 1, rfl⟩, ?_, rfl, h.limit, ?_⟩
    · simp [h.segments]
    · rw [AList.entries_insert_of_notMem hfree, h.entries]
      simp [List.range'_concat, Nat.add_comm]

/-- The store is opened on a blank device. -/
def opened : ZjRun PlainStorage :=
  evalCall (plainView plainCrypto) ⟨blankWorld, [], []⟩ (.openStore sampleMetadata)

/-- The first of these appends has to reserve numbers. -/
def firstAppend : Outcome (ZjWorld PlainStorage) (Except ZjError Nat) :=
  Prog.run ((ZjCall.append sampleObservation).prog (plainPort plainCrypto)).run opened.world
    [.ok, .ok, .ok, .fail 0]

lemma filled_firstAppend : Filled 1 firstAppend.state := by
  constructor
  case metadata => exact ⟨1, by decide +kernel⟩
  all_goals decide +kernel

lemma exists_filled {n : Nat} (hpos : 1 ≤ n) (hn : n ≤ 256) :
    ∃ r, Reach (plainView plainCrypto) False r ∧ Filled n r.world := by
  induction n, hpos using Nat.le_induction with
  | base =>
    have hblank : Blank (plainView plainCrypto) blankWorld := ⟨fun _ => rfl, rfl, rfl, rfl, rfl⟩
    obtain ⟨w, hw, hsteps⟩ : Reach (plainView plainCrypto) False opened :=
      Reach.evalCall ⟨_, hblank, .refl⟩ (.openStore sampleMetadata)
    have hfilled := filled_firstAppend
    have hdone : firstAppend.halted = false := by decide +kernel
    cases hrun : firstAppend with
    | halt w' => simp [hrun, Outcome.halted] at hdone
    | done x w' rest =>
      rw [hrun] at hfilled
      exact ⟨_, ⟨w, hw, hsteps.tail (.call (.append sampleObservation) hrun)⟩, hfilled⟩
  | succ n _ ih =>
    obtain ⟨r, ⟨w, hw, hsteps⟩, hr⟩ := ih (by omega)
    obtain ⟨w', hrun, hw'⟩ := hr.step hn
    exact ⟨_, ⟨w, hw, hsteps.tail (.call _ hrun)⟩, hw'⟩

/-- With as many files as a store can have, a checkpoint that was damaged cannot be preserved. -/
theorem zjStoreOpen_fails_full :
    ∃ r, Reach (plainView plainCrypto) False r ∧ r.world.nv.port.limit = 257 ∧
      (Prog.exec (zjStoreOpen (plainPort plainCrypto) sampleMetadata 257)
        (portPart.set damagedStorage r.world)).1 ≠ .ok () := by
  obtain ⟨r, hr, hfilled⟩ := exists_filled (by decide : 1 ≤ 256) le_rfl
  refine ⟨r, hr, hfilled.limit, fun hok => ?_⟩
  have hlisted := hr.listed
  rw [show (plainView plainCrypto).limit r.world.nv.port = 257 from hfilled.limit] at hlisted
  have hroom : Room 257 r.world.disk (some damagedCheckpoint) :=
    (exec_zjStoreOpen (w := portPart.set damagedStorage r.world)
      (willing_plainView plainCrypto) damagedStorage_limit hlisted (by decide +kernel)).1 hok
  have hlen : r.world.disk.keys.length = 256 := by
    simp [AList.keys, List.keys, hfilled.entries]
  rcases hroom.spare _ rfl (rejects_damagedCheckpoint _ _) with ⟨id, f, hf, hbytes⟩ | ⟨hlt, -⟩
  · have hmem := AList.mem_lookup_iff.1 hf
    rw [hfilled.entries] at hmem
    obtain ⟨_, -, heq⟩ := List.mem_map.1 hmem
    cases heq
    exact absurd (congrArg List.length hbytes) (by simp [checkpointEvidenceBytes, zjCheckpointBytes])
  · rw [hlen] at hlt
    exact lt_irrefl _ hlt

end ZjRun

end ZoneLite
