import AutoAttn.Journal.CodecProperties
import AutoAttn.Journal.Store

/-!
# What the parts of the store do

One rule for each primitive and each helper of the store, under every fate of the operations
(`wp_*`) and in the run in which nothing goes wrong (`exec_*`).
-/

namespace ZoneLite

open Bytes Crash

/-- What a port promises. The checkpoint and the limit in its storage change only through `commit`
and `reserve`; a call that failed, or in which power was lost, may have reached storage. While the
port `serves`, a commit that meets no fault succeeds. -/
structure ZjPort.View {π : Type} (P : ZjPort π) where
  checkpoint : π → Option (Block zjCheckpointBytes)
  limit : π → Nat
  serves : π → Prop
  boot_spec : ∀ s, P.boot.wp
    (fun r s' => (checkpoint s' = checkpoint s ∧ limit s' = limit s) ∧ ∀ n, r = some n → n = limit s)
    (fun s' => checkpoint s' = checkpoint s ∧ limit s' = limit s) s
  load_spec : ∀ s, P.load.wp
    (fun r s' => (checkpoint s' = checkpoint s ∧ limit s' = limit s) ∧
      ∀ c, r = some c → c = checkpoint s)
    (fun s' => checkpoint s' = checkpoint s ∧ limit s' = limit s) s
  commit_spec : ∀ cp s, (P.commit cp).wp
    (fun r s' => limit s' = limit s ∧
      (checkpoint s' = some cp ∨ r = false ∧ checkpoint s' = checkpoint s))
    (fun s' => limit s' = limit s ∧ (checkpoint s' = some cp ∨ checkpoint s' = checkpoint s)) s
  reserve_spec : ∀ n s, (P.reserve n).wp
    (fun r s' => checkpoint s' = checkpoint s ∧ (limit s' = n ∨ r = false ∧ limit s' = limit s))
    (fun s' => checkpoint s' = checkpoint s ∧ (limit s' = n ∨ limit s' = limit s)) s
  admits_spec : ∀ n s, (P.admits n).wp
    (fun _ s' => checkpoint s' = checkpoint s ∧ limit s' = limit s)
    (fun s' => checkpoint s' = checkpoint s ∧ limit s' = limit s) s
  commit_serves : ∀ cp s, serves s → ((P.commit cp).eval s).1 = true ∧
    serves ((P.commit cp).eval s).2
  forget_spec : ∀ s, checkpoint (P.forget s) = checkpoint s ∧ limit (P.forget s) = limit s

/-- A cipher that hides nothing and opens everything. -/
def plainCrypto : ZjCrypto where
  sealBytes _ _ _ plain := some (plain, Block.zero 16)
  openBytes _ _ _ _ cipher _ := some cipher
  digest _ := some (Block.zero 32)
  length_sealBytes h := by cases h; rfl
  length_openBytes h := by cases h; rfl

/-- The simplest port: two values in storage, and calls that fail at any time. -/
structure PlainStorage where
  checkpoint : Option (Block zjCheckpointBytes)
  limit : Nat

def plainPort (crypto : ZjCrypto) : ZjPort PlainStorage where
  boot := do
    if ← Prog.look then return some (← Prog.gets PlainStorage.limit) else return none
  load := do
    if ← Prog.look then return some (← Prog.gets PlainStorage.checkpoint) else return none
  commit cp := Prog.atomic fun s => { s with checkpoint := some cp }
  reserve n := Prog.atomic fun s => { s with limit := n }
  admits _ := do
    if ← Prog.look then return .granted
    else if ← Prog.look then return .full
    else return .io
  forget := id
  crypto := crypto

def plainView (crypto : ZjCrypto) : (plainPort crypto).View where
  checkpoint := PlainStorage.checkpoint
  limit := PlainStorage.limit
  serves _ := True
  boot_spec s := by simp [plainPort]
  load_spec s := by simp [plainPort]
  commit_spec cp s := by simp [plainPort]
  reserve_spec n s := by simp [plainPort]
  admits_spec n s := by simp [plainPort]
  commit_serves cp s _ := ⟨rfl, trivial⟩
  forget_spec s := ⟨rfl, rfl⟩

namespace Journal

variable {π α : Type} {P : ZjPort π} {w w' : ZjWorld π}

/-! ### Primitives -/

section Primitives

variable {Q : α → ZjWorld π → Prop} {E : ZjError → ZjWorld π → Prop} {C : ZjWorld π → Prop}

@[simp] lemma wp_perform (p : Prog (ZjWorld π) α) :
    Prog.ewp Q E C (perform p) w ↔ p.wp Q C w := Prog.ewp_lift p w

@[simp] lemma wp_onPort (p : Prog π α) :
    Prog.ewp Q E C (onPort p) w ↔
      p.wp (fun a t => Q a (portPart.set t w)) (fun t => C (portPart.set t w)) w.nv.port := by
  rw [onPort, wp_perform]
  exact Prog.wp_zoom portPart p w

@[simp] lemma wp_getStore {Q : ZjStore → ZjWorld π → Prop} :
    Prog.ewp Q E C getStore w ↔ Q w.ram w := by
  simp [getStore]

@[simp] lemma wp_setStore {Q : Unit → ZjWorld π → Prop} (f : ZjStore → ZjStore) :
    Prog.ewp Q E C (setStore f) w ↔ Q () (w.onRam f) := by
  simp [setStore]

@[simp] lemma wp_look {Q : Bool → ZjWorld π → Prop} :
    Prog.ewp Q E C look w ↔ Q true w ∧ Q false w ∧ C w := by
  simp [look]

@[simp] lemma exec_perform (p : Prog (ZjWorld π) α) :
    Prog.exec (perform p) w = (.ok (p.eval w).1, (p.eval w).2) := Prog.exec_lift p w

@[simp] lemma exec_getStore : Prog.exec (getStore : ZjM π _) w = (.ok w.ram, w) := by
  simp [getStore]

@[simp] lemma exec_setStore (f : ZjStore → ZjStore) :
    Prog.exec (setStore f : ZjM π _) w = (.ok (), w.onRam f) := by
  simp [setStore]

@[simp] lemma exec_look : Prog.exec (look : ZjM π _) w = (.ok true, w) := by
  simp [look]

@[simp] lemma exec_onPort (p : Prog π α) :
    Prog.exec (onPort p) w =
      (.ok (p.eval w.nv.port).1, portPart.set (p.eval w.nv.port).2 w) := by
  rw [onPort, exec_perform, Prog.eval_zoom]
  rfl

end Primitives

/-- The world with another `last_operation`. -/
def noted (operation : String) (w : ZjWorld π) : ZjWorld π :=
  w.onRam fun s => { s with lastOperation := operation }

/-- Nothing but `last_operation` is different. -/
def Noted (w w' : ZjWorld π) : Prop := ∃ operation, w' = noted operation w

lemma Noted.refl (w : ZjWorld π) : Noted w w := ⟨w.ram.lastOperation, rfl⟩

@[simp] lemma Noted.of_noted (operation : String) (w : ZjWorld π) : Noted w (noted operation w) :=
  ⟨operation, rfl⟩

@[simp] lemma wp_note {Q : Unit → ZjWorld π → Prop} {E : ZjError → ZjWorld π → Prop}
    {C : ZjWorld π → Prop} (operation : String) :
    Prog.ewp Q E C (note operation) w ↔ Q () (noted operation w) := by
  rw [note, wp_setStore]
  rfl

@[simp] lemma wp_failure {Q : α → ZjWorld π → Prop} {E : ZjError → ZjWorld π → Prop}
    {C : ZjWorld π → Prop} (operation : String) (result : ZjError) :
    Prog.ewp Q E C (failure operation result) w ↔ E result (noted operation w) := by
  simp [failure]

/-! ### Reading -/

lemma wp_readBytes (id off length : Nat) :
    Prog.ewp
      (fun b w' => w' = w ∧ ∃ f, w.disk.lookup id = some f ∧ b = slice f.bytes off length ∧
        b.length = length)
      (fun e w' => e = .io ∧ Noted w w') (Noted w) (readBytes id off length) w := by
  simp only [readBytes, Prog.ewp_bind, wp_perform, wp_probe]
  refine ⟨?_, by simp, Noted.refl w⟩
  cases hf : w.disk.lookup id with
  | none => simp
  | some f => simp [Noted.refl]

lemma exec_readBytes {id off length : Nat} {f : File} (hf : w.disk.lookup id = some f)
    (h : off + length ≤ f.bytes.length) :
    Prog.exec (readBytes id off length) w = (.ok (slice f.bytes off length), w) := by
  have hl : (slice f.bytes off length).length = length := by
    rw [length_slice]
    omega
  simp [readBytes, hf, hl]

/-- What `read_header` makes of the bytes of a file. -/
def headerOf (id : Nat) (bytes : List UInt8) : Option (List UInt8 × ZjMetadata) :=
  (zjMetadataDecode (slice bytes 0 zjMetaBytes)).bind fun m =>
    if m.segmentId = id then some (slice bytes 0 zjMetaBytes, m) else none

lemma wp_readHeader (g : ZjSegment) :
    Prog.ewp
      (fun h w' => w' = w ∧ ((g.size < zjMetaBytes ∧ h = none) ∨ (zjMetaBytes ≤ g.size ∧
        ∃ f, w.disk.lookup g.id = some f ∧ h = headerOf g.id f.bytes)))
      (fun e w' => e = .io ∧ Noted w w') (Noted w) (readHeader g) w := by
  by_cases hs : g.size < zjMetaBytes
  · simp [readHeader, hs]
  simp only [readHeader, hs, if_false, Prog.ewp_bind, wp_perform, wp_probe]
  refine ⟨?_, by simp, Noted.refl w⟩
  cases hf : w.disk.lookup g.id with
  | none => simp
  | some f =>
    have hle : zjMetaBytes ≤ g.size := not_lt.1 hs
    cases hm : zjMetadataDecode (slice f.bytes 0 zjMetaBytes) with
    | none => simp [headerOf, hm, Noted.refl, hle]
    | some m => simp [headerOf, hm, Noted.refl, hle]

lemma exec_readHeader {g : ZjSegment} {f : File} (hf : w.disk.lookup g.id = some f)
    (hs : g.size = f.size) :
    Prog.exec (readHeader g) w =
      (.ok (if g.size < zjMetaBytes then none else headerOf g.id f.bytes), w) := by
  by_cases hlt : g.size < zjMetaBytes
  · simp [readHeader, hlt]
  have hl : (slice f.bytes 0 zjMetaBytes).length = zjMetaBytes := by
    rw [length_slice]
    simp only [File.size] at hs
    omega
  cases hm : zjMetadataDecode (slice f.bytes 0 zjMetaBytes) with
  | none => simp [readHeader, headerOf, hlt, hf, hl, hm]
  | some m => simp [readHeader, headerOf, hlt, hf, hl, hm]

/-! ### Writing -/

/-- One file was changed. -/
structure Wrote (w w' : ZjWorld π) (id : Nat) (f : File) : Prop where
  lookup : ∀ k, w'.disk.lookup k = if k = id then some f else w.disk.lookup k
  nv : w'.nv = w.nv
  ram : ∃ operation, w'.ram = { w.ram with lastOperation := operation }

/-- Some of `bytes` got to the end of `f`, and what was stable still is. -/
def Grown (bytes : List UInt8) (f f' : File) : Prop :=
  (∃ t, t <+: bytes ∧ f'.bytes = f.bytes ++ t) ∧ f.stable ≤ f'.stable

lemma Grown.refl (bytes : List UInt8) (f : File) : Grown bytes f f :=
  ⟨⟨[], List.nil_prefix, by simp⟩, le_rfl⟩

lemma Wrote.refl {id : Nat} {f : File} (hf : w.disk.lookup id = some f) : Wrote w w id f := by
  refine ⟨fun k => ?_, rfl, _, rfl⟩
  split_ifs with h
  · rw [h, hf]
  · rfl

lemma Wrote.noted {id : Nat} {f : File} (h : Wrote w w' id f) (operation : String) :
    Wrote w (noted operation w') id f := by
  obtain ⟨op, hop⟩ := h.ram
  refine ⟨h.lookup, h.nv, operation, ?_⟩
  change { w'.ram with lastOperation := operation } = _
  rw [hop]

lemma Grown.write (f : File) {bytes t : List UInt8} (ht : t <+: bytes) :
    Grown bytes f (f.write f.size t) ∧ (f.write f.size t).bytes = f.bytes ++ t := by
  have hb : (f.write f.size t).bytes = f.bytes ++ t := by
    rw [File.bytes_write t (show f.size ≤ f.bytes.length from le_rfl)]
    simp [File.size]
  refine ⟨⟨⟨t, ht, hb⟩, ?_⟩, hb⟩
  rw [File.stable_write]
  exact le_min le_rfl f.stable_le

lemma Wrote.land {id : Nat} {f : File} (hf : w.disk.lookup id = some f) (bytes : List UInt8)
    (n : Nat) : ∃ f', Wrote w (Crash.land id f.size bytes n w) id f' ∧ Grown bytes f f' ∧
      (bytes.length ≤ n → f'.bytes = f.bytes ++ bytes) := by
  by_cases hn : n = 0
  · refine ⟨f, ?_, Grown.refl bytes f, fun hle => ?_⟩
    · simpa [Crash.land, hn, World.onDisk] using Wrote.refl hf
    · rw [List.length_eq_zero_iff.1 (by omega : bytes.length = 0), List.append_nil]
  · have hgrown := Grown.write f (List.take_prefix n bytes)
    refine ⟨f.write f.size (bytes.take n), ⟨fun k => ?_, rfl, _, rfl⟩, hgrown.1, fun hle => ?_⟩
    · simp only [Crash.land, hn, if_false, World.disk_onDisk]
      split_ifs with hk
      · rw [hk, Disk.lookup_update_self, hf]
        rfl
      · exact Disk.lookup_update_ne hk _ _
    · rw [hgrown.2, List.take_of_length_le hle]

lemma Wrote.sync {id : Nat} {f : File} (h : Wrote w w' id f) :
    Wrote w (w'.onDisk fun d => d.update id File.sync) id f.sync := by
  refine ⟨fun k => ?_, h.nv, h.ram⟩
  simp only [World.disk_onDisk]
  split_ifs with hk
  · rw [hk, Disk.lookup_update_self, h.lookup, if_pos rfl]
    rfl
  · rw [Disk.lookup_update_ne hk, h.lookup, if_neg hk]

lemma Grown.sync {bytes : List UInt8} {f f' : File} (h : Grown bytes f f') :
    Grown bytes f f'.sync := by
  refine ⟨h.1, h.2.trans ?_⟩
  rw [File.stable_sync]
  exact f'.stable_le

/-- A commit at the end of a file: success means that all of it is on storage. -/
lemma wp_commitData {id : Nat} {f : File} (hf : w.disk.lookup id = some f) (bytes : List UInt8)
    (header positioned : Bool) :
    Prog.ewp
      (fun ok w' => ∃ f', Wrote w w' id f' ∧ Grown bytes f f' ∧
        (ok = true → f' = File.synced (f.bytes ++ bytes)))
      (fun _ _ => False) (fun w' => ∃ f', Wrote w w' id f' ∧ Grown bytes f f')
      (commitData id f.size bytes header positioned) w := by
  have hrefl := Wrote.refl hf
  have hsame := Grown.refl bytes f
  -- Whatever part of the bytes landed, reporting a failure does not change it.
  have hland : ∀ n, ∃ f', Wrote w (land id f.size bytes n w) id f' ∧ Grown bytes f f' :=
    fun n => (Wrote.land hf bytes n).imp fun f' h => ⟨h.1, h.2.1⟩
  have hfail : ∀ n op, ∃ f', Wrote w (noted op (land id f.size bytes n w)) id f' ∧
      Grown bytes f f' :=
    fun n op => (hland n).imp fun f' h => ⟨h.1.noted op, h.2⟩
  obtain ⟨f', hw', hg', hb'⟩ := Wrote.land hf bytes bytes.length
  have hsync : f'.sync = File.synced (f.bytes ++ bytes) := by rw [File.sync, hb' le_rfl]
  simp only [commitData, Prog.ewp_ite, Prog.ewp_bind, Prog.ewp_pure, wp_perform, wp_note, fwrite,
    fflush, fsync, Prog.wp_op, Prog.wp_atomic, Bool.not_eq_true', Bool.not_eq_false, id_eq,
    reduceCtorEq, false_imp_iff, true_imp_iff, and_true, true_and]
  refine ⟨fun _ => ⟨f, hrefl, hsame⟩, fun _ => ⟨⟨?_, fun n => hfail n _, hland⟩,
    fun n => hfail n _, hland⟩⟩
  exact ⟨⟨f'.sync, hw'.sync, hg'.sync, hsync⟩, ⟨⟨f', hw'.noted _, hg'⟩, f'.sync, hw'.sync.noted _,
    hg'.sync⟩, ⟨f', hw', hg'⟩, f'.sync, hw'.sync, hg'.sync⟩

lemma wp_commitFile {id : Nat} {f : File} (hf : w.disk.lookup id = some f) (bytes : List UInt8)
    (header positioned : Bool) :
    Prog.ewp
      (fun ok w' => ∃ f', Wrote w w' id f' ∧ Grown bytes f f' ∧
        (ok = true → f' = File.synced (f.bytes ++ bytes)))
      (fun _ _ => False) (fun w' => ∃ f', Wrote w w' id f' ∧ Grown bytes f f')
      (commitFile id f.size bytes header positioned) w := by
  refine Prog.ewp_seq (wp_commitData hf bytes header positioned) ?_ (fun _ _ h => h) fun _ h => h
  rintro ok w' ⟨f', hw', hg', hok⟩
  simp only [Prog.ewp_bind, wp_look, Prog.ewp_ite, Prog.ewp_pure, wp_note]
  refine ⟨⟨by simp, fun _ => ⟨f', hw', hg', hok⟩⟩, ⟨fun _ => ⟨f', hw'.noted _, hg', by simp⟩,
    fun h => ⟨f', hw', hg', hok⟩⟩, f', hw', hg'⟩

/-! ### Sequence numbers -/

/-- What survives a loss of power: files, the history, and what the port keeps. -/
structure Stored where
  disk : Disk Nat
  log : List ZjSealed
  handed : List Nat
  checkpoint : Option (Block zjCheckpointBytes)
  limit : Nat

def stored (V : P.View) (w : ZjWorld π) : Stored :=
  ⟨w.disk, w.nv.log, w.nv.handed, V.checkpoint w.nv.port, V.limit w.nv.port⟩

/-- The history of the counter stays below its limit on storage. -/
structure Counted (d : Stored) : Prop where
  sorted : d.handed.Pairwise (· > ·)
  below : ∀ v ∈ d.handed, 0 < v ∧ v ≤ zjSequenceMax ∧ v < d.limit

/-- The counter in memory goes on where the history ends. -/
def Counting (d : Stored) (q : ZjSequence) : Prop :=
  q.ready = true → q.limit = d.limit ∧ q.next ≤ q.limit ∧ ∀ v ∈ d.handed, v < q.next

/-- The numbers `given` were drawn, and maybe more were reserved. -/
structure Drawn (V : P.View) (w w' : ZjWorld π) (given : List Nat) : Prop where
  stored : ∃ limit, (stored V w).limit ≤ limit ∧
    Journal.stored V w' = { stored V w with handed := given ++ w.nv.handed, limit := limit }
  ram : ∃ q, w'.ram = { w.ram with sequence := q }

lemma lt_nextLimit {next : Nat} (h : next ≤ zjSequenceMax) : next < nextLimit next := by
  unfold nextLimit
  split_ifs <;> omega

lemma Counted.mono {d : Stored} (h : Counted d) {limit : Nat} (hle : d.limit ≤ limit) :
    Counted { d with limit := limit } := by
  refine ⟨h.sorted, fun v hv => ?_⟩
  obtain ⟨h1, h2, h3⟩ := h.below v hv
  exact ⟨h1, h2, h3.trans_le hle⟩

/-- Reserving first makes no difference to what was drawn. -/
lemma Drawn.after {V : P.View} {w₁ w₂ w₃ : ZjWorld π} {given : List Nat}
    (h' : Drawn V w₂ w₃ given) (h : Drawn V w₁ w₂ []) : Drawn V w₁ w₃ given := by
  obtain ⟨⟨l, hl, hst⟩, q, hq⟩ := h
  obtain ⟨⟨l', hl', hst'⟩, q', hq'⟩ := h'
  have hhanded : w₂.nv.handed = w₁.nv.handed := congrArg Stored.handed hst
  rw [hst] at hl' hst'
  exact ⟨⟨l', hl.trans hl', by rw [hst', hhanded]⟩, q', by rw [hq', hq]⟩

lemma wp_handOut (V : P.View) (hw : Counted (stored V w))
    (hc : Counting (stored V w) w.ram.sequence) (hready : w.ram.sequence.ready = true)
    (hpos : w.ram.sequence.next ≠ 0) (hmax : w.ram.sequence.next ≤ zjSequenceMax)
    (hlt : w.ram.sequence.next < w.ram.sequence.limit) (C : ZjWorld π → Prop) :
    Prog.ewp
      (fun v w' => Counted (stored V w') ∧ Counting (stored V w') w'.ram.sequence ∧
        Drawn V w w' [v] ∧ ∀ x ∈ w.nv.handed, x < v)
      (fun _ _ => False) C handOut w := by
  obtain ⟨hlimit, hle, hhanded⟩ := hc hready
  simp only [handOut, setSequence, Prog.ewp_bind, wp_getStore, wp_setStore, wp_perform,
    Prog.wp_modify, Prog.ewp_pure]
  refine ⟨⟨?_, ?_⟩, fun _ => ⟨hlimit, hlt, ?_⟩, ⟨⟨_, le_rfl, rfl⟩, _, rfl⟩, hhanded⟩
  · exact List.pairwise_cons.2 ⟨hhanded, hw.sorted⟩
  · rintro v (_ | ⟨_, hv⟩)
    · exact ⟨Nat.pos_of_ne_zero hpos, hmax, hlimit ▸ hlt⟩
    · exact hw.below v hv
  · rintro v (_ | ⟨_, hv⟩)
    · exact Nat.lt_succ_self _
    · exact (hhanded v hv).trans (Nat.lt_succ_self _)

lemma wp_zjSequenceNext (V : P.View) (hw : Counted (stored V w))
    (hc : Counting (stored V w) w.ram.sequence) :
    Prog.ewp
      (fun r w' => Counted (stored V w') ∧ Counting (stored V w') w'.ram.sequence ∧
        Drawn V w w' r.toList ∧ ∀ v, r = some v → ∀ x ∈ w.nv.handed, x < v)
      (fun _ _ => False) (fun w' => Drawn V w w' []) (zjSequenceNext P) w := by
  have hsame : Drawn V w w [] := ⟨⟨_, le_rfl, rfl⟩, _, rfl⟩
  simp only [zjSequenceNext, setSequence, Prog.ewp_bind, wp_getStore, Prog.ewp_ite, Prog.ewp_pure,
    wp_onPort, wp_setStore]
  refine ⟨fun _ => ⟨hw, hc, hsame, by simp⟩, fun hbad => ?_⟩
  simp only [Bool.or_eq_true, Bool.not_eq_true', decide_eq_true_eq, not_or, Bool.not_eq_false,
    not_lt] at hbad
  obtain ⟨⟨hready, hpos⟩, hmax⟩ := hbad
  obtain ⟨hlimit, hle, hlt⟩ := hc hready
  refine ⟨fun heq => ?_, fun hne => ?_⟩
  · -- The block is used up: `reserve` comes first.
    have hnext := lt_nextLimit hmax
    have hold : (stored V w).limit = V.limit w.nv.port := rfl
    have hst : ∀ t, V.checkpoint t = V.checkpoint w.nv.port →
        stored V (portPart.set t w) = { stored V w with limit := V.limit t } := by
      intro t hcp
      change Stored.mk _ _ _ (V.checkpoint t) _ = _
      rw [hcp]
      rfl
    refine Prog.wp_mono (V.reserve_spec _ w.nv.port) ?_ ?_
    · rintro r t ⟨hcp, ht⟩
      have hlim : (stored V w).limit ≤ V.limit t := by
        rcases ht with ht | ⟨-, ht⟩ <;> omega
      have hcount := hw.mono hlim
      rw [← hst t hcp] at hcount
      refine ⟨fun _ => ⟨hcount, fun h => absurd h (by simp), ⟨⟨_, hlim, hst t hcp⟩, _, rfl⟩,
        by simp⟩, fun hr => ?_⟩
      have ht : V.limit t = nextLimit w.ram.sequence.next := by
        rcases ht with ht | ⟨rfl, -⟩
        · exact ht
        · simp at hr
      refine Prog.ewp_mono (wp_handOut V ?_ ?_ ?_ ?_ ?_ ?_ _) ?_ (fun _ _ h => h) fun _ h => h
      · exact hcount
      · exact fun _ => ⟨ht.symm, hnext.le, hlt⟩
      · exact hready
      · exact hpos
      · exact hmax
      · exact hnext
      rintro v w' ⟨h1, h2, h3, h4⟩
      refine ⟨h1, h2, h3.after ⟨⟨_, hlim, hst t hcp⟩, _, rfl⟩, ?_⟩
      rintro _ ⟨⟩
      exact h4
    · rintro t ⟨hcp, ht⟩
      have hlim : (stored V w).limit ≤ V.limit t := by
        rcases ht with ht | ht <;> omega
      exact ⟨⟨_, hlim, hst t hcp⟩, _, rfl⟩
  · refine Prog.ewp_mono (wp_handOut V hw hc hready hpos hmax (by omega) _) ?_ (fun _ _ h => h)
      fun _ h => h
    rintro v w' ⟨h1, h2, h3, h4⟩
    refine ⟨h1, h2, h3, ?_⟩
    rintro _ ⟨⟩
    exact h4

/-! ### Names -/

lemma digitValue_hexDigit : ∀ d < 16, digitValue (hexDigit d) = some d := by
  decide

@[simp] lemma length_hexDigits (n v : Nat) : (hexDigits n v).length = n := by
  induction n generalizing v with
  | zero => rfl
  | succ n ih => simp [hexDigits, ih]

lemma hexValue_hexDigits (n v : Nat) : hexValue (hexDigits n v) = some (v % 16 ^ n) := by
  induction n generalizing v with
  | zero => simp [hexDigits, hexValue, Nat.mod_one]
  | succ n ih =>
    have hstep : v % 16 ^ (n + 1) = v / 16 % 16 ^ n * 16 + v % 16 := by
      rw [pow_succ' 16 n, Nat.mod_mul]
      ring
    simp only [hexValue] at ih
    simp [hexDigits, hexValue, List.foldlM_append, ih,
      digitValue_hexDigit _ (Nat.mod_lt v (by decide : 0 < 16)), hstep]

/-- The name of a segment gives its id back. -/
lemma fileId_filename {id : Nat} (h0 : id ≠ 0) (h : id ≤ zjSequenceMax) :
    fileId (filename id) = some id := by
  have hlt : id < 16 ^ 16 := by
    have : zjSequenceMax < 16 ^ 16 := by decide
    omega
  have htake : (filename id).take 16 = hexDigits 16 id := by
    simp [filename]
  have hname : ¬((filename id).length ≠ 18 ∨ (filename id).drop 16 ≠ ['.', 'j']) := by
    simp [filename]
  rw [fileId, if_neg hname, htake, hexValue_hexDigits, Nat.mod_eq_of_lt hlt]
  simp [Option.filter, h0, h]

/-! ### Checkpoints -/

lemma length_checkpointBody (c : ZjCheckpoint) (receipt : Block 32) :
    (checkpointBody c receipt).length = 76 := by
  simp [checkpointBody, ascii]

/-- A checkpoint whose fields fit is read back. -/
lemma parseCheckpoint_checkpointBytes {c : ZjCheckpoint} (receipt : Block 32)
    (hrev : c.revision ≠ 0) (hrev' : c.revision ≤ uint64Max) (hseg : c.segment ≤ zjSequenceMax)
    (hoff : c.offset < 2 ^ 32) (hseq : c.sequence ≤ zjSequenceMax) :
    parseCheckpoint (checkpointBytes c receipt) = some c := by
  have hbig : zjSequenceMax < 256 ^ 8 := by decide
  have hbig' : uint64Max < 256 ^ 8 := by decide
  have s0 : slice (checkpointBytes c receipt).val 0 8 = ascii "ZJCP0001" := by
    simp [checkpointBytes, checkpointBody, slice, ascii]
  have s1 : slice (checkpointBytes c receipt).val 8 8 = le 8 c.revision := by
    simp [checkpointBytes, checkpointBody, slice, ascii]
  have s2 : slice (checkpointBytes c receipt).val 16 8 = le 8 c.segment := by
    simp [checkpointBytes, checkpointBody, slice, ascii]
  have s3 : slice (checkpointBytes c receipt).val 24 4 = le 4 c.offset := by
    simp [checkpointBytes, checkpointBody, slice, ascii, List.drop_append, List.drop_eq_nil_of_le]
  have s4 : slice (checkpointBytes c receipt).val 28 4 = le 4 0 := by
    simp [checkpointBytes, checkpointBody, slice, ascii, List.drop_append, List.drop_eq_nil_of_le]
  have s5 : slice (checkpointBytes c receipt).val 32 8 = le 8 c.sequence := by
    simp [checkpointBytes, checkpointBody, slice, ascii, List.drop_append, List.drop_eq_nil_of_le]
  have s6 : slice (checkpointBytes c receipt).val 72 4 = le 4 0 := by
    simp [checkpointBytes, checkpointBody, slice, ascii, List.drop_append, List.drop_eq_nil_of_le]
  have s7 : slice (checkpointBytes c receipt).val 76 4 =
      le 4 (dqCrc32 (checkpointBody c receipt)).toNat := by
    rw [checkpointBytes, slice_append_right (by rw [length_checkpointBody]), length_checkpointBody]
    simp [slice, List.take_of_length_le]
  have s8 : slice (checkpointBytes c receipt).val 0 76 = checkpointBody c receipt := by
    rw [checkpointBytes, slice_append_left (by rw [length_checkpointBody])]
    simp [slice, length_checkpointBody, List.take_of_length_le]
  have hcrc : unle (le 4 (dqCrc32 (checkpointBody c receipt)).toNat) =
      (dqCrc32 (checkpointBody c receipt)).toNat := unle_le_of_lt (UInt32.toNat_lt _)
  have hzero : unle (le 4 0) = 0 := rfl
  simp only [parseCheckpoint, s0, s1, s2, s3, s4, s5, s6, s7, s8, hcrc, hzero,
    unle_le_of_lt (show c.revision < 256 ^ 8 by omega),
    unle_le_of_lt (show c.segment < 256 ^ 8 by omega),
    unle_le_of_lt (show c.offset < 256 ^ 4 from hoff),
    unle_le_of_lt (show c.sequence < 256 ^ 8 by omega)]
  apply if_neg
  simp [hrev, hseg, hseq]

/-- The fields of what was read are in range. -/
lemma bounds_of_parseCheckpoint {cp : Block zjCheckpointBytes} {c : ZjCheckpoint}
    (h : parseCheckpoint cp = some c) :
    c.revision ≤ uint64Max ∧ c.segment ≤ zjSequenceMax ∧ c.sequence ≤ zjSequenceMax := by
  have hrev : (slice cp.val 8 8).length ≤ 8 := by
    rw [length_slice]
    omega
  have hlt := (unle_lt (slice cp.val 8 8)).trans_le (Nat.pow_le_pow_right (by decide) hrev)
  simp only [parseCheckpoint] at h
  split_ifs at h with hbad
  cases h
  simp only [not_or, not_lt, ne_eq, not_not] at hbad
  refine ⟨?_, hbad.2.2.2.1, hbad.2.2.2.2.1⟩
  simp only [uint64Max]
  omega

end Journal

end ZoneLite
