import AutoAttn.LegacyQueue.Open

/-!
# What an operation can do to the stored state

Only three operations write: a settlement moves the cursor, the settlement of a damaged checkpoint sets it
back, and a reclaim clears it before it removes the file. Each writes one checkpoint, and whatever fails or
interrupts it, the checkpoint is the old one or the new one.
-/

namespace LegacyQueue

open Crash Crash.Prog
open ZoneLite (extend dqCrc32)
open Bytes (slice)

variable {w w' : World} {token : Token} {custody : Bool}

/-- The file and the checkpoint are the same. -/
def Same (w w' : World) : Prop := w'.file = w.file ∧ w'.stored = w.stored

lemma Same.refl (w : World) : Same w w := ⟨rfl, rfl⟩

/-- A queue in use has loaded the checkpoint that is stored. -/
structure Bound (w : World) : Prop where
  loaded : w.q.ready = true ∨ w.q.recovering = true →
    w.q.checkpoint = w.stored.getD {} ∧ ∀ cp ∈ w.stored, cp.Valid
  settled : w.q.ready = true ∨ w.q.checkpointCorrupt = true → w.q.recovering = false

/-- A queue that is not in use. -/
lemma bound_of_idle (hready : w.q.ready = false) (hrecovering : w.q.recovering = false) : Bound w := by
  refine ⟨?_, fun _ => hrecovering⟩
  rintro (h | h)
  · simp [hready] at h
  · simp [hrecovering] at h

@[simp] lemma wp_setQueue {Q : Unit → World → Prop} {C : World → Prop} {f : Queue → Queue} :
    (setQueue f).wp Q C w ↔ Q () { w with q := f w.q } := Iff.rfl

@[simp] lemma wp_fopen {Q : Option (List UInt8) → World → Prop} {C : World → Prop} :
    fopen.wp Q C w ↔ Q w.file w ∧ Q none w ∧ C w := by
  simp [fopen]

/-! ### Opening and reading -/

/-- The file and the checkpoint stay as they are. -/
def Opened (w : World) (_ : Result) (w' : World) : Prop := Same w w' ∧ Bound w'

lemma wp_lqSliceRead (h : Bound w) (hrecovering : w.q.recovering = true) (s : Scan) :
    (lqSliceRead w.q.checkpoint s).wp (Opened w) (Same w) w := by
  have hloaded := h.loaded (.inr hrecovering)
  simp only [lqSliceRead, lqRefuse, lqReady, wp_ite, wp_bind, wp_setQueue, wp_pure]
  refine ⟨fun _ => ?_, fun _ => ⟨fun _ => ?_, fun _ => ⟨fun _ => ?_, fun _ => ?_⟩⟩⟩
  · exact ⟨⟨rfl, rfl⟩, fun _ => hloaded, fun _ => rfl⟩
  · exact ⟨⟨rfl, rfl⟩, h.loaded, h.settled⟩
  · exact ⟨⟨rfl, rfl⟩, fun _ => hloaded, fun _ => rfl⟩
  · exact ⟨⟨rfl, rfl⟩, fun _ => hloaded, fun _ => rfl⟩

lemma wp_lqSlice (h : Bound w) (hrecovering : w.q.recovering = true) :
    lqSlice.wp (Opened w) (Same w) w := by
  simp only [lqSlice, wp_bind, wp_gets, wp_ite]
  refine ⟨fun hlt => ?_, fun _ => ⟨⟨rfl, rfl⟩, fun _ => h.loaded (.inr hrecovering), fun _ => rfl⟩⟩
  rw [wp_fopen]
  refine ⟨?_, ⟨Same.refl w, h⟩, Same.refl w⟩
  cases w.file with
  | none => exact ⟨Same.refl w, h⟩
  | some content =>
    rw [wp_bind]
    refine wp_readRange (fun failed => ?_) (fun _ _ => wp_lqSliceRead h hrecovering _) (Same.refl w) ?_
    · exact ⟨⟨rfl, rfl⟩, h.loaded, h.settled⟩
    · rw [recoverySliceBytes]
      omega

lemma wp_lqLoad : lqLoad.wp
    (fun r w' => Same w w' ∧ Bound w' ∧ (r = none → w'.q.recovering = true)) (Same w) w := by
  simp only [lqLoad, wp_bind, wp_setQueue, wp_look, if_true, wp_gets]
  refine ⟨?_, ⟨⟨rfl, rfl⟩, bound_of_idle rfl rfl, by simp⟩, rfl, rfl⟩
  simp only [lqLoaded, wp_bind, wp_setQueue, wp_ite, wp_pure]
  refine ⟨fun _ => ?_, fun hvalid => ?_⟩
  · exact ⟨⟨rfl, rfl⟩, bound_of_idle rfl rfl, by simp⟩
  · refine ⟨⟨rfl, rfl⟩, ⟨fun _ => ⟨rfl, by simpa using hvalid⟩, ?_⟩, fun _ => trivial⟩
    rintro (h | h) <;> cases h

lemma Same.trans {w'' : World} (h : Same w w') (h' : Same w' w'') : Same w w'' :=
  ⟨h'.1.trans h.1, h'.2.trans h.2⟩

lemma wp_lqOpenStep (h : Bound w) : lqOpenStep.wp (Opened w) (Same w) w := by
  simp only [lqOpenStep, wp_bind, wp_setQueue, wp_gets, wp_ite]
  refine ⟨fun hrecovering => ?_, fun _ => ?_⟩
  · exact wp_lqSlice (w := { w with q := { w.q with ioRead := false } }) ⟨h.loaded, h.settled⟩ hrecovering
  · refine wp_mono (wp_lqLoad (w := { w with q := { w.q with ioRead := false } })) ?_ fun _ hsame => hsame
    rintro (_ | r) w' ⟨hsame, hbound, hrecovering⟩
    · exact wp_mono (wp_lqSlice hbound (hrecovering rfl))
        (fun _ _ hopened => ⟨hsame.trans hopened.1, hopened.2⟩) fun _ hsame' => hsame.trans hsame'
    · exact ⟨hsame, hbound⟩

lemma wp_lqOpenLoop (h : Bound w) (rounds : Nat) : (lqOpenLoop rounds).wp (Opened w) (Same w) w := by
  induction rounds generalizing w with
  | zero => exact ⟨Same.refl w, h⟩
  | succ rounds ih =>
    rw [lqOpenLoop, wp_bind]
    refine wp_mono (wp_lqOpenStep h) ?_ fun _ hsame => hsame
    rintro r w' ⟨hsame, hbound⟩
    cases r
    case pending =>
      exact wp_mono (ih hbound) (fun _ _ hopened => ⟨hsame.trans hopened.1, hopened.2⟩)
        fun _ hsame' => hsame.trans hsame'
    all_goals exact ⟨hsame, hbound⟩

lemma wp_lqOpen (w : World) : lqOpen.wp (Opened w) (Same w) w := by
  rw [lqOpen, wp_bind, wp_setQueue]
  exact wp_lqOpenLoop (w := { w with q := {} }) (bound_of_idle rfl rfl) _

lemma wp_lqPeek (h : Bound w) (capacity : Nat) :
    (lqPeek capacity).wp (fun _ w' => Same w w' ∧ Bound w') (Same w) w := by
  obtain ⟨file, stored, q⟩ := w
  have hsame : ∀ failed, Same ⟨file, stored, q⟩ ⟨file, stored, { q with ioRead := failed }⟩ ∧
      Bound ⟨file, stored, { q with ioRead := failed }⟩ :=
    fun failed => ⟨⟨rfl, rfl⟩, h.loaded, h.settled⟩
  cases file with
  | none => simp [lqPeek, hsame]
  | some content => simp [lqPeek, hsame]

lemma wp_lqCheckpointEvidence (h : Bound w) (capacity : Nat) :
    (lqCheckpointEvidence capacity).wp (fun _ w' => Same w w' ∧ Bound w') (Same w) w := by
  simp [lqCheckpointEvidence, Same, h]

/-! ### Writing a checkpoint -/

/-- The checkpoint that `persist` commits. -/
def persisted (next : Checkpoint) : Checkpoint :=
  { next with
    version := if next.version = 0 then 1 else next.version
    generation := next.generation + 1 }.seal'

lemma persisted_version {next : Checkpoint} (h : next.version = 1 ∨ next.version = 2) :
    (persisted next).version = next.version := by
  rcases h with h | h <;> simp [persisted, Checkpoint.seal', h]

@[simp] lemma persisted_offset (next : Checkpoint) : (persisted next).offset = next.offset := rfl

@[simp] lemma persisted_prefixCrc (next : Checkpoint) : (persisted next).prefixCrc = next.prefixCrc := rfl

@[simp] lemma persisted_generation (next : Checkpoint) :
    (persisted next).generation = next.generation + 1 := rfl

lemma persisted_valid {next : Checkpoint} (hversion : next.version = 1 ∨ next.version = 2)
    (hmax : next.generation ≠ uint32Max) : (persisted next).Valid := by
  refine ⟨by rwa [persisted_version hversion], ?_, rfl⟩
  rw [persisted_generation]
  intro hzero
  have hlt := next.generation.toNat_lt
  have hne : next.generation.toNat ≠ 4294967295 := fun h => hmax (UInt32.toNat_inj.1 h)
  have hsum := congrArg UInt32.toNat hzero
  rw [UInt32.toNat_add] at hsum
  simp only [UInt32.reduceToNat] at hsum
  omega

/-- A commit changes the stored checkpoint. -/
lemma persisted_ne_stored {next : Checkpoint} {stored : Option Checkpoint}
    (h : next.generation = (stored.getD {}).generation) : some (persisted next) ≠ stored := by
  rintro rfl
  have hself : next.generation + 1 = next.generation := h.symm
  simp at hself

/-- A commit that fails has reached the storage or not, and the queue is not ready after it. -/
lemma wp_persist {α : Type} {next : Checkpoint} {p p' : Prog World α} {Q : α → World → Prop}
    {C : World → Prop} (hnot : p'.wp Q C w)
    (hdone : next.generation ≠ uint32Max → p.wp Q C { w with
      stored := some (persisted next), q := { w.q with checkpoint := persisted next } })
    (hfail : p'.wp Q C { w with q := { w.q with ready := false } })
    (hreached : next.generation ≠ uint32Max → p'.wp Q C { w with
      stored := some (persisted next), q := { w.q with ready := false } })
    (hC : C w) (hC' : next.generation ≠ uint32Max → C { w with stored := some (persisted next) }) :
    (persist next >>= fun ok => if ok = true then p else p').wp Q C w := by
  rw [wp_bind, persist, wp_ite]
  refine ⟨fun _ => hnot, fun hmax => ?_⟩
  simp only [wp_bind, wp_atomic, if_true, wp_setQueue, wp_pure, Bool.false_eq_true, if_false]
  exact ⟨hdone hmax, ⟨hfail, hreached hmax⟩, hC, hC' hmax⟩

/-! ### Settlements -/

/-- The checkpoint after a settlement of the bytes of a token. -/
def advanced (cp : Checkpoint) (token : Token) (content : List UInt8) : Checkpoint :=
  let bytes := slice content token.offset.toNat (token.endOffset.toNat - token.offset.toNat)
  persisted { cp with
    offset := token.endOffset, prefixCrc := extend cp.prefixCrc bytes
    version := if bytes.getLastD 0 = newline then 1 else 2 }

lemma advanced_version (cp : Checkpoint) (token : Token) (content : List UInt8) :
    (advanced cp token content).version = if (slice content token.offset.toNat
      (token.endOffset.toNat - token.offset.toNat)).getLastD 0 = newline then 1 else 2 := by
  rw [advanced, persisted_version]
  split_ifs
  · exact .inl rfl
  · exact .inr rfl

lemma advanced_valid {cp : Checkpoint} {token : Token} {content : List UInt8}
    (h : cp.generation ≠ uint32Max) : (advanced cp token content).Valid := by
  refine persisted_valid ?_ h
  dsimp only
  split_ifs
  · exact .inl rfl
  · exact .inr rfl

/-- A settlement moved the cursor over the bytes of a token. -/
structure Advanced (token : Token) (custody : Bool) (w w' : World) : Prop where
  ready : w.q.ready = true
  offset : token.offset = w.q.checkpoint.offset
  lt : token.offset.toNat < token.endOffset.toNat
  generation : w.q.checkpoint.generation ≠ uint32Max
  stored : ∃ content, w.file = some content ∧ token.endOffset.toNat ≤ content.length ∧
    w'.stored = some (advanced w.q.checkpoint token content) ∧
    -- Without custody, the cursor was at a row and the bytes end with a newline.
    (custody = false → w.q.checkpoint.version ≠ 2 ∧
      (slice content token.offset.toNat (token.endOffset.toNat - token.offset.toNat)).getLastD 0 = newline)

/-- What a settlement of bytes leaves. -/
def Settles (token : Token) (custody : Bool) (w w' : World) : Prop :=
  w'.file = w.file ∧ (w'.stored = w.stored ∨ Advanced token custody w w')

lemma wp_settleRead {content : List UInt8} (h : Bound w) (hready : w.q.ready = true)
    (hfile : w.file = some content) (hoffset : token.offset = w.q.checkpoint.offset)
    (hlt : token.offset.toNat < token.endOffset.toNat) (hlen : token.endOffset.toNat ≤ content.length)
    (hplain : custody = false → w.q.checkpoint.version ≠ 2) :
    (settleRead w.q.checkpoint token custody (Scan.step ⟨token.offset.toNat, 0, w.q.checkpoint.prefixCrc, 0⟩
      (slice content token.offset.toNat (token.endOffset.toNat - token.offset.toNat)))).wp
      (fun r w' => Settles token custody w w' ∧ Bound w' ∧ (r = .ok → w'.stored ≠ w.stored))
      (Settles token custody w) w := by
  rw [settleRead, wp_ite]
  refine ⟨fun _ => ⟨⟨rfl, .inl rfl⟩, h, nofun⟩, fun hread => ?_⟩
  simp only [Scan.last_step, Scan.prefixCrc_step, not_or, not_and, not_not] at hread ⊢
  obtain ⟨hbound, hvalid⟩ := h.loaded (.inl hready)
  have hidle := h.settled (.inl hready)
  have hadvanced : w.q.checkpoint.generation ≠ uint32Max → ∀ q, Advanced token custody w
      ⟨w.file, some (advanced w.q.checkpoint token content), q⟩ := by
    intro hmax q
    refine ⟨hready, hoffset, hlt, hmax, content, hfile, hlen, rfl, fun hcustody => ⟨hplain hcustody, ?_⟩⟩
    exact hread.1 (by simp [hcustody])
  refine wp_persist ⟨⟨rfl, .inl rfl⟩, h, nofun⟩ (fun hmax => ?_) ?_ (fun hmax => ?_)
    ⟨rfl, .inl rfl⟩ (fun hmax => ⟨rfl, .inr (hadvanced hmax _)⟩)
  · -- The commit succeeded.
    refine ⟨⟨rfl, .inr (hadvanced hmax _)⟩, ⟨fun _ => ⟨rfl, ?_⟩, fun _ => hidle⟩, fun _ => ?_⟩
    · rintro cp ⟨⟩
      exact advanced_valid hmax
    · exact persisted_ne_stored (hbound ▸ rfl)
  · exact ⟨⟨rfl, .inl rfl⟩, bound_of_idle rfl hidle, nofun⟩
  · exact ⟨⟨rfl, .inr (hadvanced hmax _)⟩, bound_of_idle rfl hidle, nofun⟩

lemma wp_settleBytes (h : Bound w) (token : Token) (custody : Bool) :
    (settleBytes token custody).wp
      (fun r w' => Settles token custody w w' ∧ Bound w' ∧ (r = .ok → w'.stored ≠ w.stored))
      (Settles token custody w) w := by
  have hkept : ∀ r : Result, r ≠ .ok →
      Settles token custody w w ∧ Bound w ∧ (r = .ok → w.stored ≠ w.stored) :=
    fun r hr => ⟨⟨rfl, .inl rfl⟩, h, fun hok => absurd hok hr⟩
  simp only [settleBytes, wp_bind, wp_gets, wp_ite]
  refine ⟨fun _ => hkept _ (by simp), fun hready => ⟨fun _ => hkept _ (by simp), fun hplain =>
    ⟨fun _ => hkept _ (by simp), fun hstale => ?_⟩⟩⟩
  rw [wp_fopen]
  refine ⟨?_, hkept _ (by simp), rfl, .inl rfl⟩
  cases hfile : w.file with
  | none => exact hkept _ (by simp)
  | some content =>
    simp only [not_or, not_not, not_and] at hready hplain hstale
    obtain ⟨-, hoffset, hle, -⟩ := hstale
    have hlt : token.offset.toNat < token.endOffset.toNat := UInt32.lt_iff_toNat_lt.1 (UInt32.not_le.1 hle)
    simp only [wp_bind]
    refine wp_readRange (fun _ => hkept _ (by simp)) (fun hlen _ => ?_) ⟨rfl, .inl rfl⟩ (by omega)
    dsimp only at hlen
    refine wp_settleRead h hready hfile hoffset hlt (by omega) fun hcustody => ?_
    exact (hplain (by simp [hcustody])).2

/-- The checkpoint that reads every retained byte again. -/
def restarted (cp : Checkpoint) : Checkpoint :=
  persisted { version := 1, generation := cp.generation }

/-- What the settlement of a damaged checkpoint leaves. -/
def Restarts (w w' : World) : Prop :=
  w'.file = w.file ∧ (w'.stored = w.stored ∨ w.q.checkpoint.generation ≠ uint32Max ∧
    w'.stored = some (restarted w.q.checkpoint))

lemma restarted_valid {cp : Checkpoint} (h : cp.generation ≠ uint32Max) : (restarted cp).Valid :=
  persisted_valid (.inl rfl) h

lemma wp_settleCheckpoint (h : Bound w) (token : Token) :
    (settleCheckpoint token).wp
      (fun r w' => Restarts w w' ∧ Bound w' ∧ (r = .ok → w'.stored ≠ w.stored)) (Restarts w) w := by
  have hkept : ∀ r : Result, r ≠ .ok → Restarts w w ∧ Bound w ∧ (r = .ok → w.stored ≠ w.stored) :=
    fun r hr => ⟨⟨rfl, .inl rfl⟩, h, fun hok => absurd hok hr⟩
  rw [settleCheckpoint, wp_bind, wp_gets, wp_ite]
  refine ⟨fun _ => hkept _ nofun, fun hstale => ?_⟩
  rw [wp_bind, wp_look]
  refine ⟨?_, hkept _ nofun, rfl, .inl rfl⟩
  rw [if_pos rfl, wp_bind, wp_gets, wp_ite]
  refine ⟨fun _ => hkept _ nofun, fun hactual => ?_⟩
  rw [wp_ite]
  refine ⟨fun _ => hkept _ nofun, fun hmax => ?_⟩
  simp only [not_or, not_not] at hstale hactual
  have hidle := h.settled (.inr hstale.1)
  refine wp_persist (hkept _ nofun) (fun _ => ?_) ?_ (fun _ => ?_) ⟨rfl, .inl rfl⟩
    (fun _ => ⟨rfl, .inr ⟨hmax, rfl⟩⟩)
  · refine ⟨⟨rfl, .inr ⟨hmax, rfl⟩⟩, bound_of_idle rfl rfl, fun _ => persisted_ne_stored ?_⟩
    rw [hactual]
    rfl
  · exact ⟨⟨rfl, .inl rfl⟩, bound_of_idle rfl hidle, nofun⟩
  · exact ⟨⟨rfl, .inr ⟨hmax, rfl⟩⟩, bound_of_idle rfl hidle, nofun⟩

lemma restarted_version (cp : Checkpoint) : (restarted cp).version = 1 := persisted_version (.inl rfl)

/-! ### Reclaiming -/

/-- The checkpoint of a file that was settled to its end. -/
def cleared (cp : Checkpoint) : Checkpoint :=
  persisted { cp with offset := 0, prefixCrc := 0, version := 1 }

lemma cleared_valid {cp : Checkpoint} (h : cp.generation ≠ uint32Max) : (cleared cp).Valid :=
  persisted_valid (.inl rfl) h

lemma cleared_version (cp : Checkpoint) : (cleared cp).version = 1 := persisted_version (.inl rfl)

/-- A reclaim cleared the cursor of a file that is settled to its end. -/
structure Cleared (w w' : World) : Prop where
  ready : w.q.ready = true
  generation : w.q.checkpoint.generation ≠ uint32Max
  length : ∃ content, w.file = some content ∧ content.length = w.q.checkpoint.offset.toNat
  stored : w'.stored = some (cleared w.q.checkpoint)
  file : w'.file = w.file ∨ w'.file = none

def Reclaims (w w' : World) : Prop := Same w w' ∨ Cleared w w'

lemma wp_lqReclaim (h : Bound w) :
    lqReclaim.wp (fun _ w' => Reclaims w w' ∧ Bound w') (Reclaims w) w := by
  obtain ⟨file, stored, q⟩ := w
  have hkept : Reclaims ⟨file, stored, q⟩ ⟨file, stored, { q with ioRead := false }⟩ ∧
      Bound ⟨file, stored, { q with ioRead := false }⟩ := ⟨.inl ⟨rfl, rfl⟩, h.loaded, h.settled⟩
  rw [lqReclaim, wp_bind, wp_setQueue, wp_bind, wp_gets, wp_ite]
  refine ⟨fun _ => hkept, fun hready => ?_⟩
  rw [wp_bind, wp_look]
  refine ⟨?_, hkept, hkept.1⟩
  rw [if_pos rfl, wp_bind, wp_gets]
  cases file with
  | none => exact hkept
  | some content =>
    dsimp only
    rw [wp_ite]
    refine ⟨fun _ => hkept, fun hlength => ?_⟩
    rw [not_not] at hready hlength
    have hidle := h.settled (.inl hready)
    have hcleared : q.checkpoint.generation ≠ uint32Max → ∀ q',
        Cleared ⟨some content, stored, q⟩ ⟨some content, some (cleared q.checkpoint), q'⟩ ∧
          Cleared ⟨some content, stored, q⟩ ⟨none, some (cleared q.checkpoint), q'⟩ := fun hmax q' =>
      ⟨⟨hready, hmax, ⟨content, rfl, hlength⟩, rfl, .inl rfl⟩,
        ⟨hready, hmax, ⟨content, rfl, hlength⟩, rfl, .inr rfl⟩⟩
    refine wp_persist hkept (fun hmax => ?_) ⟨.inl ⟨rfl, rfl⟩, bound_of_idle rfl hidle⟩ (fun hmax => ?_)
      hkept.1 (fun hmax => .inr (hcleared hmax _).1)
    · have hbound : ∀ file, Bound ⟨file, some (cleared q.checkpoint),
          { q with ioRead := false, checkpoint := cleared q.checkpoint }⟩ := by
        refine fun file => ⟨fun _ => ⟨rfl, ?_⟩, fun _ => hidle⟩
        rintro cp ⟨⟩
        exact cleared_valid hmax
      rw [wp_bind, wp_atomic]
      exact ⟨⟨.inr (hcleared hmax _).2, hbound _⟩, ⟨⟨.inr (hcleared hmax _).1, hbound _⟩,
        .inr (hcleared hmax _).2, hbound _⟩, .inr (hcleared hmax _).1, .inr (hcleared hmax _).2⟩
    · exact ⟨.inr (hcleared hmax _).1, bound_of_idle rfl hidle⟩

end LegacyQueue
