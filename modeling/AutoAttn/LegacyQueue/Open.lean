import Mathlib
import AutoAttn.Crash.Logic
import AutoAttn.LegacyQueue.Basic

/-!
# Opening a legacy queue

Slices of the prefix are verified one after the other. Together they do what one pass over the prefix
would do: the cursor is accepted if the file still has the bytes it was committed for.
-/

namespace LegacyQueue

open Crash Crash.Prog
open ZoneLite (extend extend_append)
open Bytes (slice slice_append_slice length_slice)

/-! ### Reading a range -/

namespace Scan

variable {s : Scan} {a b : List UInt8}

@[simp] lemma position_step : (s.step a).position = s.position + a.length := rfl

@[simp] lemma crc_step : (s.step a).crc = extend s.crc a := rfl

@[simp] lemma prefixCrc_step : (s.step a).prefixCrc = extend s.prefixCrc a := rfl

@[simp] lemma last_step : (s.step a).last = a.getLastD s.last := rfl

lemma step_nil (s : Scan) : s.step [] = s := by
  simp [step, extend]

/-- Two pieces do what their concatenation does. -/
lemma step_step (s : Scan) (a b : List UInt8) : (s.step a).step b = s.step (a ++ b) := by
  simp [step, extend_append, Nat.add_assoc]

end Scan

section Scan

variable {content : List UInt8} {rounds remaining : Nat} {s : Scan} {w : World}

/-- One round and the rounds after it read the range. -/
lemma scan_piece (hlen : (slice content s.position (min remaining 512)).length = min remaining 512) :
    (s.step (slice content s.position (min remaining 512))).step
        (slice content (s.step (slice content s.position (min remaining 512))).position
          (remaining - (slice content s.position (min remaining 512)).length)) =
      s.step (slice content s.position remaining) := by
  rw [Scan.step_step, Scan.position_step, hlen, slice_append_slice]
  congr 2
  omega

lemma eval_scan (hlen : s.position + remaining ≤ content.length) (hrounds : remaining ≤ rounds) :
    (scan content rounds remaining s).eval w =
      (some (s.step (slice content s.position remaining)), w) := by
  induction rounds generalizing remaining s with
  | zero =>
    obtain rfl : remaining = 0 := by omega
    simp [scan, slice, Scan.step_nil]
  | succ rounds ih =>
    rw [scan]
    split_ifs with hzero
    · simp [hzero, slice, Scan.step_nil]
    · have hpiece : (slice content s.position (min remaining 512)).length = min remaining 512 := by
        rw [length_slice]
        omega
      rw [eval_bind, eval_look]
      simp only [if_true, if_pos hpiece]
      rw [ih (by rw [Scan.position_step]; omega) (by omega), scan_piece hpiece]

/-- A range that the file does not have is not read. -/
lemma eval_scan_short (hlen : content.length < s.position + remaining) (hrem : remaining ≠ 0)
    (hrounds : remaining ≤ rounds) : (scan content rounds remaining s).eval w = (none, w) := by
  induction rounds generalizing remaining s with
  | zero => omega
  | succ rounds ih =>
    rw [scan, if_neg hrem, eval_bind, eval_look]
    simp only [if_true]
    split_ifs with hpiece
    · rw [length_slice] at hpiece
      refine ih ?_ ?_ ?_
      · rw [Scan.position_step, length_slice]
        omega
      · rw [length_slice]
        omega
      · rw [length_slice]
        omega
    · rfl

lemma wp_scan {Q : Option Scan → World → Prop} {C : World → Prop} (hnone : Q none w)
    (hsome : remaining = 0 ∨ s.position + remaining ≤ content.length →
      Q (some (s.step (slice content s.position remaining))) w)
    (hC : C w) (hrounds : remaining ≤ rounds) : (scan content rounds remaining s).wp Q C w := by
  induction rounds generalizing remaining s with
  | zero =>
    obtain rfl : remaining = 0 := by omega
    have := hsome (.inl rfl)
    simpa [scan, slice, Scan.step_nil] using this
  | succ rounds ih =>
    rw [scan]
    split_ifs with hzero
    · have := hsome (.inl hzero)
      simpa [hzero, slice, Scan.step_nil] using this
    · rw [wp_bind, wp_look]
      refine ⟨?_, hnone, hC⟩
      simp only [if_true, wp_ite]
      refine ⟨fun hpiece => ih ?_ (by omega), fun _ => hnone⟩
      rw [scan_piece hpiece]
      rw [length_slice] at hpiece
      intro hrest
      rw [Scan.position_step, length_slice] at hrest
      exact hsome (.inr (by omega))

lemma eval_readRange (hlen : s.position + remaining ≤ content.length) :
    (readRange content remaining s).eval w =
      ((some (s.step (slice content s.position remaining)), false), w) := by
  simp [readRange, eval_scan hlen le_rfl]

lemma eval_readRange_short (hlen : content.length < s.position + remaining) (hrem : remaining ≠ 0) :
    (readRange content remaining s).eval w = ((none, true), w) := by
  simp [readRange, eval_scan_short hlen hrem le_rfl]

/-- Whatever fails, a range that was read is the one of the file. -/
lemma wp_readRange {Q : Option Scan × Bool → World → Prop} {C : World → Prop}
    (hnone : ∀ failed, Q (none, failed) w)
    (hsome : s.position + remaining ≤ content.length →
      ∀ failed, Q (some (s.step (slice content s.position remaining)), failed) w)
    (hC : C w) (hrem : remaining ≠ 0) : (readRange content remaining s).wp Q C w := by
  rw [readRange, wp_bind, wp_look]
  refine ⟨?_, ?_, hC⟩
  · rw [if_pos rfl, wp_bind]
    refine wp_scan ?_ ?_ hC le_rfl
    · simp [hnone, hC]
    · intro hlen
      have hlen' : s.position + remaining ≤ content.length := hlen.resolve_left hrem
      simp [hnone, hsome hlen', hC]
  · simp [hnone, hC]

end Scan

/-! ### One slice -/

/-- The prefix ends with a row. -/
def Boundary (content : List UInt8) (n : Nat) : Prop := (content.take n).getLastD newline = newline

instance (content : List UInt8) (n : Nat) : Decidable (Boundary content n) :=
  inferInstanceAs (Decidable (_ = _))

/-- What a checkpoint with an offset says about a file. -/
def openVerdict (cp : Checkpoint) (content : List UInt8) : Result :=
  if content.length < cp.offset.toNat then .io
  else if cp.version = 1 ∧ ¬Boundary content cp.offset.toNat then .corrupt
  else if extend 0 (content.take cp.offset.toNat) ≠ cp.prefixCrc then .corrupt
  else .ok

/-- What opening a queue finds. -/
def openResult (stored : Option Checkpoint) (file : Option (List UInt8)) : Result :=
  match stored with
  | none    => .ok
  | some cp =>
    if ¬cp.Valid then .corrupt
    else if cp.offset = 0 then .ok
    else
      match file with
      | none         => .io
      | some content => openVerdict cp content

/-- What is left to find once the checkpoint is loaded. -/
def sliceResult (q : Queue) (file : Option (List UInt8)) : Result :=
  if q.checkpoint.offset.toNat ≤ q.recoveryOffset then .ok
  else
    match file with
    | none         => .io
    | some content => openVerdict q.checkpoint content

/-- A queue that has verified the prefix up to its position. -/
def Verified (q : Queue) (file : Option (List UInt8)) : Prop :=
  ∀ content ∈ file, q.recoveryCrc = extend 0 (content.take q.recoveryOffset)

lemma take_add_slice (content : List UInt8) (p n : Nat) :
    content.take (p + n) = content.take p ++ slice content p n := by
  rw [slice, List.take_add]

lemma getLastD_take_add {content : List UInt8} {p n : Nat} (h : slice content p n ≠ []) (d d' : UInt8) :
    (content.take (p + n)).getLastD d = (slice content p n).getLastD d' := by
  rw [take_add_slice, List.getLastD_eq_getLast?, List.getLastD_eq_getLast?, List.getLast?_append,
    List.getLast?_eq_some_getLast h]
  rfl

section Slice

variable {w : World} {content : List UInt8} {cp : Checkpoint} {p n : Nat}

/-- The last slice decides. -/
lemma eval_lqSliceRead_last (hoffset : p + n = cp.offset.toNat) (hlen : p + n ≤ content.length)
    (hn : n ≠ 0) :
    ((lqSliceRead cp (Scan.step ⟨p, extend 0 (content.take p), 0, 0⟩ (slice content p n))).eval w).1 =
      openVerdict cp content := by
  have hslice : (slice content p n).length = n := by
    rw [length_slice]
    omega
  have hne : slice content p n ≠ [] := by
    rintro h
    rw [h] at hslice
    exact hn hslice.symm
  have hcrc : extend (extend 0 (content.take p)) (slice content p n) =
      extend 0 (content.take cp.offset.toNat) := by
    rw [extend_append, ← take_add_slice, hoffset]
  have hlast : (slice content p n).getLastD 0 = newline ↔ Boundary content cp.offset.toNat := by
    rw [Boundary, ← hoffset, getLastD_take_add hne _ 0]
  simp only [lqSliceRead, openVerdict, Scan.position_step, Scan.crc_step, Scan.last_step, hslice, hoffset,
    hcrc, ne_eq, hlast, true_and, if_neg (show ¬content.length < cp.offset.toNat by omega)]
  by_cases hboundary : cp.version = 1 ∧ ¬Boundary content cp.offset.toNat
  · rw [if_pos hboundary, if_pos hboundary]
    rfl
  · rw [if_neg hboundary, if_neg hboundary, if_neg (lt_irrefl _), eval_bind]
    split_ifs <;> rfl

/-- The slices before it are carried on. -/
lemma eval_lqSliceRead_pending (hlt : p + n < cp.offset.toNat) (hlen : p + n ≤ content.length) :
    (lqSliceRead cp (Scan.step ⟨p, extend 0 (content.take p), 0, 0⟩ (slice content p n))).eval w =
      (.pending, { w with q := { w.q with
        recoveryOffset := p + n, recoveryCrc := extend 0 (content.take (p + n)) } }) := by
  have hslice : (slice content p n).length = n := by
    rw [length_slice]
    omega
  have hcrc : extend (extend 0 (content.take p)) (slice content p n) = extend 0 (content.take (p + n)) := by
    rw [extend_append, ← take_add_slice]
  simp only [lqSliceRead, Scan.position_step, Scan.crc_step, hslice, hcrc]
  rw [if_neg fun h => hlt.ne h.1, if_pos hlt]
  rfl

@[simp] lemma eval_fopen (w : World) : fopen.eval w = (w.file, w) := by
  simp [fopen]

/-- The range that the next slice reads. -/
def sliceBytes (q : Queue) : Nat := min (q.checkpoint.offset.toNat - q.recoveryOffset) recoverySliceBytes

lemma eval_lqSlice (hlt : w.q.recoveryOffset < w.q.checkpoint.offset.toNat) (hfile : w.file = some content)
    (hlen : w.q.recoveryOffset + sliceBytes w.q ≤ content.length) :
    lqSlice.eval w = (lqSliceRead w.q.checkpoint (Scan.step ⟨w.q.recoveryOffset, w.q.recoveryCrc, 0, 0⟩
      (slice content w.q.recoveryOffset (sliceBytes w.q)))).eval w := by
  rw [lqSlice, eval_bind, eval_gets]
  dsimp only
  rw [if_pos hlt, eval_bind, eval_fopen, hfile]
  dsimp only
  rw [eval_bind, ← sliceBytes, eval_readRange (s := ⟨w.q.recoveryOffset, w.q.recoveryCrc, 0, 0⟩) hlen]

lemma eval_lqSlice_short (hlt : w.q.recoveryOffset < w.q.checkpoint.offset.toNat)
    (hlen : ∀ content ∈ w.file, content.length < w.q.recoveryOffset + sliceBytes w.q) :
    (lqSlice.eval w).1 = .io := by
  rw [lqSlice, eval_bind, eval_gets]
  dsimp only
  rw [if_pos hlt, eval_bind, eval_fopen]
  cases hfile : w.file with
  | none => rfl
  | some content =>
    have hrem : sliceBytes w.q ≠ 0 := by
      rw [sliceBytes, recoverySliceBytes]
      omega
    dsimp only
    rw [eval_bind, ← sliceBytes, eval_readRange_short
      (s := ⟨w.q.recoveryOffset, w.q.recoveryCrc, 0, 0⟩) (hlen content hfile) hrem]
    rfl

/-- No read has failed yet. -/
def quiet (w : World) : World := { w with q := { w.q with ioRead := false } }

/-- While a queue recovers, a step is a slice. -/
lemma eval_lqOpenStep_recovering (h : w.q.recovering = true) :
    lqOpenStep.eval w = lqSlice.eval (quiet w) := by
  rw [lqOpenStep, eval_bind, setQueue, eval_modify, eval_bind, eval_gets]
  dsimp only
  rw [if_pos h]
  rfl

lemma eval_lqOpenLoop_succ {rounds : Nat} :
    ((lqOpenLoop (rounds + 1)).eval w).1 =
      if (lqOpenStep.eval w).1 = .pending then ((lqOpenLoop rounds).eval (lqOpenStep.eval w).2).1
      else (lqOpenStep.eval w).1 := by
  rw [lqOpenLoop, eval_bind]
  cases (lqOpenStep.eval w).1 <;> rfl

/-- The queue after a slice that is not the last one. -/
def sliced (w : World) (content : List UInt8) : World :=
  { w with q := { w.q with
    recoveryOffset := w.q.recoveryOffset + recoverySliceBytes
    recoveryCrc := extend 0 (content.take (w.q.recoveryOffset + recoverySliceBytes)) } }

/-- A slice finds what the whole pass finds, unless there are slices after it. -/
lemma eval_lqSlice_cases (h : Verified w.q w.file) :
    (lqSlice.eval w).1 = sliceResult w.q w.file ∨
      ∃ content, w.file = some content ∧
        w.q.recoveryOffset + recoverySliceBytes < w.q.checkpoint.offset.toNat ∧
        lqSlice.eval w = (.pending, sliced w content) := by
  rcases Nat.lt_or_ge w.q.recoveryOffset w.q.checkpoint.offset.toNat with hlt | hge
  swap
  · left
    rw [lqSlice, eval_bind, eval_gets]
    dsimp only
    rw [if_neg hge.not_gt]
    exact (if_pos hge).symm
  · have hbytes : sliceBytes w.q = min (w.q.checkpoint.offset.toNat - w.q.recoveryOffset)
        recoverySliceBytes := rfl
    rw [recoverySliceBytes] at hbytes
    cases hfile : w.file with
    | none =>
      left
      rw [eval_lqSlice_short hlt (by simp [hfile]), sliceResult, if_neg hlt.not_ge]
    | some content =>
      rcases Nat.lt_or_ge content.length (w.q.recoveryOffset + sliceBytes w.q) with hshort | hlen
      · left
        rw [eval_lqSlice_short hlt (by simpa [hfile] using hshort), sliceResult, if_neg hlt.not_ge,
          openVerdict, if_pos (by omega)]
      · rw [eval_lqSlice hlt hfile hlen, h content hfile]
        rcases Nat.lt_or_ge (w.q.recoveryOffset + sliceBytes w.q) w.q.checkpoint.offset.toNat with
          hmore | hlast
        · right
          have hfull : sliceBytes w.q = recoverySliceBytes := by
            rw [recoverySliceBytes]
            omega
          rw [hfull] at hmore hlen ⊢
          exact ⟨content, rfl, hmore, eval_lqSliceRead_pending hmore hlen⟩
        · left
          rw [eval_lqSliceRead_last (by omega) hlen (by omega), sliceResult, if_neg hlt.not_ge]

lemma sliceResult_of_lt {q : Queue} {file : Option (List UInt8)}
    (h : q.recoveryOffset < q.checkpoint.offset.toNat) :
    sliceResult q file = file.elim .io (openVerdict q.checkpoint) := by
  unfold sliceResult
  rw [if_neg h.not_ge]
  cases file <;> rfl

lemma sliceResult_ne_pending (q : Queue) (file : Option (List UInt8)) : sliceResult q file ≠ .pending := by
  unfold sliceResult
  split_ifs
  · simp
  · cases file with
    | none => simp
    | some content =>
      dsimp only
      rw [openVerdict]
      split_ifs <;> simp

/-- A verified part and the slices after it find what one pass finds. -/
lemma eval_lqOpenLoop {rounds : Nat} (hrecovering : w.q.recovering = true) (h : Verified w.q w.file)
    (hrounds : w.q.checkpoint.offset.toNat - w.q.recoveryOffset ≤ rounds * recoverySliceBytes) :
    ((lqOpenLoop (rounds + 1)).eval w).1 = sliceResult w.q w.file := by
  induction rounds generalizing w with
  | zero =>
    rw [eval_lqOpenLoop_succ, eval_lqOpenStep_recovering hrecovering]
    rcases eval_lqSlice_cases (w := quiet w) h with
      hdone | ⟨content, -, hlt, -⟩
    · rw [hdone, if_neg (sliceResult_ne_pending _ _)]
      rfl
    · simp only [quiet] at hlt
      omega
  | succ rounds ih =>
    rw [eval_lqOpenLoop_succ, eval_lqOpenStep_recovering hrecovering]
    rcases eval_lqSlice_cases (w := quiet w) h with
      hdone | ⟨content, hfile, hlt, heval⟩
    · rw [hdone, if_neg (sliceResult_ne_pending _ _)]
      rfl
    · simp only [quiet] at hlt hfile
      rw [heval, if_pos rfl, ih (w := sliced (quiet w) content) hrecovering ?_ ?_]
      · -- The result does not depend on how much was verified.
        have hnext : (sliced (quiet w) content).q.recoveryOffset <
            (sliced (quiet w) content).q.checkpoint.offset.toNat := hlt
        rw [sliceResult_of_lt hnext, sliceResult_of_lt (show w.q.recoveryOffset < _ by omega)]
        rfl
      · intro content' hcontent'
        obtain rfl := Option.some.inj (hfile.symm.trans hcontent')
        rfl
      · simp only [sliced, quiet]
        rw [Nat.succ_mul] at hrounds
        omega

end Slice

/-! ### The whole opening -/

/-- The checkpoint was loaded. -/
def loaded (w : World) : World :=
  { w with q := { opened := true, checkpoint := w.stored.getD {}, recovering := true } }

lemma eval_lqLoad (w : World) : lqLoad.eval w =
    (lqLoaded w.stored).eval { w with q := { opened := true } } := by
  rw [lqLoad, eval_bind, setQueue, eval_modify, eval_bind, eval_look, if_pos rfl]
  rfl

/-- A queue that is not recovering loads the checkpoint first. -/
lemma eval_lqOpenStep_load {w : World} (hq : w.q.recovering = false) : lqOpenStep.eval w =
    ((match ((lqLoaded w.stored).eval { w with q := { opened := true } }).1 with
      | some r => return r
      | none   => lqSlice).eval ((lqLoaded w.stored).eval { w with q := { opened := true } }).2) := by
  rw [lqOpenStep, eval_bind, setQueue, eval_modify, eval_bind, eval_gets]
  dsimp only
  rw [if_neg (by simpa using hq), eval_bind, eval_lqLoad] <;> rfl

lemma eval_lqOpenStep_valid {w : World} (hq : w.q.recovering = false) (h : ∀ cp ∈ w.stored, cp.Valid) :
    lqOpenStep.eval w = lqSlice.eval (loaded w) := by
  have hvalid : ¬∃ cp ∈ w.stored, ¬cp.Valid := by simpa using h
  rw [eval_lqOpenStep_load hq, lqLoaded, eval_bind, if_neg hvalid]
  rfl

lemma eval_lqOpenStep_invalid {w : World} {cp : Checkpoint} (hq : w.q.recovering = false)
    (hstored : w.stored = some cp) (h : ¬cp.Valid) : (lqOpenStep.eval w).1 = .corrupt := by
  have hinvalid : ∃ cp ∈ w.stored, ¬cp.Valid := ⟨cp, hstored, h⟩
  rw [eval_lqOpenStep_load hq, lqLoaded, eval_bind, if_pos hinvalid]
  rfl

lemma sliceResult_loaded {w : World} (h : ∀ cp ∈ w.stored, cp.Valid) :
    sliceResult (loaded w).q w.file = openResult w.stored w.file := by
  cases hstored : w.stored with
  | none => simp [sliceResult, loaded, openResult, hstored]
  | some cp =>
    have hzero : cp.offset = 0 ↔ cp.offset.toNat ≤ 0 := by
      rw [Nat.le_zero, ← UInt32.toNat_inj]
      rfl
    simp only [sliceResult, loaded, openResult, hstored, Option.getD_some, not_not.2 (h cp hstored),
      if_false, hzero]

/-- The first step goes on with the first slice, as a step of the loaded queue does. -/
lemma eval_lqOpenLoop_load {w : World} {rounds : Nat} (hq : w.q.recovering = false)
    (h : ∀ cp ∈ w.stored, cp.Valid) :
    ((lqOpenLoop (rounds + 1)).eval w).1 = ((lqOpenLoop (rounds + 1)).eval (loaded w)).1 := by
  rw [eval_lqOpenLoop_succ, eval_lqOpenLoop_succ, eval_lqOpenStep_valid hq h,
    eval_lqOpenStep_recovering (w := loaded w) rfl]
  rfl

/-- Opening a queue, when nothing fails, verifies the whole prefix. -/
theorem eval_lqOpen (w : World) : (lqOpen.eval w).1 = openResult w.stored w.file := by
  rw [lqOpen, eval_bind, setQueue, eval_modify]
  change ((lqOpenLoop (524288 + 1)).eval { w with q := {} }).1 = _
  by_cases h : ∀ cp ∈ w.stored, cp.Valid
  · rw [eval_lqOpenLoop_load (w := { w with q := {} }) rfl h, eval_lqOpenLoop (w := loaded { w with q := {} }) rfl ?_ ?_]
    · exact sliceResult_loaded h
    · intro content _
      simp [loaded, extend]
    · have := (w.stored.getD {}).offset.toNat_lt
      simp only [loaded, recoverySliceBytes]
      omega
  · push Not at h
    obtain ⟨cp, hstored, hinvalid⟩ := h
    rw [eval_lqOpenLoop_succ, eval_lqOpenStep_invalid (w := { w with q := {} }) rfl hstored hinvalid,
      Option.mem_def.1 hstored]
    simp [openResult, hinvalid]

end LegacyQueue
