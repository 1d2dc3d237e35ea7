import AutoAttn.LegacyQueue.Open

/-!
# The verdict of the storage repair on a cursor

After a repair of the storage, `srp_cursor_verdict` decides whether the cursor of a legacy queue still
describes the bytes of its file. It reads the prefix in one pass, and concludes what opening the queue
would conclude.
-/

namespace LegacyQueue

open Crash.Prog
open ZoneLite (extend extend_append)
open Bytes (slice length_slice slice_append_slice)

/-- `srp_cursor_verdict_t` -/
inductive CursorVerdict where
  | keep
  | corrupt
  | beyondFile
  | notRowBoundary
  | prefixMismatch
  | prefixGap
deriving DecidableEq

/-- `srp_crc32`, the same chained checksum. -/
def srpCrc32 (crc : UInt32) (data : List UInt8) : UInt32 := extend crc data

/-- The loop of `srp_cursor_verdict` from a position, with the checksum and the last byte. Each round
reads a byte, so that `remaining` rounds are enough. -/
def verdictScan (read : Nat → Nat → Option (List UInt8)) (offset : Nat) :
    Nat → Nat → UInt32 → UInt8 → Option (UInt32 × UInt8)
  | 0, _, crc, last                 => some (crc, last)
  | rounds + 1, position, crc, last =>
    if position < offset then
      match read position (min (offset - position) 512) with
      | none       => none
      | some chunk =>
        verdictScan read offset rounds (position + chunk.length) (srpCrc32 crc chunk) (chunk.getLastD last)
    else some (crc, last)

/-- `srp_cursor_verdict`. The checkpoint is the one that was loaded, and `read` returns as many bytes as
it was asked for, or fails. -/
def srpCursorVerdict (checkpoint : Option Checkpoint) (isFile : Bool) (size : Nat) (prefixHasGap : Bool)
    (read : Nat → Nat → Option (List UInt8)) : CursorVerdict :=
  match checkpoint with
  | none    => .keep
  | some cp =>
    if ¬cp.Valid then .corrupt
    else if cp.offset = 0 then .keep
    else if ¬isFile ∨ size < cp.offset.toNat then .beyondFile
    else if prefixHasGap then .prefixGap
    else
      match verdictScan read cp.offset.toNat cp.offset.toNat 0 0 0 with
      | none             => .prefixGap
      | some (crc, last) =>
        -- `lq_open_step` checks the boundary of a version 1 cursor, then the CRC.
        if cp.version = 1 ∧ last ≠ newline then .notRowBoundary
        else if crc ≠ cp.prefixCrc then .prefixMismatch
        else .keep

/-- A file that is read without an error. -/
def readFile (content : List UInt8) (position n : Nat) : Option (List UInt8) :=
  if position + n ≤ content.length then some (slice content position n) else none

variable {content : List UInt8} {offset : Nat}

/-- The loop reads the rest of the prefix. -/
lemma verdictScan_readFile (hlen : offset ≤ content.length) {rounds position : Nat} {crc : UInt32}
    {last : UInt8} (hle : position ≤ offset) (hrounds : offset - position ≤ rounds) :
    verdictScan (readFile content) offset rounds position crc last =
      some (extend crc (slice content position (offset - position)),
        (slice content position (offset - position)).getLastD last) := by
  induction rounds generalizing position crc last with
  | zero =>
    obtain rfl : position = offset := by omega
    simp [verdictScan, slice, extend]
  | succ rounds ih =>
    rw [verdictScan]
    split_ifs with hlt
    · have hread : readFile content position (min (offset - position) 512) =
          some (slice content position (min (offset - position) 512)) := if_pos (by omega)
      have hlength : (slice content position (min (offset - position) 512)).length =
          min (offset - position) 512 := by
        rw [length_slice]
        omega
      have hsplit : slice content position (min (offset - position) 512) ++
          slice content (position + min (offset - position) 512)
            (offset - (position + min (offset - position) 512)) =
          slice content position (offset - position) := by
        rw [slice_append_slice]
        congr 1
        omega
      simp only [hread]
      rw [ih (by omega) (by omega), hlength, srpCrc32, extend_append, hsplit, ← hsplit]
      simp
    · obtain rfl : position = offset := by omega
      simp [slice, extend]

/-- The verdict on a file that is read without an error is the one of opening the queue. -/
theorem srpCursorVerdict_eq_open (checkpoint : Option Checkpoint) (file : Option (List UInt8)) (q : Queue) :
    (srpCursorVerdict checkpoint file.isSome (file.getD []).length false (readFile (file.getD [])) = .keep ↔
      (lqOpen.eval ⟨file, checkpoint, q⟩).1 = .ok) ∧
    (srpCursorVerdict checkpoint file.isSome (file.getD []).length false (readFile (file.getD [])) ∈
        [.corrupt, .notRowBoundary, .prefixMismatch] ↔
      (lqOpen.eval ⟨file, checkpoint, q⟩).1 = .corrupt) := by
  rw [eval_lqOpen]
  cases checkpoint with
  | none => simp [srpCursorVerdict, openResult]
  | some cp =>
    simp only [srpCursorVerdict, openResult]
    by_cases hvalid : cp.Valid
    swap
    · simp [hvalid]
    by_cases hzero : cp.offset = 0
    · simp [hvalid, hzero]
    cases file with
    | none => simp [hvalid, hzero]
    | some content =>
      rcases Nat.lt_or_ge content.length cp.offset.toNat with hshort | hlen
      · simp [hvalid, hzero, hshort, openVerdict]
      · have hne : content.take cp.offset.toNat ≠ [] := by
          have hpos : cp.offset.toNat ≠ 0 := fun h => hzero (UInt32.toNat_inj.1 h)
          intro h
          have := congrArg List.length h
          rw [List.length_take, List.length_nil] at this
          omega
        have hlast : (content.take cp.offset.toNat).getLastD 0 = newline ↔
            Boundary content cp.offset.toNat := by
          rw [Boundary, List.getLastD_eq_getLast?, List.getLastD_eq_getLast?,
            List.getLast?_eq_some_getLast hne]
          rfl
        have hslice : slice content 0 cp.offset.toNat = content.take cp.offset.toNat := by simp [slice]
        have hscan : verdictScan (readFile content) cp.offset.toNat cp.offset.toNat 0 0 0 =
            some (extend 0 (content.take cp.offset.toNat), (content.take cp.offset.toNat).getLastD 0) := by
          rw [verdictScan_readFile hlen (Nat.zero_le _) (Nat.sub_le _ _), Nat.sub_zero, hslice]
        simp only [hvalid, hzero, hlen.not_gt, hscan, openVerdict, hlast, ne_eq, not_true_eq_false, if_false,
          Option.isSome_some, Option.getD_some, or_self, Bool.false_eq_true]
        split_ifs <;> simp

end LegacyQueue
