import Mathlib.Data.List.Basic

/-!
# Gap records

A repair records the ranges of a file that it could not read (`srp_gaps_add`, `storage_repair_plan.c`), and the records
stay until ADD acknowledges them (`send_gap_evidence`, `storage_repair.c`). The list is bounded. When it is full, a
record of the same file and run is widened, or an acknowledged record makes room. So what a record covers may change,
but no byte that was recorded gets lost before a record that covers it was acknowledged.
-/

namespace ZoneLite

/-! ### Records -/

/-- `srp_gap_t` -/
structure SrpGap where
  name : List UInt8
  cause : UInt8
  cls : UInt8
  flags : UInt8
  reserved : UInt8
  spiffsError : Int
  offset : UInt32
  length : UInt32
  fileSize : UInt32
  generation : UInt32
deriving DecidableEq

/-- `SRP_MAX_GAPS` -/
def srpMaxGaps : Nat := 24

/-- `SRP_NAME_BYTES` -/
def srpNameBytes : Nat := 33

/-- `SRP_GAP_MERGED` -/
def srpGapMerged : UInt8 := 0x01

/-- `SRP_RECORD_ACKED` -/
def srpRecordAcked : UInt8 := 0x80

/-- `bounded_name` -/
def boundedName (name : List UInt8) : Bool :=
  (name.take srpNameBytes).contains 0 && name.head? != some 0

namespace SrpGap

/-- The file name as `strcmp` reads it. -/
def file (gap : SrpGap) : List UInt8 := gap.name.takeWhile (· ≠ 0)

def acked (gap : SrpGap) : Bool := gap.flags &&& srpRecordAcked != 0

/-- The end of the range, which does not fit 32 bits for every record. -/
def stop (gap : SrpGap) : Nat := gap.offset.toNat + gap.length.toNat

/-- The record, when it is acknowledged. -/
def ack (gap : SrpGap) : SrpGap := { gap with flags := gap.flags ||| srpRecordAcked }

/-- Whether a full list may hold a range in this record: it is of the same file and run, and not acknowledged. -/
def takes (old gap : SrpGap) : Bool :=
  !(old.acked || old.generation != gap.generation || old.file != gap.file)

/-- The start of a record that holds both ranges. -/
def joinedStart (old gap : SrpGap) : Nat := min old.offset.toNat gap.offset.toNat

/-- The end of a record that holds both ranges. -/
def joinedStop (old gap : SrpGap) : Nat := max old.stop gap.stop

/-- A record that is widened by a range. -/
def widen (old gap : SrpGap) : SrpGap :=
  { old with
    offset := .ofNat (old.joinedStart gap)
    length := .ofNat (old.joinedStop gap - old.joinedStart gap)
    flags := old.flags ||| srpGapMerged
    fileSize := if gap.fileSize > old.fileSize then gap.fileSize else old.fileSize }

end SrpGap

/-- The loop that looks for a record to widen, from the last one down. -/
def widenLoop (gaps : List SrpGap) (gap : SrpGap) : Nat → Option (List SrpGap × Bool)
  | 0     => none
  | i + 1 =>
    match gaps[i]? with
    | none     => widenLoop gaps gap i
    | some old =>
      if old.takes gap then
        if old.joinedStop gap - old.joinedStart gap > 0xFFFFFFFF then some (gaps, false)
        else some (gaps.set i (old.widen gap), true)
      else widenLoop gaps gap i

/-- `srp_gaps_add` -/
def srpGapsAdd (gaps : List SrpGap) (gap : SrpGap) : List SrpGap × Bool :=
  if boundedName gap.name = false ∨ gaps.length > srpMaxGaps then (gaps, false)
  else if gaps.length < srpMaxGaps then (gaps ++ [gap], true)
  else
    match widenLoop gaps gap gaps.length with
    | some result => result
    | none        =>
      match gaps.findIdx? SrpGap.acked with
      | some i => (gaps.set i gap, true)
      | none   => (gaps, false)

/-! ### Runs -/

inductive GapEvent where
  | add (gap : SrpGap)
  | ack (i : Nat)

/-- The list, with the gaps whose adds returned true and the records as they were when they were acknowledged. -/
structure GapTrace where
  gaps : List SrpGap := []
  reported : List SrpGap := []
  acknowledged : List SrpGap := []
deriving DecidableEq

def GapTrace.step (trace : GapTrace) : GapEvent → GapTrace
  | .add gap =>
    let (gaps, added) := srpGapsAdd trace.gaps gap
    { trace with gaps, reported := if added then trace.reported ++ [gap] else trace.reported }
  | .ack i   =>
    match trace.gaps[i]? with
    | none     => trace
    | some gap =>
      { trace with gaps := trace.gaps.set i gap.ack, acknowledged := trace.acknowledged ++ [gap] }

def GapTrace.run (trace : GapTrace) (events : List GapEvent) : GapTrace := events.foldl GapTrace.step trace

/-- The record covers a byte of a gap, for the same file and run. -/
structure SrpGap.Covers (r gap : SrpGap) (byte : Nat) : Prop where
  file : r.file = gap.file
  generation : r.generation = gap.generation
  offset_le : r.offset.toNat ≤ byte
  lt_stop : byte < r.stop

/-! ### One record -/

namespace SrpGap

variable {old gap r r' : SrpGap} {byte : Nat}

lemma acked_widen (old gap : SrpGap) : (old.widen gap).acked = old.acked := by
  have hall : ∀ flags : BitVec 8, (((⟨flags⟩ ||| srpGapMerged) &&& srpRecordAcked : UInt8) != 0) =
      ((⟨flags⟩ &&& srpRecordAcked : UInt8) != 0) := by decide +kernel
  exact hall old.flags.toBitVec

lemma Covers.trans (h : r.Covers gap byte) (hsame : r'.Covers r byte) : r'.Covers gap byte :=
  ⟨hsame.file.trans h.file, hsame.generation.trans h.generation, hsame.offset_le, hsame.lt_stop⟩

lemma offset_widen (old gap : SrpGap) : (old.widen gap).offset.toNat = old.joinedStart gap :=
  UInt32.toNat_ofNat_of_lt' (Nat.lt_of_le_of_lt (Nat.min_le_left _ _) old.offset.toNat_lt_size)

lemma stop_widen (h : ¬ old.joinedStop gap - old.joinedStart gap > 0xFFFFFFFF) :
    (old.widen gap).stop = old.joinedStop gap := by
  have hlength : (old.widen gap).length.toNat = old.joinedStop gap - old.joinedStart gap := by
    refine UInt32.toNat_ofNat_of_lt' ?_
    rw [show UInt32.size = 4294967296 from rfl]
    omega
  have hle : old.joinedStart gap ≤ old.joinedStop gap := by
    have hstart : old.joinedStart gap ≤ old.offset.toNat := Nat.min_le_left _ _
    have hstop : old.stop ≤ old.joinedStop gap := Nat.le_max_left _ _
    rw [stop] at hstop
    omega
  rw [stop, hlength, offset_widen]
  omega

/-- A widened record covers what it covered, and the range that it was widened by. -/
lemma covers_widen (htakes : old.takes gap = true)
    (hfits : ¬ old.joinedStop gap - old.joinedStart gap > 0xFFFFFFFF)
    (h : old.offset.toNat ≤ byte ∧ byte < old.stop ∨ gap.offset.toNat ≤ byte ∧ byte < gap.stop) :
    (old.widen gap).Covers old byte ∧ (old.widen gap).Covers gap byte := by
  have hsame : old.generation = gap.generation ∧ old.file = gap.file := by
    simp only [takes, Bool.not_eq_true', Bool.or_eq_false_iff, bne_eq_false_iff_eq] at htakes
    exact ⟨htakes.1.2, htakes.2⟩
  have hstart : (old.widen gap).offset.toNat ≤ byte := by
    rw [offset_widen, joinedStart]
    omega
  have hstop : byte < (old.widen gap).stop := by
    rw [stop_widen hfits, joinedStop]
    omega
  exact ⟨⟨rfl, rfl, hstart, hstop⟩, ⟨hsame.2, hsame.1, hstart, hstop⟩⟩

end SrpGap

/-! ### The list -/

/-- What a call of `srp_gaps_add` did. -/
inductive Added (gaps : List SrpGap) (gap : SrpGap) : List SrpGap × Bool → Prop
  | refused : Added gaps gap (gaps, false)
  | appended (hroom : gaps.length < srpMaxGaps) : Added gaps gap (gaps ++ [gap], true)
  | widened {i : Nat} {old : SrpGap} (hold : gaps[i]? = some old) (htakes : old.takes gap = true)
      (hfits : ¬ old.joinedStop gap - old.joinedStart gap > 0xFFFFFFFF) :
      Added gaps gap (gaps.set i (old.widen gap), true)
  | replaced {i : Nat} {old : SrpGap} (hold : gaps[i]? = some old) (hacked : old.acked = true) :
      Added gaps gap (gaps.set i gap, true)

lemma added_of_widenLoop {gaps : List SrpGap} {gap : SrpGap} {i : Nat} {result : List SrpGap × Bool}
    (h : widenLoop gaps gap i = some result) : Added gaps gap result := by
  induction i with
  | zero => cases h
  | succ i ih =>
    rw [widenLoop] at h
    split at h
    · exact ih h
    · rename_i old hold
      split_ifs at h with htakes hfits
      · cases h
        exact .refused
      · cases h
        exact .widened hold htakes hfits
      · exact ih h

lemma added_srpGapsAdd (gaps : List SrpGap) (gap : SrpGap) : Added gaps gap (srpGapsAdd gaps gap) := by
  rw [srpGapsAdd]
  split_ifs with hinvalid hroom
  · exact .refused
  · exact .appended hroom
  · cases hwiden : widenLoop gaps gap gaps.length with
    | some result => exact added_of_widenLoop hwiden
    | none =>
      cases hfree : gaps.findIdx? SrpGap.acked with
      | none => exact .refused
      | some i =>
        obtain ⟨hi, hacked, -⟩ := List.findIdx?_eq_some_iff_getElem.mp hfree
        exact .replaced (List.getElem?_eq_getElem hi) hacked

lemma length_of_added {gaps : List SrpGap} {gap : SrpGap} {result : List SrpGap × Bool} (h : Added gaps gap result)
    (hle : gaps.length ≤ srpMaxGaps) : result.1.length ≤ srpMaxGaps := by
  cases h with
  | refused => exact hle
  | appended hroom =>
    rw [List.length_append]
    exact hroom
  | widened => simpa using hle
  | replaced => simpa using hle

lemma eq_of_added {gaps : List SrpGap} {gap : SrpGap} {result : List SrpGap × Bool} (h : Added gaps gap result)
    (hfalse : result.2 = false) : result.1 = gaps := by
  cases h with
  | refused => rfl
  | appended => cases hfalse
  | widened => cases hfalse
  | replaced => cases hfalse

/-- What is set in a list, and what stays. -/
lemma mem_set_of_ne {gaps : List SrpGap} {i : Nat} {old new r : SrpGap} (hold : gaps[i]? = some old) (hr : r ∈ gaps)
    (hne : r ≠ old) : r ∈ gaps.set i new := by
  obtain ⟨j, hj⟩ := List.mem_iff_getElem?.mp hr
  have hij : i ≠ j := by
    rintro rfl
    exact hne (Option.some.inj (hj.symm.trans hold))
  exact List.mem_of_getElem? ((List.getElem?_set_ne hij).trans hj)

lemma mem_set_self {gaps : List SrpGap} {i : Nat} {old : SrpGap} (hold : gaps[i]? = some old) (new : SrpGap) :
    new ∈ gaps.set i new :=
  List.mem_set (List.getElem?_eq_some_iff.mp hold).1 new

/-- A byte is covered by a record that waits for its acknowledgement. -/
def OpenCovers (gaps : List SrpGap) (gap : SrpGap) (byte : Nat) : Prop :=
  ∃ r ∈ gaps, r.acked = false ∧ r.Covers gap byte

/-- An add keeps what is covered. -/
lemma OpenCovers.added {gaps : List SrpGap} {gap other : SrpGap} {byte : Nat} {result : List SrpGap × Bool}
    (h : OpenCovers gaps other byte) (hadded : Added gaps gap result) : OpenCovers result.1 other byte := by
  obtain ⟨r, hr, hopen, hcovers⟩ := h
  cases hadded with
  | refused => exact ⟨r, hr, hopen, hcovers⟩
  | appended => exact ⟨r, List.mem_append_left _ hr, hopen, hcovers⟩
  | @widened i old hold htakes hfits =>
    by_cases heq : r = old
    · subst heq
      have hwiden := (SrpGap.covers_widen htakes hfits (.inl ⟨hcovers.offset_le, hcovers.lt_stop⟩)).1
      exact ⟨_, mem_set_self hold _, (SrpGap.acked_widen r gap).trans hopen, hcovers.trans hwiden⟩
    · exact ⟨r, mem_set_of_ne hold hr heq, hopen, hcovers⟩
  | @replaced i old hold hacked =>
    have hne : r ≠ old := by
      rintro rfl
      rw [hopen] at hacked
      cases hacked
    exact ⟨r, mem_set_of_ne hold hr hne, hopen, hcovers⟩

/-- An add that returns true covers the gap, unless it came as an acknowledged one. -/
lemma openCovers_of_added {gaps : List SrpGap} {gap : SrpGap} {byte : Nat} {result : List SrpGap × Bool}
    (hadded : Added gaps gap result) (htrue : result.2 = true) (hopen : gap.acked = false)
    (hbyte : gap.offset.toNat ≤ byte ∧ byte < gap.stop) : OpenCovers result.1 gap byte := by
  have hself : gap.Covers gap byte := ⟨rfl, rfl, hbyte.1, hbyte.2⟩
  cases hadded with
  | refused => cases htrue
  | appended => exact ⟨gap, by simp, hopen, hself⟩
  | @widened i old hold htakes hfits =>
    have hold' : old.acked = false := by
      simp only [SrpGap.takes, Bool.not_eq_true', Bool.or_eq_false_iff] at htakes
      exact htakes.1.1
    exact ⟨_, mem_set_self hold _, (SrpGap.acked_widen old gap).trans hold',
      (SrpGap.covers_widen htakes hfits (.inr hbyte)).2⟩
  | @replaced i old hold hacked => exact ⟨gap, mem_set_self hold _, hopen, hself⟩

/-! ### Whole runs -/

/-- A byte of a gap is covered by a record that waits for its acknowledgement, or was when the record got it. -/
def GapTrace.Covered (trace : GapTrace) (gap : SrpGap) (byte : Nat) : Prop :=
  OpenCovers trace.gaps gap byte ∨ ∃ r ∈ trace.acknowledged, r.Covers gap byte

structure GapTrace.Sound (trace : GapTrace) : Prop where
  length_le : trace.gaps.length ≤ srpMaxGaps
  covered : ∀ gap ∈ trace.reported, gap.acked = false → ∀ byte, gap.offset.toNat ≤ byte → byte < gap.stop →
    trace.Covered gap byte

lemma GapTrace.Covered.step {trace : GapTrace} {gap : SrpGap} {byte : Nat} (h : trace.Covered gap byte)
    (event : GapEvent) : (trace.step event).Covered gap byte := by
  cases event with
  | add other =>
    rcases h with hopen | hacked
    · exact .inl (hopen.added (added_srpGapsAdd trace.gaps other))
    · exact .inr hacked
  | ack i =>
    rw [GapTrace.step]
    split
    · exact h
    · rename_i r hr
      rcases h with ⟨r', hr', hopen, hcovers⟩ | ⟨r', hr', hcovers⟩
      · by_cases heq : r' = r
        · -- The record that covers the byte is acknowledged now.
          subst heq
          exact .inr ⟨r', by simp, hcovers⟩
        · exact .inl ⟨r', mem_set_of_ne hr hr' heq, hopen, hcovers⟩
      · exact .inr ⟨r', List.mem_append_left _ hr', hcovers⟩

lemma GapTrace.Sound.step {trace : GapTrace} (h : trace.Sound) (event : GapEvent) : (trace.step event).Sound := by
  cases event with
  | add gap =>
    have hadded := added_srpGapsAdd trace.gaps gap
    refine ⟨length_of_added hadded h.length_le, ?_⟩
    intro other hother hopen byte hstart hstop
    cases htrue : (srpGapsAdd trace.gaps gap).2 with
    | false =>
      have hother : other ∈ trace.reported := by simpa [GapTrace.step, htrue] using hother
      exact (h.covered other hother hopen byte hstart hstop).step (.add gap)
    | true =>
      have hother : other ∈ trace.reported ∨ other = gap := by simpa [GapTrace.step, htrue] using hother
      rcases hother with hother | rfl
      · exact (h.covered other hother hopen byte hstart hstop).step (.add gap)
      · exact .inl (openCovers_of_added hadded htrue hopen ⟨hstart, hstop⟩)
  | ack i =>
    have hreported : (trace.step (.ack i)).reported = trace.reported := by
      rw [GapTrace.step]
      split <;> rfl
    have hlength : (trace.step (.ack i)).gaps.length = trace.gaps.length := by
      rw [GapTrace.step]
      split
      · rfl
      · exact List.length_set
    refine ⟨hlength ▸ h.length_le, ?_⟩
    rw [hreported]
    intro gap hgap hopen byte hstart hstop
    exact (h.covered gap hgap hopen byte hstart hstop).step (.ack i)

lemma GapTrace.Sound.run {trace : GapTrace} (h : trace.Sound) (events : List GapEvent) : (trace.run events).Sound := by
  induction events generalizing trace with
  | nil => exact h
  | cons event events ih => exact ih (h.step event)

lemma GapTrace.sound_empty : ({} : GapTrace).Sound := ⟨Nat.zero_le _, nofun⟩

/-- After every run, each byte of a gap that was taken, and was not given as an acknowledged one, is covered by a record
that waits for its acknowledgement, or was when the record got it. -/
theorem gaps_covered (events : List GapEvent) :
    let trace := ({} : GapTrace).run events
    (∀ gap ∈ trace.reported, gap.acked = false → ∀ byte, gap.offset.toNat ≤ byte → byte < gap.stop →
      (∃ r ∈ trace.gaps, r.acked = false ∧ r.Covers gap byte) ∨ ∃ r ∈ trace.acknowledged, r.Covers gap byte) ∧
    (∀ gap, (srpGapsAdd trace.gaps gap).2 = false → (srpGapsAdd trace.gaps gap).1 = trace.gaps) ∧
    trace.gaps.length ≤ srpMaxGaps := by
  intro trace
  have hsound : trace.Sound := GapTrace.sound_empty.run events
  exact ⟨hsound.covered, fun gap => eq_of_added (added_srpGapsAdd trace.gaps gap), hsound.length_le⟩

/-- A gap that is given as an acknowledged one is stored so, and no acknowledgement covers it. -/
theorem gap_acked_from_start : ∃ gap : SrpGap, ∃ byte, gap.offset.toNat ≤ byte ∧ byte < gap.stop ∧
    gap ∈ (({} : GapTrace).run [.add gap]).reported ∧
    ¬ ((∃ r ∈ (({} : GapTrace).run [.add gap]).gaps, r.acked = false ∧ r.Covers gap byte) ∨
      ∃ r ∈ (({} : GapTrace).run [.add gap]).acknowledged, r.Covers gap byte) := by
  let gap : SrpGap := ⟨[0x2F, 0x61, 0], 1, 1, srpRecordAcked, 0, 0, 0, 10, 10, 1⟩
  have htrace : ({} : GapTrace).run [.add gap] = ⟨[gap], [gap], []⟩ := by decide
  refine ⟨gap, 0, by decide, by decide, ?_, ?_⟩
  · rw [htrace]
    exact List.mem_singleton_self gap
  · rw [htrace]
    rintro (⟨r, hr, hopen, -⟩ | ⟨r, hr, -⟩)
    · obtain rfl := List.mem_singleton.mp hr
      exact absurd hopen (by decide)
    · cases hr

end ZoneLite
