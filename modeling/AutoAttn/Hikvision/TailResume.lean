import Mathlib.Data.List.Dedup
import AutoAttn.Hikvision.Job
import AutoAttn.Spans

/-!
# Where a tail resumes

The poll of a terminal reads its serials in order, so a serial whose next one is missing marks a place
where the poll was restarted. A new tail starts at the newest such break, or further on where earlier
tails have read without a gap.
-/

namespace Hikvision

variable {D T : Type}

/-- `TAIL_LISTED_BREAKS` -/
def tailListedBreaks : Nat := 5

/-- A `ReconciliationJob` joined with its `HikvisionReconciliationState`. -/
structure JobRow (D : Type) where
  job : Job D
  sourceEpoch : String
  data : Option (Data D)

section Resume

variable (policy : String × String) (c : Custody D T) (jobs : List (JobRow D))

/-- The serials of the POLL channel. -/
def pollSerials : List Int := (c.rows.filter (pollCustody policy)).filterMap (·.sourceEventId)

/-- `_poll_breaks` -/
def pollBreaks : Option Int × List Int :=
  let serials := pollSerials policy c
  match serials.max? with
  | none     => (none, [])
  | some top =>
    if top = 0 then (none, [])
    else
      let breaks := (serials.filter fun s => s < top ∧ s + 1 ∉ serials).dedup
      (some top, (breaks.insertionSort (· ≥ ·)).take (tailListedBreaks + 1))

/-- The span of an earlier tail of the same source. -/
def tailSpan (row : JobRow D) : Option (Int × Int) :=
  match row.data with
  | some { scope := .recentTail tail, .. } =>
    match tail.lastSerial with
    | some last =>
      if row.job.serialHistory ∧ row.sourceEpoch = policy.2 ∧ row.job.terminalSerial = policy.1 ∧
          0 < tail.beginSerial ∧ tail.beginSerial ≤ last then some (tail.beginSerial, last)
      else none
    | none => none
  | _ => none

def tailSpans : List (Int × Int) := jobs.filterMap (tailSpan policy)

/-- The order of tuples. -/
def spanLe (s t : Int × Int) : Prop := s.1 < t.1 ∨ s.1 = t.1 ∧ s.2 ≤ t.2

instance : DecidableRel spanLe := fun s t =>
  inferInstanceAs (Decidable (s.1 < t.1 ∨ s.1 = t.1 ∧ s.2 ≤ t.2))

/-- `_tail_resume` -/
def tailResume : Option Int × List Int × Option Int :=
  match pollBreaks policy c with
  | (none, _)          => (none, [], none)
  | (some top, breaks) =>
    let best := ((tailSpans policy jobs).insertionSort spanLe).foldl
      (fun best span => if span.1 ≤ best + 1 ∧ best < span.2 then span.2 else best)
      (breaks.head?.getD top)
    (some best, (breaks.tail.filter (· < best)).take tailListedBreaks, some top)

end Resume

/-! ### Breaks -/

variable {policy : String × String} {c : Custody D T} {jobs : List (JobRow D)}

/-- A serial of the poll below the newest one whose next one is missing. -/
def IsBreak (policy : String × String) (c : Custody D T) (top s : Int) : Prop :=
  s ∈ pollSerials policy c ∧ s + 1 ∉ pollSerials policy c ∧ s < top

/-- Where a resume starts: the newest break, or the newest serial. -/
def StartsAt (policy : String × String) (c : Custody D T) (top start : Int) : Prop :=
  IsGreatest {s | IsBreak policy c top s} start ∨ (∀ s, ¬IsBreak policy c top s) ∧ start = top

/-- Serials are positive: `normalize_observation` lets no other pass. -/
def Custody.Stable (c : Custody D T) : Prop := ∀ e ∈ c.rows, ∀ s ∈ e.sourceEventId, 1 ≤ s

lemma Custody.Stable.pos (h : c.Stable) {s : Int} (hs : s ∈ pollSerials policy c) : 1 ≤ s := by
  simp only [pollSerials, List.mem_filterMap, List.mem_filter] at hs
  obtain ⟨e, ⟨he, -⟩, hes⟩ := hs
  exact h e he s hes

lemma pollBreaks_spec (hstable : c.Stable) (hne : pollSerials policy c ≠ []) :
    ∃ top breaks, pollBreaks policy c = (some top, breaks) ∧
      IsGreatest {s | s ∈ pollSerials policy c} top ∧
      (∀ s ∈ breaks, IsBreak policy c top s) ∧ StartsAt policy c top (breaks.head?.getD top) := by
  obtain ⟨top, htop⟩ := Option.ne_none_iff_exists'.1 (mt List.max?_eq_none_iff.1 hne)
  have hmax := List.max?_eq_some_iff.1 htop
  have hpos := hstable.pos hmax.1
  obtain ⟨breaks, hbreaks⟩ : ∃ breaks, breaks = ((pollSerials policy c).filter
    fun s => s < top ∧ s + 1 ∉ pollSerials policy c).dedup.insertionSort (· ≥ ·) := ⟨_, rfl⟩
  have hmem : ∀ s, s ∈ breaks ↔ IsBreak policy c top s := by
    intro s
    rw [hbreaks, (List.perm_insertionSort _ _).mem_iff, List.mem_dedup]
    simp only [List.mem_filter, decide_eq_true_eq, IsBreak]
    tauto
  refine ⟨top, breaks.take (tailListedBreaks + 1), ?_, ⟨hmax.1, fun s hs => hmax.2 s hs⟩, ?_, ?_⟩
  · simp only [pollBreaks, htop]
    rw [if_neg (by omega), hbreaks]
  · intro s hs
    exact (hmem s).1 (List.mem_of_mem_take hs)
  · have hsorted : breaks.Pairwise (· ≥ ·) := hbreaks ▸ List.pairwise_insertionSort _ _
    cases hb : breaks with
    | nil =>
      refine .inr ⟨fun s hs => ?_, by simp⟩
      simpa [hb] using (hmem s).2 hs
    | cons first breaks' =>
      rw [hb] at hmem hsorted
      refine .inl ⟨(hmem first).1 List.mem_cons_self, fun s hs => ?_⟩
      rcases List.mem_cons.1 ((hmem s).2 hs) with rfl | hs
      · simp
      · simpa using (List.pairwise_cons.1 hsorted).1 s hs

/-! ### The order of the jobs -/

instance : Std.Total spanLe := ⟨fun s t => by unfold spanLe; omega⟩

instance : IsTrans (Int × Int) spanLe := ⟨fun s t u => by unfold spanLe; omega⟩

instance : Std.Antisymm spanLe := ⟨fun s t h h' => by
  unfold spanLe at h h'
  ext <;> omega⟩

/-- The pass over the spans in order does not depend on the order of the jobs. -/
lemma sorted_spans_perm {jobs' : List (JobRow D)} (h : jobs'.Perm jobs) :
    (tailSpans policy jobs').insertionSort spanLe = (tailSpans policy jobs).insertionSort spanLe := by
  have hperm : ((tailSpans policy jobs').insertionSort spanLe).Perm
      ((tailSpans policy jobs).insertionSort spanLe) :=
    (List.perm_insertionSort _ _).trans
      ((h.filterMap _).trans (List.perm_insertionSort _ _).symm)
  exact hperm.eq_of_pairwise' (List.pairwise_insertionSort _ _) (List.pairwise_insertionSort _ _)

/-- A step from a serial to the last one of an earlier tail that starts at the serial, before it, or
right behind it. -/
def Extends (policy : String × String) (jobs : List (JobRow D)) (b b' : Int) : Prop :=
  ∃ row ∈ jobs, ∃ first, tailSpan policy row = some (first, b') ∧ first ≤ b + 1 ∧ b < b'

/-- The resume point is the furthest serial that earlier tails lead to from the newest break. Every
serial up to it was read by one of them, the breaks listed are breaks before it, and the order of the
jobs does not matter. -/
theorem tailResume_is_maximal (policy : String × String) (c : Custody D T) (jobs : List (JobRow D))
    (hstable : c.Stable) (hne : pollSerials policy c ≠ []) :
    ∃ top start best earlier, tailResume policy c jobs = (some best, earlier, some top) ∧
      IsGreatest {s | s ∈ pollSerials policy c} top ∧ StartsAt policy c top start ∧
      IsGreatest {s | Relation.ReflTransGen (Extends policy jobs) start s} best ∧
      (∀ s, start < s → s ≤ best → ∃ row ∈ jobs, ∃ first last, tailSpan policy row = some (first, last) ∧
        first ≤ s ∧ s ≤ last) ∧
      (∀ s ∈ earlier, s ∈ pollSerials policy c ∧ s < best ∧ s + 1 ∉ pollSerials policy c) ∧
      ∀ jobs', jobs'.Perm jobs → tailResume policy c jobs' = tailResume policy c jobs := by
  obtain ⟨top, breaks, hbreaks, htop, hlisted, hstart⟩ := pollBreaks_spec hstable hne
  have hsorted : ((tailSpans policy jobs).insertionSort spanLe).Pairwise fun s t => s.1 ≤ t.1 := by
    refine (List.pairwise_insertionSort spanLe _).imp ?_
    rintro s t (h | h) <;> omega
  have hmem : ∀ span, span ∈ (tailSpans policy jobs).insertionSort spanLe ↔
      ∃ row ∈ jobs, tailSpan policy row = some span := by
    intro span
    rw [(List.perm_insertionSort _ _).mem_iff, tailSpans, List.mem_filterMap]
  have hmoves : Spans.Moves ((tailSpans policy jobs).insertionSort spanLe) = Extends policy jobs := by
    funext b b'
    simp only [Spans.Moves, Extends, hmem, eq_iff_iff]
    constructor
    · rintro ⟨first, ⟨row, hrow, hspan⟩, hfirst⟩
      exact ⟨row, hrow, first, hspan, hfirst⟩
    · rintro ⟨row, hrow, first, hspan, hfirst⟩
      exact ⟨first, ⟨row, hrow, hspan⟩, hfirst⟩
  obtain ⟨best, hdef⟩ : ∃ best, best =
    Spans.extend (breaks.head?.getD top) ((tailSpans policy jobs).insertionSort spanLe) := ⟨_, rfl⟩
  have hbest := hdef ▸ Spans.isGreatest_extend hsorted
  refine ⟨top, breaks.head?.getD top, best, (breaks.tail.filter (· < best)).take tailListedBreaks, ?_,
    htop, hstart, hmoves ▸ hbest, ?_, ?_, ?_⟩
  · rw [tailResume, hbreaks, hdef]
    rfl
  · intro s hlt hle
    obtain ⟨⟨first, last⟩, hspan, hs⟩ := Spans.covered_of_reaches hbest.1 s hlt hle
    obtain ⟨row, hrow, hspan⟩ := (hmem _).1 hspan
    exact ⟨row, hrow, first, last, hspan, hs⟩
  · intro s hs
    obtain ⟨hs, hlt⟩ := List.mem_filter.1 (List.mem_of_mem_take hs)
    obtain ⟨hin, hnext, -⟩ := hlisted s (List.mem_of_mem_tail hs)
    exact ⟨hin, of_decide_eq_true hlt, hnext⟩
  · intro jobs' hperm
    simp only [tailResume, sorted_spans_perm hperm]

/-! A poll that restarted after serial 3, and a tail that has read on from there. -/

def polled (serial : Int) : Evidence Unit Unit :=
  ⟨serial.toNat, "S", "E", (), some (), some (), some serial, .poll, .attendance, ()⟩

def tailJob (first last : Int) : JobRow Unit where
  job := ⟨"J", true, "S", .completed, .completed, false, none, none, none, none, 0, 0, none, none,
    none, none, none, none, none⟩
  sourceEpoch := "E"
  data := some
    { scope := .recentTail { anchorSerial := first, beginSerial := first, pollTopSerial := last,
                             lastSerial := some last }
      phase := .first }

theorem tailResume_is_maximal_polled :
    tailResume ("S", "E") (⟨[polled 2, polled 3, polled 9], 4⟩ : Custody Unit Unit)
        [tailJob 6 8, tailJob 4 5] = (some 8, [], some 9) ∧
      ∀ jobs', jobs'.Perm [tailJob 6 8, tailJob 4 5] →
        tailResume ("S", "E") (⟨[polled 2, polled 3, polled 9], 4⟩ : Custody Unit Unit) jobs' =
          (some 8, [], some 9) := by
  have hstable : Custody.Stable (⟨[polled 2, polled 3, polled 9], 4⟩ : Custody Unit Unit) := by
    simp [Custody.Stable, polled]
  have hresume : tailResume ("S", "E") (⟨[polled 2, polled 3, polled 9], 4⟩ : Custody Unit Unit)
      [tailJob 6 8, tailJob 4 5] = (some 8, [], some 9) := by decide
  obtain ⟨top, start, best, earlier, -, -, -, -, -, -, hperm⟩ := tailResume_is_maximal ("S", "E")
    (⟨[polled 2, polled 3, polled 9], 4⟩ : Custody Unit Unit) [tailJob 6 8, tailJob 4 5] hstable
    (by decide)
  exact ⟨hresume, fun jobs' h => (hperm jobs' h).trans hresume⟩

end Hikvision
