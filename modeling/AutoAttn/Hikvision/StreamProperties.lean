import Mathlib
import AutoAttn.Hikvision.Stream
import AutoAttn.Window

/-!
# What is read from a multipart stream

The decoder looks for the next delimiter in a window that holds one delimiter. A body that no delimiter
starts in leaves the window byte by byte and is handed to the callback as it was sent.
-/

namespace ZoneLite

open Bytes

variable {message : List UInt8 → Bool}

/-! ### One byte -/

lemma drainLoop_mono {k k' : Nat} {s : HikStream} {r : Bool × HikStream}
    (h : drainLoop message k s = some r) (hk : k ≤ k') : drainLoop message k' s = some r := by
  induction k generalizing k' s with
  | zero => cases h
  | succ k ih =>
    obtain ⟨k', rfl⟩ := Nat.exists_eq_add_of_le' (Nat.le_trans (Nat.succ_le_succ (Nat.zero_le k)) hk)
    have hk : k ≤ k' := by omega
    cases hs : s.state <;> simp only [drainLoop, hs] at h ⊢ <;> grind

/-- The loop of `drain` ends in as many turns as it has bytes to look at, and one. -/
lemma drain_eq {k : Nat} {s : HikStream} {r : Bool × HikStream}
    (h : drainLoop message k s = some r) (hk : k ≤ s.pending.length + 1) : drain message s = r := by
  rw [drain, drainLoop_mono h hk, Option.getD_some]

/-- The bytes are read without a failure. -/
def Feeds (message : List UInt8 → Bool) (s : HikStream) (data : List UInt8) (s' : HikStream) : Prop :=
  feedLoop message s data = (true, s')

lemma Feeds.nil (s : HikStream) : Feeds message s [] s := rfl

lemma feedLoop_append (s : HikStream) (xs ys : List UInt8) :
    feedLoop message s (xs ++ ys) = match feedLoop message s xs with
      | (false, s') => (false, s')
      | (true, s')  => feedLoop message s' ys := by
  induction xs generalizing s with
  | nil => rfl
  | cons b xs ih =>
    rw [List.cons_append, feedLoop, feedLoop]
    split_ifs with hdone
    · cases ys with
      | nil => rfl
      | cons c ys => simp [feedLoop, hdone]
    · rfl
    · split
      · rfl
      · exact ih _

lemma feeds_append {s s'' : HikStream} {xs ys : List UInt8} :
    Feeds message s (xs ++ ys) s'' ↔ ∃ s', Feeds message s xs s' ∧ Feeds message s' ys s'' := by
  unfold Feeds
  rw [feedLoop_append]
  rcases feedLoop message s xs with ⟨_ | _, s'⟩ <;> simp

namespace HikStream

/-- The decoder with other pending bytes. -/
def holding (s : HikStream) (pending : List UInt8) : HikStream := { s with pending := pending }

variable (s : HikStream) (pending : List UInt8)

@[simp] lemma holding_pending : (s.holding pending).pending = pending := rfl
@[simp] lemma holding_marker : (s.holding pending).marker = s.marker := rfl
@[simp] lemma holding_state : (s.holding pending).state = s.state := rfl
@[simp] lemma holding_body : (s.holding pending).body = s.body := rfl
@[simp] lemma holding_capture : (s.holding pending).capture = s.capture := rfl

@[simp] lemma holding_holding (pending' : List UInt8) :
    (s.holding pending).holding pending' = s.holding pending' := rfl

/-- The decoder with another body, if it captures one. -/
def keep (body : List UInt8) : HikStream := { s with body := if s.capture then body else s.body }

lemma keep_nil (hbody : s.body = []) (hpending : s.pending = []) : (s.keep []).holding [] = s := by
  cases s
  simp_all [keep, holding]

lemma keep_keep (body : List UInt8) (y : UInt8) :
    ((s.keep body).holding pending).keep (((s.keep body).holding pending).body ++ [y]) =
      (s.keep (body ++ [y])).holding pending := by
  by_cases hcap : s.capture <;> simp [keep, holding, hcap]

lemma append_eq_keep (h : s.capture → s.body.length < hikMessageMax) (y : UInt8) :
    s.append [y] = s.keep (s.body ++ [y]) := by
  unfold append keep
  by_cases hcap : s.capture
  · have := h hcap
    simp [hcap]
    omega
  · rw [if_pos (by simp [hcap]), if_neg hcap]

lemma consume_eq (n : Nat) : s.consume n = s.holding (s.pending.drop n) := rfl

end HikStream

/-- One byte is put into the pending bytes and they are looked at. -/
lemma feeds_byte {k : Nat} {s s' : HikStream} {b : UInt8} (hdone : s.state ≠ .done)
    (hroom : s.pending.length < hikHeadersMax + hikBoundaryMax + 7) (hk : k ≤ s.pending.length + 2)
    (h : drainLoop message k (s.holding (s.pending ++ [b])) = some (true, s')) :
    Feeds message s [b] s' := by
  have hdrain : drain message { s with pending := s.pending ++ [b] } = (true, s') :=
    drain_eq h (by simpa using hk)
  rw [Feeds, feedLoop, if_neg hdone, if_neg (by omega), hdrain]
  rfl

lemma drainLoop_ne_failed {k : Nat} {s s' : HikStream}
    (h : drainLoop message k s = some (true, s')) : s'.state ≠ .failed := by
  induction k generalizing s with
  | zero => cases h
  | succ k ih => cases hs : s.state <;> simp only [drainLoop, hs] at h <;> grind

lemma drain_ne_failed {s s' : HikStream} (h : drain message s = (true, s')) : s'.state ≠ .failed := by
  unfold drain at h
  cases hloop : drainLoop message (s.pending.length + 1) s with
  | none =>
    rw [hloop] at h
    cases h
  | some r =>
    rw [hloop, Option.getD_some] at h
    exact drainLoop_ne_failed (h ▸ hloop)

lemma Feeds.ne_failed {s s' : HikStream} {data : List UInt8} (h : Feeds message s data s')
    (hs : s.state ≠ .failed) : s'.state ≠ .failed := by
  induction data generalizing s with
  | nil =>
    cases h
    exact hs
  | cons b data ih =>
    rw [Feeds, feedLoop] at h
    split_ifs at h with hdone hfull
    · cases h
      exact hs
    · cases h
    · split at h
      · cases h
      · rename_i hdrain
        exact ih h (drain_ne_failed hdrain)

/-! ### Looking for a delimiter -/

/-- A text without `c` that stands in a text with `c` stands before it or after it. -/
lemma before_or_after {c : UInt8} {before after left word right : List UInt8}
    (h : before ++ c :: after = left ++ (word ++ right)) (hc : c ∉ word) :
    left ++ word <+: before ∨ before ++ [c] <+: left := by
  rw [List.append_eq_append_iff] at h
  obtain ⟨l, rfl, h⟩ | ⟨l, rfl, h⟩ := h
  · cases l with
    | nil =>
      cases word with
      | nil => exact .inl (by simp)
      | cons d word =>
        simp only [List.nil_append, List.cons_append, List.cons.injEq] at h
        exact absurd (h.1 ▸ List.mem_cons_self) hc
    | cons d l =>
      obtain ⟨rfl, -⟩ := List.cons.inj h
      exact .inr ⟨l, by simp⟩
  · rw [List.append_eq_append_iff] at h
    obtain ⟨r, rfl, -⟩ | ⟨r, rfl, h⟩ := h
    · exact .inl ⟨r, by simp⟩
    · cases r with
      | nil => exact .inl (by simp)
      | cons d r =>
        obtain ⟨rfl, -⟩ := List.cons.inj h
        exact absurd (by simp) hc

/-- What stands after `CRLF--b`: at the end of the stream or before a part. -/
def ending (last : Bool) : List UInt8 := if last then dashes else crlf

@[simp] lemma length_ending (last : Bool) : (ending last).length = 2 := by cases last <;> rfl

namespace HikStream

/-- The decoder after a delimiter. -/
def past (s : HikStream) (b : List UInt8) (last : Bool) : HikStream :=
  if last then { s.holding (dashes ++ b ++ dashes) with state := .done }
  else { s.holding [] with state := .headers }

/-- The callback's call when a captured part ends. -/
def handOver (s : HikStream) : HikStream :=
  if s.capture then { s with delivered := s.delivered ++ [s.body], messages := s.messages + 1 } else s

/-- The decoder at the end of a body. -/
def endBody (s : HikStream) : HikStream := { s.handOver with state := .boundary }

lemma handOver_marker (s : HikStream) : s.handOver.marker = s.marker := by
  unfold handOver
  split_ifs <;> rfl

lemma handOver_holding (s : HikStream) (pending : List UInt8) :
    (s.holding pending).handOver = s.handOver.holding pending := by
  unfold handOver
  by_cases hcap : s.capture
  · simp only [holding_capture, hcap]
    rfl
  · simp only [holding_capture, hcap]
    rfl

lemma endBody_holding_past (s : HikStream) (b pending pending' : List UInt8) (last : Bool) :
    ((s.holding pending).endBody.holding pending').past b last = s.handOver.past b last := by
  rw [endBody, handOver_holding]
  cases last <;> rfl

/-- The decoder reads a stream with the boundary `b`. -/
structure Reading (s : HikStream) (b : List UInt8) : Prop where
  marker : s.marker = crlf ++ dashes ++ b
  bound : b.length ≤ hikBoundaryMax

end HikStream

section
variable {b : List UInt8} {s : HikStream}

namespace HikStream.Reading

lemma of_marker (h : s.Reading b) {s' : HikStream} (hs : s'.marker = s.marker) : s'.Reading b :=
  ⟨hs.trans h.marker, h.bound⟩

lemma holding (h : s.Reading b) (pending : List UInt8) : (s.holding pending).Reading b := h.of_marker rfl

lemma keep_holding (h : s.Reading b) (body pending : List UInt8) :
    ((s.keep body).holding pending).Reading b := h.of_marker rfl

lemma length_marker (h : s.Reading b) : s.marker.length = b.length + 4 := by
  simp [h.marker, crlf, dashes]

lemma drop_marker (h : s.Reading b) : s.marker.drop 2 = dashes ++ b := by simp [h.marker, crlf]

/-- The pending bytes of `BOUNDARY` and `BODY` have room for one more. -/
lemma room (h : s.Reading b) (hp : s.pending.length < b.length + 6) :
    s.pending.length < hikHeadersMax + hikBoundaryMax + 7 := by
  have := h.bound
  simp only [hikHeadersMax, hikBoundaryMax] at *
  omega

end HikStream.Reading

lemma drainLoop_boundary (h : s.Reading b) (hs : s.state = .boundary) (k : Nat) :
    drainLoop message (k + 1) s =
      if s.pending.length < b.length + 4 then some (true, s)
      else if s.pending.take (b.length + 2) ≠ dashes ++ b then drainLoop message k (s.consume 1)
      else if slice s.pending (b.length + 2) 2 = dashes then some (true, { s with state := .done })
      else if slice s.pending (b.length + 2) 2 ≠ crlf then some (false, s)
      else drainLoop message k { s.consume (b.length + 4) with state := .headers } := by
  simp only [drainLoop, hs, h.length_marker, h.drop_marker,
    show b.length + 4 - 2 = b.length + 2 from rfl]

/-- The window of `BOUNDARY` holds `--b` and two bytes. -/
lemma feeds_boundary_short (h : s.Reading b) (hs : s.state = .boundary)
    (hshort : s.pending.length + 1 < b.length + 4) (x : UInt8) :
    Feeds message s [x] (s.holding (s.pending ++ [x])) := by
  refine feeds_byte (k := 1) (by simp [hs]) (h.room (by omega)) (by omega) ?_
  rw [drainLoop_boundary (h.holding (s.pending ++ [x])) hs, if_pos (by simpa using hshort)]

lemma feeds_boundary_slide (h : s.Reading b) (hs : s.state = .boundary) {y : UInt8}
    {window : List UInt8} (hp : s.pending = y :: window) (hfull : window.length + 2 = b.length + 4)
    (hne : s.pending.take (b.length + 2) ≠ dashes ++ b) (x : UInt8) :
    Feeds message s [x] (s.holding (window ++ [x])) := by
  have htake : (s.pending ++ [x]).take (b.length + 2) ≠ dashes ++ b := by
    rwa [List.take_append_of_le_length (by simp [hp]; omega)]
  refine feeds_byte (k := 2) (by simp [hs]) (h.room (by simp [hp]; omega)) (by omega) ?_
  rw [drainLoop_boundary (h.holding (s.pending ++ [x])) hs, if_neg (by simp [hp]; omega),
    HikStream.holding_pending, if_pos htake, HikStream.consume_eq, HikStream.holding_holding, HikStream.holding_pending, hp]
  rw [show (y :: window ++ [x]).drop 1 = window ++ [x] from rfl,
    drainLoop_boundary (h.holding (window ++ [x])) hs, if_pos (by simp; omega)]

/-- The turns of `drain` that take a delimiter. -/
lemma drainLoop_delimiter (h : s.Reading b) (hs : s.state = .boundary) {last : Bool}
    (hp : s.pending = dashes ++ b ++ ending last) : drainLoop message 2 s = some (true, s.past b last) := by
  have hlen : (dashes ++ b).length = b.length + 2 := by simp [dashes]
  have htake : s.pending.take (b.length + 2) = dashes ++ b := by
    rw [hp, ← hlen, List.take_left]
  have hslice : slice s.pending (b.length + 2) 2 = ending last := by
    rw [hp, ← hlen, slice, List.drop_left, ← length_ending last, List.take_length]
  have hdrop : s.pending.drop (b.length + 4) = [] := by
    rw [List.drop_eq_nil_iff, hp]
    simp [dashes]
  rw [drainLoop_boundary h hs, if_neg (by simp [hp, dashes]), if_neg (not_not.2 htake), hslice]
  cases last with
  | true =>
    have hp : dashes ++ b ++ dashes = s.pending := hp.symm
    rw [if_pos (by decide), HikStream.past, if_pos rfl, hp]
    rfl
  | false =>
    rw [if_neg (by decide), if_neg (by decide), HikStream.consume_eq, hdrop]
    rfl

lemma drainLoop_body (h : s.Reading b) (hs : s.state = .body) (hm : ∀ body, message body = true)
    (k : Nat) :
    drainLoop message (k + 1) s =
      if s.pending.length < b.length + 6 then some (true, s)
      else if ∃ last, s.pending.take (b.length + 6) = s.marker ++ ending last then
        drainLoop message k (s.endBody.holding (s.pending.drop 2))
      else drainLoop message k ((s.append (s.pending.take 1)).consume 1) := by
  simp only [drainLoop, hs, h.length_marker, hm]
  by_cases hlen : s.pending.length < b.length + 6
  · rw [if_pos hlen, if_pos hlen]
  · have hiff : (s.pending.take (b.length + 4) = s.marker ∧
        (slice s.pending (b.length + 4) 2 = crlf ∨ slice s.pending (b.length + 4) 2 = dashes)) ↔
        ∃ last, s.pending.take (b.length + 6) = s.marker ++ ending last := by
      have htake : s.pending.take (b.length + 6) =
          s.pending.take (b.length + 4) ++ slice s.pending (b.length + 4) 2 :=
        List.take_add (i := b.length + 4) (j := 2)
      have hmark : (s.pending.take (b.length + 4)).length = s.marker.length := by
        rw [h.length_marker, List.length_take]
        omega
      rw [htake]
      constructor
      · rintro ⟨hmarker, hcrlf | hdashes⟩
        · exact ⟨false, congrArg₂ _ hmarker hcrlf⟩
        · exact ⟨true, congrArg₂ _ hmarker hdashes⟩
      · rintro ⟨last, h⟩
        obtain ⟨hmarker, hending⟩ := List.append_inj h hmark
        cases last with
        | false => exact ⟨hmarker, .inl hending⟩
        | true => exact ⟨hmarker, .inr hending⟩
    rw [if_neg hlen, if_neg hlen]
    simp only [hiff, HikStream.endBody, HikStream.handOver]
    by_cases hcap : s.capture
    · simp [hcap, HikStream.consume, HikStream.holding]
    · simp [hcap, HikStream.consume, HikStream.holding]

/-- What has passed the window of `BODY` is the body so far, if it is captured. -/
lemma feeds_body_short (h : s.Reading b) (hs : s.state = .body) (hm : ∀ body, message body = true)
    (hshort : s.pending.length + 1 < b.length + 6) (x : UInt8) :
    Feeds message s [x] (s.holding (s.pending ++ [x])) := by
  refine feeds_byte (k := 1) (by simp [hs]) (h.room (by omega)) (by omega) ?_
  rw [drainLoop_body (h.holding (s.pending ++ [x])) hs hm, if_pos (by simpa using hshort)]

lemma feeds_body_slide (h : s.Reading b) (hs : s.state = .body) (hm : ∀ body, message body = true)
    (hbody : s.capture → s.body.length < hikMessageMax) {y : UInt8} {window : List UInt8}
    (hp : s.pending = y :: window) (hfull : window.length + 2 = b.length + 6) {x : UInt8}
    (hne : ∀ last, y :: window ++ [x] ≠ s.marker ++ ending last) :
    Feeds message s [x] ((s.keep (s.body ++ [y])).holding (window ++ [x])) := by
  have hne : ¬ ∃ last, (s.pending ++ [x]).take (b.length + 6) = s.marker ++ ending last := by
    rintro ⟨last, h⟩
    rw [List.take_of_length_le (by simp [hp]; omega), hp] at h
    exact hne last h
  have hnext : (((s.holding (s.pending ++ [x])).append [y])).consume 1 =
      (s.keep (s.body ++ [y])).holding (window ++ [x]) := by
    rw [HikStream.append_eq_keep (s.holding (s.pending ++ [x])) hbody, hp]
    rfl
  refine feeds_byte (k := 2) (by simp [hs]) (h.room (by simp [hp]; omega)) (by omega) ?_
  rw [drainLoop_body (h.holding (s.pending ++ [x])) hs hm, if_neg (by simp [hp]; omega),
    HikStream.holding_pending, HikStream.holding_marker, if_neg hne,
    show (s.pending ++ [x]).take 1 = [y] by simp [hp], hnext,
    drainLoop_body (s := (s.keep _).holding _) (h.of_marker rfl) hs hm, if_pos (by simp; omega)]

lemma feeds_body_end (h : s.Reading b) (hs : s.state = .body) (hm : ∀ body, message body = true)
    {last : Bool} {x y : UInt8} (hend : ending last = [x, y]) (hp : s.pending = s.marker ++ [x]) :
    Feeds message s [y] (s.handOver.past b last) := by
  have hlen : s.pending.length = b.length + 5 := by simp [hp, h.length_marker]
  have hall : s.pending ++ [y] = s.marker ++ ending last := by simp [hp, hend]
  refine feeds_byte (k := 3) (by simp [hs]) (h.room (by omega)) (by omega) ?_
  rw [hall, drainLoop_body (h.holding (s.marker ++ ending last)) hs hm,
    if_neg (by simp [h.length_marker]),
    if_pos ⟨last, List.take_of_length_le (by simp [h.length_marker])⟩]
  have hrest : (s.marker ++ ending last).drop 2 = dashes ++ b ++ ending last := by simp [h.marker, crlf]
  have hnext : ((s.holding (s.marker ++ ending last)).endBody.holding (dashes ++ b ++ ending last)).Reading b :=
    h.of_marker (HikStream.handOver_marker _)
  rw [HikStream.holding_pending, hrest, drainLoop_delimiter hnext rfl rfl,
    HikStream.endBody_holding_past]

/-! ### The phases of a stream -/

/-- Before a delimiter there is no `--b`. The CRLF in front of it cannot be a part of one, as the boundary
has no line breaks. -/
lemma take_ne_of_preamble (hbreak : ∀ c ∈ b, c ≠ 13 ∧ c ≠ 10) {preamble : List UInt8}
    (hpre : ¬ dashes ++ b <:+: preamble) {passed window : List UInt8} {x : UInt8}
    (hin : passed ++ window <+: preamble ++ crlf ++ (dashes ++ b) ++ [x])
    (hlong : b.length + 4 ≤ window.length) : window.take (b.length + 2) ≠ dashes ++ b := by
  intro htake
  have hlen := hin.length_le
  obtain ⟨rest, htext⟩ := hin
  rw [← List.take_append_drop (b.length + 2) window, htake] at htext
  have hno : ∀ c, c = 13 ∨ c = 10 → c ∉ dashes ++ b := by
    rintro c hc hmem
    obtain hd | hb := List.mem_append.1 hmem
    · rcases hc with rfl | rfl <;> exact absurd hd (by decide)
    · have := hbreak c hb
      tauto
  have hcr : preamble ++ 13 :: (10 :: (dashes ++ b) ++ [x]) =
      passed ++ ((dashes ++ b) ++ (window.drop (b.length + 2) ++ rest)) := by
    simpa [crlf] using htext.symm
  have hlf : (preamble ++ [13]) ++ 10 :: (dashes ++ b ++ [x]) =
      passed ++ ((dashes ++ b) ++ (window.drop (b.length + 2) ++ rest)) := by
    simpa using hcr
  obtain hbefore | hafter := before_or_after hcr (hno _ (.inl rfl))
  · obtain ⟨t, ht⟩ := hbefore
    exact hpre ⟨passed, t, ht⟩
  obtain hbetween | hbeyond := before_or_after hlf (hno _ (.inr rfl))
  · have := hbetween.length_le
    have := hafter.length_le
    simp [dashes] at *
    omega
  · have := hbeyond.length_le
    simp [crlf, dashes] at *
    omega

/-- Up to a delimiter nothing is kept. -/
lemma feeds_preamble (h : s.Reading b) (hs : s.state = .boundary) (hp : s.pending = [])
    (hbreak : ∀ c ∈ b, c ≠ 13 ∧ c ≠ 10) {preamble : List UInt8} (hpre : ¬ dashes ++ b <:+: preamble)
    (last : Bool) : Feeds message s (preamble ++ crlf ++ (dashes ++ b) ++ ending last) (s.past b last) := by
  obtain ⟨x, y, hend⟩ : ∃ x y, ending last = [x, y] := by cases last <;> exact ⟨_, _, rfl⟩
  set text := preamble ++ crlf ++ (dashes ++ b) ++ [x] with htext
  have hread : Feeds message s text (s.holding (dashes ++ b ++ [x])) := by
    have hreads := Window.reads (Feeds message) (fun _ window => s.holding window) text
      (show 2 ≤ b.length + 4 by omega) Feeds.nil (fun h₁ h₂ => feeds_append.2 ⟨_, h₁, h₂⟩)
      (fun _ window x _ hshort => feeds_boundary_short (h.holding window) hs hshort x)
      (fun passed c window x hin hfull => by
        refine feeds_boundary_slide (h.holding (c :: window)) hs rfl hfull ?_ x
        rw [List.append_assoc] at hin
        have hne := take_ne_of_preamble hbreak hpre hin (by simp; omega)
        rwa [List.take_append_of_le_length (by simp; omega)] at hne)
    have hdrop : text.drop (text.length + 1 - (b.length + 4)) = dashes ++ b ++ [x] := by
      have : text.length + 1 - (b.length + 4) = (preamble ++ crlf).length := by
        simp [htext, crlf, dashes]
        omega
      rw [this, htext, List.append_assoc, List.drop_left]
    rw [hdrop] at hreads
    have hself : s.holding [] = s := by rw [← hp]; rfl
    rwa [hself] at hreads
  have hlast : Feeds message (s.holding (dashes ++ b ++ [x])) [y] (s.past b last) := by
    refine feeds_byte (k := 2) (by simp [hs]) ((h.holding _).room (by simp [dashes])) (by simp [dashes]) ?_
    have hall : dashes ++ b ++ [x] ++ [y] = dashes ++ b ++ ending last := by simp [hend]
    rw [HikStream.holding_pending, HikStream.holding_holding, hall,
      drainLoop_delimiter (h.holding (dashes ++ b ++ ending last)) hs rfl]
    cases last <;> rfl
  rw [hend, show preamble ++ crlf ++ (dashes ++ b) ++ [x, y] = text ++ [y] by simp [htext]]
  exact feeds_append.2 ⟨_, hread, hlast⟩

/-- A body that no delimiter starts in passes the window as it is. -/
lemma feeds_body (h : s.Reading b) (hs : s.state = .body) (hm : ∀ body, message body = true)
    (hp : s.pending = []) (hb : s.body = []) {body : List UInt8} (hlen : body.length ≤ hikMessageMax)
    {last : Bool} (hclean : ∀ i < body.length, ∀ last',
      ¬ s.marker ++ ending last' <+: (body ++ s.marker ++ ending last).drop i) :
    Feeds message s (body ++ s.marker ++ ending last) ((s.keep body).handOver.past b last) := by
  obtain ⟨x, y, hend⟩ : ∃ x y, ending last = [x, y] := by cases last <;> exact ⟨_, _, rfl⟩
  set text := body ++ s.marker ++ [x] with htext
  have hlong := h.length_marker
  have hread : Feeds message s text ((s.keep body).holding (s.marker ++ [x])) := by
    have hreads := Window.reads (Feeds message) (fun passed window => (s.keep passed).holding window) text
      (show 2 ≤ b.length + 6 by omega) Feeds.nil (fun h₁ h₂ => feeds_append.2 ⟨_, h₁, h₂⟩)
      (fun passed window x _ hshort =>
        feeds_body_short (h.keep_holding passed window) hs hm hshort x)
      (fun passed c window x hin hfull => by
        have hlt : passed.length < body.length := by
          have := hin.length_le
          simp [htext] at this
          omega
        have hslide := feeds_body_slide (h.keep_holding passed (c :: window)) hs
          hm (fun hcap => by simpa [HikStream.keep, show s.capture = true from hcap] using hlt.trans_le hlen)
          rfl hfull (x := x) (fun last' heq => hclean passed.length hlt last' ?_)
        · rwa [HikStream.keep_keep, HikStream.holding_holding] at hslide
        · have hin : passed ++ (s.marker ++ ending last') <+: text := by
            rw [List.append_assoc] at hin
            exact heq ▸ hin
          have hall : passed ++ (s.marker ++ ending last') <+: body ++ s.marker ++ ending last :=
            hin.trans ⟨[y], by simp [htext, hend]⟩
          simpa using hall.drop passed.length)
    have hstart : text.length + 1 - (b.length + 6) = body.length := by
      simp [htext]
      omega
    rw [hstart, show text.take body.length = body by simp [htext],
      show text.drop body.length = s.marker ++ [x] by simp [htext]] at hreads
    rwa [s.keep_nil hb hp] at hreads
  have hlast := feeds_body_end (h.keep_holding body (s.marker ++ [x])) hs hm hend rfl
  rw [HikStream.handOver_holding] at hlast
  rw [hend, show body ++ s.marker ++ [x, y] = text ++ [y] by simp [htext]]
  exact feeds_append.2 ⟨_, hread, hlast⟩

end

/-! ### The headers of a part -/

/-- A header block: lines and the blank line that ends it. -/
def headerBlock (lines : List (List UInt8)) : List UInt8 := lines.flatMap (· ++ crlf) ++ crlf

/-- A line of a header block. -/
structure HeaderLine (line : List UInt8) : Prop where
  ne_nil : line ≠ []
  no_break : ∀ c ∈ line, c ≠ 0 ∧ c ≠ 13 ∧ c ≠ 10

lemma headerBlock_cons (line : List UInt8) (lines : List (List UInt8)) :
    headerBlock (line :: lines) = line ++ 13 :: 10 :: headerBlock lines := by
  simp [headerBlock, crlf]

/-- A blank line comes only at the end. -/
lemma eq_headerBlock_of_blank {lines : List (List UInt8)} (hlines : ∀ line ∈ lines, HeaderLine line)
    {text : List UInt8} (h : text ++ (crlf ++ crlf) <+: headerBlock lines) :
    text ++ (crlf ++ crlf) = headerBlock lines := by
  induction lines generalizing text with
  | nil =>
    have := h.length_le
    simp [headerBlock, crlf] at this
  | cons line lines ih =>
    have hline := hlines line List.mem_cons_self
    obtain ⟨rest, hrest⟩ := h
    rw [headerBlock_cons] at hrest ⊢
    have hcr : text ++ 13 :: (10 :: 13 :: 10 :: rest) = line ++ 13 :: 10 :: headerBlock lines := by
      simpa [crlf] using hrest
    -- the line has no CR, so the blank line is not before its end
    obtain ⟨l, rfl, hl⟩ : ∃ l, text = line ++ l ∧
        13 :: 10 :: headerBlock lines = l ++ 13 :: 10 :: 13 :: 10 :: rest := by
      obtain ⟨_ | ⟨c, l⟩, hline', hl⟩ | h := List.append_eq_append_iff.1 hcr
      · exact ⟨[], by simpa using hline'.symm, hl.symm⟩
      · obtain rfl : 13 = c := (List.cons.inj hl).1
        exact absurd rfl (hline.no_break 13 (by simp [hline'])).2.1
      · exact h
    match l, hl with
    | [], hl =>
      -- the blank line follows this one, so there are no more
      cases lines with
      | nil => simp [headerBlock, crlf]
      | cons next lines =>
        have hnext := hlines next (by simp)
        obtain ⟨c, next, rfl⟩ := List.exists_cons_of_ne_nil hnext.ne_nil
        rw [headerBlock_cons] at hl
        obtain rfl : c = 13 := by
          simp only [List.cons_append, List.nil_append, List.cons.injEq] at hl
          exact hl.2.2.1
        exact absurd rfl (hnext.no_break 13 List.mem_cons_self).2.1
    | [c], hl => simp at hl
    | c :: d :: l, hl =>
      simp only [List.cons_append, List.cons.injEq] at hl
      obtain ⟨rfl, rfl, hl⟩ := hl
      have hblank : l ++ (crlf ++ crlf) <+: headerBlock lines := ⟨rest, by simp [hl, crlf]⟩
      have hrest := ih (fun line hline => hlines line (List.mem_cons_of_mem _ hline)) hblank
      simp [← hrest]

/-- Whether a part with these headers is captured: by its Content-Type, or without one as the event log. -/
def Captured (lines : List (List UInt8)) : Prop :=
  (∃ line ∈ lines, startsNoCase line contentType ∧ capturesType line) ∨
    (¬ ∃ line ∈ lines, startsNoCase line contentType) ∧
      ∃ line ∈ lines, line.map lower = eventLogLine.map lower

instance (lines : List (List UInt8)) : Decidable (Captured lines) :=
  inferInstanceAs (Decidable (_ ∨ _))

lemma crlfLines_append {acc line rest : List UInt8} (h : ∀ c ∈ line, c ≠ 13) :
    crlfLines acc (line ++ 13 :: 10 :: rest) = (acc ++ line) :: crlfLines [] rest := by
  induction line generalizing acc with
  | nil => simp [crlfLines]
  | cons c line ih =>
    have hc := h c List.mem_cons_self
    rw [List.cons_append, crlfLines, ih fun d hd => h d (List.mem_cons_of_mem c hd)]
    · simp
    · rintro t rfl
      exact absurd rfl hc

lemma crlfLines_headerBlock {lines : List (List UInt8)} (hlines : ∀ line ∈ lines, HeaderLine line) :
    crlfLines [] (headerBlock lines) = lines ++ [[]] := by
  induction lines with
  | nil => simp [headerBlock, crlf, crlfLines]
  | cons line lines ih =>
    rw [headerBlock_cons, crlfLines_append fun c hc =>
      ((hlines line List.mem_cons_self).no_break c hc).2.1, ih fun l hl => hlines l (List.mem_cons_of_mem _ hl)]
    rfl

/-- What the lines of a part say of it together. -/
lemma foldl_line (lines : List (List UInt8)) (kind : PartKind) :
    lines.foldl PartKind.line kind =
      ⟨kind.capture || lines.any fun line => startsNoCase line contentType && capturesType line,
        kind.hasType || lines.any (startsNoCase · contentType),
        kind.eventLog || lines.any fun line => line.map lower = eventLogLine.map lower⟩ := by
  induction lines generalizing kind with
  | nil => simp
  | cons line lines ih =>
    rw [List.foldl_cons, ih]
    by_cases htype : startsNoCase line contentType <;>
      by_cases hlog : line.map lower = eventLogLine.map lower <;>
      simp [PartKind.line, htype, hlog, Bool.or_assoc]

lemma headersCapture_headerBlock {lines : List (List UInt8)}
    (hlines : ∀ line ∈ lines, HeaderLine line) :
    headersCapture (headerBlock lines) = decide (Captured lines) := by
  have hbreak : ∀ c ∈ crlf, (c != 0) = true := by simp [crlf]
  have hnul : (headerBlock lines).takeWhile (· != 0) = headerBlock lines := by
    refine List.takeWhile_eq_self_iff.2 fun c hc => ?_
    simp only [headerBlock, List.mem_append, List.mem_flatMap] at hc
    obtain ⟨line, hline, hc | hc⟩ | hc := hc
    · simpa using ((hlines line hline).no_break c hc).1
    · exact hbreak c hc
    · exact hbreak c hc
  have hblank : ∀ kind : PartKind, kind.line [] = kind := fun _ => rfl
  rw [Bool.eq_iff_iff, decide_eq_true_iff]
  simp [headersCapture, hnul, crlfLines_headerBlock hlines, foldl_line, Captured, hblank]

/-- The decoder at the start of a body. -/
def HikStream.startBody (s : HikStream) (capture : Bool) : HikStream :=
  { s with
    capture := capture
    discarded := if capture then s.discarded else s.discarded + 1
    pending := []
    body := []
    state := .body }

lemma exists_blank {lines : List (List UInt8)} (hne : lines ≠ []) :
    ∃ text, headerBlock lines = text ++ (crlf ++ crlf) := by
  obtain ⟨lines, line, rfl⟩ := (List.eq_nil_or_concat' lines).resolve_left hne
  exact ⟨lines.flatMap (· ++ crlf) ++ line, by simp [headerBlock]⟩

section
variable {b : List UInt8} {s : HikStream} {lines : List (List UInt8)}

lemma drainLoop_headers (hs : s.state = .headers) (k : Nat) :
    drainLoop message (k + 1) s =
      if hikHeadersMax < s.pending.length then some (false, s)
      else if s.pending.length < 4 ∨ s.pending.drop (s.pending.length - 4) ≠ crlf ++ crlf then
        some (true, s)
      else drainLoop message k (s.startBody (headersCapture s.pending)) := by
  rw [drainLoop, hs]
  rfl

lemma feeds_headers_more (hs : s.state = .headers) (hlines : ∀ line ∈ lines, HeaderLine line)
    (hsize : (headerBlock lines).length ≤ hikHeadersMax) {text : List UInt8} {x : UInt8}
    (hin : text ++ [x] <+: headerBlock lines) (hne : text ++ [x] ≠ headerBlock lines) :
    Feeds message (s.holding text) [x] (s.holding (text ++ [x])) := by
  have hlen : (text ++ [x]).length ≤ hikHeadersMax := hin.length_le.trans hsize
  have hmore : (text ++ [x]).drop ((text ++ [x]).length - 4) ≠ crlf ++ crlf := by
    intro hblank
    refine hne (?_ : text ++ [x] = headerBlock lines)
    have hsplit := List.take_append_drop ((text ++ [x]).length - 4) (text ++ [x])
    rw [hblank] at hsplit
    rw [← hsplit] at hin ⊢
    exact eq_headerBlock_of_blank hlines hin
  refine feeds_byte (k := 1) (by simp [hs]) ?_ (by omega) ?_
  · simp [hikHeadersMax] at *
    omega
  · rw [HikStream.holding_holding, HikStream.holding_pending,
      drainLoop_headers (s := s.holding (text ++ [x])) hs, HikStream.holding_pending,
      if_neg (by omega), if_pos (.inr hmore)]

lemma feeds_headers (hs : s.state = .headers) (hp : s.pending = []) (hne : lines ≠ [])
    (hlines : ∀ line ∈ lines, HeaderLine line) (hsize : (headerBlock lines).length ≤ hikHeadersMax) :
    Feeds message s (headerBlock lines) (s.startBody (Captured lines)) := by
  have hread : ∀ text, text <+: headerBlock lines → text ≠ headerBlock lines →
      Feeds message s text (s.holding text) := by
    intro text hin hnot
    induction text using List.reverseRecOn with
    | nil =>
      have hself : s.holding [] = s := by rw [← hp]; rfl
      rw [hself]
      exact Feeds.nil s
    | append_singleton text x ih =>
      have hin' : text <+: headerBlock lines := (List.prefix_append text [x]).trans hin
      have hnot' : text ≠ headerBlock lines := by
        rintro rfl
        have := hin.length_le
        simp at this
      exact feeds_append.2 ⟨_, ih hin' hnot', feeds_headers_more hs hlines hsize hin hnot⟩
  obtain ⟨text, htext⟩ := exists_blank hne
  have hsplit : headerBlock lines = text ++ [13, 10, 13] ++ [10] := by simp [htext, crlf]
  have hbefore := hread (text ++ [13, 10, 13]) ⟨[10], hsplit.symm⟩ (by simp [hsplit])
  rw [← headersCapture_headerBlock hlines, hsplit]
  refine feeds_append.2 ⟨_, hbefore, feeds_byte (k := 2) (by simp [hs]) ?_ (by simp) ?_⟩
  · simp [hsplit, hikHeadersMax] at *
    omega
  · have hlast : (headerBlock lines).drop ((headerBlock lines).length - 4) = crlf ++ crlf := by
      simp [htext, crlf]
    have hfour : 4 ≤ (headerBlock lines).length := by simp [htext, crlf]
    rw [HikStream.holding_holding, HikStream.holding_pending, ← hsplit,
      drainLoop_headers (s := s.holding (headerBlock lines)) hs, HikStream.holding_pending,
      if_neg (by omega), if_neg (by simp [hlast]; omega)]
    rfl

end

/-! ### A whole stream -/

/-- A part of a multipart body. -/
structure Part where
  headers : List (List UInt8)
  body : List UInt8

/-- The delimiters and the parts. -/
def serialise (b : List UInt8) : List Part → List UInt8
  | []         => crlf ++ dashes ++ b ++ dashes
  | p :: parts => crlf ++ dashes ++ b ++ crlf ++ headerBlock p.headers ++ p.body ++ serialise b parts

/-- A part that can be sent before `rest`: no delimiter starts inside its body. -/
structure Part.Valid (p : Part) (b rest : List UInt8) : Prop where
  headers_ne_nil : p.headers ≠ []
  lines : ∀ line ∈ p.headers, HeaderLine line
  headers_fit : (headerBlock p.headers).length ≤ hikHeadersMax
  body_fits : p.body.length ≤ hikMessageMax
  clean : ∀ i < p.body.length, ∀ last, ¬ crlf ++ dashes ++ b ++ ending last <+: (p.body ++ rest).drop i

def ValidParts (b : List UInt8) : List Part → Prop
  | []         => True
  | p :: parts => p.Valid b (serialise b parts) ∧ ValidParts b parts

/-- The bodies that are captured, in order. -/
def capturedBodies (parts : List Part) : List (List UInt8) :=
  (parts.filter fun p => Captured p.headers).map Part.body

/-- The calls of `hik_stream_feed` with the pieces of a stream. -/
def feedAll (message : List UInt8 → Bool) : HikStream → List (List UInt8) → List Bool × HikStream
  | s, []             => ([], s)
  | s, chunk :: chunks =>
    let (ok, s) := hikStreamFeed message s chunk
    let (oks, s) := feedAll message s chunks
    (ok :: oks, s)

lemma Feeds.feedAll_eq {s s' : HikStream} {chunks : List (List UInt8)}
    (h : Feeds message s chunks.flatten s') (hs : s.state ≠ .failed) :
    feedAll message s chunks = (chunks.map fun _ => true, s') := by
  induction chunks generalizing s with
  | nil =>
    cases h
    rfl
  | cons chunk chunks ih =>
    rw [List.flatten_cons] at h
    obtain ⟨m, hchunk, hrest⟩ := feeds_append.1 h
    have hfeed : hikStreamFeed message s chunk = (true, m) := by
      rw [hikStreamFeed, if_neg hs]
      exact hchunk
    simp only [feedAll, hfeed, ih hrest (hchunk.ne_failed hs)]
    rfl

/-- What stands before the next part or the end. -/
lemma serialise_eq (b : List UInt8) (parts : List Part) :
    ∃ rest, serialise b parts = crlf ++ dashes ++ b ++ ending parts.isEmpty ++ rest := by
  cases parts with
  | nil => exact ⟨[], by simp [serialise, ending]⟩
  | cons p parts => exact ⟨headerBlock p.headers ++ p.body ++ serialise b parts, by simp [serialise, ending]⟩

namespace HikStream

/-- The decoder after a part and the delimiter behind it. -/
def readPart (s : HikStream) (b : List UInt8) (p : Part) (last : Bool) : HikStream :=
  ((s.startBody (Captured p.headers)).keep p.body).handOver.past b last

variable (s : HikStream) (b : List UInt8) (p : Part) (last : Bool)

lemma past_marker : (s.past b last).marker = s.marker := by cases last <;> rfl

lemma past_delivered : (s.past b last).delivered = s.delivered := by cases last <;> rfl

lemma readPart_marker : (s.readPart b p last).marker = s.marker := by
  rw [readPart, past_marker, handOver_marker]
  rfl

lemma readPart_delivered : (s.readPart b p last).delivered = s.delivered ++ capturedBodies [p] := by
  rw [readPart, past_delivered]
  by_cases hcap : Captured p.headers <;> simp [handOver, keep, startBody, capturedBodies, hcap]

end HikStream

lemma capturedBodies_cons (p : Part) (parts : List Part) :
    capturedBodies (p :: parts) = capturedBodies [p] ++ capturedBodies parts := by
  rw [capturedBodies, ← List.singleton_append, List.filter_append, List.map_append]
  rfl

section
variable {b : List UInt8} {s : HikStream}

/-- A part is read up to the delimiter after it. -/
lemma feeds_part (h : s.Reading b) (hm : ∀ body, message body = true) (hs : s.state = .headers)
    (hp : s.pending = []) {p : Part} {parts : List Part} (hvalid : p.Valid b (serialise b parts)) :
    Feeds message s (headerBlock p.headers ++ p.body ++ (crlf ++ dashes ++ b ++ ending parts.isEmpty))
      (s.readPart b p parts.isEmpty) := by
  set t := s.startBody (Captured p.headers) with ht
  have htr : t.Reading b := h.of_marker rfl
  rw [List.append_assoc]
  refine feeds_append.2 ⟨t, feeds_headers hs hp hvalid.headers_ne_nil hvalid.lines hvalid.headers_fit, ?_⟩
  rw [← htr.marker, ← List.append_assoc]
  refine feeds_body htr rfl hm rfl rfl hvalid.body_fits fun i hi last hstart =>
    hvalid.clean i hi last ?_
  obtain ⟨rest, hrest⟩ := serialise_eq b parts
  rw [htr.marker] at hstart
  refine hstart.trans (List.IsPrefix.drop ?_ i)
  exact ⟨rest, by simp [hrest]⟩

lemma feeds_parts (h : s.Reading b) (hm : ∀ body, message body = true) (hs : s.state = .headers)
    (hp : s.pending = []) {p : Part} {parts : List Part} (hvalid : ValidParts b (p :: parts)) :
    ∃ s', Feeds message s (headerBlock p.headers ++ p.body ++ serialise b parts) s' ∧ s'.state = .done ∧
      s'.delivered = s.delivered ++ capturedBodies (p :: parts) := by
  induction parts generalizing s p with
  | nil =>
    refine ⟨s.readPart b p true, feeds_part h hm hs hp hvalid.1, rfl, s.readPart_delivered b p true⟩
  | cons q parts ih =>
    have hread : Feeds message s _ (s.readPart b p false) := feeds_part h hm hs hp hvalid.1
    obtain ⟨s', hrest, hdone, hdelivered⟩ := ih (s := s.readPart b p false)
      (h.of_marker (s.readPart_marker b p false)) rfl rfl hvalid.2
    refine ⟨s', ?_, hdone, ?_⟩
    · have := feeds_append.2 ⟨_, hread, hrest⟩
      simpa [serialise, ending] using this
    · rw [hdelivered, s.readPart_delivered, capturedBodies_cons p (q :: parts), List.append_assoc]

end

lemma hikStreamInit_eq_some {b : List UInt8} {s : HikStream} (h : hikStreamInit b = some s) :
    s.Reading b ∧ (∀ c ∈ b, 32 ≤ c ∧ c ≤ 126) ∧ s.state = .boundary ∧ s.pending = [] ∧ s.delivered = [] := by
  unfold hikStreamInit at h
  split_ifs at h with hlen hprint
  cases h
  refine ⟨⟨rfl, not_lt.1 fun hlong => hlen (.inr hlong)⟩, ?_, rfl, rfl, rfl⟩
  intro c hc
  simp at hprint
  exact hprint c hc

/-- However a stream is cut into calls, each call succeeds, the decoder ends in `DONE`, and the callback
was called with the bodies of the captured parts, in order and as they were sent. -/
theorem hikStreamFeed_delivers_captured_parts (hm : ∀ body, message body = true) {b : List UInt8}
    {s : HikStream} (hinit : hikStreamInit b = some s) {preamble : List UInt8}
    (hpre : ¬ dashes ++ b <:+: preamble) {parts : List Part} (hparts : ValidParts b parts)
    {chunks : List (List UInt8)} (hchunks : chunks.flatten = preamble ++ serialise b parts) :
    (∀ ok ∈ (feedAll message s chunks).1, ok = true) ∧
      (feedAll message s chunks).2.state = .done ∧
      (feedAll message s chunks).2.delivered = capturedBodies parts := by
  obtain ⟨h, hprint, hs, hp, hdel⟩ := hikStreamInit_eq_some hinit
  have hbreak : ∀ c ∈ b, c ≠ 13 ∧ c ≠ 10 := by
    intro c hc
    have := (hprint c hc).1
    constructor <;> rintro rfl <;> exact absurd this (by decide)
  have hfirst : Feeds message s _ (s.past b parts.isEmpty) :=
    feeds_preamble h hs hp hbreak hpre parts.isEmpty
  obtain ⟨s', hfeeds, hdone, hdelivered⟩ : ∃ s', Feeds message s (preamble ++ serialise b parts) s' ∧
      s'.state = .done ∧ s'.delivered = capturedBodies parts := by
    cases parts with
    | nil => exact ⟨s.past b true, by simpa [serialise, ending] using hfirst, rfl, hdel⟩
    | cons p parts =>
      obtain ⟨s', hrest, hdone, hdelivered⟩ := feeds_parts (s := s.past b false)
        (h.of_marker (s.past_marker b false)) hm rfl rfl hparts
      refine ⟨s', ?_, hdone, ?_⟩
      · have := feeds_append.2 ⟨_, hfirst, hrest⟩
        simpa [serialise, ending] using this
      · rw [hdelivered, s.past_delivered, hdel, List.nil_append]
  have hall := Feeds.feedAll_eq (hchunks ▸ hfeeds) (by simp [hs])
  rw [hall]
  exact ⟨by simp, hdone, hdelivered⟩

/-- A part with an XML body. -/
def eventPart : Part := ⟨[ascii "Content-Type: text/xml"], ascii "<e/>"⟩

/-- A stream with that part, cut inside its headers. -/
def eventChunks : List (List UInt8) :=
  [(serialise (ascii "x") [eventPart]).take 9, (serialise (ascii "x") [eventPart]).drop 9]

theorem hikStreamFeed_delivers_captured_parts_event :
    let s : HikStream := ⟨ascii "\r\n--x", .boundary, [], [], false, 0, 0, 0, []⟩
    (∀ ok ∈ (feedAll (fun _ => true) s eventChunks).1, ok = true) ∧
      (feedAll (fun _ => true) s eventChunks).2.state = .done ∧
      (feedAll (fun _ => true) s eventChunks).2.delivered = [ascii "<e/>"] := by
  have hline : HeaderLine (ascii "Content-Type: text/xml") := ⟨by decide, by decide +kernel⟩
  have hpart : eventPart.Valid (ascii "x") (serialise (ascii "x") []) :=
    ⟨by decide, by simpa [eventPart] using hline, by decide, by decide, by decide⟩
  have hparts : ValidParts (ascii "x") [eventPart] := ⟨hpart, trivial⟩
  have hchunks : eventChunks.flatten = [] ++ serialise (ascii "x") [eventPart] := by simp [eventChunks]
  exact hikStreamFeed_delivers_captured_parts (fun _ => rfl) rfl (by decide) hparts hchunks

end ZoneLite
