import AutoAttn.Hikvision.StreamProperties

/-! # The decoder on any bytes -/

namespace ZoneLite

variable (message : List UInt8 → Bool) {s : HikStream}

/-- What is stored fits `pending`, with a NUL after it, and `body`, and so did all that was handed over. -/
structure HikStream.Sized (s : HikStream) : Prop where
  pending : s.pending.length < hikHeadersMax + hikBoundaryMax + 8
  bodies : ∀ body ∈ s.body :: s.delivered, body.length ≤ hikMessageMax

/-- The loop ends, for every turn that is not the last makes `pending` shorter. -/
lemma drainLoop_ends {turns : Nat} (hturns : s.pending.length < turns) :
    ∃ r, drainLoop message turns s = some r ∧ (s.Sized → r.2.Sized) := by
  induction turns generalizing s with
  | zero => omega
  | succ turns ih =>
    have hnext {t : HikStream} (hp : t.pending.length < s.pending.length)
        (h : s.Sized → ∀ body ∈ t.body :: t.delivered, body.length ≤ hikMessageMax) :
        ∃ r, drainLoop message turns t = some r ∧ (s.Sized → r.2.Sized) := by
      obtain ⟨r, heq, hr⟩ := ih (hp.trans_le (Nat.le_of_lt_succ hturns))
      exact ⟨r, heq, fun hs => hr ⟨hp.trans hs.pending, h hs⟩⟩
    rw [drainLoop]
    cases s.state <;> dsimp only
    case done | failed => exact ⟨_, rfl, id⟩
    -- the turn is the last one, with or without a call of `message`, or there is a next one
    all_goals split_ifs
    all_goals first
      | exact ⟨_, rfl, fun h => ⟨h.pending, h.bodies⟩⟩
      | refine ⟨_, rfl, fun h => ⟨h.pending, ?_⟩⟩
      | refine hnext ?_ fun h => ?_
    all_goals grind [HikStream.consume, HikStream.append, HikStream.Sized.bodies]

lemma sized_feedLoop (h : s.Sized) (data : List UInt8) : (feedLoop message s data).2.Sized := by
  induction data generalizing s with
  | nil => exact h
  | cons b data ih =>
    rw [feedLoop]
    split_ifs
    · exact h
    · exact ⟨h.pending, h.bodies⟩
    · obtain ⟨⟨ok, s'⟩, heq, hs⟩ :=
        drainLoop_ends message (s := { s with pending := s.pending ++ [b] }) (Nat.lt_succ_self _)
      have hsized := hs ⟨by simp; omega, h.bodies⟩
      rw [drain, heq]
      cases ok with
      | false => exact ⟨hsized.pending, hsized.bodies⟩
      | true => exact ih hsized

lemma sized_feedAll (h : s.Sized) (chunks : List (List UInt8)) : (feedAll message s chunks).2.Sized := by
  induction chunks generalizing s with
  | nil => exact h
  | cons chunk chunks ih =>
    refine ih (s := (hikStreamFeed message s chunk).2) ?_
    rw [hikStreamFeed]
    split_ifs
    · exact h
    · exact sized_feedLoop message h chunk

/-- Whatever bytes a terminal sends in whatever pieces, no buffer is overrun, and the loop ends at each byte. -/
theorem feedAll_never_overruns {b : List UInt8} (h : hikStreamInit b = some s) (chunks : List (List UInt8)) :
    (feedAll message s chunks).2.Sized ∧
      ∀ t : HikStream, ∃ r, drainLoop message (t.pending.length + 1) t = some r := by
  refine ⟨sized_feedAll message ?_ chunks, fun t => ?_⟩
  · rw [hikStreamInit] at h
    split_ifs at h
    exact Option.some.inj h ▸ ⟨by simp, by simp⟩
  · exact (drainLoop_ends message (Nat.lt_succ_self _)).imp fun _ => And.left

theorem feedAll_never_overruns_event : ∃ s, hikStreamInit (ascii "x") = some s ∧
    (feedAll (fun _ => false) s eventChunks).2.Sized :=
  ⟨_, rfl, (feedAll_never_overruns _ (b := ascii "x") rfl _).1⟩

end ZoneLite
