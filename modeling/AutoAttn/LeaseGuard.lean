import Mathlib
import AutoAttn.Crash.Logic

/-!
# Elevation leases

`lg_grant` elevates a user of the terminal for a bounded time. It stores the obligation to revoke
before it asks for the elevation, and takes the obligation back only after a revocation that the
terminal confirmed. `lg_watch_due` says when the obligation is due, from two clocks that are not
trusted.
-/

namespace LeaseGuard

open Crash Prog

/-- `LG_MIN_TIME` -/
def minTime : Int := 1767225600

/-- `INT64_MAX`. The guards against it keep every sum below within the type, so that the clocks are
integers here. -/
def int64Max : Int := 2 ^ 63 - 1

/-- `lg_result_t` -/
inductive Result where
  | ok
  | time
  | storage
  | terminal
  | expired
deriving DecidableEq

/-- A call of a callback of `lg_port_t`, with what it returned. -/
inductive Call where
  | now (t : Int)
  | persist (uid : UInt16) (deadline : Int) (active ok : Bool)
  | elevate (uid : UInt16) (ok : Bool)
  | verify (uid : UInt16) (privilege : Int) (ok : Bool)
  | revoke (uid : UInt16) (ok : Bool)
deriving DecidableEq

structure Lease where
  uid : UInt16
  deadline : Int
  active : Bool
deriving DecidableEq

/-- What the callbacks act on. The clock may return anything at each call. The calls are kept with the
latest one first. -/
structure World where
  clock : Nat → Int
  stored : Option Lease
  calls : List Call := []

namespace World

def log (c : Call) (w : World) : World := { w with calls := c :: w.calls }

def store (lease : Lease) (w : World) : World := { w with stored := some lease }

@[simp] lemma log_calls (c : Call) (w : World) : (w.log c).calls = c :: w.calls := rfl

@[simp] lemma log_stored (c : Call) (w : World) : (w.log c).stored = w.stored := rfl

@[simp] lemma store_calls (lease : Lease) (w : World) : (w.store lease).calls = w.calls := rfl

@[simp] lemma store_stored (lease : Lease) (w : World) : (w.store lease).stored = some lease := rfl

end World

/-! ### The callbacks -/

def now : Prog World Int := do
  let t ← gets fun w => w.clock w.calls.length
  modify (·.log (.now t))
  return t

/-- A failed call may have reached storage. -/
def persist (uid : UInt16) (deadline : Int) (active : Bool) : Prog World Bool :=
  op (fun w => (w.store ⟨uid, deadline, active⟩).log (.persist uid deadline active true))
    fun n w => (if n = 0 then w else w.store ⟨uid, deadline, active⟩).log
      (.persist uid deadline active false)

/-- A call that reports no more than its success. -/
def ask (c : Bool → Call) : Prog World Bool := op (·.log (c true)) fun _ => (·.log (c false))

def elevate (uid : UInt16) : Prog World Bool := ask (.elevate uid)

def verify (uid : UInt16) (privilege : Int) : Prog World Bool := ask (.verify uid privilege)

def revoke (uid : UInt16) : Prog World Bool := ask (.revoke uid)

/-! ### Grants -/

/-- `recover`. Failed or uncertain elevation is still an obligation to verify revocation. -/
def recover (uid : UInt16) : Prog World Unit := do
  if ← revoke uid then
    if ← verify uid 0 then
      let _ ← persist uid 0 false

/-- `absolute > 0 ? absolute : from + seconds` -/
def deadlineFrom (absolute : Int) (seconds : Nat) (t : Int) : Int :=
  if 0 < absolute then absolute else t + seconds

/-- `!p.elevate(..) || !p.verify(..)` -/
def elevateVerified (uid : UInt16) : Prog World Bool := do
  if ← elevate uid then verify uid 14 else return false

/-- The second half of `lg_grant`: the duration begins after verification. -/
def confirm (uid : UInt16) (seconds : Nat) (absolute before : Int) : Prog World Result := do
  let verified ← now
  if verified < before ∨ verified > int64Max - seconds then
    recover uid
    return .time
  else if deadlineFrom absolute seconds verified ≤ verified then
    recover uid
    return .expired
  else if ← persist uid (deadlineFrom absolute seconds verified) true then return .ok
  else
    recover uid
    return .storage

/-- `lg_grant` -/
def lgGrant (uid : UInt16) (seconds : Nat) (absolute : Int) : Prog World Result := do
  if uid = 0 ∨ seconds = 0 ∨ seconds > 600 then return .time
  else
    let before ← now
    if before < minTime ∨ before > int64Max - seconds then return .time
    else if deadlineFrom absolute seconds before ≤ before then return .expired
    else if deadlineFrom absolute seconds before - before > 600 then return .time
    else if ← persist uid (deadlineFrom absolute seconds before) true then
      if ← elevateVerified uid then confirm uid seconds absolute before
      else
        recover uid
        return .terminal
    else return .storage

/-! ### Obligations -/

/-- The lease that was last reported stored. -/
def reported : List Call → Option Lease
  | []                                       => none
  | .persist uid deadline active true :: _   => some ⟨uid, deadline, active⟩
  | _ :: calls                               => reported calls

/-- Every elevation comes after a lease that was reported stored. -/
def Obliged (uid : UInt16) : List Call → Prop
  | []                    => True
  | .elevate u _ :: calls =>
    (u = uid ∧ ∃ deadline, .persist uid deadline true true ∈ calls) ∧ Obliged uid calls
  | _ :: calls            => Obliged uid calls

/-- Since the last elevation, a revocation was reported. -/
def RevokeSent (uid : UInt16) : List Call → Prop
  | []                   => False
  | .elevate _ _ :: _    => False
  | .revoke u ok :: calls => (u = uid ∧ ok = true) ∨ RevokeSent uid calls
  | _ :: calls           => RevokeSent uid calls

/-- Since the last elevation, a revocation was reported, and then verified. -/
def Revoked (uid : UInt16) : List Call → Prop
  | []                                => False
  | .elevate _ _ :: _                 => False
  | .verify u privilege ok :: calls   =>
    (u = uid ∧ privilege = 0 ∧ ok = true ∧ RevokeSent uid calls) ∨ Revoked uid calls
  | _ :: calls                        => Revoked uid calls

/-- Nobody was elevated, or the obligation stands, or it was met. -/
def Settled (uid : UInt16) (calls : List Call) : Prop :=
  (∀ u ok, .elevate u ok ∉ calls) ∨ (∃ deadline, reported calls = some ⟨uid, deadline, true⟩) ∨
    Revoked uid calls

/-- A durable lease stands while a user may be elevated. -/
def Durable (uid : UInt16) (w : World) : Prop :=
  (∀ u ok, .elevate u ok ∉ w.calls) ∨
    (∃ deadline, w.stored = some ⟨uid, deadline, true⟩) ∨ Revoked uid w.calls

/-- What holds at every instant. -/
structure Held (uid : UInt16) (w : World) : Prop where
  obliged : Obliged uid w.calls
  settled : Settled uid w.calls
  durable : Durable uid w

/-- The last calls of a grant that succeeded. -/
def Granted (uid : UInt16) (calls : List Call) : Prop :=
  ∃ deadline verified before, calls = .persist uid deadline true true :: .now verified ::
    .verify uid 14 true :: .elevate uid true :: before ∧
    verified < deadline ∧ deadline ≤ verified + 600

/-- The obligation stands, as reported and as stored. -/
structure Standing (uid : UInt16) (w : World) : Prop where
  obliged : Obliged uid w.calls
  reported : ∃ deadline, reported w.calls = some ⟨uid, deadline, true⟩
  durable : ∃ deadline, w.stored = some ⟨uid, deadline, true⟩

variable {uid : UInt16} {w : World} {seconds : Nat} {absolute before : Int}

lemma Standing.held (h : Standing uid w) : Held uid w :=
  ⟨h.obliged, .inr (.inl h.reported), .inr (.inl h.durable)⟩

lemma Standing.now (h : Standing uid w) (t : Int) : Standing uid (w.log (.now t)) :=
  ⟨h.obliged, h.reported, h.durable⟩

lemma Standing.verify (h : Standing uid w) (privilege : Int) (ok : Bool) :
    Standing uid (w.log (.verify uid privilege ok)) := ⟨h.obliged, h.reported, h.durable⟩

lemma Standing.revoke (h : Standing uid w) (ok : Bool) : Standing uid (w.log (.revoke uid ok)) :=
  ⟨h.obliged, h.reported, h.durable⟩

/-- The obligation is extended, or was so without a report. -/
lemma Standing.persist_fail (h : Standing uid w) (deadline : Int) (n : Nat) :
    Standing uid ((if n = 0 then w else w.store ⟨uid, deadline, true⟩).log
      (.persist uid deadline true false)) := by
  split_ifs
  · exact ⟨h.obliged, h.reported, h.durable⟩
  · exact ⟨h.obliged, h.reported, deadline, rfl⟩

lemma wp_recover (h : Standing uid w) :
    (recover uid).wp (fun _ => Held uid) (Held uid) w := by
  have hrevoked : ∀ ok, Revoked uid (.persist uid 0 false ok :: .verify uid 0 true ::
      .revoke uid true :: w.calls) := fun ok => by simp [Revoked, RevokeSent]
  have hcleared : ∀ n, Held uid
      ((if n = 0 then (w.log (.revoke uid true)).log (.verify uid 0 true)
        else ((w.log (.revoke uid true)).log (.verify uid 0 true)).store ⟨uid, 0, false⟩).log
          (.persist uid 0 false false)) := fun n => by
    split_ifs <;> exact ⟨h.obliged, .inr (.inr (hrevoked false)), .inr (.inr (hrevoked false))⟩
  simp only [recover, LeaseGuard.revoke, LeaseGuard.verify, ask, LeaseGuard.persist, wp_bind, wp_op,
    wp_ite, wp_pure, Bool.false_eq_true, IsEmpty.forall_iff, not_true_eq_false, not_false_eq_true,
    forall_const, true_and, and_true]
  refine ⟨⟨⟨⟨h.obliged, .inr (.inr (hrevoked true)), .inr (.inr (hrevoked true))⟩, hcleared, hcleared⟩,
    ((h.revoke true).verify 0 false).held, ((h.revoke true).verify 0 false).held⟩,
    (h.revoke false).held, (h.revoke false).held⟩

/-- A later start does not stretch the lease. -/
lemma deadlineFrom_le {verified : Int} (hseconds : seconds ≤ 600) (hle : before ≤ verified)
    (hbefore : deadlineFrom absolute seconds before - before ≤ 600) :
    deadlineFrom absolute seconds verified ≤ verified + 600 := by
  rw [deadlineFrom] at hbefore ⊢
  split_ifs at hbefore ⊢
  · calc absolute ≤ before + 600 := by omega
      _ ≤ verified + 600 := by omega
  · exact Int.add_le_add_left (Int.ofNat_le.2 hseconds) verified

/-- What a grant returns with. -/
def Outcome (uid : UInt16) (r : Result) (w : World) : Prop :=
  Held uid w ∧ (r = .ok → Granted uid w.calls)

lemma wp_recover_return {r : Result} (h : Standing uid w) (hr : r ≠ .ok) :
    (do recover uid; return r : Prog World Result).wp (Outcome uid) (Held uid) w :=
  wp_seq (wp_recover h) (fun _ _ hheld => ⟨hheld, fun heq => absurd heq hr⟩) fun _ => id

lemma wp_confirm {calls : List Call} (h : Standing uid w)
    (hcalls : w.calls = .verify uid 14 true :: .elevate uid true :: calls) (hseconds : seconds ≤ 600)
    (hbefore : deadlineFrom absolute seconds before - before ≤ 600) :
    (confirm uid seconds absolute before).wp (Outcome uid) (Held uid) w := by
  simp only [confirm, LeaseGuard.now, wp_bind, wp_gets, wp_modify, wp_pure]
  generalize w.clock w.calls.length = verified
  have hnow := h.now verified
  split_ifs with hclock hexpired
  · exact wp_recover_return hnow (by simp)
  · exact wp_recover_return hnow (by simp)
  · simp only [LeaseGuard.persist, wp_bind, wp_op]
    refine ⟨⟨Standing.held ⟨h.obliged, ⟨_, rfl⟩, _, rfl⟩, fun _ => ?_⟩, fun n => ?_, fun n => ?_⟩
    · exact ⟨_, verified, calls, by simp [hcalls], by omega, deadlineFrom_le hseconds (by omega) hbefore⟩
    · exact wp_recover_return (hnow.persist_fail _ n) (by simp)
    · exact (hnow.persist_fail _ n).held

/-- The elevation comes with the obligation already there. -/
lemma Standing.elevate {deadline : Int} (hobliged : Obliged uid w.calls) (ok : Bool) :
    Standing uid (((w.store ⟨uid, deadline, true⟩).log (.persist uid deadline true true)).log
      (.elevate uid ok)) :=
  ⟨⟨⟨rfl, deadline, .head _⟩, hobliged⟩, ⟨deadline, rfl⟩, deadline, rfl⟩

lemma held_of_not_elevated {calls : List Call} (h : ∀ u ok, .elevate u ok ∉ calls)
    (hcalls : w.calls = calls) (hobliged : Obliged uid calls) : Held uid w := by
  subst hcalls
  exact ⟨hobliged, .inl h, .inl h⟩

/-- At every instant of a grant, a user that may be elevated is backed by a lease. -/
lemma wp_lgGrant (uid : UInt16) (seconds : Nat) (absolute : Int) (clock : Nat → Int)
    (stored : Option Lease) :
    (lgGrant uid seconds absolute).wp (Outcome uid) (Held uid) ⟨clock, stored, []⟩ := by
  have hstart : Held uid ⟨clock, stored, []⟩ := held_of_not_elevated (by simp) rfl trivial
  rw [lgGrant]
  split_ifs with hargs
  · exact ⟨hstart, by simp⟩
  · simp only [LeaseGuard.now, wp_bind, wp_gets, wp_modify, wp_pure]
    generalize clock _ = before
    have hread : Held uid (World.log (.now before) ⟨clock, stored, []⟩) :=
      held_of_not_elevated (by simp) rfl trivial
    split_ifs with hclock hexpired hlong
    · exact ⟨hread, by simp⟩
    · exact ⟨hread, by simp⟩
    · exact ⟨hread, by simp⟩
    · have hfail : ∀ n, Held uid ((if n = 0 then World.log (.now before) ⟨clock, stored, []⟩
          else (World.log (.now before) ⟨clock, stored, []⟩).store
            ⟨uid, deadlineFrom absolute seconds before, true⟩).log
          (.persist uid (deadlineFrom absolute seconds before) true false)) := fun n => by
        split_ifs <;> exact held_of_not_elevated (by simp) rfl trivial
      have hobliged : Obliged uid (World.log (.now before) ⟨clock, stored, []⟩).calls := trivial
      simp only [LeaseGuard.persist, elevateVerified, LeaseGuard.elevate, LeaseGuard.verify, ask, wp_bind,
        wp_op, if_true, Bool.false_eq_true, if_false, wp_pure]
      refine ⟨⟨⟨?_, fun _ => ?_, fun _ => ?_⟩, fun _ => ?_, fun _ => ?_⟩, fun n => ⟨hfail n, by simp⟩, hfail⟩
      · exact wp_confirm ((Standing.elevate hobliged true).verify 14 true) rfl (by omega) (by omega)
      · exact wp_recover_return ((Standing.elevate hobliged true).verify 14 false) (by simp)
      · exact ((Standing.elevate hobliged true).verify 14 false).held
      · exact wp_recover_return (Standing.elevate hobliged false) (by simp)
      · exact (Standing.elevate hobliged false).held

/-! ### The watch -/

/-- `lg_watch_t` -/
structure Watch where
  uid : UInt16
  deadlineEpoch : Int
  deadlineMs : Int := 0
  lastEpoch : Int := 0
  lastMs : Int := 0
  armed : Bool := false
  due : Bool := false

/-- What a call of the watch is given. -/
structure Query where
  uid : UInt16
  deadline : Int
  now : Int
  uptime : Int

/-- `lg_watch_arm` -/
def lgWatchArm (q : Query) : Bool × Watch :=
  if q.uid = 0 ∨ q.now < minTime ∨ q.deadline ≤ q.now ∨ q.deadline - q.now > 600 ∨ q.uptime < 0 ∨
      q.uptime > int64Max - (q.deadline - q.now) * 1000 then
    (false, { uid := q.uid, deadlineEpoch := q.deadline, due := true })
  else
    (true, {
      uid := q.uid
      deadlineEpoch := q.deadline
      deadlineMs := q.uptime + (q.deadline - q.now) * 1000
      lastEpoch := q.now
      lastMs := q.uptime
      armed := true })

/-- `lg_watch_due` -/
def lgWatchDue (watch : Watch) (q : Query) : Bool × Watch :=
  if watch.armed = false ∨ watch.due = true ∨ q.uid = 0 ∨ q.uid ≠ watch.uid ∨
      q.deadline ≠ watch.deadlineEpoch ∨ q.now < minTime ∨ q.now < watch.lastEpoch ∨
      q.uptime < watch.lastMs ∨ q.now ≥ q.deadline ∨ q.uptime ≥ watch.deadlineMs then
    (true, { watch with due := true })
  else (false, { watch with lastEpoch := q.now, lastMs := q.uptime })

/-- The watch after some calls of `lg_watch_due`. -/
def afterQueries (watch : Watch) (qs : List Query) : Watch :=
  qs.foldl (fun watch q => (lgWatchDue watch q).2) watch

/-- A watch that was armed by `arm` and asked `qs`: it is due, or it has seen no clock go back. -/
def Watching (arm : Query) (qs : List Query) (watch : Watch) : Prop :=
  watch.due = true ∨
    watch.deadlineEpoch = arm.deadline ∧ arm.deadline - arm.now ≤ 600 ∧
    watch.deadlineMs = arm.uptime + (arm.deadline - arm.now) * 1000 ∧
    ∀ p ∈ arm :: qs, p.now ≤ watch.lastEpoch ∧ p.uptime ≤ watch.lastMs

lemma watching_arm (arm : Query) : Watching arm [] (lgWatchArm arm).2 := by
  rw [lgWatchArm]
  split_ifs with h
  · exact .inl rfl
  · exact .inr ⟨rfl, by omega, rfl, by simp⟩

lemma lgWatchDue_of_due {watch : Watch} (h : watch.due = true) (q : Query) :
    lgWatchDue watch q = (true, watch) := by
  rw [lgWatchDue, if_pos (.inr (.inl h))]
  simp [← h]

/-- The answer is kept. -/
lemma due_lgWatchDue (watch : Watch) (q : Query) (hdue : watch.due = false) :
    (lgWatchDue watch q).2.due = (lgWatchDue watch q).1 := by
  rw [lgWatchDue]
  split_ifs
  · rfl
  · exact hdue

lemma Watching.ask {arm : Query} {qs : List Query} {watch : Watch} (h : Watching arm qs watch)
    (q : Query) : Watching arm (qs ++ [q]) (lgWatchDue watch q).2 := by
  rw [lgWatchDue]
  split_ifs with hcond
  · exact .inl rfl
  · rcases h with hdue | ⟨hdeadline, hlong, hms, hseen⟩
    · exact .inl hdue
    · refine .inr ⟨hdeadline, hlong, hms, fun p hp => ?_⟩
      rw [← List.cons_append, List.mem_append, List.mem_singleton] at hp
      rcases hp with hp | rfl
      · have := hseen p hp
        simp only
        omega
      · exact ⟨Int.le_refl _, Int.le_refl _⟩

lemma watching_after (arm : Query) (qs : List Query) :
    Watching arm qs (afterQueries (lgWatchArm arm).2 qs) := by
  induction qs using List.reverseRecOn with
  | nil => exact watching_arm arm
  | append_singleton qs q ih =>
    rw [afterQueries, List.foldl_append]
    exact ih.ask q

lemma due_afterQueries {watch : Watch} (h : watch.due = true) (qs : List Query) :
    (afterQueries watch qs).due = true := by
  induction qs generalizing watch with
  | nil => exact h
  | cons q qs ih =>
    rw [afterQueries, List.foldl_cons, lgWatchDue_of_due h]
    exact ih h

/-- Once due, forever due. -/
lemma lgWatchDue_again {watch : Watch} {q q' : Query} {qs : List Query}
    (h : (lgWatchDue watch q').1 = true) :
    (lgWatchDue (afterQueries watch (q' :: qs)) q).1 = true := by
  have hkept : (lgWatchDue watch q').2.due = true := by
    cases hdue : watch.due with
    | true =>
      rw [lgWatchDue_of_due hdue]
      exact hdue
    | false => rw [due_lgWatchDue watch q' hdue, h]
  rw [afterQueries, List.foldl_cons, ← afterQueries, lgWatchDue_of_due (due_afterQueries hkept qs)]

/-- A watch that is not due has seen both clocks rise, and less than the lease go by. -/
lemma Watching.not_due {arm q : Query} {qs : List Query} {watch : Watch} (h : Watching arm qs watch)
    (hnot : (lgWatchDue watch q).1 = false) :
    (∀ p ∈ arm :: qs, p.now ≤ q.now ∧ p.uptime ≤ q.uptime) ∧ q.now < arm.deadline ∧
      q.uptime < arm.uptime + (arm.deadline - arm.now) * 1000 ∧ q.uptime - arm.uptime < 600000 := by
  rw [lgWatchDue] at hnot
  split_ifs at hnot with hcond
  simp only [not_or, not_not, Int.not_lt, ge_iff_le, Int.not_le] at hcond
  obtain ⟨-, hdue, -, -, hdeadline, -, hepoch, hms, hwall, huptime⟩ := hcond
  rcases h with h | ⟨harm, hlong, hend, hseen⟩
  · exact absurd h hdue
  · refine ⟨fun p hp => ⟨Int.le_trans (hseen p hp).1 hepoch, Int.le_trans (hseen p hp).2 hms⟩, ?_, ?_, ?_⟩
    · rwa [← harm, ← hdeadline]
    · rwa [← hend]
    · omega

/-- In every run of `lg_grant`, elevation follows a stored lease, which stands when the call returns
unless the revocation was verified, and a grant that succeeds is bounded from the clock that was read
after it. A watch that was due stays so. It is due when a clock goes back, or reaches its deadline, and
for certain after ten minutes. -/
theorem elevation_backed_by_lease :
    (∀ (uid : UInt16) (seconds : Nat) (absolute : Int) (clock : Nat → Int) (stored : Option Lease)
      (fs : List Fate), ((lgGrant uid seconds absolute).run ⟨clock, stored, []⟩ fs).Sat
        (fun r w => Obliged uid w.calls ∧ Settled uid w.calls ∧ (r = .ok → Granted uid w.calls))
        (fun w => Obliged uid w.calls ∧ Durable uid w)) ∧
    (∀ (arm : Query) (qs : List Query) (q : Query),
      (∀ qs₁ q' qs₂, qs = qs₁ ++ q' :: qs₂ →
        (lgWatchDue (afterQueries (lgWatchArm arm).2 qs₁) q').1 = true →
        (lgWatchDue (afterQueries (lgWatchArm arm).2 qs) q).1 = true) ∧
      ((∃ p ∈ arm :: qs, q.now < p.now ∨ q.uptime < p.uptime) ∨ q.now ≥ arm.deadline ∨
          q.uptime ≥ arm.uptime + (arm.deadline - arm.now) * 1000 →
        (lgWatchDue (afterQueries (lgWatchArm arm).2 qs) q).1 = true) ∧
      ((lgWatchDue (afterQueries (lgWatchArm arm).2 qs) q).1 = false →
        q.uptime - arm.uptime < 600000)) := by
  refine ⟨fun uid seconds absolute clock stored fs => ?_, fun arm qs q => ?_⟩
  · have hwp := wp_lgGrant uid seconds absolute clock stored
    exact wp_run (wp_mono hwp (fun r w h => ⟨h.1.obliged, h.1.settled, h.2⟩)
      fun w h => ⟨h.obliged, h.durable⟩) fs
  · have hwatching := watching_after arm qs
    refine ⟨?_, fun hcond => ?_, fun hnot => (hwatching.not_due hnot).2.2.2⟩
    · rintro qs₁ q' qs₂ rfl hdue
      rw [afterQueries, List.foldl_append]
      exact lgWatchDue_again hdue
    · by_contra hnot
      obtain ⟨hseen, hwall, huptime, -⟩ := hwatching.not_due (q := q) (by simpa using hnot)
      rcases hcond with ⟨p, hp, hback⟩ | hcond
      · have := hseen p hp
        omega
      · omega

example : ((lgGrant 1 60 0).eval ⟨fun _ => minTime, none, []⟩).1 = .ok := by decide

end LeaseGuard
