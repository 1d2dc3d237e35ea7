import Mathlib.Data.BitVec
import Mathlib.Data.List.Chain
import Mathlib.Logic.Function.Basic

/-!
# Delivery lanes

`delivery_scheduler.c` chooses the lane that delivers next: two live lanes, two bulk lanes, receipts and evidence.
Each group of two takes turns, the two background groups take turns, and after four live attempts a background lane
goes first. Lanes become ready and unready in any order, and still none of them starves.
-/

namespace DeliveryScheduler

/-! ### The scheduler -/

/-- `DS_LANES` -/
abbrev lanes : Nat := 6

/-- Whose turn it is: the last five fields of `delivery_scheduler_t`. -/
structure Cursors where
  liveAttempts : Nat := 0
  liveNext : Nat := 0
  bulkNext : Nat := 0
  proofNext : Nat := 0
  backgroundNext : Nat := 0

/-- `delivery_scheduler_t` -/
structure Scheduler extends Cursors where
  retryAt : Fin lanes → UInt64 := fun _ => 0
  backoffMs : Fin lanes → UInt32 := fun _ => 0

/-- `pair` -/
def pair (mask : BitVec 32) (base next : Nat) : Option Nat :=
  let first := base + next % 2
  let second := base + (next + 1) % 2
  if mask.getLsbD first then some first
  else if mask.getLsbD second then some second else none

/-- The mask without the lanes that wait for a retry, as the loop of `ds_pick` leaves it. -/
def usable (s : Scheduler) (mask : BitVec 32) (now : UInt64) : BitVec 32 :=
  (List.finRange lanes).foldl (fun mask i => if s.retryAt i > now then mask &&& ~~~(1#32 <<< i.val) else mask) mask

/-- The variable `background` of `ds_pick`. -/
def background (s : Scheduler) (mask : BitVec 32) : Option Nat :=
  let bulk := pair mask 2 s.bulkNext
  let proof := pair mask 4 s.proofNext
  if s.backgroundNext % 2 = 1 then proof.or bulk else bulk.or proof

/-- `ds_pick` -/
def pick (s : Scheduler) (mask : BitVec 32) (now : UInt64) (backgroundDue : Bool) : Option Nat :=
  let mask := usable s mask now
  let live := pair mask 0 s.liveNext
  if live.isSome ∧ s.liveAttempts < 4 ∧ backgroundDue = false then live
  else (background s mask).or live

/-- `ds_attempted` -/
def attempted (s : Scheduler) (lane : Nat) : Scheduler :=
  if lane ≥ lanes then s
  else if lane < 2 then
    { s with
      liveAttempts := if s.liveAttempts < 4 then s.liveAttempts + 1 else s.liveAttempts
      liveNext := lane + 1 }
  else if lane < 4 then { s with liveAttempts := 0, bulkNext := lane - 1, backgroundNext := 1 }
  else { s with liveAttempts := 0, proofNext := lane - 3, backgroundNext := 0 }

/-- The arguments of `ds_complete`. -/
structure Completion where
  lane : Nat
  now : UInt64
  ok : Bool
  jitter : UInt32

/-- `ds_complete` -/
def complete (s : Scheduler) (c : Completion) : Scheduler :=
  if h : c.lane < lanes then
    let lane : Fin lanes := ⟨c.lane, h⟩
    if c.ok then
      { s with
        retryAt := Function.update s.retryAt lane 0
        backoffMs := Function.update s.backoffMs lane 0 }
    else
      let delay := if s.backoffMs lane ≠ 0 then s.backoffMs lane else 5000
      { s with
        retryAt := Function.update s.retryAt lane (c.now + delay.toUInt64 + (c.jitter % 1000).toUInt64)
        backoffMs := Function.update s.backoffMs lane (if delay ≥ 30000 then 60000 else delay * 2) }
  else s

/-! ### Runs -/

/-- A call of `ds_pick`, with the completions before the lane that it returns is attempted. -/
structure Call where
  mask : BitVec 32
  now : UInt64
  backgroundDue : Bool
  between : List Completion

inductive Event where
  | pick (call : Call)
  | complete (c : Completion)

/-- A call of `ds_pick`, the scheduler that it met and the lane that it returned. -/
structure Turn where
  scheduler : Scheduler
  call : Call
  lane : Option Nat

/-- The attempt that follows a pick. -/
def attempt (s : Scheduler) : Option Nat → Scheduler
  | none      => s
  | some lane => attempted s lane

/-- The calls of `ds_pick` in a run. -/
def run : Scheduler → List Event → List Turn
  | _, []                    => []
  | s, .complete c :: events => run (complete s c) events
  | s, .pick call :: events  =>
    let lane := pick s call.mask call.now call.backgroundDue
    ⟨s, call, lane⟩ :: run (attempt (call.between.foldl complete s) lane) events

/-- A lane is in the mask, and its retry time is reached. -/
def Turn.Eligible (turn : Turn) (lane : Fin lanes) : Prop :=
  turn.call.mask.getLsbD lane = true ∧ turn.scheduler.retryAt lane ≤ turn.call.now

/-- A lane that is not a live one was picked. -/
def Turn.background (turn : Turn) : Bool := turn.lane.any (2 ≤ ·)

/-! ### Picks -/

/-- One turn of the loop of `ds_pick`. -/
lemma getLsbD_clear (mask : BitVec 32) (i lane : Fin lanes) :
    (mask &&& ~~~(1#32 <<< i.val)).getLsbD lane = (mask.getLsbD lane && decide (lane ≠ i)) := by
  have hone : ∀ i lane : Fin lanes, (~~~(1#32 <<< i.val)).getLsbD lane = decide (lane ≠ i) := by decide
  rw [BitVec.getLsbD_and, hone]

lemma getLsbD_usable (s : Scheduler) (mask : BitVec 32) (now : UInt64) (lane : Fin lanes) :
    (usable s mask now).getLsbD lane = true ↔ mask.getLsbD lane = true ∧ s.retryAt lane ≤ now := by
  suffices H : ∀ (indices : List (Fin lanes)) (mask : BitVec 32),
      (indices.foldl (fun mask i => if s.retryAt i > now then mask &&& ~~~(1#32 <<< i.val) else mask)
        mask).getLsbD lane = true ↔ mask.getLsbD lane = true ∧ (lane ∈ indices → s.retryAt lane ≤ now) by
    simpa [usable] using H (List.finRange lanes) mask
  intro indices
  induction indices with
  | nil => simp
  | cons i indices ih =>
    intro mask
    rw [List.foldl_cons, ih]
    split_ifs with hwaits
    · rw [getLsbD_clear]
      grind
    · grind

variable {mask : BitVec 32} {base next lane : Nat}

lemma getLsbD_of_pair (h : pair mask base next = some lane) : mask.getLsbD lane = true := by
  grind [pair]

/-- The lane whose turn it is goes first. -/
lemma pair_eq_some (h : pair mask base next = some lane) :
    lane = base + next % 2 ∨ lane = base + (next + 1) % 2 := by
  grind [pair]

/-- A lane that is ready but not chosen was not next. -/
lemma pair_of_ready (next : Nat) (hbase : base ≤ lane) (hlane : lane < base + 2) (h : mask.getLsbD lane = true) :
    pair mask base next = some lane ∨
      lane ≠ base + next % 2 ∧ pair mask base next = some (base + next % 2) := by
  grind [pair]

lemma bounds_of_pair (h : pair mask base next = some lane) : base ≤ lane ∧ lane < base + 2 := by
  rcases pair_eq_some h with rfl | rfl <;> omega

variable {s : Scheduler} {now : UInt64} {due : Bool}

/-- A background lane is of the group whose turn it is, or of the other one when that has none. -/
lemma background_eq_some (h : background s mask = some lane) :
    pair mask 2 s.bulkNext = some lane ∧ (s.backgroundNext % 2 = 1 → pair mask 4 s.proofNext = none) ∨
      pair mask 4 s.proofNext = some lane ∧ (s.backgroundNext % 2 ≠ 1 → pair mask 2 s.bulkNext = none) := by
  rw [background] at h
  split_ifs at h with hturn
  · rcases Option.or_eq_some_iff.mp h with hproof | ⟨hnone, hbulk⟩
    · exact .inr ⟨hproof, fun hne => absurd hturn hne⟩
    · exact .inl ⟨hbulk, fun _ => hnone⟩
  · rcases Option.or_eq_some_iff.mp h with hbulk | ⟨hnone, hproof⟩
    · exact .inl ⟨hbulk, fun heq => absurd heq hturn⟩
    · exact .inr ⟨hproof, fun _ => hnone⟩

lemma bounds_of_background (h : background s mask = some lane) : 2 ≤ lane ∧ lane < lanes := by
  rcases background_eq_some h with ⟨hpair, -⟩ | ⟨hpair, -⟩
  · have := bounds_of_pair hpair
    exact ⟨by omega, by simp only [lanes]; omega⟩
  · have := bounds_of_pair hpair
    exact ⟨by omega, by simp only [lanes]; omega⟩

/-- A live lane goes first unless it is the turn of a background lane, which then is picked if there is one. -/
lemma pick_eq_some (h : pick s mask now due = some lane) :
    background s (usable s mask now) = some lane ∨
      pair (usable s mask now) 0 s.liveNext = some lane ∧
        (background s (usable s mask now) = none ∨ s.liveAttempts < 4 ∧ due = false) := by
  rw [pick] at h
  split_ifs at h with hfirst
  · exact .inr ⟨h, .inr hfirst.2⟩
  · rcases Option.or_eq_some_iff.mp h with hbackground | ⟨hnone, hlive⟩
    · exact .inl hbackground
    · exact .inr ⟨hlive, .inl hnone⟩

/-- The lane that is picked is ready. -/
lemma ready_of_pick (h : pick s mask now due = some lane) :
    lane < lanes ∧ (usable s mask now).getLsbD lane = true := by
  rcases pick_eq_some h with hbackground | ⟨hlive, -⟩
  · refine ⟨(bounds_of_background hbackground).2, ?_⟩
    rcases background_eq_some hbackground with ⟨hpair, -⟩ | ⟨hpair, -⟩
    · exact getLsbD_of_pair hpair
    · exact getLsbD_of_pair hpair
  · have := bounds_of_pair hlive
    exact ⟨by simp only [lanes]; omega, getLsbD_of_pair hlive⟩

/-! ### Waiting -/

/-- Whether the other lane of a pair is next. -/
def behind (base next lane : Nat) : Nat := if lane = base + next % 2 then 0 else 1

/-- A bound of the picks that a lane which is ready still has to wait for: of all picks for a live lane, of the
background ones for another. -/
def wait (c : Cursors) (lane : Nat) : Nat :=
  if lane < 2 then 2 * behind 0 c.liveNext lane + if c.liveAttempts < 4 then 0 else 1
  else if lane < 4 then 2 * behind 2 c.bulkNext lane + c.backgroundNext % 2
  else 2 * behind 4 c.proofNext lane + (1 - c.backgroundNext % 2)

lemma behind_le (base next lane : Nat) : behind base next lane ≤ 1 := by
  rw [behind]
  split_ifs <;> omega

lemma wait_le (c : Cursors) (lane : Nat) : wait c lane ≤ 3 := by
  have := behind_le 0 c.liveNext lane
  have := behind_le 2 c.bulkNext lane
  have := behind_le 4 c.proofNext lane
  rw [wait]
  split_ifs <;> omega

variable {other : Nat}

/-- The picks of live lanes are no concern of the others. -/
lemma wait_attempted_live (hlane : lane < 2) (hother : 2 ≤ other) :
    wait (attempted s lane).toCursors other = wait s.toCursors other := by
  simp only [attempted, wait]
  grind

/-- A background lane that is passed over by another one comes closer. -/
lemma wait_attempted_background (hready : mask.getLsbD other = true) (hother : 2 ≤ other) (hlanes : other < lanes)
    (hlane : background s mask = some lane) (hne : lane ≠ other) :
    wait (attempted s lane).toCursors other < wait s.toCursors other := by
  have hbounds := bounds_of_background hlane
  by_cases hbulk : other < 4
  · have hnext := pair_of_ready s.bulkNext hother (by omega) hready
    rcases background_eq_some hlane with ⟨hpair, hturn⟩ | ⟨hpair, hturn⟩
    · have := bounds_of_pair hpair
      grind [wait, behind, attempted]
    · have := bounds_of_pair hpair
      grind [wait, behind, attempted]
  · have hnext := pair_of_ready s.proofNext (by omega) hlanes hready
    rcases background_eq_some hlane with ⟨hpair, hturn⟩ | ⟨hpair, hturn⟩
    · have := bounds_of_pair hpair
      grind [wait, behind, attempted]
    · have := bounds_of_pair hpair
      grind [wait, behind, attempted]

/-- A live lane that is passed over comes closer, unless the background is due. -/
lemma wait_pick_live (hready : (usable s mask now).getLsbD other = true) (hother : other < 2)
    (hlane : pick s mask now false = some lane) (hne : lane ≠ other) :
    wait (attempted s lane).toCursors other < wait s.toCursors other := by
  have hnext := pair_of_ready s.liveNext (Nat.zero_le other) hother hready
  rcases pick_eq_some hlane with hbackground | ⟨hpair, -⟩
  · -- The live lanes had their four attempts.
    have hfull : ¬ s.liveAttempts < 4 := by
      intro hlt
      have hbounds := bounds_of_background hbackground
      grind [pick]
    have hbounds := bounds_of_background hbackground
    grind [wait, behind, attempted]
  · have := bounds_of_pair hpair
    grind [wait, behind, attempted]

lemma isSome_pair (next : Nat) (hbase : base ≤ lane) (hlane : lane < base + 2) (h : mask.getLsbD lane = true) :
    (pair mask base next).isSome := by
  rcases pair_of_ready next hbase hlane h with hpair | ⟨-, hpair⟩
  · rw [hpair, Option.isSome_some]
  · rw [hpair, Option.isSome_some]

lemma isSome_background (hother : 2 ≤ other) (hlanes : other < lanes) (hready : mask.getLsbD other = true) :
    (background s mask).isSome := by
  have hor : (pair mask 2 s.bulkNext).isSome ∨ (pair mask 4 s.proofNext).isSome := by
    by_cases hbulk : other < 4
    · exact .inl (isSome_pair _ hother hbulk hready)
    · exact .inr (isSome_pair _ (by omega) hlanes hready)
  rw [background]
  split_ifs
  · simp [hor.symm]
  · simp [hor]

/-- A pick returns a lane when one is ready. -/
lemma exists_pick (due : Bool) (hlanes : other < lanes) (hready : (usable s mask now).getLsbD other = true) :
    ∃ lane, pick s mask now due = some lane := by
  have hor : (background s (usable s mask now)).isSome ∨ (pair (usable s mask now) 0 s.liveNext).isSome := by
    by_cases hlive : other < 2
    · exact .inr (isSome_pair _ (Nat.zero_le other) hlive hready)
    · exact .inl (isSome_background (by omega) hlanes hready)
  rw [← Option.isSome_iff_exists, pick]
  split_ifs with hfirst
  · exact hfirst.1
  · simp [hor]

/-! ### Turns -/

@[simp] lemma complete_toCursors (s : Scheduler) (c : Completion) : (complete s c).toCursors = s.toCursors := by
  rw [complete]
  split_ifs <;> rfl

lemma foldl_complete_toCursors (s : Scheduler) (cs : List Completion) :
    (cs.foldl complete s).toCursors = s.toCursors := by
  induction cs generalizing s with
  | nil => rfl
  | cons c cs ih => rw [List.foldl_cons, ih, complete_toCursors]

lemma attempt_congr {s s' : Scheduler} (h : s.toCursors = s'.toCursors) (lane : Option Nat) :
    (attempt s lane).toCursors = (attempt s' lane).toCursors := by
  cases lane with
  | none => exact h
  | some lane =>
    simp only [attempt, attempted]
    grind

/-- One pick after the other. -/
def Follows (turn turn' : Turn) : Prop :=
  turn'.scheduler.toCursors = (attempt turn.scheduler turn.lane).toCursors

/-- What the code returns at a turn. -/
def Turn.Picks (turn : Turn) : Prop :=
  turn.lane = pick turn.scheduler turn.call.mask turn.call.now turn.call.backgroundDue

lemma picks_of_mem_run {events : List Event} {turn : Turn} (h : turn ∈ run s events) : turn.Picks := by
  induction events generalizing s with
  | nil => cases h
  | cons event events ih =>
    cases event with
    | complete c => exact ih h
    | pick call =>
      rcases List.mem_cons.mp h with rfl | h
      · rfl
      · exact ih h

lemma head_run {events : List Event} {turn : Turn} (h : turn ∈ (run s events).head?) :
    turn.scheduler.toCursors = s.toCursors := by
  induction events generalizing s with
  | nil => cases h
  | cons event events ih =>
    cases event with
    | complete c => rw [ih h, complete_toCursors]
    | pick call =>
      cases h
      rfl

lemma isChain_run (s : Scheduler) (events : List Event) : (run s events).IsChain Follows := by
  induction events generalizing s with
  | nil => exact .nil
  | cons event events ih =>
    cases event with
    | complete c => exact ih _
    | pick call =>
      refine List.isChain_cons.mpr ⟨?_, ih _⟩
      intro turn hturn
      rw [Follows, head_run hturn]
      exact attempt_congr (foldl_complete_toCursors s call.between) _

/-- A measure that no pick increases, and that certain picks decrease, bounds the number of these. -/
lemma countP_le {turns : List Turn} {p : Turn → Bool} (measure : Cursors → Nat) {bound : Nat}
    (hchain : turns.IsChain Follows) (hbound : ∀ c, measure c ≤ bound)
    (hstep : ∀ turn ∈ turns, measure (attempt turn.scheduler turn.lane).toCursors + (p turn).toNat ≤
      measure turn.scheduler.toCursors) : turns.countP p ≤ bound := by
  suffices H : ∀ turn ∈ turns.head?, turns.countP p ≤ measure turn.scheduler.toCursors by
    cases turns with
    | nil => exact Nat.zero_le _
    | cons turn turns => exact (H turn rfl).trans (hbound _)
  induction turns with
  | nil => nofun
  | cons first turns ih =>
    rintro turn ⟨⟩
    obtain ⟨hnext, hchain⟩ := List.isChain_cons.mp hchain
    have hfirst := hstep first List.mem_cons_self
    have hrest : turns.countP p ≤ measure (attempt first.scheduler first.lane).toCursors := by
      cases turns with
      | nil => exact Nat.zero_le _
      | cons second turns =>
        have hfollows : Follows first second := hnext second rfl
        rw [Follows] at hfollows
        rw [← hfollows]
        exact ih hchain (fun turn hturn => hstep turn (List.mem_cons_of_mem _ hturn)) second rfl
    rw [List.countP_cons]
    cases hp : p first with
    | false => simp [hp] at hfirst ⊢; omega
    | true => simp [hp] at hfirst ⊢; omega

variable {turns : List Turn}

lemma Turn.Eligible.ready {turn : Turn} {lane : Fin lanes} (h : turn.Eligible lane) :
    (usable turn.scheduler turn.call.mask turn.call.now).getLsbD lane = true :=
  (getLsbD_usable _ _ _ _).mpr h

lemma Turn.Picks.eligible {turn : Turn} (hpicks : turn.Picks) (h : turn.lane = some lane) :
    ∃ hlane : lane < lanes, turn.Eligible ⟨lane, hlane⟩ := by
  obtain ⟨hlane, hready⟩ := ready_of_pick (hpicks.symm.trans h)
  exact ⟨hlane, (getLsbD_usable _ _ _ ⟨lane, hlane⟩).mp hready⟩

/-- A pick that is not a background lane, while one is eligible, is one of the first four. -/
lemma liveAttempts_lt {turn : Turn} (hpicks : turn.Picks) (hlive : turn.background = false) {other : Fin lanes}
    (hother : 2 ≤ other.val) (heligible : turn.Eligible other) :
    ∃ lane < 2, turn.lane = some lane ∧ turn.scheduler.liveAttempts < 4 := by
  obtain ⟨lane, hlane⟩ := exists_pick turn.call.backgroundDue other.isLt heligible.ready
  have hturn : turn.lane = some lane := hpicks.trans hlane
  have hlt : lane < 2 := by simpa [Turn.background, hturn] using hlive
  refine ⟨lane, hlt, hturn, ?_⟩
  rcases pick_eq_some hlane with hbackground | ⟨-, hnone | ⟨hfirst, -⟩⟩
  · have := bounds_of_background hbackground
    omega
  · have hsome : (background turn.scheduler _).isSome := isSome_background hother other.isLt heligible.ready
    rw [hnone] at hsome
    cases hsome
  · exact hfirst

/-- While a background lane is eligible, four live lanes are picked in a row at most. -/
lemma exists_background (hchain : turns.IsChain Follows) (hpicks : ∀ turn ∈ turns, turn.Picks)
    (hready : ∀ turn ∈ turns, ∃ lane : Fin lanes, 2 ≤ lane.val ∧ turn.Eligible lane) (hlength : 5 ≤ turns.length) :
    ∃ turn ∈ turns, turn.background = true := by
  by_contra! hnone
  have hcount : turns.countP (fun _ => true) ≤ 4 := by
    refine countP_le (fun c => 4 - c.liveAttempts) hchain (fun _ => Nat.sub_le _ _) ?_
    intro turn hturn
    obtain ⟨other, hother, heligible⟩ := hready turn hturn
    obtain ⟨lane, hlane, hpicked, hattempts⟩ :=
      liveAttempts_lt (hpicks turn hturn) (Bool.eq_false_iff.mpr (hnone turn hturn)) hother heligible
    have hnext : (attempted turn.scheduler lane).liveAttempts = turn.scheduler.liveAttempts + 1 := by
      simp [attempted, hlane, hattempts, show ¬ lanes ≤ lane by simp only [lanes]; omega]
    rw [hpicked, attempt, hnext, Bool.toNat_true]
    omega
  rw [List.countP_true] at hcount
  omega

/-- A background lane that is eligible is passed over by three background lanes at most. -/
lemma exists_lane (hchain : turns.IsChain Follows) (hpicks : ∀ turn ∈ turns, turn.Picks) (lane : Fin lanes)
    (hlane : 2 ≤ lane.val) (hready : ∀ turn ∈ turns, turn.background = true → turn.Eligible lane)
    (hcount : 4 ≤ turns.countP Turn.background) : ∃ turn ∈ turns, turn.lane = some lane.val := by
  by_contra! hnone
  have hle : turns.countP Turn.background ≤ 3 := by
    refine countP_le (wait · lane) hchain (wait_le · lane) ?_
    intro turn hturn
    cases hpicked : turn.lane with
    | none => simp [attempt, Turn.background, hpicked]
    | some picked =>
      by_cases hlive : picked < 2
      · simp [attempt, Turn.background, hpicked, wait_attempted_live hlive hlane, Nat.not_le.mpr hlive]
      · have hbackground : turn.background = true := by
          simp [Turn.background, hpicked, Nat.not_lt.mp hlive]
        have hpick := (hpicks turn hturn).symm.trans hpicked
        have hne : picked ≠ lane := by
          rintro rfl
          exact hnone turn hturn hpicked
        have hready := (hready turn hturn hbackground).ready
        rw [hbackground]
        rcases pick_eq_some hpick with hbackground | ⟨hpair, -⟩
        · exact wait_attempted_background hready hlane lane.isLt hbackground hne
        · have := bounds_of_pair hpair
          omega
  omega

/-- A live lane that is eligible is passed over by three lanes at most. -/
lemma exists_live (hchain : turns.IsChain Follows) (hpicks : ∀ turn ∈ turns, turn.Picks) (lane : Fin lanes)
    (hlane : lane.val < 2) (hready : ∀ turn ∈ turns, turn.call.backgroundDue = false ∧ turn.Eligible lane)
    (hlength : 4 ≤ turns.length) : ∃ turn ∈ turns, turn.lane = some lane.val := by
  by_contra! hnone
  have hcount : turns.countP (fun _ => true) ≤ 3 := by
    refine countP_le (wait · lane) hchain (wait_le · lane) ?_
    intro turn hturn
    obtain ⟨hdue, heligible⟩ := hready turn hturn
    obtain ⟨picked, hpick⟩ := exists_pick turn.call.backgroundDue lane.isLt heligible.ready
    have hpicked : turn.lane = some picked := (hpicks turn hturn).trans hpick
    have hne : picked ≠ lane := by
      rintro rfl
      exact hnone turn hturn hpicked
    rw [hdue] at hpick
    rw [hpicked]
    exact wait_pick_live heligible.ready hlane hpick hne
  rw [List.countP_true] at hcount
  omega

/-- No lane starves, however the lanes become ready and unready. -/
theorem no_lane_starves (events : List Event) (i n : Nat) :
    let segment := ((run {} events).drop i).take n
    (∀ turn ∈ segment, ∀ lane, turn.lane = some lane → ∃ hlane : lane < lanes, turn.Eligible ⟨lane, hlane⟩) ∧
    ((∀ turn ∈ segment, ∃ lane : Fin lanes, 2 ≤ lane.val ∧ turn.Eligible lane) → 5 ≤ segment.length →
      ∃ turn ∈ segment, turn.background = true) ∧
    (∀ lane : Fin lanes, 2 ≤ lane.val → (∀ turn ∈ segment, turn.background = true → turn.Eligible lane) →
      4 ≤ segment.countP Turn.background → ∃ turn ∈ segment, turn.lane = some lane.val) ∧
    (∀ lane : Fin lanes, lane.val < 2 → (∀ turn ∈ segment, turn.call.backgroundDue = false ∧ turn.Eligible lane) →
      4 ≤ segment.length → ∃ turn ∈ segment, turn.lane = some lane.val) := by
  intro segment
  have hpicks : ∀ turn ∈ segment, turn.Picks := fun turn hturn =>
    picks_of_mem_run (List.mem_of_mem_drop (List.mem_of_mem_take hturn))
  have hchain : segment.IsChain Follows := ((isChain_run {} events).drop i).take n
  refine ⟨?_, exists_background hchain hpicks, ?_, ?_⟩
  · exact fun turn hturn lane => (hpicks turn hturn).eligible
  · exact exists_lane hchain hpicks
  · exact exists_live hchain hpicks

end DeliveryScheduler
