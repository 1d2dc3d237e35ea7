import AutoAttn.RoundRobin
import AutoAttn.Zkt.Custody

/-!
# Scheduling of custody work

A worker inspects due rows in batches. A batch visits connectors in turn and takes a quota of rows from each. Rows of
recent live packets go first, but a burst counter that is stored with the connector lets the oldest candidate through
from time to time. A time budget may end a batch at any point.
-/

namespace Zkt.Custody

open Checks RoundRobin

/-! ### Candidates -/

/-- `PRIORITY_BURST` -/
def priorityBurst : Int := 8

/-- `RECENT_LIVE_SECONDS`, in milliseconds. -/
def recentLiveMs : Nat := 60000

/-- `LIVE_KINDS` -/
def liveKinds : List WorkKind := [.raw .livePacket, .raw .liveFrame, .raw .packetFragment]

/-- `SUPPORTED_KINDS` -/
def supportedKinds : List WorkKind := .sourceLedger :: .raw .sourceRecord :: liveKinds

/-- The row asks for an attempt. -/
def Work.isDue (now : Nat) (work : Work) : Bool := work.nextAttemptAt.any (· ≤ now)

/-- `_revision_hold` -/
def revisionHold (work : Work) : Bool :=
  work.nextAttemptAt = none ∧ work.kind ∈ supportedKinds ∧ work.state ≠ .heldException

/-- `_revision_ranges` -/
def revisionRanges : List (Work → Bool) :=
  [fun work => work.interpretationVersion = none,
   fun work => work.interpretationVersion.any (· < interpretationVersion),
   fun work => work.interpretationVersion.any (interpretationVersion < ·)]

/-- What a call meets outside of the tables. -/
structure Call where
  limit : Int
  afterConnector : Int
  timeBudgetMs : Option Int
  /-- The readings of the clock, in seconds. -/
  clock : Nat → ℚ
  now : Nat
  /-- Another transaction holds the connector. -/
  connectorLocked : Int → Bool
  /-- Another transaction holds the row. -/
  rowLocked : Int → Work → Bool
  /-- `wake_source_page` -/
  wakeSourcePage : Int → Nat → Db → Db
  inspection : Int → Work → Inspection

/-- The first rows in an order that are not locked. -/
def page (call : Call) (connector : Int) (quota : Nat) (db : Db) (wanted : Work → Bool)
    (before : Work → Work → Bool) : List Work :=
  ((db.works.rows.filter fun work => wanted work && !call.rowLocked connector work).mergeSort before).take quota

/-- The rows of recent live packets, the newest first. -/
def recentCandidates (call : Call) (connector : Int) (quota : Nat) (db : Db) : List Nat :=
  (page call connector quota db
    (fun work => work.isDue call.now && work.kind ∈ liveKinds && call.now ≤ work.createdAt + recentLiveMs &&
      work.createdAt ≤ call.now)
    fun a b => toLex (b.createdAt, b.id) ≤ toLex (a.createdAt, a.id)).map (·.id)

/-- What the oldest candidates are sorted by. -/
def age (work : Work) : Lex (Nat × Nat) := toLex (work.nextAttemptAt.getD work.createdAt, work.id)

/-- `_oldest_candidates` -/
def oldestCandidates (call : Call) (connector : Int) (quota : Nat) (db : Db) : List Nat :=
  let due := page call connector quota db (·.isDue call.now) fun a b => age a ≤ age b
  let holds := revisionRanges.flatMap fun inRange =>
    page call connector quota db (fun work => revisionHold work && inRange work) fun a b =>
      toLex (a.interpretationVersion.getD "", toLex (a.createdAt, a.id)) ≤
        toLex (b.interpretationVersion.getD "", toLex (b.createdAt, b.id))
  (((due ++ holds).mergeSort fun a b => age a ≤ age b).take quota).map (·.id)

/-! ### The connectors -/

/-- The tables that the worker reads and writes. -/
structure World where
  /-- The connectors with custody enabled. -/
  connectors : List Int
  sorted : connectors.Pairwise (· < ·)
  custody : Int → Db
  /-- `priority_burst` of the connector's schedule. -/
  burst : Int → Option Int
  /-- A legacy handoff has rows left to wake. -/
  handoffPending : Int → Bool

/-- The connectors that have something to do. -/
def dueConnectors (call : Call) (world : World) : List Int :=
  world.connectors.filter fun connector => world.handoffPending connector ||
    (world.custody connector).works.rows.any fun work =>
      work.isDue call.now || revisionHold work && revisionRanges.any (· work)

/-- The bound on a whole batch. -/
def Call.maximum (call : Call) : Nat := (max 1 (min call.limit 500)).toNat

/-- The connectors of a batch, those after the cursor first. -/
def batchConnectors (call : Call) (world : World) : List Int :=
  (order (dueConnectors call world) call.afterConnector).take call.maximum

/-- The bound on the rows of one connector. -/
def quota (call : Call) (world : World) : Nat :=
  max 1 (call.maximum / max 1 (batchConnectors call world).length)

/-! ### One connector -/

/-- One inspection, as the worker chose it. -/
structure Pick where
  connector : Int
  workId : Nat
  /-- The row was taken as a recent one. -/
  recent : Bool
  /-- There was an oldest candidate to take instead. -/
  hasOldest : Bool
deriving DecidableEq

/-- The state of a batch inside one connector. -/
structure Serving where
  db : Db
  burst : Int
  /-- Readings of the clock since the deadline was set. -/
  reads : Nat
  processed : Nat
  selected : List Nat
  picks : List Pick

/-- The deadline has passed at a reading of the clock. -/
def Call.late (call : Call) (read : Nat) : Bool :=
  call.timeBudgetMs.any fun ms => call.clock 0 + (max 1 (min ms 1000) : Int) / 1000 ≤ call.clock (read + 1)

/-- Look at the clock if some work has been done, with the number of readings. -/
def Call.look (call : Call) (worked : Bool) (reads : Nat) : Bool × Nat :=
  if worked && call.timeBudgetMs.isSome then (call.late reads, reads + 1) else (false, reads)

/-- Inspect one row and keep account of it. -/
def inspectPick (codec : Codec) (call : Call) (pick : Pick) (s : Serving) : Serving :=
  { s with
    db := match s.db.works.get? pick.workId with
      | some work => { s.db with
          works := s.db.works.put (inspectWork codec (call.inspection pick.connector work) s.db work) }
      | none      => s.db
    burst := if pick.recent then min priorityBurst (s.burst + 1) else 0
    processed := s.processed + 1
    selected := s.selected ++ [pick.workId]
    picks := s.picks ++ [pick] }

/-- The next row: a recent one unless the burst is over and there is another candidate. -/
def nextPick (connector : Int) (burst : Int) (recent oldest : List Nat) : Option Pick :=
  match recent, oldest with
  | [], []              => none
  | row :: _, []        => some ⟨connector, row, true, false⟩
  | [], row :: _        => some ⟨connector, row, false, true⟩
  | newest :: _, row :: _ =>
    if burst < priorityBurst then some ⟨connector, newest, true, true⟩ else some ⟨connector, row, false, true⟩

/-- The inner loop of `advance_work_batch`, for as many rows as are left of the quota. -/
def serve (codec : Codec) (call : Call) (connector : Int) (recent oldest : List Nat) : Nat → Serving → Serving
  | 0, s     => s
  | n + 1, s =>
    match nextPick connector s.burst (recent.dropWhile (· ∈ s.selected)) (oldest.dropWhile (· ∈ s.selected)) with
    | none      => s
    | some pick =>
      let (late, reads) := call.look (s.processed ≠ 0) s.reads
      if late then { s with reads := reads }
      else serve codec call connector recent oldest n (inspectPick codec call pick { s with reads := reads })

/-! ### The batch -/

/-- The state of a batch between connectors. The attempts and the picks are its history. -/
structure Progress where
  world : World
  reads : Nat
  processed : Nat
  attempted : Nat
  locked : Nat
  cursor : Int
  attempts : List (Attempt Int)
  picks : List Pick

/-- One connector that is not locked: the progress, and whether its candidates were not inspected for lack of time. -/
def attempt (codec : Codec) (call : Call) (quota : Nat) (connector : Int) (s : Progress) :
    Except String (Progress × Bool) := do
  let db := call.wakeSourcePage connector quota (s.world.custody connector)
  let recent := recentCandidates call connector quota db
  let oldest := oldestCandidates call connector quota db
  let burst := (s.world.burst connector).getD 0
  refuse (¬ (0 ≤ burst ∧ burst ≤ priorityBurst)) "CUSTODY_SCHEDULE_INVALID"
  let served := serve codec call connector recent oldest quota ⟨db, burst, s.reads, s.processed, [], []⟩
  let starved := (recent ≠ [] ∨ oldest ≠ []) ∧ served.processed = s.processed
  pure ({ s with
      world := { s.world with
        custody := Function.update s.world.custody connector served.db
        burst := Function.update s.world.burst connector (some served.burst) }
      reads := served.reads
      processed := served.processed
      cursor := if starved then s.cursor else connector
      attempts := s.attempts ++ [⟨connector, starved⟩]
      picks := s.picks ++ served.picks }, starved)

/-- The outer loop of `advance_work_batch`. -/
def attend (codec : Codec) (call : Call) (quota : Nat) : List Int → Progress → Except String Progress
  | [], s                => .ok s
  | connector :: rest, s =>
    let (late, reads) := call.look (s.attempted ≠ 0) s.reads
    if late then .ok { s with reads := reads }
    else
      let s := { s with reads := reads, attempted := s.attempted + 1 }
      if call.connectorLocked connector then
        attend codec call quota rest
          { s with locked := s.locked + 1, cursor := connector, attempts := s.attempts ++ [⟨connector, false⟩] }
      else do
        let (s, starved) ← attempt codec call quota connector s
        if starved then pure s else attend codec call quota rest s

/-- `advance_work_batch`. The cursor at the end is `after_connector` of the result. -/
def advanceWorkBatch (codec : Codec) (call : Call) (world : World) : Except String Progress :=
  attend codec call (quota call world) (batchConnectors call world)
    ⟨world, 0, 0, 0, 0, call.afterConnector, [], []⟩

/-! ### Bursts -/

/-- A recent row was taken although there was another candidate. -/
def Pick.Over (pick : Pick) : Prop := pick.recent = true ∧ pick.hasOldest = true

/-- How the burst counter goes with the picks of a connector. -/
inductive Bursts : Int → List Pick → Int → Prop
  | nil (burst : Int) : Bursts burst [] burst
  | cons {burst burst' : Int} {pick : Pick} {rest : List Pick} (nonneg : 0 ≤ burst)
      (room : pick.Over → burst < priorityBurst)
      (tail : Bursts (if pick.recent then min priorityBurst (burst + 1) else 0) rest burst') :
      Bursts burst (pick :: rest) burst'

lemma Bursts.append {b b' b'' : Int} {l l' : List Pick} (h : Bursts b l b') (h' : Bursts b' l' b'') :
    Bursts b (l ++ l') b'' := by
  induction h with
  | nil => exact h'
  | cons nonneg room _ ih => exact .cons nonneg room (ih h')

/-- The counter has seen the last picks. -/
def Streak (picks : List Pick) (burst : Int) : Prop :=
  ∀ before run, picks = before ++ run → (∀ pick ∈ run, pick.Over) → run ≠ [] → (run.length : Int) ≤ burst

/-- No run of picks over another candidate is longer than the bound. -/
def Bounded (picks : List Pick) : Prop :=
  ∀ before run after, picks = before ++ run ++ after → (∀ pick ∈ run, pick.Over) → (run.length : Int) ≤ priorityBurst

section Streak

variable {picks new : List Pick} {burst burst' : Int} {pick : Pick}

lemma Streak.concat (h : Streak picks burst) (nonneg : 0 ≤ burst) (room : pick.Over → burst < priorityBurst) :
    Streak (picks ++ [pick]) (if pick.recent then min priorityBurst (burst + 1) else 0) := by
  intro before run hrun hover hne
  obtain ⟨run, last, rfl⟩ := (List.eq_nil_or_concat' run).resolve_left hne
  rw [← List.append_assoc] at hrun
  obtain ⟨hbefore, hlast⟩ := List.append_inj' hrun rfl
  obtain rfl : pick = last := by simpa using hlast
  have hpick : pick.Over := hover pick (List.mem_append_right _ (List.mem_singleton_self _))
  have hroom := room hpick
  rw [hpick.1, if_pos rfl, List.length_append, List.length_singleton]
  by_cases hrun : run = []
  · subst hrun
    simp only [List.length_nil]
    omega
  · have hle := h before run hbefore (fun p hp => hover p (List.mem_append_left _ hp)) hrun
    omega

lemma Bounded.concat (h : Bounded picks) (hstreak : Streak (picks ++ [pick]) burst) (hle : burst ≤ priorityBurst) :
    Bounded (picks ++ [pick]) := by
  intro before run after hrun hover
  obtain rfl | ⟨after, last, rfl⟩ := List.eq_nil_or_concat' after
  · rw [List.append_nil] at hrun
    by_cases hne : run = []
    · subst hne
      decide
    · exact (hstreak before run hrun hover hne).trans hle
  · rw [← List.append_assoc] at hrun
    exact h before run after (List.append_inj' hrun rfl).1 hover

/-- The counter bounds the runs of picks over another candidate. -/
lemma Bursts.bounded (h : Bursts burst new burst') (hstreak : Streak picks burst) (hbounded : Bounded picks) :
    Streak (picks ++ new) burst' ∧ Bounded (picks ++ new) := by
  induction h generalizing picks with
  | nil =>
    rw [List.append_nil]
    exact ⟨hstreak, hbounded⟩
  | @cons burst _ pick rest nonneg room _ ih =>
    have hstreak' := hstreak.concat nonneg room
    have hle : (if pick.recent then min priorityBurst (burst + 1) else 0) ≤ priorityBurst := by
      split_ifs
      · exact min_le_left _ _
      · decide
    have h := ih hstreak' (hbounded.concat hstreak' hle)
    rwa [List.append_assoc] at h

end Streak

/-! ### One connector -/

variable {codec : Codec} {call : Call} {world : World} {connector : Int} {recent oldest : List Nat}

/-- A row that is not skipped is not among those skipped. -/
lemma not_mem_of_dropWhile {selected rows rest : List Nat} {row : Nat}
    (h : rows.dropWhile (· ∈ selected) = row :: rest) : row ∉ selected := by
  have hhead := List.head?_dropWhile_not (fun x => decide (x ∈ selected)) rows
  rw [h] at hhead
  simpa using hhead

/-- What the next row is. -/
lemma nextPick_spec {burst : Int} {selected : List Nat} {pick : Pick}
    (h : nextPick connector burst (recent.dropWhile (· ∈ selected)) (oldest.dropWhile (· ∈ selected)) = some pick) :
    pick.connector = connector ∧ pick.workId ∉ selected ∧ (pick.Over → burst < priorityBurst) := by
  cases hrecent : recent.dropWhile (· ∈ selected) with
  | nil =>
    cases holdest : oldest.dropWhile (· ∈ selected) with
    | nil =>
      rw [hrecent, holdest] at h
      cases h
    | cons row rest =>
      rw [hrecent, holdest] at h
      cases h
      exact ⟨rfl, not_mem_of_dropWhile holdest, fun hover => absurd hover.1 Bool.false_ne_true⟩
  | cons newest later =>
    cases holdest : oldest.dropWhile (· ∈ selected) with
    | nil =>
      rw [hrecent, holdest] at h
      cases h
      exact ⟨rfl, not_mem_of_dropWhile hrecent, fun hover => absurd hover.2 Bool.false_ne_true⟩
    | cons row rest =>
      rw [hrecent, holdest, nextPick] at h
      split_ifs at h with hburst
      · cases h
        exact ⟨rfl, not_mem_of_dropWhile hrecent, fun _ => hburst⟩
      · cases h
        exact ⟨rfl, not_mem_of_dropWhile holdest, fun hover => absurd hover.1 Bool.false_ne_true⟩

/-- What the inner loop does. -/
structure Served (connector : Int) (n : Nat) (s s' : Serving) (new : List Pick) : Prop where
  picks : s'.picks = s.picks ++ new
  length : new.length ≤ n
  connector : ∀ pick ∈ new, pick.connector = connector
  fresh : ∀ pick ∈ new, pick.workId ∉ s.selected
  nodup : (new.map (·.workId)).Nodup
  bursts : Bursts s.burst new s'.burst

lemma serve_spec (codec : Codec) (call : Call) (connector : Int) (recent oldest : List Nat) (n : Nat) (s : Serving)
    (hburst : 0 ≤ s.burst) :
    ∃ new, Served connector n s (serve codec call connector recent oldest n s) new := by
  induction n generalizing s with
  | zero => exact ⟨[], by simp [serve], le_rfl, nofun, nofun, List.nodup_nil, .nil _⟩
  | succ n ih =>
    rw [serve]
    split
    · exact ⟨[], by simp, Nat.zero_le _, nofun, nofun, List.nodup_nil, .nil _⟩
    · rename_i pick hpick
      obtain ⟨hconnector, hfresh, hroom⟩ := nextPick_spec hpick
      dsimp only
      split_ifs
      · exact ⟨[], by simp, Nat.zero_le _, nofun, nofun, List.nodup_nil, .nil _⟩
      · have hnonneg : 0 ≤ if pick.recent then min priorityBurst (s.burst + 1) else 0 := by
          split_ifs
          · exact le_min (by decide) (by omega)
          · exact le_rfl
        obtain ⟨new, hnew⟩ := ih (inspectPick codec call pick
          { s with reads := (call.look (s.processed ≠ 0) s.reads).2 }) hnonneg
        have hselected : ∀ p ∈ new, p.workId ∉ s.selected ∧ p.workId ≠ pick.workId := by
          intro p hp
          simpa [inspectPick] using hnew.fresh p hp
        refine ⟨pick :: new, ?_, Nat.succ_le_succ hnew.length, ?_, ?_, ?_, ?_⟩
        · rw [hnew.picks]
          simp [inspectPick]
        · exact List.forall_mem_cons.2 ⟨hconnector, hnew.connector⟩
        · exact List.forall_mem_cons.2 ⟨hfresh, fun p hp => (hselected p hp).1⟩
        · rw [List.map_cons, List.nodup_cons]
          refine ⟨fun hmem => ?_, hnew.nodup⟩
          obtain ⟨p, hp, hid⟩ := List.mem_map.1 hmem
          exact (hselected p hp).2 hid
        · exact .cons hburst hroom hnew.bursts

/-! ### The batch -/

/-- What one connector adds to a batch. -/
structure Turn (quota : Nat) (connector : Int) (s s' : Progress) (new : List Pick) (starved : Bool) : Prop where
  picks : s'.picks = s.picks ++ new
  attempts : s'.attempts = s.attempts ++ [⟨connector, starved⟩]
  cursor : s'.cursor = if starved then s.cursor else connector
  length : new.length ≤ quota
  bursts : Bursts ((s.world.burst connector).getD 0) new ((s'.world.burst connector).getD 0)
  others : ∀ other ≠ connector, s'.world.burst other = s.world.burst other
  nodup : (new.map (·.workId)).Nodup
  connector : ∀ pick ∈ new, pick.connector = connector

/-- A batch: connectors in turn, until the time is up or one of them starves. -/
inductive Turns (quota : Nat) : List Int → Progress → Progress → Prop
  | stop (connectors : List Int) (s : Progress) (reads : Nat) : Turns quota connectors s { s with reads := reads }
  | turn {connector : Int} {rest : List Int} {s s' s'' : Progress} {new : List Pick}
      (first : Turn quota connector s s' new false) (later : Turns quota rest s' s'') :
      Turns quota (connector :: rest) s s''
  | starve {connector : Int} {rest : List Int} {s s' : Progress} {new : List Pick}
      (first : Turn quota connector s s' new true) : Turns quota (connector :: rest) s s'

/-- A connector that is locked is passed over. -/
lemma turn_locked {quota : Nat} (s : Progress) (reads attempted locked : Nat) :
    Turn quota connector s
      { s with
        reads := reads, attempted := attempted, locked := locked, cursor := connector
        attempts := s.attempts ++ [⟨connector, false⟩] } [] false where
  picks := (List.append_nil _).symm
  attempts := rfl
  cursor := rfl
  length := Nat.zero_le _
  bursts := .nil _
  others _ _ := rfl
  nodup := List.nodup_nil
  connector := nofun

lemma attempt_turn {quota : Nat} {s s' : Progress} {starved : Bool} {reads attempted : Nat}
    (h : attempt codec call quota connector { s with reads := reads, attempted := attempted } = .ok (s', starved)) :
    ∃ new, Turn quota connector s s' new starved := by
  simp only [attempt, bind_eq_ok, refuse_eq_ok, pure_eq_ok, exists_const, not_not, Prod.mk.injEq] at h
  obtain ⟨⟨hnonneg, -⟩, rfl, rfl⟩ := h
  obtain ⟨new, hnew⟩ := serve_spec codec call connector
    (recentCandidates call connector quota (call.wakeSourcePage connector quota (s.world.custody connector)))
    (oldestCandidates call connector quota (call.wakeSourcePage connector quota (s.world.custody connector))) quota
    ⟨call.wakeSourcePage connector quota (s.world.custody connector), (s.world.burst connector).getD 0, reads,
      s.processed, [], []⟩ hnonneg
  refine ⟨new, ?_, rfl, by simp, hnew.length, ?_, ?_, hnew.nodup, hnew.connector⟩
  · exact congrArg (s.picks ++ ·) hnew.picks
  · simpa using hnew.bursts
  · intro other hother
    exact Function.update_of_ne hother _ _

lemma attend_turns {quota : Nat} (connectors : List Int) {s s' : Progress}
    (h : attend codec call quota connectors s = .ok s') : Turns quota connectors s s' := by
  induction connectors generalizing s with
  | nil =>
    cases h
    exact .stop [] s' s'.reads
  | cons connector rest ih =>
    rw [attend] at h
    dsimp only at h
    split_ifs at h with hlate hlocked
    · cases h
      exact .stop _ _ _
    · have hrest := ih h
      exact .turn (turn_locked s _ _ _) hrest
    · rw [bind_eq_ok] at h
      obtain ⟨⟨s₁, starved⟩, hattempt, hrest⟩ := h
      obtain ⟨new, hturn⟩ := attempt_turn hattempt
      dsimp only at hrest
      cases starved with
      | true =>
        cases hrest
        exact .starve hturn
      | false => exact .turn hturn (ih hrest)

section Batch

variable {quota : Nat} {connectors : List Int} {s s' : Progress} {new : List Pick} {starved : Bool}

/-- The picks of a turn are all of its connector. -/
lemma Turn.filter_eq (h : Turn quota connector s s' new starved) (other : Int) :
    new.filter (·.connector = other) = if other = connector then new else [] := by
  split_ifs with heq
  · exact List.filter_eq_self.2 fun pick hpick => by simp [h.connector pick hpick, heq]
  · exact List.filter_eq_nil_iff.2 fun pick hpick => by simpa [h.connector pick hpick] using Ne.symm heq

lemma Turn.nodup_rows (h : Turn quota connector s s' new starved) :
    (new.map fun pick => (pick.connector, pick.workId)).Nodup := by
  refine List.Nodup.of_map Prod.snd ?_
  rw [List.map_map]
  exact h.nodup

/-- The picks of a batch are of rows that differ, and of each connector there are at most as many as its quota. -/
lemma Turns.picks (h : Turns quota connectors s s') (hnodup : connectors.Nodup) :
    ∃ new, s'.picks = s.picks ++ new ∧ new.length ≤ connectors.length * quota ∧
      (∀ pick ∈ new, pick.connector ∈ connectors) ∧
      (∀ connector, (new.filter (·.connector = connector)).length ≤ quota) ∧
      (new.map fun pick => (pick.connector, pick.workId)).Nodup := by
  induction h with
  | stop connectors s reads => exact ⟨[], by simp, Nat.zero_le _, nofun, by simp, List.nodup_nil⟩
  | @turn connector rest s s' s'' new first later ih =>
    obtain ⟨hnot, hnodup⟩ := List.nodup_cons.1 hnodup
    obtain ⟨new', hpicks, hlength, hmem, hquota, hrows⟩ := ih hnodup
    have hother : new'.filter (·.connector = connector) = [] := by
      refine List.filter_eq_nil_iff.2 fun pick hpick heq => hnot ?_
      rw [← of_decide_eq_true heq]
      exact hmem pick hpick
    refine ⟨new ++ new', ?_, ?_, ?_, ?_, ?_⟩
    · rw [hpicks, first.picks, List.append_assoc]
    · rw [List.length_append, List.length_cons, Nat.succ_mul, Nat.add_comm]
      exact Nat.add_le_add hlength first.length
    · refine List.forall_mem_append.2 ⟨fun pick hpick => ?_, fun pick hpick => List.mem_cons_of_mem _ (hmem pick hpick)⟩
      rw [first.connector pick hpick]
      exact List.mem_cons_self
    · intro c
      rw [List.filter_append, first.filter_eq]
      split_ifs with hc
      · rw [hc, hother, List.append_nil]
        exact first.length
      · rw [List.nil_append]
        exact hquota c
    · rw [List.map_append, List.nodup_append']
      refine ⟨first.nodup_rows, hrows, fun row hrow hrow' => hnot ?_⟩
      obtain ⟨pick, hpick, rfl⟩ := List.mem_map.1 hrow
      obtain ⟨pick', hpick', heq⟩ := List.mem_map.1 hrow'
      have hconnector : pick'.connector = pick.connector := (Prod.ext_iff.1 heq).1
      rw [← first.connector pick hpick, ← hconnector]
      exact hmem pick' hpick'
  | @starve connector rest s s' new first =>
    refine ⟨new, first.picks, ?_, ?_, ?_, first.nodup_rows⟩
    · exact first.length.trans (Nat.le_mul_of_pos_left _ (Nat.succ_pos _))
    · intro pick hpick
      rw [first.connector pick hpick]
      exact List.mem_cons_self
    · intro c
      exact (List.length_filter_le _ _).trans first.length

lemma Turn.bursts_filter (h : Turn quota connector s s' new starved) (other : Int) :
    Bursts ((s.world.burst other).getD 0) (new.filter (·.connector = other)) ((s'.world.burst other).getD 0) := by
  rw [h.filter_eq]
  split_ifs with heq
  · rw [heq]
    exact h.bursts
  · rw [h.others other heq]
    exact .nil _

/-- The burst counters go with the picks. -/
lemma Turns.bursts (h : Turns quota connectors s s') :
    ∃ new, s'.picks = s.picks ++ new ∧ ∀ connector, Bursts ((s.world.burst connector).getD 0)
      (new.filter (·.connector = connector)) ((s'.world.burst connector).getD 0) := by
  induction h with
  | stop connectors s reads => exact ⟨[], by simp, fun _ => .nil _⟩
  | @turn connector rest s s' s'' new first later ih =>
    obtain ⟨new', hpicks, hbursts⟩ := ih
    refine ⟨new ++ new', by rw [hpicks, first.picks, List.append_assoc], fun c => ?_⟩
    rw [List.filter_append]
    exact (first.bursts_filter c).append (hbursts c)
  | starve first => exact ⟨_, first.picks, first.bursts_filter⟩

/-- The connectors are attempted in turn. -/
lemma Turns.attempts {due : List Int} (hsorted : due.Pairwise (· < ·)) (h : Turns quota connectors s s')
    (hpre : connectors <+: order due s.cursor) :
    ∃ new, s'.attempts = s.attempts ++ new ∧ Attempts due s.cursor new s'.cursor ∧
      ∀ attempt ∈ new.dropLast, attempt.starved = false := by
  induction h with
  | stop connectors s reads => exact ⟨[], by simp, .nil _, nofun⟩
  | @turn connector rest s s' s'' new first later ih =>
    obtain ⟨after, hafter⟩ := hpre
    have horder : order due s.cursor = connector :: (rest ++ after) := hafter.symm
    have hcursor : s'.cursor = connector := first.cursor
    have hnext : rest <+: order due s'.cursor := by
      rw [hcursor, order_served hsorted horder, List.append_assoc]
      exact List.prefix_append _ _
    obtain ⟨attempts, hattempts, hturns, hstarved⟩ := ih hnext
    refine ⟨⟨connector, false⟩ :: attempts, ?_, .cons horder (hcursor ▸ hturns), fun attempt hattempt => ?_⟩
    · rw [hattempts, first.attempts, List.append_assoc, List.singleton_append]
    · obtain _ | ⟨head, tail⟩ := attempts
      · cases hattempt
      · rw [List.dropLast_cons_cons] at hattempt
        obtain rfl | hattempt := List.mem_cons.1 hattempt
        · rfl
        · exact hstarved attempt hattempt
  | @starve connector rest s s' new first =>
    obtain ⟨after, hafter⟩ := hpre
    refine ⟨[⟨connector, true⟩], first.attempts, .cons hafter.symm ?_, nofun⟩
    rw [first.cursor]
    exact .nil _

end Batch

/-! ### Sequences of calls -/

lemma sorted_dueConnectors (call : Call) (world : World) : (dueConnectors call world).Pairwise (· < ·) :=
  world.sorted.filter _

lemma nodup_batchConnectors (call : Call) (world : World) : (batchConnectors call world).Nodup :=
  (nodup_order (sorted_dueConnectors call world) _).sublist (List.take_sublist _ _)

lemma length_order {due : List Int} (hsorted : due.Pairwise (· < ·)) (cursor : Int) :
    (order due cursor).length = due.length := by
  have hlength := congrArg List.length (filter_le_append_filter_lt hsorted cursor)
  rw [order, List.length_append, Nat.add_comm, ← List.length_append, hlength]

lemma length_batchConnectors (call : Call) (world : World) :
    (batchConnectors call world).length = min call.maximum (dueConnectors call world).length := by
  rw [batchConnectors, List.length_take, length_order (sorted_dueConnectors call world)]

lemma maximum_pos (call : Call) : 0 < call.maximum := by
  rw [Call.maximum]
  omega

/-- The quota is what each of the due connectors may have of the whole. -/
lemma quota_eq (call : Call) (world : World) (hdue : dueConnectors call world ≠ []) :
    quota call world = max 1 (call.maximum / (dueConnectors call world).length) := by
  have hpos := maximum_pos call
  have hone : max 1 (dueConnectors call world).length = (dueConnectors call world).length :=
    max_eq_right (List.length_pos_iff.2 hdue)
  have hmaximum : max 1 call.maximum = call.maximum := max_eq_right hpos
  rw [quota, length_batchConnectors]
  obtain hle | hlt := le_or_gt (dueConnectors call world).length call.maximum
  · rw [min_eq_right hle, hone]
  · rw [min_eq_left hlt.le, hmaximum, Nat.div_self hpos, Nat.div_eq_of_lt hlt]
    decide

/-- The quotas of a batch are within the bound on the whole. -/
lemma length_mul_quota_le (call : Call) (world : World) :
    (batchConnectors call world).length * quota call world ≤ call.maximum := by
  have hle : (batchConnectors call world).length ≤ call.maximum := by
    rw [length_batchConnectors]
    exact min_le_left _ _
  rw [quota]
  obtain hzero | hpos := Nat.eq_zero_or_pos (batchConnectors call world).length
  · rw [hzero, Nat.zero_mul]
    exact Nat.zero_le _
  · rw [max_eq_right (Nat.succ_le_of_lt hpos), max_eq_right (Nat.div_pos hle hpos)]
    exact Nat.mul_div_le _ _

/-- Calls one after the other, with the picks of each. Between two calls anything may change but the schedules. -/
inductive Calls (codec : Codec) : World → List Pick → World → Prop
  | nil (world : World) : Calls codec world [] world
  | call {start world world' : World} {picks : List Pick} {call : Call} {s : Progress}
      (before : Calls codec start picks world) (schedules : world'.burst = world.burst)
      (batch : advanceWorkBatch codec call world' = .ok s) : Calls codec start (picks ++ s.picks) s.world

/-- Calls that each start from the cursor of the one before, while the due connectors stay the same, with the attempts
of each. -/
inductive Rotation (codec : Codec) (due : List Int) : Int → List (Attempt Int) → Int → Prop
  | nil (cursor : Int) : Rotation codec due cursor [] cursor
  | call {start : Int} {attempts : List (Attempt Int)} {call : Call} {world : World} {s : Progress}
      (before : Rotation codec due start attempts call.afterConnector) (same : dueConnectors call world = due)
      (batch : advanceWorkBatch codec call world = .ok s) : Rotation codec due start (attempts ++ s.attempts) s.cursor

section Batches

variable {s : Progress} {picks : List Pick} {start cursor : Int} {tries : List (Attempt Int)} {due : List Int}
  {world' : World}

lemma batch_turns (h : advanceWorkBatch codec call world = .ok s) :
    Turns (quota call world) (batchConnectors call world) ⟨world, 0, 0, 0, 0, call.afterConnector, [], []⟩ s :=
  attend_turns _ h

lemma batch_bursts (h : advanceWorkBatch codec call world = .ok s) (connector : Int) :
    Bursts ((world.burst connector).getD 0) (s.picks.filter (·.connector = connector))
      ((s.world.burst connector).getD 0) := by
  obtain ⟨new, hpicks, hbursts⟩ := (batch_turns h).bursts
  rw [hpicks]
  exact hbursts connector

lemma batch_attempts (h : advanceWorkBatch codec call world = .ok s) :
    Attempts (dueConnectors call world) call.afterConnector s.attempts s.cursor ∧
      ∀ attempt ∈ s.attempts.dropLast, attempt.starved = false := by
  obtain ⟨new, hattempts, hturns, hstarved⟩ :=
    (batch_turns h).attempts (sorted_dueConnectors call world) (List.take_prefix _ _)
  rw [hattempts]
  exact ⟨hturns, hstarved⟩

/-- The counter of a connector goes with its picks through all calls. -/
lemma Calls.bounded (h : Calls codec world picks world') (connector : Int) :
    Streak (picks.filter (·.connector = connector)) ((world'.burst connector).getD 0) ∧
      Bounded (picks.filter (·.connector = connector)) := by
  induction h with
  | nil =>
    refine ⟨fun before run hrun _ hne => absurd ?_ hne, fun before run after hrun _ => ?_⟩
    · exact (List.append_eq_nil_iff.1 hrun.symm).2
    · obtain ⟨hbefore, -⟩ := List.append_eq_nil_iff.1 hrun.symm
      rw [(List.append_eq_nil_iff.1 hbefore).2]
      decide
  | call before schedules batch ih =>
    rw [List.filter_append]
    refine (batch_bursts batch connector).bounded ?_ ih.2
    rw [schedules]
    exact ih.1

lemma Rotation.attempts (h : Rotation codec due start tries cursor) : Attempts due start tries cursor := by
  induction h with
  | nil => exact .nil _
  | call before same batch ih =>
    have hbatch := (batch_attempts batch).1
    rw [same] at hbatch
    exact ih.append hbatch

lemma Rotation.sorted (h : Rotation codec due start tries cursor) (hne : tries ≠ []) : due.Pairwise (· < ·) := by
  cases h with
  | nil => exact absurd rfl hne
  | call before same batch => exact same ▸ sorted_dueConnectors _ _

end Batches

/-- A batch keeps its bounds, bursts are bounded over all calls, and the connectors take turns. -/
theorem work_batch_bounded_fair (codec : Codec) :
    (∀ call world s, advanceWorkBatch codec call world = .ok s →
      (s.picks.map fun pick => (pick.connector, pick.workId)).Nodup ∧ s.picks.length ≤ call.maximum ∧
      ∀ connector, (s.picks.filter (·.connector = connector)).length ≤
        max 1 (call.maximum / (dueConnectors call world).length)) ∧
    (∀ world world' picks, Calls codec world picks world' → ∀ connector before run after,
      picks.filter (·.connector = connector) = before ++ run ++ after → (∀ pick ∈ run, pick.Over) → run.length ≤ 8) ∧
    (∀ due start attempts cursor, Rotation codec due start attempts cursor →
      (∀ (i j : Nat) (attempt again : Attempt Int), i < j → attempts[i]? = some attempt → attempts[j]? = some again →
        again.item = attempt.item → attempt.starved = false →
        ∀ other ∈ due, other ≠ attempt.item → ∃ k between, i < k ∧ k < j ∧ attempts[k]? = some between ∧
          between.item = other) ∧
      (∀ (i : Nat) (attempt next : Attempt Int), attempts[i]? = some attempt → attempts[i + 1]? = some next → attempt.starved = true →
        next.item = attempt.item)) ∧
    ∀ call world s, advanceWorkBatch codec call world = .ok s → ∀ attempt ∈ s.attempts.dropLast,
      attempt.starved = false := by
  refine ⟨?_, ?_, ?_, fun call world s h => (batch_attempts h).2⟩
  · intro call world s h
    obtain ⟨new, hpicks, hlength, hmem, hquota, hrows⟩ := (batch_turns h).picks (nodup_batchConnectors call world)
    rw [hpicks]
    refine ⟨hrows, hlength.trans (length_mul_quota_le call world), fun connector => ?_⟩
    by_cases hdue : dueConnectors call world = []
    · have hzero : (batchConnectors call world).length = 0 := by
        rw [length_batchConnectors, hdue, List.length_nil, Nat.min_zero]
      rw [hzero, Nat.zero_mul] at hlength
      exact (List.length_filter_le _ _).trans (hlength.trans (Nat.zero_le _))
    · rw [← quota_eq call world hdue]
      exact hquota connector
  · intro world world' picks h connector before run after hrun hover
    exact Int.ofNat_le.1 ((h.bounded connector).2 before run after hrun hover)
  · intro due start attempts cursor h
    refine ⟨fun i j attempt again hij hi hj hsame hserved => ?_, fun i attempt next hi hnext hstarved => ?_⟩
    · have hne : attempts ≠ [] := by
        rintro rfl
        simp at hi
      exact h.attempts.fair (h.sorted hne) hi hj hij hserved hsame
    · exact h.attempts.starved hi hnext hstarved

end Zkt.Custody
