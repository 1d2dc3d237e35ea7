import Mathlib
import AutoAttn.DeviceSession.Basic

/-!
# No message lost, no wake-up lost

Every turn keeps the queue within its bounds and in order, and a task that waits on an event that is not set
has nothing to do.
-/

namespace DeviceSession

variable {α : Type} {s s' : Session α} {q : InboundQueue α}

/-! ### Events -/

@[simp] lemma value_set (e : Event) : e.set.value = true := by
  unfold Event.set
  split_ifs with h
  · exact h
  · rfl

/-- A task waits for the event: its future is resolved exactly when the event is set. -/
def Event.Awaited (e : Event) : Prop := e.waiter = some e.value

lemma Event.Awaited.set {e : Event} (h : e.Awaited) : e.set.Awaited := by
  unfold Event.Awaited Event.set at *
  split_ifs with hv
  · exact h
  · simp [h]

lemma Event.awaited_clearWait (e : Event) : e.clearWait.Awaited := rfl

/-! ### The queue -/

/-- The bounds of the queue, and what a waiting reader or worker waits for. -/
structure InboundQueue.Bounded (q : InboundQueue α) : Prop where
  room : 1 ≤ q.maxMessages
  length_le : q.items.length ≤ q.maxMessages
  bytes_eq : q.bytes = (q.items.map (·.2)).sum
  bytes_le : q.bytes ≤ q.maxBytes ∨ q.items.length ≤ 1

namespace InboundQueue.Bounded

lemma single (h : q.Bounded) (hb : q.maxBytes < q.bytes) : q.items.length = 1 := by
  have hone := h.bytes_le.resolve_left (Nat.not_le.2 hb)
  have hne : q.items ≠ [] := fun hnil => by
    rw [h.bytes_eq, hnil] at hb
    exact Nat.not_lt_zero _ hb
  have := List.length_pos_iff.2 hne
  omega

/-- A message that is admitted fits. -/
lemma push (h : q.Bounded) {size : Nat} (ha : q.admits size = true) :
    q.items.length + 1 ≤ q.maxMessages ∧ (q.bytes + size ≤ q.maxBytes ∨ q.items.length + 1 ≤ 1) := by
  have := h.room
  unfold admits at ha
  split_ifs at ha with hnil
  · rw [List.isEmpty_iff] at hnil
    simp only [hnil, List.length_nil]
    omega
  · simp only [Bool.and_eq_true, decide_eq_true_eq] at ha
    omega

lemma put (h : q.Bounded) (item : α) (size : Nat) (waited : Bool) : (q.put item size waited).1.Bounded := by
  unfold InboundQueue.put
  split
  · rename_i ha
    obtain ⟨hlen, hbytes⟩ := h.push ha
    exact ⟨h.room, by simpa using hlen, by simp [h.bytes_eq], by simpa using hbytes⟩
  · exact ⟨h.room, h.length_le, h.bytes_eq, h.bytes_le⟩

lemma finish (h : q.Bounded) : q.finish.Bounded := ⟨h.room, h.length_le, h.bytes_eq, h.bytes_le⟩

end InboundQueue.Bounded

/-- The queue without its first message. -/
def InboundQueue.taken (q : InboundQueue α) (size : Nat) (items : List (α × Nat)) : InboundQueue α :=
  { q with items, bytes := q.bytes - size, writable := q.writable.set }

/-- All that a turn in `next_message` can do. -/
lemma getTurn_cases (s : Session α) :
    (s.queue.items = [] ∧ s.queue.finished = true ∧ s.getTurn = { s with worker := .done }) ∨
    (s.queue.items = [] ∧ s.queue.finished = false ∧ s.getTurn = { s with
      queue := { s.queue with readable := s.queue.readable.clearWait }, worker := .getting }) ∨
    ∃ item size items, s.queue.items = (item, size) :: items ∧
      ((∃ kind code, stopReason s.stops = some (kind, code) ∧
        s.getTurn = { s with queue := s.queue.taken size items, worker := .done }.markEnd kind code) ∨
      (stopReason s.stops = none ∧ s.getTurn = { s with
        queue := s.queue.taken size items, worker := .working, handedOver := s.handedOver + 1
        handed := s.handed ++ [item] })) := by
  unfold Session.getTurn
  cases hi : s.queue.items with
  | nil =>
    cases hf : s.queue.finished with
    | true => exact .inl ⟨rfl, rfl, by simp [InboundQueue.get, hi, hf]⟩
    | false => exact .inr (.inl ⟨rfl, rfl, by simp [InboundQueue.get, hi, hf]⟩)
  | cons head items =>
    obtain ⟨item, size⟩ := head
    refine .inr (.inr ⟨item, size, items, rfl, ?_⟩)
    have hget : s.queue.get = (s.queue.taken size items, .item item) := by
      simp [InboundQueue.get, hi, InboundQueue.taken]
    cases hstop : stopReason s.stops with
    | none => exact .inr ⟨rfl, by rw [hget]⟩
    | some reason => exact .inl ⟨reason.1, reason.2, rfl, by rw [hget]⟩

/-! ### What every turn keeps -/

/-- The messages put are those handed over, one that was refused, and those still queued. -/
def InOrder (s : Session α) : Prop :=
  ∃ refused, s.put.map (·.1) = s.handed ++ refused ++ s.queue.items.map (·.1) ∧
    (s.worker ≠ .done → refused = [])

/-- A worker whose event is not set has nothing to get. -/
def WorkerWaits (s : Session α) : Prop :=
  s.worker = .getting → s.queue.readable.Awaited ∧
    (s.queue.readable.value = false → s.queue.items = [] ∧ s.queue.finished = false)

/-- A reader whose event is not set has no room. -/
def ReaderWaits (s : Session α) : Prop :=
  ∀ item size, s.reader = .putting item size → s.queue.writable.Awaited ∧
    (s.queue.writable.value = false → s.queue.admits size = false)

lemma ReaderWaits.set (h : ReaderWaits s) (hreader : s'.reader = s.reader)
    (hset : s'.queue.writable = s.queue.writable.set) : ReaderWaits s' := by
  intro item size hr
  rw [hset, value_set]
  exact ⟨(h item size (hreader ▸ hr)).1.set, nofun⟩

/-- What holds between two turns. -/
structure Inv (s : Session α) : Prop where
  bounded : s.queue.Bounded
  order : InOrder s
  finished : s.queue.finished = true → s.reader = .ended
  worker : WorkerWaits s
  reader : ReaderWaits s

/-- A turn in `put`: a message that is put sets the worker's event. -/
lemma inv_putTurn (hb : s.queue.Bounded) (ho : InOrder s) (hf : s.queue.finished = false) (hw : WorkerWaits s)
    (item : α) (size : Nat) (waited : Bool) : Inv (s.putTurn item size waited) := by
  have hbounded := hb.put item size waited
  by_cases ha : s.queue.admits size = true
  · simp only [Session.putTurn, InboundQueue.put, ha, if_true] at hbounded ⊢
    obtain ⟨refused, hput, hrefused⟩ := ho
    refine ⟨hbounded, ⟨refused, ?_, hrefused⟩, fun h => ?_, fun h => ⟨(hw h).1.set, ?_⟩, nofun⟩
    · simp [hput]
    · exact absurd (hf.symm.trans h) Bool.false_ne_true
    · rw [value_set]
      exact nofun
  · simp only [Session.putTurn, InboundQueue.put, ha, Bool.false_eq_true, if_false] at hbounded ⊢
    refine ⟨hbounded, ho, fun h => ?_, hw, ?_⟩
    · exact absurd (hf.symm.trans h) Bool.false_ne_true
    · rintro _ _ ⟨⟩
      exact ⟨s.queue.writable.awaited_clearWait, fun _ => (Bool.not_eq_true _).mp ha⟩

lemma InboundQueue.Bounded.taken (h : q.Bounded) {item : α} {size : Nat} {items : List (α × Nat)}
    (hi : q.items = (item, size) :: items) : (q.taken size items).Bounded := by
  obtain ⟨hroom, hlen, heq, hbytes⟩ := h
  rw [hi] at hlen heq hbytes
  simp only [List.length_cons, List.map_cons, List.sum_cons] at hlen heq hbytes
  refine ⟨hroom, ?_, ?_, ?_⟩ <;> dsimp only [InboundQueue.taken] <;> omega

/-- A turn in `next_message`: a message that is taken sets the reader's event. -/
lemma inv_getTurn (hb : s.queue.Bounded) (ho : InOrder s) (hworker : s.worker ≠ .done)
    (hf : s.queue.finished = true → s.reader = .ended) (hr : ReaderWaits s) : Inv s.getTurn := by
  obtain ⟨refused, hput, hrefused⟩ := ho
  obtain rfl := hrefused hworker
  rw [List.append_nil] at hput
  obtain ⟨-, -, hturn⟩ | ⟨hi, hfin, hturn⟩ | ⟨item, size, items, hi, ⟨kind, code, -, hturn⟩ | ⟨-, hturn⟩⟩ :=
    getTurn_cases s
  · rw [hturn]
    exact ⟨hb, ⟨[], by simpa using hput, fun _ => rfl⟩, hf, nofun, hr⟩
  · rw [hturn]
    exact ⟨⟨hb.room, hb.length_le, hb.bytes_eq, hb.bytes_le⟩, ⟨[], by simpa using hput, fun _ => rfl⟩, hf,
      fun _ => ⟨s.queue.readable.awaited_clearWait, fun _ => ⟨hi, hfin⟩⟩, hr⟩
  · rw [hturn]
    rw [hi] at hput
    exact ⟨hb.taken hi, ⟨[item], by simpa [Session.markEnd, InboundQueue.taken] using hput, fun h => absurd rfl h⟩, hf, nofun,
      hr.set rfl rfl⟩
  · rw [hturn]
    rw [hi] at hput
    exact ⟨hb.taken hi, ⟨[], by simpa [InboundQueue.taken] using hput, fun _ => rfl⟩, hf, nofun, hr.set rfl rfl⟩

/-- The end of the reader sets the worker's event. -/
lemma inv_endReader (hb : s.queue.Bounded) (ho : InOrder s) (hw : WorkerWaits s) : Inv s.endReader := by
  refine ⟨hb.finish, ho, fun _ => rfl, fun h => ⟨(hw h).1.set, ?_⟩, nofun⟩
  rw [Session.endReader, InboundQueue.finish, value_set]
  exact nofun

/-- Every turn keeps the invariant. -/
lemma Inv.step {a : Action α} (h : Inv s) (hstep : step s a = some s') : Inv s' := by
  have hopen : s.reader ≠ .ended → s.queue.finished = false := fun hne => by
    simpa using mt h.finished hne
  cases a with
  | receive item size =>
    cases hr : s.reader <;> simp only [DeviceSession.step, hr, reduceCtorEq, Option.some.injEq] at hstep
    subst hstep
    refine inv_putTurn ?_ ?_ ?_ ?_ item size false
    exacts [h.bounded, h.order, hopen (by simp [hr]), h.worker]
  | disconnect code =>
    cases hr : s.reader <;> simp only [DeviceSession.step, hr, reduceCtorEq, Option.some.injEq] at hstep
    subst hstep
    exact inv_endReader h.bounded h.order h.worker
  | fail error =>
    cases hr : s.reader <;> simp only [DeviceSession.step, hr, reduceCtorEq, Option.some.injEq] at hstep
    subst hstep
    exact inv_endReader h.bounded h.order h.worker
  | cancel =>
    cases hr : s.reader <;> simp only [DeviceSession.step, hr, reduceCtorEq, Option.some.injEq] at hstep
    · subst hstep
      exact inv_endReader h.bounded h.order h.worker
    · subst hstep
      exact inv_endReader ⟨h.bounded.room, h.bounded.length_le, h.bounded.bytes_eq, h.bounded.bytes_le⟩ h.order
        h.worker
  | wakeReader =>
    simp only [DeviceSession.step] at hstep
    split at hstep
    · rename_i item size hr hwake
      cases hstep
      refine inv_putTurn ?_ ?_ ?_ ?_ item size true
      exacts [⟨h.bounded.room, h.bounded.length_le, h.bounded.bytes_eq, h.bounded.bytes_le⟩, h.order,
        hopen (by simp [hr]), h.worker]
    · exact nomatch hstep
  | next =>
    cases hw : s.worker <;> simp only [DeviceSession.step, hw, reduceCtorEq, Option.some.injEq] at hstep
    subst hstep
    exact inv_getTurn h.bounded h.order (by simp [hw]) h.finished h.reader
  | wakeWorker =>
    simp only [DeviceSession.step] at hstep
    split at hstep
    · rename_i hw hwake
      cases hstep
      refine inv_getTurn ?_ ?_ ?_ ?_ ?_
      exacts [⟨h.bounded.room, h.bounded.length_le, h.bounded.bytes_eq, h.bounded.bytes_le⟩, h.order,
        by simp [hw], h.finished, h.reader]
    · exact nomatch hstep
  | outside stops =>
    cases hstep
    exact ⟨h.bounded, h.order, h.finished, h.worker, h.reader⟩

/-! ### Every interleaving -/

lemma inv_start {maxMessages maxBytes : Nat} (hq : InboundQueue.new maxMessages maxBytes = some q)
    (stops : Stops) : Inv { queue := q, stops : Session α } := by
  unfold InboundQueue.new at hq
  split_ifs at hq with hroom
  cases hq
  exact ⟨⟨by dsimp only; omega, Nat.zero_le _, rfl, .inl (Nat.zero_le _)⟩, ⟨[], rfl, fun _ => rfl⟩, nofun, nofun, nofun⟩

lemma Inv.reaches (h : Inv s) (hr : Reaches s s') : Inv s' := by
  induction hr with
  | refl => exact h
  | tail _ hstep ih =>
    obtain ⟨a, ha⟩ := hstep
    exact ih.step ha

/-- The bounds of the queue. -/
def bounds (s : Session α) : Nat × Nat := (s.queue.maxMessages, s.queue.maxBytes)

lemma putTurn_frame (s : Session α) (item : α) (size : Nat) (waited : Bool) :
    (s.putTurn item size waited).handed = s.handed ∧ (s.putTurn item size waited).worker = s.worker ∧
      bounds (s.putTurn item size waited) = bounds s := by
  by_cases ha : s.queue.admits size = true <;> simp [Session.putTurn, InboundQueue.put, ha, bounds]

lemma getTurn_frame (s : Session α) :
    bounds s.getTurn = bounds s ∧ s.getTurn.put = s.put ∧ s.getTurn.reader = s.reader := by
  obtain ⟨-, -, hturn⟩ | ⟨-, -, hturn⟩ | ⟨item, size, items, -, ⟨kind, code, -, hturn⟩ | ⟨-, hturn⟩⟩ :=
    getTurn_cases s <;> rw [hturn] <;> exact ⟨rfl, rfl, rfl⟩

/-- A turn is one of the worker, or does not touch what is handed over. -/
lemma step_cases {a : Action α} (hstep : step s a = some s') :
    (s'.handed = s.handed ∧ s'.worker = s.worker ∧ bounds s' = bounds s) ∨
      ∃ queue : InboundQueue α, s.worker ≠ .done ∧ queue.items = s.queue.items ∧
        queue.finished = s.queue.finished ∧ bounds { s with queue } = bounds s ∧ s' = { s with queue }.getTurn := by
  cases a with
  | receive item size =>
    cases hr : s.reader <;> simp only [step, hr, reduceCtorEq, Option.some.injEq] at hstep
    subst hstep
    exact .inl (putTurn_frame _ _ _ _)
  | disconnect code =>
    cases hr : s.reader <;> simp only [step, hr, reduceCtorEq, Option.some.injEq] at hstep
    subst hstep
    exact .inl ⟨rfl, rfl, rfl⟩
  | fail error =>
    cases hr : s.reader <;> simp only [step, hr, reduceCtorEq, Option.some.injEq] at hstep
    subst hstep
    exact .inl ⟨rfl, rfl, rfl⟩
  | cancel =>
    cases hr : s.reader <;> simp only [step, hr, reduceCtorEq, Option.some.injEq] at hstep <;>
      exact .inl (hstep ▸ ⟨rfl, rfl, rfl⟩)
  | wakeReader =>
    simp only [step] at hstep
    split at hstep
    · cases hstep
      exact .inl (putTurn_frame _ _ _ _)
    · exact nomatch hstep
  | next =>
    cases hw : s.worker <;> simp only [step, hw, reduceCtorEq, Option.some.injEq] at hstep
    exact .inr ⟨s.queue, nofun, rfl, rfl, rfl, hstep.symm⟩
  | wakeWorker =>
    simp only [step] at hstep
    split at hstep
    · rename_i hw _
      cases hstep
      exact .inr ⟨{ s.queue with readable := s.queue.readable.leave }, by rw [hw]; nofun, rfl, rfl, rfl, rfl⟩
    · exact nomatch hstep
  | outside stops =>
    cases hstep
    exact .inl ⟨rfl, rfl, rfl⟩

lemma bounds_reaches (hr : Reaches s s') : bounds s' = bounds s := by
  induction hr with
  | refl => rfl
  | tail _ hstep ih =>
    obtain ⟨a, ha⟩ := hstep
    obtain ⟨-, -, hb⟩ | ⟨queue, -, -, -, hb, rfl⟩ := step_cases ha
    · rw [hb, ih]
    · rw [(getTurn_frame _).1, hb, ih]

/-- A message is handed over only while there is no reason to stop. -/
lemma stopReason_of_handed {a : Action α} (hstep : step s a = some s') (hne : s'.handed ≠ s.handed) :
    stopReason s'.stops = none := by
  obtain ⟨hh, -⟩ | ⟨queue, -, -, -, -, rfl⟩ := step_cases hstep
  · exact absurd hh hne
  obtain ⟨-, -, hturn⟩ | ⟨-, -, hturn⟩ | ⟨item, size, items, -, ⟨kind, code, -, hturn⟩ | ⟨hstop, hturn⟩⟩ :=
    getTurn_cases { s with queue }
  · exact absurd (by rw [hturn]) hne
  · exact absurd (by rw [hturn]) hne
  · exact absurd (by rw [hturn]; rfl) hne
  · rw [hturn]
    exact hstop

/-- `None` without a reason to stop means that the stream has ended and all of it was handed over. -/
lemma handed_of_done {a : Action α} (h : Inv s) (hstep : step s a = some s') (hworker : s.worker ≠ .done)
    (hdone : s'.worker = .done) (hstop : stopReason s'.stops = none) :
    s'.reader = .ended ∧ s'.handed = s'.put.map (·.1) := by
  obtain ⟨refused, hput, hrefused⟩ := h.order
  obtain rfl := hrefused hworker
  rw [List.append_nil] at hput
  obtain ⟨-, hw, -⟩ | ⟨queue, -, hitems, hfinished, -, rfl⟩ := step_cases hstep
  · exact absurd (hw.symm.trans hdone) hworker
  obtain ⟨hi, hf, hturn⟩ | ⟨-, -, hturn⟩ | ⟨item, size, items, -, ⟨kind, code, hreason, hturn⟩ | ⟨-, hturn⟩⟩ :=
    getTurn_cases { s with queue }
  · rw [hturn]
    refine ⟨h.finished (hfinished ▸ hf), ?_⟩
    rw [← hitems, show queue.items = [] from hi, List.map_nil, List.append_nil] at hput
    exact hput.symm
  · rw [hturn] at hdone
    exact nomatch hdone
  · rw [hturn] at hstop
    exact absurd (hreason.symm.trans hstop) nofun
  · rw [hturn] at hdone
    exact nomatch hdone

/-- Once the reader has ended nothing more is put. -/
lemma put_of_ended {a : Action α} (hstep : step s a = some s') (hended : s.reader = .ended) :
    s'.put = s.put ∧ s'.reader = .ended := by
  cases a with
  | next =>
    cases hw : s.worker <;> simp only [step, hw, reduceCtorEq, Option.some.injEq] at hstep
    subst hstep
    exact ⟨(getTurn_frame s).2.1, (getTurn_frame s).2.2.trans hended⟩
  | wakeWorker =>
    simp only [step] at hstep
    split at hstep
    · cases hstep
      exact ⟨(getTurn_frame _).2.1, (getTurn_frame _).2.2.trans hended⟩
    · exact nomatch hstep
  | outside stops =>
    cases hstep
    exact ⟨rfl, hended⟩
  | _ => simp [step, hended] at hstep

/-- Every interleaving of the reader and the worker: the messages handed over are the first ones put, the queue
keeps its bounds, a task that waits on an event that is not set has nothing to do, nothing is handed over while
there is a reason to stop, and `None` without one follows the last message of a stream that has ended. -/
theorem inbound_queue_safe {maxMessages maxBytes : Nat} (stops : Stops)
    (hq : InboundQueue.new maxMessages maxBytes = some q) (hr : Reaches { queue := q, stops } s) :
    s.handed <+: s.put.map (·.1) ∧
      (s.queue.items.length ≤ maxMessages ∧ s.queue.bytes = (s.queue.items.map (·.2)).sum ∧
        (maxBytes < s.queue.bytes → s.queue.items.length = 1)) ∧
      (s.worker = .getting → s.queue.readable.Awaited ∧
        (s.queue.readable.value = false → s.queue.items = [] ∧ s.queue.finished = false)) ∧
      (∀ item size, s.reader = .putting item size → s.queue.writable.Awaited ∧
        (s.queue.writable.value = false → s.queue.admits size = false)) ∧
      ∀ a s', step s a = some s' →
        (s'.handed ≠ s.handed → stopReason s'.stops = none) ∧
        (s.worker ≠ .done → s'.worker = .done → stopReason s'.stops = none →
          s'.reader = .ended ∧ s'.handed = s'.put.map (·.1)) ∧
        (s.reader = .ended → s'.put = s.put ∧ s'.reader = .ended) := by
  have hinv := (inv_start hq stops).reaches hr
  have hbounds := bounds_reaches hr
  have hnew : bounds { queue := q, stops : Session α } = (maxMessages, maxBytes) := by
    unfold InboundQueue.new at hq
    split_ifs at hq
    cases hq
    rfl
  obtain ⟨hmessages, hbytes⟩ := Prod.mk.inj (hbounds.trans hnew)
  refine ⟨?_, ⟨hmessages ▸ hinv.bounded.length_le, hinv.bounded.bytes_eq, fun h => ?_⟩, hinv.worker, hinv.reader,
    fun a s' hstep => ⟨stopReason_of_handed hstep, handed_of_done hinv hstep, put_of_ended hstep⟩⟩
  · obtain ⟨refused, hput, -⟩ := hinv.order
    exact ⟨refused ++ s.queue.items.map (·.1), by rw [hput, List.append_assoc]⟩
  · exact hinv.bounded.single (hbytes ▸ h)

/-- A session whose socket is open. -/
def openStops : Stops := { closeCode := none, transport := none, sendFailed := false, current := true }

/-- A reader that waits for room until the worker has taken a message. -/
def waitingRun : List (Action Nat) :=
  [.receive 7 1, .receive 8 1, .next, .wakeReader, .next, .disconnect none, .next]

lemma reaches_of_run (actions : List (Action α)) (h : actions.foldlM step s = some s') : Reaches s s' := by
  induction actions generalizing s with
  | nil =>
    cases h
    exact .refl
  | cons a actions ih =>
    obtain ⟨t, ht, hrest⟩ := Option.bind_eq_some_iff.1 h
    exact .head ⟨a, ht⟩ (ih hrest)

theorem inbound_queue_safe_waiting :
    ∃ q s, InboundQueue.new 1 8 = some q ∧ waitingRun.foldlM step { queue := q, stops := openStops } = some s ∧
      s.worker = .done ∧ s.handed = [7, 8] ∧ s.handed <+: s.put.map (·.1) := by
  have hq : InboundQueue.new 1 8 = some ({ maxMessages := 1, maxBytes := 8 } : InboundQueue Nat) := rfl
  exact ⟨_, _, hq, rfl, rfl, rfl, (inbound_queue_safe openStops hq (reaches_of_run waitingRun rfl)).1⟩

end DeviceSession
