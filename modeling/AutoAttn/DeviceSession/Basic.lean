import Mathlib.Data.List.Basic
import Mathlib.Logic.Relation

/-!
# Device sessions

A device session reads its socket in one task, which puts the messages into a bounded queue, and processes
them one at a time in another. The tasks run in turns: one runs until an `await` suspends it. A step of the
model is such a turn of the reader or of the worker, or a change from outside.
-/

namespace DeviceSession

/-! ### Events -/

/-- `asyncio.Event`, with the future of the one task that waits for it: whether that future is resolved. -/
structure Event where
  value : Bool := false
  waiter : Option Bool := none

/-- `set` resolves the future that waits. -/
def Event.set (e : Event) : Event :=
  if e.value then e else { value := true, waiter := e.waiter.map fun _ => true }

/-- `clear` and then `wait`, which suspends since the event is not set. -/
def Event.clearWait (e : Event) : Event := { e with value := false, waiter := some false }

/-- The task goes on, and its future is taken out. -/
def Event.leave (e : Event) : Event := { e with waiter := none }

/-! ### The queue -/

variable {α : Type}

/-- `InboundQueue` -/
structure InboundQueue (α : Type) where
  maxMessages : Nat
  maxBytes : Nat
  items : List (α × Nat) := []
  bytes : Nat := 0
  finished : Bool := false
  readable : Event := {}
  writable : Event := { value := true }
  peakMessages : Nat := 0
  peakBytes : Nat := 0
  fullWaits : Nat := 0

namespace InboundQueue

/-- `InboundQueue.__init__` -/
def new (maxMessages maxBytes : Nat) : Option (InboundQueue α) :=
  if maxMessages < 1 ∨ maxBytes < 1 then none else some { maxMessages, maxBytes }

/-- `_admits` -/
def admits (q : InboundQueue α) (size : Nat) : Bool :=
  if q.items.isEmpty then true else q.items.length < q.maxMessages && q.bytes + size ≤ q.maxBytes

/-- `put`, from the test of its loop to the next `await` or to its end; whether it came to its end. -/
def put (q : InboundQueue α) (item : α) (size : Nat) (waited : Bool) : InboundQueue α × Bool :=
  if q.admits size then
    ({ q with
      items := q.items ++ [(item, size)]
      bytes := q.bytes + size
      peakMessages := max q.peakMessages (q.items.length + 1)
      peakBytes := max q.peakBytes (q.bytes + size)
      readable := q.readable.set }, true)
  else
    ({ q with
      fullWaits := if waited then q.fullWaits else q.fullWaits + 1
      writable := q.writable.clearWait }, false)

/-- What a turn of `get` comes to. -/
inductive Got (α : Type) where
  | suspended
  | endOfStream
  | item (a : α)

/-- `get`, from the test of its loop to the next `await` or to its end. -/
def get (q : InboundQueue α) : InboundQueue α × Got α :=
  match q.items with
  | []                    =>
    if q.finished then (q, .endOfStream) else ({ q with readable := q.readable.clearWait }, .suspended)
  | (item, size) :: items =>
    ({ q with items, bytes := q.bytes - size, writable := q.writable.set }, .item item)

/-- `finish` -/
def finish (q : InboundQueue α) : InboundQueue α := { q with finished := true, readable := q.readable.set }

end InboundQueue

/-! ### Why intake ends -/

/-- The kinds of an end. -/
inductive EndKind where
  | connectionLost
  | keepaliveTimeout
  | serverShutdown
  | superseded
  | closed
  | readerError
deriving DecidableEq, Repr

/-- The flags of `WebSocketTransportFacts` that end intake. -/
structure TransportFacts where
  serverShutdown : Bool
  keepaliveTimedOut : Bool

/-- What `stop_reason` looks at. `current` is what `is_current` answers at the moment. -/
structure Stops where
  closeCode : Option Int
  transport : Option TransportFacts
  sendFailed : Bool
  current : Bool

/-- `ABRUPT_CLOSE_CODES` -/
def abruptCloseCode (code : Int) : Bool := code = 1005 ∨ code = 1006

/-- `_disconnect_kind` -/
def disconnectKind (transport : Option TransportFacts) (code : Int) : EndKind :=
  if abruptCloseCode code then
    if transport.any (·.keepaliveTimedOut) then .keepaliveTimeout else .connectionLost
  else if code = 1012 then .serverShutdown
  else if code = 4001 then .superseded
  else .closed

/-- `stop_reason` -/
def stopReason (stops : Stops) : Option (EndKind × Option Int) :=
  match stops.closeCode with
  | some code => some (disconnectKind stops.transport code, some code)
  | none      =>
    if stops.transport.any (·.serverShutdown) then some (.serverShutdown, some 1012)
    else if stops.transport.any (·.keepaliveTimedOut) then some (.keepaliveTimeout, none)
    else if stops.sendFailed then some (.connectionLost, none)
    else if !stops.current then some (.superseded, none)
    else none

/-! ### The session -/

/-- Where the reader task is suspended: in `receive`, or in `put` with its message. -/
inductive Reader (α : Type) where
  | receiving
  | putting (item : α) (size : Nat)
  | ended

/-- Where the worker is: between two calls of `next_message`, suspended in one, or past the call that
returned `None`. -/
inductive Worker where
  | working
  | getting
  | done
deriving DecidableEq

/-- `DeviceStreamSession` with its tasks, the messages put so far and those handed over. -/
structure Session (α : Type) where
  queue : InboundQueue α
  stops : Stops
  reader : Reader α := .receiving
  worker : Worker := .working
  disconnectCode : Option Int := none
  readerError : Option String := none
  ended : Option (EndKind × Option Int) := none
  messagesIn : Nat := 0
  bytesIn : Nat := 0
  handedOver : Nat := 0
  put : List (α × Nat) := []
  handed : List α := []

namespace Session

/-- `mark_end`: the first cause wins. -/
def markEnd (s : Session α) (kind : EndKind) (code : Option Int) : Session α :=
  { s with ended := s.ended.or (some (kind, code)) }

/-- The reader's turn in `put`. -/
def putTurn (s : Session α) (item : α) (size : Nat) (waited : Bool) : Session α :=
  match s.queue.put item size waited with
  | (queue, true)  => { s with queue, reader := .receiving, put := s.put ++ [(item, size)] }
  | (queue, false) => { s with queue, reader := .putting item size }

/-- The end of `_read`, whatever ended it. -/
def endReader (s : Session α) : Session α := { s with queue := s.queue.finish, reader := .ended }

/-- A disconnect message. Only an orderly close has a code that ends intake. -/
def disconnect (s : Session α) (code? : Option Int) : Session α :=
  let code := match code? with
    | some code => if code = 0 then 1005 else code
    | none      => 1005
  let stops := if !abruptCloseCode code && s.stops.closeCode.isNone
    then { s.stops with closeCode := some code } else s.stops
  ({ s with disconnectCode := some code, stops }.markEnd (disconnectKind s.stops.transport code) code).endReader

/-- The worker's turn in `next_message`. -/
def getTurn (s : Session α) : Session α :=
  match s.queue.get with
  | (queue, .suspended)   => { s with queue, worker := .getting }
  | (queue, .endOfStream) => { s with queue, worker := .done }
  | (queue, .item item)   =>
    match stopReason s.stops with
    | some (kind, code) => { s with queue, worker := .done }.markEnd kind code
    | none              =>
      { s with queue, worker := .working, handedOver := s.handedOver + 1, handed := s.handed ++ [item] }

end Session

/-! ### Turns -/

/-- What may happen next. -/
inductive Action (α : Type) where
  /-- `receive` returns a message. -/
  | receive (item : α) (size : Nat)
  /-- `receive` returns a disconnect. -/
  | disconnect (code : Option Int)
  /-- `receive` raises. -/
  | fail (error : String)
  /-- The reader task is cancelled where it is suspended. -/
  | cancel
  /-- The reader goes on in `put`. -/
  | wakeReader
  /-- The worker calls `next_message`. -/
  | next
  /-- The worker goes on in `get`. -/
  | wakeWorker
  /-- The socket, the hub or a send changes what `stop_reason` looks at. -/
  | outside (stops : Stops)

/-- One turn, where it is possible. A suspended task goes on once its future is resolved. -/
def step (s : Session α) : Action α → Option (Session α)
  | .receive item size =>
    match s.reader with
    | .receiving =>
      some ({ s with messagesIn := s.messagesIn + 1, bytesIn := s.bytesIn + size }.putTurn item size false)
    | _          => none
  | .disconnect code   =>
    match s.reader with
    | .receiving => some (s.disconnect code)
    | _          => none
  | .fail error        =>
    match s.reader with
    | .receiving => some ({ s with readerError := some error }.markEnd .readerError none).endReader
    | _          => none
  | .cancel            =>
    match s.reader with
    | .receiving   => some s.endReader
    | .putting _ _ => some { s with queue := { s.queue with writable := s.queue.writable.leave } }.endReader
    | .ended       => none
  | .wakeReader        =>
    match s.reader, s.queue.writable.waiter with
    | .putting item size, some true =>
      some ({ s with queue := { s.queue with writable := s.queue.writable.leave } }.putTurn item size true)
    | _, _                          => none
  | .next              =>
    match s.worker with
    | .working => some s.getTurn
    | _        => none
  | .wakeWorker        =>
    match s.worker, s.queue.readable.waiter with
    | .getting, some true => some { s with queue := { s.queue with readable := s.queue.readable.leave } }.getTurn
    | _, _                => none
  | .outside stops     => some { s with stops }

/-- Every interleaving of the turns. -/
def Reaches (s s' : Session α) : Prop := Relation.ReflTransGen (fun s s' => ∃ a, step s a = some s') s s'

end DeviceSession
