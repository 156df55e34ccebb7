import EspNowLink.Core.PullTraffic
import EspNowLink.Framework.BoundedFifo

open Framework

namespace EspNowLink

section Model

/-- The receive queues of the manager. Discovery frames wait in the control queue. -/
inductive RxKind where
  | control
  | pullRequest
  | pullResponse
  | firmware
  deriving DecidableEq

/-- What `dispatchRxByType` reads of a frame. -/
structure RxFrame where
  sender : MacAddress
  type : MessageType
  correlation_id : UInt32
  wire_service : UInt8
  wire_op_code : UInt8
  payload : Bytes
  rssi : Int
  deriving DecidableEq

structure QueuedFirmwareRx where
  type : MessageType
  sender : MacAddress
  corr_id : UInt32
  payload : Bytes
  queued_ms : UInt32
  rssi : Int
  deriving DecidableEq

structure QueuedControlRx where
  type : MessageType
  sender : MacAddress
  corr_id : UInt32
  payload : Bytes
  queued_ms : UInt32
  rssi : Int
  deriving DecidableEq

/-- `clear` and then `insert`. -/
def refill (old payload : Bytes) : Bytes :=
  let cleared := old.take 0
  if payload = [] then cleared else cleared ++ payload

def QueuedFirmwareRx.write (frame : QueuedFirmwareRx) (rx : RxFrame) (now_ms : UInt32) : QueuedFirmwareRx :=
  { frame with
    type := rx.type
    sender := rx.sender
    corr_id := rx.correlation_id
    queued_ms := now_ms
    rssi := rx.rssi
    payload := refill frame.payload rx.payload }

def QueuedControlRx.write (frame : QueuedControlRx) (rx : RxFrame) (now_ms : UInt32) : QueuedControlRx :=
  { frame with
    type := rx.type
    sender := rx.sender
    corr_id := rx.correlation_id
    queued_ms := now_ms
    rssi := rx.rssi
    payload := refill frame.payload rx.payload }

def QueuedPullRequest.write (request : QueuedPullRequest) (rx : RxFrame) (now_ms : UInt32) : QueuedPullRequest :=
  { request with
    sender := rx.sender
    corr_id := rx.correlation_id
    wire_service := rx.wire_service
    wire_op := rx.wire_op_code
    queued_ms := now_ms
    payload := refill request.payload rx.payload }

def QueuedPullResponse.write (response : QueuedPullResponse) (rx : RxFrame) (now_ms : UInt32) :
    QueuedPullResponse :=
  { response with
    sender := rx.sender
    corr_id := rx.correlation_id
    queued_ms := now_ms
    payload := refill response.payload rx.payload }

namespace RxKind

def Entry : RxKind → Type
  | control => QueuedControlRx
  | pullRequest => QueuedPullRequest
  | pullResponse => QueuedPullResponse
  | firmware => QueuedFirmwareRx

/-- An entry as it is declared. -/
def empty : (k : RxKind) → k.Entry
  | control => (⟨.Error, zeroMac, 0, [], 0, 0⟩ : QueuedControlRx)
  | pullRequest => (⟨zeroMac, 0, 0, 0, [], 0⟩ : QueuedPullRequest)
  | pullResponse => (⟨zeroMac, 0, [], 0⟩ : QueuedPullResponse)
  | firmware => (⟨.Error, zeroMac, 0, [], 0, 0⟩ : QueuedFirmwareRx)

def write : (k : RxKind) → k.Entry → RxFrame → UInt32 → k.Entry
  | control => QueuedControlRx.write
  | pullRequest => QueuedPullRequest.write
  | pullResponse => QueuedPullResponse.write
  | firmware => QueuedFirmwareRx.write

/-- The entry that holds the frame's own data and nothing else. -/
def own : (k : RxKind) → RxFrame → UInt32 → k.Entry
  | control => fun rx now_ms =>
    (⟨rx.type, rx.sender, rx.correlation_id, rx.payload, now_ms, rx.rssi⟩ : QueuedControlRx)
  | pullRequest => fun rx now_ms =>
    (⟨rx.sender, rx.correlation_id, rx.wire_service, rx.wire_op_code, rx.payload, now_ms⟩ : QueuedPullRequest)
  | pullResponse => fun rx now_ms =>
    (⟨rx.sender, rx.correlation_id, rx.payload, now_ms⟩ : QueuedPullResponse)
  | firmware => fun rx now_ms =>
    (⟨rx.type, rx.sender, rx.correlation_id, rx.payload, now_ms, rx.rssi⟩ : QueuedFirmwareRx)

def queueMax : RxKind → ℕ
  | control => 32
  | pullRequest => kPullRequestQueueMax
  | pullResponse => kPullResponseQueueMax
  | firmware => 32

def kFirmwareRxDispatchBudgetPerTick : ℕ := 4
def kControlRxDispatchBudgetPerTick : ℕ := 4

def budget : RxKind → ℕ
  | control => kControlRxDispatchBudgetPerTick
  | pullRequest => kPullRequestDispatchBudgetPerTick
  | pullResponse => kPullResponseDispatchBudgetPerTick
  | firmware => kFirmwareRxDispatchBudgetPerTick

end RxKind

/-- A moved-from recycled entry is not read before it is written again, so the move leaves it here. -/
structure RxQueue (α : Type) where
  queue : List α
  recycle : α
  has_recycle : Bool

def RxQueue.push {α : Type} (q : RxQueue α) (empty : α) (max : ℕ) (write : α → α) : RxQueue α :=
  if max ≤ q.queue.length then { q with queue := q.queue.tail ++ [write (q.queue.headD empty)] }
  else if q.has_recycle then { q with queue := q.queue ++ [write q.recycle], has_recycle := false }
  else { q with queue := q.queue ++ [write empty] }

/-- What happens to frames: one is dispatched, an entry is dropped for a new one, an entry is processed, and a
tick does its part before and after the queues. -/
inductive RxEvent where
  | began (now_ms : UInt32)
  | dispatched (rx : RxFrame) (now_ms : UInt32)
  | dropped (k : RxKind) (entry : k.Entry)
  | processed (k : RxKind) (entry : k.Entry)
  | ended (now_ms : UInt32)

/-- The manager, with what is not about the queues in `rest` and the history in `log`. -/
structure RxManager (σ : Type) where
  local_role : Role
  current_now_ms : UInt32
  queues : (k : RxKind) → RxQueue k.Entry
  rest : σ
  log : List RxEvent

/-- The other code of the manager: what it does with an entry, with a frame that is not queued and on a
tick before and after the queues. While it works, frames may come in. -/
structure RxHandlers (σ : Type) where
  process : σ → (k : RxKind) → k.Entry → σ × List RxFrame
  handle : σ → RxFrame → σ
  before : σ → UInt32 → σ × List RxFrame
  after : σ → UInt32 → σ × List RxFrame

namespace RxManager

variable {σ : Type}

def setQueue (m : RxManager σ) (k : RxKind) (q : RxQueue k.Entry) : RxManager σ :=
  { m with queues := Function.update m.queues k q }

def note (m : RxManager σ) (events : List RxEvent) : RxManager σ := { m with log := m.log ++ events }

/-- The oldest entry, where a push drops it. -/
def overflow (m : RxManager σ) (k : RxKind) : List RxEvent :=
  if k.queueMax ≤ (m.queues k).queue.length then (m.queues k).queue.head?.toList.map (.dropped k) else []

def enqueue (m : RxManager σ) (k : RxKind) (rx : RxFrame) : RxManager σ :=
  let pushed := (m.queues k).push k.empty k.queueMax fun entry => k.write entry rx m.current_now_ms
  (m.setQueue k pushed).note (m.overflow k ++ [.dispatched rx m.current_now_ms])

def enqueue_control_rx (m : RxManager σ) (rx : RxFrame) : RxManager σ := m.enqueue .control rx
def enqueue_firmware_rx (m : RxManager σ) (rx : RxFrame) : RxManager σ := m.enqueue .firmware rx

/-- A frame that waits in no queue. -/
def handleNow (h : RxHandlers σ) (m : RxManager σ) (rx : RxFrame) : RxManager σ :=
  { m with rest := h.handle m.rest rx }.note [.dispatched rx m.current_now_ms]

def onRxPullRequest (h : RxHandlers σ) (m : RxManager σ) (rx : RxFrame) : RxManager σ :=
  if m.local_role = .Slave then m.enqueue .pullRequest rx else m.handleNow h rx

def onRxPullResponse (h : RxHandlers σ) (m : RxManager σ) (rx : RxFrame) : RxManager σ :=
  if m.local_role = .Master then m.enqueue .pullResponse rx else m.handleNow h rx

def dispatchRxByType (h : RxHandlers σ) (m : RxManager σ) (rx : RxFrame) : RxManager σ :=
  match rx.type with
  | .Discovery | .PairInit | .PairInitAck | .PairConfirm | .PairConfirmAck | .PairBusy | .UnpairRequest
  | .UnpairAck => m.enqueue_control_rx rx
  | .PullRequest => m.onRxPullRequest h rx
  | .PullResponse => m.onRxPullResponse h rx
  | .EventReport | .TopologyTrigger | .TopologyTriggerBatch | .TopologyTriggerAck | .ChannelSwitchPrepare
  | .ChannelSwitchAck | .ChannelSwitchCommitAck => m.enqueue_control_rx rx
  | .FirmwareBegin | .FirmwareChunk | .FirmwareEnd =>
    if m.local_role = .Slave then m.enqueue_firmware_rx rx else m.handleNow h rx
  | .FirmwareStatus => m.enqueue_control_rx rx
  | .Error => m.handleNow h rx

def receiveAll (h : RxHandlers σ) (m : RxManager σ) (frames : List RxFrame) : RxManager σ :=
  frames.foldl (dispatchRxByType h) m

/-- One turn of a queue's tick. The entry is off the queue while it is processed. -/
def processFront (h : RxHandlers σ) (m : RxManager σ) (k : RxKind) (entry : k.Entry) (waiting : List k.Entry) :
    RxManager σ :=
  let popped := (m.setQueue k { m.queues k with queue := waiting }).note [.processed k entry]
  let handled := h.process popped.rest k entry
  let received := receiveAll h { popped with rest := handled.1 } handled.2
  received.setQueue k { received.queues k with recycle := entry, has_recycle := true }

def drain (h : RxHandlers σ) (k : RxKind) : ℕ → RxManager σ → RxManager σ
  | 0, m => m
  | budget + 1, m =>
    match (m.queues k).queue with
    | [] => m
    | entry :: waiting => drain h k budget (m.processFront h k entry waiting)

def tickControlRxQueue (h : RxHandlers σ) (m : RxManager σ) : RxManager σ :=
  drain h .control RxKind.control.budget m

def tickPullRequestQueue (h : RxHandlers σ) (m : RxManager σ) : RxManager σ :=
  if m.local_role = .Slave then drain h .pullRequest RxKind.pullRequest.budget m else m

def tickPullResponseQueue (h : RxHandlers σ) (m : RxManager σ) : RxManager σ :=
  if m.local_role = .Master then drain h .pullResponse RxKind.pullResponse.budget m else m

def tickFirmwareRxQueue (h : RxHandlers σ) (m : RxManager σ) : RxManager σ :=
  if m.local_role = .Slave then drain h .firmware RxKind.firmware.budget m else m

/-- A part of the tick that has to do with no queue. -/
def other (h : RxHandlers σ) (m : RxManager σ) (event : RxEvent) (done : σ × List RxFrame) : RxManager σ :=
  receiveAll h ({ m with rest := done.1 }.note [event]) done.2

def tick (h : RxHandlers σ) (m : RxManager σ) (now_ms : UInt32) : RxManager σ :=
  let m := { m with current_now_ms := now_ms }
  let m := m.other h (.began now_ms) (h.before m.rest now_ms)
  let m := m.tickControlRxQueue h
  let m := m.tickPullRequestQueue h
  let m := m.tickPullResponseQueue h
  let m := m.tickFirmwareRxQueue h
  m.other h (.ended now_ms) (h.after m.rest now_ms)

/-- A frame comes in or the node ticks. -/
inductive Input where
  | frame (rx : RxFrame)
  | tick (now_ms : UInt32)

def input (h : RxHandlers σ) (m : RxManager σ) : Input → RxManager σ
  | .frame rx => m.dispatchRxByType h rx
  | .tick now_ms => m.tick h now_ms

def run (h : RxHandlers σ) (m : RxManager σ) (inputs : List Input) : RxManager σ := inputs.foldl (input h) m

def start (role : Role) (rest : σ) : RxManager σ :=
  ⟨role, 0, fun k => ⟨[], k.empty, false⟩, rest, []⟩

end RxManager

end Model

end EspNowLink
