import EspNowLink.Core.ProtocolCodec
import EspNowLink.Descriptor.Query
import EspNowLink.Telemetry.PushControl

namespace EspNowLink

open Framework

/-- The id of the first command field; a field before it that runs past the end is an error. -/
def commandIdFrom : Nat → Bytes → Option UInt16
  | n + 1, tag :: type :: lo :: hi :: rest =>
    let len := lo.toNat + 256 * hi.toNat
    if rest.length < len then none
    else if tag = 0x10 ∧ type = 0x02 ∧ len = 2 then
      some (readLe16 (rest.getD 0 0) (rest.getD 1 0))
    else commandIdFrom n (rest.drop len)
  | _, _ => none

def parseControlCommandPayload (payload : Bytes) : Option UInt16 := commandIdFrom payload.length payload

/-- The service and operation that `classifyPullRequest` has for a type of query. -/
def queryWire : DescriptorQueryType → Option (UInt8 × UInt8)
  | .GetDevice | .GetCapabilities | .GetTime | .SetTime => some (0x02, 0x01)
  | .GetSettings | .GetNodeBundle => some (0x03, 0x05)
  | .GetSetting => some (0x03, 0x01)
  | .SetSetting => some (0x03, 0x03)
  | .GetTelemetry => some (0x04, 0x01)
  | .PullTelemetry => some (0x04, 0x03)
  | .GetLiveness => some (0x05, 0x01)
  | .GetLogStatus => some (0x02, 0x01)
  | .ReadLogChunk => some (0x02, 0x03)
  | .ClearLog | .SetLogControl => some (0x02, 0x05)
  | .GetStorageInfo => some (0x02, 0x01)
  | .ListStoragePath => some (0x02, 0x03)
  | .StatStoragePath => some (0x02, 0x01)
  | .TopologyStageClear | .TopologyStageBegin | .TopologyStageSlotSet | .TopologyStageGroupSet
  | .TopologyStageFinalize | .TopologyCommit | .TopologyStatus => some (0x05, 0x03)
  | _ => none

def classifyPullRequest (payload : Bytes) : Option (UInt8 × UInt8) :=
  match (parseDescriptorQuery payload).bind fun q => queryWire q.type with
  | some wire => some wire
  | none => (parseControlCommandPayload payload).map fun _ => (0x06, 0x01)

def responseOpForRequest (service request_op : UInt8) : UInt8 :=
  if service = 0x03 then
    if request_op = 0x01 then 0x02
    else if request_op = 0x03 then 0x04
    else if request_op = 0x05 then 0x06
    else 0x02
  else if service = 0x04 then
    if request_op = 0x01 then 0x02
    else if request_op = 0x03 then 0x04
    else 0x02
  else if service = 0x07 then
    if request_op = 0x01 then 0x02
    else if request_op = 0x03 then 0x04
    else if request_op = 0x05 then 0x06
    else if request_op = 0x07 then 0x08
    else 0x02
  else 0x02

structure TimeSyncConfig where
  enabled : Bool
  interval_ms : UInt32
  apply_on_slave : Bool
  min_valid_epoch_s : UInt64
  min_update_delta_s : UInt32

structure PendingPullContext where
  peer : MacAddress
  corr_id : UInt32
  service : UInt8
  op : UInt8
  deriving DecidableEq

structure QueuedPullRequest where
  sender : MacAddress
  corr_id : UInt32
  wire_service : UInt8
  wire_op : UInt8
  payload : Bytes
  queued_ms : UInt32
  deriving DecidableEq

structure QueuedPullResponse where
  sender : MacAddress
  corr_id : UInt32
  payload : Bytes
  queued_ms : UInt32
  deriving DecidableEq

/-- The part of the manager that sends, receives and dispatches pull traffic. -/
structure PullManager extends TelemetryManager where
  has_control_plane : Bool
  master_initiated_only : Bool
  discovery_rx_enabled : Bool
  time_sync : TimeSyncConfig
  has_time_source : Bool
  has_time_sink : Bool
  has_time_sync_tx : Bool
  last_time_sync_tx_ms : UInt32
  last_time_sync_rx_epoch_s : UInt64
  pending_pull : Option PendingPullContext
  pull_request_queue : List QueuedPullRequest
  pull_response_queue : List QueuedPullResponse

def kPullRequestQueueMax : Nat := 8
def kPullResponseQueueMax : Nat := 32
def kPullRequestDispatchBudgetPerTick : Nat := 1
def kPullResponseDispatchBudgetPerTick : Nat := 4

/-- A full queue loses its oldest entry to the new one. -/
def pushBounded {α : Type} (max : Nat) (queue : List α) (a : α) : List α :=
  (if queue.length ≥ max then queue.tail else queue) ++ [a]

namespace PullManager

section Sending

def shouldAttachTimeSync (m : PullManager) : Bool :=
  if !m.time_sync.enabled || m.local_role != .Master || !m.has_time_source then false
  else if !m.has_time_sync_tx then true
  else if m.time_sync.interval_ms = 0 then true
  else m.current_now_ms - m.last_time_sync_tx_ms ≥ m.time_sync.interval_ms

/-- The flags and the payload that go into the frame. `epoch` is what the time source answers. -/
def appendTimeSyncMetadata (m : PullManager) (payload : Bytes) (epoch : Option UInt64) :
    UInt8 × Bytes × PullManager :=
  if !m.shouldAttachTimeSync then (0, payload, m)
  else if payload.length > kMaxPayload - kTimeSyncMetadataSize then (0, payload, m)
  else match epoch with
  | none => (0, payload, m)
  | some epoch_s => (kFrameFlagTimeSyncEpoch, le32 epoch_s.toUInt32 ++ payload,
      { m with has_time_sync_tx := true, last_time_sync_tx_ms := m.current_now_ms })

/-- The frame that is handed to the transport; there is none when the encoding fails. -/
def sendTyped (m : PullManager) (type : MessageType) (payload : Bytes) (corr_id : UInt32)
    (w : WireForm) (epoch : Option UInt64) : Option Bytes × PullManager :=
  let (flags, wire_payload, m) := m.appendTimeSyncMetadata payload epoch
  let h : WireHeader := {
    type := type
    flags := flags
    correlation_id := corr_id
    role := m.local_role.toByte
    wire_msg_type := w.msg
    wire_service := w.service
    wire_op_code := w.op
    payload_length := wire_payload.length.toUInt16 }
  (ProtocolCodec.encode h wire_payload, m)

def pullRequestWire (payload : Bytes) : UInt8 × UInt8 :=
  let wire := (classifyPullRequest payload).getD (0x06, 0x01)
  if isValidPullRequestWire wire.1 wire.2 then wire else (0x06, 0x01)

def sendPullRequest (m : PullManager) (payload : Bytes) (corr_id : UInt32) (epoch : Option UInt64) :
    Option Bytes × PullManager :=
  if m.local_role ≠ .Master then (none, m)
  else
    let wire := pullRequestWire payload
    m.sendTyped .PullRequest payload corr_id ⟨0x01, wire.1, wire.2⟩ epoch

/-- The request that a response to the peer answers. -/
def answeredPull (m : PullManager) (peer : MacAddress) (corr_id : UInt32) : Option PendingPullContext :=
  m.pending_pull.filter fun p => p.peer = peer && p.corr_id = corr_id

def pullResponseWire (answered : Option PendingPullContext) : UInt8 × UInt8 :=
  let wire := match answered with
    | some p => (p.service, responseOpForRequest p.service p.op)
    | none => (0x06, 0x02)
  if isValidPullResponseWire wire.1 wire.2 then wire else (0x06, 0x02)

def sendPullResponse (m : PullManager) (peer : MacAddress) (payload : Bytes) (corr_id : UInt32)
    (epoch : Option UInt64) : Option Bytes × PullManager :=
  if m.master_initiated_only && m.local_role != .Slave then (none, m)
  else
    let answered := m.answeredPull peer corr_id
    let m := if answered.isSome then { m with pending_pull := none } else m
    let wire := pullResponseWire answered
    m.sendTyped .PullResponse payload corr_id ⟨0x02, wire.1, wire.2⟩ epoch

end Sending

section Receiving

/-- `set_ok` is what the time sink answers. -/
def applyTimeSyncFromFrame (m : PullManager) (h : WireHeader) (payload : Bytes) (set_ok : Bool) :
    Bool × PullManager :=
  if h.flags &&& kFrameFlagTimeSyncEpoch = 0 then (true, m)
  else if payload.length < kTimeSyncMetadataSize then (false, m)
  else if !m.time_sync.enabled || !m.time_sync.apply_on_slave || m.local_role != .Slave ||
      h.role != Role.Master.toByte || !m.has_time_sink then (true, m)
  else
    let epoch_s : UInt64 := (readLe32 (payload.getD 0 0) (payload.getD 1 0) (payload.getD 2 0)
      (payload.getD 3 0)).toUInt64
    let last := m.last_time_sync_rx_epoch_s
    let delta := if epoch_s > last then epoch_s - last else last - epoch_s
    if epoch_s < m.time_sync.min_valid_epoch_s then (true, m)
    else if last ≠ 0 ∧ delta < m.time_sync.min_update_delta_s.toUInt64 then (true, m)
    else if set_ok then (true, { m with last_time_sync_rx_epoch_s := epoch_s })
    else (true, m)

def onRxPullRequest (m : PullManager) (sender : MacAddress) (h : WireHeader) (payload : Bytes) :
    Bool × PullManager :=
  if m.local_role ≠ .Slave then (false, m)
  else
    let request : QueuedPullRequest :=
      ⟨sender, h.correlation_id, h.wire_service, h.wire_op_code, payload, m.current_now_ms⟩
    (true, { m with
      pull_request_queue := pushBounded kPullRequestQueueMax m.pull_request_queue request })

def onRxPullResponse (m : PullManager) (sender : MacAddress) (h : WireHeader) (payload : Bytes) :
    Bool × PullManager :=
  if m.local_role ≠ .Master then (false, m)
  else
    let response : QueuedPullResponse := ⟨sender, h.correlation_id, payload, m.current_now_ms⟩
    (true, { m with
      pull_response_queue := pushBounded kPullResponseQueueMax m.pull_response_queue response })

/-- The payload behind the time-sync metadata. -/
def effectivePayload (h : WireHeader) (payload : Bytes) : Bytes :=
  if h.flags &&& kFrameFlagTimeSyncEpoch ≠ 0 then payload.drop kTimeSyncMetadataSize else payload

/-- A decoded frame. `others` is what the handlers of the other types of message return; they leave
the pull queues as they are. -/
def onFrame (m : PullManager) (sender : MacAddress) (h : WireHeader) (payload : Bytes) (set_ok : Bool)
    (others : WireHeader → Bytes → Bool) : Bool × PullManager :=
  if h.type = .Discovery ∧ m.local_role = .Master ∧ !m.discovery_rx_enabled then (true, m)
  else if h.version ≠ kProtocolVersion then (false, m)
  else match m.applyTimeSyncFromFrame h payload set_ok with
  | (false, m) => (false, m)
  | (true, m) =>
    let effective := effectivePayload h payload
    match h.type with
    | .PullRequest => m.onRxPullRequest sender h effective
    | .PullResponse => m.onRxPullResponse sender h effective
    | _ => (others h effective, m)

def onRx (m : PullManager) (sender : MacAddress) (data : Bytes) (set_ok : Bool)
    (others : WireHeader → Bytes → Bool) : Bool × PullManager :=
  match ProtocolCodec.decode data with
  | none => (false, m)
  | some (h, payload) => m.onFrame sender h payload set_ok others

end Receiving

section Dispatching

def buildDescriptorReply (reply : StreamReply) : Option Bytes :=
  (encodeDescriptorResponse {
    type := if reply.ok then .Ack else .Error
    message := ascii reply.message }).map (·.payload)

/-- The reply to a request, and whether the transport took it. -/
def replyTo (m : PullManager) (request : QueuedPullRequest) (reply : StreamReply) (sent : Bool) :
    Bool × PullManager :=
  match buildDescriptorReply reply with
  | none => (false, m)
  | some payload =>
    let (frame, m) := m.sendPullResponse request.sender payload request.corr_id none
    (frame.isSome && sent, m)

end Dispatching

end PullManager

/-- Who has taken what was received: the push control of the manager, its control plane, or nobody,
when there is no control plane. -/
inductive PullHandler where
  | pushControl
  | controlPlane
  | nobody
  deriving DecidableEq

/-- A payload as a handler gets it. -/
structure PullFrame where
  sender : MacAddress
  corr_id : UInt32
  payload : Bytes
  deriving DecidableEq

structure PullHandover where
  frame : PullFrame
  handler : PullHandler
  deriving DecidableEq

def QueuedPullRequest.frame (q : QueuedPullRequest) : PullFrame := ⟨q.sender, q.corr_id, q.payload⟩

def QueuedPullResponse.frame (q : QueuedPullResponse) : PullFrame := ⟨q.sender, q.corr_id, q.payload⟩

/-- What a tick meets: whether the transport takes a reply, and which requests the control plane
handles. -/
structure TickAnswers where
  sent : Bool
  handles : PullFrame → Bool

namespace PullManager

section Dispatching

/-- `handleTelemetryPushControl` with its reply: it has not taken a request whose reply does not get
out. -/
def pushControl (m : PullManager) (sent : Bool) (request : QueuedPullRequest) : Bool × PullManager :=
  let (reply, t) := m.toTelemetryManager.handleTelemetryPushControl request.sender request.payload
  let m := { m with toTelemetryManager := t }
  match reply with
  | some reply => m.replyTo request reply sent
  | none => (false, m)

def notePending (m : PullManager) (request : QueuedPullRequest) : PullManager :=
  let context : PendingPullContext :=
    ⟨request.sender, request.corr_id, request.wire_service, request.wire_op⟩
  { m with pending_pull := some context }

def processQueuedPullRequest (m : PullManager) (a : TickAnswers) (request : QueuedPullRequest) :
    PullHandover × PullManager :=
  let (taken, m) := (m.notePending request).pushControl a.sent request
  if taken then (⟨request.frame, .pushControl⟩, m)
  else if m.has_control_plane && a.handles request.frame then (⟨request.frame, .controlPlane⟩, m)
  else (⟨request.frame, if m.has_control_plane then .controlPlane else .nobody⟩,
    (m.replyTo request ⟨false, "pull request unsupported"⟩ a.sent).2)

def dispatchRequests (a : TickAnswers) : Nat → PullManager → List PullHandover × PullManager
  | 0, m => ([], m)
  | budget + 1, m =>
    match m.pull_request_queue with
    | [] => ([], m)
    | request :: queue =>
      let (handover, m) := { m with pull_request_queue := queue }.processQueuedPullRequest a request
      let (handovers, m) := dispatchRequests a budget m
      (handover :: handovers, m)

def tickPullRequestQueue (m : PullManager) (a : TickAnswers) : List PullHandover × PullManager :=
  if m.local_role ≠ .Slave then ([], m) else dispatchRequests a kPullRequestDispatchBudgetPerTick m

def dispatchResponses : Nat → PullManager → List PullHandover × PullManager
  | 0, m => ([], m)
  | budget + 1, m =>
    match m.pull_response_queue with
    | [] => ([], m)
    | response :: queue =>
      let handler := if m.has_control_plane then .controlPlane else .nobody
      let (handovers, m) := dispatchResponses budget { m with pull_response_queue := queue }
      (⟨response.frame, handler⟩ :: handovers, m)

def tickPullResponseQueue (m : PullManager) : List PullHandover × PullManager :=
  if m.local_role ≠ .Master then ([], m) else dispatchResponses kPullResponseDispatchBudgetPerTick m

/-- The part of `tick` that concerns pull traffic. -/
def tick (m : PullManager) (now_ms : UInt32) (a : TickAnswers) : List PullHandover × PullManager :=
  let m := { m with current_now_ms := now_ms }
  let (requests, m) := m.tickPullRequestQueue a
  let (responses, m) := m.tickPullResponseQueue
  (requests ++ responses, m)

end Dispatching

end PullManager

inductive PullEvent where
  | rx (sender : MacAddress) (data : Bytes) (set_ok : Bool) (others : WireHeader → Bytes → Bool)
  | tick (now_ms : UInt32) (answers : TickAnswers)
  | sendRequest (payload : Bytes) (corr_id : UInt32) (epoch : Option UInt64)
  | sendResponse (peer : MacAddress) (payload : Bytes) (corr_id : UInt32) (epoch : Option UInt64)

namespace PullManager

def step (m : PullManager) : PullEvent → List PullHandover × PullManager
  | .rx sender data set_ok others => ([], (m.onRx sender data set_ok others).2)
  | .tick now_ms answers => m.tick now_ms answers
  | .sendRequest payload corr_id epoch => ([], (m.sendPullRequest payload corr_id epoch).2)
  | .sendResponse peer payload corr_id epoch => ([], (m.sendPullResponse peer payload corr_id epoch).2)

def run (m : PullManager) : List PullEvent → List PullHandover × PullManager
  | [] => ([], m)
  | event :: events =>
    let (first, m) := m.step event
    let (rest, m) := run m events
    (first ++ rest, m)

/-- The frames that wait for their handler, the oldest first. -/
def inbox (m : PullManager) : List PullFrame :=
  match m.local_role with
  | .Slave => m.pull_request_queue.map (·.frame)
  | .Master => m.pull_response_queue.map (·.frame)

def inboxMax (m : PullManager) : Nat :=
  match m.local_role with
  | .Slave => kPullRequestQueueMax
  | .Master => kPullResponseQueueMax

/-- The type of message that ends in the inbox. -/
def inboxType (m : PullManager) : MessageType :=
  match m.local_role with
  | .Slave => .PullRequest
  | .Master => .PullResponse

/-- The time-sync metadata is there if its flag is. -/
def MetadataComplete (h : WireHeader) (payload : Bytes) : Prop :=
  h.flags &&& kFrameFlagTimeSyncEpoch = 0 ∨ kTimeSyncMetadataSize ≤ payload.length

instance (h : WireHeader) (payload : Bytes) : Decidable (MetadataComplete h payload) :=
  inferInstanceAs (Decidable (_ ∨ _))

/-- What a decoded frame brings for the inbox. -/
def frameArrival (m : PullManager) (sender : MacAddress) (h : WireHeader) (payload : Bytes) :
    Option PullFrame :=
  if h.type = m.inboxType ∧ MetadataComplete h payload then
    some ⟨sender, h.correlation_id, effectivePayload h payload⟩
  else none

def rxArrival (m : PullManager) (sender : MacAddress) (data : Bytes) : Option PullFrame :=
  (ProtocolCodec.decode data).bind fun read => m.frameArrival sender read.1 read.2

def arrival (m : PullManager) : PullEvent → Option PullFrame
  | .rx sender data _ _ => m.rxArrival sender data
  | _ => none

/-- A frame that arrives finds room in the inbox. -/
def Admits (m : PullManager) (event : PullEvent) : Prop :=
  (m.arrival event).isSome → m.inbox.length < m.inboxMax

/-- Along the run every frame that arrives finds room. -/
def NeverFull (m : PullManager) : List PullEvent → Prop
  | [] => True
  | event :: events => m.Admits event ∧ NeverFull (m.step event).2 events

/-- `t` has the queues of `m` and what decides who handles their frames. -/
structure SameTraffic (m t : PullManager) : Prop where
  local_role : t.local_role = m.local_role
  provider : t.provider = m.provider
  has_control_plane : t.has_control_plane = m.has_control_plane
  requests : t.pull_request_queue = m.pull_request_queue
  responses : t.pull_response_queue = m.pull_response_queue

namespace SameTraffic

variable {m t u : PullManager}

protected theorem refl (m : PullManager) : SameTraffic m m := ⟨rfl, rfl, rfl, rfl, rfl⟩

protected theorem trans (h : SameTraffic m t) (h' : SameTraffic t u) : SameTraffic m u :=
  ⟨h'.local_role.trans h.local_role, h'.provider.trans h.provider,
    h'.has_control_plane.trans h.has_control_plane, h'.requests.trans h.requests,
    h'.responses.trans h.responses⟩

theorem inbox (h : SameTraffic m t) : t.inbox = m.inbox := by
  rw [PullManager.inbox, PullManager.inbox, h.local_role, h.requests, h.responses]

end SameTraffic

theorem appendTimeSyncMetadata_same (m : PullManager) (payload : Bytes) (epoch : Option UInt64) :
    SameTraffic m (m.appendTimeSyncMetadata payload epoch).2.2 := by
  unfold appendTimeSyncMetadata
  split
  · exact .refl m
  split
  · exact .refl m
  cases epoch with
  | none => exact .refl m
  | some epoch_s => exact ⟨rfl, rfl, rfl, rfl, rfl⟩

theorem sendPullRequest_same (m : PullManager) (payload : Bytes) (corr_id : UInt32)
    (epoch : Option UInt64) : SameTraffic m (m.sendPullRequest payload corr_id epoch).2 := by
  unfold sendPullRequest
  split
  · exact .refl m
  · exact appendTimeSyncMetadata_same m payload epoch

theorem sendPullResponse_same (m : PullManager) (peer : MacAddress) (payload : Bytes)
    (corr_id : UInt32) (epoch : Option UInt64) :
    SameTraffic m (m.sendPullResponse peer payload corr_id epoch).2 := by
  have hanswered : SameTraffic m
      (if (m.answeredPull peer corr_id).isSome then { m with pending_pull := none } else m) := by
    split
    · exact ⟨rfl, rfl, rfl, rfl, rfl⟩
    · exact .refl m
  unfold sendPullResponse
  split
  · exact .refl m
  · exact hanswered.trans (appendTimeSyncMetadata_same _ payload epoch)

theorem replyTo_same (m : PullManager) (request : QueuedPullRequest) (reply : StreamReply)
    (sent : Bool) : SameTraffic m (m.replyTo request reply sent).2 := by
  unfold replyTo
  cases buildDescriptorReply reply with
  | none => exact .refl m
  | some payload => exact sendPullResponse_same m _ _ _ _

theorem applyTimeSyncFromFrame_same (m : PullManager) (h : WireHeader) (payload : Bytes)
    (set_ok : Bool) : SameTraffic m (m.applyTimeSyncFromFrame h payload set_ok).2 := by
  unfold applyTimeSyncFromFrame
  dsimp only
  split_ifs <;> first | exact .refl m | exact ⟨rfl, rfl, rfl, rfl, rfl⟩

end PullManager

namespace TelemetryManager

/-- A command leaves the role and the provider of the manager as they are. -/
structure SameProvider (m t : TelemetryManager) : Prop where
  local_role : t.local_role = m.local_role
  provider : t.provider = m.provider

theorem persistTelemetryPushConfig_same (m : TelemetryManager) :
    SameProvider m m.persistTelemetryPushConfig.2 := by
  unfold persistTelemetryPushConfig
  cases m.store with
  | none => exact ⟨rfl, rfl⟩
  | some store =>
    dsimp only
    split_ifs <;> exact ⟨rfl, rfl⟩

theorem clearTelemetryPushConfig_same (m : TelemetryManager) (master : MacAddress) :
    SameProvider m (m.clearTelemetryPushConfig master).2 := by
  unfold clearTelemetryPushConfig
  cases m.store with
  | none => exact ⟨rfl, rfl⟩
  | some store =>
    dsimp only
    split_ifs <;> exact ⟨rfl, rfl⟩

theorem startStream_same (m : TelemetryManager) (sender : MacAddress) (config : TelemetryPushConfig)
    (done : String) : SameProvider m (m.startStream sender config done).2 := by
  unfold startStream
  cases m.admitConfig sender config with
  | error message => exact ⟨rfl, rfl⟩
  | ok next =>
    have hpersist := persistTelemetryPushConfig_same (m.withSession next)
    dsimp only
    cases hp : (m.withSession next).persistTelemetryPushConfig with
    | mk ok t =>
      rw [hp] at hpersist
      cases ok <;> exact ⟨hpersist.local_role, hpersist.provider⟩

theorem setPaused_same (m : TelemetryManager) (paused : Bool) (done : String) :
    SameProvider m (m.setPaused paused done).2 := by
  unfold setPaused
  split
  · exact ⟨rfl, rfl⟩
  · have hpersist := persistTelemetryPushConfig_same
      (m.withSession { m.push_session with paused := paused })
    cases hp : (m.withSession { m.push_session with paused := paused }).persistTelemetryPushConfig with
    | mk ok t =>
      rw [hp] at hpersist
      cases ok <;> exact ⟨hpersist.local_role, hpersist.provider⟩

theorem stopStream_same (m : TelemetryManager) (sender : MacAddress) :
    SameProvider m (m.stopStream sender).2 := by
  unfold stopStream
  have hclear := clearTelemetryPushConfig_same (m.withSession {}) sender
  cases hp : (m.withSession {}).clearTelemetryPushConfig sender with
  | mk ok t =>
    rw [hp] at hclear
    cases ok <;> exact ⟨hclear.local_role, hclear.provider⟩

theorem handleTelemetryPushControl_same (m : TelemetryManager) (sender : MacAddress)
    (payload : Bytes) : SameProvider m (m.handleTelemetryPushControl sender payload).2 := by
  unfold handleTelemetryPushControl
  cases parseTelemetryPushCommand payload with
  | none => exact ⟨rfl, rfl⟩
  | some cmd =>
    dsimp only
    unfold handlePushCommand
    split
    · exact ⟨rfl, rfl⟩
    · cases m.senderRefusal sender with
      | some message => exact ⟨rfl, rfl⟩
      | none =>
        dsimp only
        cases cmd.action with
        | Start => exact startStream_same m sender cmd.config _
        | Update => exact startStream_same m sender cmd.config _
        | Pause => exact setPaused_same m true _
        | Resume => exact setPaused_same m false _
        | Stop => exact stopStream_same m sender
        | Get => exact ⟨rfl, rfl⟩

/-- The push control takes push commands only, and those only where there is a provider. -/
theorem handleTelemetryPushControl_some {m : TelemetryManager} {sender : MacAddress} {payload : Bytes}
    (h : (m.handleTelemetryPushControl sender payload).1.isSome) :
    m.provider.isSome ∧ (parseTelemetryPushCommand payload).isSome := by
  unfold handleTelemetryPushControl at h
  cases hparse : parseTelemetryPushCommand payload with
  | none =>
    rw [hparse] at h
    cases h
  | some cmd =>
    rw [hparse] at h
    refine ⟨?_, rfl⟩
    dsimp only at h
    unfold handlePushCommand at h
    split at h
    · cases h
    · rename_i hprovider
      exact Option.isSome_iff_ne_none.mpr (not_or.mp hprovider).2

end TelemetryManager

namespace PullManager

/-- Who gets a frame: the control plane, unless the push control takes it or there is none. -/
def HandedRightly (m : PullManager) (h : PullHandover) : Prop :=
  match h.handler with
  | .controlPlane => m.has_control_plane = true
  | .pushControl => m.provider.isSome ∧ (parseTelemetryPushCommand h.frame.payload).isSome
  | .nobody => m.has_control_plane = false

theorem pushControl_spec (m : PullManager) (sent : Bool) (request : QueuedPullRequest) :
    SameTraffic m (m.pushControl sent request).2 ∧ ((m.pushControl sent request).1 = true →
      m.provider.isSome ∧ (parseTelemetryPushCommand request.payload).isSome) := by
  have hcontrol := m.toTelemetryManager.handleTelemetryPushControl_same request.sender request.payload
  have htaken : ∀ reply, (m.toTelemetryManager.handleTelemetryPushControl request.sender
      request.payload).1 = some reply →
        m.provider.isSome ∧ (parseTelemetryPushCommand request.payload).isSome := by
    intro reply hreply
    exact TelemetryManager.handleTelemetryPushControl_some (by rw [hreply]; rfl)
  unfold pushControl
  generalize m.toTelemetryManager.handleTelemetryPushControl request.sender request.payload = answer
    at hcontrol htaken ⊢
  obtain ⟨reply, t⟩ := answer
  have hsame : SameTraffic m { m with toTelemetryManager := t } :=
    ⟨hcontrol.local_role, hcontrol.provider, rfl, rfl, rfl⟩
  cases reply with
  | none => exact ⟨hsame, fun h => by cases h⟩
  | some reply => exact ⟨hsame.trans (replyTo_same _ request reply sent), fun _ => htaken reply rfl⟩

theorem processQueuedPullRequest_spec (m : PullManager) (a : TickAnswers) (request : QueuedPullRequest) :
    (m.processQueuedPullRequest a request).1.frame = request.frame ∧
      m.HandedRightly (m.processQueuedPullRequest a request).1 ∧
      SameTraffic m (m.processQueuedPullRequest a request).2 := by
  have hnoted : SameTraffic m (m.notePending request) := ⟨rfl, rfl, rfl, rfl, rfl⟩
  have hpush := pushControl_spec (m.notePending request) a.sent request
  unfold processQueuedPullRequest
  generalize (m.notePending request).pushControl a.sent request = answer at hpush ⊢
  obtain ⟨taken, t⟩ := answer
  obtain ⟨hkept, htaken⟩ := hpush
  have hsame : SameTraffic m t := hnoted.trans hkept
  have hplane := hsame.has_control_plane
  dsimp only
  split
  · rename_i hyes
    exact ⟨rfl, htaken hyes, hsame⟩
  split
  · rename_i hhandled
    refine ⟨rfl, ?_, hsame⟩
    change m.has_control_plane = true
    rw [← hplane]
    exact (Bool.and_eq_true_iff.mp hhandled).1
  · refine ⟨rfl, ?_, hsame.trans (replyTo_same t request _ a.sent)⟩
    cases hp : t.has_control_plane with
    | true => exact hplane.symm.trans hp
    | false => exact hplane.symm.trans hp

/-- `t` decides like `m` who handles a frame. -/
structure SameDispatch (m t : PullManager) : Prop where
  local_role : t.local_role = m.local_role
  provider : t.provider = m.provider
  has_control_plane : t.has_control_plane = m.has_control_plane

theorem SameTraffic.dispatch {m t : PullManager} (h : SameTraffic m t) : SameDispatch m t :=
  ⟨h.local_role, h.provider, h.has_control_plane⟩

namespace SameDispatch

variable {m t u : PullManager}

protected theorem trans (h : SameDispatch m t) (h' : SameDispatch t u) : SameDispatch m u :=
  ⟨h'.local_role.trans h.local_role, h'.provider.trans h.provider,
    h'.has_control_plane.trans h.has_control_plane⟩

theorem handedRightly (h : SameDispatch m t) {handover : PullHandover}
    (hright : t.HandedRightly handover) : m.HandedRightly handover := by
  unfold HandedRightly at hright ⊢
  rwa [h.has_control_plane, h.provider] at hright

end SameDispatch

/-- What was handed over and what waits is, in its order, what waited and what came. -/
structure Passes (m : PullManager) (came : List PullFrame) (handed : List PullHandover)
    (t : PullManager) : Prop where
  frames : handed.map (·.frame) ++ t.inbox = m.inbox ++ came
  rightly : ∀ h ∈ handed, m.HandedRightly h
  dispatch : SameDispatch m t

namespace Passes

variable {m t u : PullManager} {came came' : List PullFrame} {handed handed' : List PullHandover}

theorem of_same (h : SameTraffic m t) : Passes m [] [] t where
  frames := by rw [h.inbox, List.append_nil]; rfl
  rightly := by simp
  dispatch := h.dispatch

protected theorem trans (h : Passes m came handed t) (h' : Passes t came' handed' u) :
    Passes m (came ++ came') (handed ++ handed') u where
  frames := by
    rw [List.map_append, List.append_assoc, h'.frames, ← List.append_assoc, h.frames,
      List.append_assoc]
  rightly := by
    intro handover hmem
    rcases List.mem_append.mp hmem with hfirst | hrest
    · exact h.rightly handover hfirst
    · exact h.dispatch.handedRightly (h'.rightly handover hrest)
  dispatch := h.dispatch.trans h'.dispatch

end Passes

theorem dispatchRequests_passes (a : TickAnswers) (budget : Nat) {m : PullManager}
    (hslave : m.local_role = .Slave) :
    Passes m [] (dispatchRequests a budget m).1 (dispatchRequests a budget m).2 := by
  induction budget generalizing m with
  | zero => exact .of_same (.refl m)
  | succ budget ih =>
    unfold dispatchRequests
    cases hq : m.pull_request_queue with
    | nil => exact .of_same (.refl m)
    | cons request queue =>
      have hspec := processQueuedPullRequest_spec { m with pull_request_queue := queue } a request
      dsimp only
      generalize PullManager.processQueuedPullRequest { m with pull_request_queue := queue } a request =
        answer at hspec ⊢
      obtain ⟨handover, t⟩ := answer
      obtain ⟨hframe, hright, hsame⟩ := hspec
      have hfirst : Passes m [] [handover] t := by
        refine ⟨?_, ?_, hsame.dispatch.local_role, hsame.dispatch.provider,
          hsame.dispatch.has_control_plane⟩
        · have hrole : t.local_role = .Slave := hsame.local_role.trans hslave
          have hrest : t.pull_request_queue = queue := hsame.requests
          simp only [inbox, hrole, hslave, hq, hrest]
          simpa using hframe
        · intro h hmem
          obtain rfl := List.mem_singleton.mp hmem
          exact hright
      exact hfirst.trans (ih (hsame.local_role.trans hslave))

theorem dispatchResponses_passes (budget : Nat) {m : PullManager} (hmaster : m.local_role = .Master) :
    Passes m [] (dispatchResponses budget m).1 (dispatchResponses budget m).2 := by
  induction budget generalizing m with
  | zero => exact .of_same (.refl m)
  | succ budget ih =>
    unfold dispatchResponses
    cases hq : m.pull_response_queue with
    | nil => exact .of_same (.refl m)
    | cons response queue =>
      have hfirst : Passes m [] [⟨response.frame, if m.has_control_plane then .controlPlane else .nobody⟩]
          { m with pull_response_queue := queue } := by
        refine ⟨?_, ?_, rfl, rfl, rfl⟩
        · simp [inbox, hmaster, hq]
        · intro h hmem
          obtain rfl := List.mem_singleton.mp hmem
          cases hp : m.has_control_plane <;> exact hp
      exact hfirst.trans (ih (m := { m with pull_response_queue := queue }) hmaster)

theorem tickPullRequestQueue_passes (m : PullManager) (a : TickAnswers) :
    Passes m [] (m.tickPullRequestQueue a).1 (m.tickPullRequestQueue a).2 := by
  unfold tickPullRequestQueue
  split
  · exact .of_same (.refl m)
  · rename_i hslave
    exact dispatchRequests_passes a _ (not_not.mp hslave)

theorem tickPullResponseQueue_passes (m : PullManager) :
    Passes m [] m.tickPullResponseQueue.1 m.tickPullResponseQueue.2 := by
  unfold tickPullResponseQueue
  split
  · exact .of_same (.refl m)
  · rename_i hmaster
    exact dispatchResponses_passes _ (not_not.mp hmaster)

theorem tick_passes (m : PullManager) (now_ms : UInt32) (a : TickAnswers) :
    Passes m [] (m.tick now_ms a).1 (m.tick now_ms a).2 := by
  have hclock : SameTraffic m { m with current_now_ms := now_ms } := ⟨rfl, rfl, rfl, rfl, rfl⟩
  have hrequests := tickPullRequestQueue_passes { m with current_now_ms := now_ms } a
  have hresponses := tickPullResponseQueue_passes
    (tickPullRequestQueue { m with current_now_ms := now_ms } a).2
  exact ((Passes.of_same hclock).trans hrequests).trans hresponses

theorem pushBounded_room {α : Type} {max : Nat} {queue : List α} (h : queue.length < max) (a : α) :
    pushBounded max queue a = queue ++ [a] := by
  rw [pushBounded, if_neg (by omega)]

theorem applyTimeSyncFromFrame_fst (m : PullManager) (h : WireHeader) (payload : Bytes)
    (set_ok : Bool) :
    (m.applyTimeSyncFromFrame h payload set_ok).1 = decide (MetadataComplete h payload) := by
  unfold applyTimeSyncFromFrame MetadataComplete
  dsimp only
  split
  · rename_i hflag
    simp [hflag]
  · rename_i hflag
    split
    · rename_i hshort
      simp [hflag, hshort]
    · rename_i hlong
      split_ifs <;> simp [hflag] <;> omega

theorem onFrame_passes (m : PullManager) (sender : MacAddress) {h : WireHeader} (payload : Bytes)
    (set_ok : Bool) (others : WireHeader → Bytes → Bool) (hversion : h.version = kProtocolVersion)
    (hroom : (m.frameArrival sender h payload).isSome → m.inbox.length < m.inboxMax) :
    Passes m (m.frameArrival sender h payload).toList []
      (m.onFrame sender h payload set_ok others).2 := by
  have hsync := applyTimeSyncFromFrame_same m h payload set_ok
  have haccepted := applyTimeSyncFromFrame_fst m h payload set_ok
  have hnone : ∀ {t}, SameTraffic m t → m.frameArrival sender h payload = none →
      Passes m (m.frameArrival sender h payload).toList [] t := by
    intro t ht harrival
    rw [harrival]
    exact .of_same ht
  unfold onFrame
  split
  · rename_i hdiscovery
    refine hnone (.refl m) (if_neg fun hin => ?_)
    have htype := hin.1.symm.trans hdiscovery.1
    unfold inboxType at htype
    cases hrole : m.local_role <;> simp [hrole] at htype
  rw [if_neg (not_not.mpr hversion)]
  generalize m.applyTimeSyncFromFrame h payload set_ok = synced at hsync haccepted
  obtain ⟨ok, t⟩ := synced
  cases ok with
  | false => exact hnone hsync (if_neg fun hin => (of_decide_eq_false haccepted.symm) hin.2)
  | true =>
    have hcomplete := of_decide_eq_true haccepted.symm
    dsimp only
    have hpush : h.type = m.inboxType → ∀ u, SameDispatch m u →
        u.inbox = t.inbox ++ [⟨sender, h.correlation_id, effectivePayload h payload⟩] →
        Passes m (m.frameArrival sender h payload).toList [] u := by
      intro htype u hu hinbox
      rw [frameArrival, if_pos ⟨htype, hcomplete⟩]
      refine ⟨?_, by simp, hu⟩
      rw [hinbox, hsync.inbox]
      rfl
    have hroom' : h.type = m.inboxType → t.inbox.length < t.inboxMax := by
      intro htype
      have hlt := hroom (by rw [frameArrival, if_pos ⟨htype, hcomplete⟩]; rfl)
      rwa [hsync.inbox, show t.inboxMax = m.inboxMax by rw [inboxMax, inboxMax, hsync.local_role]]
    cases hrole : m.local_role with
    | Slave =>
      have htrole : t.local_role = .Slave := hsync.local_role.trans hrole
      have hin : m.inboxType = .PullRequest := by rw [inboxType, hrole]
      split
      · rename_i htype
        have hlt := hroom' (htype.trans hin.symm)
        simp only [inbox, inboxMax, htrole, List.length_map] at hlt
        unfold onRxPullRequest
        rw [if_neg (not_not.mpr htrole)]
        refine hpush (htype.trans hin.symm) _ ⟨hsync.local_role, hsync.provider,
          hsync.has_control_plane⟩ ?_
        simp only [inbox, htrole, pushBounded_room hlt, List.map_append]
        rfl
      · rename_i htype
        unfold onRxPullResponse
        rw [if_pos (by rw [htrole]; decide)]
        exact hnone hsync (if_neg fun h' => by rw [htype, hin] at h'; exact absurd h'.1 (by decide))
      · rename_i hrequest hresponse
        exact hnone hsync (if_neg fun h' => hrequest (h'.1.trans hin))
    | Master =>
      have htrole : t.local_role = .Master := hsync.local_role.trans hrole
      have hin : m.inboxType = .PullResponse := by rw [inboxType, hrole]
      split
      · rename_i htype
        unfold onRxPullRequest
        rw [if_pos (by rw [htrole]; decide)]
        exact hnone hsync (if_neg fun h' => by rw [htype, hin] at h'; exact absurd h'.1 (by decide))
      · rename_i htype
        have hlt := hroom' (htype.trans hin.symm)
        simp only [inbox, inboxMax, htrole, List.length_map] at hlt
        unfold onRxPullResponse
        rw [if_neg (not_not.mpr htrole)]
        refine hpush (htype.trans hin.symm) _ ⟨hsync.local_role, hsync.provider,
          hsync.has_control_plane⟩ ?_
        simp only [inbox, htrole, pushBounded_room hlt, List.map_append]
        rfl
      · rename_i hrequest hresponse
        exact hnone hsync (if_neg fun h' => hresponse (h'.1.trans hin))

theorem onRx_passes (m : PullManager) (sender : MacAddress) (data : Bytes) (set_ok : Bool)
    (others : WireHeader → Bytes → Bool)
    (hroom : (m.rxArrival sender data).isSome → m.inbox.length < m.inboxMax) :
    Passes m (m.rxArrival sender data).toList [] (m.onRx sender data set_ok others).2 := by
  unfold rxArrival at hroom
  unfold onRx rxArrival
  cases hdecode : ProtocolCodec.decode data with
  | none => exact .of_same (.refl m)
  | some read =>
    obtain ⟨h, payload⟩ := read
    rw [hdecode] at hroom
    obtain ⟨w, type, -, -, hread, -⟩ := ProtocolCodec.decode_sound hdecode
    have hversion : h.version = kProtocolVersion := by rw [hread]; rfl
    exact onFrame_passes m sender payload set_ok others hversion hroom

theorem step_passes (m : PullManager) (event : PullEvent) (hroom : m.Admits event) :
    Passes m (m.arrival event).toList (m.step event).1 (m.step event).2 := by
  cases event with
  | rx sender data set_ok others => exact onRx_passes m sender data set_ok others hroom
  | tick now_ms answers => exact tick_passes m now_ms answers
  | sendRequest payload corr_id epoch => exact .of_same (sendPullRequest_same m payload corr_id epoch)
  | sendResponse peer payload corr_id epoch =>
    exact .of_same (sendPullResponse_same m peer payload corr_id epoch)

/-- What arrives along a run. -/
def arrivals (m : PullManager) : List PullEvent → List PullFrame
  | [] => []
  | event :: events => (m.arrival event).toList ++ arrivals (m.step event).2 events

theorem run_passes {m : PullManager} {events : List PullEvent} (hroom : m.NeverFull events) :
    Passes m (m.arrivals events) (m.run events).1 (m.run events).2 := by
  induction events generalizing m with
  | nil => exact .of_same (.refl m)
  | cons event events ih => exact (step_passes m event hroom.1).trans (ih hroom.2)

section Traffic

theorem pullRequestWire_valid (payload : Bytes) :
    isValidPullRequestWire (pullRequestWire payload).1 (pullRequestWire payload).2 = true := by
  unfold pullRequestWire
  dsimp only
  split_ifs with hvalid
  · exact hvalid
  · decide

theorem pullResponseWire_valid (answered : Option PendingPullContext) :
    isValidPullResponseWire (pullResponseWire answered).1 (pullResponseWire answered).2 = true := by
  unfold pullResponseWire
  dsimp only
  split_ifs with hvalid
  · exact hvalid
  · decide

/-- The metadata is added and marked, or neither. -/
theorem appendTimeSyncMetadata_spec (m : PullManager) {payload : Bytes} (epoch : Option UInt64)
    (hlen : payload.length ≤ kMaxPayload) :
    let sent := m.appendTimeSyncMetadata payload epoch
    sent.2.1.length ≤ kMaxPayload ∧
      (sent.1 = 0 ∧ sent.2.1 = payload ∨
        sent.1 = kFrameFlagTimeSyncEpoch ∧ sent.2.1.drop kTimeSyncMetadataSize = payload ∧
          kTimeSyncMetadataSize ≤ sent.2.1.length) := by
  unfold appendTimeSyncMetadata
  split
  · exact ⟨hlen, .inl ⟨rfl, rfl⟩⟩
  split
  · exact ⟨hlen, .inl ⟨rfl, rfl⟩⟩
  · rename_i hfits
    cases epoch with
    | none => exact ⟨hlen, .inl ⟨rfl, rfl⟩⟩
    | some epoch_s =>
      have hsize : (le32 epoch_s.toUInt32 ++ payload).length = 4 + payload.length := by
        rw [List.length_append, le32_length]
      rw [kMaxPayload, kTimeSyncMetadataSize] at hfits
      refine ⟨?_, .inr ⟨rfl, rfl, ?_⟩⟩
      · exact hsize.trans_le (by rw [kMaxPayload]; omega)
      · exact (Nat.le_add_right 4 _).trans_eq hsize.symm

/-- What is sent as a pull is a frame that is read back as a pull with its payload. -/
theorem sendTyped_decodes (m : PullManager) {type : MessageType} {payload : Bytes} (corr_id : UInt32)
    {w : WireForm} (epoch : Option UInt64) (hlen : payload.length ≤ kMaxPayload)
    (hw : ManagerForm type w) :
    ∃ frame h wire_payload, (m.sendTyped type payload corr_id w epoch).1 = some frame ∧
      ProtocolCodec.decode frame = some (h, wire_payload) ∧ h.type = type ∧
      h.correlation_id = corr_id ∧ h.wire_service = w.service ∧ h.wire_op_code = w.op ∧
      MetadataComplete h wire_payload ∧ effectivePayload h wire_payload = payload := by
  obtain ⟨hfits, hsync⟩ := m.appendTimeSyncMetadata_spec epoch hlen
  unfold sendTyped
  generalize m.appendTimeSyncMetadata payload epoch = sent at hfits hsync
  obtain ⟨flags, wire_payload, t⟩ := sent
  dsimp only at hfits hsync ⊢
  have hform := ProtocolCodec.fromWire_managerForm hw
  obtain ⟨hoverriding, hown⟩ := ProtocolCodec.fromWire_overriding hform
  obtain ⟨own, hown⟩ := Option.isSome_iff_exists.mp hown
  let h : WireHeader := {
    type := type
    flags := flags
    correlation_id := corr_id
    role := t.local_role.toByte
    wire_msg_type := w.msg
    wire_service := w.service
    wire_op_code := w.op
    payload_length := wire_payload.length.toUInt16 }
  have hwire : ProtocolCodec.wireForm h own = w := ProtocolCodec.wireForm_all (h := h) hoverriding own
  have hencode : ProtocolCodec.encode h wire_payload =
      some (ProtocolCodec.sealed (ProtocolCodec.frameBody h w wire_payload)) := by
    rw [ProtocolCodec.encode_eq h hfits, show h.type = type from rfl, hown, Option.map_some, hwire]
  refine ⟨_, ProtocolCodec.received h type w wire_payload, wire_payload, hencode,
    ProtocolCodec.decode_sealed h hform hfits, rfl, rfl, rfl, rfl, ?_⟩
  rcases hsync with ⟨hflags, hpayload⟩ | ⟨hflags, hpayload, hlong⟩
  · have hclear : (ProtocolCodec.received h type w wire_payload).flags &&& kFrameFlagTimeSyncEpoch = 0 := by
      change flags &&& kFrameFlagTimeSyncEpoch = 0
      rw [hflags]
      decide
    exact ⟨.inl hclear, (if_neg (not_not.mpr hclear)).trans hpayload⟩
  · have hset : (ProtocolCodec.received h type w wire_payload).flags &&& kFrameFlagTimeSyncEpoch ≠ 0 := by
      change flags &&& kFrameFlagTimeSyncEpoch ≠ 0
      rw [hflags]
      decide
    exact ⟨.inr hlong, (if_pos hset).trans hpayload⟩

/-- A request that is sent is a frame that brings its payload to a slave. -/
theorem sendPullRequest_arrives (m : PullManager) {payload : Bytes} (corr_id : UInt32)
    (epoch : Option UInt64) (hlen : payload.length ≤ kMaxPayload) (hmaster : m.local_role = .Master) :
    ∃ frame h wire_payload, (m.sendPullRequest payload corr_id epoch).1 = some frame ∧
      ProtocolCodec.decode frame = some (h, wire_payload) ∧ h.type = .PullRequest ∧
      h.correlation_id = corr_id ∧ MetadataComplete h wire_payload ∧
      effectivePayload h wire_payload = payload := by
  have hvalid := ManagerForm.pullRequest _ _ (pullRequestWire_valid payload)
  obtain ⟨frame, h, wire_payload, hframe, hdecode, htype, hcorr, -, -, hcomplete, hpayload⟩ :=
    m.sendTyped_decodes corr_id epoch hlen hvalid
  refine ⟨frame, h, wire_payload, ?_, hdecode, htype, hcorr, hcomplete, hpayload⟩
  unfold sendPullRequest
  rw [if_neg (not_not.mpr hmaster)]
  exact hframe

theorem sendPullResponse_arrives (m : PullManager) (peer : MacAddress) {payload : Bytes}
    (corr_id : UInt32) (epoch : Option UInt64) (hlen : payload.length ≤ kMaxPayload)
    (hmay : m.master_initiated_only = true → m.local_role = .Slave) :
    ∃ frame h wire_payload, (m.sendPullResponse peer payload corr_id epoch).1 = some frame ∧
      ProtocolCodec.decode frame = some (h, wire_payload) ∧ h.type = .PullResponse ∧
      h.correlation_id = corr_id ∧ MetadataComplete h wire_payload ∧
      effectivePayload h wire_payload = payload := by
  have hvalid := ManagerForm.pullResponse _ _ (pullResponseWire_valid (m.answeredPull peer corr_id))
  obtain ⟨frame, h, wire_payload, hframe, hdecode, htype, hcorr, -, -, hcomplete, hpayload⟩ :=
    (if (m.answeredPull peer corr_id).isSome then { m with pending_pull := none } else m).sendTyped_decodes
      corr_id epoch hlen hvalid
  refine ⟨frame, h, wire_payload, ?_, hdecode, htype, hcorr, hcomplete, hpayload⟩
  unfold sendPullResponse
  rw [if_neg ?_]
  · exact hframe
  · intro hrefused
    obtain ⟨honly, hrole⟩ := Bool.and_eq_true_iff.mp hrefused
    rw [hmay honly] at hrole
    exact absurd hrole (by decide)

theorem map_pushBounded {α β : Type} (f : α → β) (max : Nat) (queue : List α) (a : α) :
    (pushBounded max queue a).map f = pushBounded max (queue.map f) (f a) := by
  unfold pushBounded
  rw [List.map_append, List.length_map]
  split
  · rw [List.map_tail]
    rfl
  · rfl

/-- A frame for the inbox is accepted and queued; a full queue gives up its oldest entry. -/
theorem onRx_accepts {m : PullManager} {data : Bytes} {h : WireHeader} {wire_payload : Bytes}
    (hdecode : ProtocolCodec.decode data = some (h, wire_payload)) (htype : h.type = m.inboxType)
    (hcomplete : MetadataComplete h wire_payload) (sender : MacAddress) (set_ok : Bool)
    (others : WireHeader → Bytes → Bool) :
    (m.onRx sender data set_ok others).1 = true ∧
      (m.onRx sender data set_ok others).2.inbox =
        pushBounded m.inboxMax m.inbox ⟨sender, h.correlation_id, effectivePayload h wire_payload⟩ ∧
      m.rxArrival sender data =
        some ⟨sender, h.correlation_id, effectivePayload h wire_payload⟩ := by
  obtain ⟨w, type, -, -, hread, -⟩ := ProtocolCodec.decode_sound hdecode
  have hversion : h.version = kProtocolVersion := by rw [hread]; rfl
  have hsync := applyTimeSyncFromFrame_same m h wire_payload set_ok
  have haccepted := applyTimeSyncFromFrame_fst m h wire_payload set_ok
  rw [← and_assoc]
  refine ⟨?_, ?_⟩
  · have hdiscovery : ¬ (h.type = .Discovery ∧ m.local_role = .Master ∧ !m.discovery_rx_enabled) := by
      intro hd
      rw [htype, inboxType] at hd
      cases hrole : m.local_role <;> simp [hrole] at hd
    rw [onRx, hdecode]
    dsimp only
    rw [onFrame, if_neg hdiscovery, if_neg (not_not.mpr hversion)]
    generalize m.applyTimeSyncFromFrame h wire_payload set_ok = synced at hsync haccepted
    obtain ⟨ok, t⟩ := synced
    obtain rfl : ok = true := haccepted.trans (decide_eq_true hcomplete)
    dsimp only
    unfold inboxType at htype
    cases hrole : m.local_role with
    | Slave =>
      have htrole : t.local_role = .Slave := hsync.local_role.trans hrole
      rw [hrole] at htype
      rw [htype]
      dsimp only
      rw [onRxPullRequest, if_neg (not_not.mpr htrole)]
      have hqueue : t.pull_request_queue = m.pull_request_queue := hsync.requests
      refine ⟨rfl, ?_⟩
      simp only [inbox, inboxMax, htrole, hrole, map_pushBounded, hqueue]
      rfl
    | Master =>
      have htrole : t.local_role = .Master := hsync.local_role.trans hrole
      rw [hrole] at htype
      rw [htype]
      dsimp only
      rw [onRxPullResponse, if_neg (not_not.mpr htrole)]
      have hqueue : t.pull_response_queue = m.pull_response_queue := hsync.responses
      refine ⟨rfl, ?_⟩
      simp only [inbox, inboxMax, htrole, hrole, map_pushBounded, hqueue]
      rfl
  · rw [rxArrival, hdecode]
    exact if_pos ⟨htype, hcomplete⟩

theorem tick_hands_one (m : PullManager) (now_ms : UInt32) (a : TickAnswers) (h : m.inbox ≠ []) :
    0 < (m.tick now_ms a).1.length := by
  have hlen : (m.tick now_ms a).1.length =
      (tickPullRequestQueue { m with current_now_ms := now_ms } a).1.length +
        (tickPullRequestQueue { m with current_now_ms := now_ms } a).2.tickPullResponseQueue.1.length :=
    List.length_append
  cases hrole : m.local_role with
  | Slave =>
    cases hq : m.pull_request_queue with
    | nil => simp [inbox, hrole, hq] at h
    | cons request queue =>
      have hfirst : 0 < (tickPullRequestQueue { m with current_now_ms := now_ms } a).1.length := by
        simp [tickPullRequestQueue, hrole, kPullRequestDispatchBudgetPerTick, dispatchRequests, hq]
      omega
  | Master =>
    cases hq : m.pull_response_queue with
    | nil => simp [inbox, hrole, hq] at h
    | cons response queue =>
      have hnone : tickPullRequestQueue { m with current_now_ms := now_ms } a =
          ([], { m with current_now_ms := now_ms }) := if_pos (by simp [hrole])
      have hfirst : 0 < (tickPullResponseQueue { m with current_now_ms := now_ms }).1.length := by
        simp [tickPullResponseQueue, hrole, kPullResponseDispatchBudgetPerTick, dispatchResponses, hq]
      rw [hnone] at hlen
      dsimp only at hlen
      omega

/-- A tick hands over the oldest frame that waits. -/
theorem tick_hands (m : PullManager) (now_ms : UInt32) (a : TickAnswers) :
    (m.tick now_ms a).2.inbox.length ≤ m.inbox.length - 1 := by
  have hpass := tick_passes m now_ms a
  have hcount : (m.tick now_ms a).1.length + (m.tick now_ms a).2.inbox.length = m.inbox.length := by
    have hlen := congrArg List.length hpass.frames
    simpa using hlen
  by_cases hempty : m.inbox = []
  · rw [hempty] at hcount ⊢
    simp only [List.length_nil] at hcount ⊢
    omega
  · have hhanded := tick_hands_one m now_ms a hempty
    omega

/-- The manager after so many ticks. -/
def afterTicks (m : PullManager) (ticks : List (UInt32 × TickAnswers)) : PullManager :=
  (m.run (ticks.map fun t => .tick t.1 t.2)).2

theorem afterTicks_inbox (m : PullManager) (ticks : List (UInt32 × TickAnswers)) :
    (m.afterTicks ticks).inbox.length ≤ m.inbox.length - ticks.length := by
  induction ticks generalizing m with
  | nil => exact Nat.le_refl _
  | cons t ticks ih =>
    have hfirst := m.tick_hands t.1 t.2
    have hrest := ih (m.tick t.1 t.2).2
    rw [List.length_cons]
    exact hrest.trans (by omega)

end Traffic

instance (m : PullManager) (event : PullEvent) : Decidable (m.Admits event) :=
  inferInstanceAs (Decidable (_ → _))

instance NeverFull.decidable : (m : PullManager) → (events : List PullEvent) →
    Decidable (m.NeverFull events)
  | _, [] => inferInstanceAs (Decidable True)
  | m, event :: events =>
    have := NeverFull.decidable (m.step event).2 events
    inferInstanceAs (Decidable (m.Admits event ∧ _))

end PullManager

/-- A manager after its start, with a control plane and a running clock source. -/
def startedPullManager (role : Role) (provider : Option TelemetryProvider) : PullManager where
  local_role := role
  local_mac := Vector.replicate 6 2
  paired_peer := none
  provider := provider
  local_profile := none
  store := none
  push_session := {}
  telemetry_push_seq := 1
  current_now_ms := 0
  has_control_plane := true
  master_initiated_only := true
  discovery_rx_enabled := false
  time_sync := ⟨true, 0, true, 0, 0⟩
  has_time_source := true
  has_time_sink := true
  has_time_sync_tx := false
  last_time_sync_tx_ms := 0
  last_time_sync_rx_epoch_s := 0
  pending_pull := none
  pull_request_queue := []
  pull_response_queue := []

end EspNowLink
