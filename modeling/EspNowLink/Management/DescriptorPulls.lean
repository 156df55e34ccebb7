import EspNowLink.Management.RequestDeadlines
import EspNowLink.Runtime.SlaveControlPlane
import EspNowLink.Telemetry.PushCommand

open Framework

namespace EspNowLink

section Decoding

/-- The loop of `parseControlResultPayload`: the last command field and the last result field count. -/
def controlResultFrom : Nat → Option UInt16 → Option UInt16 → Bytes → Option (UInt16 × UInt16)
  | n + 1, cmd, result, tag :: type :: lo :: hi :: rest =>
    let len := lo.toNat + 256 * hi.toNat
    let value := readLe16 (rest.getD 0 0) (rest.getD 1 0)
    if rest.length < len then none
    else if tag = 0x20 ∧ type = 0x02 ∧ len = 2 then controlResultFrom n (some value) result (rest.drop len)
    else if tag = 0x21 ∧ type = 0x02 ∧ len = 2 then controlResultFrom n cmd (some value) (rest.drop len)
    else controlResultFrom n cmd result (rest.drop len)
  | _, some cmd, some result, _ => some (cmd, result)
  | _, _, _, _ => none

def parseControlResultPayload (payload : Bytes) : Option (UInt16 × UInt16) :=
  controlResultFrom payload.length none none payload

/-- What a codec has wrapped, or else the default result. -/
def unwrapResult (size : Format Nat) (magic : UInt8) (read : Bytes → Option (UInt16 × UInt16))
    (payload : Bytes) : Option (UInt16 × UInt16) :=
  match unwrap size magic kKindResult payload with
  | some inner => read inner
  | none => parseControlResultPayload payload

/-- Two numbers, read to the last byte. -/
def readResult {α : Type} (number : Format α) (narrow : α → UInt16) (inner : Bytes) :
    Option (UInt16 × UInt16) :=
  ((number.seq number).get inner).bind fun x =>
    if x.2.isEmpty then some (narrow x.1.1, narrow x.1.2) else none

/-- `decodeControlResult` of the codec. -/
def CodecId.decodeControlResult (id : CodecId) (payload : Bytes) : Option (UInt16 × UInt16) :=
  match id with
  | .Default => parseControlResultPayload payload
  | .CompactIndexed =>
    match payload with
    | [magic, kind, c0, c1, r0, r1] =>
      if magic = kControlMagic ∧ kind = kKindResult then some (readLe16 c0 c1, readLe16 r0 r1)
      else parseControlResultPayload payload
    | _ => parseControlResultPayload payload
  | .PackedTlv => unwrapResult count16 kPackedMagicCtrl parseControlResultPayload payload
  | .VarintTlv => unwrapResult countVar kVarintMagicCtrl (readResult varU32Format UInt32.toUInt16) payload
  | .DeltaBinary => unwrapResult count16 kDeltaMagicCtrl (readResult u16Format fun n => n) payload
  | .CborLite => unwrapResult count16 kCborLiteMagicCtrl parseControlResultPayload payload
  | .BinaryMap => unwrapResult count16 kBinaryMapMagicCtrl parseControlResultPayload payload

inductive PullResponseDecoded where
  | descriptor (d : DescriptorResponse)
  | controlResult (command_id result_code : UInt16)

/-- `decodePullResponseWithActiveCodec`. -/
def decodePullResponse (floats : FloatText) (id : CodecId) (payload : Bytes) : Option PullResponseDecoded :=
  match (id.find floats).decodeDescriptorResponse payload with
  | some d => some (.descriptor d)
  | none => (id.decodeControlResult payload).map fun r => .controlResult r.1 r.2

end Decoding

open ManagementCommandId

abbrev AnswerStatus : Type := { status : ManagementStatus // status ≠ .Timeout }

/-- A pull that is answered once. Its correlation is the id of its request; `origin` is read by nothing. -/
structure PendingDescriptorPull where
  req_id : UInt32
  cmd_id : UInt16
  source : ManagementSource
  peer : MacAddress
  deadline_ms : UInt32
  origin : PendingRequest
  deriving DecidableEq

/-- The service with its pulls; `has_pull` is whether it has a pull client. -/
structure PullService extends ManagementService where
  local_role : Role := .Slave
  has_pull : Bool := true
  pending_descriptor_pulls : List PendingDescriptorPull := []
  deriving DecidableEq

/-- What the execution of a request asks of the manager and of the pull client. The commands that are no
pulls of one answer are `other`. -/
structure PullCalls where
  persisted : MacAddress → Bool
  paired : Option MacAddress
  sent : ManagementRequest → MacAddress → Bool
  status_payload : Bytes
  other : ManagementRequest → Execution

def kPendingDescriptorPullsMax : Nat := 32
def kSettingModeById : UInt8 := 1
def kSettingModeByKey : UInt8 := 2

def parseSettingGetArgs : Bytes → Bool
  | [] => false
  | mode :: rest =>
    if mode = kSettingModeById then 2 ≤ rest.length
    else if mode = kSettingModeByKey then
      match rest with
      | [] => false
      | key_len :: key => key.length = key_len.toNat ∧ key ≠ []
    else false

def parsePageArgs (payload : Bytes) : Bool := payload.length = 3 ∧ payload.getD 2 0 ≠ 0

/-- The commands that are one pull with one answer. -/
def descriptorPulls : List UInt16 :=
  [DescGet, CapsGet, SettingGet, TelemSchemaGet, TelemPull, LiveGet, TimeGet]

def pullArgs (request : ManagementRequest) : Bool :=
  if request.cmd_id = SettingGet then parseSettingGetArgs request.payload
  else if request.cmd_id = TelemPull then request.payload = [] || parsePageArgs request.payload
  else true

namespace PullService

variable (s : PullService)

def requirePairedPeer (calls : PullCalls) (request : ManagementRequest) : Except AnswerStatus MacAddress :=
  match request.target_peer with
  | none =>
    if s.local_role = .Master then .error ⟨.BadPayload, by decide⟩
    else
      match calls.paired with
      | none => .error ⟨.NotPaired, by decide⟩
      | some active => .ok active
  | some peer => if calls.persisted peer then .ok peer else .error ⟨.NotPaired, by decide⟩

/-- The first pull of the peer with the correlation. -/
def findPull (peer : MacAddress) (corr_id : UInt32) : Option PendingDescriptorPull :=
  if corr_id = 0 then none
  else s.pending_descriptor_pulls.find? fun pull => pull.peer = peer ∧ pull.req_id = corr_id

/-- The answer to a pull that may be sent, and the peer it is tracked for. -/
def sendPull (calls : PullCalls) (request : ManagementRequest) (peer : MacAddress) :
    AnswerStatus × Option MacAddress :=
  if !pullArgs request then (⟨.BadPayload, by decide⟩, none)
  else if !calls.sent request peer then (⟨.InternalError, by decide⟩, none)
  else if request.source = .Cli then (⟨.Ok, by decide⟩, none)
  else (⟨.OkDeferred, by decide⟩, some peer)

/-- The answer to a command of `descriptorPulls`, and the peer that a pull is tracked for. -/
def runDescriptorPull (calls : PullCalls) (request : ManagementRequest) : AnswerStatus × Option MacAddress :=
  if !s.has_pull then (⟨.UnsupportedCommand, by decide⟩, none)
  else
    match s.requirePairedPeer calls request with
    | .error status => (status, none)
    | .ok peer =>
      if request.source ≠ .Cli ∧ request.req_id ≠ 0 then
        match s.findPull peer request.req_id with
        | some existing =>
          if existing.source = request.source ∧ existing.cmd_id = request.cmd_id then
            (⟨.OkDeferred, by decide⟩, none)
          else (⟨.QueueFull, by decide⟩, none)
        | none =>
          if s.pending_descriptor_pulls.length ≥ kPendingDescriptorPullsMax then (⟨.QueueFull, by decide⟩, none)
          else sendPull calls request peer
      else sendPull calls request peer

/-- The answer to a push command that only asks. -/
def runPushCommand (calls : PullCalls) (request : ManagementRequest) : AnswerStatus :=
  match s.requirePairedPeer calls request with
  | .error status => status
  | .ok peer =>
    if request.payload ≠ [] ∧ (parseTelemetryPushCommand request.payload).isNone then ⟨.BadPayload, by decide⟩
    else if calls.sent request peer then ⟨.Ok, by decide⟩
    else ⟨.InternalError, by decide⟩

/-- The answer to a command of `descriptorPulls` behind the gate that only a master passes. -/
def executePull (calls : PullCalls) (request : ManagementRequest) : AnswerStatus × Option MacAddress :=
  if s.local_role ≠ .Master then (⟨.UnsupportedCommand, by decide⟩, none)
  else s.runDescriptorPull calls request

/-- `executeRequest`, after its first two gates: every client has the access that these commands require, and a
radio transition blocks none of them. -/
def execution (calls : PullCalls) (request : ManagementRequest) : Execution :=
  if request.cmd_id = StatusGet then .answered [(⟨.Ok, by decide⟩, calls.status_payload)]
  else if request.cmd_id = PushGet then
    if s.local_role ≠ .Master then .answered [(⟨.UnsupportedCommand, by decide⟩, [])]
    else .answered [(s.runPushCommand calls request, [])]
  else if request.cmd_id ∈ descriptorPulls then .answered [((s.executePull calls request).1, [])]
  else calls.other request

/-- `trackPendingDescriptorPull_`: a pull of the same source, peer and correlation is replaced. -/
def track (pull : PendingDescriptorPull) : List PendingDescriptorPull :=
  if pull.req_id = 0 then s.pending_descriptor_pulls
  else
    let same := fun existing : PendingDescriptorPull =>
      existing.source = pull.source ∧ existing.peer = pull.peer ∧ existing.req_id = pull.req_id
    let before := s.pending_descriptor_pulls.takeWhile fun existing => ¬same existing
    if before.length < s.pending_descriptor_pulls.length then
      before ++ pull :: s.pending_descriptor_pulls.drop (before.length + 1)
    else before ++ [pull]

def pullOf (p : PendingRequest) (peer : MacAddress) : PendingDescriptorPull where
  req_id := p.request.req_id
  cmd_id := p.request.cmd_id
  source := p.request.source
  peer := peer
  deadline_ms := s.now_ms + effectiveTimeout p.request
  origin := p

/-- The pulls after a request was executed. -/
def pullsAfter (calls : PullCalls) (p : PendingRequest) : List PendingDescriptorPull :=
  if p.request.cmd_id ∈ descriptorPulls then
    match (s.executePull calls p.request).2 with
    | some peer => s.track (s.pullOf p peer)
    | none => s.pending_descriptor_pulls
  else s.pending_descriptor_pulls

/-- The request that a tick executes: the first one, if its time is not over. -/
def executed (now_ms : UInt32) : Option PendingRequest :=
  s.request_queue.head?.filter fun p => !deadlineReached now_ms p.deadline_ms

/-- The pulls in `prunePendingDescriptorPulls_`, at the start of a tick. -/
def prunePulls (now_ms : UInt32) : PullService :=
  { s with
    now_ms := now_ms
    pending_descriptor_pulls :=
      s.pending_descriptor_pulls.filter fun pull => !deadlineReached now_ms pull.deadline_ms }

def tick (now_ms : UInt32) (calls : PullCalls) : PullService :=
  let s := s.prunePulls now_ms
  { s with
    toManagementService := s.toManagementService.tick now_ms (s.execution calls)
    pending_descriptor_pulls :=
      match s.executed now_ms with
      | some p => s.pullsAfter calls p
      | none => s.pending_descriptor_pulls }

def submit (now_ms : UInt32) (request : ManagementRequest) : PullService :=
  { s with toManagementService := (s.toManagementService.submit now_ms request).2 }

/-- The status and the payload that a pull is answered with: a descriptor is encoded anew. -/
def pullAnswer (floats : FloatText) (id : CodecId) (payload : Bytes) : ManagementStatus × Bytes :=
  if payload = [] then (.InternalError, [])
  else if !s.has_pull then (.Ok, payload)
  else
    match decodePullResponse floats id payload with
    | none => (.InternalError, payload)
    | some (.controlResult _ result_code) => (if result_code = 0 then .Ok else .InternalError, payload)
    | some (.descriptor d) =>
      match encodeResponsePayload d with
      | none => (.InternalError, payload)
      | some encoded => (if d.type = .Error then .InternalError else .Ok, encoded)

def onPullResponse (floats : FloatText) (id : CodecId) (peer : MacAddress) (corr_id : UInt32)
    (payload : Bytes) : PullService :=
  match s.findPull peer corr_id with
  | none => s
  | some pull =>
    let answer := s.pullAnswer floats id payload
    { s with
      toManagementService := s.toManagementService.queueResponse pull.origin
        ⟨pull.source, pull.cmd_id, pull.req_id, answer.1, answer.2⟩
      pending_descriptor_pulls := s.pending_descriptor_pulls.eraseP fun pull =>
        pull.peer = peer ∧ pull.req_id = corr_id }

/-- `pollResponse`. -/
def pollResponse : Option ManagementResponse × PullService :=
  (s.response_queue.head?, { s with response_queue := s.response_queue.tail })

end PullService

end EspNowLink
