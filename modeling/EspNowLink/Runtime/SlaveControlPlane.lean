import EspNowLink.Codec.CompactPages
import EspNowLink.Codec.PullDispatch
import EspNowLink.Descriptor.Pager
import EspNowLink.Topology.StageSession

open Framework

namespace EspNowLink

def kControlCmdRestart : UInt16 := 0x0001
def kControlCmdReset : UInt16 := 0x0002
def kControlCmdAudioPing : UInt16 := 0x0004
def kControlResultUnsupported : UInt16 := 0x0004
def kMaxBundleChunks : Nat := 32

section ControlResults

def buildControlResultPayload (cmd_id result_code : UInt16) : Bytes :=
  Tlv.encode [u16Field 0x20 cmd_id, u16Field 0x21 result_code]

/-- `kControlKindResult`, and the kind of a wrapped result. -/
def kKindResult : UInt8 := 2

/-- `encodeControlResult` of the codec. -/
def CodecId.encodeControlResult (id : CodecId) (cmd_id result_code : UInt16) : Option Bytes :=
  let default := buildControlResultPayload cmd_id result_code
  match id with
  | .Default => some default
  | .CompactIndexed =>
    appendAll [] [some [kControlMagic], some [kKindResult], u16Format.put cmd_id, u16Format.put result_code]
  | .PackedTlv => wrap count16 kPackedMagicCtrl kKindResult default
  | .VarintTlv => ((varU16Format.seq varU16Format).put (cmd_id, result_code)).bind
      (wrap countVar kVarintMagicCtrl kKindResult)
  | .DeltaBinary => ((u16Format.seq u16Format).put (cmd_id, result_code)).bind
      (wrap count16 kDeltaMagicCtrl kKindResult)
  | .CborLite => wrap count16 kCborLiteMagicCtrl kKindResult default
  | .BinaryMap => wrap count16 kBinaryMapMagicCtrl kKindResult default

end ControlResults

section Bundle

/-- What `handleDescriptorQuery` collects for a bundle: a call's flag with what it fills, the settings as
the profile and the provider give them, the samples in the profile's order. -/
structure BundleParts where
  device : Bool × DeviceDescriptor
  liveness : Bool × LivenessStatus
  time : Bool × TimeStatus
  settings : List SettingDescriptor
  samples : Option (List TelemetrySample)

def wants (bundle_mask part : UInt8) : Bool := bundle_mask &&& part ≠ 0

/-- `append_issue`. -/
def withIssue (r : DescriptorResponse) (text : String) : DescriptorResponse :=
  { r with message := if r.message.isEmpty then ascii text else r.message ++ ascii "; " ++ ascii text }

/-- A part of a bundle, with the flag `have_any`: what is wanted is filled in, or reported as missing. -/
def takePart (wanted found : Bool) (fill : DescriptorResponse → DescriptorResponse) (issue : String)
    (x : DescriptorResponse × Bool) : DescriptorResponse × Bool :=
  if !wanted then x
  else if found then (fill x.1, true)
  else (withIssue (fill x.1) issue, x.2)

/-- The settings of a bundle, or the page of them that the query asks for. -/
def bundlePage (query : DescriptorQuery) (full : List SettingDescriptor) (r : DescriptorResponse) :
    DescriptorResponse :=
  let page_size := effectivePageSize query
  if full.isEmpty then r
  else if page_size = 0 then { r with settings := full }
  else
    let total := full.length
    let start := min query.cursor.toNat total
    let last := min total (start + page_size)
    { r with
      settings := (slicePage full start last).map DeviceListKind.Settings.clip
      toPageMeta := finalizePageMeta query total (last - start)
        (DeviceListKind.Settings.snapshot full r.message) }

/-- The case of `handleDescriptorQuery` for a bundle. -/
def nodeBundle (query : DescriptorQuery) (parts : BundleParts) : DescriptorResponse :=
  let mask := effectiveMask query.bundle_mask
  let x := takePart (wants mask kNodeBundleMaskDevice) parts.device.1
    (fun r => { r with device := parts.device.2 }) "device unavailable"
    ({ type := .NodeBundle, bundle_mask := mask }, false)
  let x := takePart (wants mask kNodeBundleMaskLiveness) parts.liveness.1
    (fun r => { r with liveness := parts.liveness.2 }) "liveness unavailable" x
  let x := takePart (wants mask kNodeBundleMaskTime) parts.time.1
    (fun r => { r with time := parts.time.2 }) "time unavailable" x
  let x := takePart (wants mask kNodeBundleMaskSettings) (!parts.settings.isEmpty)
    (bundlePage query parts.settings) "settings unavailable" x
  let x := takePart (wants mask kNodeBundleMaskTelemetry) parts.samples.isSome
    (fun r => { r with telemetry_samples := parts.samples.getD [] }) "telemetry unavailable" x
  if x.2 then x.1
  else { x.1 with
    type := .Error
    message := if x.1.message.isEmpty then ascii "bundle unavailable" else x.1.message }

end Bundle

/-- A pull response by what it answers with: a page of a bundle, another descriptor response, or the
result of a control command. -/
inductive PullAnswer where
  | chunk (payload : Bytes)
  | response (payload : Bytes)
  | controlResult (payload : Bytes)
  deriving DecidableEq

def PullAnswer.payload : PullAnswer → Bytes
  | chunk payload | response payload | controlResult payload => payload

def PullAnswer.ofResponse (r : DescriptorResponse) (payload : Bytes) : PullAnswer :=
  if r.type = .NodeBundle ∧ r.is_paged = true then chunk payload else response payload

/-- What a slave meets while it answers a request. `executeDescriptorQuery` answers `execute`, and for the
n-th chunk of a bundle what `nodeBundle` makes of `bundleParts n`. -/
structure PullSurroundings where
  floats : FloatText
  sends : Bytes → Bool
  sendTrigger : MacAddress → Bytes → Except String Unit
  execute : DescriptorQuery → Option DescriptorResponse
  bundleParts : Nat → BundleParts

/-- A slave's manager with its codec and its control plane; `descriptor` tells whether one is bound. The
two flags are those that the main loop reboots for. -/
structure SlaveNode where
  pull : PullManager
  codec : CodecId
  descriptor : Bool
  topology : TopologyPlane
  restart_requested : Bool
  reset_requested : Bool

/-- What a handler returns, and what it has sent. -/
structure Handling where
  handled : Bool
  answers : List PullAnswer
  node : SlaveNode

/-- What is handled after an answer that was sent. -/
def Handling.andThen (h : Handling) (next : SlaveNode → Handling) : Handling :=
  { next h.node with answers := h.answers ++ (next h.node).answers }

/-- A layer that has not handled the request leaves it to the next one. -/
def Handling.orElse (h : Handling) (next : SlaveNode → Handling) : Handling :=
  if h.handled then h else h.andThen next

namespace SlaveNode

variable (env : PullSurroundings) (request : QueuedPullRequest)

def sendPullResponse (n : SlaveNode) (answer : PullAnswer) : Handling :=
  let pull := (n.pull.sendPullResponse request.sender answer.payload request.corr_id none).2
  let sent := env.sends answer.payload
  ⟨sent, if sent then [answer] else [], { n with pull := pull }⟩

/-- Without an encoding nothing is sent. -/
def sendEncoded (n : SlaveNode) (payload : Option Bytes) (answer : Bytes → PullAnswer) : Handling :=
  match payload with
  | none => ⟨false, [], n⟩
  | some payload => n.sendPullResponse env request (answer payload)

def sendDescriptorResponse (n : SlaveNode) (r : DescriptorResponse) : Handling :=
  n.sendEncoded env request ((n.codec.find env.floats).encodeDescriptorResponse r) (.ofResponse r)

def sendReply (n : SlaveNode) (reply : StreamReply) : Handling :=
  n.sendDescriptorResponse env request
    { type := if reply.ok then .Ack else .Error, message := ascii reply.message }

/-- An error with which the control plane has not handled the request. -/
def refuse (n : SlaveNode) (message : String) : Handling :=
  { n.sendReply env request ⟨false, message⟩ with handled := false }

/-- The query for a chunk. Follow-up chunks carry settings only, if there are any in the bundle. -/
def chunkQuery (query : DescriptorQuery) (settings_requested : Bool) (chunk_idx : Nat) (cursor : UInt16) :
    DescriptorQuery :=
  { query with
    cursor := cursor
    bundle_mask := if settings_requested && chunk_idx ≠ 0 then kNodeBundleMaskSettings else query.bundle_mask }

/-- The loop over the chunks, with the number of those that it may still send. -/
def sendChunks (query : DescriptorQuery) (settings_requested : Bool) :
    (budget chunk_idx : Nat) → UInt16 → SlaveNode → Handling
  | 0, _, _, n => n.refuse env request "bundle paging limit exceeded"
  | budget + 1, chunk_idx, cursor, n =>
    let response := nodeBundle (chunkQuery query settings_requested chunk_idx cursor)
      (env.bundleParts chunk_idx)
    let first := n.sendDescriptorResponse env request response
    if !first.handled then first
    else if response.type ≠ .NodeBundle then first
    else if !response.is_paged || response.done then first
    else if response.next_cursor ≤ cursor then
      first.andThen fun n => n.refuse env request "bundle paging stalled"
    else first.andThen (sendChunks query settings_requested budget (chunk_idx + 1) response.next_cursor)

def settingsRequested (query : DescriptorQuery) : Bool := wants query.bundle_mask kNodeBundleMaskSettings

/-- A bundle with settings is always read page by page. -/
def bundleQuery (query : DescriptorQuery) : DescriptorQuery :=
  if settingsRequested query && !query.paged then { query with paged := true, cursor := 0, page_size := 16 }
  else query

def sendBundle (n : SlaveNode) (query : DescriptorQuery) : Handling :=
  sendChunks env request (bundleQuery query) (settingsRequested query) kMaxBundleChunks 0
    (bundleQuery query).cursor n

def onDescriptorQuery (n : SlaveNode) (query : DescriptorQuery) : Handling :=
  let (reply, topology) := n.topology.handleTopologyQuery env.sendTrigger request.sender query
  match reply with
  | some reply => ({ n with topology := topology } : SlaveNode).sendReply env request reply
  | none =>
    if query.type = .GetNodeBundle then n.sendBundle env request query
    else
      let response := (env.execute query).getD { type := .Error, message := ascii "descriptor handler failure" }
      n.sendEncoded env request ((n.codec.find env.floats).encodeDescriptorResponse response) .response

def onControlCommand (n : SlaveNode) (cmd : UInt16) : Handling :=
  let restarts := cmd = kControlCmdRestart ∨ cmd = kControlCmdReset
  let n := { n with
    restart_requested := n.restart_requested || restarts
    reset_requested := n.reset_requested || cmd = kControlCmdReset }
  let result := if restarts ∨ cmd = kControlCmdAudioPing then 0 else kControlResultUnsupported
  n.sendEncoded env request (n.codec.encodeControlResult cmd result) .controlResult

/-- The query that the control plane reads from the payload. -/
def queryOf (n : SlaveNode) (env : PullSurroundings) (payload : Bytes) : Option DescriptorQuery :=
  if n.descriptor then queryOfRequest (n.codec.find env.floats) payload else none

def onPullRequest (n : SlaveNode) : Handling :=
  match n.queryOf env request.payload with
  | some query => n.onDescriptorQuery env request query
  | none => match n.codec.control.decodeControlCommand request.payload with
    | none => n.refuse env request "unsupported pull payload"
    | some cmd => n.onControlCommand env request cmd

/-- `buildDescriptorReply` has the default encoding under every codec. -/
def sendDefaultReply (n : SlaveNode) (reply : StreamReply) : Handling :=
  n.sendEncoded env request (PullManager.buildDescriptorReply reply) .response

def handleTelemetryPushControl (n : SlaveNode) : Handling :=
  let (reply, telemetry) := n.pull.toTelemetryManager.handleTelemetryPushControl request.sender request.payload
  let n := { n with pull := { n.pull with toTelemetryManager := telemetry } }
  match reply with
  | none => ⟨false, [], n⟩
  | some reply => n.sendDefaultReply env request reply

/-- An explicit error for a request that nobody has handled. -/
def fallBack (n : SlaveNode) : Handling :=
  { n.sendDefaultReply env request ⟨false, "pull request unsupported"⟩ with handled := false }

def processQueuedPullRequest (n : SlaveNode) : Handling :=
  let n := { n with pull := n.pull.notePending request }
  (n.handleTelemetryPushControl env request).orElse fun n =>
    if n.pull.has_control_plane then (n.onPullRequest env request).orElse fun n => n.fallBack env request
    else n.fallBack env request

end SlaveNode

end EspNowLink
