import EspNowLink.Descriptor.Decode
import EspNowLink.Descriptor.Encode
import EspNowLink.Platform.Persistence

namespace EspNowLink

/-- The bytes that name no mode are kept by `static_cast`. -/
inductive TelemetryPushMode where
  | Periodic
  | OnChange
  | Hybrid
  | Unnamed (code : { c : UInt8 // c = 0 ∨ 4 ≤ c })
  deriving DecidableEq

structure PushMetricState where
  key : Bytes := []
  enabled : Bool := true
  mode : TelemetryPushMode := .Hybrid
  interval_ms : UInt32 := 1000
  min_gap_ms : UInt32 := 200
  next_periodic_ms : UInt32 := 0
  use_threshold : Bool := false
  delta_abs : Float32Bits := 0
  has_last : Bool := false
  last_value : Float32Bits := 0
  last_report_ms : UInt32 := 0
  deriving DecidableEq

structure TelemetryPushSession where
  stream_id : UInt16 := 1
  enabled : Bool := false
  paused : Bool := false
  mode : TelemetryPushMode := .Hybrid
  interval_ms : UInt32 := 1000
  min_gap_ms : UInt32 := 200
  master : MacAddress := zeroMac
  has_master : Bool := false
  metrics : List PushMetricState := []
  consecutive_tx_fail : UInt8 := 0
  backoff_until_ms : UInt32 := 0
  deriving DecidableEq

/-- A metric of a profile; a key that is null is empty. -/
structure ProfileTelemetryMetricSpec where
  metric_id : UInt16
  key : Bytes
  deriving DecidableEq

/-- The local profile, and whether the registry knows it. -/
structure TelemetryProfile where
  registered : Bool
  telemetryMetrics : List ProfileTelemetryMetricSpec

/-- What the provider answers when a command or a restore looks a metric up. -/
structure TelemetryProvider where
  schema : Option (List TelemetryDescriptor)
  snapshot : Option (List TelemetrySample)

/-- The float operations that the selection of samples uses: `strtof` on a whole string, and
`fabs(value - last) >= threshold`. -/
structure FloatOps where
  parseSampleFloat : Bytes → Option Float32Bits
  reaches : Float32Bits → Float32Bits → Float32Bits → Bool

/-- The part of the manager that pushes telemetry, with the pairing, profile and storage state it uses.
`paired_peer` is what `pairing_.getPairedPeer` finds. -/
structure TelemetryManager where
  local_role : Role
  local_mac : MacAddress
  paired_peer : Option MacAddress
  provider : Option TelemetryProvider
  local_profile : Option TelemetryProfile
  store : Option PairingStore
  push_session : TelemetryPushSession
  telemetry_push_seq : UInt32
  current_now_ms : UInt32

/-- `static_cast<int32_t>(now_ms - at_ms) >= 0`. -/
def timeReached (now_ms at_ms : UInt32) : Bool := now_ms - at_ms < 0x80000000

/-- A snapshot in the order of the profile, with the profile's ids. -/
def alignSnapshotToProfile (profile : Option TelemetryProfile) (snapshot : List TelemetrySample) :
    List TelemetrySample :=
  match profile with
  | none => snapshot
  | some p => p.telemetryMetrics.filterMap fun spec =>
    if spec.key.isEmpty then none
    else (snapshot.find? (·.key == spec.key)).map fun sample =>
      { sample with metric_id := spec.metric_id }

/-- `buildSnapshotIndex` and `find`: the first sample of a key. -/
def findSample (snapshot : List TelemetrySample) (key : Bytes) : Option TelemetrySample :=
  if key.isEmpty then none else snapshot.find? (·.key == key)

namespace PushMetricState

def periodicMode (m : PushMetricState) : Bool := m.mode = .Periodic || m.mode = .Hybrid
def changeMode (m : PushMetricState) : Bool := m.mode = .OnChange || m.mode = .Hybrid

def periodicDue (m : PushMetricState) (now_ms : UInt32) : Bool :=
  m.periodicMode && (m.next_periodic_ms = 0 || timeReached now_ms m.next_periodic_ms)

def gapPassed (m : PushMetricState) (now_ms : UInt32) : Bool :=
  m.has_last && now_ms - m.last_report_ms ≥ m.min_gap_ms

def threshold (m : PushMetricState) : Float32Bits := if m.use_threshold then m.delta_abs else 0

/-- The gate of a tick: the metric may have something to report. -/
def anyDue (m : PushMetricState) (now_ms : UInt32) : Bool :=
  m.enabled && (m.periodicDue now_ms || (m.changeMode && m.gapPassed now_ms))

end PushMetricState

/-- What the first phase of a tick finds of a metric. -/
structure MetricPick where
  sample : Option TelemetrySample := none
  value : Option Float32Bits := none
  periodic : Bool := false
  crossed : Bool := false

/-- `should_send`. -/
def MetricPick.send (p : MetricPick) : Bool := p.periodic || p.crossed

def pickMetric (f : FloatOps) (snapshot : List TelemetrySample) (now_ms : UInt32)
    (m : PushMetricState) : MetricPick :=
  if !m.enabled then {}
  else match findSample snapshot m.key with
  | none => {}
  | some sample =>
    let value := f.parseSampleFloat sample.value
    { sample := some sample
      value := value
      periodic := m.periodicDue now_ms
      crossed := m.changeMode && m.gapPassed now_ms &&
        value.any fun v => f.reaches v m.last_value m.threshold }

/-- The samples to send: those picked, one for each key. -/
def addPicked (samples : List TelemetrySample) (p : MetricPick) : List TelemetrySample :=
  match p.sample with
  | none => samples
  | some sample =>
    if !p.send || samples.any (·.key == sample.key) then samples else samples ++ [sample]

def pickedSamples (picks : List MetricPick) : List TelemetrySample := picks.foldl addPicked []

def pushCause (picks : List MetricPick) : String :=
  if picks.any (·.periodic) && picks.any (·.crossed) then "periodic+threshold"
  else if picks.any (·.crossed) then "threshold_cross"
  else "periodic_tick"

def snapshotReply (samples : List TelemetrySample) (cause : String) : DescriptorResponse :=
  { type := .TelemetrySnapshot, message := ascii cause, telemetry_samples := samples }

def buildTelemetrySnapshotReply (samples : List TelemetrySample) (cause : String) : Option Bytes :=
  (encodeDescriptorResponse (snapshotReply samples cause)).map (·.payload)

/-- A report as it goes to the master. -/
structure PushReport where
  master : MacAddress
  corr_id : UInt32
  payload : Bytes
  deriving DecidableEq

/-- The samples that the master decodes from a report. -/
def PushReport.samples (r : PushReport) : List TelemetrySample :=
  ((decodeDescriptorResponse r.payload).map (·.telemetry_samples)).getD []

/-- The second phase, after a successful send. -/
def settleMetric (now_ms : UInt32) (m : PushMetricState) (p : MetricPick) : PushMetricState :=
  if !m.enabled then m
  else
    let m := if m.periodicMode then { m with next_periodic_ms := now_ms + m.interval_ms } else m
    match p.value with
    | none => m
    | some v =>
      let m := { m with has_last := true, last_value := v }
      if p.send then { m with last_report_ms := now_ms } else m

namespace TelemetryPushSession

def noteSent (s : TelemetryPushSession) (now_ms : UInt32) (picks : List MetricPick) :
    TelemetryPushSession :=
  { s with
    consecutive_tx_fail := 0
    backoff_until_ms := 0
    metrics := s.metrics.zipWith (settleMetric now_ms) picks }

def noteSendFailure (s : TelemetryPushSession) (now_ms : UInt32) : TelemetryPushSession :=
  if s.consecutive_tx_fail + 1 ≥ 5 then
    { s with consecutive_tx_fail := 0, backoff_until_ms := now_ms + 2000 }
  else { s with consecutive_tx_fail := s.consecutive_tx_fail + 1 }

end TelemetryPushSession

namespace TelemetryManager

def withSession (m : TelemetryManager) (session : TelemetryPushSession) : TelemetryManager :=
  { m with push_session := session }

/-- The checks of a tick before it looks at the metrics. -/
def pushReady (m : TelemetryManager) (now_ms : UInt32) : Bool :=
  m.local_role = .Slave && m.paired_peer.isSome && m.push_session.enabled && !m.push_session.paused &&
    m.push_session.has_master && m.provider.isSome &&
    (m.push_session.backoff_until_ms = 0 || timeReached now_ms m.push_session.backoff_until_ms)

/-- What the first phase finds in a snapshot. -/
def picks (m : TelemetryManager) (f : FloatOps) (snapshot : List TelemetrySample) (now_ms : UInt32) :
    List MetricPick :=
  m.push_session.metrics.map
    (pickMetric f (alignSnapshotToProfile m.local_profile snapshot) now_ms)

/-- `sendTelemetryPushReport`: the report that goes out when the link takes it. -/
def sendPicked (m : TelemetryManager) (now_ms : UInt32) (picks : List MetricPick) (link : Bool) :
    Option PushReport × TelemetryManager :=
  let report := (buildTelemetrySnapshotReply (pickedSamples picks) (pushCause picks)).map fun payload =>
    ({ master := m.push_session.master, corr_id := m.telemetry_push_seq, payload := payload } : PushReport)
  let m := { m with telemetry_push_seq := m.telemetry_push_seq + 1 }
  match report.filter fun _ => link with
  | none => (none, m.withSession (m.push_session.noteSendFailure now_ms))
  | some report => (some report, m.withSession (m.push_session.noteSent now_ms picks))

/-- `snapshot` is what the provider gives at this tick, `link` whether a frame gets out. -/
def tickTelemetryPush (m : TelemetryManager) (f : FloatOps) (now_ms : UInt32)
    (snapshot : Option (List TelemetrySample)) (link : Bool) : Option PushReport × TelemetryManager :=
  if !m.pushReady now_ms then (none, m)
  else if !m.push_session.metrics.any (·.anyDue now_ms) then (none, m)
  else match snapshot with
  | none => (none, m)
  | some snapshot =>
    if (alignSnapshotToProfile m.local_profile snapshot).isEmpty then (none, m)
    else
      let picks := m.picks f snapshot now_ms
      if (pickedSamples picks).isEmpty then (none, m)
      else m.sendPicked now_ms picks link

end TelemetryManager

end EspNowLink
