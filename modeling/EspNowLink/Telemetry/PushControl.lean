import EspNowLink.Framework.Tlv
import EspNowLink.Telemetry.Push

open Framework

namespace EspNowLink

inductive TelemetryPushAction where
  | Start
  | Update
  | Pause
  | Resume
  | Stop
  | Get
  deriving DecidableEq

structure TelemetryPushMetricConfig where
  key : Bytes := []
  has_metric_index : Bool := false
  metric_index : UInt16 := 0
  enabled : Bool := true
  mode : TelemetryPushMode := .Hybrid
  interval_ms : UInt32 := 0
  min_report_gap_ms : UInt32 := 0
  use_threshold : Bool := false
  delta_abs : Float32Bits := 0
  deriving DecidableEq

structure TelemetryPushConfig where
  stream_id : UInt16 := 1
  enabled : Bool := true
  mode : TelemetryPushMode := .Hybrid
  interval_ms : UInt32 := 1000
  min_report_gap_ms : UInt32 := 200
  metrics : List TelemetryPushMetricConfig := []
  deriving DecidableEq

structure TelemetryPushCommand where
  action : TelemetryPushAction := .Get
  config : TelemetryPushConfig := {}
  deriving DecidableEq

def TelemetryPushMode.toByte : TelemetryPushMode → UInt8
  | .Periodic => 1
  | .OnChange => 2
  | .Hybrid => 3
  | .Unnamed code => code

/-- `static_cast<TelemetryPushMode>`. -/
def TelemetryPushMode.ofByte (b : UInt8) : TelemetryPushMode :=
  if h : b = 0 ∨ 4 ≤ b then .Unnamed ⟨b, h⟩
  else if b = 1 then .Periodic
  else if b = 2 then .OnChange
  else .Hybrid

def TelemetryPushMode.valid (mode : TelemetryPushMode) : Bool :=
  mode = .Periodic || mode = .OnChange || mode = .Hybrid

theorem TelemetryPushMode.ofByte_toByte (mode : TelemetryPushMode) : ofByte mode.toByte = mode := by
  cases mode with
  | Unnamed code => exact dif_pos code.2
  | Periodic => rfl
  | OnChange => rfl
  | Hybrid => rfl

def TelemetryPushAction.ofByte : UInt8 → Option TelemetryPushAction
  | 1 => some .Start
  | 2 => some .Update
  | 3 => some .Pause
  | 4 => some .Resume
  | 5 => some .Stop
  | 6 => some .Get
  | _ => none

namespace TelemetryPushCommand

def kTagMagic : UInt8 := 0x02
def kTagAction : UInt8 := 0x10
def kTagMode : UInt8 := 0x11
def kTagIntervalMs : UInt8 := 0x12
def kTagMinGapMs : UInt8 := 0x13
def kTagStreamId : UInt8 := 0x14
def kTagMetricKey : UInt8 := 0x20
def kTagMetricDelta : UInt8 := 0x21
def kTagMetricEnable : UInt8 := 0x22
def kTagMetricMode : UInt8 := 0x23
def kTagMetricIntervalMs : UInt8 := 0x24
def kTagMetricMinGapMs : UInt8 := 0x25
def kTagMetricIndex : UInt8 := 0x26
def kMagicWord : UInt16 := 0x5450

/-- What the parser has read so far; the action is checked at the end. -/
structure Fields where
  have_magic : Bool := false
  action : Option UInt8 := none
  config : TelemetryPushConfig := {}

/-- The metric that a key or an index opens, with the stream's settings. -/
def newMetric (config : TelemetryPushConfig) : TelemetryPushMetricConfig where
  mode := config.mode
  interval_ms := config.interval_ms
  min_report_gap_ms := config.min_report_gap_ms
  use_threshold := config.mode != .Periodic

def Fields.addMetric (p : Fields) (metric : TelemetryPushMetricConfig) : Fields :=
  { p with config := { p.config with metrics := p.config.metrics ++ [metric] } }

/-- A field of the last metric; without a metric the command is malformed. -/
def Fields.onLast (p : Fields) (change : TelemetryPushMetricConfig → TelemetryPushMetricConfig) :
    Option Fields :=
  if p.config.metrics.isEmpty then none
  else some { p with config := { p.config with metrics := p.config.metrics.modifyLast change } }

def setMode (mode : TelemetryPushMode) (metric : TelemetryPushMetricConfig) :
    TelemetryPushMetricConfig :=
  { metric with
    mode := mode
    use_threshold := mode != .Periodic
    delta_abs := if mode = .Periodic then 0 else metric.delta_abs }

/-- One turn of the parser's loop. A field of another type or length is passed over. -/
def parseField (p : Fields) (f : Tlv) : Option Fields :=
  if f.tag = kTagMagic ∧ f.type = 0x02 then
    match f.value with
    | [b0, b1] => if readLe16 b0 b1 = kMagicWord then some { p with have_magic := true } else none
    | _ => none
  else if f.tag = kTagMetricKey ∧ f.type = 0x09 then
    some (p.addMetric { newMetric p.config with key := f.value })
  else match f.type, f.value with
  | 0x01, [b] =>
    if f.tag = kTagAction then some { p with action := some b }
    else if f.tag = kTagMode then some { p with config := { p.config with mode := .ofByte b } }
    else if f.tag = kTagMetricEnable then p.onLast fun m => { m with enabled := b != 0 }
    else if f.tag = kTagMetricMode then p.onLast (setMode (.ofByte b))
    else some p
  | 0x02, [b0, b1] =>
    if f.tag = kTagStreamId then some { p with config := { p.config with stream_id := readLe16 b0 b1 } }
    else if f.tag = kTagMetricIndex then
      some (p.addMetric { newMetric p.config with
        has_metric_index := true, metric_index := readLe16 b0 b1 })
    else some p
  | 0x03, [b0, b1, b2, b3] =>
    let v := readLe32 b0 b1 b2 b3
    if f.tag = kTagIntervalMs then some { p with config := { p.config with interval_ms := v } }
    else if f.tag = kTagMinGapMs then some { p with config := { p.config with min_report_gap_ms := v } }
    else if f.tag = kTagMetricIntervalMs then p.onLast fun m => { m with interval_ms := v }
    else if f.tag = kTagMetricMinGapMs then p.onLast fun m => { m with min_report_gap_ms := v }
    else some p
  | 0x07, [b0, b1, b2, b3] =>
    if f.tag = kTagMetricDelta then
      p.onLast fun m => { m with use_threshold := true, delta_abs := readLe32 b0 b1 b2 b3 }
    else some p
  | _, _ => some p

def metricValid (metric : TelemetryPushMetricConfig) : Bool :=
  (!metric.key.isEmpty) != metric.has_metric_index && metric.mode.valid

/-- The checks at the end of the parser. -/
def ofFields (p : Fields) : Option TelemetryPushCommand :=
  if !p.have_magic then none
  else match p.action.bind TelemetryPushAction.ofByte with
  | none => none
  | some action =>
    if (action = .Start ∨ action = .Update) ∧
        ¬ (p.config.mode.valid ∧ p.config.metrics ≠ [] ∧ p.config.metrics.all metricValid) then none
    else some { action := action, config := p.config }

end TelemetryPushCommand

open TelemetryPushCommand in
def parseTelemetryPushCommand (payload : Bytes) : Option TelemetryPushCommand :=
  if payload.length < 12 then none
  else do
    let fields ← Tlv.decode payload
    let p ← fields.foldlM parseField {}
    ofFields p

/-- The answer to a push command: an acknowledgement or an error, and its message. -/
structure StreamReply where
  ok : Bool
  message : String
  deriving DecidableEq

def kTelemetryMetaSlot : UInt8 := 1

def intervalValid (v : UInt32) : Bool := 200 ≤ v && v ≤ 60000
def gapValid (v : UInt32) : Bool := 50 ≤ v && v ≤ 60000

section Blob

def boolByte (b : Bool) : UInt8 := if b then 1 else 0

def pushMetricBlob (m : PushMetricState) : Bytes :=
  m.key.length.toUInt8 :: m.key ++ [boolByte m.enabled, m.mode.toByte] ++ le32 m.interval_ms ++
    le32 m.min_gap_ms ++ [boolByte m.use_threshold] ++ le32 m.delta_abs

/-- The blob that `persistTelemetryPushConfig` saves. -/
def pushConfigBlob (s : TelemetryPushSession) : Bytes :=
  [1, boolByte s.enabled, boolByte s.paused, s.mode.toByte] ++ le16 s.stream_id ++
    le32 s.interval_ms ++ le32 s.min_gap_ms ++ s.metrics.length.toUInt8 :: s.metrics.flatMap pushMetricBlob

/-- The metrics that `persistTelemetryPushConfig` writes. -/
def storableMetrics (metrics : List PushMetricState) : Bool :=
  metrics.length ≤ 255 && metrics.all fun m => !m.key.isEmpty && m.key.length ≤ 63

/-- One turn of the metrics loop of `restoreTelemetryPushConfig`: the metric and the bytes behind it. -/
def pushMetricOfBlob : Bytes → Option (PushMetricState × Bytes)
  | [] => none
  | key_len :: rest =>
    if key_len = 0 ∨ rest.length < key_len.toNat then none
    else match rest.drop key_len.toNat with
    | enabled :: mode :: i0 :: i1 :: i2 :: i3 :: g0 :: g1 :: g2 :: g3 :: use_threshold ::
        d0 :: d1 :: d2 :: d3 :: rest' =>
      some ({ key := rest.take key_len.toNat
              enabled := enabled != 0
              mode := .ofByte mode
              interval_ms := readLe32 i0 i1 i2 i3
              min_gap_ms := readLe32 g0 g1 g2 g3
              use_threshold := use_threshold != 0
              delta_abs := readLe32 d0 d1 d2 d3 }, rest')
    | _ => none

def pushMetricsOfBlob : Nat → Bytes → Option (List PushMetricState)
  | 0, _ => some []
  | n + 1, blob => do
    let (metric, rest) ← pushMetricOfBlob blob
    let metrics ← pushMetricsOfBlob n rest
    return metric :: metrics

/-- What is read of a blob of the right version, before the keys are looked up. -/
def pushConfigOfBlob (master : MacAddress) : Bytes → Option TelemetryPushSession
  | _ :: enabled :: paused :: mode :: s0 :: s1 :: i0 :: i1 :: i2 :: i3 :: g0 :: g1 :: g2 :: g3 ::
      metric_count :: rest =>
    (pushMetricsOfBlob metric_count.toNat rest).map fun metrics =>
      { master := master
        has_master := true
        enabled := enabled != 0
        paused := paused != 0
        mode := .ofByte mode
        stream_id := readLe16 s0 s1
        interval_ms := readLe32 i0 i1 i2 i3
        min_gap_ms := readLe32 g0 g1 g2 g3
        metrics := metrics }
  | _ => none

end Blob

/-- The registry knows no metric of an unregistered profile, and none under id 0 or an empty key. -/
def findProfileTelemetryById (profile : TelemetryProfile) (metric_id : UInt16) :
    Option ProfileTelemetryMetricSpec :=
  if !profile.registered || metric_id = 0 then none
  else profile.telemetryMetrics.find? (·.metric_id = metric_id)

def findProfileTelemetryByKey (profile : TelemetryProfile) (key : Bytes) :
    Option ProfileTelemetryMetricSpec :=
  if !profile.registered || key.isEmpty then none
  else profile.telemetryMetrics.find? (·.key = key)

namespace TelemetryManager

def isKnownTelemetryKey (m : TelemetryManager) (key : Bytes) : Bool :=
  if key.isEmpty then false
  else match m.local_profile with
  | some profile => (findProfileTelemetryByKey profile key).isSome
  | none => match m.provider with
    | none => false
    | some provider => (provider.schema.getD []).any (·.key = key) ||
        (provider.snapshot.getD []).any (·.key = key)

def telemetryKeyFromIndex (m : TelemetryManager) (metric_index : UInt16) : Option Bytes :=
  match m.local_profile with
  | some profile =>
    ((findProfileTelemetryById profile metric_index).map (·.key)).filter (!·.isEmpty)
  | none => match m.provider with
    | none => none
    | some provider => do
      let schema ← provider.schema
      let metric ← schema[metric_index.toNat]?
      if metric.key.isEmpty then none else some metric.key

/-- The key of the metric that a command names by its key or by its index, but not by both. -/
def resolveTelemetryMetricIdentity (m : TelemetryManager) (metric : TelemetryPushMetricConfig) :
    Option Bytes :=
  if (!metric.key.isEmpty) = metric.has_metric_index then none
  else if metric.key.isEmpty then m.telemetryKeyFromIndex metric.metric_index
  else if m.isKnownTelemetryKey metric.key then some metric.key else none

def withPushStore (m : TelemetryManager) (store : PairingStore) : TelemetryManager :=
  { m with store := some store }

def persistTelemetryPushConfig (m : TelemetryManager) : Bool × TelemetryManager :=
  match m.store with
  | none => (false, m)
  | some store =>
    if !store.enabled || !m.push_session.has_master then (false, m)
    else if !storableMetrics m.push_session.metrics then (false, m)
    else
      let (saved, store) := store.saveMetaBlob m.local_mac m.push_session.master kTelemetryMetaSlot
        (pushConfigBlob m.push_session)
      (saved, m.withPushStore store)

/-- `(void)eraseMetaBlob`, after which the restore has failed. -/
def discardConfig (m : TelemetryManager) (store : PairingStore) (master : MacAddress) :
    Bool × TelemetryManager :=
  (false, m.withPushStore (store.eraseMetaBlob m.local_mac master kTelemetryMetaSlot).2)

/-- The metrics of a restored session: those that are still known, with new deadlines. -/
def restoredMetrics (m : TelemetryManager) (metrics : List PushMetricState) : List PushMetricState :=
  (metrics.filter fun metric => m.isKnownTelemetryKey metric.key).map fun metric =>
    { metric with next_periodic_ms := m.current_now_ms + metric.interval_ms }

def restoreTelemetryPushConfig (m : TelemetryManager) (master : MacAddress) : Bool × TelemetryManager :=
  match m.store with
  | none => (false, m)
  | some store =>
    if !store.enabled then (false, m)
    else match store.loadMetaBlob m.local_mac master kTelemetryMetaSlot with
    | (none, store) => (false, m.withPushStore store)
    | (some blob, store) =>
      if blob.length < 15 ∨ blob.head? ≠ some 1 then m.discardConfig store master
      else match pushConfigOfBlob master blob with
      | none => (false, m.withPushStore store)
      | some read =>
        let restored := { read with metrics := m.restoredMetrics read.metrics }
        if restored.enabled && restored.metrics.isEmpty then m.discardConfig store master
        else (true, (m.withPushStore store).withSession restored)

def clearTelemetryPushConfig (m : TelemetryManager) (master : MacAddress) : Bool × TelemetryManager :=
  match m.store with
  | none => (false, m)
  | some store =>
    if !store.enabled then (false, m)
    else
      let (existing, store) := store.loadMetaBlob m.local_mac master kTelemetryMetaSlot
      let (erased, store) :=
        if existing.isSome then store.eraseMetaBlob m.local_mac master kTelemetryMetaSlot
        else (true, store)
      let m := m.withPushStore store
      (erased, if m.push_session.has_master && m.push_session.master = master then m.withSession {}
        else m)

/-- The checks of a start or an update before its metrics; the last one that fails names the error. -/
def configRefusal (config : TelemetryPushConfig) : Option String :=
  if config.metrics.length > 16 then some "stream invalid: too many metrics"
  else if !gapValid config.min_report_gap_ms then
    some "stream invalid: stream min_report_gap out of bounds"
  else if !intervalValid config.interval_ms then some "stream invalid: stream interval out of bounds"
  else if config.metrics.isEmpty then some "stream invalid: no metrics"
  else none

/-- The state of a metric that a command starts. -/
def startMetric (m : TelemetryManager) (config : TelemetryPushConfig)
    (metric : TelemetryPushMetricConfig) (key : Bytes) : PushMetricState :=
  let interval_ms := if metric.interval_ms = 0 then config.interval_ms else metric.interval_ms
  { key := key
    enabled := metric.enabled
    mode := metric.mode
    interval_ms := interval_ms
    min_gap_ms :=
      if metric.min_report_gap_ms = 0 then config.min_report_gap_ms else metric.min_report_gap_ms
    next_periodic_ms := m.current_now_ms + interval_ms
    use_threshold := metric.use_threshold
    delta_abs := metric.delta_abs }

/-- One turn of the metrics loop of a start or an update. -/
def admitMetric (m : TelemetryManager) (config : TelemetryPushConfig) (metrics : List PushMetricState)
    (metric : TelemetryPushMetricConfig) : Except String (List PushMetricState) :=
  match m.resolveTelemetryMetricIdentity metric with
  | none => .error "stream invalid: unknown metric key"
  | some key =>
    if metrics.any (·.key = key) then .error "stream invalid: duplicate metric key"
    else
      let ps := m.startMetric config metric key
      if ps.periodicMode && !intervalValid ps.interval_ms then
        .error "stream invalid: metric interval out of bounds"
      else if ps.changeMode && !gapValid ps.min_gap_ms then
        .error "stream invalid: metric min_report_gap out of bounds"
      else .ok (metrics ++ [ps])

/-- The session that a start or an update makes. -/
def admitConfig (m : TelemetryManager) (sender : MacAddress) (config : TelemetryPushConfig) :
    Except String TelemetryPushSession := do
  match configRefusal config with
  | some message => throw message
  | none => pure ()
  let metrics ← config.metrics.foldlM (m.admitMetric config) []
  if metrics.any (·.enabled) then
    return {
      enabled := true
      stream_id := config.stream_id
      mode := config.mode
      interval_ms := config.interval_ms
      min_gap_ms := config.min_report_gap_ms
      master := sender
      has_master := true
      metrics := metrics }
  else throw "stream invalid: all metrics disabled"

/-- Who may command the stream: the paired master, and the owner of the session if there is one. -/
def senderRefusal (m : TelemetryManager) (sender : MacAddress) : Option String :=
  if m.paired_peer ≠ some sender then some "stream rejected: peer not active master"
  else if m.push_session.has_master ∧ m.push_session.master ≠ sender then
    some "stream rejected: owner mismatch"
  else none

def startStream (m : TelemetryManager) (sender : MacAddress) (config : TelemetryPushConfig)
    (done : String) : StreamReply × TelemetryManager :=
  match m.admitConfig sender config with
  | .error message => (⟨false, message⟩, m)
  | .ok next =>
    match (m.withSession next).persistTelemetryPushConfig with
    | (true, m) => (⟨true, done⟩, m)
    | (false, m) => (⟨false, "persist_failed"⟩, m.withSession {})

def setPaused (m : TelemetryManager) (paused : Bool) (done : String) : StreamReply × TelemetryManager :=
  if !m.push_session.enabled then (⟨false, "stream not active"⟩, m)
  else
    match (m.withSession { m.push_session with paused := paused }).persistTelemetryPushConfig with
    | (true, m) => (⟨true, done⟩, m)
    | (false, m) => (⟨false, "persist_failed"⟩, m)

def stopStream (m : TelemetryManager) (sender : MacAddress) : StreamReply × TelemetryManager :=
  match (m.withSession {}).clearTelemetryPushConfig sender with
  | (true, m) => (⟨true, "stream stopped"⟩, m)
  | (false, m) => (⟨false, "persist_failed"⟩, m)

def streamStatus (s : TelemetryPushSession) : String :=
  if s.enabled then if s.paused then "stream active paused" else "stream active" else "stream inactive"

/-- What `handleTelemetryPushControl` does with a decoded command; `none` when it takes none. -/
def handlePushCommand (m : TelemetryManager) (sender : MacAddress) (cmd : TelemetryPushCommand) :
    Option StreamReply × TelemetryManager :=
  if m.local_role ≠ .Slave ∨ m.provider = none then (none, m)
  else match m.senderRefusal sender with
  | some message => (some ⟨false, message⟩, m)
  | none =>
    let (reply, m) := match cmd.action with
      | .Start => m.startStream sender cmd.config "stream started"
      | .Update => m.startStream sender cmd.config "stream updated"
      | .Pause => m.setPaused true "stream paused"
      | .Resume => m.setPaused false "stream resumed"
      | .Stop => m.stopStream sender
      | .Get => (⟨true, streamStatus m.push_session⟩, m)
    (some reply, m)

def handleTelemetryPushControl (m : TelemetryManager) (sender : MacAddress) (payload : Bytes) :
    Option StreamReply × TelemetryManager :=
  match parseTelemetryPushCommand payload with
  | none => (none, m)
  | some cmd => m.handlePushCommand sender cmd

section Admission

variable {m : TelemetryManager} {config : TelemetryPushConfig}

/-- An admitted metric is new, and resolved. -/
theorem admitMetric_ok {metric : TelemetryPushMetricConfig} {metrics next : List PushMetricState}
    (h : m.admitMetric config metrics metric = .ok next) :
    ∃ key, m.resolveTelemetryMetricIdentity metric = some key ∧ (∀ ps ∈ metrics, ps.key ≠ key) ∧
      next = metrics ++ [m.startMetric config metric key] := by
  unfold admitMetric at h
  cases hkey : m.resolveTelemetryMetricIdentity metric with
  | none =>
    rw [hkey] at h
    cases h
  | some key =>
    rw [hkey] at h
    dsimp only at h
    split at h
    · cases h
    · rename_i hnew
      refine ⟨key, rfl, by simpa using hnew, ?_⟩
      split at h
      · cases h
      · split at h
        · cases h
        · exact (Except.ok.inj h).symm

/-- What every admitted metric keeps holds of the metrics of a session. -/
theorem admitMetric_run {I : List PushMetricState → Prop} {todo : List TelemetryPushMetricConfig}
    {metrics next : List PushMetricState}
    (hstep : ∀ metrics metric key, I metrics → m.resolveTelemetryMetricIdentity metric = some key →
      (∀ ps ∈ metrics, ps.key ≠ key) → I (metrics ++ [m.startMetric config metric key]))
    (hinit : I metrics) (h : todo.foldlM (m.admitMetric config) metrics = .ok next) : I next := by
  induction todo generalizing metrics with
  | nil =>
    obtain rfl := Except.ok.inj h
    exact hinit
  | cons metric todo ih =>
    rw [List.foldlM_cons] at h
    cases hmetric : m.admitMetric config metrics metric with
    | error message =>
      rw [hmetric] at h
      cases h
    | ok metrics' =>
      rw [hmetric] at h
      obtain ⟨key, hkey, hnew, rfl⟩ := admitMetric_ok hmetric
      exact ih (hstep metrics metric key hinit hkey hnew) h

/-- An admitted session. -/
theorem admitConfig_ok {sender : MacAddress} {next : TelemetryPushSession}
    (h : m.admitConfig sender config = .ok next) :
    config.metrics.foldlM (m.admitMetric config) [] = .ok next.metrics ∧
      next.metrics.any (·.enabled) = true ∧ next.enabled = true := by
  unfold admitConfig at h
  cases hrefusal : configRefusal config with
  | some message =>
    rw [hrefusal] at h
    cases h
  | none =>
    rw [hrefusal] at h
    cases hadmitted : config.metrics.foldlM (m.admitMetric config) [] with
    | error message =>
      rw [hadmitted] at h
      cases h
    | ok metrics =>
      rw [hadmitted] at h
      cases hany : metrics.any (·.enabled) with
      | false => simp [hany, bind, Except.bind, throw, throwThe, MonadExceptOf.throw] at h
      | true =>
        simp only [hany, bind, Except.bind, pure, Except.pure, if_true] at h
        cases h
        exact ⟨rfl, hany, rfl⟩

end Admission

end TelemetryManager

end EspNowLink
