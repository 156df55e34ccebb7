import EspNowLink.Descriptor.Encode
import EspNowLink.Framework.TlvMemory
import EspNowLink.Telemetry.PushControl
import Mathlib.Data.List.ModifyLast

open Framework

namespace EspNowLink

def TelemetryPushAction.toByte : TelemetryPushAction → UInt8
  | .Start => 1
  | .Update => 2
  | .Pause => 3
  | .Resume => 4
  | .Stop => 5
  | .Get => 6

theorem TelemetryPushAction.ofByte_toByte (action : TelemetryPushAction) :
    ofByte action.toByte = some action := by
  cases action <;> rfl

/-- Start and update come with a configuration, the other actions without. -/
def TelemetryPushAction.configures (action : TelemetryPushAction) : Bool :=
  action = .Start || action = .Update

namespace TelemetryPushCommand

section Encoder

def kTagSchema : UInt8 := 0x01
def kSchemaVersion : UInt8 := 1

/-- The identity of a metric: its key or its index. -/
def identityField (m : TelemetryPushMetricConfig) : Tlv :=
  if m.key.isEmpty then u16Field kTagMetricIndex m.metric_index else utf8Field kTagMetricKey m.key

/-- The fields of a metric that differ from those of the stream. -/
def ownFields (config : TelemetryPushConfig) (m : TelemetryPushMetricConfig) : List Tlv :=
  (if m.enabled then [] else [u8Field kTagMetricEnable 0]) ++
  (if m.mode = config.mode then [] else [u8Field kTagMetricMode m.mode.toByte]) ++
  (if m.interval_ms ≠ 0 ∧ m.interval_ms ≠ config.interval_ms then
    [u32Field kTagMetricIntervalMs m.interval_ms] else []) ++
  (if m.min_report_gap_ms ≠ 0 ∧ m.min_report_gap_ms ≠ config.min_report_gap_ms then
    [u32Field kTagMetricMinGapMs m.min_report_gap_ms] else []) ++
  (if m.use_threshold ∧ m.mode ≠ .Periodic then [f32Field kTagMetricDelta m.delta_abs] else [])

/-- A metric in the encoder's loop; a key that `appendUtf8` does not take ends the loop too. -/
def metricFields (config : TelemetryPushConfig) (m : TelemetryPushMetricConfig) : Option (List Tlv) :=
  if !metricValid m then none
  else if m.key.length > 65535 then none
  else some (identityField m :: ownFields config m)

def headFields (action : TelemetryPushAction) : List Tlv :=
  [u8Field kTagSchema kSchemaVersion, u16Field kTagMagic kMagicWord, u8Field kTagAction action.toByte]

def streamFields (config : TelemetryPushConfig) : List Tlv :=
  [u16Field kTagStreamId config.stream_id, u8Field kTagMode config.mode.toByte,
    u32Field kTagIntervalMs config.interval_ms, u32Field kTagMinGapMs config.min_report_gap_ms]

/-- The fields of a command. Every action that has a name is valid. -/
def commandFields (cmd : TelemetryPushCommand) : Option (List Tlv) :=
  if !cmd.config.mode.valid then none
  else if !cmd.action.configures then some (headFields cmd.action)
  else do
    let metrics ← cmd.config.metrics.mapM (metricFields cmd.config)
    return headFields cmd.action ++ streamFields cmd.config ++ metrics.flatten

end Encoder

end TelemetryPushCommand

def encodeTelemetryPushCommand (cmd : TelemetryPushCommand) : Option Bytes :=
  cmd.commandFields.map Tlv.encode

/-- The parser on `len` bytes of memory; the outer `none` is a read outside of it. -/
def parseTelemetryPushCommandAt (mem : Nat → Option UInt8) (len : Nat) :
    Option (Option TelemetryPushCommand) :=
  if len < 12 then some none
  else (Tlv.readFrom TelemetryPushCommand.parseField mem len 0 {}).map
    (·.bind TelemetryPushCommand.ofFields)

namespace TelemetryPushCommand

section RoundTrip

/-- A metric as the parser gives it back: without the index beside a key, with the stream's times
where it has none, and with a threshold exactly when it reports changes. -/
def carriedMetric (config : TelemetryPushConfig) (m : TelemetryPushMetricConfig) :
    TelemetryPushMetricConfig where
  key := m.key
  has_metric_index := m.has_metric_index
  metric_index := if m.has_metric_index then m.metric_index else 0
  enabled := m.enabled
  mode := m.mode
  interval_ms := if m.interval_ms = 0 then config.interval_ms else m.interval_ms
  min_report_gap_ms := if m.min_report_gap_ms = 0 then config.min_report_gap_ms else m.min_report_gap_ms
  use_threshold := m.mode != .Periodic
  delta_abs := if m.use_threshold ∧ m.mode ≠ .Periodic then m.delta_abs else 0

/-- A command as the parser gives it back. -/
def carried (cmd : TelemetryPushCommand) : TelemetryPushCommand where
  action := cmd.action
  config := if cmd.action.configures then
      { cmd.config with enabled := true, metrics := cmd.config.metrics.map (carriedMetric cmd.config) }
    else {}

variable {p : Fields} {x : TelemetryPushMetricConfig}

theorem onLast_addMetric (change : TelemetryPushMetricConfig → TelemetryPushMetricConfig) :
    (p.addMetric x).onLast change = some (p.addMetric (change x)) := by
  have hne : (p.config.metrics ++ [x]).isEmpty = false := by simp
  simp only [Fields.onLast, Fields.addMetric, hne, List.modifyLast_concat]
  rfl

theorem parse_enable :
    parseField (p.addMetric x) (u8Field kTagMetricEnable 0) =
      some (p.addMetric { x with enabled := false }) := onLast_addMetric _

theorem parse_mode (mode : TelemetryPushMode) :
    parseField (p.addMetric x) (u8Field kTagMetricMode mode.toByte) =
      some (p.addMetric (setMode mode x)) := by
  have h : parseField (p.addMetric x) (u8Field kTagMetricMode mode.toByte) =
      (p.addMetric x).onLast (setMode (.ofByte mode.toByte)) := rfl
  rw [h, TelemetryPushMode.ofByte_toByte, onLast_addMetric]

theorem parse_interval (v : UInt32) :
    parseField (p.addMetric x) (u32Field kTagMetricIntervalMs v) =
      some (p.addMetric { x with interval_ms := v }) := by
  have h : parseField (p.addMetric x) (u32Field kTagMetricIntervalMs v) =
      (p.addMetric x).onLast fun m => { m with
        interval_ms := readLe32 v.toUInt8 (v >>> 8).toUInt8 (v >>> 16).toUInt8 (v >>> 24).toUInt8 } := rfl
  rw [h, readLe32_le32, onLast_addMetric]

theorem parse_gap (v : UInt32) :
    parseField (p.addMetric x) (u32Field kTagMetricMinGapMs v) =
      some (p.addMetric { x with min_report_gap_ms := v }) := by
  have h : parseField (p.addMetric x) (u32Field kTagMetricMinGapMs v) =
      (p.addMetric x).onLast fun m => { m with
        min_report_gap_ms :=
          readLe32 v.toUInt8 (v >>> 8).toUInt8 (v >>> 16).toUInt8 (v >>> 24).toUInt8 } := rfl
  rw [h, readLe32_le32, onLast_addMetric]

theorem parse_delta (v : Float32Bits) :
    parseField (p.addMetric x) (f32Field kTagMetricDelta v) =
      some (p.addMetric { x with use_threshold := true, delta_abs := v }) := by
  have h : parseField (p.addMetric x) (f32Field kTagMetricDelta v) =
      (p.addMetric x).onLast fun m => { m with
        use_threshold := true
        delta_abs := readLe32 v.toUInt8 (v >>> 8).toUInt8 (v >>> 16).toUInt8 (v >>> 24).toUInt8 } := rfl
  rw [h, readLe32_le32, onLast_addMetric]

/-- A field that is written only under a condition. -/
theorem parse_optional {c : Prop} [Decidable c] {f : Tlv} {y : TelemetryPushMetricConfig}
    (h : parseField (p.addMetric x) f = some (p.addMetric y)) :
    (if c then [f] else []).foldlM parseField (p.addMetric x) =
      some (p.addMetric (if c then y else x)) := by
  split
  · rw [List.foldlM_cons, h]
    rfl
  · rfl

/-- The metric that an identity opens. -/
def openedMetric (config : TelemetryPushConfig) (m : TelemetryPushMetricConfig) :
    TelemetryPushMetricConfig :=
  { newMetric config with
    key := m.key
    has_metric_index := m.has_metric_index
    metric_index := if m.has_metric_index then m.metric_index else 0 }

theorem parse_identity {m : TelemetryPushMetricConfig} (hm : metricValid m = true) :
    parseField p (identityField m) = some (p.addMetric (openedMetric p.config m)) := by
  simp only [metricValid, Bool.and_eq_true, bne_iff_ne, ne_eq] at hm
  unfold identityField openedMetric
  cases hkey : m.key.isEmpty with
  | true =>
    have hindex : m.has_metric_index = true := by simpa [hkey] using hm.1
    have hnil : m.key = [] := List.isEmpty_iff.mp hkey
    have h : parseField p (u16Field kTagMetricIndex m.metric_index) =
        some (p.addMetric { newMetric p.config with
          has_metric_index := true
          metric_index := readLe16 m.metric_index.toUInt8 (m.metric_index >>> 8).toUInt8 }) := rfl
    rw [if_pos rfl, h, readLe16_le16, hindex, hnil]
    rfl
  | false =>
    have hindex : m.has_metric_index = false := by simpa [hkey] using hm.1
    have h : parseField p (utf8Field kTagMetricKey m.key) =
        some (p.addMetric { newMetric p.config with key := m.key }) := rfl
    rw [if_neg Bool.false_ne_true, h, hindex]
    rfl

/-- A metric that keeps the mode of the stream is as if it had been given that mode. -/
theorem mode_if (mode : TelemetryPushMode) (hthreshold : x.use_threshold = (x.mode != .Periodic))
    (hdelta : x.delta_abs = 0) :
    (if ¬mode = x.mode then setMode mode x else x) =
      { x with mode := mode, use_threshold := mode != .Periodic } := by
  split
  · simp [setMode, hdelta]
  · rename_i h
    rw [not_not.mp h, ← hthreshold]

theorem enabled_if (c : Prop) [Decidable c] :
    (if c then { x with enabled := false } else x) =
      { x with enabled := if c then false else x.enabled } := by
  split <;> rfl

theorem interval_if (c : Prop) [Decidable c] (v : UInt32) :
    (if c then { x with interval_ms := v } else x) =
      { x with interval_ms := if c then v else x.interval_ms } := by
  split <;> rfl

theorem gap_if (c : Prop) [Decidable c] (v : UInt32) :
    (if c then { x with min_report_gap_ms := v } else x) =
      { x with min_report_gap_ms := if c then v else x.min_report_gap_ms } := by
  split <;> rfl

theorem delta_if (c : Prop) [Decidable c] (v : Float32Bits) :
    (if c then { x with use_threshold := true, delta_abs := v } else x) =
      { x with
        use_threshold := if c then true else x.use_threshold
        delta_abs := if c then v else x.delta_abs } := by
  split <;> rfl

/-- All options of a metric reach that metric, and no other. -/
theorem parse_metric {config : TelemetryPushConfig} {m : TelemetryPushMetricConfig} {fields : List Tlv}
    (hfields : metricFields config m = some fields)
    (hmode : p.config.mode = config.mode) (hinterval : p.config.interval_ms = config.interval_ms)
    (hgap : p.config.min_report_gap_ms = config.min_report_gap_ms) :
    fields.foldlM parseField p = some (p.addMetric (carriedMetric config m)) := by
  unfold metricFields at hfields
  split at hfields
  · cases hfields
  split at hfields
  · cases hfields
  rename_i hvalid _
  have hvalid : metricValid m = true := by simpa using hvalid
  rw [← Option.some.inj hfields, List.foldlM_cons, parse_identity hvalid]
  have hflip {c : Prop} [Decidable c] (f : Tlv) : (if c then [] else [f]) = if ¬c then [f] else [] := by
    split <;> simp
  simp only [ownFields, hflip, List.foldlM_append]
  rw [Option.bind_eq_bind, Option.bind_some, parse_optional parse_enable]
  simp only [Option.bind_some]
  rw [parse_optional (parse_mode m.mode), Option.bind_some, parse_optional (parse_interval m.interval_ms),
    Option.bind_some, parse_optional (parse_gap m.min_report_gap_ms), Option.bind_some,
    parse_optional (parse_delta m.delta_abs), enabled_if]
  have hopened : (openedMetric p.config m).mode = config.mode := hmode
  rw [← hopened, mode_if (x := { openedMetric p.config m with
      enabled := if ¬m.enabled = true then false else (openedMetric p.config m).enabled }) m.mode rfl rfl,
    interval_if, gap_if, delta_if]
  congr 2
  simp only [openedMetric, newMetric, carriedMetric, hinterval, hgap,
    TelemetryPushMetricConfig.mk.injEq, true_and]
  refine ⟨?_, ?_, ?_, ?_⟩
  · cases m.enabled <;> rfl
  · by_cases h0 : m.interval_ms = 0
    · simp [h0]
    · by_cases hs : m.interval_ms = config.interval_ms <;> simp [h0, hs]
  · by_cases h0 : m.min_report_gap_ms = 0
    · simp [h0]
    · by_cases hs : m.min_report_gap_ms = config.min_report_gap_ms <;> simp [h0, hs]
  · by_cases ht : m.use_threshold = true ∧ m.mode ≠ .Periodic
    · simp [ht]
    · simp [ht]

theorem metricFields_some {config : TelemetryPushConfig} {m : TelemetryPushMetricConfig}
    {fields : List Tlv} (h : metricFields config m = some fields) :
    metricValid m = true ∧ ∀ f ∈ fields, f.value.length < 65536 := by
  unfold metricFields at h
  split at h
  · cases h
  split at h
  · cases h
  rename_i hvalid hlen
  refine ⟨by simpa using hvalid, ?_⟩
  rw [← Option.some.inj h]
  intro f hf
  rcases List.mem_cons.mp hf with rfl | hf
  · unfold identityField
    split
    · exact Nat.lt_of_lt_of_le (show 2 < 3 by decide) (by decide)
    · exact Nat.lt_succ_of_le (Nat.le_of_not_lt hlen)
  · have hsmall : f.value.length ≤ 4 := by
      simp only [ownFields, List.mem_append] at hf
      rcases hf with (((hf | hf) | hf) | hf) | hf <;> split at hf <;>
        first
          | (rw [List.mem_singleton.mp hf]; simp [u8Field, u32Field, f32Field])
          | cases hf
    omega

/-- The metrics of a command are parsed one after the other, in their order. -/
theorem parse_metrics {config : TelemetryPushConfig} {metrics : List TelemetryPushMetricConfig}
    {fields : List (List Tlv)} (hfields : metrics.mapM (metricFields config) = some fields)
    (hmode : p.config.mode = config.mode) (hinterval : p.config.interval_ms = config.interval_ms)
    (hgap : p.config.min_report_gap_ms = config.min_report_gap_ms) :
    fields.flatten.foldlM parseField p = some { p with config := { p.config with
      metrics := p.config.metrics ++ metrics.map (carriedMetric config) } } ∧
    (∀ m ∈ metrics, metricValid m = true) ∧ ∀ f ∈ fields.flatten, f.value.length < 65536 := by
  induction metrics generalizing p fields with
  | nil =>
    obtain rfl := Option.some.inj hfields
    refine ⟨?_, by simp, by simp⟩
    rw [List.map_nil, List.append_nil]
    rfl
  | cons m metrics ih =>
    rw [List.mapM_cons] at hfields
    obtain ⟨first, hfirst, hfields⟩ := Option.bind_eq_some_iff.mp hfields
    obtain ⟨rest, hrest, hfields⟩ := Option.bind_eq_some_iff.mp hfields
    obtain rfl := Option.some.inj hfields
    obtain ⟨hvalid, hsizes⟩ := metricFields_some hfirst
    have hparse := parse_metric hfirst hmode hinterval hgap
    obtain ⟨hparses, hvalids, hsizess⟩ := ih (p := p.addMetric (carriedMetric config m)) hrest hmode hinterval hgap
    refine ⟨?_, ?_, ?_⟩
    · rw [List.flatten_cons, List.foldlM_append, hparse, Option.bind_eq_bind, Option.bind_some, hparses]
      simp [Fields.addMetric]
    · intro x hx
      rcases List.mem_cons.mp hx with rfl | hx
      · exact hvalid
      · exact hvalids x hx
    · intro f hf
      rcases List.mem_append.mp (List.flatten_cons ▸ hf) with hf | hf
      · exact hsizes f hf
      · exact hsizess f hf

theorem parse_head (action : TelemetryPushAction) :
    (headFields action).foldlM parseField {} =
      some { have_magic := true, action := some action.toByte } := by
  cases action <;> rfl

/-- What is read of a configuration before its metrics. -/
def withStream (action : TelemetryPushAction) (config : TelemetryPushConfig) : Fields where
  have_magic := true
  action := some action.toByte
  config := { config with enabled := true, metrics := [] }

theorem parse_stream (config : TelemetryPushConfig) (action : TelemetryPushAction) :
    (streamFields config).foldlM parseField { have_magic := true, action := some action.toByte } =
      some (withStream action config) := by
  have h : (streamFields config).foldlM parseField { have_magic := true, action := some action.toByte } =
      some { have_magic := true
             action := some action.toByte
             config :=
               { stream_id := readLe16 config.stream_id.toUInt8 (config.stream_id >>> 8).toUInt8
                 mode := .ofByte config.mode.toByte
                 interval_ms := readLe32 config.interval_ms.toUInt8 (config.interval_ms >>> 8).toUInt8
                   (config.interval_ms >>> 16).toUInt8 (config.interval_ms >>> 24).toUInt8
                 min_report_gap_ms := readLe32 config.min_report_gap_ms.toUInt8
                   (config.min_report_gap_ms >>> 8).toUInt8 (config.min_report_gap_ms >>> 16).toUInt8
                   (config.min_report_gap_ms >>> 24).toUInt8 } } := rfl
  rw [h, readLe16_le16, readLe32_le32, readLe32_le32, TelemetryPushMode.ofByte_toByte]
  rfl

theorem headFields_sizes (action : TelemetryPushAction) : Tlv.sizes (headFields action) = 16 := rfl

theorem headFields_small {action : TelemetryPushAction} : ∀ f ∈ headFields action, f.value.length < 65536 := by
  intro f hf
  simp only [headFields, List.mem_cons, List.not_mem_nil, or_false] at hf
  rcases hf with rfl | rfl | rfl <;> simp [u8Field, u16Field]

theorem streamFields_small {config : TelemetryPushConfig} :
    ∀ f ∈ streamFields config, f.value.length < 65536 := by
  intro f hf
  simp only [streamFields, List.mem_cons, List.not_mem_nil, or_false] at hf
  rcases hf with rfl | rfl | rfl | rfl <;> simp [u8Field, u16Field, u32Field]

/-- The fields of a command are parsed to what is carried of it. -/
theorem parse_fields {cmd : TelemetryPushCommand} {fields : List Tlv}
    (hfields : cmd.commandFields = some fields)
    (hmetrics : cmd.action.configures = true → cmd.config.metrics ≠ []) :
    (fields.foldlM parseField {}).bind ofFields = some cmd.carried ∧ 12 ≤ Tlv.sizes fields ∧
      ∀ f ∈ fields, f.value.length < 65536 := by
  unfold commandFields at hfields
  split at hfields
  · cases hfields
  rename_i hvalid
  have hvalid : cmd.config.mode.valid = true := by simpa using hvalid
  cases hconfigures : cmd.action.configures with
  | false =>
    rw [hconfigures, Bool.not_false, if_pos rfl] at hfields
    obtain rfl := Option.some.inj hfields
    refine ⟨?_, by rw [headFields_sizes]; decide, headFields_small⟩
    rw [parse_head, Option.bind_some, carried, hconfigures]
    unfold ofFields
    simp only [Bool.not_true, Bool.false_eq_true, if_false, Option.bind_some,
      TelemetryPushAction.ofByte_toByte]
    rw [if_neg]
    rintro ⟨haction, -⟩
    simp only [TelemetryPushAction.configures, Bool.or_eq_false_iff, decide_eq_false_iff_not] at hconfigures
    rcases haction with h | h
    · exact hconfigures.1 h
    · exact hconfigures.2 h
  | true =>
    rw [hconfigures, Bool.not_true, if_neg Bool.false_ne_true] at hfields
    obtain ⟨metrics, hmapped, hfields⟩ := Option.bind_eq_some_iff.mp hfields
    obtain rfl := Option.some.inj hfields
    obtain ⟨hparse, hvalids, hsmall⟩ :=
      parse_metrics (p := withStream cmd.action cmd.config) hmapped rfl rfl rfl
    refine ⟨?_, ?_, ?_⟩
    · rw [List.foldlM_append, List.foldlM_append, parse_head]
      simp only [Option.bind_eq_bind, Option.bind_some]
      rw [parse_stream, Option.bind_some, hparse, Option.bind_some, carried, hconfigures]
      have hall : (cmd.config.metrics.map (carriedMetric cmd.config)).all metricValid = true := by
        rw [List.all_map, List.all_eq_true]
        exact hvalids
      have hne : cmd.config.metrics.map (carriedMetric cmd.config) ≠ [] := by
        rw [ne_eq, List.map_eq_nil_iff]
        exact hmetrics hconfigures
      simp only [ofFields, withStream, Bool.not_true, Bool.false_eq_true, if_false, Option.bind_some,
        TelemetryPushAction.ofByte_toByte, List.nil_append, hall]
      rw [if_neg fun h => h.2 ⟨hvalid, hne, trivial⟩]
      rfl
    · rw [Tlv.sizes_append, Tlv.sizes_append, headFields_sizes]
      omega
    · intro f hf
      rcases List.mem_append.mp hf with hf | hf
      · rcases List.mem_append.mp hf with hf | hf
        · exact headFields_small f hf
        · exact streamFields_small f hf
      · exact hsmall f hf

theorem parse_encode {cmd : TelemetryPushCommand} {out : Bytes}
    (hencode : encodeTelemetryPushCommand cmd = some out)
    (hmetrics : cmd.action.configures = true → cmd.config.metrics ≠ []) :
    parseTelemetryPushCommand out = some cmd.carried := by
  obtain ⟨fields, hfields, rfl⟩ := Option.map_eq_some_iff.mp hencode
  obtain ⟨hparse, hlong, hsmall⟩ := parse_fields hfields hmetrics
  rw [parseTelemetryPushCommand, if_neg (by rw [Tlv.encode_length]; omega), Tlv.decode_encode hsmall]
  exact hparse

/-- The parser reads its bytes only, and all that it needs of them is their list. -/
theorem parseTelemetryPushCommandAt_eq {payload : Bytes} {mem : Nat → Option UInt8}
    (hmem : ∀ i < payload.length, mem i = payload[i]?) :
    parseTelemetryPushCommandAt mem payload.length = some (parseTelemetryPushCommand payload) := by
  unfold parseTelemetryPushCommandAt parseTelemetryPushCommand
  split
  · rfl
  · rw [Tlv.readFrom_eq hmem (Nat.zero_le _), List.drop_zero, Option.map_some]
    congr 1
    cases Tlv.decode payload <;> rfl

end RoundTrip

end TelemetryPushCommand

/-- A push command comes back with all that is sent of it: every option with its own metric, in order,
and the times of the stream where a metric has none. The parser reads only the bytes of its payload. -/
theorem push_command_carried :
    (∀ (cmd : TelemetryPushCommand) (out : Bytes),
      (cmd.action.configures = true → cmd.config.metrics ≠ []) →
      encodeTelemetryPushCommand cmd = some out → parseTelemetryPushCommand out = some cmd.carried) ∧
    (∀ (payload : Bytes) (mem : Nat → Option UInt8), (∀ i < payload.length, mem i = payload[i]?) →
      parseTelemetryPushCommandAt mem payload.length = some (parseTelemetryPushCommand payload)) := by
  constructor
  · intro cmd out hmetrics hencode
    exact TelemetryPushCommand.parse_encode hencode hmetrics
  · intro payload mem hmem
    exact TelemetryPushCommand.parseTelemetryPushCommandAt_eq hmem

/-- An update of two metrics, in their stored form, and the bytes it is sent as. -/
theorem push_command_carried_update :
    let cmd : TelemetryPushCommand :=
      { action := .Update
        config :=
          { stream_id := 3
            mode := .Periodic
            metrics :=
              [{ key := [116], enabled := false, mode := .Hybrid, interval_ms := 500
                 min_report_gap_ms := 200, use_threshold := true, delta_abs := 0x3f800000 },
               { has_metric_index := true, metric_index := 9, mode := .Periodic, interval_ms := 1000
                 min_report_gap_ms := 200 }] } }
    let out := (encodeTelemetryPushCommand cmd).getD []
    parseTelemetryPushCommand out = some cmd ∧
      parseTelemetryPushCommandAt (fun i => out[i]?) out.length = some (some cmd) := by
  intro cmd out
  have hcarried : cmd.carried = cmd := by decide +kernel
  have hparse := push_command_carried.1 cmd out (fun _ => by decide +kernel) (by decide +kernel)
  have hread := push_command_carried.2 out (fun i => out[i]?) fun _ _ => rfl
  rw [hcarried] at hparse
  rw [hparse] at hread
  exact ⟨hparse, hread⟩

/-- A pause does not carry the stream it comes with, and a metric that reports changes without a
threshold comes back with one. -/
theorem push_command_not_kept :
    let pause : TelemetryPushCommand := { action := .Pause, config := { stream_id := 7 } }
    let start : TelemetryPushCommand :=
      { action := .Start
        config := { metrics := [{ key := [116], interval_ms := 500, min_report_gap_ms := 200 }] } }
    (encodeTelemetryPushCommand pause).bind parseTelemetryPushCommand =
        some { action := .Pause, config := {} } ∧
      (encodeTelemetryPushCommand pause).bind parseTelemetryPushCommand ≠ some pause ∧
      (encodeTelemetryPushCommand start).isSome ∧
      (encodeTelemetryPushCommand start).bind parseTelemetryPushCommand ≠ some start := by
  decide +kernel

end EspNowLink
