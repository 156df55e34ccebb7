import EspNowLink.Telemetry.Deadlines
import EspNowLink.Telemetry.PushControl

namespace EspNowLink

/-- What a command sets of a session; ticks and restarts leave it alone. -/
structure SameStream (s s' : TelemetryPushSession) : Prop where
  stream_id : s'.stream_id = s.stream_id
  enabled : s'.enabled = s.enabled
  paused : s'.paused = s.paused
  mode : s'.mode = s.mode
  interval_ms : s'.interval_ms = s.interval_ms
  min_gap_ms : s'.min_gap_ms = s.min_gap_ms
  master : s'.master = s.master
  has_master : s'.has_master = s.has_master
  metrics : List.Forall₂ SameRule s.metrics s'.metrics

protected theorem SameStream.refl (s : TelemetryPushSession) : SameStream s s :=
  ⟨rfl, rfl, rfl, rfl, rfl, rfl, rfl, rfl, List.forall₂_same.mpr fun metric _ => .refl metric⟩

section Blob

variable {m m' : PushMetricState} {s s' : TelemetryPushSession}

theorem pushMetricBlob_congr (h : SameRule m m') : pushMetricBlob m' = pushMetricBlob m := by
  simp [pushMetricBlob, h.key, h.enabled, h.mode, h.interval_ms, h.min_gap_ms, h.use_threshold, h.delta_abs]

theorem SameStream.keys (h : SameStream s s') : s'.metrics.map (·.key) = s.metrics.map (·.key) := by
  have hmetrics := h.metrics
  revert hmetrics
  generalize s.metrics = ms
  generalize s'.metrics = ms'
  intro hmetrics
  induction hmetrics with
  | nil => rfl
  | cons hrule _ ih => simp [hrule.key, ih]

/-- The blob keeps of a session just what a command sets. -/
theorem pushConfigBlob_congr (h : SameStream s s') : pushConfigBlob s' = pushConfigBlob s := by
  have hmetrics : s'.metrics.flatMap pushMetricBlob = s.metrics.flatMap pushMetricBlob := by
    have hrules := h.metrics
    revert hrules
    generalize s.metrics = ms
    generalize s'.metrics = ms'
    intro hrules
    induction hrules with
    | nil => rfl
    | cons hrule _ ih => simp [pushMetricBlob_congr hrule, ih]
  have hlength : s'.metrics.length = s.metrics.length := h.metrics.length_eq.symm
  simp [pushConfigBlob, h.enabled, h.paused, h.mode, h.stream_id, h.interval_ms, h.min_gap_ms, hmetrics,
    hlength]

theorem storableMetrics_congr (h : SameStream s s') :
    storableMetrics s'.metrics = storableMetrics s.metrics := by
  have hall (ms : List PushMetricState) : storableMetrics ms =
      (decide (ms.length ≤ 255) && (ms.map (·.key)).all fun key => !key.isEmpty && decide (key.length ≤ 63)) := by
    simp [storableMetrics, List.all_map, Function.comp_def]
  rw [hall, hall, h.keys, h.metrics.length_eq]

/-- A metric as a blob keeps it. -/
def PushMetricState.unsent (m : PushMetricState) : PushMetricState :=
  { m with next_periodic_ms := 0, has_last := false, last_value := 0, last_report_ms := 0 }

theorem boolByte_ne_zero (b : Bool) : (boolByte b != 0) = b := by cases b <;> rfl

theorem pushMetricOfBlob_blob (hkey : m.key ≠ []) (hlen : m.key.length ≤ 63) (rest : Bytes) :
    pushMetricOfBlob (pushMetricBlob m ++ rest) = some (m.unsent, rest) := by
  have hbyte : m.key.length.toUInt8.toNat = m.key.length := by
    rw [UInt8.toNat_ofNat']
    omega
  have hpos : m.key.length.toUInt8 ≠ 0 := by
    intro h
    rw [h] at hbyte
    exact hkey (List.length_eq_zero_iff.mp hbyte.symm)
  unfold pushMetricOfBlob pushMetricBlob
  simp only [List.cons_append, List.append_assoc, le32, List.nil_append, hbyte]
  rw [if_neg (by simp [hpos]), List.drop_left, List.take_left]
  simp only [readLe32_le32, boolByte_ne_zero, TelemetryPushMode.ofByte_toByte]
  rfl

theorem pushMetricsOfBlob_blob {ms : List PushMetricState}
    (hkeys : ∀ m ∈ ms, m.key ≠ [] ∧ m.key.length ≤ 63) :
    pushMetricsOfBlob ms.length (ms.flatMap pushMetricBlob) = some (ms.map (·.unsent)) := by
  induction ms with
  | nil => rfl
  | cons m ms ih =>
    obtain ⟨hkey, hlen⟩ := hkeys m List.mem_cons_self
    have hrest := ih fun m' hm' => hkeys m' (List.mem_cons_of_mem m hm')
    rw [List.length_cons, List.flatMap_cons, pushMetricsOfBlob, pushMetricOfBlob_blob hkey hlen]
    simp [hrest]

theorem storableMetrics_iff {ms : List PushMetricState} :
    storableMetrics ms = true ↔ ms.length ≤ 255 ∧ ∀ m ∈ ms, m.key ≠ [] ∧ m.key.length ≤ 63 := by
  simp [storableMetrics]

/-- A session that can be stored is read back from its blob, with timers that have not started. -/
theorem pushConfigOfBlob_blob (hkeys : storableMetrics s.metrics = true) (hmaster : s.has_master = true) :
    pushConfigOfBlob s.master (pushConfigBlob s) = some
      { s with
        metrics := s.metrics.map (·.unsent)
        consecutive_tx_fail := 0
        backoff_until_ms := 0 } := by
  obtain ⟨hlen, hkeys⟩ := storableMetrics_iff.mp hkeys
  have hcount : s.metrics.length.toUInt8.toNat = s.metrics.length := by
    rw [UInt8.toNat_ofNat']
    omega
  unfold pushConfigBlob pushConfigOfBlob
  simp only [List.cons_append, List.nil_append, le16, le32, hcount, pushMetricsOfBlob_blob hkeys,
    Option.map_some, readLe16_le16, readLe32_le32, boolByte_ne_zero, TelemetryPushMode.ofByte_toByte, hmaster]

theorem pushConfigBlob_header (s : TelemetryPushSession) :
    15 ≤ (pushConfigBlob s).length ∧ (pushConfigBlob s).head? = some 1 := by
  simp [pushConfigBlob, le16, le32]

end Blob

end EspNowLink
