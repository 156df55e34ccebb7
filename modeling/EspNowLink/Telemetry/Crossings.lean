import EspNowLink.Telemetry.Deadlines
import EspNowLink.Telemetry.PushControl

open Framework

namespace EspNowLink

/-- The reports sent so far and their times, the last one first. -/
abbrev PushHistory := List (UInt32 × PushReport)

/-- The value that a report carries under a key. -/
def PushReport.value (f : FloatOps) (r : PushReport) (key : Bytes) : Option Float32Bits :=
  (r.samples.find? (·.key == key)).bind fun s => f.parseSampleFloat s.value

/-- The value last sent under a key, and when. -/
def lastSent (f : FloatOps) (key : Bytes) : PushHistory → Option (UInt32 × Float32Bits)
  | [] => none
  | (sent_ms, r) :: older =>
    match r.value f key with
    | some v => some (sent_ms, v)
    | none => lastSent f key older

/-- The value differs from the one last sent by the threshold and the gap has passed, or none was sent
yet. -/
def Crossed (f : FloatOps) (history : PushHistory) (metric : PushMetricState) (now_ms : UInt32)
    (v : Float32Bits) : Prop :=
  ∀ sent_ms last, lastSent f metric.key history = some (sent_ms, last) →
    f.reaches v last metric.threshold = true ∧ metric.min_gap_ms ≤ now_ms - sent_ms

namespace TelemetryManager

/-- The value of a key in a snapshot. -/
def currentValue (f : FloatOps) (m : TelemetryManager) (snapshot : List TelemetrySample) (key : Bytes) :
    Option Float32Bits :=
  (findSample (alignSnapshotToProfile m.local_profile snapshot) key).bind fun s =>
    f.parseSampleFloat s.value

/-- A tick with the history of the session. -/
def historyTick (f : FloatOps) (s : TelemetryManager × PushHistory) (i : PushTick) :
    TelemetryManager × PushHistory :=
  (s.1.afterTick f i, ((s.1.onTick f i).1.map (i.now_ms, ·)).toList ++ s.2)

/-- The tick reports every crossing, and stores no value that it does not send. -/
structure CrossingsReported (f : FloatOps) (s : TelemetryManager × PushHistory) (i : PushTick) :
    Prop where
  reported : ∀ snapshot metric v, i.snapshot = some snapshot → s.1.pushReady i.now_ms = true →
    metric ∈ s.1.push_session.metrics → metric.enabled = true → metric.changeMode = true →
    s.1.currentValue f snapshot metric.key = some v → Crossed f s.2 metric i.now_ms v →
    ∃ r, (s.1.onTick f i).1 = some r ∧ r.value f metric.key = some v
  stored : ∀ (k : Nat) (metric metric' : PushMetricState), s.1.push_session.metrics[k]? = some metric →
    (s.1.afterTick f i).push_session.metrics[k]? = some metric' →
    (metric'.has_last, metric'.last_value) ≠ (metric.has_last, metric.last_value) →
    ∃ r, (s.1.onTick f i).1 = some r ∧ r.value f metric.key = some metric'.last_value

/-- The tick samples no first value of an on-change metric but at its periodic deadline, and when it has
something to send, it sends every value that is not the stored one, all in one payload. -/
structure EveryChangePicked (f : FloatOps) (m : TelemetryManager) (i : PushTick) : Prop where
  first : ∀ snapshot metric v, i.snapshot = some snapshot → m.pushReady i.now_ms = true →
    metric ∈ m.push_session.metrics → metric.enabled = true → metric.changeMode = true →
    metric.has_last = false → m.currentValue f snapshot metric.key = some v →
    metric.periodicDue i.now_ms = true
  changes : ∀ snapshot, i.snapshot = some snapshot → m.pushReady i.now_ms = true →
    (∃ other ∈ m.push_session.metrics,
      (pickMetric f (alignSnapshotToProfile m.local_profile snapshot) i.now_ms other).send = true) →
    ∀ metric v, metric ∈ m.push_session.metrics → metric.enabled = true →
    m.currentValue f snapshot metric.key = some v →
    (pickMetric f (alignSnapshotToProfile m.local_profile snapshot) i.now_ms metric).send = true ∨
      metric.has_last = true ∧ metric.last_value = v
  room : ∀ snapshot, i.snapshot = some snapshot → m.pushReady i.now_ms = true →
    sampleBytes (pickedSamples (m.picks f snapshot i.now_ms)) ≤
      reportRoom (pushCause (m.picks f snapshot i.now_ms))

/-- The metrics of a session that has just started. -/
structure FreshSession (m : TelemetryManager) : Prop where
  distinct : (m.push_session.metrics.map (·.key)).Nodup
  unsent : ∀ metric ∈ m.push_session.metrics, metric.has_last = false

/-- The stored values are the ones last sent. -/
structure Tracks (f : FloatOps) (s : TelemetryManager × PushHistory) : Prop where
  distinct : (s.1.push_session.metrics.map (·.key)).Nodup
  last : ∀ metric ∈ s.1.push_session.metrics, metric.enabled = true →
    (if metric.has_last then some (metric.last_report_ms, metric.last_value) else none) =
      lastSent f metric.key s.2

section Ticks

variable {f : FloatOps} {m : TelemetryManager} {history : PushHistory} {i : PushTick}
  {snapshot : List TelemetrySample}

theorem pickMetric_value {now_ms : UInt32} {metric : PushMetricState} (hon : metric.enabled = true) :
    (pickMetric f (alignSnapshotToProfile m.local_profile snapshot) now_ms metric).value =
      m.currentValue f snapshot metric.key := by
  unfold pickMetric currentValue
  rw [hon]
  cases hfind : findSample (alignSnapshotToProfile m.local_profile snapshot) metric.key with
  | none => rfl
  | some sample => rfl

/-- A crossing that is tracked is picked. -/
theorem Tracks.picks_crossing (h : Tracks f (m, history)) (hcond : EveryChangePicked f m i)
    (hgiven : i.snapshot = some snapshot) (hready : m.pushReady i.now_ms = true)
    {metric : PushMetricState} (hmem : metric ∈ m.push_session.metrics) (hon : metric.enabled = true)
    (hmode : metric.changeMode = true) {v : Float32Bits}
    (hv : m.currentValue f snapshot metric.key = some v) (hcross : Crossed f history metric i.now_ms v) :
    (pickMetric f (alignSnapshotToProfile m.local_profile snapshot) i.now_ms metric).send = true := by
  have hfound := hv
  unfold currentValue at hfound
  obtain ⟨sample, hsample, hparse⟩ := Option.bind_eq_some_iff.mp hfound
  have hlast := h.last metric hmem hon
  unfold pickMetric MetricPick.send
  simp only [hon, hsample, Bool.not_true, Bool.false_eq_true, if_false]
  cases hhas : metric.has_last with
  | false =>
    have hdue := hcond.first snapshot metric v hgiven hready hmem hon hmode hhas hv
    simp [hdue]
  | true =>
    rw [hhas, if_pos rfl] at hlast
    obtain ⟨hreach, hgap⟩ := hcross _ _ hlast.symm
    simp [hmode, PushMetricState.gapPassed, hhas, hgap, hparse, hreach]

theorem picked_from {now_ms : UInt32} {s : TelemetrySample}
    (h : s ∈ pickedSamples (m.picks f snapshot now_ms)) :
    ∃ metric ∈ m.push_session.metrics,
      (pickMetric f (alignSnapshotToProfile m.local_profile snapshot) now_ms metric).send = true ∧
      findSample (alignSnapshotToProfile m.local_profile snapshot) metric.key = some s := by
  obtain ⟨xs, p, ys, hpicks, hsample, hsend, -⟩ := mem_pickedSamples h
  have hp : p ∈ m.picks f snapshot now_ms := by simp [hpicks]
  obtain ⟨metric, hmetric, rfl⟩ := List.mem_map.mp hp
  exact ⟨metric, hmetric, hsend, (pickMetric_sample hsample).2⟩

theorem picked_of_send {now_ms : UInt32} {metric : PushMetricState}
    (hmem : metric ∈ m.push_session.metrics)
    (hsend : (pickMetric f (alignSnapshotToProfile m.local_profile snapshot) now_ms metric).send = true) :
    ∃ s ∈ pickedSamples (m.picks f snapshot now_ms), s.key = metric.key := by
  obtain ⟨xs, ys, hsplit⟩ := List.append_of_mem (List.mem_map_of_mem
    (f := pickMetric f (alignSnapshotToProfile m.local_profile snapshot) now_ms) hmem)
  obtain ⟨-, -, sample, hfind, hsample⟩ := pickMetric_send hsend
  obtain ⟨s, hs, hkey⟩ := addPicked_key (pickedSamples xs) hsample hsend
  refine ⟨s, ?_, hkey.trans (findSample_key hfind).2⟩
  unfold picks
  rw [hsplit, pickedSamples_append]
  exact (foldl_addPicked_extends _ ys).subset hs

/-- A report with all that is picked carries the current values of the metrics picked. -/
theorem value_of_picked {r : PushReport}
    (hall : r.samples = pickedSamples (m.picks f snapshot i.now_ms))
    (hdistinct : (m.push_session.metrics.map (·.key)).Nodup) {metric : PushMetricState}
    (hmem : metric ∈ m.push_session.metrics) :
    r.value f metric.key =
      if (pickMetric f (alignSnapshotToProfile m.local_profile snapshot) i.now_ms metric).send then
        m.currentValue f snapshot metric.key else none := by
  unfold PushReport.value
  rw [hall]
  cases hfind : (pickedSamples (m.picks f snapshot i.now_ms)).find? (·.key == metric.key) with
  | none =>
    have hnot : ¬ (pickMetric f (alignSnapshotToProfile m.local_profile snapshot) i.now_ms
        metric).send = true := by
      intro hsend
      obtain ⟨s, hs, hkey⟩ := picked_of_send hmem hsend
      have hno := List.find?_eq_none.mp hfind s hs
      simp [hkey] at hno
    rw [if_neg hnot]
    rfl
  | some s =>
    have hkey : s.key = metric.key := by simpa using List.find?_some hfind
    obtain ⟨other, hother, hsend, hsample⟩ := picked_from (List.mem_of_find?_eq_some hfind)
    have hsame : other.key = metric.key := (findSample_key hsample).2.symm.trans hkey
    obtain rfl : other = metric := List.inj_on_of_nodup_map hdistinct hother hmem hsame
    rw [if_pos hsend, currentValue, hsample]

/-- What a settled metric has stored. -/
theorem settleMetric_last (now_ms : UInt32) {metric : PushMetricState} (hon : metric.enabled = true)
    (p : MetricPick) :
    (settleMetric now_ms metric p).has_last = (metric.has_last || p.value.isSome) ∧
      (settleMetric now_ms metric p).last_value = p.value.getD metric.last_value ∧
      (settleMetric now_ms metric p).last_report_ms =
        if p.value.isSome && p.send then now_ms else metric.last_report_ms := by
  unfold settleMetric
  rw [hon]
  cases hvalue : p.value with
  | none => cases metric.periodicMode <;> simp
  | some v => cases metric.periodicMode <;> cases p.send <;> simp

theorem settleMetric_off (now_ms : UInt32) {metric : PushMetricState} (hoff : metric.enabled = false)
    (p : MetricPick) : settleMetric now_ms metric p = metric := by
  simp [settleMetric, hoff]

theorem Sends.metrics {r : PushReport} (h : Sends f m i snapshot r) :
    (m.afterTick f i).push_session.metrics = m.push_session.metrics.map fun metric =>
      settleMetric i.now_ms metric
        (pickMetric f (alignSnapshotToProfile m.local_profile snapshot) i.now_ms metric) := by
  refine List.ext_getElem? fun k => ?_
  rw [List.getElem?_map]
  cases hk : m.push_session.metrics[k]? with
  | none =>
    rw [h.settled, TelemetryPushSession.noteSent, List.getElem?_zipWith, hk]
    rfl
  | some metric => exact h.metric hk

theorem onTick_keys (f : FloatOps) (m : TelemetryManager) (i : PushTick) :
    (m.afterTick f i).push_session.metrics.map (·.key) = m.push_session.metrics.map (·.key) := by
  rcases onTick_cases f m i with ⟨given, r, hsends⟩ | ⟨-, hmetrics, -⟩
  · rw [hsends.metrics, List.map_map]
    exact List.map_congr_left fun metric _ => (settleMetric_rule _ _ _).key
  · rw [hmetrics]

/-- A report that everything fits is tracked by the metrics it settles. -/
theorem Tracks.sent {r : PushReport} (h : Tracks f (m, history)) (hcond : EveryChangePicked f m i)
    (hsends : Sends f m i snapshot r) {metric : PushMetricState}
    (hmem : metric ∈ m.push_session.metrics) (hon : metric.enabled = true) :
    let metric' := settleMetric i.now_ms metric
      (pickMetric f (alignSnapshotToProfile m.local_profile snapshot) i.now_ms metric)
    (if metric'.has_last then some (metric'.last_report_ms, metric'.last_value) else none) =
        lastSent f metric.key ((i.now_ms, r) :: history) ∧
      ((metric'.has_last, metric'.last_value) ≠ (metric.has_last, metric.last_value) →
        r.value f metric.key = some metric'.last_value) := by
  have hall : r.samples = pickedSamples (m.picks f snapshot i.now_ms) := by
    rw [hsends.samples]
    exact fittingSamples_all (hcond.room snapshot hsends.given hsends.ready)
  have hvalue := value_of_picked hall h.distinct hmem
  have hlast := h.last metric hmem hon
  obtain ⟨hhas', hlast', hreport'⟩ := settleMetric_last i.now_ms hon
    (pickMetric f (alignSnapshotToProfile m.local_profile snapshot) i.now_ms metric)
  rw [pickMetric_value hon] at hhas' hlast' hreport'
  dsimp only
  rw [hhas', hlast', hreport', lastSent]
  cases hv : m.currentValue f snapshot metric.key with
  | none =>
    have hnothing : r.value f metric.key = none := by
      rw [hvalue, hv]
      split <;> rfl
    rw [hnothing]
    simpa using hlast
  | some v =>
    rw [hv] at hvalue
    by_cases hsend : (pickMetric f (alignSnapshotToProfile m.local_profile snapshot) i.now_ms
        metric).send = true
    · rw [if_pos hsend] at hvalue
      rw [hvalue, hsend]
      simp
    · have hoff : (pickMetric f (alignSnapshotToProfile m.local_profile snapshot) i.now_ms
          metric).send = false := by simpa using hsend
      rw [if_neg hsend] at hvalue
      obtain ⟨hhas, hsame⟩ := (hcond.changes snapshot hsends.given hsends.ready
        (picked_ne_nil_iff.mp hsends.picked) metric v hmem hon hv).resolve_left hsend
      rw [hhas, if_pos rfl] at hlast
      rw [hvalue, hoff, hhas]
      simp [← hlast, hsame]

/-- A tick that meets the condition keeps track, reports every crossing and stores what it sends. -/
theorem Tracks.tick (h : Tracks f (m, history)) (hcond : EveryChangePicked f m i) (hlink : i.link = true) :
    CrossingsReported f (m, history) i ∧ Tracks f (historyTick f (m, history) i) := by
  have hkeys : ((historyTick f (m, history) i).1.push_session.metrics.map (·.key)).Nodup := by
    rw [historyTick, onTick_keys]
    exact h.distinct
  rcases onTick_cases f m i with ⟨snapshot, r, hsends⟩ | ⟨hnone, hmetrics, hempty⟩
  · have hall : r.samples = pickedSamples (m.picks f snapshot i.now_ms) := by
      rw [hsends.samples]
      exact fittingSamples_all (hcond.room snapshot hsends.given hsends.ready)
    refine ⟨⟨?_, ?_⟩, hkeys, ?_⟩
    · intro given metric v hgiven hready hmem hon hmode hv hcross
      obtain rfl : snapshot = given := Option.some.inj (hsends.given.symm.trans hgiven)
      have hsend := h.picks_crossing hcond hgiven hready hmem hon hmode hv hcross
      refine ⟨r, hsends.report, ?_⟩
      rw [value_of_picked hall h.distinct hmem, if_pos hsend, hv]
    · intro k metric metric' hk hk' hne
      rw [hsends.metric hk, Option.some.injEq] at hk'
      subst hk'
      have hmem := List.mem_of_getElem? hk
      by_cases hon : metric.enabled = true
      · exact ⟨r, hsends.report, (h.sent hcond hsends hmem hon).2 hne⟩
      · rw [settleMetric_off _ (Bool.not_eq_true _ ▸ hon)] at hne
        exact absurd rfl hne
    · intro metric' hmem' hon'
      have hhistory : (historyTick f (m, history) i).2 = (i.now_ms, r) :: history := by
        rw [historyTick, hsends.report]
        rfl
      rw [historyTick, hsends.metrics] at hmem'
      obtain ⟨metric, hmem, rfl⟩ := List.mem_map.mp hmem'
      have hrule := settleMetric_rule i.now_ms metric
        (pickMetric f (alignSnapshotToProfile m.local_profile snapshot) i.now_ms metric)
      rw [hhistory, hrule.key]
      exact (h.sent hcond hsends hmem (hrule.enabled ▸ hon')).1
  · refine ⟨⟨?_, ?_⟩, hkeys, ?_⟩
    · intro given metric v hgiven hready hmem hon hmode hv hcross
      have hsend := h.picks_crossing hcond hgiven hready hmem hon hmode hv hcross
      exact absurd (hempty given hgiven hready hlink) (picked_ne_nil_iff.mpr ⟨metric, hmem, hsend⟩)
    · intro k metric metric' hk hk' hne
      rw [hmetrics, hk, Option.some.injEq] at hk'
      subst hk'
      exact absurd rfl hne
    · intro metric hmem hon
      have hhistory : (historyTick f (m, history) i).2 = history := by
        rw [historyTick, hnone]
        rfl
      rw [historyTick, hmetrics] at hmem
      rw [hhistory]
      exact h.last metric hmem hon

/-- A tick that picks every metric meets the condition, when no first value comes before its deadline. -/
theorem EveryChangePicked.of_all_picked (hgiven : i.snapshot = some snapshot)
    (hall : ∀ metric ∈ m.push_session.metrics,
      (pickMetric f (alignSnapshotToProfile m.local_profile snapshot) i.now_ms metric).send = true)
    (hfirst : ∀ metric ∈ m.push_session.metrics, metric.has_last = false →
      metric.periodicDue i.now_ms = true)
    (hroom : sampleBytes (pickedSamples (m.picks f snapshot i.now_ms)) ≤
      reportRoom (pushCause (m.picks f snapshot i.now_ms))) : EveryChangePicked f m i := by
  refine ⟨fun _ metric _ _ _ hmem _ _ hhas _ => hfirst metric hmem hhas, ?_, ?_⟩
  · intro given hgiven' _ _ metric _ hmem _ _
    obtain rfl : snapshot = given := Option.some.inj (hgiven.symm.trans hgiven')
    exact .inl (hall metric hmem)
  · intro given hgiven' _
    obtain rfl : snapshot = given := Option.some.inj (hgiven.symm.trans hgiven')
    exact hroom

/-- The session that a start or an update makes is fresh. -/
theorem admitConfig_fresh {sender : MacAddress} {config : TelemetryPushConfig}
    {next : TelemetryPushSession} (h : m.admitConfig sender config = .ok next) :
    FreshSession (m.withSession next) := by
  have hfresh : (next.metrics.map (·.key)).Nodup ∧ ∀ metric ∈ next.metrics, metric.has_last = false := by
    refine admitMetric_run (I := fun metrics =>
      (metrics.map (·.key)).Nodup ∧ ∀ metric ∈ metrics, metric.has_last = false) ?_
      (by simp) (admitConfig_ok h).1
    rintro metrics metric key ⟨hdistinct, hunsent⟩ - hnew
    constructor
    · rw [List.map_append, List.nodup_append]
      refine ⟨hdistinct, by simp, fun k hk k' hk' => ?_⟩
      obtain ⟨ps, hps, rfl⟩ := List.mem_map.mp hk
      obtain rfl : k' = key := by simpa [startMetric] using hk'
      exact hnew ps hps
    · intro ps hps
      rcases List.mem_append.mp hps with hold | hlast
      · exact hunsent ps hold
      · rw [List.mem_singleton.mp hlast]
        rfl
  exact ⟨hfresh.1, hfresh.2⟩

theorem FreshSession.tracks (f : FloatOps) (h : FreshSession m) : Tracks f (m, []) := by
  refine ⟨h.distinct, fun metric hmem _ => ?_⟩
  rw [h.unsent metric hmem]
  rfl

theorem Tracks.run {s : TelemetryManager × PushHistory} (is : List PushTick) (h : Tracks f s)
    (hlinks : ∀ i ∈ is, i.link = true)
    (hcond : Admitted (historyTick f) (fun s i => EveryChangePicked f s.1 i) s is) :
    Admitted (historyTick f) (CrossingsReported f) s is := by
  induction is generalizing s with
  | nil => trivial
  | cons i is ih =>
    obtain ⟨hreported, hnext⟩ := h.tick hcond.1 (hlinks i List.mem_cons_self)
    exact ⟨hreported, ih hnext (fun j hj => hlinks j (List.mem_cons_of_mem i hj)) hcond.2⟩

end Ticks

end TelemetryManager

open TelemetryManager

/-- From a session that has just started, in every run of ticks whose reports all go out and that meet
the condition, every crossing is reported and no value is stored unsent. -/
theorem telemetry_crossings_reported (f : FloatOps) (m : TelemetryManager) (hfresh : FreshSession m)
    (is : List PushTick) (hlinks : ∀ i ∈ is, i.link = true)
    (hcond : Admitted (historyTick f) (fun s i => EveryChangePicked f s.1 i) (m, []) is) :
    Admitted (historyTick f) (CrossingsReported f) (m, []) is :=
  (hfresh.tracks f).run is hlinks hcond

/-- A hybrid metric whose first value comes at its deadline, and then changes by the threshold. -/
def hybridMetric : PushMetricState :=
  { key := ascii "t", mode := .Hybrid, interval_ms := 1000, min_gap_ms := 500, use_threshold := true,
    delta_abs := 0x3F800000, next_periodic_ms := 1000 }

theorem hybrid_crossings_reported :
    Admitted (historyTick smallFloats) (CrossingsReported smallFloats) (pushingSlave [hybridMetric], [])
      [sampledTick 1000 [("t", "1")], sampledTick 1600 [("t", "3")]] := by
  refine telemetry_crossings_reported smallFloats (pushingSlave [hybridMetric]) ⟨by decide, by decide⟩ _
    (by decide) ⟨?_, ?_, trivial⟩
  · exact .of_all_picked rfl (by decide +kernel) (by decide +kernel) (by decide +kernel)
  · exact .of_all_picked rfl (by decide +kernel) (by decide +kernel) (by decide +kernel)

/-- The first value of a metric that is reported on change only is never reported. -/
theorem first_value_unreported :
    ¬ Admitted (historyTick smallFloats) (CrossingsReported smallFloats)
      (pushingSlave [{ hybridMetric with mode := .OnChange }], []) [sampledTick 1000 [("t", "1")]] := by
  rintro ⟨htick, -⟩
  obtain ⟨r, hsent, -⟩ := htick.reported [{ key := ascii "t", value := ascii "1" }]
    { hybridMetric with mode := .OnChange } 0x3F800000 rfl (by decide +kernel) List.mem_cons_self rfl rfl
    (by decide +kernel) (by intro sent_ms last hlast; cases hlast)
  have hnone : ((pushingSlave [{ hybridMetric with mode := .OnChange }]).onTick smallFloats
      (sampledTick 1000 [("t", "1")])).1 = none := by decide +kernel
  rw [hnone] at hsent
  cases hsent

end EspNowLink
