import EspNowLink.Telemetry.PushTicks

open Framework

namespace EspNowLink

/-- What a command sets of a metric; ticks leave it alone. -/
structure SameRule (m m' : PushMetricState) : Prop where
  key : m'.key = m.key
  enabled : m'.enabled = m.enabled
  mode : m'.mode = m.mode
  interval_ms : m'.interval_ms = m.interval_ms
  min_gap_ms : m'.min_gap_ms = m.min_gap_ms
  use_threshold : m'.use_threshold = m.use_threshold
  delta_abs : m'.delta_abs = m.delta_abs

namespace SameRule

variable {m t u : PushMetricState}

protected theorem refl (m : PushMetricState) : SameRule m m := ⟨rfl, rfl, rfl, rfl, rfl, rfl, rfl⟩

end SameRule

theorem settleMetric_rule (now_ms : UInt32) (m : PushMetricState) (p : MetricPick) :
    SameRule m (settleMetric now_ms m p) := by
  unfold settleMetric
  split
  · exact .refl m
  · dsimp only
    split
    · split <;> exact ⟨rfl, rfl, rfl, rfl, rfl, rfl, rfl⟩
    · split <;> split <;> exact ⟨rfl, rfl, rfl, rfl, rfl, rfl, rfl⟩

/-- A settled metric's deadline: an enabled periodic metric gets a new one. -/
theorem settleMetric_deadline (now_ms : UInt32) (m : PushMetricState) (p : MetricPick) :
    (settleMetric now_ms m p).next_periodic_ms =
      if m.enabled && m.periodicMode then now_ms + m.interval_ms else m.next_periodic_ms := by
  unfold settleMetric
  cases hon : m.enabled with
  | false => simp
  | true =>
    cases hmode : m.periodicMode with
    | false => simp; split <;> [rfl; (split <;> rfl)]
    | true => simp; split <;> [rfl; (split <;> rfl)]

/-- The report carries a sample under the key. -/
def PushReport.Contains (r : PushReport) (key : Bytes) : Prop := ∃ s ∈ r.samples, s.key = key

namespace TelemetryManager

/-- A tick moves a metric's deadline only with a report that contains the metric. -/
def DeadlinesFollow (f : FloatOps) (m : TelemetryManager) (i : PushTick) : Prop :=
  ∀ (k : Nat) (metric metric' : PushMetricState), m.push_session.metrics[k]? = some metric →
    (m.afterTick f i).push_session.metrics[k]? = some metric' →
    metric'.next_periodic_ms ≠ metric.next_periodic_ms →
    ∃ r, (m.onTick f i).1 = some r ∧ r.Contains metric.key

/-- The reports that a run of ticks sends. -/
def reportsOf (f : FloatOps) : TelemetryManager → List PushTick → List PushReport
  | _, [] => []
  | m, i :: is => (m.onTick f i).1.toList ++ reportsOf f (m.afterTick f i) is

/-- A metric that no report of a run contains keeps its deadline, and so stays due. -/
def NoneStarved (f : FloatOps) (m : TelemetryManager) (is : List PushTick) : Prop :=
  ∀ (k : Nat) (metric : PushMetricState), m.push_session.metrics[k]? = some metric →
    (∀ r ∈ reportsOf f m is, ¬ r.Contains metric.key) →
    ∃ metric' : PushMetricState, (is.foldl (afterTick f) m).push_session.metrics[k]? = some metric' ∧
      metric'.next_periodic_ms = metric.next_periodic_ms

/-- The metric, or another of its key, is picked at `now_ms`, and the samples picked up to it fit. -/
def PickedInRoom (f : FloatOps) (m : TelemetryManager) (snapshot : List TelemetrySample)
    (now_ms : UInt32) (metric : PushMetricState) : Prop :=
  ∃ (j : Nat) (other : PushMetricState), m.push_session.metrics[j]? = some other ∧ other.key = metric.key ∧
    (pickMetric f (alignSnapshotToProfile m.local_profile snapshot) now_ms other).send = true ∧
    sampleBytes (pickedSamples ((m.picks f snapshot now_ms).take (j + 1))) ≤
      reportRoom (pushCause (m.picks f snapshot now_ms))

/-- When a tick has something to send, and a frame gets out, every enabled periodic metric whose deadline
is not the new one already is picked and fits. -/
def EveryDeadlinePicked (f : FloatOps) (m : TelemetryManager) (i : PushTick) : Prop :=
  ∀ snapshot, i.snapshot = some snapshot → m.pushReady i.now_ms = true → i.link = true →
    (∃ metric ∈ m.push_session.metrics,
      (pickMetric f (alignSnapshotToProfile m.local_profile snapshot) i.now_ms metric).send = true) →
    ∀ metric ∈ m.push_session.metrics, metric.enabled = true → metric.periodicMode = true →
      metric.next_periodic_ms ≠ i.now_ms + metric.interval_ms → m.PickedInRoom f snapshot i.now_ms metric

section Ticks

variable {f : FloatOps} {m : TelemetryManager} {i : PushTick} {snapshot : List TelemetrySample}
  {now_ms : UInt32}

theorem picks_getElem? (k : Nat) : (m.picks f snapshot now_ms)[k]? =
    (m.push_session.metrics[k]?).map
      (pickMetric f (alignSnapshotToProfile m.local_profile snapshot) now_ms) :=
  List.getElem?_map ..

theorem picked_ne_nil_iff : pickedSamples (m.picks f snapshot now_ms) ≠ [] ↔
    ∃ metric ∈ m.push_session.metrics,
      (pickMetric f (alignSnapshotToProfile m.local_profile snapshot) now_ms metric).send = true := by
  constructor
  · intro h
    obtain ⟨s, hs⟩ := List.exists_mem_of_ne_nil _ h
    obtain ⟨xs, p, ys, hpicks, -, hsend, -⟩ := mem_pickedSamples hs
    have hp : p ∈ m.picks f snapshot now_ms := by simp [hpicks]
    obtain ⟨metric, hmetric, rfl⟩ := List.mem_map.mp hp
    exact ⟨metric, hmetric, hsend⟩
  · rintro ⟨metric, hmetric, hsend⟩
    obtain ⟨xs, ys, hsplit⟩ := List.append_of_mem (List.mem_map_of_mem hmetric)
    obtain ⟨-, -, sample, -, hsample⟩ := pickMetric_send hsend
    obtain ⟨s, hs, -⟩ := addPicked_key (pickedSamples xs) hsample hsend
    have hpre := foldl_addPicked_extends (addPicked (pickedSamples xs)
      (pickMetric f (alignSnapshotToProfile m.local_profile snapshot) now_ms metric)) ys
    have hmem : s ∈ pickedSamples (m.picks f snapshot now_ms) := by
      unfold picks
      rw [hsplit, pickedSamples_append]
      exact hpre.subset hs
    exact List.ne_nil_of_mem hmem

/-- What fits in the report is what is picked in its room. -/
theorem fitting_key_iff (metric : PushMetricState) :
    (∃ s ∈ fittingSamples (reportRoom (pushCause (m.picks f snapshot now_ms)))
      (pickedSamples (m.picks f snapshot now_ms)), s.key = metric.key) ↔
    m.PickedInRoom f snapshot now_ms metric := by
  generalize hroom : reportRoom (pushCause (m.picks f snapshot now_ms)) = room
  constructor
  · rintro ⟨s, hs, hkey⟩
    have hfit := fittingSamples_prefix room (pickedSamples (m.picks f snapshot now_ms))
    obtain ⟨xs, p, ys, hpicks, hsample, hsend, hadd, hnew⟩ := mem_pickedSamples (hfit.subset hs)
    have hp : (m.picks f snapshot now_ms)[xs.length]? = some p := by simp [hpicks]
    rw [picks_getElem?, Option.map_eq_some_iff] at hp
    obtain ⟨other, hother, rfl⟩ := hp
    have htake : (m.picks f snapshot now_ms).take (xs.length + 1) =
        xs ++ [pickMetric f (alignSnapshotToProfile m.local_profile snapshot) now_ms other] := by
      rw [hpicks, List.take_length_add_append]
      rfl
    refine ⟨xs.length, other, hother, ?_, hsend, ?_⟩
    · obtain ⟨-, hfind⟩ := pickMetric_sample hsample
      rw [← (findSample_key hfind).2, hkey]
    · -- the kept samples reach as far as `s`, which is the last of those up to it
      have hupto := pickedSamples_take (m.picks f snapshot now_ms) (xs.length + 1)
      have hshort : pickedSamples ((m.picks f snapshot now_ms).take (xs.length + 1)) <+:
          fittingSamples room (pickedSamples (m.picks f snapshot now_ms)) := by
        rcases List.prefix_or_prefix_of_prefix hupto hfit with h | h
        · exact h
        · rw [htake, hadd] at h ⊢
          rcases List.prefix_concat_iff.mp h with heq | hshorter
          · rw [heq]
          · exact absurd (hshorter.subset hs) hnew
      rw [hroom]
      exact (sampleBytes_mono hshort).trans (sampleBytes_fittingSamples _ _)
  · rintro ⟨j, other, hother, hkey, hsend, hbytes⟩
    rw [hroom] at hbytes
    have hupto := pickedSamples_take (m.picks f snapshot now_ms) (j + 1)
    obtain ⟨-, -, sample, hfind, hsample⟩ := pickMetric_send hsend
    have hj : (m.picks f snapshot now_ms)[j]? = some
        (pickMetric f (alignSnapshotToProfile m.local_profile snapshot) now_ms other) := by
      rw [picks_getElem?, hother]
      rfl
    have htake : (m.picks f snapshot now_ms).take (j + 1) = (m.picks f snapshot now_ms).take j ++
        [pickMetric f (alignSnapshotToProfile m.local_profile snapshot) now_ms other] := by
      rw [List.take_add_one, hj]
      rfl
    obtain ⟨s, hs, hskey⟩ := addPicked_key
      (pickedSamples ((m.picks f snapshot now_ms).take j)) hsample hsend
    refine ⟨s, (prefix_fittingSamples hupto hbytes).subset ?_, ?_⟩
    · rw [htake, pickedSamples_append]
      exact hs
    · rw [hskey, (findSample_key hfind).2, hkey]

/-- A tick that sends moves exactly the deadlines of the enabled periodic metrics. -/
theorem Sends.metric {r : PushReport} (h : Sends f m i snapshot r) {k : Nat} {metric : PushMetricState}
    (hk : m.push_session.metrics[k]? = some metric) :
    (m.afterTick f i).push_session.metrics[k]? = some (settleMetric i.now_ms metric
      (pickMetric f (alignSnapshotToProfile m.local_profile snapshot) i.now_ms metric)) := by
  rw [h.settled, TelemetryPushSession.noteSent, List.getElem?_zipWith, hk, picks_getElem?, hk]
  rfl

theorem onTick_deadlines_iff : DeadlinesFollow f m i ↔ EveryDeadlinePicked f m i := by
  rcases onTick_cases f m i with ⟨given, r, hsends⟩ | ⟨hnone, hmetrics, hempty⟩
  · have hmoved (k : Nat) (metric : PushMetricState) (hk : m.push_session.metrics[k]? = some metric) :
        (∃ metric', (m.afterTick f i).push_session.metrics[k]? = some metric' ∧
          metric'.next_periodic_ms ≠ metric.next_periodic_ms) ↔
        metric.enabled = true ∧ metric.periodicMode = true ∧
          metric.next_periodic_ms ≠ i.now_ms + metric.interval_ms := by
      rw [hsends.metric hk]
      simp only [Option.some.injEq, exists_eq_left', settleMetric_deadline]
      cases metric.enabled <;> cases metric.periodicMode <;> simp [eq_comm]
    have hcontains (metric : PushMetricState) :
        r.Contains metric.key ↔ m.PickedInRoom f given i.now_ms metric := by
      rw [← fitting_key_iff, ← hsends.samples]
      rfl
    constructor
    · intro h snapshot hgiven _ _ _ metric hmem hon hmode hnew
      obtain rfl : given = snapshot := Option.some.inj (hsends.given.symm.trans hgiven)
      obtain ⟨k, hk⟩ := List.getElem?_of_mem hmem
      obtain ⟨metric', hk', hne⟩ := (hmoved k metric hk).mpr ⟨hon, hmode, hnew⟩
      obtain ⟨r', hr', hin⟩ := h k metric metric' hk hk' hne
      obtain rfl : r = r' := Option.some.inj (hsends.report.symm.trans hr')
      exact (hcontains metric).mp hin
    · intro h k metric metric' hk hk' hne
      obtain ⟨hon, hmode, hnew⟩ := (hmoved k metric hk).mp ⟨metric', hk', hne⟩
      have hsome := picked_ne_nil_iff.mp hsends.picked
      have hroom := h given hsends.given hsends.ready hsends.link hsome metric
        (List.mem_of_getElem? hk) hon hmode hnew
      exact ⟨r, hsends.report, (hcontains metric).mpr hroom⟩
  · constructor
    · intro _ snapshot hgiven hready hlink hsome
      exact absurd (hempty snapshot hgiven hready hlink) (picked_ne_nil_iff.mpr hsome)
    · intro _ k metric metric' hk hk' hne
      rw [hmetrics, hk] at hk'
      exact absurd (congrArg _ (Option.some.inj hk').symm) hne

/-- Every metric of a session is still there after a tick, under its rule. -/
theorem onTick_rule {k : Nat} {metric : PushMetricState} (hk : m.push_session.metrics[k]? = some metric) :
    ∃ metric', (m.afterTick f i).push_session.metrics[k]? = some metric' ∧ SameRule metric metric' := by
  rcases onTick_cases f m i with ⟨given, r, hsends⟩ | ⟨-, hmetrics, -⟩
  · exact ⟨_, hsends.metric hk, settleMetric_rule _ _ _⟩
  · exact ⟨metric, by rw [hmetrics, hk], .refl metric⟩

end Ticks

/-- Where deadlines follow reports, a metric is never passed over. -/
theorem noneStarved_of_follow {f : FloatOps} {m : TelemetryManager} {is : List PushTick}
    (h : Admitted (afterTick f) (DeadlinesFollow f) m is) : NoneStarved f m is := by
  induction is generalizing m with
  | nil => exact fun k metric hk _ => ⟨metric, hk, rfl⟩
  | cons i is ih =>
    intro k metric hk hunreported
    obtain ⟨metric₁, hk₁, hrule⟩ := onTick_rule (f := f) (i := i) hk
    have hkept : metric₁.next_periodic_ms = metric.next_periodic_ms := by
      by_contra hne
      obtain ⟨r, hr, hin⟩ := h.1 k metric metric₁ hk hk₁ hne
      refine hunreported r ?_ hin
      simp [reportsOf, hr]
    obtain ⟨metric₂, hk₂, hsame⟩ := ih h.2 k metric₁ hk₁ fun r hr hin =>
      hunreported r (List.mem_append_right _ hr) (hrule.key ▸ hin)
    exact ⟨metric₂, hk₂, hsame.trans hkept⟩

end TelemetryManager

/-- In a run of ticks deadlines follow the reports, and no metric is starved, exactly when in every tick
that sends the enabled periodic metrics are all picked, and in room. -/
theorem telemetry_deadlines_follow_iff (f : FloatOps) (m : TelemetryManager) (is : List PushTick) :
    Admitted (TelemetryManager.afterTick f) (TelemetryManager.DeadlinesFollow f) m is ∧
        TelemetryManager.NoneStarved f m is ↔
      Admitted (TelemetryManager.afterTick f) (TelemetryManager.EveryDeadlinePicked f) m is := by
  have hticks : Admitted (TelemetryManager.afterTick f) (TelemetryManager.DeadlinesFollow f) m is ↔
      Admitted (TelemetryManager.afterTick f) (TelemetryManager.EveryDeadlinePicked f) m is := by
    induction is generalizing m with
    | nil => exact Iff.rfl
    | cons i is ih => exact and_congr TelemetryManager.onTick_deadlines_iff (ih _)
  rw [← hticks]
  exact and_iff_left_of_imp TelemetryManager.noneStarved_of_follow

/-- The floats `0.0` to `3.0` as numbers. -/
def smallFloat (v : Float32Bits) : Int :=
  if v = 0x3F800000 then 1 else if v = 0x40000000 then 2 else if v = 0x40400000 then 3 else 0

/-- Float operations on the floats `0.0` to `3.0`. -/
def smallFloats : FloatOps where
  parseSampleFloat text :=
    if text = ascii "0" then some 0
    else if text = ascii "1" then some 0x3F800000
    else if text = ascii "2" then some 0x40000000
    else if text = ascii "3" then some 0x40400000
    else none
  reaches value last threshold :=
    decide (smallFloat threshold ≤ |smallFloat value - smallFloat last|)

/-- A paired slave that pushes the metrics to its master. -/
def pushingSlave (metrics : List PushMetricState) : TelemetryManager where
  local_role := .Slave
  local_mac := Vector.replicate 6 2
  paired_peer := some (Vector.replicate 6 1)
  provider := some ⟨none, none⟩
  local_profile := none
  store := none
  push_session := { enabled := true, master := Vector.replicate 6 1, has_master := true, metrics := metrics }
  telemetry_push_seq := 1
  current_now_ms := 0

def periodicMetric (key : String) (interval_ms : UInt32) : PushMetricState :=
  { key := ascii key, mode := .Periodic, interval_ms := interval_ms, next_periodic_ms := interval_ms }

/-- A tick at which the provider gives every listed sample. -/
def sampledTick (now_ms : UInt32) (samples : List (String × String)) : PushTick :=
  ⟨now_ms, some (samples.map fun s => { key := ascii s.1, value := ascii s.2 }), true⟩

/-- A metric reported every second keeps one of three seconds from ever being reported. -/
theorem slow_metric_starved :
    ¬ (Admitted (TelemetryManager.afterTick smallFloats) (TelemetryManager.DeadlinesFollow smallFloats)
        (pushingSlave [periodicMetric "fast" 1000, periodicMetric "slow" 3000])
        [sampledTick 1000 [("fast", "1"), ("slow", "2")], sampledTick 2000 [("fast", "1"), ("slow", "2")],
          sampledTick 3000 [("fast", "1"), ("slow", "2")]] ∧
      TelemetryManager.NoneStarved smallFloats
        (pushingSlave [periodicMetric "fast" 1000, periodicMetric "slow" 3000])
        [sampledTick 1000 [("fast", "1"), ("slow", "2")], sampledTick 2000 [("fast", "1"), ("slow", "2")],
          sampledTick 3000 [("fast", "1"), ("slow", "2")]]) := by
  rintro ⟨-, hstarved⟩
  obtain ⟨metric', hk, hdeadline⟩ := hstarved 1 (periodicMetric "slow" 3000) rfl (by
    unfold PushReport.Contains
    decide +kernel)
  have hmoved : ((([sampledTick 1000 [("fast", "1"), ("slow", "2")],
      sampledTick 2000 [("fast", "1"), ("slow", "2")], sampledTick 3000 [("fast", "1"), ("slow", "2")]].foldl
      (TelemetryManager.afterTick smallFloats)
      (pushingSlave [periodicMetric "fast" 1000, periodicMetric "slow" 3000])).push_session.metrics[1]?).map
        (·.next_periodic_ms)) = some 6000 := by
    decide +kernel
  rw [hk, Option.map_some, hdeadline] at hmoved
  exact absurd hmoved (by decide)

end EspNowLink
