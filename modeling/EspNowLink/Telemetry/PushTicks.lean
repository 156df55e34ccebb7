import EspNowLink.Framework.Runs
import EspNowLink.Telemetry.Report

open Framework

namespace EspNowLink

section Picks

variable {f : FloatOps} {snapshot : List TelemetrySample} {now_ms : UInt32} {m : PushMetricState}

theorem findSample_key {key : Bytes} {sample : TelemetrySample}
    (h : findSample snapshot key = some sample) : sample ∈ snapshot ∧ sample.key = key := by
  unfold findSample at h
  split at h
  · cases h
  · have hkey := List.find?_some h
    exact ⟨List.mem_of_find?_eq_some h, by simpa using hkey⟩

/-- A metric that is to be sent is enabled, due, and has a sample. -/
theorem pickMetric_send (h : (pickMetric f snapshot now_ms m).send = true) :
    m.enabled = true ∧ m.anyDue now_ms = true ∧ ∃ sample, findSample snapshot m.key = some sample ∧
      (pickMetric f snapshot now_ms m).sample = some sample := by
  unfold pickMetric at h ⊢
  cases hon : m.enabled with
  | false => simp [hon, MetricPick.send] at h
  | true =>
    rw [hon] at h
    cases hfind : findSample snapshot m.key with
    | none => simp [hfind, MetricPick.send] at h
    | some sample =>
      refine ⟨rfl, ?_, sample, rfl, rfl⟩
      simp only [hfind, Bool.not_true, Bool.false_eq_true, if_false, MetricPick.send,
        Bool.or_eq_true, Bool.and_eq_true] at h
      unfold PushMetricState.anyDue
      rcases h with hperiodic | hcrossed
      · simp [hon, hperiodic]
      · simp [hon, hcrossed.1.1, hcrossed.1.2]

theorem pickMetric_sample {sample : TelemetrySample}
    (h : (pickMetric f snapshot now_ms m).sample = some sample) :
    m.enabled = true ∧ findSample snapshot m.key = some sample := by
  unfold pickMetric at h
  cases hon : m.enabled with
  | false => simp [hon] at h
  | true =>
    rw [hon] at h
    cases hfind : findSample snapshot m.key with
    | none => simp [hfind] at h
    | some s =>
      simp only [hfind, Bool.not_true, Bool.false_eq_true, if_false] at h
      exact ⟨rfl, h⟩

theorem addPicked_extends (samples : List TelemetrySample) (p : MetricPick) :
    samples <+: addPicked samples p := by
  unfold addPicked
  split
  · exact List.prefix_refl _
  · split
    · exact List.prefix_refl _
    · exact List.prefix_append _ _

theorem foldl_addPicked_extends (samples : List TelemetrySample) (picks : List MetricPick) :
    samples <+: picks.foldl addPicked samples := by
  induction picks generalizing samples with
  | nil => exact List.prefix_refl _
  | cons p picks ih => exact (addPicked_extends samples p).trans (ih _)

theorem pickedSamples_append (xs ys : List MetricPick) :
    pickedSamples (xs ++ ys) = ys.foldl addPicked (pickedSamples xs) := List.foldl_append

theorem pickedSamples_prefix (xs ys : List MetricPick) :
    pickedSamples xs <+: pickedSamples (xs ++ ys) := by
  rw [pickedSamples_append]
  exact foldl_addPicked_extends _ _

theorem pickedSamples_take (picks : List MetricPick) (n : Nat) :
    pickedSamples (picks.take n) <+: pickedSamples picks := by
  have hpre := pickedSamples_prefix (picks.take n) (picks.drop n)
  rwa [List.take_append_drop] at hpre

/-- What is picked goes among the samples under its key. -/
theorem addPicked_key (samples : List TelemetrySample) {p : MetricPick} {sample : TelemetrySample}
    (hsample : p.sample = some sample) (hsend : p.send = true) :
    ∃ s ∈ addPicked samples p, s.key = sample.key := by
  unfold addPicked
  rw [hsample, hsend]
  by_cases hdup : samples.any (·.key == sample.key) = true
  · obtain ⟨s, hs, hkey⟩ := List.any_eq_true.mp hdup
    refine ⟨s, ?_, by simpa using hkey⟩
    simpa [hdup] using hs
  · refine ⟨sample, ?_, rfl⟩
    simp [hdup]

/-- A sample among the picked ones was picked as the first of its key. -/
theorem mem_pickedSamples {picks : List MetricPick} {s : TelemetrySample} (h : s ∈ pickedSamples picks) :
    ∃ xs p ys, picks = xs ++ p :: ys ∧ p.sample = some s ∧ p.send = true ∧
      pickedSamples (xs ++ [p]) = pickedSamples xs ++ [s] ∧ s ∉ pickedSamples xs := by
  induction picks using List.reverseRecOn with
  | nil => cases h
  | append_singleton xs p ih =>
    by_cases hold : s ∈ pickedSamples xs
    · obtain ⟨ys, q, zs, rfl, hrest⟩ := ih hold
      exact ⟨ys, q, zs ++ [p], by simp, hrest⟩
    · have hstep : pickedSamples (xs ++ [p]) = addPicked (pickedSamples xs) p := pickedSamples_append xs [p]
      rw [hstep] at h
      refine ⟨xs, p, [], rfl, ?_⟩
      rw [hstep]
      unfold addPicked at h ⊢
      cases hsample : p.sample with
      | none =>
        rw [hsample] at h
        exact absurd h hold
      | some sample =>
        rw [hsample] at h
        dsimp only at h ⊢
        split at h
        · exact absurd h hold
        · rename_i hadd
          rw [if_neg hadd]
          obtain rfl : s = sample := by
            rcases List.mem_append.mp h with hmem | hmem
            · exact absurd hmem hold
            · exact List.mem_singleton.mp hmem
          simp only [Bool.or_eq_true, not_or, Bool.not_eq_true, Bool.not_eq_false'] at hadd
          exact ⟨rfl, hadd.1, rfl, hold⟩

end Picks

theorem pushCause_length (picks : List MetricPick) :
    (ascii (pushCause picks)).isEmpty = false ∧ (ascii (pushCause picks)).length ≤ 200 := by
  unfold pushCause
  split
  · decide
  · split
    · decide
    · decide

/-- One tick: the time, what the provider gives then, and whether a frame gets out. -/
structure PushTick where
  now_ms : UInt32
  snapshot : Option (List TelemetrySample)
  link : Bool

namespace TelemetryManager

def onTick (f : FloatOps) (m : TelemetryManager) (i : PushTick) : Option PushReport × TelemetryManager :=
  ({ m with current_now_ms := i.now_ms } : TelemetryManager).tickTelemetryPush f i.now_ms i.snapshot i.link

def afterTick (f : FloatOps) (m : TelemetryManager) (i : PushTick) : TelemetryManager := (m.onTick f i).2

/-- A tick that sends: the report carries the picked samples that fit, and the metrics are settled. -/
structure Sends (f : FloatOps) (m : TelemetryManager) (i : PushTick) (snapshot : List TelemetrySample)
    (r : PushReport) : Prop where
  ready : m.pushReady i.now_ms = true
  given : i.snapshot = some snapshot
  link : i.link = true
  picked : pickedSamples (m.picks f snapshot i.now_ms) ≠ []
  report : (m.onTick f i).1 = some r
  samples : r.samples = fittingSamples (reportRoom (pushCause (m.picks f snapshot i.now_ms)))
    (pickedSamples (m.picks f snapshot i.now_ms))
  settled : (m.afterTick f i).push_session =
    m.push_session.noteSent i.now_ms (m.picks f snapshot i.now_ms)

theorem noteSendFailure_metrics (s : TelemetryPushSession) (now_ms : UInt32) :
    (s.noteSendFailure now_ms).metrics = s.metrics := by
  unfold TelemetryPushSession.noteSendFailure
  split <;> rfl

theorem buildReply_some (picks : List MetricPick) :
    ∃ payload, buildTelemetrySnapshotReply (pickedSamples picks) (pushCause picks) = some payload := by
  obtain ⟨hcause, hlen⟩ := pushCause_length picks
  obtain ⟨mark, -, hpayload, -⟩ := reply_payload (pickedSamples picks) hcause hlen
  exact ⟨_, hpayload⟩

/-- Where a sample is picked, a metric is due and the snapshot is not empty. -/
theorem due_of_picked {f : FloatOps} {m : TelemetryManager} {snapshot : List TelemetrySample}
    {now_ms : UInt32} (h : pickedSamples (m.picks f snapshot now_ms) ≠ []) :
    m.push_session.metrics.any (·.anyDue now_ms) = true ∧
      (alignSnapshotToProfile m.local_profile snapshot).isEmpty = false := by
  obtain ⟨s, hs⟩ := List.exists_mem_of_ne_nil _ h
  obtain ⟨xs, p, ys, hpicks, -, hsend, -⟩ := mem_pickedSamples hs
  have hp : p ∈ m.picks f snapshot now_ms := by simp [hpicks]
  obtain ⟨metric, hmetric, rfl⟩ := List.mem_map.mp hp
  obtain ⟨-, hdue, sample, hfind, -⟩ := pickMetric_send hsend
  refine ⟨List.any_eq_true.mpr ⟨metric, hmetric, hdue⟩, ?_⟩
  rw [List.isEmpty_eq_false_iff]
  exact List.ne_nil_of_mem (findSample_key hfind).1

theorem sendPicked_link (m : TelemetryManager) (now_ms : UInt32) (picks : List MetricPick) :
    ∃ r, (m.sendPicked now_ms picks true).1 = some r ∧
      r.samples = fittingSamples (reportRoom (pushCause picks)) (pickedSamples picks) ∧
      (m.sendPicked now_ms picks true).2.push_session = m.push_session.noteSent now_ms picks := by
  obtain ⟨hcause, hlen⟩ := pushCause_length picks
  obtain ⟨payload, hpayload⟩ := buildReply_some picks
  unfold sendPicked
  rw [hpayload]
  exact ⟨_, rfl, reply_samples hcause hlen hpayload, rfl⟩

theorem sendPicked_noLink (m : TelemetryManager) (now_ms : UInt32) (picks : List MetricPick) :
    (m.sendPicked now_ms picks false).1 = none ∧
      (m.sendPicked now_ms picks false).2.push_session.metrics = m.push_session.metrics := by
  obtain ⟨payload, hpayload⟩ := buildReply_some picks
  unfold sendPicked
  rw [hpayload]
  exact ⟨rfl, noteSendFailure_metrics _ _⟩

/-- A tick either sends a report or leaves the metrics alone. -/
theorem onTick_cases (f : FloatOps) (m : TelemetryManager) (i : PushTick) :
    (∃ snapshot r, Sends f m i snapshot r) ∨
      ((m.onTick f i).1 = none ∧ (m.afterTick f i).push_session.metrics = m.push_session.metrics ∧
        ∀ snapshot, i.snapshot = some snapshot → m.pushReady i.now_ms = true → i.link = true →
          pickedSamples (m.picks f snapshot i.now_ms) = []) := by
  obtain ⟨now_ms, given, link⟩ := i
  let n : TelemetryManager := { m with current_now_ms := now_ms }
  have hquiet (h : n.tickTelemetryPush f now_ms given link = (none, n))
      (hnone : ∀ snapshot, given = some snapshot → m.pushReady now_ms = true → link = true →
        pickedSamples (m.picks f snapshot now_ms) = []) :
      (m.onTick f ⟨now_ms, given, link⟩).1 = none ∧
        (m.afterTick f ⟨now_ms, given, link⟩).push_session.metrics = m.push_session.metrics ∧
        ∀ snapshot, given = some snapshot → m.pushReady now_ms = true → link = true →
          pickedSamples (m.picks f snapshot now_ms) = [] := by
    have hout : m.onTick f ⟨now_ms, given, link⟩ = (none, n) := h
    refine ⟨by rw [hout], ?_, hnone⟩
    rw [afterTick, hout]
  by_cases hready : n.pushReady now_ms = true
  · cases given with
    | none =>
      refine .inr (hquiet ?_ (fun snapshot h => by cases h))
      unfold tickTelemetryPush
      rw [if_neg (by simp [hready])]
      split <;> rfl
    | some snapshot =>
      by_cases hpicked : pickedSamples (n.picks f snapshot now_ms) = []
      · refine .inr (hquiet ?_ ?_)
        · unfold tickTelemetryPush
          rw [if_neg (by simp [hready])]
          simp [hpicked]
        · intro given hgiven _ _
          obtain rfl := Option.some.inj hgiven
          exact hpicked
      · obtain ⟨hdue, hsome⟩ := due_of_picked hpicked
        have hsends : m.onTick f ⟨now_ms, some snapshot, link⟩ =
            n.sendPicked now_ms (n.picks f snapshot now_ms) link := by
          change n.tickTelemetryPush f now_ms (some snapshot) link = _
          unfold tickTelemetryPush
          rw [if_neg (by simp [hready]), if_neg (by simp [hdue])]
          simp [hsome, hpicked]
        cases link with
        | true =>
          obtain ⟨r, hr, hsamples, hsession⟩ := n.sendPicked_link now_ms (n.picks f snapshot now_ms)
          refine .inl ⟨snapshot, r, hready, rfl, rfl, hpicked, ?_, hsamples, ?_⟩
          · rw [hsends, hr]
          · rw [afterTick, hsends]
            exact hsession
        | false =>
          obtain ⟨hnone, hmetrics⟩ := n.sendPicked_noLink now_ms (n.picks f snapshot now_ms)
          refine .inr ⟨?_, ?_, fun _ _ _ h => by cases h⟩
          · rw [hsends, hnone]
          · rw [afterTick, hsends]
            exact hmetrics
  · refine .inr (hquiet ?_ (fun snapshot _ h => absurd h hready))
    unfold tickTelemetryPush
    rw [if_pos (by simpa using hready)]

end TelemetryManager

end EspNowLink
