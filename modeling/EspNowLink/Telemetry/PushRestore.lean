import EspNowLink.Telemetry.PushAtomicity
import EspNowLink.Telemetry.PushBlob

open Framework

namespace EspNowLink

open PairingStore

/-- A command with the time and the provider's answers at which it comes, a tick, or a reboot with the restore for a
master. -/
inductive StreamInput where
  | command (now_ms : UInt32) (answers : TelemetryProvider) (sender : MacAddress) (cmd : TelemetryPushCommand)
  | tick (i : PushTick)
  | reboot (now_ms : UInt32) (answers : TelemetryProvider) (master : MacAddress)

namespace TelemetryManager

/-- The manager at another time, its provider with other answers. -/
def atTime (m : TelemetryManager) (now_ms : UInt32) (answers : TelemetryProvider) : TelemetryManager :=
  { m with current_now_ms := now_ms, provider := m.provider.map fun _ => answers }

/-- The device after a reboot: its store has an empty cache over the backend there was. -/
def restart (m : TelemetryManager) (now_ms : UInt32) (answers : TelemetryProvider) : TelemetryManager :=
  { m.atTime now_ms answers with
    store := m.store.map fun s => PairingStore.fresh s.config s.has_backend s.backend
    push_session := {}
    telemetry_push_seq := 1 }

/-- The blob that the backend holds for a master's session. -/
def storedConfig (m : TelemetryManager) (master : MacAddress) : Option Bytes :=
  m.store.bind fun s => s.backend.blobs (s.makeMetaKey m.local_mac master kTelemetryMetaSlot)

/-- The checks that a restore makes of a blob: its version, its length, that every field is there, and
that an enabled session keeps a metric that is known. -/
def ConfigPasses (m : TelemetryManager) (master : MacAddress) (blob : Bytes) : Prop :=
  15 ≤ blob.length ∧ blob.head? = some 1 ∧ ∃ s, pushConfigOfBlob master blob = some s ∧
    (s.enabled = true → m.restoredMetrics s.metrics ≠ [])

/-- The one backend read of a restore succeeds, and a device without a profile has a provider that knows the keys of
the session. -/
def CanRestore (m : TelemetryManager) (now_ms : UInt32) (answers : TelemetryProvider) : Prop :=
  (∀ s ∈ m.store, s.backend.fate s.backend.calls = true) ∧
  (m.local_profile = none → ∀ metric ∈ m.push_session.metrics,
    (m.restart now_ms answers).isKnownTelemetryKey metric.key = true)

instance (m : TelemetryManager) (now_ms : UInt32) (answers : TelemetryProvider) :
    Decidable (m.CanRestore now_ms answers) := by
  unfold CanRestore
  infer_instance

def pushStep (f : FloatOps) (m : TelemetryManager) : StreamInput → TelemetryManager
  | .command now_ms answers sender cmd => ((m.atTime now_ms answers).handlePushCommand sender cmd).2
  | .tick i => m.afterTick f i
  | .reboot now_ms answers master => ((m.restart now_ms answers).restoreTelemetryPushConfig master).2

/-- A reboot comes with the restore for the master of the session; without a session there is nothing to restore. -/
def Restores (m : TelemetryManager) (now_ms : UInt32) (answers : TelemetryProvider) (master : MacAddress) : Prop :=
  if m.push_session.has_master = true then master = m.push_session.master ∧ m.CanRestore now_ms answers
  else ∀ blob, (m.restart now_ms answers).storedConfig master = some blob →
    ¬ (m.restart now_ms answers).ConfigPasses master blob

theorem restores_session {m : TelemetryManager} {now_ms : UInt32} {answers : TelemetryProvider} {master : MacAddress}
    (hmaster : m.push_session.has_master = true) (hsame : master = m.push_session.master)
    (hcan : m.CanRestore now_ms answers) : m.Restores now_ms answers master := by
  rw [Restores, if_pos hmaster]
  exact ⟨hsame, hcan⟩

/-- A command is answered with an acknowledgement. -/
def PushAccepted (m : TelemetryManager) : StreamInput → Prop
  | .command now_ms answers sender cmd =>
    ∃ message, ((m.atTime now_ms answers).handlePushCommand sender cmd).1 = some ⟨true, message⟩
  | .tick _ => True
  | .reboot now_ms answers master => m.Restores now_ms answers master

def StoreSound (m : TelemetryManager) : Prop := ∀ s ∈ m.store, s.CacheSound

/-- The session is the one that the store keeps. -/
structure SessionKept (m : TelemetryManager) : Prop where
  enabled : m.push_session.enabled = true
  storable : storableMetrics m.push_session.metrics = true
  some_metric : m.push_session.metrics ≠ []
  known : m.local_profile ≠ none →
    ∀ metric ∈ m.push_session.metrics, m.isKnownTelemetryKey metric.key = true
  store : ∃ s, m.store = some s ∧ s.enabled = true
  stored : m.storedConfig m.push_session.master = some (pushConfigBlob m.push_session)

/-- In RAM there is no session or the one that the store keeps. -/
structure PushDurable (m : TelemetryManager) : Prop where
  sound : m.StoreSound
  kept : m.push_session.has_master = true → SessionKept m

section Steps

variable {m : TelemetryManager}

theorem noteSendFailure_stream (s : TelemetryPushSession) (now_ms : UInt32) :
    SameStream s (s.noteSendFailure now_ms) := by
  have hmetrics := (SameStream.refl s).metrics
  unfold TelemetryPushSession.noteSendFailure
  split
  · exact ⟨rfl, rfl, rfl, rfl, rfl, rfl, rfl, rfl, hmetrics⟩
  · exact ⟨rfl, rfl, rfl, rfl, rfl, rfl, rfl, rfl, hmetrics⟩

theorem noteSent_stream (f : FloatOps) (m : TelemetryManager) (snapshot : List TelemetrySample)
    (now_ms : UInt32) :
    SameStream m.push_session (m.push_session.noteSent now_ms (m.picks f snapshot now_ms)) := by
  refine ⟨rfl, rfl, rfl, rfl, rfl, rfl, rfl, rfl, ?_⟩
  unfold TelemetryPushSession.noteSent picks
  rw [List.zipWith_map_right, List.zipWith_self, List.forall₂_map_right_iff]
  exact List.forall₂_same.mpr fun metric _ => settleMetric_rule _ _ _

/-- A tick changes no more than timers. -/
theorem tickTelemetryPush_rest (m : TelemetryManager) (f : FloatOps) (now_ms : UInt32)
    (snapshot : Option (List TelemetrySample)) (link : Bool) :
    ∃ session seq, (m.tickTelemetryPush f now_ms snapshot link).2 =
      { m with push_session := session, telemetry_push_seq := seq } ∧
      SameStream m.push_session session := by
  have hquiet : ∃ session seq, m = { m with push_session := session, telemetry_push_seq := seq } ∧
      SameStream m.push_session session := ⟨_, _, rfl, .refl m.push_session⟩
  unfold tickTelemetryPush
  split
  · exact hquiet
  · split
    · exact hquiet
    · cases snapshot with
      | none => exact hquiet
      | some snapshot =>
        dsimp only
        split
        · exact hquiet
        · split
          · exact hquiet
          · unfold sendPicked
            dsimp only
            split
            · exact ⟨_, _, rfl, noteSendFailure_stream _ now_ms⟩
            · exact ⟨_, _, rfl, noteSent_stream f m snapshot now_ms⟩

theorem isKnownTelemetryKey_profile (m n : TelemetryManager) (hprofile : n.local_profile = m.local_profile)
    (hsome : m.local_profile ≠ none) (key : Bytes) :
    n.isKnownTelemetryKey key = m.isKnownTelemetryKey key := by
  unfold isKnownTelemetryKey
  rw [hprofile]
  cases hp : m.local_profile with
  | none => exact absurd hp hsome
  | some profile => rfl

/-- A metric that a command may name is known. -/
theorem resolved_known {metric : TelemetryPushMetricConfig} {key : Bytes} (hsome : m.local_profile ≠ none)
    (h : m.resolveTelemetryMetricIdentity metric = some key) : m.isKnownTelemetryKey key = true := by
  unfold resolveTelemetryMetricIdentity at h
  split at h
  · cases h
  · split at h
    · -- by its index, which the registry finds with its key
      obtain ⟨profile, hp⟩ := Option.ne_none_iff_exists'.mp hsome
      unfold telemetryKeyFromIndex at h
      rw [hp] at h
      obtain ⟨hspec, hkey⟩ := Option.filter_eq_some_iff.mp h
      obtain ⟨spec, hfind, rfl⟩ := Option.map_eq_some_iff.mp hspec
      unfold findProfileTelemetryById at hfind
      split at hfind
      · cases hfind
      · rename_i hregistered
        have hempty : spec.key.isEmpty = false := by simpa using hkey
        have hreg : profile.registered = true := by
          have h := hregistered
          simp only [Bool.or_eq_true, not_or] at h
          simpa using h.1
        unfold isKnownTelemetryKey findProfileTelemetryByKey
        simp only [hp, hempty, hreg, Bool.false_eq_true, if_false, Bool.not_true, Bool.or_self]
        rw [List.find?_isSome]
        exact ⟨spec, List.mem_of_find?_eq_some hfind, by simp⟩
    · split at h
      · rename_i hknown
        obtain rfl := Option.some.inj h
        exact hknown
      · cases h

/-- A session that a command starts is enabled, has a metric, and knows all of them. -/
theorem admitConfig_session {sender : MacAddress} {config : TelemetryPushConfig}
    {next : TelemetryPushSession} (h : m.admitConfig sender config = .ok next) :
    next.enabled = true ∧ next.metrics ≠ [] ∧
      (m.local_profile ≠ none → ∀ metric ∈ next.metrics, m.isKnownTelemetryKey metric.key = true) := by
  obtain ⟨hadmitted, hany, hon⟩ := admitConfig_ok h
  refine ⟨hon, ?_, fun hsome => ?_⟩
  · intro hnone
    rw [hnone] at hany
    cases hany
  · refine admitMetric_run (I := fun metrics =>
      ∀ metric ∈ metrics, m.isKnownTelemetryKey metric.key = true) ?_ (fun metric h => by cases h) hadmitted
    intro metrics metric key hknown hkey _ ps hps
    rcases List.mem_append.mp hps with hold | hnew
    · exact hknown ps hold
    · rw [List.mem_singleton.mp hnew]
      exact resolved_known hsome hkey

/-- A session that was persisted is the one that the store keeps. -/
theorem persistTelemetryPushConfig_kept (hsound : m.StoreSound)
    (hok : m.persistTelemetryPushConfig.1 = true) :
    ∃ t, m.persistTelemetryPushConfig.2 = m.withPushStore t ∧ t.CacheSound ∧ t.enabled = true ∧
      (m.withPushStore t).storedConfig m.push_session.master = some (pushConfigBlob m.push_session) := by
  obtain ⟨store, hs, hon, hmaster, hkeys, -⟩ := m.persistTelemetryPushConfig_outcome.1.mp hok
  have hsave := store.saveMetaBlob_frame m.local_mac m.push_session.master kTelemetryMetaSlot
    (pushConfigBlob m.push_session)
  unfold persistTelemetryPushConfig at hok ⊢
  rw [hs] at hok ⊢
  simp only [hon, hmaster, hkeys, Bool.not_true, Bool.or_self, Bool.false_eq_true, if_false] at hok ⊢
  obtain ⟨hframe, hsaved⟩ := hsave
  refine ⟨_, rfl, hframe.sound (hsound store hs), hframe.enabled.trans hon, ?_⟩
  have hkey := congrArg PersistenceConfig.schema_version hframe.config
  have hblob := hsaved (hsound store hs) hok
  simpa [storedConfig, withPushStore, makeMetaKey, hkey] using hblob

theorem clearTelemetryPushConfig_sound (hsound : m.StoreSound) {master : MacAddress}
    (hok : (m.clearTelemetryPushConfig master).1 = true) (hempty : m.push_session = {}) :
    (m.clearTelemetryPushConfig master).2.StoreSound := by
  obtain ⟨store, hs, hon, -⟩ := (m.clearTelemetryPushConfig_outcome master hempty).1.mp hok
  rw [clearTelemetryPushConfig_eq master hs hon, if_neg (by simp [hempty])]
  intro t ht
  obtain rfl := Option.some.inj ht
  have hread := (store.getBlobCached_frame (store.makeMetaKey m.local_mac master kTelemetryMetaSlot)).1
  have hsound' := hread.sound (hsound store hs)
  unfold eraseFound
  dsimp only
  split
  · exact (eraseBlobIfExists_frame _ _).sound hsound'
  · exact hsound'

/-- What a session must have to be asked for. -/
theorem requestedSession_session {sender : MacAddress} {cmd : TelemetryPushCommand}
    {next : TelemetryPushSession} (h : PushDurable m) (hrequest : m.requestedSession sender cmd = some next)
    (hstop : cmd.action ≠ .Stop) (hmaster : next.has_master = true) :
    next.enabled = true ∧ next.metrics ≠ [] ∧
      (m.local_profile ≠ none → ∀ metric ∈ next.metrics, m.isKnownTelemetryKey metric.key = true) := by
  have hpause (paused : Bool) (hnext : { m.push_session with paused := paused } = next) :
      next.enabled = true ∧ next.metrics ≠ [] ∧
        (m.local_profile ≠ none → ∀ metric ∈ next.metrics, m.isKnownTelemetryKey metric.key = true) := by
    subst hnext
    have hkept := h.kept hmaster
    exact ⟨hkept.enabled, hkept.some_metric, hkept.known⟩
  unfold requestedSession at hrequest
  split at hrequest
  · cases hrequest
  · cases haction : cmd.action with
    | Start =>
      rw [haction] at hrequest
      cases hadmitted : m.admitConfig sender cmd.config with
      | error message => simp [hadmitted, Except.toOption] at hrequest
      | ok session =>
        obtain rfl : session = next := by simpa [hadmitted, Except.toOption] using hrequest
        exact admitConfig_session hadmitted
    | Update =>
      rw [haction] at hrequest
      cases hadmitted : m.admitConfig sender cmd.config with
      | error message => simp [hadmitted, Except.toOption] at hrequest
      | ok session =>
        obtain rfl : session = next := by simpa [hadmitted, Except.toOption] using hrequest
        exact admitConfig_session hadmitted
    | Pause =>
      obtain ⟨-, hnext⟩ : m.push_session.enabled = true ∧ { m.push_session with paused := true } = next := by
        simpa [haction] using hrequest
      exact hpause true hnext
    | Resume =>
      obtain ⟨-, hnext⟩ : m.push_session.enabled = true ∧
          { m.push_session with paused := false } = next := by
        simpa [haction] using hrequest
      exact hpause false hnext
    | Stop => exact absurd haction hstop
    | Get => simp [haction] at hrequest

theorem PushDurable.atTime (h : PushDurable m) (now_ms : UInt32) (answers : TelemetryProvider) :
    PushDurable (m.atTime now_ms answers) := by
  refine ⟨h.sound, fun hmaster => ?_⟩
  have hkept := h.kept hmaster
  refine ⟨hkept.enabled, hkept.storable, hkept.some_metric, fun hsome metric hmem => ?_, hkept.store,
    hkept.stored⟩
  exact (isKnownTelemetryKey_profile m (m.atTime now_ms answers) rfl hsome metric.key).trans
    (hkept.known hsome metric hmem)

/-- An accepted command leaves the session that the store keeps, or none. -/
theorem PushDurable.command {sender : MacAddress} {cmd : TelemetryPushCommand} {message : String}
    (h : PushDurable m) (hok : (m.handlePushCommand sender cmd).1 = some ⟨true, message⟩) :
    PushDurable (m.handlePushCommand sender cmd).2 := by
  cases hrequest : m.requestedSession sender cmd with
  | none =>
    rw [handlePushCommand_unrequested hrequest]
    exact h
  | some next =>
    obtain ⟨reply, hreply, hstored, hafter⟩ := handlePushCommand_requested hrequest
    obtain rfl : reply = ⟨true, message⟩ := Option.some.inj (hreply.symm.trans hok)
    rw [hafter, if_pos rfl]
    by_cases hstop : cmd.action = .Stop
    · obtain rfl := requestedSession_stop hrequest hstop
      rw [hstop] at hstored ⊢
      refine ⟨clearTelemetryPushConfig_sound (m := m.withSession {}) h.sound hstored.symm rfl, ?_⟩
      intro hmaster
      have hnone := ((m.withSession {}).clearTelemetryPushConfig_outcome sender rfl).2.1
      rw [storeSession, hnone] at hmaster
      cases hmaster
    · have hpersist : m.storeSession sender next cmd.action =
          (m.withSession next).persistTelemetryPushConfig := by
        unfold storeSession
        split
        · contradiction
        · rfl
      rw [hpersist] at hstored ⊢
      obtain ⟨_, _, _, hmaster, hkeys, -⟩ :=
        (m.withSession next).persistTelemetryPushConfig_outcome.1.mp hstored.symm
      obtain ⟨henabled, hmetrics, hknown⟩ := requestedSession_session h hrequest hstop hmaster
      obtain ⟨t, ht, hsound, hon, hblob⟩ :=
        persistTelemetryPushConfig_kept (m := m.withSession next) h.sound hstored.symm
      rw [ht]
      refine ⟨fun s hs => ?_, fun _ => ⟨henabled, hkeys, hmetrics, fun hsome metric hmem => ?_,
        ⟨t, rfl, hon⟩, hblob⟩⟩
      · obtain rfl := Option.some.inj hs
        exact hsound
      · exact (isKnownTelemetryKey_profile m _ rfl hsome metric.key).trans (hknown hsome metric hmem)

/-- Another session with the same stream is kept by the same blob. -/
theorem SessionKept.of_same {n : TelemetryManager} (h : SessionKept m)
    (hsame : SameStream m.push_session n.push_session) (hprofile : n.local_profile = m.local_profile)
    (hstore : ∃ s, n.store = some s ∧ s.enabled = true)
    (hstored : n.storedConfig m.push_session.master = m.storedConfig m.push_session.master) : SessionKept n where
  enabled := hsame.enabled.trans h.enabled
  storable := (storableMetrics_congr hsame).trans h.storable
  some_metric := by
    intro hnone
    have hlength := hsame.metrics.length_eq
    rw [hnone] at hlength
    exact h.some_metric (List.length_eq_zero_iff.mp hlength)
  known := by
    intro hsome metric hmem
    rw [hprofile] at hsome
    have hkey : metric.key ∈ m.push_session.metrics.map (·.key) := by
      rw [← hsame.keys]
      exact List.mem_map_of_mem hmem
    obtain ⟨old, hold, hkey⟩ := List.mem_map.mp hkey
    rw [← hkey]
    exact (isKnownTelemetryKey_profile m n hprofile hsome old.key).trans (h.known hsome old hold)
  store := hstore
  stored := by
    rw [pushConfigBlob_congr hsame, hsame.master, hstored]
    exact h.stored

theorem PushDurable.tick (f : FloatOps) (i : PushTick) (h : PushDurable m) :
    PushDurable (m.afterTick f i) := by
  obtain ⟨session, seq, hafter, hsame⟩ :=
    ({ m with current_now_ms := i.now_ms } : TelemetryManager).tickTelemetryPush_rest f i.now_ms i.snapshot
      i.link
  have hrest : m.afterTick f i = { m with
      current_now_ms := i.now_ms, push_session := session, telemetry_push_seq := seq } := hafter
  rw [hrest]
  refine ⟨h.sound, fun hmaster => ?_⟩
  have hkept := h.kept (hsame.has_master.symm.trans hmaster)
  exact hkept.of_same hsame rfl hkept.store rfl

theorem fresh_sound (config : PersistenceConfig) (has_backend : Bool) (backend : Backend) :
    (PairingStore.fresh config has_backend backend).CacheSound := by
  intro key e he
  rw [show (PairingStore.fresh config has_backend backend).blob_cache = ∅ from rfl, AList.lookup_empty] at he
  cases he

theorem restart_sound (m : TelemetryManager) (now_ms : UInt32) (answers : TelemetryProvider) :
    (m.restart now_ms answers).StoreSound := by
  intro s hs
  obtain ⟨t, -, rfl⟩ := Option.map_eq_some_iff.mp hs
  exact fresh_sound _ _ _

theorem restart_durable (m : TelemetryManager) (now_ms : UInt32) (answers : TelemetryProvider) :
    PushDurable (m.restart now_ms answers) :=
  ⟨m.restart_sound now_ms answers, fun h => by cases h⟩

theorem fresh_getBlobCached {config : PersistenceConfig} {has_backend : Bool} {backend : Backend}
    (hon : (PairingStore.fresh config has_backend backend).enabled = true)
    (hread : backend.fate backend.calls = true) (key : BlobKey) :
    ((PairingStore.fresh config has_backend backend).getBlobCached key).1 = backend.blobs key := by
  have hcached : (PairingStore.fresh config has_backend backend).cachedBlob key = none := rfl
  unfold getBlobCached
  rw [hon, hcached]
  exact if_pos hread

/-- What the store keeps of a session is restored, when its metrics are known, and stays stored. -/
theorem SessionKept.restored (h : SessionKept m) (hmaster : m.push_session.has_master = true)
    {now_ms : UInt32} {answers : TelemetryProvider} (hcan : m.CanRestore now_ms answers) :
    ∃ s t session, m.store = some s ∧
      PairingStore.StoreFrame ∅ (PairingStore.fresh s.config s.has_backend s.backend) t ∧
      (m.restart now_ms answers).restoreTelemetryPushConfig m.push_session.master =
        (true, ((m.restart now_ms answers).withPushStore t).withSession session) ∧
      SameStream m.push_session session := by
  have hknown : ∀ metric ∈ m.push_session.metrics,
      (m.restart now_ms answers).isKnownTelemetryKey metric.key = true := by
    intro metric hmem
    by_cases hnone : m.local_profile = none
    · exact hcan.2 hnone metric hmem
    · exact (isKnownTelemetryKey_profile m (m.restart now_ms answers) rfl hnone metric.key).trans
        (h.known hnone metric hmem)
  obtain ⟨s, hs, hon⟩ := h.store
  have hblob : s.backend.blobs (s.makeMetaKey m.local_mac m.push_session.master kTelemetryMetaSlot) =
      some (pushConfigBlob m.push_session) := by
    simpa [storedConfig, hs] using h.stored
  have hstore : (m.restart now_ms answers).store =
      some (PairingStore.fresh s.config s.has_backend s.backend) := congrArg (Option.map _) hs
  have hon' : (PairingStore.fresh s.config s.has_backend s.backend).enabled = true := hon
  have hload : ((PairingStore.fresh s.config s.has_backend s.backend).loadMetaBlob m.local_mac
      m.push_session.master kTelemetryMetaSlot).1 = some (pushConfigBlob m.push_session) := by
    unfold loadMetaBlob
    rw [if_neg (by simp [hon']), fresh_getBlobCached hon (hcan.1 s hs)]
    exact hblob
  obtain ⟨hlen, hversion⟩ := pushConfigBlob_header m.push_session
  have hmetrics : (m.restart now_ms answers).restoredMetrics (m.push_session.metrics.map (·.unsent)) =
      m.push_session.metrics.map fun metric =>
        { metric.unsent with next_periodic_ms := now_ms + metric.interval_ms } := by
    unfold restoredMetrics
    rw [List.filter_eq_self.mpr, List.map_map]
    · rfl
    · intro metric hmem
      obtain ⟨old, hold, rfl⟩ := List.mem_map.mp hmem
      exact hknown old hold
  unfold restoreTelemetryPushConfig
  rw [hstore]
  dsimp only
  rw [if_neg (by simp [hon'])]
  have hlocal : (m.restart now_ms answers).local_mac = m.local_mac := rfl
  rw [hlocal]
  have hframe := ((PairingStore.fresh s.config s.has_backend s.backend).loadMetaBlob_frame m.local_mac
    m.push_session.master kTelemetryMetaSlot).1
  rcases hread : (PairingStore.fresh s.config s.has_backend s.backend).loadMetaBlob m.local_mac
    m.push_session.master kTelemetryMetaSlot with ⟨found, t⟩
  rw [hread] at hload hframe
  obtain rfl : found = some (pushConfigBlob m.push_session) := hload
  dsimp only
  rw [if_neg (by simp [hversion]; omega), pushConfigOfBlob_blob h.storable hmaster]
  dsimp only
  rw [hmetrics, if_neg (by simp [h.some_metric])]
  refine ⟨s, t, _, hs, hframe, rfl, rfl, rfl, rfl, rfl, rfl, rfl, rfl, rfl, ?_⟩
  rw [List.forall₂_map_right_iff]
  exact List.forall₂_same.mpr fun metric _ => ⟨rfl, rfl, rfl, rfl, rfl, rfl, rfl⟩

/-- A configuration that fails a check is not restored. -/
theorem restore_failed {master : MacAddress} (hsound : m.StoreSound) (hempty : m.push_session = {})
    (hfails : ∀ blob, m.storedConfig master = some blob → ¬ m.ConfigPasses master blob) :
    (m.restoreTelemetryPushConfig master).2.push_session = {} := by
  unfold restoreTelemetryPushConfig
  cases hs : m.store with
  | none => exact hempty
  | some s =>
    have hload := (s.loadMetaBlob_frame m.local_mac master kTelemetryMetaSlot).2 (hsound s hs)
    dsimp only
    split
    · exact hempty
    · rcases hread : s.loadMetaBlob m.local_mac master kTelemetryMetaSlot with ⟨blob, t⟩
      rw [hread] at hload
      cases blob with
      | none => exact hempty
      | some blob =>
        have hstored : m.storedConfig master = some blob := by
          rw [storedConfig, hs]
          exact hload blob rfl
        have hfail := hfails blob hstored
        dsimp only
        split
        · exact hempty
        · rename_i hheader
          obtain ⟨hlen, hversion⟩ : 15 ≤ blob.length ∧ blob.head? = some 1 := by
            simpa [not_or] using hheader
          cases hconfig : pushConfigOfBlob master blob with
          | none => exact hempty
          | some config =>
            dsimp only
            split
            · exact hempty
            · rename_i hmetrics
              refine absurd ⟨hlen, hversion, config, hconfig, fun hon => ?_⟩ hfail
              simpa [hon] using hmetrics

theorem restoreTelemetryPushConfig_sound (hsound : m.StoreSound) (master : MacAddress) :
    (m.restoreTelemetryPushConfig master).2.StoreSound := by
  unfold restoreTelemetryPushConfig
  cases hs : m.store with
  | none => exact hsound
  | some s =>
    have hload := (s.loadMetaBlob_frame m.local_mac master kTelemetryMetaSlot).1.sound (hsound s hs)
    have herase := ((s.loadMetaBlob m.local_mac master kTelemetryMetaSlot).2.eraseMetaBlob_frame m.local_mac master
      kTelemetryMetaSlot).sound hload
    dsimp only
    split
    · exact hsound
    · rcases hread : s.loadMetaBlob m.local_mac master kTelemetryMetaSlot with ⟨blob, t⟩
      rw [hread] at hload herase
      have hkept : ∀ u ∈ some t, u.CacheSound := fun u hu => by rwa [← Option.some.inj hu]
      have herased : ∀ u ∈ some (t.eraseMetaBlob m.local_mac master kTelemetryMetaSlot).2, u.CacheSound :=
        fun u hu => by rwa [← Option.some.inj hu]
      cases blob with
      | none => exact hkept
      | some blob =>
        dsimp only
        split
        · exact herased
        · cases pushConfigOfBlob master blob with
          | none => exact hkept
          | some config =>
            dsimp only
            split
            · exact herased
            · exact hkept

/-- A reboot with its restore leaves the session that the store keeps, or none. -/
theorem PushDurable.reboot (h : PushDurable m) {now_ms : UInt32} {answers : TelemetryProvider} {master : MacAddress}
    (hok : m.Restores now_ms answers master) :
    PushDurable ((m.restart now_ms answers).restoreTelemetryPushConfig master).2 := by
  refine ⟨restoreTelemetryPushConfig_sound (m.restart_sound now_ms answers) master, ?_⟩
  by_cases hmaster : m.push_session.has_master = true
  · rw [Restores, if_pos hmaster] at hok
    obtain ⟨rfl, hcan⟩ := hok
    have hkept := h.kept hmaster
    obtain ⟨s, t, session, hs, hframe, hrestored, hsame⟩ := hkept.restored hmaster hcan
    rw [hrestored]
    intro _
    have hon : s.enabled = true := by
      obtain ⟨s', hs', hon⟩ := hkept.store
      rwa [Option.some.inj (hs.symm.trans hs')]
    refine hkept.of_same hsame rfl ⟨t, rfl, hframe.enabled.trans hon⟩ ?_
    have hblobs : t.backend.blobs (s.makeMetaKey m.local_mac m.push_session.master kTelemetryMetaSlot) =
        s.backend.blobs (s.makeMetaKey m.local_mac m.push_session.master kTelemetryMetaSlot) :=
      hframe.blobs (Set.notMem_empty _)
    have hkey' : t.makeMetaKey m.local_mac m.push_session.master kTelemetryMetaSlot =
        s.makeMetaKey m.local_mac m.push_session.master kTelemetryMetaSlot := hframe.makeMetaKey _ _ _
    rw [storedConfig, storedConfig, hs]
    show t.backend.blobs (t.makeMetaKey m.local_mac m.push_session.master kTelemetryMetaSlot) = _
    rw [hkey', hblobs]
    rfl
  · rw [Restores, if_neg hmaster] at hok
    rw [restore_failed (m.restart_sound now_ms answers) rfl hok]
    exact fun hnone => by cases hnone

theorem PushDurable.run {f : FloatOps} {n : TelemetryManager} (h : PushDurable m)
    (hrun : Run (pushStep f) PushAccepted m n) : PushDurable n := by
  refine hrun.invariant h fun x i hx hok => ?_
  cases i with
  | command now_ms answers sender cmd =>
    obtain ⟨message, hreply⟩ := hok
    exact (hx.atTime now_ms answers).command hreply
  | tick i => exact hx.tick f i
  | reboot now_ms answers master => exact hx.reboot hok

end Steps

end TelemetryManager

open TelemetryManager

/-- The session that accepted commands, with ticks and earlier reboots between them, have left is restored after a
reboot as it was but for its timers; without a profile, the provider has to know its metrics. A stored configuration
that fails a check is not restored. -/
theorem push_session_survives_restart (f : FloatOps) (p : TelemetryManager) (started_ms now_ms : UInt32)
    (before answers : TelemetryProvider) :
    (∀ m, Run (pushStep f) PushAccepted (p.restart started_ms before) m →
      m.push_session.has_master = true →
      (∀ s ∈ m.store, s.backend.fate s.backend.calls = true) →
      (m.local_profile = none → ∀ metric ∈ m.push_session.metrics,
        (m.restart now_ms answers).isKnownTelemetryKey metric.key = true) →
      let restored := (m.restart now_ms answers).restoreTelemetryPushConfig m.push_session.master
      restored.1 = true ∧ SameStream m.push_session restored.2.push_session) ∧
    ∀ master, (∀ blob, (p.restart now_ms answers).storedConfig master = some blob →
        ¬ (p.restart now_ms answers).ConfigPasses master blob) →
      ((p.restart now_ms answers).restoreTelemetryPushConfig master).2.push_session = {} := by
  constructor
  · intro m hrun hmaster hreads hlookup
    have hkept := ((p.restart_durable started_ms before).run hrun).kept hmaster
    obtain ⟨_, _, session, -, -, hrestored, hsame⟩ := hkept.restored hmaster ⟨hreads, hlookup⟩
    rw [hrestored]
    exact ⟨rfl, hsame⟩
  · intro master hfails
    exact restore_failed (p.restart_sound now_ms answers) rfl hfails

/-- A slave with a profile of two metrics and an empty store. -/
def profiledSlave : TelemetryManager :=
  { pushingSlave [] with
    local_profile := some ⟨true, [⟨1, ascii "t"⟩, ⟨2, ascii "u"⟩]⟩
    store := some (PairingStore.fresh ⟨true, 1⟩ true ⟨fun _ => none, fun _ => true, 0⟩) }

/-- A start of both metrics, one by its index, a tick that reports them, a reboot, and a pause. -/
def startedAndPaused : List StreamInput :=
  [.command 0 ⟨none, none⟩ (Vector.replicate 6 1)
      { action := .Start
        config := { metrics := [{ has_metric_index := true, metric_index := 1, mode := .Periodic },
          { key := ascii "u", use_threshold := true, delta_abs := 0x3F800000 }] } },
    .tick (sampledTick 1000 [("t", "1"), ("u", "2")]),
    .reboot 20 ⟨none, none⟩ (Vector.replicate 6 1),
    .command 1500 ⟨none, none⟩ (Vector.replicate 6 1) { action := .Pause }]

theorem push_session_survives_restart_paused :
    let m := startedAndPaused.foldl (pushStep smallFloats) (profiledSlave.restart 0 ⟨none, none⟩)
    let restored := (m.restart 50 ⟨none, none⟩).restoreTelemetryPushConfig m.push_session.master
    restored.1 = true ∧ SameStream m.push_session restored.2.push_session := by
  have hrun : Run (pushStep smallFloats) PushAccepted (profiledSlave.restart 0 ⟨none, none⟩)
      (startedAndPaused.foldl (pushStep smallFloats) (profiledSlave.restart 0 ⟨none, none⟩)) := by
    refine Run.of_admitted _ ⟨⟨"stream started", ?_⟩, trivial, ?_, ⟨"stream paused", ?_⟩, trivial⟩
    · decide +kernel
    · exact restores_session (by decide +kernel) (by decide +kernel) (by decide +kernel)
    · decide +kernel
  have hstore : ∀ s ∈ (startedAndPaused.foldl (pushStep smallFloats)
      (profiledSlave.restart 0 ⟨none, none⟩)).store, s.backend.fate s.backend.calls = true := by
    have hall : (startedAndPaused.foldl (pushStep smallFloats)
        (profiledSlave.restart 0 ⟨none, none⟩)).store.all
          (fun s => s.backend.fate s.backend.calls) = true := by
      decide +kernel
    intro s hs
    rw [hs] at hall
    exact hall
  exact (push_session_survives_restart smallFloats profiledSlave 0 50 ⟨none, none⟩ ⟨none, none⟩).1 _ hrun
    (by decide +kernel) hstore (fun h => absurd h (by decide +kernel))

end EspNowLink
