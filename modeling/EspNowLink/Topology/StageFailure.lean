import EspNowLink.Platform.WriteOutcomes
import EspNowLink.Topology.KeyConsistency

namespace EspNowLink

namespace TopologyManager

section Conditions

/-- What staging is to leave alone when it fails: the snapshots, and what the store holds under the
local metadata slots, those of the snapshots and of the keys among them. -/
structure Unharmed (m t : TopologyManager) : Prop where
  staged : t.topology_staged = m.topology_staged
  committed : t.topology_committed = m.topology_committed
  blobs : ∀ slot, t.metaBlob slot = m.metaBlob slot

/-- A snapshot that is new to the slave: its key metadata is to go before the snapshot is stored. -/
def PurgesKeys (m : TopologyManager) (normalized : TopologySnapshot) : Prop :=
  m.local_role = .Slave ∧ m.storeEnabled ∧
    (differs m.topology_staged normalized ∨ differs m.topology_committed normalized)

instance (m : TopologyManager) (normalized : TopologySnapshot) : Decidable (m.PurgesKeys normalized) :=
  inferInstanceAs (Decidable (_ ∧ _ ∧ (_ ∨ _)))

/-- The backend erases the key metadata of `s` and then refuses the snapshot. -/
def KeysLost (s : PairingStore) (local_mac : MacAddress) (normalized : TopologySnapshot) : Prop :=
  let lmk := s.makeMetaKey local_mac zeroMac kTopologyMetaSlotLmk
  s.ErasesBlob lmk ∧
    ¬PairingStore.WriteSucceeds (.put (s.makeMetaKey local_mac zeroMac kTopologyMetaSlotStaged)
      (topologySnapshotBlob normalized)) (s.eraseBlobIfExists lmk).2

/-- The snapshot passes, the key metadata is erased, and the snapshot is not stored. -/
def StagesHalf (m : TopologyManager) (snapshot : TopologySnapshot) : Prop :=
  ∃ normalized s, validateTopologySnapshot m.local_profile_id (snapshot.withState .Staged)
      = .ok normalized ∧
    m.PurgesKeys normalized ∧ m.store = some s ∧ KeysLost s m.local_mac normalized

end Conditions

section Stores

theorem makeMetaKey_of_frame {K : Set BlobKey} {s t : PairingStore} (h : PairingStore.StoreFrame K s t)
    (localMac peer : MacAddress) (slot : UInt8) :
    t.makeMetaKey localMac peer slot = s.makeMetaKey localMac peer slot := by
  simp [PairingStore.makeMetaKey, h.config]

variable {m : TopologyManager} {s : PairingStore}

theorem topologySnapshotBlob_isEmpty (snapshot : TopologySnapshot) :
    (topologySnapshotBlob snapshot).isEmpty = false := by
  simp [topologySnapshotBlob, topologySnapshotHeader]

theorem storeEnabled_of_store (hs : m.store = some s) : m.storeEnabled = s.enabled := by
  rw [storeEnabled, hs]
  rfl

theorem eraseLocalMetaBlob_store (hs : m.store = some s) (hon : s.enabled = true) (slot : UInt8) :
    (m.eraseLocalMetaBlob slot).2 =
      m.withStore (s.eraseBlobIfExists (s.makeMetaKey m.local_mac zeroMac slot)).2 := by
  rw [eraseLocalMetaBlob, hs]
  simp only [PairingStore.eraseMetaBlob, hon, Bool.not_true, Bool.false_eq_true, if_false]

/-- A snapshot is stored where the write succeeds; a write that fails changes no slot. -/
theorem saveTopologySnapshotMeta_outcome (hs : m.store = some s) (hon : s.enabled = true) (slot : UInt8)
    (snapshot : TopologySnapshot) :
    let r := m.saveTopologySnapshotMeta slot snapshot
    (r.1 = true ↔ PairingStore.WriteSucceeds
      (.put (s.makeMetaKey m.local_mac zeroMac slot) (topologySnapshotBlob snapshot)) s) ∧
      (r.1 = false → ∀ slot', r.2.metaBlob slot' = m.metaBlob slot') := by
  obtain ⟨hiff, hfailed⟩ := PairingStore.putBlobIfChanged_outcome (s := s)
    (s.makeMetaKey m.local_mac zeroMac slot) hon (topologySnapshotBlob_isEmpty snapshot)
  have hframe := (s.putBlobIfChanged_frame (s.makeMetaKey m.local_mac zeroMac slot)
    (topologySnapshotBlob snapshot)).1
  have hsave : m.saveTopologySnapshotMeta slot snapshot =
      ((s.putBlobIfChanged (s.makeMetaKey m.local_mac zeroMac slot) (topologySnapshotBlob snapshot)).1,
        m.withStore (s.putBlobIfChanged (s.makeMetaKey m.local_mac zeroMac slot)
          (topologySnapshotBlob snapshot)).2) := by
    rw [saveTopologySnapshotMeta, storeEnabled_of_store hs, saveLocalMetaBlob, hs]
    simp only [PairingStore.saveMetaBlob, hon, topologySnapshotBlob_isEmpty, Bool.not_true,
      Bool.or_self, Bool.false_eq_true, if_false]
  intro r
  have hr : r = m.saveTopologySnapshotMeta slot snapshot := rfl
  rw [hsave] at hr
  rw [hr]
  refine ⟨hiff, fun hrefused slot' => ?_⟩
  simp only [metaBlob, withStore, Option.bind_some, hs]
  rw [makeMetaKey_of_frame hframe, hfailed hrefused]

/-- An erasure of a slot changes what the store holds there exactly when the backend carries it out. -/
theorem eraseLocalMetaBlob_same_iff (hs : m.store = some s) (hon : s.enabled = true) (slot : UInt8) :
    (m.eraseLocalMetaBlob slot).2.metaBlob slot = m.metaBlob slot ↔
      ¬s.ErasesBlob (s.makeMetaKey m.local_mac zeroMac slot) := by
  have hframe := s.eraseBlobIfExists_frame (s.makeMetaKey m.local_mac zeroMac slot)
  rw [eraseLocalMetaBlob_store hs hon, ← s.eraseBlobIfExists_same_iff]
  simp only [metaBlob, withStore, Option.bind_some, hs]
  rw [makeMetaKey_of_frame hframe]

end Stores

section Staging

variable {m : TopologyManager} {snapshot normalized : TopologySnapshot}

/-- The manager after the purge of the key metadata. -/
def afterPurge (m : TopologyManager) (normalized : TopologySnapshot) : TopologyManager :=
  if m.PurgesKeys normalized then (m.eraseLocalMetaBlob kTopologyMetaSlotLmk).2 else m

theorem afterPurge_frame (m : TopologyManager) (normalized : TopologySnapshot) :
    MetaFrame {kTopologyMetaSlotLmk} m (m.afterPurge normalized) := by
  rw [afterPurge]
  split
  · exact m.eraseLocalMetaBlob_frame kTopologyMetaSlotLmk
  · exact .refl m

/-- `stageTopology` on a snapshot that passes. -/
theorem stageTopology_passed
    (h : validateTopologySnapshot m.local_profile_id (snapshot.withState .Staged) = .ok normalized) :
    m.stageTopology snapshot =
      match ((m.afterPurge normalized).withStaged (some normalized)).saveTopologySnapshotMeta
        kTopologyMetaSlotStaged normalized with
      | (false, t) => (.error "topology_persist_failed", t.withStaged m.topology_staged)
      | (true, t) => (.ok (), t) := by
  rw [stageTopology, h]
  rfl

/-- What a refused write leaves is the manager after the purge. -/
theorem stageTopology_refused {s : PairingStore}
    (h : validateTopologySnapshot m.local_profile_id (snapshot.withState .Staged) = .ok normalized)
    (hs : (m.afterPurge normalized).store = some s) (hon : s.enabled = true)
    (hrefused : ¬PairingStore.WriteSucceeds
      (.put (s.makeMetaKey m.local_mac zeroMac kTopologyMetaSlotStaged)
        (topologySnapshotBlob normalized)) s) :
    (m.stageTopology snapshot).1 = .error "topology_persist_failed" ∧
      (m.stageTopology snapshot).2.topology_staged = m.topology_staged ∧
      (m.stageTopology snapshot).2.topology_committed = m.topology_committed ∧
      ∀ slot, (m.stageTopology snapshot).2.metaBlob slot = (m.afterPurge normalized).metaBlob slot := by
  have hpurge := m.afterPurge_frame normalized
  have hmac : ((m.afterPurge normalized).withStaged (some normalized)).local_mac = m.local_mac :=
    hpurge.local_mac
  obtain ⟨hiff, hblobs⟩ := saveTopologySnapshotMeta_outcome
    (m := (m.afterPurge normalized).withStaged (some normalized)) hs hon kTopologyMetaSlotStaged normalized
  have hframe := (saveTopologySnapshotMeta_frame
    ((m.afterPurge normalized).withStaged (some normalized)) kTopologyMetaSlotStaged normalized).1
  rw [hmac] at hiff
  rw [stageTopology_passed h]
  cases hsave : ((m.afterPurge normalized).withStaged (some normalized)).saveTopologySnapshotMeta
    kTopologyMetaSlotStaged normalized with
  | mk saved t =>
    rw [hsave] at hiff hblobs hframe
    cases saved with
    | true => exact absurd (hiff.mp rfl) hrefused
    | false => exact ⟨rfl, rfl, hframe.committed.trans hpurge.committed, hblobs rfl⟩

/-- A snapshot that passes and yet is not staged is one that the store refuses. -/
theorem refused_of_stageTopology {error : String}
    (h : validateTopologySnapshot m.local_profile_id (snapshot.withState .Staged) = .ok normalized)
    (herror : (m.stageTopology snapshot).1 = .error error) :
    ∃ s, (m.afterPurge normalized).store = some s ∧ s.enabled = true ∧
      ¬PairingStore.WriteSucceeds (.put (s.makeMetaKey m.local_mac zeroMac kTopologyMetaSlotStaged)
        (topologySnapshotBlob normalized)) s := by
  have hpurge := m.afterPurge_frame normalized
  have hmac : ((m.afterPurge normalized).withStaged (some normalized)).local_mac = m.local_mac :=
    hpurge.local_mac
  rw [stageTopology_passed h] at herror
  cases hstore : (m.afterPurge normalized).store with
  | none =>
    have hoff : ((m.afterPurge normalized).withStaged (some normalized)).storeEnabled = false := by
      simp [storeEnabled, withStaged, hstore]
    rw [saveTopologySnapshotMeta, hoff] at herror
    cases herror
  | some s =>
    refine ⟨s, rfl, ?_⟩
    have henabled := storeEnabled_of_store
      (m := (m.afterPurge normalized).withStaged (some normalized)) hstore
    cases hon : s.enabled with
    | false =>
      rw [saveTopologySnapshotMeta, henabled, hon] at herror
      cases herror
    | true =>
      refine ⟨rfl, fun hsucceeds => ?_⟩
      obtain ⟨hiff, -⟩ := saveTopologySnapshotMeta_outcome
        (m := (m.afterPurge normalized).withStaged (some normalized)) hstore hon
        kTopologyMetaSlotStaged normalized
      rw [hmac] at hiff
      cases hsave : ((m.afterPurge normalized).withStaged (some normalized)).saveTopologySnapshotMeta
        kTopologyMetaSlotStaged normalized with
      | mk saved t =>
        rw [hsave] at hiff herror
        cases saved with
        | true => cases herror
        | false => exact absurd (hiff.mpr hsucceeds) Bool.false_ne_true

/-- What the purge leaves of the slots. -/
theorem afterPurge_unharmed_iff {s : PairingStore} (hs : m.store = some s) (hon : s.enabled = true) :
    (∀ slot, (m.afterPurge normalized).metaBlob slot = m.metaBlob slot) ↔
      ¬(m.PurgesKeys normalized ∧ s.ErasesBlob (s.makeMetaKey m.local_mac zeroMac kTopologyMetaSlotLmk)) := by
  have hframe := m.afterPurge_frame normalized
  by_cases hpurge : m.PurgesKeys normalized
  · have hsame := eraseLocalMetaBlob_same_iff hs hon kTopologyMetaSlotLmk
    rw [afterPurge, if_pos hpurge] at hframe ⊢
    simp only [hpurge, true_and]
    rw [← hsame]
    constructor
    · intro hall
      exact hall kTopologyMetaSlotLmk
    · intro hlmk slot
      by_cases hslot : slot = kTopologyMetaSlotLmk
      · rw [hslot]
        exact hlmk
      · exact hframe.blobs slot hslot
  · rw [afterPurge, if_neg hpurge]
    simp [hpurge]

end Staging

end TopologyManager

open TopologyManager

/-- A `stageTopology` that fails leaves everything as it was, unless the key metadata is erased before
the snapshot is refused. -/
theorem stageTopology_unharmed_iff (m : TopologyManager) (snapshot : TopologySnapshot) :
    (∀ error, (m.stageTopology snapshot).1 = .error error →
        m.Unharmed (m.stageTopology snapshot).2) ↔ ¬m.StagesHalf snapshot := by
  cases hvalid : validateTopologySnapshot m.local_profile_id (snapshot.withState .Staged) with
  | error error =>
    have hsame : m.stageTopology snapshot = (.error error, m) := by
      rw [stageTopology, hvalid]
    refine iff_of_true (fun _ _ => ?_) ?_
    · rw [hsame]
      exact ⟨rfl, rfl, fun _ => rfl⟩
    · rintro ⟨normalized, s, hpassed, -⟩
      rw [hvalid] at hpassed
      cases hpassed
  | ok normalized =>
    constructor
    · rintro hunharmed ⟨normalized', s, hpassed, hpurge, hs, herases, hrefused⟩
      rw [hvalid] at hpassed
      obtain rfl : normalized = normalized' := Except.ok.inj hpassed
      have hon : s.enabled = true := herases.1
      have hafter : (m.afterPurge normalized).store = some (s.eraseBlobIfExists
          (s.makeMetaKey m.local_mac zeroMac kTopologyMetaSlotLmk)).2 := by
        rw [afterPurge, if_pos hpurge, eraseLocalMetaBlob_store hs hon]
        rfl
      have hframe := s.eraseBlobIfExists_frame (s.makeMetaKey m.local_mac zeroMac kTopologyMetaSlotLmk)
      have hon' := hframe.enabled.trans hon
      rw [← makeMetaKey_of_frame hframe] at hrefused
      obtain ⟨herror, -, -, hblobs⟩ := stageTopology_refused hvalid hafter hon' hrefused
      have hslots := (hunharmed _ herror).blobs
      have hkept : ∀ slot, (m.afterPurge normalized).metaBlob slot = m.metaBlob slot :=
        fun slot => (hblobs slot).symm.trans (hslots slot)
      exact (afterPurge_unharmed_iff hs hon).mp hkept ⟨hpurge, herases⟩
    · intro hwhole error herror
      obtain ⟨t, hafter, hon, hrefused⟩ := refused_of_stageTopology hvalid herror
      obtain ⟨-, hstaged, hcommitted, hblobs⟩ := stageTopology_refused hvalid hafter hon hrefused
      refine ⟨hstaged, hcommitted, fun slot => (hblobs slot).trans ?_⟩
      by_cases hpurge : m.PurgesKeys normalized
      · cases hs : m.store with
        | none =>
          have hoff := hpurge.2.1
          simp [storeEnabled, hs] at hoff
        | some s =>
          have hons : s.enabled = true := (storeEnabled_of_store hs).symm.trans hpurge.2.1
          have hframe := s.eraseBlobIfExists_frame
            (s.makeMetaKey m.local_mac zeroMac kTopologyMetaSlotLmk)
          have ht : (s.eraseBlobIfExists (s.makeMetaKey m.local_mac zeroMac kTopologyMetaSlotLmk)).2 = t := by
            rw [afterPurge, if_pos hpurge, eraseLocalMetaBlob_store hs hons] at hafter
            exact Option.some.inj hafter
          refine (afterPurge_unharmed_iff hs hons).mpr ?_ slot
          rintro ⟨-, herases⟩
          refine hwhole ⟨normalized, s, hvalid, hpurge, hs, herases, ?_⟩
          rw [ht, ← makeMetaKey_of_frame (ht ▸ hframe)]
          exact hrefused
      · rw [afterPurge, if_neg hpurge]

/-- A slave with an empty store, which carries out every call but the eleventh. -/
def storingSlave : TopologyManager :=
  { semu.started telling none none with
    store := some
      { config := ⟨true, 1⟩
        has_backend := true
        backend := ⟨fun _ => none, fun n => n != 10, 0⟩
        blob_cache := ∅
        blob_cache_access_seq := 0 } }

/-- The slave after it has staged and committed a topology, whose keys it has stored. -/
def committedSlave : TopologyManager :=
  (storingSlave.stageTopology (bothSides 3 5 1 1)).2.commitStagedTopology.2

/-- The next version of the topology is refused by the store: the keys of the committed one are gone. -/
theorem stageTopology_loses_keys : ¬∀ (m : TopologyManager) (snapshot : TopologySnapshot),
    ∀ error, (m.stageTopology snapshot).1 = .error error →
      m.Unharmed (m.stageTopology snapshot).2 := by
  intro h
  let next : TopologySnapshot := { bothSides 3 5 1 1 with topology_version := 2 }
  have hrefused : (committedSlave.stageTopology next).1.isOk = false := by
    decide +kernel
  have hkeys : (committedSlave.metaBlob kTopologyMetaSlotLmk).isSome = true := by
    decide +kernel
  have hgone : (committedSlave.stageTopology next).2.metaBlob kTopologyMetaSlotLmk = none := by
    decide +kernel
  cases hresult : (committedSlave.stageTopology next).1 with
  | ok _ =>
    rw [hresult] at hrefused
    cases hrefused
  | error error =>
    have hsame := (h committedSlave next error hresult).blobs kTopologyMetaSlotLmk
    rw [hgone] at hsame
    rw [← hsame] at hkeys
    cases hkeys

end EspNowLink
