import EspNowLink.Framework.Runs
import EspNowLink.Platform.IndexUpdates
import EspNowLink.Topology.StageFailure

open Framework

namespace EspNowLink

namespace TopologyManager

section Recall

/-- The snapshot that a start would find under a slot if its read went well. -/
def recalled (m : TopologyManager) (slot : UInt8) (state : TopologyState) : Option TopologySnapshot :=
  ((m.metaBlob slot).bind topologySnapshotOfBlob).bind fun stored =>
    (validateTopologySnapshot m.local_profile_id (stored.withState state)).toOption

/-- The snapshots in memory are those a start would find. -/
structure Recalls (m : TopologyManager) : Prop where
  staged : m.recalled kTopologyMetaSlotStaged .Staged = m.topology_staged
  committed : m.recalled kTopologyMetaSlotCommitted .Committed = m.topology_committed

/-- A snapshot as the validation leaves it. -/
def IsValid (m : TopologyManager) (state : TopologyState) (s : TopologySnapshot) : Prop :=
  validateTopologySnapshot m.local_profile_id s = .ok s ∧ s.state = state

/-- Both snapshots in memory passed the validation, in their states. -/
structure Validated (m : TopologyManager) : Prop where
  staged : ∀ s, m.topology_staged = some s → m.IsValid .Staged s
  committed : ∀ s, m.topology_committed = some s → m.IsValid .Committed s

variable {m t : TopologyManager}

theorem recalled_congr {slot : UInt8} (hprofile : t.local_profile_id = m.local_profile_id)
    (hblob : t.metaBlob slot = m.metaBlob slot) (state : TopologyState) :
    t.recalled slot state = m.recalled slot state := by
  rw [recalled, recalled, hprofile, hblob]

/-- What was stored of a valid snapshot is found again. -/
theorem recalled_stored {slot : UInt8} {state : TopologyState} {s : TopologySnapshot}
    (hvalid : m.IsValid state s) (hblob : m.metaBlob slot = some (topologySnapshotBlob s)) :
    m.recalled slot state = some s := by
  have hstate : s.withState state = s := by
    obtain ⟨_, hs⟩ := hvalid
    rw [← hs]
    rfl
  rw [recalled, hblob, Option.bind_some, topologySnapshotOfBlob_write, Option.bind_some, hstate, hvalid.1]
  rfl

theorem recalled_erased {slot : UInt8} (h : m.metaBlob slot = none) (state : TopologyState) :
    m.recalled slot state = none := by
  rw [recalled, h]
  rfl

theorem isValid_of_validated {state : TopologyState} {s stored : TopologySnapshot}
    (h : validateTopologySnapshot m.local_profile_id (stored.withState state) = .ok s) : m.IsValid state s :=
  ⟨validated_again h, validated_state h⟩

end Recall

section Inputs

/-- What happens to the topology of a device: its calls, a link that is restored, a peer that is made
ready, the key metadata that goes with an unpairing, and a restart. -/
inductive TopologyInput where
  | stage (snapshot : TopologySnapshot)
  | commit
  | clear
  | link (master : MacAddress)
  | ready (slot : TopologySlot)
  | unpair
  | reboot (platform : Platform)

def step (m : TopologyManager) : TopologyInput → TopologyManager
  | .stage snapshot => (m.stageTopology snapshot).2
  | .commit => m.commitStagedTopology.2
  | .clear => m.clearStagedTopology.2
  | .link master => m.restoreTopologyPeers master
  | .ready slot => (m.ensureTopologyPeerReadyForSlot slot).2
  | .unpair => (m.eraseLocalMetaBlob kTopologyMetaSlotLmk).2.withPaired none
  | .reboot platform => (m.reboot platform).restoreTopologySnapshots

/-- The manager whose peers and keys follow the snapshot that is committed, if that succeeds. -/
def commitApplied (m : TopologyManager) (normalized : TopologySnapshot) : Option TopologyManager :=
  if m.local_role ≠ .Slave then some m
  else match m.materializeTopologyPeers normalized with
    | (.error _, _) => none
    | (.ok _, m) => match m.saveTopologyLmkMeta normalized with
      | (false, _) => none
      | (true, m) => some m

/-- The manager that has stored the committed snapshot, if that succeeds. -/
def saveCommitted (m : TopologyManager) (normalized : TopologySnapshot) : Option TopologyManager :=
  match (m.withCommitted (some normalized)).saveTopologySnapshotMeta kTopologyMetaSlotCommitted normalized with
  | (false, _) => none
  | (true, m) => some m

/-- The manager on which a commit that gets through ends, before the staged snapshot is forgotten. -/
def commitSaved (m : TopologyManager) : Option TopologyManager :=
  m.topology_staged.bind fun staged =>
    match validateTopologySnapshot m.local_profile_id ((staged.withState .Committed).withChecksum 0) with
    | .error _ => none
    | .ok normalized => (m.oldLmkBlob.2.commitApplied normalized).bind (·.saveCommitted normalized)

/-- The erasure of the staged snapshot's blob is carried out. -/
def ErasesStaged (m : TopologyManager) : Prop :=
  ∀ s ∈ m.store, s.ErasesBlob (s.makeMetaKey m.local_mac zeroMac kTopologyMetaSlotStaged)

/-- The read of a slot sees what the backend holds. -/
def ReadsSlot (m : TopologyManager) (slot : UInt8) : Prop :=
  ∀ s ∈ m.store, ¬s.Misses (s.makeMetaKey m.local_mac zeroMac slot)

/-- A restarted manager when it turns to the staged snapshot. -/
def rebootCommitted (m : TopologyManager) (platform : Platform) : TopologyManager :=
  ((((m.reboot platform).withStaged none).withCommitted none).withAttached []).restoreSnapshot
    kTopologyMetaSlotCommitted .Committed |>.2

instance (s : PairingStore) (key : BlobKey) : Decidable (s.Misses key) :=
  match h : s.cachedBlob key with
  | some entry => decidable_of_iff (entry.existing = false) (by rw [PairingStore.Misses, h])
  | none => decidable_of_iff (s.backend.fate s.backend.calls = false) (by rw [PairingStore.Misses, h])

instance (m : TopologyManager) (slot : UInt8) : Decidable (m.ReadsSlot slot) :=
  decidable_of_iff (m.store.all fun s => ¬s.Misses (s.makeMetaKey m.local_mac zeroMac slot)) (by
    cases h : m.store <;> simp [ReadsSlot, h])

/-- What the snapshots depend on in the storage: a staged snapshot that is given up is erased, and a snapshot
that is there is read at a restart. -/
def Lasts (m : TopologyManager) : TopologyInput → Prop
  | .commit => ∀ t, m.commitSaved = some t → t.ErasesStaged
  | .clear => m.topology_staged.isSome → m.ErasesStaged
  | .reboot platform =>
    (m.topology_committed.isSome → (m.reboot platform).ReadsSlot kTopologyMetaSlotCommitted) ∧
      (m.topology_staged.isSome → (m.rebootCommitted platform).ReadsSlot kTopologyMetaSlotStaged)
  | .stage _ | .link _ | .ready _ | .unpair => True

end Inputs

section Frames

/-- `t` has the snapshots of `m`, in memory and in the storage. -/
structure KeepsSnapshots (m t : TopologyManager) : Prop where
  profile : t.local_profile_id = m.local_profile_id
  enabled : t.storeEnabled = m.storeEnabled
  sound : m.StoreSound → t.StoreSound
  staged : t.topology_staged = m.topology_staged
  committed : t.topology_committed = m.topology_committed
  staged_blob : t.metaBlob kTopologyMetaSlotStaged = m.metaBlob kTopologyMetaSlotStaged
  committed_blob : t.metaBlob kTopologyMetaSlotCommitted = m.metaBlob kTopologyMetaSlotCommitted

namespace KeepsSnapshots

variable {m t u : TopologyManager}

protected theorem refl (m : TopologyManager) : KeepsSnapshots m m := ⟨rfl, rfl, id, rfl, rfl, rfl, rfl⟩

protected theorem trans (h : KeepsSnapshots m t) (h' : KeepsSnapshots t u) : KeepsSnapshots m u where
  profile := h'.profile.trans h.profile
  enabled := h'.enabled.trans h.enabled
  sound := h'.sound ∘ h.sound
  staged := h'.staged.trans h.staged
  committed := h'.committed.trans h.committed
  staged_blob := h'.staged_blob.trans h.staged_blob
  committed_blob := h'.committed_blob.trans h.committed_blob

theorem of_meta (h : MetaFrame {kTopologyMetaSlotLmk} m t) : KeepsSnapshots m t where
  profile := h.local_profile_id
  enabled := h.enabled
  sound := h.sound
  staged := h.staged
  committed := h.committed
  staged_blob := h.blobs _ (by decide)
  committed_blob := h.blobs _ (by decide)

theorem of_read (h : MetaFrame ∅ m t) : KeepsSnapshots m t := of_meta (h.mono (Set.empty_subset _))

theorem of_peers (h : PeerFrame m t) : KeepsSnapshots m t where
  profile := h.same.local_profile_id
  enabled := h.storeEnabled
  sound := h.storeSound.mpr
  staged := h.staged
  committed := h.committed
  staged_blob := h.metaBlob _
  committed_blob := h.metaBlob _

theorem withPaired (m : TopologyManager) (peer : Option MacAddress) : KeepsSnapshots m (m.withPaired peer) :=
  ⟨rfl, rfl, id, rfl, rfl, rfl, rfl⟩

theorem withPlatform (m : TopologyManager) (p : Platform) : KeepsSnapshots m (m.withPlatform p) :=
  ⟨rfl, rfl, id, rfl, rfl, rfl, rfl⟩

theorem withAttached (m : TopologyManager) (peers : List MacAddress) : KeepsSnapshots m (m.withAttached peers) :=
  ⟨rfl, rfl, id, rfl, rfl, rfl, rfl⟩

/-- Where the snapshots are kept, what a start would find is kept. -/
theorem recalls (h : KeepsSnapshots m t) (hm : m.Recalls) : t.Recalls where
  staged := (recalled_congr h.profile h.staged_blob .Staged).trans (hm.staged.trans h.staged.symm)
  committed :=
    (recalled_congr h.profile h.committed_blob .Committed).trans (hm.committed.trans h.committed.symm)

theorem validated (h : KeepsSnapshots m t) (hm : m.Validated) : t.Validated where
  staged s hs := by
    rw [IsValid, h.profile]
    exact hm.staged s (h.staged ▸ hs)
  committed s hs := by
    rw [IsValid, h.profile]
    exact hm.committed s (h.committed ▸ hs)

end KeepsSnapshots

variable (m : TopologyManager)

/-- How a restored link gets its peers when the stored keys do not serve. -/
def derivePeers (committed : TopologySnapshot) : TopologyManager :=
  match m.materializeTopologyPeers committed with
  | (.error _, m) => m
  | (.ok _, m) => (m.saveTopologyLmkMeta committed).2

theorem derivePeers_keeps (committed : TopologySnapshot) : KeepsSnapshots m (m.derivePeers committed) := by
  have hpeers := KeepsSnapshots.of_peers (m.materializeTopologyPeers_frame committed)
  rw [derivePeers]
  rcases hmat : m.materializeTopologyPeers committed with ⟨_ | _, t⟩
  · rw [hmat] at hpeers
    exact hpeers
  · rw [hmat] at hpeers
    exact hpeers.trans (.of_meta (t.saveTopologyLmkMeta_frame committed))

theorem restoreTopologyPeers_keeps (master : MacAddress) : KeepsSnapshots m (m.restoreTopologyPeers master) := by
  have hpaired := KeepsSnapshots.withPaired m (some master)
  rw [restoreTopologyPeers]
  dsimp only
  cases hcommitted : (m.withPaired (some master)).topology_committed with
  | none => exact hpaired
  | some committed =>
    dsimp only
    have hderive := fun t : TopologyManager => t.derivePeers_keeps committed
    have hmeta := KeepsSnapshots.of_meta ((m.withPaired (some master)).desiredFromMeta_frame committed master)
    rcases hdesired : (m.withPaired (some master)).desiredFromMeta committed master with ⟨_ | desired, t⟩
    · rw [hdesired] at hmeta
      exact (hpaired.trans hmeta).trans (hderive t)
    · rw [hdesired] at hmeta
      have happly := KeepsSnapshots.of_peers (t.applyTopologyDesiredPeers_frame desired)
      dsimp only
      rcases hres : t.applyTopologyDesiredPeers desired with ⟨_ | _, u⟩
      · rw [hres] at happly
        exact ((hpaired.trans hmeta).trans happly).trans (hderive u)
      · rw [hres] at happly
        exact (hpaired.trans hmeta).trans happly

theorem ensureTopologyPeerReadyForSlot_keeps (slot : TopologySlot) :
    KeepsSnapshots m (m.ensureTopologyPeerReadyForSlot slot).2 := by
  rw [ensureTopologyPeerReadyForSlot]
  split
  · exact .refl m
  split
  · exact .refl m
  split
  · exact .refl m
  cases m.paired_peer with
  | none => exact .refl m
  | some master =>
    dsimp only
    split
    · exact .refl m
    cases m.topology_committed with
    | none => exact .refl m
    | some committed =>
      dsimp only
      have hmeta := KeepsSnapshots.of_meta (m.slotLmkFromMeta_frame committed master slot)
      rcases hslot : m.slotLmkFromMeta committed master slot with ⟨_ | lmk, t⟩
      · rw [hslot] at hmeta
        dsimp only
        cases t.deriveTopologySlotLmk committed slot with
        | error error => exact hmeta
        | ok lmk =>
          dsimp only
          rcases t.platform.addPeer slot.peer true (some lmk) with ⟨_ | _, p⟩
          · exact hmeta.trans (.withPlatform t p)
          · have hsave := (t.withPlatform p).saveTopologyLmkMeta_frame committed
            exact (hmeta.trans (.withPlatform t p)).trans (.of_meta hsave)
      · rw [hslot] at hmeta
        dsimp only
        rcases t.platform.addPeer slot.peer true (some lmk) with ⟨_ | _, p⟩ <;>
          exact hmeta.trans (.withPlatform t p)

theorem oldLmkBlob_keeps : KeepsSnapshots m m.oldLmkBlob.2 := by
  rw [oldLmkBlob]
  split
  · exact .of_read (m.loadLocalMetaBlob_frame kTopologyMetaSlotLmk).1
  · exact .refl m

theorem rollbackCommit_keeps (old_committed : Option TopologySnapshot) (old_attached : List MacAddress)
    (old_lmk_blob : Option Bytes) :
    KeepsSnapshots m (m.rollbackCommit old_committed old_attached old_lmk_blob) := by
  have hrestore : ∀ t : TopologyManager, KeepsSnapshots t (t.restoreOldLmkMeta old_lmk_blob) := by
    intro t
    unfold restoreOldLmkMeta
    by_cases hskip : t.local_role ≠ .Slave ∨ (!t.storeEnabled) = true
    · rw [if_pos hskip]
      exact .refl t
    · rw [if_neg hskip]
      rcases old_lmk_blob with _ | _ | ⟨b, bs⟩
      · exact .of_meta (t.eraseLocalMetaBlob_frame _)
      · exact .of_meta (t.eraseLocalMetaBlob_frame _)
      · exact .of_meta (t.saveLocalMetaBlob_frame _ _).1
  have hattached := KeepsSnapshots.withAttached m old_attached
  cases old_committed with
  | none => exact hattached.trans (hrestore _)
  | some old =>
    have hpeers := KeepsSnapshots.of_peers ((m.withAttached old_attached).materializeTopologyPeers_frame old)
    exact (hattached.trans hpeers).trans (hrestore _)

end Frames

section Commit

variable {m t : TopologyManager}

/-- What a commit that gets through has done before the staged snapshot is forgotten. -/
structure Saved (m t : TopologyManager) (s : TopologySnapshot) : Prop where
  profile : t.local_profile_id = m.local_profile_id
  enabled : t.storeEnabled = m.storeEnabled
  sound : m.StoreSound → t.StoreSound
  committed : t.topology_committed = some s
  staged_blob : t.metaBlob kTopologyMetaSlotStaged = m.metaBlob kTopologyMetaSlotStaged
  stored : m.StoreSound → m.storeEnabled = true →
    t.metaBlob kTopologyMetaSlotCommitted = some (topologySnapshotBlob s)

theorem Saved.of_keeps {u : TopologyManager} {s : TopologySnapshot} (h : KeepsSnapshots m u) (hs : Saved u t s) :
    Saved m t s where
  profile := hs.profile.trans h.profile
  enabled := hs.enabled.trans h.enabled
  sound := hs.sound ∘ h.sound
  committed := hs.committed
  staged_blob := hs.staged_blob.trans h.staged_blob
  stored hsound hon := hs.stored (h.sound hsound) (h.enabled.trans hon)

/-- `s` is what the validation makes of the staged snapshot when it is committed. -/
def CommitsAs (m : TopologyManager) (s : TopologySnapshot) : Prop :=
  ∃ staged, m.topology_staged = some staged ∧
    validateTopologySnapshot m.local_profile_id ((staged.withState .Committed).withChecksum 0) = .ok s

theorem CommitsAs.isValid {s : TopologySnapshot} (h : m.CommitsAs s) : m.IsValid .Committed s := by
  obtain ⟨staged, -, hvalid⟩ := h
  exact ⟨validated_again hvalid, validated_state hvalid⟩

/-- A snapshot that is not stored leaves what was stored. -/
theorem saveTopologySnapshotMeta_failed (m : TopologyManager) (slot : UInt8) (s : TopologySnapshot)
    (h : (m.saveTopologySnapshotMeta slot s).1 = false) (slot' : UInt8) :
    (m.saveTopologySnapshotMeta slot s).2.metaBlob slot' = m.metaBlob slot' := by
  cases hs : m.store with
  | none =>
    have hoff : m.storeEnabled = false := by rw [storeEnabled, hs]; rfl
    rw [saveTopologySnapshotMeta, hoff]
    rfl
  | some store =>
    have henabled := storeEnabled_of_store hs
    cases hon : store.enabled with
    | false =>
      rw [saveTopologySnapshotMeta, henabled, hon]
      rfl
    | true => exact (saveTopologySnapshotMeta_outcome hs hon slot s).2 h slot'

/-- A manager that has forgotten its staged snapshot, in memory and in the storage. -/
def forgetStaged (m : TopologyManager) : TopologyManager :=
  ((m.withStaged none).eraseTopologySnapshotMeta kTopologyMetaSlotStaged).2

/-- The end of a commit: either the snapshot is stored, or everything is kept. -/
theorem persistCommit_cases (m : TopologyManager) (s : TopologySnapshot) (old_attached : List MacAddress)
    (old_lmk_blob : Option Bytes) :
    (∃ t, m.saveCommitted s = some t ∧ Saved m t s ∧
      m.persistCommit s old_attached old_lmk_blob = (.ok (), t.forgetStaged)) ∨
    m.saveCommitted s = none ∧
      (∃ error, (m.persistCommit s old_attached old_lmk_blob).1 = .error error) ∧
      KeepsSnapshots m (m.persistCommit s old_attached old_lmk_blob).2 := by
  obtain ⟨hframe, hstored⟩ := (m.withCommitted (some s)).saveTopologySnapshotMeta_frame
    kTopologyMetaSlotCommitted s
  have hfailed := (m.withCommitted (some s)).saveTopologySnapshotMeta_failed kTopologyMetaSlotCommitted s
  unfold persistCommit saveCommitted
  dsimp only
  rcases hs : (m.withCommitted (some s)).saveTopologySnapshotMeta kTopologyMetaSlotCommitted s with ⟨_ | _, t⟩
  · right
    rw [hs] at hframe hfailed
    have hback : KeepsSnapshots m (t.withCommitted m.topology_committed) :=
      ⟨hframe.local_profile_id, hframe.enabled, hframe.sound, hframe.staged, rfl, hfailed rfl _, hfailed rfl _⟩
    refine ⟨rfl, ⟨_, rfl⟩, ?_⟩
    dsimp only
    split
    · exact hback.trans (rollbackCommit_keeps _ _ _ _)
    · exact hback
  · rw [hs] at hframe hstored
    exact .inl ⟨t, rfl, ⟨hframe.local_profile_id, hframe.enabled, hframe.sound, hframe.committed,
      hframe.blobs _ (by decide), fun hsound hon => hstored hsound hon rfl⟩, rfl⟩

/-- A commit that gets through stores the snapshot and forgets the staged one; any other keeps both. -/
theorem commitStagedTopology_cases (m : TopologyManager) :
    (∃ t s, m.commitSaved = some t ∧ m.CommitsAs s ∧ Saved m t s ∧
        m.commitStagedTopology = (.ok (), t.forgetStaged)) ∨
      m.commitSaved = none ∧ KeepsSnapshots m m.commitStagedTopology.2 ∧
        (m.topology_staged.isSome → ∃ error, m.commitStagedTopology.1 = .error error) := by
  unfold commitStagedTopology commitSaved
  cases hstaged : m.topology_staged with
  | none =>
    refine .inr ⟨rfl, ?_, by simp⟩
    dsimp only
    split <;> exact .refl m
  | some staged =>
    rw [Option.bind_some]
    dsimp only
    cases hvalid : validateTopologySnapshot m.local_profile_id ((staged.withState .Committed).withChecksum 0) with
    | error error => exact .inr ⟨rfl, .refl m, fun _ => ⟨_, rfl⟩⟩
    | ok s =>
      have hs : m.CommitsAs s := ⟨staged, hstaged, hvalid⟩
      have hold := m.oldLmkBlob_keeps
      rcases hblob : m.oldLmkBlob with ⟨old_lmk_blob, t⟩
      rw [hblob] at hold
      -- from a manager that has kept the snapshots, the end of the commit decides
      have hend : ∀ u, KeepsSnapshots m u →
          (∃ v w, u.saveCommitted s = some v ∧ m.CommitsAs w ∧ Saved m v w ∧
            u.persistCommit s m.topology_attached_peers old_lmk_blob = (.ok (), v.forgetStaged)) ∨
          u.saveCommitted s = none ∧
            KeepsSnapshots m (u.persistCommit s m.topology_attached_peers old_lmk_blob).2 ∧
            ((some staged).isSome → ∃ error,
              (u.persistCommit s m.topology_attached_peers old_lmk_blob).1 = .error error) := by
        intro u hu
        rcases u.persistCommit_cases s m.topology_attached_peers old_lmk_blob with
          ⟨v, hsaved, hv, hcommit⟩ | ⟨hnone, herror, hkeeps⟩
        · exact .inl ⟨v, s, hsaved, hs, .of_keeps hu hv, hcommit⟩
        · exact .inr ⟨hnone, hu.trans hkeeps, fun _ => herror⟩
      dsimp only at hold ⊢
      unfold commitApplied
      by_cases hrole : t.local_role ≠ .Slave
      · rw [if_pos hrole, if_pos hrole]
        exact hend t hold
      · rw [if_neg hrole, if_neg hrole]
        have hpeers := hold.trans (.of_peers (t.materializeTopologyPeers_frame s))
        rcases hmat : t.materializeTopologyPeers s with ⟨_ | _, u⟩
        · rw [hmat] at hpeers
          exact .inr ⟨rfl, hpeers.trans (.withAttached u _), fun _ => ⟨_, rfl⟩⟩
        · rw [hmat] at hpeers
          have hkeys := hpeers.trans (.of_meta (u.saveTopologyLmkMeta_frame s))
          dsimp only
          rcases hsave : u.saveTopologyLmkMeta s with ⟨_ | _, v⟩
          · rw [hsave] at hkeys
            exact .inr ⟨rfl, hkeys.trans (v.rollbackCommit_keeps _ _ _), fun _ => ⟨_, rfl⟩⟩
          · rw [hsave] at hkeys
            exact hend v hkeys

end Commit

section Erasure

variable {m : TopologyManager}

theorem forgetStaged_frame (m : TopologyManager) :
    MetaFrame {kTopologyMetaSlotStaged} (m.withStaged none) m.forgetStaged :=
  (m.withStaged none).eraseTopologySnapshotMeta_frame kTopologyMetaSlotStaged

theorem eraseTopologySnapshotMeta_on (h : m.storeEnabled = true) (slot : UInt8) :
    m.eraseTopologySnapshotMeta slot = m.eraseLocalMetaBlob slot := by
  rw [eraseTopologySnapshotMeta, h]
  rfl

/-- An erasure leaves a slot empty or as it was. -/
theorem eraseLocalMetaBlob_blob (m : TopologyManager) (slot : UInt8) :
    (m.eraseLocalMetaBlob slot).2.metaBlob slot = m.metaBlob slot ∨
      (m.eraseLocalMetaBlob slot).2.metaBlob slot = none := by
  cases hs : m.store with
  | none =>
    left
    rw [eraseLocalMetaBlob, hs]
  | some s =>
    cases hon : s.enabled with
    | false =>
      left
      rw [eraseLocalMetaBlob, hs]
      simp [PairingStore.eraseMetaBlob, hon, metaBlob, withStore, hs]
    | true =>
      have hframe := s.eraseBlobIfExists_frame (s.makeMetaKey m.local_mac zeroMac slot)
      rw [eraseLocalMetaBlob_store hs hon]
      simp only [metaBlob, withStore, Option.bind_some, hs]
      rw [makeMetaKey_of_frame hframe]
      rcases s.eraseBlobIfExists_blobs (s.makeMetaKey m.local_mac zeroMac slot) with hsame | herased
      · exact .inl (congrFun hsame _)
      · right
        rw [herased, Function.update_self]

/-- A slot is empty after its erasure if that is carried out, and as before if not. -/
theorem eraseLocalMetaBlob_staged (hon : m.storeEnabled = true) :
    (m.ErasesStaged → (m.eraseLocalMetaBlob kTopologyMetaSlotStaged).2.metaBlob kTopologyMetaSlotStaged = none) ∧
      (¬m.ErasesStaged → (m.eraseLocalMetaBlob kTopologyMetaSlotStaged).2.metaBlob kTopologyMetaSlotStaged =
        m.metaBlob kTopologyMetaSlotStaged) := by
  cases hs : m.store with
  | none =>
    rw [storeEnabled, hs] at hon
    cases hon
  | some s =>
    have hons : s.enabled = true := (storeEnabled_of_store hs).symm.trans hon
    have hsame := eraseLocalMetaBlob_same_iff hs hons kTopologyMetaSlotStaged
    have herases : m.ErasesStaged ↔ s.ErasesBlob (s.makeMetaKey m.local_mac zeroMac kTopologyMetaSlotStaged) := by
      rw [ErasesStaged, hs]
      exact ⟨fun h => h s rfl, fun h t ht => Option.some.inj ht ▸ h⟩
    constructor
    · intro h
      rcases m.eraseLocalMetaBlob_blob kTopologyMetaSlotStaged with hkept | hgone
      · exact absurd (herases.mp h) (hsame.mp hkept)
      · exact hgone
    · intro h
      exact hsame.mpr (mt herases.mpr h)

/-- A manager that forgets its staged snapshot finds it no more after a start exactly when the blob is erased,
or there was nothing to find. -/
theorem forgetStaged_recalls_iff (hon : m.storeEnabled = true)
    (hcommitted : m.recalled kTopologyMetaSlotCommitted .Committed = m.topology_committed) :
    m.forgetStaged.Recalls ↔ ((m.recalled kTopologyMetaSlotStaged .Staged).isSome → m.ErasesStaged) := by
  have hframe := m.forgetStaged_frame
  have hprofile : m.forgetStaged.local_profile_id = m.local_profile_id := hframe.local_profile_id
  have hstaged : m.forgetStaged.topology_staged = none := hframe.staged
  have hcom : m.forgetStaged.recalled kTopologyMetaSlotCommitted .Committed = m.forgetStaged.topology_committed :=
    (recalled_congr hprofile (hframe.blobs _ (by decide)) .Committed).trans (hcommitted.trans hframe.committed.symm)
  obtain ⟨herased, hkept⟩ := eraseLocalMetaBlob_staged (m := m.withStaged none) hon
  have hblob : m.forgetStaged.metaBlob kTopologyMetaSlotStaged =
      ((m.withStaged none).eraseLocalMetaBlob kTopologyMetaSlotStaged).2.metaBlob kTopologyMetaSlotStaged := by
    rw [forgetStaged, eraseTopologySnapshotMeta_on (m := m.withStaged none) hon]
  rw [← hblob] at herased hkept
  constructor
  · intro h hsome
    by_contra hno
    have hsame := recalled_congr hprofile (hkept hno) .Staged
    rw [h.staged, hstaged] at hsame
    rw [← hsame] at hsome
    cases hsome
  · intro h
    refine ⟨?_, hcom⟩
    rw [hstaged]
    by_cases hsome : (m.recalled kTopologyMetaSlotStaged .Staged).isSome = true
    · exact recalled_erased (herased (h hsome)) .Staged
    · by_cases hers : (m.withStaged none).ErasesStaged
      · exact recalled_erased (herased hers) .Staged
      · rw [recalled_congr hprofile (hkept hers)]
        exact Option.not_isSome_iff_eq_none.mp hsome

end Erasure

section Restart

variable {m : TopologyManager}

/-- A read that sees the backend gives what a start would find; any other finds nothing. -/
theorem restoreSnapshot_recalled (hon : m.storeEnabled = true) (hsound : m.StoreSound) (slot : UInt8)
    (state : TopologyState) :
    (m.ReadsSlot slot → (m.restoreSnapshot slot state).1 = m.recalled slot state) ∧
      (¬m.ReadsSlot slot → (m.restoreSnapshot slot state).1 = none) := by
  cases hs : m.store with
  | none =>
    rw [storeEnabled, hs] at hon
    cases hon
  | some s =>
    have hons : s.enabled = true := (storeEnabled_of_store hs).symm.trans hon
    have hreads : m.ReadsSlot slot ↔ ¬s.Misses (s.makeMetaKey m.local_mac zeroMac slot) := by
      rw [ReadsSlot, hs]
      exact ⟨fun h => h s rfl, fun h t ht => Option.some.inj ht ▸ h⟩
    have hload : m.loadTopologySnapshotMeta slot =
        ((s.getBlobCached (s.makeMetaKey m.local_mac zeroMac slot)).1.bind topologySnapshotOfBlob,
          m.withStore (s.getBlobCached (s.makeMetaKey m.local_mac zeroMac slot)).2) := by
      rw [loadTopologySnapshotMeta, hon, loadLocalMetaBlob, hs]
      simp only [PairingStore.loadMetaBlob, hons, Bool.not_true, Bool.false_eq_true, if_false]
    constructor
    · intro h
      have hfound := PairingStore.getBlobCached_found hons (hsound s hs) (hreads.mp h)
      have hblob : m.metaBlob slot = s.backend.blobs (s.makeMetaKey m.local_mac zeroMac slot) := by
        rw [metaBlob, hs]
        rfl
      rw [restoreSnapshot, hload, hfound, recalled, hblob]
      cases (s.backend.blobs (s.makeMetaKey m.local_mac zeroMac slot)).bind topologySnapshotOfBlob with
      | none => rfl
      | some stored =>
        have hprofile : (m.withStore (s.getBlobCached (s.makeMetaKey m.local_mac zeroMac slot)).2).local_profile_id =
            m.local_profile_id := rfl
        dsimp only
        rw [hprofile, Option.bind_some]
        cases validateTopologySnapshot m.local_profile_id (stored.withState state) <;> rfl
    · intro h
      have hmissed := PairingStore.getBlobCached_missed (not_not.mp (mt hreads.mpr h))
      rw [restoreSnapshot, hload, hmissed]
      rfl

/-- A restored slot finds what it found before: only a blob that finds nothing is erased. -/
theorem restoreSnapshot_keeps (hsound : m.StoreSound) (slot : UInt8) (state : TopologyState) :
    (m.restoreSnapshot slot state).2.recalled slot state = m.recalled slot state := by
  obtain ⟨hframe, hread⟩ := m.loadTopologySnapshotMeta_frame slot
  rw [restoreSnapshot]
  rcases hload : m.loadTopologySnapshotMeta slot with ⟨_ | stored, t⟩
  · rw [hload] at hframe
    exact recalled_congr hframe.local_profile_id (hframe.blobs _ (by simp)) state
  · rw [hload] at hframe hread
    have hkept : t.recalled slot state = m.recalled slot state :=
      recalled_congr hframe.local_profile_id (hframe.blobs _ (by simp)) state
    have hprofile : t.local_profile_id = m.local_profile_id := hframe.local_profile_id
    obtain ⟨hon, blob, hblob, hparse⟩ := hread hsound stored rfl
    dsimp only
    rw [hprofile]
    cases hvalid : validateTopologySnapshot m.local_profile_id (stored.withState state) with
    | ok s => exact hkept
    | error error =>
      have hnone : m.recalled slot state = none := by
        rw [recalled, hblob, Option.bind_some, hparse, Option.bind_some, hvalid]
        rfl
      have hon' : t.storeEnabled = true := hframe.enabled.trans hon
      have herase := t.eraseLocalMetaBlob_frame slot
      dsimp only
      rw [eraseTopologySnapshotMeta_on hon', hnone]
      rcases t.eraseLocalMetaBlob_blob slot with hsame | hgone
      · rw [recalled_congr herase.local_profile_id hsame, hkept, hnone]
      · exact recalled_erased hgone state

theorem restoreSnapshot_valid (m : TopologyManager) (slot : UInt8) (state : TopologyState) {s : TopologySnapshot}
    (h : (m.restoreSnapshot slot state).1 = some s) : m.IsValid state s := by
  have hprofile := (m.loadTopologySnapshotMeta_frame slot).1.local_profile_id
  rw [restoreSnapshot] at h
  rcases hload : m.loadTopologySnapshotMeta slot with ⟨_ | stored, t⟩
  · rw [hload] at h
    cases h
  · rw [hload] at h hprofile
    dsimp only at h hprofile
    rw [hprofile] at h
    cases hvalid : validateTopologySnapshot m.local_profile_id (stored.withState state) with
    | error error =>
      rw [hvalid] at h
      cases h
    | ok u =>
      rw [hvalid] at h
      obtain rfl : u = s := Option.some.inj h
      exact isValid_of_validated hvalid

end Restart

section Steps

variable {m : TopologyManager}

/-- A device whose storage is in use and whose snapshots passed the validation. -/
structure Running (m : TopologyManager) : Prop where
  enabled : m.storeEnabled = true
  sound : m.StoreSound
  validated : m.Validated

theorem Running.of_keeps {t : TopologyManager} (h : m.Running) (hkeeps : KeepsSnapshots m t) : t.Running :=
  ⟨hkeeps.enabled.trans h.enabled, hkeeps.sound h.sound, hkeeps.validated h.validated⟩

theorem forgetStaged_validated (hvalid : ∀ s, m.topology_committed = some s → m.IsValid .Committed s) :
    m.forgetStaged.Validated := by
  have hframe := m.forgetStaged_frame
  have hprofile : m.forgetStaged.local_profile_id = m.local_profile_id := hframe.local_profile_id
  constructor
  · intro s hs
    rw [hframe.staged] at hs
    cases hs
  · intro s hs
    rw [IsValid, hprofile]
    exact hvalid s (hframe.committed ▸ hs)

theorem Running.forgetStaged (hon : m.storeEnabled = true) (hsound : m.StoreSound)
    (hvalid : ∀ s, m.topology_committed = some s → m.IsValid .Committed s) : m.forgetStaged.Running :=
  have hframe := m.forgetStaged_frame
  ⟨hframe.enabled.trans hon, hframe.sound hsound, forgetStaged_validated hvalid⟩

/-- What staging makes of the manager: the snapshot is staged and stored, or the snapshots are kept. -/
theorem stageTopology_cases (m : TopologyManager) (snapshot : TopologySnapshot) :
    (∃ u s, KeepsSnapshots m u ∧ (m.stageTopology snapshot).1 = .ok () ∧
        validateTopologySnapshot m.local_profile_id (snapshot.withState .Staged) = .ok s ∧
        MetaFrame {kTopologyMetaSlotStaged} (u.withStaged (some s)) (m.stageTopology snapshot).2 ∧
        (u.StoreSound → u.storeEnabled = true →
          (m.stageTopology snapshot).2.metaBlob kTopologyMetaSlotStaged = some (topologySnapshotBlob s))) ∨
      (∃ error, (m.stageTopology snapshot).1 = .error error) ∧ KeepsSnapshots m (m.stageTopology snapshot).2 := by
  cases hvalid : validateTopologySnapshot m.local_profile_id (snapshot.withState .Staged) with
  | error error =>
    rw [stageTopology, hvalid]
    exact .inr ⟨⟨error, rfl⟩, .refl m⟩
  | ok s =>
    have hpurge := KeepsSnapshots.of_meta (m.afterPurge_frame s)
    obtain ⟨hframe, hstored⟩ := ((m.afterPurge s).withStaged (some s)).saveTopologySnapshotMeta_frame
      kTopologyMetaSlotStaged s
    have hfailed := ((m.afterPurge s).withStaged (some s)).saveTopologySnapshotMeta_failed
      kTopologyMetaSlotStaged s
    rw [stageTopology_passed hvalid]
    rcases hsave : ((m.afterPurge s).withStaged (some s)).saveTopologySnapshotMeta kTopologyMetaSlotStaged s with
      ⟨_ | _, t⟩
    · rw [hsave] at hframe hfailed
      have hback : KeepsSnapshots (m.afterPurge s) (t.withStaged m.topology_staged) :=
        ⟨hframe.local_profile_id, hframe.enabled, hframe.sound, hpurge.staged.symm, hframe.committed,
          hfailed rfl _, hfailed rfl _⟩
      exact .inr ⟨⟨_, rfl⟩, hpurge.trans hback⟩
    · rw [hsave] at hframe hstored
      exact .inl ⟨m.afterPurge s, s, hpurge, rfl, rfl, hframe, fun hsound hon => hstored hsound hon rfl⟩

theorem stage_validated (snapshot : TopologySnapshot) (hm : m.Validated) :
    (m.stageTopology snapshot).2.Validated := by
  rcases m.stageTopology_cases snapshot with ⟨u, s, hkeeps, -, hvalid, hframe, -⟩ | ⟨-, hkeeps⟩
  · have hs : m.IsValid .Staged s := isValid_of_validated hvalid
    have hprofile : (m.stageTopology snapshot).2.local_profile_id = m.local_profile_id :=
      hframe.local_profile_id.trans hkeeps.profile
    constructor
    · intro v hv
      rw [hframe.staged] at hv
      obtain rfl : s = v := Option.some.inj hv
      rw [IsValid, hprofile]
      exact hs
    · intro v hv
      rw [IsValid, hprofile]
      exact hm.committed v ((hframe.committed.trans hkeeps.committed) ▸ hv)
  · exact hkeeps.validated hm

/-- Staging keeps in step what is in memory and what is stored, whether it gets through or not. -/
theorem stage_recalls (snapshot : TopologySnapshot) (hm : m.Running) (hrecalls : m.Recalls) :
    (m.stageTopology snapshot).2.Recalls ∧ (m.stageTopology snapshot).2.Running := by
  have hvalid := stage_validated snapshot hm.validated
  rcases m.stageTopology_cases snapshot with ⟨u, s, hkeeps, -, -, hframe, hstored⟩ | ⟨-, hkeeps⟩
  · have hprofile : (m.stageTopology snapshot).2.local_profile_id = u.local_profile_id := hframe.local_profile_id
    have hon : u.storeEnabled = true := hkeeps.enabled.trans hm.enabled
    have hsound : u.StoreSound := hkeeps.sound hm.sound
    have hstaged : (m.stageTopology snapshot).2.topology_staged = some s := hframe.staged
    have hcommitted : (m.stageTopology snapshot).2.topology_committed = u.topology_committed := hframe.committed
    refine ⟨⟨?_, ?_⟩, hframe.enabled.trans hon, hframe.sound hsound, hvalid⟩
    · rw [hstaged]
      exact recalled_stored (hvalid.staged s hstaged) (hstored hsound hon)
    · rw [hcommitted, ← (hkeeps.recalls hrecalls).committed]
      exact recalled_congr hprofile (hframe.blobs _ (by decide)) .Committed
  · exact ⟨hkeeps.recalls hrecalls, hm.of_keeps hkeeps⟩

/-- After a commit a start finds what is in memory exactly when the staged snapshot is erased where it is
committed. -/
theorem commit_recalls_iff (hm : m.Running) (hrecalls : m.Recalls) :
    (m.commitStagedTopology.2.Recalls ↔ ∀ t, m.commitSaved = some t → t.ErasesStaged) ∧
      m.commitStagedTopology.2.Running := by
  rcases m.commitStagedTopology_cases with ⟨t, s, hsaved, hvalid, ht, hcommit⟩ | ⟨hnone, hkeeps, -⟩
  · have hs : t.IsValid .Committed s := by
      rw [IsValid, ht.profile]
      exact hvalid.isValid
    have hon : t.storeEnabled = true := ht.enabled.trans hm.enabled
    have hcommitted : t.recalled kTopologyMetaSlotCommitted .Committed = t.topology_committed := by
      rw [ht.committed]
      exact recalled_stored hs (ht.stored hm.sound hm.enabled)
    have hstaged : (t.recalled kTopologyMetaSlotStaged .Staged).isSome = true := by
      rw [recalled_congr ht.profile ht.staged_blob, hrecalls.staged]
      cases hnostaged : m.topology_staged with
      | some staged => rfl
      | none =>
        rw [commitSaved, hnostaged] at hsaved
        cases hsaved
    rw [hcommit, hsaved]
    refine ⟨?_, .forgetStaged hon (ht.sound hm.sound) ?_⟩
    · rw [forgetStaged_recalls_iff hon hcommitted]
      exact ⟨fun h u hu => Option.some.inj hu ▸ h hstaged, fun h _ => h t rfl⟩
    · intro u hu
      rw [ht.committed] at hu
      obtain rfl := Option.some.inj hu
      exact hs
  · rw [hnone]
    exact ⟨iff_of_true (hkeeps.recalls hrecalls) (fun t ht => nomatch ht), hm.of_keeps hkeeps⟩

theorem clear_recalls_iff (hm : m.Running) (hrecalls : m.Recalls) :
    (m.clearStagedTopology.2.Recalls ↔ (m.topology_staged.isSome → m.ErasesStaged)) ∧
      m.clearStagedTopology.2.Running := by
  have hclear : m.clearStagedTopology.2 = m.forgetStaged := rfl
  rw [hclear, ← hrecalls.staged]
  exact ⟨forgetStaged_recalls_iff hm.enabled hrecalls.committed,
    .forgetStaged hm.enabled hm.sound hm.validated.committed⟩

end Steps

section Reboot

variable {m : TopologyManager}

/-- What a restart makes of the snapshots: each is what a start finds, if its read goes well. -/
structure Rebooted (m : TopologyManager) (platform : Platform) (t : TopologyManager) : Prop where
  profile : t.local_profile_id = m.local_profile_id
  enabled : t.storeEnabled = m.storeEnabled
  sound : t.StoreSound
  committed_kept : t.recalled kTopologyMetaSlotCommitted .Committed = m.recalled kTopologyMetaSlotCommitted .Committed
  staged_kept : t.recalled kTopologyMetaSlotStaged .Staged = m.recalled kTopologyMetaSlotStaged .Staged
  committed : (m.reboot platform).ReadsSlot kTopologyMetaSlotCommitted →
    t.topology_committed = m.recalled kTopologyMetaSlotCommitted .Committed
  committed_lost : ¬(m.reboot platform).ReadsSlot kTopologyMetaSlotCommitted → t.topology_committed = none
  staged : (m.rebootCommitted platform).ReadsSlot kTopologyMetaSlotStaged →
    t.topology_staged = m.recalled kTopologyMetaSlotStaged .Staged
  staged_lost : ¬(m.rebootCommitted platform).ReadsSlot kTopologyMetaSlotStaged → t.topology_staged = none

theorem reboot_rebooted (hon : m.storeEnabled = true) (platform : Platform) :
    Rebooted m platform (m.step (.reboot platform)) := by
  let start := (((m.reboot platform).withStaged none).withCommitted none).withAttached []
  have hprofile : start.local_profile_id = m.local_profile_id := rfl
  have hstart : start.storeEnabled = true := (m.reboot_storeEnabled platform).trans hon
  have hsound : start.StoreSound := m.reboot_storeSound platform
  have hblobs : ∀ slot, start.metaBlob slot = m.metaBlob slot := fun slot => m.reboot_metaBlob platform slot
  obtain ⟨hread, hmiss⟩ := restoreSnapshot_recalled hstart hsound kTopologyMetaSlotCommitted .Committed
  have hkept := restoreSnapshot_keeps hsound kTopologyMetaSlotCommitted .Committed
  have hframe := (start.restoreSnapshot_frame kTopologyMetaSlotCommitted .Committed).1
  -- the manager that turns to the staged snapshot
  let between := (m.rebootCommitted platform).withCommitted
    (start.restoreSnapshot kTopologyMetaSlotCommitted .Committed).1
  have hbetween : between.storeEnabled = true := hframe.enabled.trans hstart
  have hbetween_sound : between.StoreSound := hframe.sound hsound
  obtain ⟨hread', hmiss'⟩ := restoreSnapshot_recalled hbetween hbetween_sound kTopologyMetaSlotStaged .Staged
  have hkept' := restoreSnapshot_keeps hbetween_sound kTopologyMetaSlotStaged .Staged
  have hframe' := (between.restoreSnapshot_frame kTopologyMetaSlotStaged .Staged).1
  have hprofile' : (m.step (.reboot platform)).local_profile_id = between.local_profile_id := hframe'.local_profile_id
  have hstaged : between.recalled kTopologyMetaSlotStaged .Staged = m.recalled kTopologyMetaSlotStaged .Staged :=
    recalled_congr (hframe.local_profile_id.trans hprofile)
      ((hframe.blobs _ (by decide)).trans (hblobs _)) .Staged
  have hcommitted : start.recalled kTopologyMetaSlotCommitted .Committed =
      m.recalled kTopologyMetaSlotCommitted .Committed := recalled_congr hprofile (hblobs _) .Committed
  have hresult : (m.step (.reboot platform)).topology_committed =
      (start.restoreSnapshot kTopologyMetaSlotCommitted .Committed).1 := hframe'.committed
  refine ⟨hprofile'.trans (hframe.local_profile_id.trans hprofile), ?_, hframe'.sound hbetween_sound, ?_, ?_,
    ?_, ?_, ?_, ?_⟩
  · exact (hframe'.enabled.trans hbetween).trans hon.symm
  · have hlast : (m.step (.reboot platform)).recalled kTopologyMetaSlotCommitted .Committed =
        between.recalled kTopologyMetaSlotCommitted .Committed :=
      recalled_congr hprofile' (hframe'.blobs _ (by decide)) .Committed
    exact hlast.trans (hkept.trans hcommitted)
  · exact hkept'.trans hstaged
  · intro h
    exact hresult.trans ((hread h).trans hcommitted)
  · intro h
    exact hresult.trans (hmiss h)
  · intro h
    exact (hread' h).trans hstaged
  · intro h
    exact hmiss' h

theorem reboot_validated (m : TopologyManager) (platform : Platform) :
    (m.step (.reboot platform)).Validated := by
  let start := (((m.reboot platform).withStaged none).withCommitted none).withAttached []
  have hframe := (start.restoreSnapshot_frame kTopologyMetaSlotCommitted .Committed).1
  let between := (m.rebootCommitted platform).withCommitted
    (start.restoreSnapshot kTopologyMetaSlotCommitted .Committed).1
  have hframe' := (between.restoreSnapshot_frame kTopologyMetaSlotStaged .Staged).1
  have hprofile : (m.step (.reboot platform)).local_profile_id = between.local_profile_id := hframe'.local_profile_id
  refine ⟨?_, ?_⟩
  · intro s hs
    have hvalid := between.restoreSnapshot_valid kTopologyMetaSlotStaged .Staged hs
    rw [IsValid, hprofile]
    exact hvalid
  · intro s hs
    have hresult : (start.restoreSnapshot kTopologyMetaSlotCommitted .Committed).1 = some s :=
      hframe'.committed.symm.trans hs
    have hvalid := start.restoreSnapshot_valid kTopologyMetaSlotCommitted .Committed hresult
    rw [IsValid, hprofile, show between.local_profile_id = start.local_profile_id from hframe.local_profile_id]
    exact hvalid

theorem reboot_running (hon : m.storeEnabled = true) (platform : Platform) :
    (m.step (.reboot platform)).Running :=
  have h := reboot_rebooted hon platform
  ⟨h.enabled.trans hon, h.sound, m.reboot_validated platform⟩

/-- A restart keeps what a start finds in step with the memory exactly when it reads the snapshots that are
there. -/
theorem reboot_recalls_iff (hm : m.Running) (hrecalls : m.Recalls) (platform : Platform) :
    (m.step (.reboot platform)).Recalls ↔ m.Lasts (.reboot platform) := by
  have h := reboot_rebooted hm.enabled platform
  have hcommitted := h.committed_kept.trans hrecalls.committed
  have hstaged := h.staged_kept.trans hrecalls.staged
  constructor
  · intro hafter
    constructor
    · intro hsome
      by_contra hno
      have hlost := h.committed_lost hno
      rw [← hafter.committed, hcommitted] at hlost
      rw [hlost] at hsome
      cases hsome
    · intro hsome
      by_contra hno
      have hlost := h.staged_lost hno
      rw [← hafter.staged, hstaged] at hlost
      rw [hlost] at hsome
      cases hsome
  · rintro ⟨hfirst, hsecond⟩
    refine ⟨?_, ?_⟩
    · rw [hstaged]
      by_cases hread : (m.rebootCommitted platform).ReadsSlot kTopologyMetaSlotStaged
      · rw [h.staged hread, hrecalls.staged]
      · rw [h.staged_lost hread]
        exact Option.not_isSome_iff_eq_none.mp (mt hsecond hread)
    · rw [hcommitted]
      by_cases hread : (m.reboot platform).ReadsSlot kTopologyMetaSlotCommitted
      · rw [h.committed hread, hrecalls.committed]
      · rw [h.committed_lost hread]
        exact Option.not_isSome_iff_eq_none.mp (mt hfirst hread)

end Reboot

section Runs

variable {m : TopologyManager}

theorem unpair_keeps (m : TopologyManager) : KeepsSnapshots m (m.step .unpair) :=
  (KeepsSnapshots.of_meta (m.eraseLocalMetaBlob_frame kTopologyMetaSlotLmk)).trans (.withPaired _ none)

theorem step_running (hm : m.Running) (hrecalls : m.Recalls) (i : TopologyInput) : (m.step i).Running := by
  cases i with
  | stage snapshot => exact (stage_recalls snapshot hm hrecalls).2
  | commit => exact (commit_recalls_iff hm hrecalls).2
  | clear => exact (clear_recalls_iff hm hrecalls).2
  | link master => exact hm.of_keeps (m.restoreTopologyPeers_keeps master)
  | ready slot => exact hm.of_keeps (m.ensureTopologyPeerReadyForSlot_keeps slot)
  | unpair => exact hm.of_keeps m.unpair_keeps
  | reboot platform => exact reboot_running hm.enabled platform

theorem step_recalls_iff (hm : m.Running) (hrecalls : m.Recalls) (i : TopologyInput) :
    (m.step i).Recalls ↔ m.Lasts i := by
  cases i with
  | stage snapshot => exact iff_of_true (stage_recalls snapshot hm hrecalls).1 trivial
  | commit => exact (commit_recalls_iff hm hrecalls).1
  | clear => exact (clear_recalls_iff hm hrecalls).1
  | link master => exact iff_of_true ((m.restoreTopologyPeers_keeps master).recalls hrecalls) trivial
  | ready slot => exact iff_of_true ((m.ensureTopologyPeerReadyForSlot_keeps slot).recalls hrecalls) trivial
  | unpair => exact iff_of_true (m.unpair_keeps.recalls hrecalls) trivial
  | reboot platform => exact reboot_recalls_iff hm hrecalls platform

/-- Every step leaves snapshots that passed the validation, whatever the storage holds or refuses. -/
theorem step_validated (hm : m.Validated) (i : TopologyInput) : (m.step i).Validated := by
  cases i with
  | stage snapshot => exact stage_validated snapshot hm
  | commit =>
    rcases m.commitStagedTopology_cases with ⟨t, s, -, hvalid, ht, hcommit⟩ | ⟨-, hkeeps, -⟩
    · have hend : m.step .commit = t.forgetStaged := congrArg Prod.snd hcommit
      rw [hend]
      refine forgetStaged_validated fun u hu => ?_
      rw [ht.committed] at hu
      obtain rfl : s = u := Option.some.inj hu
      rw [IsValid, ht.profile]
      exact hvalid.isValid
    · exact hkeeps.validated hm
  | clear => exact forgetStaged_validated hm.committed
  | link master => exact (m.restoreTopologyPeers_keeps master).validated hm
  | ready slot => exact (m.ensureTopologyPeerReadyForSlot_keeps slot).validated hm
  | unpair => exact m.unpair_keeps.validated hm
  | reboot platform => exact m.reboot_validated platform

/-- A restart that reads what is there brings back the snapshots that were in memory. -/
theorem reboot_same (hm : m.Running) (hrecalls : m.Recalls) {platform : Platform}
    (hlasts : m.Lasts (.reboot platform)) :
    (m.step (.reboot platform)).topology_staged = m.topology_staged ∧
      (m.step (.reboot platform)).topology_committed = m.topology_committed := by
  have hafter := (reboot_recalls_iff hm hrecalls platform).mpr hlasts
  have h := reboot_rebooted hm.enabled platform
  constructor
  · rw [← hafter.staged, h.staged_kept, hrecalls.staged]
  · rw [← hafter.committed, h.committed_kept, hrecalls.committed]

/-- A start whose reads go well is in step with the storage, whatever that holds. -/
theorem boot_recalls (hon : m.storeEnabled = true) {platform : Platform}
    (hcommitted : (m.reboot platform).ReadsSlot kTopologyMetaSlotCommitted)
    (hstaged : (m.rebootCommitted platform).ReadsSlot kTopologyMetaSlotStaged) :
    (m.step (.reboot platform)).Recalls := by
  have h := reboot_rebooted hon platform
  exact ⟨h.staged_kept.trans (h.staged hstaged).symm, h.committed_kept.trans (h.committed hcommitted).symm⟩

/-- In every run of a started device, whatever its storage refuses, a start would find the two snapshots that are
in memory, at every moment, exactly when each staged snapshot that is given up is erased and each restart reads
the snapshots that are there; and such a restart brings back both as they were. -/
theorem snapshots_survive_restart_iff (m : TopologyManager) (platform : Platform) (hon : m.storeEnabled = true)
    (hcommitted : (m.reboot platform).ReadsSlot kTopologyMetaSlotCommitted)
    (hstaged : (m.rebootCommitted platform).ReadsSlot kTopologyMetaSlotStaged) (inputs : List TopologyInput) :
    ((∀ before after, inputs = before ++ after → (before.foldl step (m.step (.reboot platform))).Recalls) ↔
      Admitted step Lasts (m.step (.reboot platform)) inputs) ∧
    (Admitted step Lasts (m.step (.reboot platform)) inputs →
      ∀ again, (inputs.foldl step (m.step (.reboot platform))).Lasts (.reboot again) →
        ((inputs.foldl step (m.step (.reboot platform))).step (.reboot again)).topology_staged =
            (inputs.foldl step (m.step (.reboot platform))).topology_staged ∧
          ((inputs.foldl step (m.step (.reboot platform))).step (.reboot again)).topology_committed =
            (inputs.foldl step (m.step (.reboot platform))).topology_committed) := by
  have hboot : (m.step (.reboot platform)).Running ∧ (m.step (.reboot platform)).Recalls :=
    ⟨reboot_running hon platform, boot_recalls hon hcommitted hstaged⟩
  have hexact : ∀ (t : TopologyManager) (i : TopologyInput), t.Running ∧ t.Recalls →
      ((step t i).Running ∧ (step t i).Recalls ↔ Lasts t i) :=
    fun t i ht => ⟨fun h => (step_recalls_iff ht.1 ht.2 i).mp h.2,
      fun h => ⟨step_running ht.1 ht.2 i, (step_recalls_iff ht.1 ht.2 i).mpr h⟩⟩
  have halways := always_iff_admitted hexact hboot inputs
  constructor
  · constructor
    · intro hrecalls
      -- a run that stays in step so far is also well formed, so the step lemma applies to its last input
      refine halways.mp fun before after hsplit => ?_
      induction before using List.reverseRecOn generalizing after with
      | nil => exact hboot
      | append_singleton before i ih =>
        obtain ⟨hrunning, hin⟩ := ih (i :: after) (by rw [hsplit, List.append_assoc, List.singleton_append])
        refine ⟨?_, hrecalls (before ++ [i]) after hsplit⟩
        rw [List.foldl_concat]
        exact step_running hrunning hin i
    · intro hlasts before after hsplit
      exact (halways.mpr hlasts before after hsplit).2
  · intro hlasts again hagain
    obtain ⟨hrunning, hrecalls⟩ := halways.mpr hlasts inputs [] (List.append_nil inputs).symm
    exact reboot_same hrunning hrecalls hagain

/-- The group of an enabled slot of a valid snapshot has a seed. -/
theorem IsValid.seed {state : TopologyState} {s : TopologySnapshot} (h : m.IsValid state s) {slot : TopologySlot}
    (hslot : slot ∈ s.enabledSlots) : (findTopologyGroupSeed s slot.group_id).isSome = true := by
  obtain ⟨hid, group, hgroup, henabled, hsame⟩ := validated_group h.1 hslot
  rw [findTopologyGroupSeed, if_neg hid, Option.isSome_map, List.find?_isSome]
  exact ⟨group, hgroup, by simp [henabled, hsame]⟩

/-- From a start on, whatever the storage holds and whichever of its calls fail, the snapshots in memory passed
the validation, in their own states, and every enabled slot of theirs has a seed to derive its key from. -/
theorem snapshots_always_valid (m : TopologyManager) (platform : Platform) (inputs : List TopologyInput) :
    let t := inputs.foldl step (m.step (.reboot platform))
    t.Validated ∧ ∀ s, t.topology_staged = some s ∨ t.topology_committed = some s →
      ∀ slot ∈ s.enabledSlots, (findTopologyGroupSeed s slot.group_id).isSome = true := by
  intro t
  have hvalid : t.Validated := by
    refine List.foldlRecOn inputs step (m.reboot_validated platform) ?_
    intro u hu i _
    exact step_validated hu i
  refine ⟨hvalid, ?_⟩
  rintro s (hs | hs) slot hslot
  · exact (hvalid.staged s hs).seed hslot
  · exact (hvalid.committed s hs).seed hslot

/-- A commit of a staged snapshot stores it as it is validated and forgets the staged one, or it reports an error
and leaves both snapshots, in memory and in the storage, whichever of its calls fails. -/
theorem commit_stores_or_keeps (m : TopologyManager) (hsound : m.StoreSound)
    (hstaged : m.topology_staged.isSome = true) :
    (∃ s, m.CommitsAs s ∧ m.commitStagedTopology.1 = .ok () ∧
        m.commitStagedTopology.2.topology_committed = some s ∧ m.commitStagedTopology.2.topology_staged = none ∧
        (m.storeEnabled = true → m.commitStagedTopology.2.metaBlob kTopologyMetaSlotCommitted =
          some (topologySnapshotBlob s))) ∨
      ∃ error, m.commitStagedTopology.1 = .error error ∧ KeepsSnapshots m m.commitStagedTopology.2 := by
  rcases m.commitStagedTopology_cases with ⟨t, s, -, hs, ht, hcommit⟩ | ⟨-, hkeeps, herror⟩
  · have hframe := t.forgetStaged_frame
    left
    rw [hcommit]
    refine ⟨s, hs, rfl, hframe.committed.trans ht.committed, hframe.staged, fun hon => ?_⟩
    exact (hframe.blobs _ (by decide)).trans (ht.stored hsound hon)
  · obtain ⟨error, hresult⟩ := herror hstaged
    exact .inr ⟨error, hresult, hkeeps⟩

theorem stage_sound (snapshot : TopologySnapshot) (hm : m.StoreSound) :
    (m.stageTopology snapshot).2.StoreSound := by
  rcases m.stageTopology_cases snapshot with ⟨u, s, hkeeps, -, -, hframe, -⟩ | ⟨-, hkeeps⟩
  · exact hframe.sound (hkeeps.sound hm)
  · exact hkeeps.sound hm

end Runs

/-- A slave with an empty store that carries out every call. -/
def carryingSlave : TopologyManager :=
  { storingSlave with store := some (.fresh ⟨true, 1⟩ true ⟨fun _ => none, fun _ => true, 0⟩) }

/-- The slave after its start, linked to its master. -/
def linkedSlave : TopologyManager :=
  (carryingSlave.step (.reboot TopologyDevice.radio)).step (.link semu.master)

/-- A staged topology that the slave's peers allow is committed and stored. -/
theorem staged_topology_committed :
    let m := linkedSlave.step (.stage (bothSides 3 5 1 1))
    ∃ s, m.CommitsAs s ∧ m.commitStagedTopology.2.topology_committed = some s ∧
      m.commitStagedTopology.2.topology_staged = none ∧
      m.commitStagedTopology.2.metaBlob kTopologyMetaSlotCommitted = some (topologySnapshotBlob s) := by
  intro m
  have hlinked : linkedSlave.StoreSound :=
    ((carryingSlave.step (.reboot TopologyDevice.radio)).restoreTopologyPeers_keeps semu.master).sound
      (reboot_running (by decide) TopologyDevice.radio).sound
  have hsound : m.StoreSound := stage_sound (bothSides 3 5 1 1) hlinked
  rcases commit_stores_or_keeps m hsound (by decide +kernel) with
    ⟨s, hs, -, hcommitted, hstaged, hstored⟩ | ⟨error, herror, -⟩
  · exact ⟨s, hs, hcommitted, hstaged, hstored (by decide +kernel)⟩
  · have hok : m.commitStagedTopology.1 = .ok () := by decide +kernel
    rw [hok] at herror
    cases herror

/-- A restart brings back a topology that was staged. -/
theorem staged_topology_survives :
    let t := (carryingSlave.step (.reboot TopologyDevice.radio)).step (.stage (bothSides 3 5 1 1))
    t.topology_staged.isSome = true ∧ (t.step (.reboot TopologyDevice.radio)).topology_staged = t.topology_staged := by
  have hreads : (carryingSlave.reboot TopologyDevice.radio).ReadsSlot kTopologyMetaSlotCommitted ∧
      (carryingSlave.rebootCommitted TopologyDevice.radio).ReadsSlot kTopologyMetaSlotStaged := by
    decide +kernel
  have hrun := (snapshots_survive_restart_iff carryingSlave TopologyDevice.radio (by decide) hreads.1 hreads.2
    [.stage (bothSides 3 5 1 1)]).2 ⟨trivial, trivial⟩ TopologyDevice.radio
  have hagain : ((carryingSlave.step (.reboot TopologyDevice.radio)).step (.stage (bothSides 3 5 1 1))).rebootCommitted
      TopologyDevice.radio |>.ReadsSlot kTopologyMetaSlotStaged := by
    decide +kernel
  have hnone : ((carryingSlave.step (.reboot TopologyDevice.radio)).step
      (.stage (bothSides 3 5 1 1))).topology_committed.isSome = false := by
    decide +kernel
  refine ⟨by decide +kernel, (hrun ⟨fun hsome => ?_, fun _ => hagain⟩).1⟩
  exact absurd (hnone.symm.trans hsome) Bool.false_ne_true

end TopologyManager

end EspNowLink
