import EspNowLink.Topology.PeerChoice

namespace EspNowLink

namespace TopologyManager

variable {m m' : TopologyManager}

/-- What a successful commit of `S` leaves behind. -/
structure Commits (m m' : TopologyManager) (S : TopologySnapshot)
    (choice : PeerMap (LmkKey × UInt8)) : Prop where
  same : SameDevice m m'
  chosen : m.peerChoice S = .ok choice
  attached : ∀ peer lmk group_id, choice[peer]? = some (lmk, group_id) →
    m.paired_peer ≠ some peer → m'.platform.attached peer = some ⟨true, some lmk⟩
  enabled : m'.storeEnabled = m.storeEnabled
  sound : m.StoreSound → m'.StoreSound
  snapshot : m.StoreSound → m.storeEnabled = true →
    m'.metaBlob kTopologyMetaSlotCommitted = some (topologySnapshotBlob S)
  keys : m.StoreSound → m.storeEnabled = true → choice.isEmpty = false →
    ∃ paired_master, m.paired_peer = some paired_master ∧ choice.size ≤ 255 ∧
      m'.metaBlob kTopologyMetaSlotLmk = some (lmkMetaBlob (m.lmkMeta S paired_master choice))

theorem withStaged_same (m : TopologyManager) (staged : Option TopologySnapshot) :
    SameDevice m (m.withStaged staged) := ⟨rfl, rfl, rfl, rfl, rfl, rfl⟩

theorem withCommitted_same (m : TopologyManager) (committed : Option TopologySnapshot) :
    SameDevice m (m.withCommitted committed) := ⟨rfl, rfl, rfl, rfl, rfl, rfl⟩

theorem persistCommit_ok {normalized : TopologySnapshot} {old_attached : List MacAddress}
    {old_lmk_blob : Option Bytes}
    (h : (m.persistCommit normalized old_attached old_lmk_blob).1 = .ok ()) :
    SameDevice m (m.persistCommit normalized old_attached old_lmk_blob).2 ∧
      (m.persistCommit normalized old_attached old_lmk_blob).2.platform = m.platform ∧
      (m.persistCommit normalized old_attached old_lmk_blob).2.storeEnabled = m.storeEnabled ∧
      (m.StoreSound → (m.persistCommit normalized old_attached old_lmk_blob).2.StoreSound ∧
        (m.persistCommit normalized old_attached old_lmk_blob).2.metaBlob kTopologyMetaSlotLmk =
          m.metaBlob kTopologyMetaSlotLmk ∧
        (m.storeEnabled = true →
          (m.persistCommit normalized old_attached old_lmk_blob).2.metaBlob kTopologyMetaSlotCommitted
            = some (topologySnapshotBlob normalized))) := by
  unfold persistCommit at h ⊢
  dsimp only at h ⊢
  obtain ⟨hframe, hsaved⟩ := (m.withCommitted (some normalized)).saveTopologySnapshotMeta_frame
    kTopologyMetaSlotCommitted normalized
  rcases hs : (m.withCommitted (some normalized)).saveTopologySnapshotMeta
    kTopologyMetaSlotCommitted normalized with ⟨ok, t⟩
  rw [hs] at h hframe hsaved
  cases ok with
  | false => cases h
  | true =>
    have herase := (t.withStaged none).eraseTopologySnapshotMeta_frame kTopologyMetaSlotStaged
    have hsame : SameDevice m t := (withCommitted_same m _).trans hframe.same
    have hcleared : SameDevice m (t.withStaged none) := hsame.trans (withStaged_same t none)
    refine ⟨hcleared.trans herase.same, herase.platform.trans hframe.platform,
      herase.enabled.trans hframe.enabled, fun hsound => ⟨herase.sound (hframe.sound hsound), ?_, ?_⟩⟩
    · exact (herase.blobs _ (by decide)).trans (hframe.blobs _ (by decide))
    · intro hen
      exact (herase.blobs _ (by decide)).trans (hsaved hsound hen rfl)

theorem commitStagedTopology_ok {staged : TopologySnapshot} (hrole : m.local_role = .Slave)
    (hstaged : m.topology_staged = some staged) (h : m.commitStagedTopology.1 = .ok ()) :
    ∃ S choice, validateTopologySnapshot m.local_profile_id
        ((staged.withState .Committed).withChecksum 0) = .ok S ∧
      Commits m m.commitStagedTopology.2 S choice := by
  unfold commitStagedTopology at h ⊢
  rw [hstaged] at h ⊢
  dsimp only at h ⊢
  cases hvalid : validateTopologySnapshot m.local_profile_id
      ((staged.withState .Committed).withChecksum 0) with
  | error e =>
    rw [hvalid] at h
    cases h
  | ok S =>
    rw [hvalid] at h
    dsimp only at h ⊢
    have hold : MetaFrame ∅ m m.oldLmkBlob.2 := by
      unfold oldLmkBlob
      split
      · exact (m.loadLocalMetaBlob_frame _).1
      · exact .refl m
    rcases hblob : m.oldLmkBlob with ⟨old_lmk_blob, t⟩
    rw [hblob] at h hold
    dsimp only at h hold ⊢
    have htrole : t.local_role = .Slave := hold.local_role.trans hrole
    rw [if_neg (not_not.mpr htrole)] at h ⊢
    have hpeers := t.materializeTopologyPeers_frame S
    have hattached := materializeTopologyPeers_attached S htrole
    rcases hmat : t.materializeTopologyPeers S with ⟨res, u⟩
    rw [hmat] at h hpeers hattached
    cases res with
    | error e => cases h
    | ok _ =>
      obtain ⟨choice, hchoice, hattached⟩ := hattached rfl
      dsimp only at h hpeers hattached ⊢
      have hsave := u.saveTopologyLmkMeta_frame S
      have hsaved := u.saveTopologyLmkMeta_saved S
      rcases hv : u.saveTopologyLmkMeta S with ⟨ok, v⟩
      rw [hv] at h hsave hsaved
      cases ok with
      | false => cases h
      | true =>
        dsimp only at h hsave hsaved ⊢
        obtain ⟨hsame, hplat, hen, hstore⟩ := persistCommit_ok h
        have hmt : SameDevice m t := hold.same
        have hmu : SameDevice m u := hmt.trans hpeers.same
        have htc : m.peerChoice S = .ok choice := (hmt.peerChoice S).symm.trans hchoice
        have huen : u.storeEnabled = m.storeEnabled := hpeers.storeEnabled.trans hold.enabled
        have husound : m.StoreSound → u.StoreSound :=
          fun hsound => hpeers.storeSound.mpr (hold.sound hsound)
        refine ⟨S, choice, rfl, (hmu.trans hsave.same).trans hsame, htc, ?_, ?_, ?_, ?_, ?_⟩
        · intro peer lmk group_id hget hactive
          rw [hplat, hsave.platform]
          exact hattached peer lmk group_id hget (by rwa [hmt.paired_peer])
        · exact hen.trans (hsave.enabled.trans huen)
        · exact fun hsound => (hstore (hsave.sound (husound hsound))).1
        · exact fun hsound hon => (hstore (hsave.sound (husound hsound))).2.2
            ((hsave.enabled.trans huen).trans hon)
        · intro hsound hon hsome
          obtain ⟨master, choice', hmaster, -, hchoice', hblob⟩ :=
            hsaved (husound hsound) (huen.trans hon) rfl
          obtain rfl : choice = choice' := by
            rw [hmu.peerChoice S, htc] at hchoice'
            exact Except.ok.inj hchoice'
          obtain ⟨hsize, hblob⟩ := hblob hsome
          refine ⟨master, hmu.paired_peer.symm.trans hmaster, hsize, ?_⟩
          rw [(hstore (hsave.sound (husound hsound))).2.1, hblob, hmu.lmkMeta]

/-- Without a store a commit fails at the peers only. -/
theorem commitStagedTopology_storeless {staged S : TopologySnapshot} (hrole : m.local_role = .Slave)
    (hstaged : m.topology_staged = some staged)
    (hform : validateTopologySnapshot m.local_profile_id
      ((staged.withState .Committed).withChecksum 0) = .ok S)
    (hoff : m.storeEnabled = false) (hmat : (m.materializeTopologyPeers S).1 = .ok ()) :
    m.commitStagedTopology.1 = .ok () := by
  have hold : m.oldLmkBlob = (none, m) := by simp [oldLmkBlob, hoff]
  have hframe := m.materializeTopologyPeers_frame S
  unfold commitStagedTopology
  rw [hstaged]
  dsimp only
  rw [hform]
  dsimp only
  rw [hold]
  dsimp only
  rw [if_neg (not_not.mpr hrole)]
  rcases hres : m.materializeTopologyPeers S with ⟨res, u⟩
  rw [hres] at hmat hframe
  dsimp only at hmat hframe ⊢
  subst hmat
  have hsave : u.saveTopologyLmkMeta S = (true, u) := by
    simp [saveTopologyLmkMeta, hframe.storeEnabled, hoff]
  have hcoff : (u.withCommitted (some S)).storeEnabled = false := hframe.storeEnabled.trans hoff
  simp [hsave, persistCommit, saveTopologySnapshotMeta, hcoff]

/-- A restart: what is kept is in the backend of the store. -/
def reboot (m : TopologyManager) (platform : Platform) : TopologyManager :=
  { m with
    paired_peer := none
    platform := platform
    store := m.store.map fun s => { s with blob_cache := ∅, blob_cache_access_seq := 0 }
    topology_staged := none
    topology_committed := none
    topology_attached_peers := [] }

theorem reboot_storeSound (m : TopologyManager) (p : Platform) : (m.reboot p).StoreSound := by
  intro s hs
  obtain ⟨t, -, rfl⟩ := Option.map_eq_some_iff.mp hs
  intro key e h
  simp at h

theorem reboot_metaBlob (m : TopologyManager) (p : Platform) (slot : UInt8) :
    (m.reboot p).metaBlob slot = m.metaBlob slot := by
  cases hs : m.store <;>
    simp [metaBlob, reboot, hs, PairingStore.makeMetaKey]

theorem reboot_storeEnabled (m : TopologyManager) (p : Platform) :
    (m.reboot p).storeEnabled = m.storeEnabled := by
  cases hs : m.store <;> simp [storeEnabled, reboot, hs, PairingStore.enabled]

theorem restoreSnapshot_frame (m : TopologyManager) (slot : UInt8) (state : TopologyState) :
    MetaFrame {slot} m (m.restoreSnapshot slot state).2 ∧
      (m.StoreSound → ∀ s, (m.restoreSnapshot slot state).1 = some s → m.storeEnabled = true ∧
        ∃ v stored, m.metaBlob slot = some v ∧ topologySnapshotOfBlob v = some stored ∧
          validateTopologySnapshot m.local_profile_id (stored.withState state) = .ok s) := by
  unfold restoreSnapshot
  obtain ⟨hframe, hread⟩ := m.loadTopologySnapshotMeta_frame slot
  have hwide := hframe.mono (Set.empty_subset {slot})
  rcases hload : m.loadTopologySnapshotMeta slot with ⟨loaded, t⟩
  rw [hload] at hread hwide
  cases loaded with
  | none => exact ⟨hwide, fun _ s h => by cases h⟩
  | some stored =>
    have hprofile : t.local_profile_id = m.local_profile_id := hwide.local_profile_id
    dsimp only
    rw [hprofile]
    cases hvalid : validateTopologySnapshot m.local_profile_id (stored.withState state) with
    | error e =>
      exact ⟨hwide.trans (t.eraseTopologySnapshotMeta_frame slot), fun _ s h => by cases h⟩
    | ok snapshot =>
      refine ⟨hwide, fun hsound s h => ?_⟩
      obtain ⟨hon, v, hv, hparse⟩ := hread hsound stored rfl
      obtain rfl : snapshot = s := Option.some.inj h
      exact ⟨hon, v, stored, hv, hparse, hvalid⟩

/-- After a restart the committed snapshot is the stored one, or none. -/
theorem restoreTopologySnapshots_frame {m : TopologyManager} (hsound : m.StoreSound) :
    SameDevice m m.restoreTopologySnapshots ∧
      m.restoreTopologySnapshots.platform = m.platform ∧ m.restoreTopologySnapshots.StoreSound ∧
      m.restoreTopologySnapshots.metaBlob kTopologyMetaSlotLmk = m.metaBlob kTopologyMetaSlotLmk ∧
      ∀ s, m.restoreTopologySnapshots.topology_committed = some s → m.storeEnabled = true ∧
        ∃ v stored, m.metaBlob kTopologyMetaSlotCommitted = some v ∧
          topologySnapshotOfBlob v = some stored ∧
          validateTopologySnapshot m.local_profile_id (stored.withState .Committed) = .ok s := by
  unfold restoreTopologySnapshots
  dsimp only
  obtain ⟨hcframe, hcread⟩ := (((m.withStaged none).withCommitted none).withAttached
    []).restoreSnapshot_frame kTopologyMetaSlotCommitted .Committed
  rcases hcload : (((m.withStaged none).withCommitted none).withAttached []).restoreSnapshot
    kTopologyMetaSlotCommitted .Committed with ⟨committed, t⟩
  rw [hcload] at hcframe hcread
  obtain ⟨hsframe, -⟩ := (t.withCommitted committed).restoreSnapshot_frame kTopologyMetaSlotStaged
    .Staged
  rcases hsload : (t.withCommitted committed).restoreSnapshot kTopologyMetaSlotStaged .Staged
    with ⟨staged, u⟩
  rw [hsload] at hsframe
  dsimp only at hcframe hcread hsframe ⊢
  have hcleared : SameDevice m (((m.withStaged none).withCommitted none).withAttached []) :=
    ⟨rfl, rfl, rfl, rfl, rfl, rfl⟩
  have htu : SameDevice t u := (withCommitted_same t committed).trans hsframe.same
  refine ⟨((hcleared.trans hcframe.same).trans htu).trans (withStaged_same u staged),
    hsframe.platform.trans hcframe.platform, hsframe.sound (hcframe.sound hsound), ?_, ?_⟩
  · exact (hsframe.blobs _ (by decide)).trans (hcframe.blobs _ (by decide))
  · intro s hs
    obtain rfl : committed = some s := hsframe.committed.symm.trans hs
    exact hcread hsound s rfl

theorem desiredFromNvs_keys {saved : TopologyPersistedLmkMeta} {peer : MacAddress} {lmk : LmkKey}
    {slots : List TopologySlot} {desired desired' : PeerMap LmkKey}
    (hok : desiredFromNvs saved slots desired = .ok desired')
    (hkey : ∀ k, desired[peer]? = some k → k = lmk)
    (hsaved : ∀ e ∈ saved.entries, e.peer = peer → e.lmk = lmk) :
    ∀ k, desired'[peer]? = some k → k = lmk := by
  induction slots generalizing desired with
  | nil =>
    rw [desiredFromNvs, Except.ok.injEq] at hok
    rwa [← hok]
  | cons slot slots ih =>
    rw [desiredFromNvs] at hok
    split at hok
    · exact ih hok hkey
    · split at hok
      · cases hok
      · rename_i found hfound
        split at hok
        · refine ih hok fun k hk => ?_
          rw [PeerMap.getElem?_insert] at hk
          split at hk
          · rename_i hpeer
            obtain ⟨e, he, rfl⟩ := Option.map_eq_some_iff.mp hfound
            obtain rfl := Option.some.inj hk
            have hat := List.find?_some he
            rw [beq_iff_eq] at hat
            exact hsaved e (List.mem_of_find?_eq_some he) (hat.trans hpeer)
          · exact hkey k hk
        · split at hok
          · cases hok
          · exact ih hok hkey

/-- The metadata that the store may hold for `S`: nothing valid, or what a commit of `S` saves. -/
def KeepsMeta (m : TopologyManager) (S : TopologySnapshot) (paired_master : MacAddress) : Prop :=
  ∀ saved, m.loadTopologyLmkMeta.1 = .ok saved →
    m.validateTopologyLmkMeta saved S paired_master = .ok () →
    ∃ choice, m.peerChoice S = .ok choice ∧ saved = m.lmkMeta S paired_master choice

theorem mem_lmkMeta_entries {S : TopologySnapshot} {master : MacAddress}
    {choice : PeerMap (LmkKey × UInt8)} {e : TopologyPersistedLmkEntry} :
    e ∈ (m.lmkMeta S master choice).entries ↔ choice[e.peer]? = some (e.lmk, e.group_id) := by
  obtain ⟨peer, lmk, group_id⟩ := e
  have hmem := Std.TreeMap.mem_toList_iff_getElem?_eq_some (t := choice) (k := peer)
    (v := (lmk, group_id))
  rw [← hmem]
  simp [lmkMeta]

theorem desiredFromMeta_frame (m : TopologyManager) (S : TopologySnapshot) (master : MacAddress) :
    MetaFrame {kTopologyMetaSlotLmk} m (m.desiredFromMeta S master).2 := by
  obtain ⟨hframe, -⟩ := m.loadTopologyLmkMeta_frame
  unfold desiredFromMeta
  rcases hload : m.loadTopologyLmkMeta with ⟨res, t⟩
  rw [hload] at hframe
  cases res with
  | error e => exact hframe
  | ok saved =>
    dsimp only
    cases t.validateTopologyLmkMeta saved S master with
    | error e => exact hframe
    | ok _ => cases buildDesiredTopologyPeersFromNvs S saved <;> exact hframe

theorem validateTopologyLmkMeta_congr {m m' : TopologyManager} (h : SameDevice m m') :
    m'.validateTopologyLmkMeta = m.validateTopologyLmkMeta := by
  funext saved S master
  simp only [validateTopologyLmkMeta, h.local_mac, h.local_profile_id]

theorem desiredFromMeta_keys {S : TopologySnapshot} {master : MacAddress} {peer : MacAddress}
    {lmk : LmkKey} {desired : PeerMap LmkKey} (hmeta : m.KeepsMeta S master)
    (hkey : ∀ choice k group_id, m.peerChoice S = .ok choice →
      choice[peer]? = some (k, group_id) → k = lmk)
    (h : (m.desiredFromMeta S master).1 = some desired) :
    ∀ k, desired[peer]? = some k → k = lmk := by
  have hsame := (m.loadTopologyLmkMeta_frame).1.same
  unfold desiredFromMeta at h
  unfold KeepsMeta at hmeta
  rcases hload : m.loadTopologyLmkMeta with ⟨res, t⟩
  rw [hload] at h hmeta hsame
  cases res with
  | error e => cases h
  | ok saved =>
    dsimp only at h
    rw [validateTopologyLmkMeta_congr hsame] at h
    cases hvalid : m.validateTopologyLmkMeta saved S master with
    | error e =>
      rw [hvalid] at h
      cases h
    | ok _ =>
      obtain ⟨choice, hchoice, rfl⟩ := hmeta saved rfl hvalid
      rw [hvalid] at h
      dsimp only at h
      cases hbuild : buildDesiredTopologyPeersFromNvs S (m.lmkMeta S master choice) with
      | error e =>
        rw [hbuild] at h
        cases h
      | ok built =>
        rw [hbuild] at h
        obtain rfl : built = desired := Option.some.inj h
        refine desiredFromNvs_keys hbuild (fun k hk => by simp at hk) fun e he hpeer => ?_
        subst hpeer
        exact hkey choice e.lmk e.group_id hchoice (mem_lmkMeta_entries.mp he)

theorem slotLmkFromMeta_frame (m : TopologyManager) (S : TopologySnapshot) (master : MacAddress)
    (slot : TopologySlot) : MetaFrame {kTopologyMetaSlotLmk} m (m.slotLmkFromMeta S master slot).2 := by
  obtain ⟨hframe, -⟩ := m.loadTopologyLmkMeta_frame
  unfold slotLmkFromMeta
  rcases hload : m.loadTopologyLmkMeta with ⟨res, t⟩
  rw [hload] at hframe
  cases res with
  | error e => exact hframe
  | ok saved =>
    dsimp only
    cases t.validateTopologyLmkMeta saved S master <;> exact hframe

theorem slotLmkFromMeta_chosen {S : TopologySnapshot} {master : MacAddress} {slot : TopologySlot}
    {lmk : LmkKey} (hmeta : m.KeepsMeta S master)
    (h : (m.slotLmkFromMeta S master slot).1 = some lmk) :
    ∃ choice group_id, m.peerChoice S = .ok choice ∧ choice[slot.peer]? = some (lmk, group_id) := by
  have hsame := (m.loadTopologyLmkMeta_frame).1.same
  unfold slotLmkFromMeta at h
  unfold KeepsMeta at hmeta
  rcases hload : m.loadTopologyLmkMeta with ⟨res, t⟩
  rw [hload] at h hmeta hsame
  cases res with
  | error e => cases h
  | ok saved =>
    dsimp only at h
    rw [validateTopologyLmkMeta_congr hsame] at h
    cases hvalid : m.validateTopologyLmkMeta saved S master with
    | error e =>
      rw [hvalid] at h
      cases h
    | ok _ =>
      obtain ⟨choice, hchoice, rfl⟩ := hmeta saved rfl hvalid
      rw [hvalid] at h
      obtain ⟨e, he, rfl⟩ := Option.map_eq_some_iff.mp h
      have hat := List.find?_some he
      rw [beq_iff_eq] at hat
      rw [← hat]
      exact ⟨choice, e.group_id, hchoice, mem_lmkMeta_entries.mp (List.mem_of_find?_eq_some he)⟩

/-- A peer made ready on demand is attached under the stored key, or under that of the slot's own
group. -/
theorem ensureTopologyPeerReadyForSlot_attached {S : TopologySnapshot} {master : MacAddress}
    {slot : TopologySlot} (hrole : m.local_role = .Slave) (hon : slot.enabled = true)
    (hpaired : m.paired_peer = some master) (hpeer : slot.peer ≠ master)
    (hcommitted : m.topology_committed = some S)
    (hok : (m.ensureTopologyPeerReadyForSlot slot).1 = .ok ()) :
    ∃ lmk, (m.ensureTopologyPeerReadyForSlot slot).2.platform.attached slot.peer
        = some ⟨true, some lmk⟩ ∧
      ((m.slotLmkFromMeta S master slot).1 = some lmk ∨
        m.deriveTopologySlotLmk S slot = .ok lmk) := by
  unfold ensureTopologyPeerReadyForSlot at hok ⊢
  rw [if_neg (not_not.mpr hrole), if_neg (by simp [hon])] at hok ⊢
  split at hok
  · cases hok
  · rename_i hwindow
    rw [if_neg hwindow]
    simp only [hpaired, hcommitted, if_neg (Ne.symm hpeer)] at hok ⊢
    have hsame := (m.slotLmkFromMeta_frame S master slot).same
    rcases hfound : m.slotLmkFromMeta S master slot with ⟨found, t⟩
    rw [hfound] at hok hsame
    cases found with
    | some lmk =>
      dsimp only at hok ⊢
      have hatt : (t.platform.addPeer slot.peer true (some lmk)).1 = true →
          (t.platform.addPeer slot.peer true (some lmk)).2.attached slot.peer = some ⟨true, some lmk⟩ :=
        Platform.addPeer_attached
      rcases hadd : t.platform.addPeer slot.peer true (some lmk) with ⟨ok, p⟩
      rw [hadd] at hok hatt
      cases ok with
      | false => cases hok
      | true => exact ⟨lmk, hatt rfl, .inl rfl⟩
    | none =>
      dsimp only at hok ⊢
      rw [hsame.deriveTopologySlotLmk] at hok ⊢
      cases hderive : m.deriveTopologySlotLmk S slot with
      | error e =>
        rw [hderive] at hok
        cases hok
      | ok lmk =>
        rw [hderive] at hok
        dsimp only at hok ⊢
        have hatt : (t.platform.addPeer slot.peer true (some lmk)).1 = true →
            (t.platform.addPeer slot.peer true (some lmk)).2.attached slot.peer
              = some ⟨true, some lmk⟩ :=
          Platform.addPeer_attached
        rcases hadd : t.platform.addPeer slot.peer true (some lmk) with ⟨ok, p⟩
        rw [hadd] at hok hatt
        cases ok with
        | false => cases hok
        | true =>
          refine ⟨lmk, ?_, .inr rfl⟩
          dsimp only
          rw [((t.withPlatform p).saveTopologyLmkMeta_frame S).platform]
          exact hatt rfl

/-- Whatever a restart attaches for a peer is the peer's chosen key. -/
theorem restoreTopologyPeers_held {master : MacAddress} {peer : MacAddress} {lmk : LmkKey}
    (h : m.platform.HeldUnder peer lmk)
    (hmeta : ∀ S, m.topology_committed = some S → (m.withPaired (some master)).KeepsMeta S master)
    (hkey : ∀ S choice k group_id, m.topology_committed = some S →
      (m.withPaired (some master)).peerChoice S = .ok choice →
      choice[peer]? = some (k, group_id) → k = lmk) :
    (m.restoreTopologyPeers master).platform.HeldUnder peer lmk := by
  have hderive (S : TopologySnapshot) (t : TopologyManager) (hS : m.topology_committed = some S)
      (hsame : SameDevice (m.withPaired (some master)) t) (hheld : t.platform.HeldUnder peer lmk) :
      (t.materializeTopologyPeers S).2.platform.HeldUnder peer lmk ∧
        ((t.materializeTopologyPeers S).2.saveTopologyLmkMeta S).2.platform.HeldUnder peer lmk := by
    have hmat := materializeTopologyPeers_held (m := t) S hheld
      fun choice k group_id hchoice => hkey S choice k group_id hS (hsame.peerChoice S ▸ hchoice)
    refine ⟨hmat, ?_⟩
    rw [((t.materializeTopologyPeers S).2.saveTopologyLmkMeta_frame S).platform]
    exact hmat
  unfold restoreTopologyPeers
  dsimp only
  cases hS : m.topology_committed with
  | none =>
    have hnone : (m.withPaired (some master)).topology_committed = none := hS
    rw [hnone]
    exact h
  | some S =>
    have hsome : (m.withPaired (some master)).topology_committed = some S := hS
    rw [hsome]
    dsimp only
    have hframe := (m.withPaired (some master)).desiredFromMeta_frame S master
    have hkeys : ∀ desired, ((m.withPaired (some master)).desiredFromMeta S master).1 = some desired →
        ∀ k, desired[peer]? = some k → k = lmk := fun _ => desiredFromMeta_keys (hmeta S hS)
      (fun choice k group_id => hkey S choice k group_id hS)
    rcases hdesired : (m.withPaired (some master)).desiredFromMeta S master with ⟨found, t⟩
    rw [hdesired] at hframe hkeys
    have ht : t.platform.HeldUnder peer lmk := by
      rw [hframe.platform]
      exact h
    cases found with
    | none =>
      obtain ⟨hfailed, hmade⟩ := hderive S t hS hframe.same ht
      dsimp only
      rcases hmat : t.materializeTopologyPeers S with ⟨res, u⟩
      rw [hmat] at hfailed hmade
      cases res with
      | error e => exact hfailed
      | ok _ => exact hmade
    | some desired =>
      dsimp only
      have happly := applyTopologyDesiredPeers_held (m := t) ht (hkeys desired rfl)
      have hpeers := (t.applyTopologyDesiredPeers_frame desired).same
      rcases hres : t.applyTopologyDesiredPeers desired with ⟨res, u⟩
      rw [hres] at happly hpeers
      cases res with
      | ok _ => exact happly
      | error e =>
        obtain ⟨hfailed, hmade⟩ := hderive S u hS (hframe.same.trans hpeers) happly
        dsimp only
        rcases hmat : u.materializeTopologyPeers S with ⟨res, v⟩
        rw [hmat] at hfailed hmade
        cases res with
        | error e => exact hfailed
        | ok _ => exact hmade

end TopologyManager

end EspNowLink
