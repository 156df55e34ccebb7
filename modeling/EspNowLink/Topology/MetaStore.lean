import EspNowLink.Topology.Manager

namespace EspNowLink

section SlotKeys

theorem hashByte_toNat (h : UInt32) (b : UInt8) :
    (hashByte h b).toNat = (h.toNat ^^^ b.toNat) * 16777619 % 2 ^ 32 := by
  simp [hashByte, kFnvPrime, UInt32.toNat_mul]

theorem xor_mod_cancel {x y c n : Nat} (h : (x ^^^ c) % 2 ^ n = (y ^^^ c) % 2 ^ n) :
    x % 2 ^ n = y % 2 ^ n := by
  rw [Nat.xor_mod_two_pow, Nat.xor_mod_two_pow] at h
  have hagain := congrArg (· ^^^ c % 2 ^ n) h
  simpa only [Nat.xor_assoc, Nat.xor_self, Nat.xor_zero] using hagain

/-- The low 24 bits of a hash step tell the low 24 bits before it apart. -/
theorem hashByte_low {x y : UInt32} {b c : UInt8}
    (h : (hashByte x b).toNat % 2 ^ 24 = (hashByte y c).toNat % 2 ^ 24) :
    (x.toNat ^^^ b.toNat) % 2 ^ 24 = (y.toNat ^^^ c.toNat) % 2 ^ 24 := by
  rw [hashByte_toNat, hashByte_toNat, Nat.mod_mod_of_dvd _ (by decide),
    Nat.mod_mod_of_dvd _ (by decide)] at h
  -- the multiplier is odd
  have hcancel : (x.toNat ^^^ b.toNat) * 16777619 ≡ (y.toNat ^^^ c.toNat) * 16777619 [MOD 2 ^ 24] := h
  exact Nat.ModEq.cancel_right_of_coprime (by decide) hcancel

theorem hashMac_low (mac : MacAddress) {x y : UInt32}
    (h : (hashMac x mac).toNat % 2 ^ 24 = (hashMac y mac).toNat % 2 ^ 24) :
    x.toNat % 2 ^ 24 = y.toNat % 2 ^ 24 := by
  unfold hashMac at h
  generalize mac.toList = bytes at h
  induction bytes generalizing x y with
  | nil => exact h
  | cons b bytes ih => exact xor_mod_cancel (hashByte_low (ih h))

/-- Different slots of one link are kept under different keys. -/
theorem PairingStore.makeMetaKey_inj (s : PairingStore) (localMac peer : MacAddress) {i j : UInt8}
    (h : s.makeMetaKey localMac peer i = s.makeMetaKey localMac peer j) : i = j := by
  have hhash := congrArg (fun k : BlobKey => k.hash.toNat) h
  have hmask (v : UInt32) : (v &&& 0xFFFFFF).toNat = v.toNat % 2 ^ 24 := by
    rw [UInt32.toNat_and]
    exact Nat.and_two_pow_sub_one_eq_mod v.toNat 24
  simp only [PairingStore.makeMetaKey, PairingStore.blobKey, hmask, hashKeyMaterial] at hhash
  have hsalt := hashByte_low (hashMac_low localMac (hashMac_low peer hhash))
  rw [Nat.xor_comm, Nat.xor_comm _ j.toNat] at hsalt
  have hlow := xor_mod_cancel hsalt
  have hi := i.toNat_lt
  have hj := j.toNat_lt
  rw [Nat.mod_eq_of_lt (by omega), Nat.mod_eq_of_lt (by omega)] at hlow
  exact UInt8.toNat_inj.mp hlow

end SlotKeys

namespace TopologyManager

/-- What the backend holds under a local metadata slot. -/
def metaBlob (m : TopologyManager) (slot : UInt8) : Option Bytes :=
  m.store.bind fun s => s.backend.blobs (s.makeMetaKey m.local_mac zeroMac slot)

/-- What the store has in its cache is what its backend holds. -/
def StoreSound (m : TopologyManager) : Prop := ∀ s ∈ m.store, s.CacheSound

/-- `m'` is `m` but for its store, and the store but for the slots of `K`. -/
structure MetaFrame (K : Set UInt8) (m m' : TopologyManager) : Prop where
  rest : m' = { m with store := m'.store }
  enabled : m'.storeEnabled = m.storeEnabled
  sound : m.StoreSound → m'.StoreSound
  blobs : ∀ slot, slot ∉ K → m'.metaBlob slot = m.metaBlob slot

namespace MetaFrame

variable {K L : Set UInt8} {m t u : TopologyManager}

protected theorem refl (m : TopologyManager) : MetaFrame K m m := ⟨rfl, rfl, id, fun _ _ => rfl⟩

protected theorem trans (h : MetaFrame K m t) (h' : MetaFrame K t u) : MetaFrame K m u where
  rest := by
    have hu := h'.rest
    rw [h.rest] at hu
    exact hu
  enabled := h'.enabled.trans h.enabled
  sound := h'.sound ∘ h.sound
  blobs slot hslot := (h'.blobs slot hslot).trans (h.blobs slot hslot)

theorem mono (h : MetaFrame K m t) (hKL : K ⊆ L) : MetaFrame L m t :=
  ⟨h.rest, h.enabled, h.sound, fun slot hslot => h.blobs slot fun hk => hslot (hKL hk)⟩

theorem platform (h : MetaFrame K m t) : t.platform = m.platform := by rw [h.rest]
theorem local_role (h : MetaFrame K m t) : t.local_role = m.local_role := by rw [h.rest]
theorem local_mac (h : MetaFrame K m t) : t.local_mac = m.local_mac := by rw [h.rest]
theorem crypto (h : MetaFrame K m t) : t.crypto = m.crypto := by rw [h.rest]
theorem paired_peer (h : MetaFrame K m t) : t.paired_peer = m.paired_peer := by rw [h.rest]
theorem local_profile_id (h : MetaFrame K m t) : t.local_profile_id = m.local_profile_id := by
  rw [h.rest]
theorem has_peer_window (h : MetaFrame K m t) : t.has_peer_window = m.has_peer_window := by
  rw [h.rest]
theorem staged (h : MetaFrame K m t) : t.topology_staged = m.topology_staged := by rw [h.rest]
theorem committed (h : MetaFrame K m t) : t.topology_committed = m.topology_committed := by
  rw [h.rest]
theorem attached (h : MetaFrame K m t) :
    t.topology_attached_peers = m.topology_attached_peers := by rw [h.rest]

/-- A store that a frame separates from the manager's store gives a frame of managers. -/
theorem of_store {s t : PairingStore} {slots : Set UInt8} (hs : m.store = some s)
    (h : PairingStore.StoreFrame (s.makeMetaKey m.local_mac zeroMac '' slots) s t) :
    MetaFrame slots m (m.withStore t) where
  rest := rfl
  enabled := by simp [storeEnabled, withStore, hs, h.enabled]
  sound hsound := by
    intro u hu
    obtain rfl : t = u := Option.some.inj hu
    exact h.sound (hsound s hs)
  blobs slot hslot := by
    have hkey : t.makeMetaKey m.local_mac zeroMac slot = s.makeMetaKey m.local_mac zeroMac slot := by
      simp [PairingStore.makeMetaKey, h.config]
    have hout : s.makeMetaKey m.local_mac zeroMac slot ∈
        Set.compl (s.makeMetaKey m.local_mac zeroMac '' slots) := by
      rintro ⟨slot', hslot', heq⟩
      exact hslot (s.makeMetaKey_inj _ _ heq ▸ hslot')
    have hblob := h.blobs hout
    simp [metaBlob, withStore, hs, hkey, hblob]

end MetaFrame

theorem saveLocalMetaBlob_frame (m : TopologyManager) (slot : UInt8) (data : Bytes) :
    MetaFrame {slot} m (m.saveLocalMetaBlob slot data).2 ∧
      (m.StoreSound → (m.saveLocalMetaBlob slot data).1 = true →
        (m.saveLocalMetaBlob slot data).2.metaBlob slot = some data) := by
  unfold saveLocalMetaBlob
  cases hs : m.store with
  | none => exact ⟨.refl m, fun _ h => by cases h⟩
  | some s =>
    obtain ⟨hframe, hsaved⟩ := s.saveMetaBlob_frame m.local_mac zeroMac slot data
    rw [← Set.image_singleton] at hframe
    refine ⟨.of_store hs hframe, fun hsound hok => ?_⟩
    have hkey := congrArg (fun c => c.schema_version) hframe.config
    have hblob := hsaved (hsound s hs) hok
    simpa [metaBlob, withStore, PairingStore.makeMetaKey, hkey] using hblob

theorem loadLocalMetaBlob_frame (m : TopologyManager) (slot : UInt8) :
    MetaFrame ∅ m (m.loadLocalMetaBlob slot).2 ∧
      (m.StoreSound → ∀ v, (m.loadLocalMetaBlob slot).1 = some v → m.metaBlob slot = some v) := by
  unfold loadLocalMetaBlob
  cases hs : m.store with
  | none => exact ⟨.refl m, fun _ v h => by cases h⟩
  | some s =>
    obtain ⟨hframe, hread⟩ := s.loadMetaBlob_frame m.local_mac zeroMac slot
    rw [← Set.image_empty (s.makeMetaKey m.local_mac zeroMac)] at hframe
    refine ⟨.of_store hs hframe, fun hsound v hv => ?_⟩
    simpa [metaBlob, hs] using hread (hsound s hs) v hv

theorem eraseLocalMetaBlob_frame (m : TopologyManager) (slot : UInt8) :
    MetaFrame {slot} m (m.eraseLocalMetaBlob slot).2 := by
  unfold eraseLocalMetaBlob
  cases hs : m.store with
  | none => exact .refl m
  | some s =>
    have hframe := s.eraseMetaBlob_frame m.local_mac zeroMac slot
    rw [← Set.image_singleton] at hframe
    exact .of_store hs hframe

theorem saveTopologySnapshotMeta_frame (m : TopologyManager) (slot : UInt8)
    (snapshot : TopologySnapshot) :
    MetaFrame {slot} m (m.saveTopologySnapshotMeta slot snapshot).2 ∧
      (m.StoreSound → m.storeEnabled = true → (m.saveTopologySnapshotMeta slot snapshot).1 = true →
        (m.saveTopologySnapshotMeta slot snapshot).2.metaBlob slot
          = some (topologySnapshotBlob snapshot)) := by
  unfold saveTopologySnapshotMeta
  split
  · rename_i hoff
    exact ⟨.refl m, fun _ hen => by simp [hen] at hoff⟩
  · obtain ⟨hframe, hsaved⟩ := m.saveLocalMetaBlob_frame slot (topologySnapshotBlob snapshot)
    exact ⟨hframe, fun hsound _ hok => hsaved hsound hok⟩

theorem loadTopologySnapshotMeta_frame (m : TopologyManager) (slot : UInt8) :
    MetaFrame ∅ m (m.loadTopologySnapshotMeta slot).2 ∧
      (m.StoreSound → ∀ s, (m.loadTopologySnapshotMeta slot).1 = some s →
        m.storeEnabled = true ∧ ∃ v, m.metaBlob slot = some v ∧ topologySnapshotOfBlob v = some s) := by
  unfold loadTopologySnapshotMeta
  split
  · exact ⟨.refl m, fun _ s h => by cases h⟩
  · rename_i hon
    obtain ⟨hframe, hread⟩ := m.loadLocalMetaBlob_frame slot
    refine ⟨hframe, fun hsound s hs => ⟨by simpa using hon, ?_⟩⟩
    obtain ⟨v, hv, hparse⟩ := Option.bind_eq_some_iff.mp hs
    exact ⟨v, hread hsound v hv, hparse⟩

theorem eraseTopologySnapshotMeta_frame (m : TopologyManager) (slot : UInt8) :
    MetaFrame {slot} m (m.eraseTopologySnapshotMeta slot).2 := by
  unfold eraseTopologySnapshotMeta
  split
  · exact .refl m
  · exact m.eraseLocalMetaBlob_frame slot

/-- Reading the key metadata changes no other slot, and gives what the store holds. -/
theorem loadTopologyLmkMeta_frame (m : TopologyManager) :
    MetaFrame {kTopologyMetaSlotLmk} m m.loadTopologyLmkMeta.2 ∧
      (m.StoreSound → ∀ saved, m.loadTopologyLmkMeta.1 = .ok saved →
        m.storeEnabled = true ∧ ∃ v, m.metaBlob kTopologyMetaSlotLmk = some v ∧
          lmkMetaOfBlob v = .ok saved) := by
  unfold loadTopologyLmkMeta
  split
  · exact ⟨.refl m, fun _ s h => by cases h⟩
  · rename_i hon
    obtain ⟨hframe, hread⟩ := m.loadLocalMetaBlob_frame kTopologyMetaSlotLmk
    have hwide := hframe.mono (Set.empty_subset {kTopologyMetaSlotLmk})
    rcases hload : m.loadLocalMetaBlob kTopologyMetaSlotLmk with ⟨blob, t⟩
    rw [hload] at hread hwide
    cases blob with
    | none => exact ⟨hwide, fun _ s h => by cases h⟩
    | some v =>
      dsimp only
      cases hparse : lmkMetaOfBlob v with
      | error e =>
        exact ⟨hwide.trans (t.eraseLocalMetaBlob_frame _), fun _ s h => by cases h⟩
      | ok saved =>
        refine ⟨hwide, fun hsound s h => ⟨by simpa using hon, v, hread hsound v rfl, ?_⟩⟩
        rw [hparse]
        exact h

theorem saveTopologyLmkMeta_frame (m : TopologyManager) (snapshot : TopologySnapshot) :
    MetaFrame {kTopologyMetaSlotLmk} m (m.saveTopologyLmkMeta snapshot).2 := by
  unfold saveTopologyLmkMeta
  split
  · exact .refl m
  · split
    · exact .refl m
    · split
      · exact .refl m
      · split
        · exact .refl m
        · split
          · exact m.eraseLocalMetaBlob_frame _
          · split
            · exact .refl m
            · exact (m.saveLocalMetaBlob_frame _ _).1

/-- Saved key metadata of at least one peer is what the chosen keys are written as. -/
theorem saveTopologyLmkMeta_saved (m : TopologyManager) (snapshot : TopologySnapshot)
    (hsound : m.StoreSound) (hen : m.storeEnabled = true)
    (h : (m.saveTopologyLmkMeta snapshot).1 = true) :
    ∃ paired_master choice, m.paired_peer = some paired_master ∧ m.local_profile_id.toUInt8 ≠ 0 ∧
      m.peerChoice snapshot = .ok choice ∧
      (choice.isEmpty = false → choice.size ≤ 255 ∧
        (m.saveTopologyLmkMeta snapshot).2.metaBlob kTopologyMetaSlotLmk
          = some (lmkMetaBlob (m.lmkMeta snapshot paired_master choice))) := by
  unfold saveTopologyLmkMeta at h ⊢
  rw [hen] at h ⊢
  simp only [Bool.not_true, Bool.false_eq_true, if_false] at h ⊢
  cases hpair : m.paired_peer with
  | none =>
    rw [hpair] at h
    cases h
  | some paired_master =>
    simp only [hpair] at h ⊢
    split at h
    · cases h
    · rename_i hprofile
      cases hchoice : m.peerChoice snapshot with
      | error e =>
        rw [hchoice] at h
        cases h
      | ok choice =>
        simp only [hchoice] at h
        refine ⟨paired_master, choice, rfl, hprofile, rfl, fun hsome => ?_⟩
        rw [hsome] at h
        simp only [Bool.false_eq_true, if_false] at h
        split at h
        · cases h
        · rename_i hsize
          refine ⟨Nat.not_lt.mp hsize, ?_⟩
          simp only [if_neg hprofile, hsome, Bool.false_eq_true, if_false, if_neg hsize]
          exact (m.saveLocalMetaBlob_frame _ _).2 hsound h

end TopologyManager

end EspNowLink
