import EspNowLink.Pairing.Engine
import EspNowLink.Platform.StoreFrame

namespace EspNowLink.PairingEngine

/-- Sending changes the platform's log and the time-sync marks, not the peer table. -/
theorem sendControl_cases (e : PairingEngine) (dest : MacAddress) (type : MessageType)
    (corr_id : UInt32) (payload : Bytes) :
    ∃ ok platform marked at_ms, e.sendControl dest type corr_id payload =
        (ok, { e with platform := platform, has_time_sync_tx := marked,
                      last_time_sync_tx_ms := at_ms }) ∧
      platform.attached = e.platform.attached ∧ platform.channel = e.platform.channel := by
  have hwrap : ∃ wire flags platform marked at_ms, e.wrapTimeSync payload =
        (wire, flags, { e with platform := platform, has_time_sync_tx := marked,
                               last_time_sync_tx_ms := at_ms }) ∧
      platform.attached = e.platform.attached ∧ platform.channel = e.platform.channel := by
    unfold wrapTimeSync
    split
    · cases h : e.platform.nowEpochSec with
      | mk epoch platform =>
        have hp : platform = e.platform.next := (congrArg Prod.snd h).symm
        subst hp
        cases epoch with
        | none => exact ⟨_, _, _, _, _, rfl, rfl, rfl⟩
        | some t => exact ⟨_, _, _, _, _, rfl, rfl, rfl⟩
    · exact ⟨_, _, _, _, _, rfl, rfl, rfl⟩
  obtain ⟨wire, flags, platform, marked, at_ms, hw, hatt, hch⟩ := hwrap
  unfold sendControl
  rw [hw]
  dsimp only
  split
  · exact ⟨_, _, _, _, rfl, hatt, hch⟩
  · exact ⟨_, _, _, _, rfl, by simpa using hatt, by simpa using hch⟩

theorem attachPeer_cases (e : PairingEngine) (mac : MacAddress) (encrypted : Bool)
    (lmk : Option LmkKey) :
    ∃ ok platform, e.attachPeer mac encrypted lmk = (ok, { e with platform := platform }) ∧
      platform.channel = e.platform.channel ∧
      (∀ other, other ≠ mac → platform.attached other = e.platform.attached other) ∧
      (ok = true → platform.attached mac = some ⟨encrypted, lmk⟩) :=
  ⟨_, _, rfl, Platform.addPeer_channel _ _ _ _,
    fun _ h => Platform.addPeer_attached_of_ne _ _ _ h, Platform.addPeer_attached⟩

theorem evictPeer_cases (e : PairingEngine) (mac : MacAddress) :
    ∃ ok platform, e.evictPeer mac = (ok, { e with platform := platform }) ∧
      platform.channel = e.platform.channel ∧
      (∀ other, other ≠ mac → platform.attached other = e.platform.attached other) :=
  ⟨_, _, rfl, Platform.removePeer_channel _ _, fun _ h => Platform.removePeer_attached_of_ne _ h⟩

@[simp] theorem resetPairing_state (e : PairingEngine) : e.resetPairing.state = .Unpaired := rfl
@[simp] theorem resetPairing_store (e : PairingEngine) : e.resetPairing.store = e.store := rfl

@[simp] theorem failPairing_state (e : PairingEngine) (peer : MacAddress) (corr_id : UInt32)
    (msg : String) : (e.failPairing peer corr_id msg).state = .Unpaired := rfl

@[simp] theorem failPairing_store (e : PairingEngine) (peer : MacAddress) (corr_id : UInt32)
    (msg : String) : (e.failPairing peer corr_id msg).store = e.store := by
  unfold failPairing
  dsimp only
  split <;> rfl

/-- The backend holds, under the key of the local and the given MAC, a valid record that names
them and the given link key. -/
def HoldsPair (s : PairingStore) (localMac peer : MacAddress) (lmk : LmkKey) : Prop :=
  s.enabled = true ∧ ∃ r, (s.backend.blobs (s.makeKey .Pair localMac peer)).bind pairOfBlob = some r ∧
    r.valid = true ∧ r.local_mac = localMac ∧ r.peer_mac = peer ∧ r.lmk = lmk

theorem HoldsPair.of_frame {K : Set BlobKey} {s t : PairingStore} {localMac peer : MacAddress}
    {lmk : LmkKey} (h : HoldsPair s localMac peer lmk) (hf : PairingStore.StoreFrame K s t)
    (hk : s.makeKey .Pair localMac peer ∉ K) : HoldsPair t localMac peer lmk := by
  obtain ⟨hen, r, hr, hrest⟩ := h
  refine ⟨hf.enabled.trans hen, r, ?_, hrest⟩
  rw [hf.makeKey, hf.blobs hk]
  exact hr

/-- Saving the pair of a secured engine, when it reports success, leaves the record of its peer
and key in the backend. -/
theorem persistPair_cases (e : PairingEngine) :
    ∃ ok store, e.persistPair = (ok, { e with store := store }) ∧
      ((∀ s, e.store = some s → s.CacheSound) → ∀ s, store = some s → s.CacheSound) ∧
      ((∀ s, e.store = some s → s.CacheSound) → ok = true →
        ∃ s, store = some s ∧ HoldsPair s e.local_mac e.peer_mac e.current_lmk) := by
  unfold persistPair
  cases hstore : e.store with
  | none => exact ⟨false, none, by simp [← hstore], by simp, by simp⟩
  | some s =>
    dsimp only
    split
    · exact ⟨false, some s, by simp [← hstore], fun h => h, by simp⟩
    · rename_i hguard
      have hen : s.enabled = true := by simp_all
      obtain ⟨hframe, hsaved⟩ := PairingStore.savePair_frame s e.pairRecord
      have hchan := PairingStore.saveChannel_frame (s.savePair e.pairRecord).2 e.local_mac
        e.peer_mac e.platform.channel
      refine ⟨_, _, rfl, ?_, ?_⟩
      · intro h t ht
        obtain rfl := Option.some.inj ht
        exact hchan.sound (hframe.sound (h s rfl))
      · intro h hok
        have hpair : (s.savePair e.pairRecord).1 = true := by simp_all
        refine ⟨_, rfl, ?_⟩
        have hheld : HoldsPair (s.savePair e.pairRecord).2 e.local_mac e.peer_mac
            e.current_lmk := by
          refine ⟨hframe.enabled.trans hen, e.pairRecord, ?_, rfl, rfl, rfl, rfl⟩
          have hdata := hsaved (h s rfl) hpair
          rw [hframe.makeKey]
          exact (congrArg (·.bind pairOfBlob) hdata).trans (pairOfBlob_pairBlob _)
        exact hheld.of_frame hchan (by simp [PairingStore.makeKey, PairingStore.blobKey])

/-- A change that leaves the link alone: the state, the phase, the peer with its key, its
attachment and its record stay; other peers and other records may change. -/
structure SameLink (e t : PairingEngine) : Prop where
  config : t.config = e.config
  local_mac : t.local_mac = e.local_mac
  state : t.state = e.state
  pair_phase : t.pair_phase = e.pair_phase
  peer_mac : t.peer_mac = e.peer_mac
  current_lmk : t.current_lmk = e.current_lmk
  attached : t.platform.attached e.peer_mac = e.platform.attached e.peer_mac
  sound : (∀ s, e.store = some s → s.CacheSound) → ∀ s, t.store = some s → s.CacheSound
  held : (∃ s, e.store = some s ∧ HoldsPair s e.local_mac e.peer_mac e.current_lmk) →
    ∃ s, t.store = some s ∧ HoldsPair s e.local_mac e.peer_mac e.current_lmk

namespace SameLink

protected theorem refl (e : PairingEngine) : SameLink e e :=
  ⟨rfl, rfl, rfl, rfl, rfl, rfl, rfl, id, id⟩

protected theorem trans {e t u : PairingEngine} (het : SameLink e t) (htu : SameLink t u) :
    SameLink e u where
  config := htu.config.trans het.config
  local_mac := htu.local_mac.trans het.local_mac
  state := htu.state.trans het.state
  pair_phase := htu.pair_phase.trans het.pair_phase
  peer_mac := htu.peer_mac.trans het.peer_mac
  current_lmk := htu.current_lmk.trans het.current_lmk
  attached := by rw [← het.attached, ← het.peer_mac, htu.attached]
  sound := htu.sound ∘ het.sound
  held := by
    intro h
    have hu := htu.held
    rw [het.local_mac, het.peer_mac, het.current_lmk] at hu
    exact hu (het.held h)

end SameLink

namespace SameLink

variable {e t : PairingEngine}

theorem sendControl (h : SameLink e t) (dest : MacAddress) (type : MessageType)
    (corr_id : UInt32) (payload : Bytes) :
    SameLink e (t.sendControl dest type corr_id payload).2 := by
  obtain ⟨ok, p, m, a, hs, hatt, -⟩ := t.sendControl_cases dest type corr_id payload
  rw [hs]
  exact h.trans ⟨rfl, rfl, rfl, rfl, rfl, rfl, congrFun hatt _, id, id⟩

theorem evictPeer (h : SameLink e t) {mac : MacAddress} (hmac : mac ≠ e.peer_mac) :
    SameLink e (t.evictPeer mac).2 :=
  h.trans ⟨rfl, rfl, rfl, rfl, rfl, rfl,
    Platform.removePeer_attached_of_ne _ (h.peer_mac ▸ hmac.symm), id, id⟩

theorem emit (h : SameLink e t) (type : EventType) (peer : MacAddress) (corr_id : UInt32)
    (msg : String) : SameLink e (t.emit type peer corr_id msg) :=
  h.trans ⟨rfl, rfl, rfl, rfl, rfl, rfl, rfl, id, id⟩

end SameLink

/-- A store operation that keeps clear of the record of the engine's peer leaves the link alone. -/
theorem withStore_sameLink (e : PairingEngine) {f : PairingStore → PairingStore}
    {K : PairingStore → Set BlobKey} (hf : ∀ s, PairingStore.StoreFrame (K s) s (f s))
    (hk : ∀ s, e.store = some s → s.makeKey .Pair e.local_mac e.peer_mac ∉ K s) :
    SameLink e (e.withStore f) where
  config := rfl
  local_mac := rfl
  state := rfl
  pair_phase := rfl
  peer_mac := rfl
  current_lmk := rfl
  attached := rfl
  sound := by
    intro h t ht
    obtain ⟨s, hs, rfl⟩ := Option.map_eq_some_iff.mp ht
    exact (hf s).sound (h s hs)
  held := by
    rintro ⟨s, hs, hheld⟩
    exact ⟨f s, by simp [withStore, hs], hheld.of_frame (hf s) (hk s hs)⟩

theorem saveChannel_sameLink (e : PairingEngine) (peer : MacAddress) (channel : UInt8) :
    SameLink e (e.withStore fun s => (s.saveChannel e.local_mac peer channel).2) :=
  withStore_sameLink e (fun s => PairingStore.saveChannel_frame s e.local_mac peer channel)
    (fun s _ => by simp [PairingStore.makeKey, PairingStore.blobKey])

theorem forgetPeer_frame (s : PairingStore) (localMac peer : MacAddress) :
    PairingStore.StoreFrame {s.makeKey .Pair localMac peer, s.pairIndexKey localMac,
        s.makeKey .Channel localMac peer} s
      (((s.erasePair localMac peer).2.eraseChannel localMac peer).2) := by
  have hpair := PairingStore.erasePair_frame s localMac peer
  have hchan := PairingStore.eraseChannel_frame (s.erasePair localMac peer).2 localMac peer
  rw [hpair.makeKey] at hchan
  refine (hpair.mono ?_).trans (hchan.mono (by simp))
  rintro k (rfl | rfl) <;> simp

theorem forgetPeer_sameLink (e : PairingEngine) {peer : MacAddress}
    (h : ∀ s, e.store = some s →
      s.makeKey .Pair e.local_mac e.peer_mac ≠ s.makeKey .Pair e.local_mac peer) :
    SameLink e (e.forgetPeer peer) := by
  refine withStore_sameLink e (fun s => forgetPeer_frame s e.local_mac peer) ?_
  intro s hs hk
  rcases hk with hk | hk | hk
  · exact h s hs hk
  · simp [PairingStore.makeKey, PairingStore.pairIndexKey, PairingStore.makeLocalMetaKey,
      PairingStore.blobKey] at hk
  · simp [PairingStore.makeKey, PairingStore.blobKey] at hk

theorem forgetPeer_sound (e : PairingEngine) (peer : MacAddress)
    (h : ∀ s, e.store = some s → s.CacheSound) :
    ∀ s, (e.forgetPeer peer).store = some s → s.CacheSound := by
  intro t ht
  obtain ⟨s, hs, rfl⟩ := Option.map_eq_some_iff.mp ht
  exact (forgetPeer_frame s e.local_mac peer).sound (h s hs)

end EspNowLink.PairingEngine
