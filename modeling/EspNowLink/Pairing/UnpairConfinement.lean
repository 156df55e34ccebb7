import EspNowLink.Framework.Runs
import EspNowLink.Pairing.EngineSteps

namespace EspNowLink

open Framework

namespace PairingEngine

/-- The records the runtime keeps for the link to `peer`, with the index they are listed in. -/
def recordKeys (e : PairingEngine) (s : PairingStore) (peer : MacAddress) : Set BlobKey :=
  {s.makeKey .Pair e.local_mac peer, s.pairIndexKey e.local_mac, s.makeKey .Channel e.local_mac peer}

/-- A step that leaves the active link and every attachment but that of `other` as they are. -/
structure KeepsLink (e t : PairingEngine) (other : MacAddress) : Prop where
  state : t.state = e.state
  peer_mac : t.peer_mac = e.peer_mac
  channel : t.platform.channel = e.platform.channel
  attached : ∀ m, m ≠ other → t.platform.attached m = e.platform.attached m

/-- The pair record of the active peer is as before, and so is what is stored outside `keys`. -/
structure KeepsRecords (e : PairingEngine) (keys : Set BlobKey) (s u : PairingStore) : Prop where
  active : u.backend.blobs (s.makeKey .Pair e.local_mac e.peer_mac) =
    s.backend.blobs (s.makeKey .Pair e.local_mac e.peer_mac)
  others : Set.EqOn u.backend.blobs s.backend.blobs (Set.compl keys)

/-- A step on behalf of `other` that is confined to it and to the records under `keys`. -/
structure Confined (e t : PairingEngine) (other : MacAddress) (keys : PairingStore → Set BlobKey) :
    Prop where
  link : e.KeepsLink t other
  store : ∀ s, e.store = some s → ∃ u, t.store = some u ∧ e.KeepsRecords (keys s) s u

theorem KeepsLink.refl (e : PairingEngine) (other : MacAddress) : e.KeepsLink e other :=
  ⟨rfl, rfl, rfl, fun _ _ => rfl⟩

theorem KeepsLink.trans {e t u : PairingEngine} {other : MacAddress} (h : e.KeepsLink t other)
    (h' : t.KeepsLink u other) : e.KeepsLink u other :=
  ⟨h'.state.trans h.state, h'.peer_mac.trans h.peer_mac, h'.channel.trans h.channel,
    fun m hm => (h'.attached m hm).trans (h.attached m hm)⟩

theorem withStore_keepsLink (e : PairingEngine) (f : PairingStore → PairingStore)
    (other : MacAddress) : e.KeepsLink (e.withStore f) other :=
  ⟨rfl, rfl, rfl, fun _ _ => rfl⟩

theorem KeepsRecords.refl (e : PairingEngine) (keys : Set BlobKey) (s : PairingStore) :
    e.KeepsRecords keys s s :=
  ⟨rfl, fun _ _ => rfl⟩

theorem Confined.of_store_eq {e t : PairingEngine} {other : MacAddress}
    {keys : PairingStore → Set BlobKey} (hlink : e.KeepsLink t other) (hstore : t.store = e.store) :
    Confined e t other keys :=
  ⟨hlink, fun s hs => ⟨s, hstore.trans hs, .refl e (keys s) s⟩⟩

/-- The deferred teardown runs in this call of its timer. -/
def CleanupDue (e : PairingEngine) (now_ms : UInt32) : Prop :=
  e.deferred_unpair_cleanup = true ∧ e.deferred_unpair_deadline_ms ≠ 0 ∧
    e.deferred_unpair_last_tick_ms ≠ 0 ∧
    now_ms - e.deferred_unpair_last_tick_ms ≥ e.deferred_unpair_deadline_ms

/-- Erasing the records of `other` takes the active peer's pair record along: both have one key. -/
def ErasesActiveRecord (e : PairingEngine) (other : MacAddress) : Prop :=
  ∃ s, e.store = some s ∧
    s.makeKey .Pair e.local_mac other = s.makeKey .Pair e.local_mac e.peer_mac ∧
    s.ErasesBlob (s.makeKey .Pair e.local_mac e.peer_mac)

variable {keys : PairingStore → Set BlobKey}

theorem onUnpairRequest_keepsLink (e : PairingEngine) (sender : MacAddress) (corr_id : UInt32) :
    e.KeepsLink (e.onUnpairRequest sender corr_id).2 sender ∧
      (e.onUnpairRequest sender corr_id).2.store = e.store := by
  obtain ⟨ok, p, m, a, hsend, hatt, hch⟩ := e.sendControl_cases sender .UnpairAck corr_id []
  unfold onUnpairRequest
  rw [hsend]
  split
  · exact ⟨.refl e sender, rfl⟩
  · cases ok <;> exact ⟨⟨rfl, rfl, hch, fun m _ => congrFun hatt m⟩, rfl⟩

theorem onUnpairAck_confined_iff (e : PairingEngine) (sender : MacAddress) (corr_id : UInt32)
    (hsecured : e.state = .Secured) :
    Confined e (e.onUnpairAck sender corr_id).2 sender keys ↔
      ¬ (e.unpair_pending = true ∧ corr_id = e.unpair_corr_id) := by
  have hguard : (!e.unpair_pending || decide (corr_id ≠ e.unpair_corr_id)) = true ↔
      ¬ (e.unpair_pending = true ∧ corr_id = e.unpair_corr_id) := by
    cases e.unpair_pending <;> simp
  unfold onUnpairAck
  split
  · rename_i h
    exact iff_of_true (.of_store_eq (.refl e sender) rfl) (hguard.mp h)
  · rename_i h
    refine iff_of_false (fun hc => ?_) (fun hno => h (hguard.mpr hno))
    exact absurd (hc.link.state.trans hsecured) (by simp [emit, cancelUnpair])

theorem tickDeferredCleanup_confined_iff (e : PairingEngine) (now_ms : UInt32)
    (hsecured : e.state = .Secured) :
    Confined e (e.tickDeferredCleanup now_ms) e.deferred_unpair_peer keys ↔ ¬ e.CleanupDue now_ms := by
  by_cases hdue : e.CleanupDue now_ms
  · refine iff_of_false (fun hc => ?_) (not_not.mpr hdue)
    obtain ⟨hflag, hdeadline, hlast, helapsed⟩ := hdue
    have hrun : (e.tickDeferredCleanup now_ms).state = .Unpaired := by
      unfold tickDeferredCleanup
      rw [if_pos ⟨hflag, hdeadline⟩, if_neg hlast]
      dsimp only
      rw [if_pos helapsed]
      rfl
    exact absurd (hrun.symm.trans (hc.link.state.trans hsecured)) (by simp)
  · refine iff_of_true ?_ hdue
    have hsame : e.KeepsLink (e.tickDeferredCleanup now_ms) e.deferred_unpair_peer ∧
        (e.tickDeferredCleanup now_ms).store = e.store := by
      unfold tickDeferredCleanup
      split
      · rename_i hflag
        split
        · exact ⟨⟨rfl, rfl, rfl, fun _ _ => rfl⟩, rfl⟩
        · rename_i hlast
          dsimp only
          rw [if_neg fun helapsed => hdue ⟨hflag.1, hflag.2, hlast, helapsed⟩]
          exact ⟨⟨rfl, rfl, rfl, fun _ _ => rfl⟩, rfl⟩
      · exact ⟨.refl e _, rfl⟩
    exact .of_store_eq hsame.1 hsame.2

theorem requestUnpair_peer_mac (e : PairingEngine) (peer : MacAddress) (corr_id : UInt32)
    (hsecured : e.state = .Secured) (hrole : e.config.local_role = .Master)
    (hidle : e.unpair_pending = false) : (e.requestUnpair peer corr_id).2.peer_mac = peer := by
  obtain ⟨ok, p, m, a, hsend, -, -⟩ := (e.beginUnpair peer corr_id).sendControl_cases peer
    .UnpairRequest corr_id []
  unfold requestUnpair
  rw [if_neg (by simp [hsecured, hrole, hidle]), hsend]
  cases ok <;> rfl

theorem requestUnpair_config (e : PairingEngine) (peer : MacAddress) (corr_id : UInt32) :
    (e.requestUnpair peer corr_id).2.config = e.config := by
  obtain ⟨ok, p, m, a, hsend, -, -⟩ := (e.beginUnpair peer corr_id).sendControl_cases peer
    .UnpairRequest corr_id []
  unfold requestUnpair
  split
  · rfl
  · rw [hsend]
    cases ok <;> rfl

/-- Whoever is no master, or waits for an ack already, refuses. -/
theorem requestUnpair_refused (e : PairingEngine) (peer : MacAddress) (corr_id : UInt32)
    (h : ¬ (e.config.local_role = .Master ∧ e.unpair_pending = false)) :
    e.requestUnpair peer corr_id = (false, e) := by
  have hskip : e.config.local_role ≠ .Master ∨ e.state ≠ .Secured ∨ e.unpair_pending = true := by
    by_cases hrole : e.config.local_role = .Master
    · cases hp : e.unpair_pending with
      | false => exact absurd ⟨hrole, hp⟩ h
      | true => exact .inr (.inr rfl)
    · exact .inl hrole
  unfold requestUnpair
  rw [if_pos hskip]

theorem pairKey_ne_indexKey (s t : PairingStore) (localMac peer : MacAddress) :
    s.makeKey .Pair localMac peer ≠ t.pairIndexKey localMac := by
  simp [PairingStore.makeKey, PairingStore.pairIndexKey, PairingStore.makeLocalMetaKey,
    PairingStore.blobKey]

theorem pairKey_ne_metaKey (s t : PairingStore) (localMac peer other : MacAddress) (slot : UInt8) :
    s.makeKey .Pair localMac peer ≠ t.makeMetaKey localMac other slot := by
  simp [PairingStore.makeKey, PairingStore.makeMetaKey, PairingStore.blobKey]

theorem pairKey_ne_channelKey (s t : PairingStore) (localMac peer other : MacAddress) :
    s.makeKey .Pair localMac peer ≠ t.makeKey .Channel localMac other := by
  simp [PairingStore.makeKey, PairingStore.blobKey]

/-- Erasing the records of `other` keeps the blob under a pair key unless `other` shares the key
and the erasure works. -/
theorem forgetPeer_pair_blob (s : PairingStore) (localMac other peer : MacAddress) :
    (((s.erasePair localMac other).2.eraseChannel localMac other).2.backend.blobs
        (s.makeKey .Pair localMac peer) = s.backend.blobs (s.makeKey .Pair localMac peer)) ↔
      ¬ (s.makeKey .Pair localMac other = s.makeKey .Pair localMac peer ∧
        s.ErasesBlob (s.makeKey .Pair localMac peer)) := by
  have hchan := PairingStore.eraseChannel_frame (s.erasePair localMac other).2 localMac other
  rw [hchan.blobs (pairKey_ne_channelKey s _ localMac peer other)]
  unfold PairingStore.erasePair
  by_cases hen : s.enabled = true
  · simp only [hen, Bool.not_true, Bool.false_eq_true, if_false]
    have herase := PairingStore.eraseBlobIfExists_frame s (s.makeKey .Pair localMac other)
    have hindex := PairingStore.removePairIndexEntry_frame
      (s.eraseBlobIfExists (s.makeKey .Pair localMac other)).2 localMac other
    rw [hindex.blobs (pairKey_ne_indexKey s _ localMac peer)]
    by_cases hkey : s.makeKey .Pair localMac other = s.makeKey .Pair localMac peer
    · rw [hkey, PairingStore.eraseBlobIfExists_same_iff]
      simp
    · exact iff_of_true (herase.blobs (Ne.symm hkey)) fun h => hkey h.1
  · simp only [hen, Bool.not_false, if_true]
    exact iff_of_true trivial fun h => hen h.2.1

theorem forgetPeer_keepsRecords_iff (e : PairingEngine) (s : PairingStore) (other : MacAddress)
    {K : Set BlobKey} (hkeys : e.recordKeys s other ⊆ K) :
    e.KeepsRecords K s ((s.erasePair e.local_mac other).2.eraseChannel e.local_mac other).2 ↔
      ¬ (s.makeKey .Pair e.local_mac other = s.makeKey .Pair e.local_mac e.peer_mac ∧
        s.ErasesBlob (s.makeKey .Pair e.local_mac e.peer_mac)) := by
  rw [← forgetPeer_pair_blob s e.local_mac other e.peer_mac]
  exact ⟨fun h => h.active,
    fun h => ⟨h, (forgetPeer_frame s e.local_mac other).blobs.mono (Set.compl_subset_compl.mpr hkeys)⟩⟩

theorem removePeer_frame (e : PairingEngine) (peer : MacAddress) (erase : Bool) :
    (e.removePeer peer erase).1 = (e.platform.removePeer peer).1 ∧
      (e.removePeer peer erase).2.config = e.config ∧
      (e.removePeer peer erase).2.local_mac = e.local_mac := by
  refine ⟨rfl, ?_, ?_⟩ <;> unfold removePeer <;> dsimp only <;> split <;> cases erase <;> rfl

/-- To remove another peer keeps the link; the store loses the records of the peer if they are to be
erased. -/
theorem removePeer_keepsLink (e : PairingEngine) (peer : MacAddress) (erase : Bool)
    (hother : peer ≠ e.peer_mac) :
    e.KeepsLink (e.removePeer peer erase).2 peer ∧
      (e.removePeer peer erase).2.store = if erase then (e.forgetPeer peer).store else e.store := by
  have hevict : ∀ m, m ≠ peer →
      (e.platform.removePeer peer).2.attached m = e.platform.attached m :=
    fun m hm => Platform.removePeer_attached_of_ne _ hm
  have hchannel := Platform.removePeer_channel e.platform peer
  cases erase with
  | false =>
    unfold removePeer
    dsimp only
    rw [if_neg fun h => hother h.2]
    exact ⟨⟨rfl, rfl, hchannel, hevict⟩, rfl⟩
  | true =>
    unfold removePeer
    dsimp only
    rw [if_neg fun h => hother h.2]
    exact ⟨⟨rfl, rfl, hchannel, hevict⟩, rfl⟩

end PairingEngine

end EspNowLink
