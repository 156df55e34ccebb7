import EspNowLink.Pairing.UnpairConfinement
import EspNowLink.Pairing.PeerAuthenticity
import EspNowLink.Platform.PairIndex

namespace EspNowLink

open Framework

namespace PairingEngine

/-- The store of `t` holds nothing of a peer, no record and no index entry, that the store of `e` does
not hold. -/
structure NoNewPair (peer : MacAddress) (e t : PairingEngine) : Prop where
  local_mac : t.local_mac = e.local_mac
  store : ∀ u, t.store = some u → ∃ s, e.store = some s ∧ s.NoNewPair e.local_mac peer u

/-- The engine at the moment when it saves its pair, if the input makes it do so. -/
def persisting (e : PairingEngine) : PairingInput → Option PairingEngine
  | .pairConfirm sender corr_id echo =>
    if e.expectsPairConfirm corr_id ∧ echo = e.pairing_nonce then
      match e.slaveKey sender with
      | none => none
      | some lmk =>
        match e.installKey sender lmk with
        | (false, _) => none
        | (true, e) => some e.enterSecured
    else none
  | .pairConfirmAck _ corr_id paired_flag =>
    if e.expectsPairConfirmAck corr_id ∧ paired_flag = true then some e.enterSecured.clearNonce else none
  | _ => none

/-- None of the writes that save the pair takes effect, or every write of the save and of the channel's
does. -/
def Untorn (e : PairingEngine) : Prop :=
  ∀ s, e.store = some s → s.enabled = true →
    (∀ ok ∈ s.pairWrites e.pairRecord, ok = false) ∨
      (s.IndexRoom e.local_mac e.peer_mac ∧
        (∀ ok ∈ s.pairWrites e.pairRecord, ok = true) ∧
        ∀ ok ∈ (s.savePair e.pairRecord).2.channelWrites e.local_mac e.peer_mac e.platform.channel,
          ok = true)

/-- A `savePair` that returns false has changed neither the record nor the index nor the counter. -/
def SavesWhole (e : PairingEngine) : Prop :=
  ∀ s, e.store = some s → (s.savePair e.pairRecord).1 = false →
    Set.EqOn (s.savePair e.pairRecord).2.backend.blobs s.backend.blobs
      (s.pairKeys e.local_mac e.peer_mac)

/-- The engine, as far as its peer table goes, when it makes its last removal of the peer at an input
that ends an attempt. -/
def beforeRemoval (e : PairingEngine) : PairingInput → PairingEngine
  | .requestPair peer _ | .discovery peer _ => (e.attachPeer peer false none).2
  | .pairInit sender corr_id seed nonce =>
    match ((e.beginSlaveAttempt sender corr_id seed nonce).emit .PairingStep sender corr_id
      "pair_init_rx_unsecure").attachPeer sender false none with
    | (false, e) => e
    | (true, e) =>
      match e.sendControl sender .PairInitAck corr_id (pairInitAckPayload e.pairing_nonce) with
      | (false, e) => e
      | (true, e) =>
        let e := e.emit .PairingStep sender corr_id "pair_init_ack_tx_unsecure"
        match e.slaveKey sender with
        | none => e
        | some lmk => (e.installKey sender lmk).2
  | .pairInitAck sender _ echo =>
    if echo ≠ e.pairing_nonce then e
    else
      match e.masterKey sender with
      | none => (e.evictPeer sender).2
      | some lmk => (e.installKey sender lmk).2
  | .pairConfirm sender _ echo =>
    if echo ≠ e.pairing_nonce then e
    else
      match e.slaveKey sender with
      | none => e
      | some lmk =>
        match e.installKey sender lmk with
        | (false, e) => e
        | (true, e) => (e.evictPeer sender).2
  | .pairConfirmAck sender _ paired_flag => if paired_flag then (e.evictPeer sender).2 else e
  | _ => e

/-- The deferred teardown runs in this tick. -/
def CleansUp (e : PairingEngine) (now_ms : UInt32) : Prop :=
  let paired := (({ e with current_now_ms := now_ms } : PairingEngine).tickDiscovery
    now_ms).tickPairing now_ms
  let switched := paired.2.tickChannel now_ms
  paired.1 = true ∧ switched.1 = none ∧ (switched.2.tickUnpair now_ms).CleanupDue now_ms

instance (e : PairingEngine) (now_ms : UInt32) : Decidable (e.CleanupDue now_ms) :=
  inferInstanceAs (Decidable (_ ∧ _ ∧ _ ∧ _))

instance (e : PairingEngine) (now_ms : UInt32) : Decidable (e.CleansUp now_ms) :=
  inferInstanceAs (Decidable (_ ∧ _ ∧ _))

end PairingEngine

/-- An engine in a run, with the peer of the attempt that is open and the engine it began in. -/
structure AttemptTrace where
  engine : PairingEngine
  opened : Option (MacAddress × PairingEngine)

namespace AttemptTrace

open PairingEngine

def start (e : PairingEngine) : AttemptTrace := ⟨e, none⟩

/-- The attempt that an input belongs to: the one it begins, or the one that is open. -/
def current (t : AttemptTrace) (i : PairingInput) : Option (MacAddress × PairingEngine) :=
  ((t.engine.attemptPeer i).map fun peer => (peer, t.engine)).or t.opened

def step (t : AttemptTrace) (i : PairingInput) : AttemptTrace where
  engine := t.engine.step i
  opened := if (t.engine.step i).state = .Pairing then t.current i else none

/-- An attempt that the input ends without a link leaves no new pair behind and its peer detached, and a
save that the input makes is whole. -/
def EndsClean (t : AttemptTrace) (i : PairingInput) : Prop :=
  (∀ peer before, t.current i = some (peer, before) → (t.engine.step i).state = .Unpaired →
    NoNewPair peer before (t.engine.step i) ∧ (t.engine.step i).platform.attached peer = none) ∧
  ∀ saver, t.engine.persisting i = some saver → saver.SavesWhole

end AttemptTrace

namespace PairingEngine

/-- The peer of the attempt that an input can end. -/
def attemptOf (e : PairingEngine) (i : PairingInput) : MacAddress :=
  (e.attemptPeer i).getD e.peer_mac

/-- The input ends an attempt without a link. -/
def EndsAttempt (e : PairingEngine) (i : PairingInput) : Prop :=
  (e.state = .Pairing ∨ (e.attemptPeer i).isSome) ∧ (e.step i).state = .Unpaired

/-- Where an attempt ends cleanly: it ends by what concerns its own peer, which is no broadcast, the
transport carries out the removal of an attached peer, and a save is not torn. -/
structure CleanEnd (e : PairingEngine) (i : PairingInput) : Prop where
  answers : e.EndsAttempt i → ∀ sender, i.answerSender = some sender → sender = e.peer_mac
  addressed : e.EndsAttempt i → e.attemptOf i ≠ kBroadcastMac
  cleanup : e.EndsAttempt i → ∀ now_ms, i = .tick now_ms → e.CleansUp now_ms →
    e.deferred_unpair_peer = e.peer_mac
  removal : e.EndsAttempt i → (e.beforeRemoval i).platform.attached (e.attemptOf i) ≠ none →
    ((e.step i).platform.answer ((e.step i).platform.calls - 1)).ok = true
  whole : ∀ saver, e.persisting i = some saver → saver.Untorn

/-! What a step can change. -/

/-- Only the platform, the key material, the timers and the log move. -/
structure Minor (e t : PairingEngine) : Prop where
  config : t.config = e.config
  local_mac : t.local_mac = e.local_mac
  store : t.store = e.store
  state : t.state = e.state
  peer_mac : t.peer_mac = e.peer_mac
  unpair_pending : t.unpair_pending = e.unpair_pending
  deferred_peer : t.deferred_unpair_peer = e.deferred_unpair_peer

/-- An unpair request is pending only while there is a link. -/
def UnpairLinked (e : PairingEngine) : Prop := e.unpair_pending = true → e.state = .Secured

/-- A step keeps what every engine of a run has. -/
structure Kept (e t : PairingEngine) : Prop where
  sound : e.StoreSound → t.StoreSound
  unpair : e.UnpairLinked → t.UnpairLinked

/-- A step that stores no pair. -/
structure Tame (e t : PairingEngine) : Prop extends Kept e t where
  clean : e.StoreSound → ∀ peer, NoNewPair peer e t

namespace NoNewPair

variable {peer : MacAddress} {e t u : PairingEngine}

theorem of_store (hlocal : t.local_mac = e.local_mac) (hstore : t.store = e.store) :
    NoNewPair peer e t :=
  ⟨hlocal, fun u hu => ⟨u, hstore ▸ hu, .refl u⟩⟩

protected theorem trans (het : NoNewPair peer e t) (htu : NoNewPair peer t u) : NoNewPair peer e u := by
  refine ⟨htu.local_mac.trans het.local_mac, fun w hw => ?_⟩
  obtain ⟨v, hv, hvw⟩ := htu.store w hw
  obtain ⟨s, hs, hsv⟩ := het.store v hv
  rw [het.local_mac] at hvw
  exact ⟨s, hs, hsv.trans hvw⟩

end NoNewPair

namespace Minor

variable {e t u : PairingEngine}

protected theorem refl (e : PairingEngine) : Minor e e := ⟨rfl, rfl, rfl, rfl, rfl, rfl, rfl⟩

protected theorem trans (het : Minor e t) (htu : Minor t u) : Minor e u :=
  ⟨htu.config.trans het.config, htu.local_mac.trans het.local_mac, htu.store.trans het.store,
    htu.state.trans het.state, htu.peer_mac.trans het.peer_mac,
    htu.unpair_pending.trans het.unpair_pending, htu.deferred_peer.trans het.deferred_peer⟩

theorem sendControl (h : Minor e t) (dest : MacAddress) (type : MessageType) (corr_id : UInt32)
    (payload : Bytes) : Minor e (t.sendControl dest type corr_id payload).2 := by
  obtain ⟨ok, p, m, at_ms, hs, -⟩ := t.sendControl_cases dest type corr_id payload
  rw [hs]
  exact h.trans ⟨rfl, rfl, rfl, rfl, rfl, rfl, rfl⟩

theorem attachPeer (h : Minor e t) (mac : MacAddress) (encrypted : Bool) (lmk : Option LmkKey) :
    Minor e (t.attachPeer mac encrypted lmk).2 :=
  h.trans ⟨rfl, rfl, rfl, rfl, rfl, rfl, rfl⟩

theorem evictPeer (h : Minor e t) (mac : MacAddress) : Minor e (t.evictPeer mac).2 :=
  h.trans ⟨rfl, rfl, rfl, rfl, rfl, rfl, rfl⟩

theorem emit (h : Minor e t) (type : EventType) (peer : MacAddress) (corr_id : UInt32) (msg : String) :
    Minor e (t.emit type peer corr_id msg) :=
  h.trans ⟨rfl, rfl, rfl, rfl, rfl, rfl, rfl⟩

theorem installKey (h : Minor e t) (peer : MacAddress) (lmk : LmkKey) :
    Minor e (t.installKey peer lmk).2 :=
  h.trans ⟨rfl, rfl, rfl, rfl, rfl, rfl, rfl⟩

theorem drawSecrets (h : Minor e t) : Minor e t.drawSecrets := by
  unfold PairingEngine.drawSecrets
  generalize makePairSeed t.platform = seed
  exact h.trans ⟨rfl, rfl, rfl, rfl, rfl, rfl, rfl⟩

end Minor

namespace Tame

variable {e t u : PairingEngine}

theorem of_store (hlocal : t.local_mac = e.local_mac) (hstore : t.store = e.store)
    (hunpair : e.UnpairLinked → t.UnpairLinked) : Tame e t where
  sound := by
    intro hs s
    rw [hstore]
    exact hs s
  unpair := hunpair
  clean := fun _ _ => .of_store hlocal hstore

theorem of_minor (h : Minor e t) : Tame e t := by
  refine .of_store h.local_mac h.store fun he hpending => ?_
  rw [h.unpair_pending] at hpending
  exact h.state.trans (he hpending)

protected theorem refl (e : PairingEngine) : Tame e e := .of_minor (.refl e)

protected theorem trans (het : Tame e t) (htu : Tame t u) : Tame e u where
  sound := htu.sound ∘ het.sound
  unpair := htu.unpair ∘ het.unpair
  clean := fun hs peer => (het.clean hs peer).trans (htu.clean (het.sound hs) peer)

theorem minor (h : Tame e t) (h' : Minor t u) : Tame e u := h.trans (.of_minor h')

/-- A store operation that stores no pair. -/
theorem withStore (h : Tame e t) {f : PairingStore → PairingStore}
    {K : PairingStore → Set BlobKey} (hf : ∀ s, PairingStore.StoreFrame (K s) s (f s))
    (hclean : ∀ (s : PairingStore) peer, s.CacheSound → s.NoNewPair t.local_mac peer (f s)) :
    Tame e (t.withStore f) := by
  refine h.trans ⟨⟨fun hs u hu => ?_, fun ht => ht⟩, fun hs peer => ⟨rfl, fun u hu => ?_⟩⟩
  · obtain ⟨s, hstore, rfl⟩ := Option.map_eq_some_iff.mp hu
    exact (hf s).sound (hs s hstore)
  · obtain ⟨s, hstore, rfl⟩ := Option.map_eq_some_iff.mp hu
    exact ⟨s, hstore, hclean s peer (hs s hstore)⟩

theorem forgetPeer (h : Tame e t) (peer : MacAddress) : Tame e (t.forgetPeer peer) :=
  h.withStore (fun s => forgetPeer_frame s t.local_mac peer) fun _ _ hs => .forgetPeer hs peer

theorem saveChannel (h : Tame e t) (peer : MacAddress) (channel : UInt8) :
    Tame e (t.withStore fun s => (s.saveChannel t.local_mac peer channel).2) :=
  h.withStore (fun s => s.saveChannel_frame t.local_mac peer channel)
    fun s _ _ => .saveChannel s peer channel

/-- The engine is left without a pending unpair request. -/
theorem freed (h : Tame e t) (hlocal : u.local_mac = t.local_mac) (hstore : u.store = t.store)
    (hfree : u.unpair_pending = false) : Tame e u :=
  h.trans (.of_store hlocal hstore fun _ hpending => by simp [hfree] at hpending)

theorem failPairing (h : Tame e t) (peer : MacAddress) (corr_id : UInt32) (msg : String) :
    Tame e (t.failPairing peer corr_id msg) := by
  refine h.freed ?_ (failPairing_store t peer corr_id msg) ?_
  · unfold PairingEngine.failPairing
    dsimp only
    split <;> rfl
  · unfold PairingEngine.failPairing
    dsimp only
    split <;> rfl

end Tame

/-- What a save of the pair does: nothing new is stored if it fails without being torn. -/
theorem persistPair_untorn (e : PairingEngine) (hs : e.StoreSound) (hwhole : e.Untorn)
    (hfailed : e.persistPair.1 = false) (peer : MacAddress) : NoNewPair peer e e.persistPair.2 := by
  unfold persistPair at hfailed ⊢
  cases hstore : e.store with
  | none => exact .of_store rfl rfl
  | some s =>
    rw [hstore] at hfailed
    dsimp only at hfailed ⊢
    split
    · exact .of_store rfl rfl
    · rename_i hguard
      rw [if_neg hguard] at hfailed
      have hon : s.enabled = true := by simp_all
      have hframe := (s.savePair_frame e.pairRecord).1
      refine ⟨rfl, fun u hu => ⟨s, hstore, ?_⟩⟩
      obtain rfl := Option.some.inj hu
      rcases hwhole s hstore hon with hrefused | ⟨hroom, hpair, hchannel⟩
      · exact (PairingStore.NoNewPair.of_blobs hframe.config
          (PairingStore.savePair_refused e.pairRecord hrefused)).trans (.saveChannel _ _ _)
      · -- every write is carried out, so the save cannot have failed
        have hsaved := PairingStore.savePair_carried e.pairRecord hon (hs s hstore) hroom hpair
        have hson : (s.savePair e.pairRecord).2.enabled = true := by rw [hframe.enabled, hon]
        have hchannelSaved : ((s.savePair e.pairRecord).2.saveChannel e.local_mac e.peer_mac
            e.platform.channel).1 = true := by
          unfold PairingStore.saveChannel
          rw [if_neg (by simp [hson])]
          exact PairingStore.put_carried hson rfl hchannel
        simp [hsaved, hchannelSaved] at hfailed

theorem savesWhole_of_untorn {e : PairingEngine} (hs : e.StoreSound) (hwhole : e.Untorn) :
    e.SavesWhole := by
  intro s hstore hfailed
  by_cases hon : s.enabled = true
  · rcases hwhole s hstore hon with hrefused | ⟨hroom, hpair, -⟩
    · rw [PairingStore.savePair_refused e.pairRecord hrefused]
      exact Set.eqOn_refl _ _
    · rw [PairingStore.savePair_carried e.pairRecord hon (hs s hstore) hroom hpair] at hfailed
      cases hfailed
  · unfold PairingStore.savePair
    rw [if_pos (by simp [hon])]
    exact Set.eqOn_refl _ _

/-- The platform after a failed attempt is the one after the removal of its peer. -/
theorem failPairing_platform (e : PairingEngine) {peer : MacAddress} (hpeer : peer ≠ kBroadcastMac)
    (corr_id : UInt32) (msg : String) :
    (e.failPairing peer corr_id msg).platform = (e.platform.removePeer peer).2 := by
  unfold failPairing
  dsimp only
  rw [if_neg hpeer]
  rfl

end PairingEngine

/-- A removal takes the peer off the transport if the transport carries it out or has no such peer. -/
theorem Platform.removePeer_detaches {p : Platform} {mac : MacAddress}
    (h : p.attached mac ≠ none →
      ((p.removePeer mac).2.answer ((p.removePeer mac).2.calls - 1)).ok = true) :
    (p.removePeer mac).2.attached mac = none := by
  have hcalls : (p.removePeer mac).2.calls - 1 = p.calls := by
    unfold Platform.removePeer
    dsimp only
    split <;> rfl
  have hanswer : (p.removePeer mac).2.answer = p.answer := by
    unfold Platform.removePeer
    dsimp only
    split <;> rfl
  rw [hcalls, hanswer] at h
  unfold Platform.removePeer
  dsimp only
  split
  · exact Function.update_self ..
  · rename_i hrefused
    by_contra hattached
    exact hrefused (h hattached)

end EspNowLink
