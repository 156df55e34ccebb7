import EspNowLink.Pairing.AbortedPairs

namespace EspNowLink

open Framework

namespace PairingEngine

/-- An attempt with `peer` is under way. -/
structure Tries (peer : MacAddress) (e t : PairingEngine) : Prop extends Tame e t where
  state : t.state = .Pairing
  peer_mac : t.peer_mac = peer

/-- An attempt is over without a link: the last call to the platform removes `peer`, which was attached
there as `held`. -/
structure Drops (peer : MacAddress) (held : Option Attachment) (whole : Prop) (e t : PairingEngine) :
    Prop extends Kept e t where
  state : t.state = .Unpaired
  clean : e.StoreSound → whole → ∀ other, NoNewPair other e t
  removal : peer ≠ kBroadcastMac →
    ∃ p : Platform, t.platform = (p.removePeer peer).2 ∧ p.attached peer = held

section

variable {e t u : PairingEngine} {peer : MacAddress} {held : Option Attachment} {whole : Prop}

theorem Tame.drops (h : Tame e t) (hheld : t.platform.attached peer = held) (corr_id : UInt32)
    (msg : String) : Drops peer held whole e (t.failPairing peer corr_id msg) where
  toKept := (h.failPairing peer corr_id msg).toKept
  state := rfl
  clean := fun hs _ other => (h.failPairing peer corr_id msg).clean hs other
  removal := fun hpeer => ⟨t.platform, failPairing_platform t hpeer corr_id msg, hheld⟩

theorem Tries.of_minor (h : Tries peer e t) (h' : Minor t u) : Tries peer e u :=
  ⟨h.toTame.minor h', h'.state.trans h.state, h'.peer_mac.trans h.peer_mac⟩

theorem sendControl_attached (e : PairingEngine) (dest : MacAddress) (type : MessageType)
    (corr_id : UInt32) (payload : Bytes) :
    (e.sendControl dest type corr_id payload).2.platform.attached = e.platform.attached := by
  obtain ⟨ok, p, m, at_ms, hs, hatt, -⟩ := e.sendControl_cases dest type corr_id payload
  rw [hs]
  exact hatt

theorem drawSecrets_attached (e : PairingEngine) :
    e.drawSecrets.platform.attached = e.platform.attached := by
  have hseed : (makePairSeed e.platform).2.attached = e.platform.attached := by
    unfold makePairSeed
    dsimp only
    split <;> rfl
  unfold drawSecrets
  generalize makePairSeed e.platform = seed at hseed ⊢
  exact hseed

variable (peer whole) in
/-- An accepted request starts an attempt or has already ended it. -/
theorem requestPair_tries (hstarts : e.StartsPair) (corr_id : UInt32) :
    Tries peer e (e.requestPair peer corr_id).2 ∨
      Drops peer ((e.attachPeer peer false none).2.platform.attached peer) whole e
        (e.requestPair peer corr_id).2 := by
  obtain ⟨hrole, hidle⟩ := hstarts
  have hbegin : Tries peer e (e.beginMasterAttempt peer corr_id) := by
    refine ⟨.of_store rfl rfl fun _ hpending => ?_, rfl, rfl⟩
    exact absurd (.inr hpending) hidle
  unfold requestPair
  rw [if_neg (by simp [hrole]), if_neg hidle]
  have hattach := hbegin.of_minor ((Minor.refl _).attachPeer peer false none)
  have hheld : ((e.beginMasterAttempt peer corr_id).attachPeer peer false none).2.platform.attached
      peer = (e.attachPeer peer false none).2.platform.attached peer := rfl
  generalize (e.beginMasterAttempt peer corr_id).attachPeer peer false none = opened
    at hattach hheld ⊢
  obtain ⟨ok, t⟩ := opened
  cases ok with
  | false => exact .inr (hattach.toTame.drops hheld corr_id _)
  | true =>
    dsimp only at hattach hheld ⊢
    have hready := hattach.of_minor (((Minor.refl t).drawSecrets).emit .PairingStarted peer corr_id
      "pair_init_tx_unsecure")
    have hreadyHeld : (t.drawSecrets.emit .PairingStarted peer corr_id
        "pair_init_tx_unsecure").platform.attached peer = _ :=
      (congrFun t.drawSecrets_attached peer).trans hheld
    generalize t.drawSecrets.emit .PairingStarted peer corr_id "pair_init_tx_unsecure" = ready
      at hready hreadyHeld ⊢
    have hsent := hready.of_minor ((Minor.refl ready).sendControl peer .PairInit corr_id
      (pairInitPayload ready.current_seed ready.pairing_nonce 0))
    have hsentHeld := (congrFun (ready.sendControl_attached peer .PairInit corr_id
      (pairInitPayload ready.current_seed ready.pairing_nonce 0)) peer).trans hreadyHeld
    generalize ready.sendControl peer .PairInit corr_id
      (pairInitPayload ready.current_seed ready.pairing_nonce 0) = answer at hsent hsentHeld ⊢
    obtain ⟨sent, u⟩ := answer
    cases sent with
    | false => exact .inr (hsent.toTame.drops hsentHeld corr_id _)
    | true => exact .inl hsent

variable (whole) in
/-- A pair init that the slave takes up, the first or a repeated one. -/
theorem onPairInit_tries {corr_id : UInt32} (htakes : e.TakesPairInit peer corr_id)
    (hlinked : e.UnpairLinked) (seed : PairSeed) (nonce : UInt32) :
    Tries peer e (e.onPairInit peer corr_id seed nonce).2 ∨
      Drops peer ((e.beforeRemoval (.pairInit peer corr_id seed nonce)).platform.attached peer) whole e
        (e.onPairInit peer corr_id seed nonce).2 := by
  obtain ⟨hrole, hstate, hown⟩ := htakes
  have hbegin : Tries peer e (e.beginSlaveAttempt peer corr_id seed nonce) :=
    ⟨.of_store rfl rfl fun _ hpending => absurd (hlinked hpending) hstate, rfl, rfl⟩
  unfold onPairInit beforeRemoval
  rw [if_neg (by simp [hrole, hstate]), if_neg hown]
  dsimp only
  have hattach := hbegin.of_minor (((Minor.refl _).emit .PairingStep peer corr_id
    "pair_init_rx_unsecure").attachPeer peer false none)
  generalize ((e.beginSlaveAttempt peer corr_id seed nonce).emit .PairingStep peer corr_id
    "pair_init_rx_unsecure").attachPeer peer false none = opened at hattach ⊢
  obtain ⟨ok, t⟩ := opened
  cases ok with
  | false => exact .inr (hattach.toTame.drops rfl corr_id _)
  | true =>
    dsimp only at hattach ⊢
    have hsent := hattach.of_minor ((Minor.refl t).sendControl peer .PairInitAck corr_id
      (pairInitAckPayload t.pairing_nonce))
    generalize t.sendControl peer .PairInitAck corr_id (pairInitAckPayload t.pairing_nonce) = answer
      at hsent ⊢
    obtain ⟨sent, u⟩ := answer
    cases sent with
    | false => exact .inr (hsent.toTame.drops rfl corr_id _)
    | true =>
      dsimp only at hsent ⊢
      have hready := hsent.of_minor ((Minor.refl u).emit .PairingStep peer corr_id
        "pair_init_ack_tx_unsecure")
      generalize u.emit .PairingStep peer corr_id "pair_init_ack_tx_unsecure" = ready at hready ⊢
      unfold prepareSlaveKey
      cases ready.slaveKey peer with
      | none => exact .inr (hready.toTame.drops rfl corr_id _)
      | some lmk =>
        dsimp only
        have hinstalled := hready.of_minor ((Minor.refl ready).installKey peer lmk)
        generalize ready.installKey peer lmk = installed at hinstalled ⊢
        obtain ⟨ok, v⟩ := installed
        cases ok with
        | false => exact .inr (hinstalled.toTame.drops rfl corr_id _)
        | true => exact .inl (hinstalled.of_minor ((Minor.refl v).emit _ _ _ _))

/-- The saves that an input makes are not torn. -/
def Whole (e : PairingEngine) (i : PairingInput) : Prop :=
  ∀ saver, e.persisting i = some saver → saver.Untorn

variable (whole) in
theorem onPairInitAck_effect (e : PairingEngine) (sender : MacAddress) (corr_id echo : UInt32) :
    Minor e (e.onPairInitAck sender corr_id echo).2 ∨
      Drops sender ((e.beforeRemoval (.pairInitAck sender corr_id echo)).platform.attached sender) whole
        e (e.onPairInitAck sender corr_id echo).2 := by
  unfold onPairInitAck beforeRemoval
  split
  · exact .inl (.refl e)
  by_cases hecho : echo ≠ e.pairing_nonce
  · rw [if_pos hecho]
    simp only [if_pos hecho]
    exact .inr ((Tame.refl e).drops rfl corr_id _)
  rw [if_neg hecho]
  simp only [if_neg hecho]
  cases e.masterKey sender with
  | none =>
    have hevicted := (Tame.refl e).minor ((Minor.refl e).evictPeer sender)
    exact .inr (hevicted.drops rfl corr_id _)
  | some lmk =>
    dsimp only
    have hinstalled := (Minor.refl e).installKey sender lmk
    generalize e.installKey sender lmk = installed at hinstalled ⊢
    obtain ⟨ok, t⟩ := installed
    cases ok with
    | false => exact .inr (((Tame.refl e).minor hinstalled).drops rfl corr_id _)
    | true =>
      have hguard : Minor t t.enterSecureGuard := ⟨rfl, rfl, rfl, rfl, rfl, rfl, rfl⟩
      exact .inl ((hinstalled.trans hguard).emit _ _ _ _)

/-- The end of a handshake, the save of the pair: it is secured, or its peer is evicted, and once more by
the failure. -/
theorem persistPair_effect (h : Minor e t) (hsecured : u.state = .Secured) (hstore : u.store = t.store)
    (hlocal : u.local_mac = t.local_mac) (hplatform : u.platform = t.platform)
    (hwhole : whole → u.Untorn) :
    ∃ ok v, u.persistPair = (ok, v) ∧ (ok = true → Kept e v ∧ v.state = .Secured) ∧
      (ok = false → ∀ peer corr_id msg, Drops peer ((t.evictPeer peer).2.platform.attached peer) whole e
        ((v.evictPeer peer).2.failPairing peer corr_id msg)) := by
  obtain ⟨ok, store, hsaved, hsound, -⟩ := u.persistPair_cases
  have hstoreSound (hs : e.StoreSound) : u.StoreSound := by
    unfold StoreSound
    rw [hstore, h.store]
    exact hs
  have hkept : Kept e { u with store := store } :=
    ⟨fun hs s hs' => hsound (hstoreSound hs) s hs', fun _ _ => hsecured⟩
  refine ⟨ok, _, hsaved, fun _ => ⟨hkept, hsecured⟩, fun hfailed peer corr_id msg => ?_⟩
  have hfail : Tame { u with store := store }
      ((({ u with store := store } : PairingEngine).evictPeer peer).2.failPairing peer corr_id msg) :=
    ((Tame.refl _).minor ((Minor.refl _).evictPeer peer)).failPairing peer corr_id msg
  refine ⟨⟨hfail.sound ∘ hkept.sound, hfail.unpair ∘ hkept.unpair⟩, rfl, fun hs hok other => ?_,
    fun hpeer => ⟨_, failPairing_platform _ hpeer corr_id msg, ?_⟩⟩
  · have hsame : NoNewPair other e u := .of_store (hlocal.trans h.local_mac) (hstore.trans h.store)
    have hnone := persistPair_untorn u (hstoreSound hs) (hwhole hok) (by rw [hsaved]; exact hfailed) other
    rw [hsaved] at hnone
    exact (hsame.trans hnone).trans (hfail.clean (hkept.sound hs) other)
  · change (u.platform.removePeer peer).2.attached peer = (t.platform.removePeer peer).2.attached peer
    rw [hplatform]

theorem onPairConfirm_effect (e : PairingEngine) (sender : MacAddress) (corr_id echo : UInt32) :
    Minor e (e.onPairConfirm sender corr_id echo).2 ∨
      (Kept e (e.onPairConfirm sender corr_id echo).2 ∧
        (e.onPairConfirm sender corr_id echo).2.state = .Secured) ∨
      Drops sender ((e.beforeRemoval (.pairConfirm sender corr_id echo)).platform.attached sender)
        (e.Whole (.pairConfirm sender corr_id echo)) e (e.onPairConfirm sender corr_id echo).2 := by
  unfold onPairConfirm beforeRemoval Whole persisting
  by_cases hexpects : e.expectsPairConfirm corr_id
  swap
  · rw [if_pos hexpects]
    exact .inl (.refl e)
  rw [if_neg (not_not.mpr hexpects)]
  by_cases hecho : echo = e.pairing_nonce
  swap
  · simp only [hecho, ne_eq, not_false_eq_true, if_true]
    exact .inr (.inr ((Tame.refl e).drops rfl corr_id _))
  simp only [hexpects, hecho, and_self, if_true, ne_eq, not_true, if_false]
  cases e.slaveKey sender with
  | none => exact .inr (.inr ((Tame.refl e).drops rfl corr_id _))
  | some lmk =>
    dsimp only
    have hinstalled := (Minor.refl e).installKey sender lmk
    generalize e.installKey sender lmk = installed at hinstalled ⊢
    obtain ⟨ok, t⟩ := installed
    cases ok with
    | false => exact .inr (.inr (((Tame.refl e).minor hinstalled).drops rfl corr_id _))
    | true =>
      dsimp only at hinstalled ⊢
      have hwhole (h : ∀ saver, some t.enterSecured = some saver → saver.Untorn) :
          t.enterSecured.Untorn := h _ rfl
      obtain ⟨ok, v, hsaved, hok, hfail⟩ := persistPair_effect (u := t.enterSecured) hinstalled rfl rfl
        rfl rfl hwhole
      rw [hsaved]
      cases ok with
      | false => exact .inr (.inr (hfail rfl sender corr_id _))
      | true =>
        obtain ⟨hkept, hstate⟩ := hok rfl
        have hacked := ((Minor.refl v).emit .Paired sender corr_id "pair_complete_persisted").sendControl
          sender .PairConfirmAck corr_id pairConfirmAckPayload
        have hafter := Tame.of_minor hacked
        exact .inr (.inl ⟨⟨hafter.sound ∘ hkept.sound, hafter.unpair ∘ hkept.unpair⟩,
          hacked.state.trans hstate⟩)

theorem onPairConfirmAck_effect (e : PairingEngine) (sender : MacAddress) (corr_id : UInt32)
    (paired_flag : Bool) :
    Minor e (e.onPairConfirmAck sender corr_id paired_flag).2 ∨
      (Kept e (e.onPairConfirmAck sender corr_id paired_flag).2 ∧
        (e.onPairConfirmAck sender corr_id paired_flag).2.state = .Secured) ∨
      Drops sender
        ((e.beforeRemoval (.pairConfirmAck sender corr_id paired_flag)).platform.attached sender)
        (e.Whole (.pairConfirmAck sender corr_id paired_flag)) e
        (e.onPairConfirmAck sender corr_id paired_flag).2 := by
  unfold onPairConfirmAck beforeRemoval Whole persisting
  by_cases hexpects : e.expectsPairConfirmAck corr_id
  swap
  · rw [if_pos hexpects]
    exact .inl (.refl e)
  rw [if_neg (not_not.mpr hexpects)]
  cases paired_flag with
  | false => exact .inr (.inr ((Tame.refl e).drops rfl corr_id _))
  | true =>
    simp only [hexpects, and_self, if_true, Bool.not_true, Bool.false_eq_true, if_false]
    have hwhole (h : ∀ saver, some e.enterSecured.clearNonce = some saver → saver.Untorn) :
        e.enterSecured.clearNonce.Untorn := h _ rfl
    obtain ⟨ok, v, hsaved, hok, hfail⟩ := persistPair_effect (u := e.enterSecured.clearNonce)
      (Minor.refl e) rfl rfl rfl rfl hwhole
    rw [hsaved]
    cases ok with
    | false => exact .inr (.inr (hfail rfl sender corr_id _))
    | true =>
      obtain ⟨hkept, hstate⟩ := hok rfl
      exact .inr (.inl ⟨⟨hkept.sound, hkept.unpair⟩, hstate⟩)

variable (whole) in
theorem onPairBusy_effect (e : PairingEngine) (sender : MacAddress) (corr_id : UInt32) :
    Minor e (e.onPairBusy sender corr_id).2 ∨
      Drops sender (e.platform.attached sender) whole e (e.onPairBusy sender corr_id).2 := by
  unfold onPairBusy
  split
  · exact .inl (.refl e)
  · have hreset : Tame e (((e.emit .PairingFailed sender corr_id "busy_pairing").evictPeer
        sender).2.resetPairing) := (Tame.refl e).freed rfl rfl rfl
    exact .inr ⟨hreset.toKept, rfl, fun hs _ other => hreset.clean hs other,
      fun _ => ⟨e.platform, rfl, rfl⟩⟩

/-! The clock. -/

/-- A part of a tick that leaves the link, its peer table included, as it is. -/
structure Calm (e t : PairingEngine) : Prop extends Tame e t where
  state : t.state = e.state
  peer_mac : t.peer_mac = e.peer_mac
  deferred_peer : t.deferred_unpair_peer = e.deferred_unpair_peer
  attached : t.platform.attached = e.platform.attached

namespace Calm

theorem of_minor (h : Minor e t) (hattached : t.platform.attached = e.platform.attached) : Calm e t :=
  ⟨.of_minor h, h.state, h.peer_mac, h.deferred_peer, hattached⟩

protected theorem refl (e : PairingEngine) : Calm e e := .of_minor (.refl e) rfl

protected theorem trans (het : Calm e t) (htu : Calm t u) : Calm e u :=
  ⟨het.toTame.trans htu.toTame, htu.state.trans het.state, htu.peer_mac.trans het.peer_mac,
    htu.deferred_peer.trans het.deferred_peer, htu.attached.trans het.attached⟩

theorem sendControl (h : Calm e t) (dest : MacAddress) (type : MessageType) (corr_id : UInt32)
    (payload : Bytes) : Calm e (t.sendControl dest type corr_id payload).2 :=
  h.trans (.of_minor ((Minor.refl t).sendControl dest type corr_id payload)
    (t.sendControl_attached dest type corr_id payload))

theorem emit (h : Calm e t) (type : EventType) (peer : MacAddress) (corr_id : UInt32) (msg : String) :
    Calm e (t.emit type peer corr_id msg) :=
  h.trans (.of_minor ((Minor.refl t).emit type peer corr_id msg) rfl)

theorem channelState (h : Calm e t) (state : ChannelSwitchState) :
    Calm e { t with channel_state := state } :=
  h.trans (.of_minor ⟨rfl, rfl, rfl, rfl, rfl, rfl, rfl⟩ rfl)

theorem saveChannel (h : Calm e t) (peer : MacAddress) (channel : UInt8) :
    Calm e (t.withStore fun s => (s.saveChannel t.local_mac peer channel).2) :=
  h.trans ⟨(Tame.refl t).saveChannel peer channel, rfl, rfl, rfl, rfl⟩

theorem drops (h : Calm e t) (h' : Drops peer (t.platform.attached peer) whole t u) :
    Drops peer (e.platform.attached peer) whole e u where
  sound := h'.sound ∘ h.sound
  unpair := h'.unpair ∘ h.unpair
  state := h'.state
  clean := fun hs hok other => (h.clean hs other).trans (h'.clean (h.sound hs) hok other)
  removal := by
    rw [← h.attached]
    exact h'.removal

end Calm

theorem tickDiscovery_calm (e : PairingEngine) (now_ms : UInt32) : Calm e (e.tickDiscovery now_ms) := by
  unfold tickDiscovery
  split
  · have hcounted (a b : UInt32) :
        Calm e { e with discovery_last_sent_ms := a, discovery_counter := b } :=
      .of_minor ⟨rfl, rfl, rfl, rfl, rfl, rfl, rfl⟩ rfl
    exact (hcounted _ _).sendControl _ _ _ _
  · exact .refl e

variable (whole) in
theorem pairDeadline_effect (e : PairingEngine) :
    (e.pairDeadline.1 = true ∧ Calm e e.pairDeadline.2) ∨
      (e.pairDeadline.1 = false ∧
        Drops e.peer_mac (e.platform.attached e.peer_mac) whole e e.pairDeadline.2) := by
  unfold pairDeadline
  split
  · have hsent := (Calm.refl e).sendControl e.peer_mac .PairConfirm e.corr_id
      (pairConfirmPayload e.pairing_nonce)
    generalize e.sendControl e.peer_mac .PairConfirm e.corr_id (pairConfirmPayload e.pairing_nonce)
      = answer at hsent ⊢
    obtain ⟨sent, t⟩ := answer
    cases sent with
    | false =>
      refine .inr ⟨rfl, ?_⟩
      rw [← hsent.peer_mac]
      exact hsent.drops ((Tame.refl t).drops rfl _ _)
    | true =>
      have hwaits (phase : PairPhase) (deadline_ms last_ms : UInt32) : Calm t { t with
          pair_phase := phase, pair_deadline_ms := deadline_ms, pair_last_tick_ms := last_ms } :=
        .of_minor ⟨rfl, rfl, rfl, rfl, rfl, rfl, rfl⟩ rfl
      exact .inl ⟨rfl, (hsent.trans (hwaits _ _ _)).emit _ _ _ _⟩
  · exact .inr ⟨rfl, (Tame.refl e).drops rfl e.corr_id _⟩

variable (whole) in
/-- The timers of an attempt let it go on or end it. -/
theorem tickPairing_effect (e : PairingEngine) (now_ms : UInt32) :
    ((e.tickPairing now_ms).1 = true ∧ Calm e (e.tickPairing now_ms).2) ∨
      ((e.tickPairing now_ms).1 = false ∧
        Drops e.peer_mac (e.platform.attached e.peer_mac) whole e (e.tickPairing now_ms).2) := by
  have hmark (last_ms : UInt32) : Calm e { e with pair_last_tick_ms := last_ms } :=
    .of_minor ⟨rfl, rfl, rfl, rfl, rfl, rfl, rfl⟩ rfl
  unfold tickPairing
  split
  · exact .inl ⟨rfl, .refl e⟩
  split
  · exact .inl ⟨rfl, hmark now_ms⟩
  dsimp only
  split
  · exact .inr ⟨rfl, (hmark now_ms).drops ((Tame.refl _).drops rfl _ _)⟩
  have hspend : Calm e (({ e with pair_last_tick_ms := now_ms } : PairingEngine).spendTotal
      (now_ms - e.pair_last_tick_ms)) := by
    unfold spendTotal
    split
    · exact (hmark now_ms).trans (.of_minor ⟨rfl, rfl, rfl, rfl, rfl, rfl, rfl⟩ rfl)
    · exact hmark now_ms
  generalize ({ e with pair_last_tick_ms := now_ms } : PairingEngine).spendTotal
    (now_ms - e.pair_last_tick_ms) = t at hspend ⊢
  unfold spendPhase
  split
  · exact .inl ⟨rfl, hspend⟩
  split
  · rcases t.pairDeadline_effect whole with ⟨hgoes, hcalm⟩ | ⟨hends, hdrops⟩
    · exact .inl ⟨hgoes, hspend.trans hcalm⟩
    · refine .inr ⟨hends, ?_⟩
      rw [← hspend.peer_mac]
      exact hspend.drops hdrops
  · exact .inl ⟨rfl, hspend.trans (.of_minor ⟨rfl, rfl, rfl, rfl, rfl, rfl, rfl⟩ rfl)⟩

theorem tickChannel_calm (e : PairingEngine) (now_ms : UInt32) : Calm e (e.tickChannel now_ms).2 := by
  have hset {ok : Bool} {p : Platform} (h : e.platform.setChannel e.pending_channel = (ok, p)) :
      Calm e { e with platform := p } := by
    have hattached := e.platform.setChannel_attached e.pending_channel
    rw [h] at hattached
    exact .of_minor ⟨rfl, rfl, rfl, rfl, rfl, rfl, rfl⟩ hattached
  unfold tickChannel
  split
  · exact ((Calm.refl e).emit _ _ _ _).channelState .Idle
  split
  · dsimp only
    unfold applySlaveChannel
    cases h : e.platform.setChannel e.pending_channel with
    | mk ok p =>
      cases ok with
      | false => exact ((hset h).emit _ _ _ _).channelState .Idle
      | true =>
        have hsaved := ((hset h).saveChannel e.peer_mac e.pending_channel).sendControl e.peer_mac
          .ChannelSwitchCommitAck e.channel_corr_id []
        dsimp only
        split
        · exact (hsaved.channelState .Idle).emit _ _ _ _
        · exact hsaved.channelState .Idle
  split
  · cases h : e.platform.setChannel e.pending_channel with
    | mk ok p =>
      cases ok with
      | false => exact ((hset h).emit _ _ _ _).channelState .Idle
      | true => exact hset h
  · exact .refl e

theorem tickUnpair_calm (e : PairingEngine) (now_ms : UInt32) : Calm e (e.tickUnpair now_ms) := by
  have htimed (deadline_ms last_ms : UInt32) : Calm e { e with
      unpair_deadline_ms := deadline_ms, unpair_last_tick_ms := last_ms } :=
    .of_minor ⟨rfl, rfl, rfl, rfl, rfl, rfl, rfl⟩ rfl
  have hgiven : Calm e { e with
      unpair_pending := false, unpair_deadline_ms := 0, unpair_last_tick_ms := 0 } :=
    ⟨(Tame.refl e).freed rfl rfl rfl, rfl, rfl, rfl, rfl⟩
  unfold tickUnpair
  split
  · split
    · exact htimed _ _
    · dsimp only
      split
      · exact hgiven.emit _ _ _ _
      · exact htimed _ _
  · exact .refl e

variable (whole) in
/-- The deferred teardown does nothing yet, or removes the peer it is for. -/
theorem tickDeferredCleanup_effect (e : PairingEngine) (now_ms : UInt32) :
    Calm e (e.tickDeferredCleanup now_ms) ∨
      (e.CleanupDue now_ms ∧ Drops e.deferred_unpair_peer
        (e.platform.attached e.deferred_unpair_peer) whole e (e.tickDeferredCleanup now_ms)) := by
  have htimed (deadline_ms last_ms : UInt32) : Calm e { e with
      deferred_unpair_deadline_ms := deadline_ms, deferred_unpair_last_tick_ms := last_ms } :=
    .of_minor ⟨rfl, rfl, rfl, rfl, rfl, rfl, rfl⟩ rfl
  unfold tickDeferredCleanup CleanupDue
  split
  · rename_i harmed
    split
    · exact .inl (htimed _ _)
    · rename_i hstarted
      dsimp only
      split
      · rename_i hdue
        refine .inr ⟨⟨harmed.1, harmed.2, hstarted, hdue⟩, ?_⟩
        have hmark := htimed e.deferred_unpair_deadline_ms now_ms
        have hforgot := hmark.toTame.forgetPeer e.deferred_unpair_peer
        have hgone : Tame e (deferredCleanup { e with deferred_unpair_last_tick_ms := now_ms }) :=
          hforgot.freed rfl rfl rfl
        exact ⟨hgone.toKept, rfl, fun hs _ other => hgone.clean hs other,
          fun _ => ⟨e.platform, rfl, rfl⟩⟩
      · exact .inl (htimed _ _)
  · exact .inl (.refl e)

variable (whole) in
theorem tick_effect (e : PairingEngine) (now_ms : UInt32) :
    Calm e (e.tick now_ms).2 ∨
      Drops e.peer_mac (e.platform.attached e.peer_mac) whole e (e.tick now_ms).2 ∨
      (e.CleansUp now_ms ∧ Drops e.deferred_unpair_peer
        (e.platform.attached e.deferred_unpair_peer) whole e (e.tick now_ms).2) := by
  have hnow : Calm e { e with current_now_ms := now_ms } :=
    .of_minor ⟨rfl, rfl, rfl, rfl, rfl, rfl, rfl⟩ rfl
  have hdiscovery := hnow.trans (tickDiscovery_calm _ now_ms)
  unfold tick CleansUp
  dsimp only
  generalize ({ e with current_now_ms := now_ms } : PairingEngine).tickDiscovery now_ms = d
    at hdiscovery ⊢
  have hpairing := d.tickPairing_effect whole now_ms
  generalize d.tickPairing now_ms = paired at hpairing ⊢
  obtain ⟨ok, t⟩ := paired
  rcases hpairing with ⟨hgoes, hcalm⟩ | ⟨hends, hdrops⟩
  · obtain rfl : ok = true := hgoes
    have ht := hdiscovery.trans hcalm
    have hchannel := ht.trans (t.tickChannel_calm now_ms)
    dsimp only at ht hchannel ⊢
    generalize t.tickChannel now_ms = switched at hchannel ⊢
    obtain ⟨result, u⟩ := switched
    cases result with
    | some ok => exact .inl hchannel
    | none =>
      have hunpair := hchannel.trans (u.tickUnpair_calm now_ms)
      rcases (u.tickUnpair now_ms).tickDeferredCleanup_effect whole now_ms with
        hcalm | ⟨hdue, hdrops⟩
      · exact .inl (hunpair.trans hcalm)
      · refine .inr (.inr ⟨⟨rfl, rfl, hdue⟩, ?_⟩)
        rw [← hunpair.deferred_peer]
        exact hunpair.drops hdrops
  · obtain rfl : ok = false := hends
    refine .inr (.inl ?_)
    rw [← hdiscovery.peer_mac]
    exact hdiscovery.drops hdrops

/-! Every input. -/

theorem Kept.refl (e : PairingEngine) : Kept e e := ⟨id, id⟩

theorem requestPair_unchanged {corr_id : UInt32} (h : ¬ e.StartsPair) :
    (e.requestPair peer corr_id).2 = e := by
  unfold requestPair
  split
  · rfl
  · rename_i hrole
    rw [if_pos]
    by_contra hidle
    exact h ⟨not_not.mp hrole, hidle⟩

theorem rejectBusy_minor (e : PairingEngine) (sender : MacAddress) (corr_id : UInt32) :
    Minor e (e.rejectBusy sender corr_id) :=
  (((Minor.refl e).attachPeer sender false none).sendControl sender .PairBusy corr_id [1]).emit _ _ _ _

theorem onPairInit_minor {corr_id : UInt32} (h : ¬ e.TakesPairInit peer corr_id) (seed : PairSeed)
    (nonce : UInt32) : Minor e (e.onPairInit peer corr_id seed nonce).2 := by
  unfold onPairInit
  split
  · exact .refl e
  · rename_i hopen
    push Not at hopen
    rw [if_pos]
    · exact e.rejectBusy_minor peer corr_id
    · by_contra hown
      exact h ⟨hopen.1, hopen.2, hown⟩

theorem askChannelSwitch_minor (e : PairingEngine) : Minor e e.askChannelSwitch.2 := by
  unfold askChannelSwitch
  split
  · exact ⟨rfl, rfl, rfl, rfl, rfl, rfl, rfl⟩
  · exact .refl e

theorem restorePairedLink_effect (e : PairingEngine) (record : PairRecord) :
    Minor e (e.restorePairedLink record).2 ∨
      (Kept e (e.restorePairedLink record).2 ∧ (e.restorePairedLink record).2.state = .Secured) := by
  unfold restorePairedLink
  split
  · exact .inl (.refl e)
  generalize e.platform.setChannel record.channel = switched
  obtain ⟨ok, p⟩ := switched
  have hplatform : Minor e (e.withPlatform p) := ⟨rfl, rfl, rfl, rfl, rfl, rfl, rfl⟩
  cases ok with
  | false => exact .inl hplatform
  | true =>
    have hattached := hplatform.attachPeer record.peer_mac true (some record.lmk)
    dsimp only
    generalize (e.withPlatform p).attachPeer record.peer_mac true (some record.lmk) = opened
      at hattached ⊢
    obtain ⟨ok, t⟩ := opened
    cases ok with
    | false => exact .inl hattached
    | true => exact .inr ⟨⟨(Tame.of_minor hattached).sound, fun _ _ => rfl⟩, rfl⟩

theorem requestUnpair_kept (e : PairingEngine) (peer : MacAddress) (corr_id : UInt32) :
    Kept e (e.requestUnpair peer corr_id).2 := by
  unfold requestUnpair
  split
  · exact .refl e
  · rename_i hguard
    push Not at hguard
    have hsent := (Minor.refl (e.beginUnpair peer corr_id)).sendControl peer .UnpairRequest corr_id []
    generalize (e.beginUnpair peer corr_id).sendControl peer .UnpairRequest corr_id [] = answer
      at hsent ⊢
    obtain ⟨ok, t⟩ := answer
    have hsecured : t.state = .Secured := hsent.state.trans hguard.2.1
    have hstore : t.store = e.store := hsent.store
    have hsound : e.StoreSound → t.StoreSound := by
      intro hs s
      rw [hstore]
      exact hs s
    cases ok <;> exact ⟨hsound, fun _ _ => hsecured⟩

theorem onUnpairRequest_tame (e : PairingEngine) (sender : MacAddress) (corr_id : UInt32) :
    Tame e (e.onUnpairRequest sender corr_id).2 := by
  unfold onUnpairRequest
  split
  · exact .refl e
  · have hsent := (Minor.refl e).sendControl sender .UnpairAck corr_id []
    generalize e.sendControl sender .UnpairAck corr_id [] = answer at hsent ⊢
    obtain ⟨ok, t⟩ := answer
    have hscheduled : Tame t (t.scheduleCleanup sender corr_id) := .of_store rfl rfl fun h => h
    cases ok with
    | false => exact .of_minor hsent
    | true => exact (Tame.of_minor hsent).trans hscheduled

theorem onUnpairAck_tame (e : PairingEngine) (sender : MacAddress) (corr_id : UInt32) :
    Tame e (e.onUnpairAck sender corr_id).2 := by
  unfold onUnpairAck
  split
  · exact .refl e
  · exact (((Tame.refl e).forgetPeer sender).minor ((Minor.refl _).evictPeer sender)).freed rfl rfl rfl

theorem dropPeer_tame (e : PairingEngine) (peer : MacAddress) (erase : Bool) :
    Tame e (e.dropPeer peer erase) := by
  have hevicted := (Tame.refl e).minor ((Minor.refl e).evictPeer peer)
  unfold dropPeer
  split
  · exact hevicted.forgetPeer peer
  · exact hevicted

theorem removePeer_tame (e : PairingEngine) (peer : MacAddress) (erase : Bool) :
    Tame e (e.removePeer peer erase).2 := by
  unfold removePeer
  dsimp only
  split
  · exact (e.dropPeer_tame peer erase).freed rfl rfl rfl
  · exact (e.dropPeer_tame peer erase).minor ((Minor.refl _).emit _ _ _ _)

theorem beginChannelSwitch_tame (e : PairingEngine) (peer : MacAddress) (corr_id : UInt32)
    (payload : ChannelSwitchPayload) (deadline_ms : UInt32) (state : ChannelSwitchState) :
    Tame e (e.beginChannelSwitch peer corr_id payload deadline_ms state) :=
  .of_store rfl rfl fun h => h

theorem requestChannelSwitch_tame (e : PairingEngine) (peer : MacAddress) (channel : UInt8)
    (now_ms corr_id : UInt32) : Tame e (e.requestChannelSwitch peer channel now_ms corr_id).2 := by
  unfold requestChannelSwitch
  split
  · exact .refl e
  split
  · exact .refl e
  have hasked := e.askChannelSwitch_minor
  generalize e.askChannelSwitch = answer at hasked ⊢
  obtain ⟨ok, t⟩ := answer
  cases ok with
  | false => exact .of_minor (hasked.emit _ _ _ _)
  | true =>
    dsimp only at hasked ⊢
    have hsent := hasked.sendControl peer .ChannelSwitchPrepare corr_id
      (channelPreparePayload ⟨channel, now_ms + t.config.channel_switch_grace_ms⟩)
    generalize t.sendControl peer .ChannelSwitchPrepare corr_id
      (channelPreparePayload ⟨channel, now_ms + t.config.channel_switch_grace_ms⟩) = answer at hsent ⊢
    obtain ⟨ok, u⟩ := answer
    cases ok with
    | false => exact .of_minor hsent
    | true =>
      exact ((Tame.of_minor hsent).trans (u.beginChannelSwitch_tame ..)).minor
        ((Minor.refl _).emit _ _ _ _)

theorem onChannelSwitchPrepare_tame (e : PairingEngine) (sender : MacAddress) (corr_id : UInt32)
    (payload : ChannelSwitchPayload) : Tame e (e.onChannelSwitchPrepare sender corr_id payload).2 := by
  unfold onChannelSwitchPrepare
  split
  · exact .refl e
  split
  · exact .of_minor ((Minor.refl e).emit _ _ _ _)
  have hasked := e.askChannelSwitch_minor
  generalize e.askChannelSwitch = answer at hasked ⊢
  obtain ⟨ok, t⟩ := answer
  cases ok with
  | false => exact .of_minor (hasked.emit _ _ _ _)
  | true =>
    exact ((Tame.of_minor hasked).trans (t.beginChannelSwitch_tame ..)).minor
      (((Minor.refl _).emit _ _ _ _).sendControl _ _ _ _)

theorem onChannelSwitchAck_calm (e : PairingEngine) (sender : MacAddress) (corr_id : UInt32) :
    Calm e (e.onChannelSwitchAck sender corr_id).2 := by
  unfold onChannelSwitchAck
  split
  · exact .refl e
  · exact ((Calm.refl e).emit _ _ _ _).channelState .MasterWaitCommit

theorem onChannelSwitchCommitAck_calm (e : PairingEngine) (sender : MacAddress) (corr_id : UInt32) :
    Calm e (e.onChannelSwitchCommitAck sender corr_id).2 := by
  unfold onChannelSwitchCommitAck
  split
  · exact .refl e
  · exact (((Calm.refl e).saveChannel sender e.pending_channel).emit _ _ _ _).channelState .Idle

/-- No step of a run breaks what every engine of it has. -/
theorem step_kept (e : PairingEngine) (hlinked : e.UnpairLinked) (i : PairingInput) :
    Kept e (e.step i) := by
  have hrequest (peer : MacAddress) (corr_id : UInt32) : Kept e (e.requestPair peer corr_id).2 := by
    by_cases hstarts : e.StartsPair
    · rcases requestPair_tries peer True hstarts corr_id with h | h
      · exact h.toKept
      · exact h.toKept
    · rw [requestPair_unchanged hstarts]
      exact .refl e
  cases i with
  | tick now_ms =>
    rcases e.tick_effect True now_ms with h | h | ⟨-, h⟩
    · exact h.toKept
    · exact h.toKept
    · exact h.toKept
  | discovery sender corr_id =>
    change Kept e (e.onDiscovery sender corr_id).2
    unfold onDiscovery
    split
    · exact .refl e
    split
    · exact (Tame.of_minor ((Minor.refl e).emit _ _ _ _)).toKept
    · exact hrequest sender corr_id
  | pairInit sender corr_id seed nonce =>
    change Kept e (e.onPairInit sender corr_id seed nonce).2
    by_cases htakes : e.TakesPairInit sender corr_id
    · rcases onPairInit_tries True htakes hlinked seed nonce with h | h
      · exact h.toKept
      · exact h.toKept
    · exact (Tame.of_minor (onPairInit_minor htakes seed nonce)).toKept
  | pairInitAck sender corr_id echo =>
    rcases e.onPairInitAck_effect True sender corr_id echo with h | h
    · exact (Tame.of_minor h).toKept
    · exact h.toKept
  | pairConfirm sender corr_id echo =>
    rcases e.onPairConfirm_effect sender corr_id echo with h | ⟨h, -⟩ | h
    · exact (Tame.of_minor h).toKept
    · exact h
    · exact h.toKept
  | pairConfirmAck sender corr_id flag =>
    rcases e.onPairConfirmAck_effect sender corr_id flag with h | ⟨h, -⟩ | h
    · exact (Tame.of_minor h).toKept
    · exact h
    · exact h.toKept
  | pairBusy sender corr_id =>
    rcases e.onPairBusy_effect True sender corr_id with h | h
    · exact (Tame.of_minor h).toKept
    · exact h.toKept
  | restore record =>
    rcases e.restorePairedLink_effect record with h | ⟨h, -⟩
    · exact (Tame.of_minor h).toKept
    · exact h
  | requestPair peer corr_id => exact hrequest peer corr_id
  | requestUnpair peer corr_id => exact e.requestUnpair_kept peer corr_id
  | unpairRequest sender corr_id => exact (e.onUnpairRequest_tame sender corr_id).toKept
  | unpairAck sender corr_id => exact (e.onUnpairAck_tame sender corr_id).toKept
  | removePeer peer erase => exact (e.removePeer_tame peer erase).toKept
  | requestChannelSwitch peer channel now_ms corr_id =>
    exact (e.requestChannelSwitch_tame peer channel now_ms corr_id).toKept
  | channelSwitchPrepare sender corr_id payload =>
    exact (e.onChannelSwitchPrepare_tame sender corr_id payload).toKept
  | channelSwitchAck sender corr_id => exact (e.onChannelSwitchAck_calm sender corr_id).toKept
  | channelSwitchCommitAck sender corr_id =>
    exact (e.onChannelSwitchCommitAck_calm sender corr_id).toKept

theorem attemptPeer_not_pairing {i : PairingInput} (h : e.attemptPeer i = some peer) :
    e.state ≠ .Pairing := by
  intro hpairing
  have hstarts : ¬ e.StartsPair := fun hstarts => hstarts.2 (.inl hpairing)
  cases i <;> simp [attemptPeer, hpairing, hstarts] at h

/-- An input that begins an attempt: it goes on, or it has ended at once. -/
theorem step_begins {i : PairingInput} (h : e.attemptPeer i = some peer) (hlinked : e.UnpairLinked) :
    Tries peer e (e.step i) ∨
      Drops peer ((e.beforeRemoval i).platform.attached peer) (e.Whole i) e (e.step i) := by
  cases i with
  | requestPair other corr_id =>
    simp only [attemptPeer, Option.ite_none_right_eq_some, Option.some.injEq] at h
    obtain ⟨hstarts, rfl⟩ := h
    exact requestPair_tries other _ hstarts corr_id
  | discovery sender corr_id =>
    simp only [attemptPeer, Option.ite_none_right_eq_some, Option.some.injEq] at h
    obtain ⟨⟨hstate, hauto, hstarts⟩, rfl⟩ := h
    have hstep : e.step (.discovery sender corr_id) = (e.requestPair sender corr_id).2 := by
      change (e.onDiscovery sender corr_id).2 = _
      unfold onDiscovery
      rw [if_neg (by simp [hstate, hstarts.1]), if_neg (by simp [hauto])]
    rw [hstep]
    exact requestPair_tries sender _ hstarts corr_id
  | pairInit sender corr_id seed nonce =>
    simp only [attemptPeer, Option.ite_none_right_eq_some, Option.some.injEq] at h
    obtain ⟨⟨-, htakes⟩, rfl⟩ := h
    exact onPairInit_tries _ htakes hlinked seed nonce
  | _ => cases h

/-- The peers whose removal can end the attempt at an input. -/
def CanEnd (e : PairingEngine) (peer : MacAddress) : PairingInput → Prop
  | .tick now_ms => peer = e.peer_mac ∨ (e.CleansUp now_ms ∧ peer = e.deferred_unpair_peer)
  | .pairInit _ _ _ _ => peer = e.peer_mac
  | i => i.answerSender = some peer

/-- What an input does to an attempt that is under way. -/
theorem step_pairing (hpairing : e.state = .Pairing) (hlinked : e.UnpairLinked) (i : PairingInput) :
    Tries e.peer_mac e (e.step i) ∨ (e.step i).state = .Secured ∨
      ∃ other, e.CanEnd other i ∧
        Drops other ((e.beforeRemoval i).platform.attached other) (e.Whole i) e (e.step i) := by
  have hstays {t : PairingEngine} (h : Tame e t) (hstate : t.state = e.state)
      (hpeer : t.peer_mac = e.peer_mac) : Tries e.peer_mac e t :=
    ⟨h, hstate.trans hpairing, hpeer⟩
  have hcalm {t : PairingEngine} (h : Calm e t) : Tries e.peer_mac e t :=
    hstays h.toTame h.state h.peer_mac
  have hminor {t : PairingEngine} (h : Minor e t) : Tries e.peer_mac e t :=
    hstays (.of_minor h) h.state h.peer_mac
  have hsame {ok : Bool} : Tries e.peer_mac e (ok, e).2 := hminor (.refl e)
  have hstarts : ¬ e.StartsPair := fun hstarts => hstarts.2 (.inl hpairing)
  cases i with
  | tick now_ms =>
    rcases e.tick_effect (e.Whole (.tick now_ms)) now_ms with h | h | ⟨hdue, h⟩
    · exact .inl (hcalm h)
    · exact .inr (.inr ⟨e.peer_mac, .inl rfl, h⟩)
    · exact .inr (.inr ⟨e.deferred_unpair_peer, .inr ⟨hdue, rfl⟩, h⟩)
  | discovery sender corr_id =>
    change Tries e.peer_mac e (e.onDiscovery sender corr_id).2 ∨ _
    unfold onDiscovery
    rw [if_pos (.inr (by simp [hpairing]))]
    exact .inl hsame
  | pairInit sender corr_id seed nonce =>
    by_cases htakes : e.TakesPairInit sender corr_id
    · have hown : sender = e.peer_mac := by
        by_contra hother
        exact htakes.2.2 ⟨hpairing, .inl hother⟩
      subst hown
      rcases onPairInit_tries (e.Whole (.pairInit e.peer_mac corr_id seed nonce)) htakes hlinked seed nonce
        with h | h
      · exact .inl h
      · exact .inr (.inr ⟨e.peer_mac, rfl, h⟩)
    · exact .inl (hminor (onPairInit_minor htakes seed nonce))
  | pairInitAck sender corr_id echo =>
    rcases e.onPairInitAck_effect (e.Whole (.pairInitAck sender corr_id echo)) sender corr_id echo with h | h
    · exact .inl (hminor h)
    · exact .inr (.inr ⟨sender, rfl, h⟩)
  | pairConfirm sender corr_id echo =>
    rcases e.onPairConfirm_effect sender corr_id echo with h | ⟨-, h⟩ | h
    · exact .inl (hminor h)
    · exact .inr (.inl h)
    · exact .inr (.inr ⟨sender, rfl, h⟩)
  | pairConfirmAck sender corr_id flag =>
    rcases e.onPairConfirmAck_effect sender corr_id flag with h | ⟨-, h⟩ | h
    · exact .inl (hminor h)
    · exact .inr (.inl h)
    · exact .inr (.inr ⟨sender, rfl, h⟩)
  | pairBusy sender corr_id =>
    rcases e.onPairBusy_effect (e.Whole (.pairBusy sender corr_id)) sender corr_id with h | h
    · exact .inl (hminor h)
    · exact .inr (.inr ⟨sender, rfl, h⟩)
  | restore record =>
    rcases e.restorePairedLink_effect record with h | ⟨-, h⟩
    · exact .inl (hminor h)
    · exact .inr (.inl h)
  | requestPair other corr_id =>
    change Tries e.peer_mac e (e.requestPair other corr_id).2 ∨ _
    rw [requestPair_unchanged hstarts]
    exact .inl (hminor (.refl e))
  | requestUnpair other corr_id =>
    change Tries e.peer_mac e (e.requestUnpair other corr_id).2 ∨ _
    unfold requestUnpair
    rw [if_pos (.inr (.inl (by simp [hpairing])))]
    exact .inl hsame
  | unpairRequest sender corr_id =>
    change Tries e.peer_mac e (e.onUnpairRequest sender corr_id).2 ∨ _
    unfold onUnpairRequest
    rw [if_pos (by simp [hpairing])]
    exact .inl hsame
  | unpairAck sender corr_id =>
    have hfree : e.unpair_pending = false := by
      by_contra hpending
      have hsecured := hlinked (by simpa using hpending)
      rw [hpairing] at hsecured
      cases hsecured
    change Tries e.peer_mac e (e.onUnpairAck sender corr_id).2 ∨ _
    unfold onUnpairAck
    rw [if_pos (by simp [hfree])]
    exact .inl hsame
  | removePeer other erase =>
    have htame := e.removePeer_tame other erase
    have hdropped : (e.dropPeer other erase).state = .Pairing := by
      unfold dropPeer
      split <;> exact hpairing
    have hsteady : (e.removePeer other erase).2 =
        (e.dropPeer other erase).emit .PairingStep other 0 "peer removed locally" := by
      unfold removePeer
      dsimp only
      rw [if_neg (by simp [hdropped])]
    have hpeer : (e.dropPeer other erase).peer_mac = e.peer_mac := by
      unfold dropPeer
      split <;> rfl
    change Tries e.peer_mac e (e.removePeer other erase).2 ∨ _
    rw [hsteady] at htame ⊢
    exact .inl ⟨htame, hdropped, hpeer⟩
  | requestChannelSwitch other channel now_ms corr_id =>
    change Tries e.peer_mac e (e.requestChannelSwitch other channel now_ms corr_id).2 ∨ _
    unfold requestChannelSwitch
    rw [if_pos (.inr (.inl (by simp [hpairing])))]
    exact .inl hsame
  | channelSwitchPrepare sender corr_id payload =>
    change Tries e.peer_mac e (e.onChannelSwitchPrepare sender corr_id payload).2 ∨ _
    unfold onChannelSwitchPrepare
    rw [if_pos (.inr (by simp [hpairing]))]
    exact .inl hsame
  | channelSwitchAck sender corr_id => exact .inl (hcalm (e.onChannelSwitchAck_calm sender corr_id))
  | channelSwitchCommitAck sender corr_id =>
    exact .inl (hcalm (e.onChannelSwitchCommitAck_calm sender corr_id))

theorem persisting_store {i : PairingInput} {saver : PairingEngine} (h : e.persisting i = some saver) :
    saver.store = e.store := by
  cases i with
  | pairConfirm sender corr_id echo =>
    simp only [persisting, Option.ite_none_right_eq_some] at h
    obtain ⟨-, h⟩ := h
    cases hkey : e.slaveKey sender with
    | none => simp [hkey] at h
    | some lmk =>
      have hinstalled := ((Minor.refl e).installKey sender lmk).store
      simp only [hkey] at h
      generalize e.installKey sender lmk = installed at hinstalled h
      obtain ⟨ok, t⟩ := installed
      cases ok with
      | false => cases h
      | true =>
        obtain rfl := Option.some.inj h
        exact hinstalled
  | pairConfirmAck sender corr_id flag =>
    simp only [persisting, Option.ite_none_right_eq_some] at h
    obtain rfl := Option.some.inj h.2
    rfl
  | _ => cases h

/-- A removal that ends the attempt of its peer leaves the peer detached and none of its pair behind. -/
theorem Drops.clean_end {i : PairingInput} (hsound : e.StoreSound) (hclean : e.CleanEnd i)
    (hends : e.EndsAttempt i) (hpeer : peer = e.attemptOf i)
    (h : Drops peer ((e.beforeRemoval i).platform.attached peer) (e.Whole i) e (e.step i)) :
    NoNewPair peer e (e.step i) ∧ (e.step i).platform.attached peer = none := by
  refine ⟨h.clean hsound hclean.whole peer, ?_⟩
  obtain ⟨p, hplatform, hheld⟩ := h.removal (by rw [hpeer]; exact hclean.addressed hends)
  have hremoval := hclean.removal hends
  rw [hplatform, ← hpeer, ← hheld] at hremoval
  rw [hplatform]
  exact Platform.removePeer_detaches hremoval

theorem attemptOf_begins {i : PairingInput} (h : e.attemptPeer i = some peer) : e.attemptOf i = peer := by
  unfold attemptOf
  rw [h]
  rfl

theorem attemptOf_pairing {i : PairingInput} (hpairing : e.state = .Pairing) :
    e.attemptOf i = e.peer_mac := by
  unfold attemptOf
  cases h : e.attemptPeer i with
  | none => rfl
  | some peer => exact absurd hpairing (attemptPeer_not_pairing h)

/-- An input of an attempt that ends cleanly, if it ends: what it does for the attempt's peer. -/
theorem step_attempted {i : PairingInput} (hopen : e.state = .Pairing ∨ (e.attemptPeer i).isSome)
    (hsound : e.StoreSound) (hlinked : e.UnpairLinked) (hclean : e.CleanEnd i) :
    ((e.step i).state = .Pairing →
        (e.step i).peer_mac = e.attemptOf i ∧ NoNewPair (e.attemptOf i) e (e.step i)) ∧
      ((e.step i).state = .Unpaired → NoNewPair (e.attemptOf i) e (e.step i) ∧
        (e.step i).platform.attached (e.attemptOf i) = none) := by
  have htries (h : Tries (e.attemptOf i) e (e.step i)) :
      ((e.step i).state = .Pairing →
          (e.step i).peer_mac = e.attemptOf i ∧ NoNewPair (e.attemptOf i) e (e.step i)) ∧
        ((e.step i).state = .Unpaired → NoNewPair (e.attemptOf i) e (e.step i) ∧
          (e.step i).platform.attached (e.attemptOf i) = none) := by
    refine ⟨fun _ => ⟨h.peer_mac, h.clean hsound _⟩, fun hstate => ?_⟩
    rw [h.state] at hstate
    cases hstate
  have hdrops {other : MacAddress} (hother : e.EndsAttempt i → other = e.attemptOf i)
      (h : Drops other ((e.beforeRemoval i).platform.attached other) (e.Whole i) e (e.step i)) :
      ((e.step i).state = .Pairing →
          (e.step i).peer_mac = e.attemptOf i ∧ NoNewPair (e.attemptOf i) e (e.step i)) ∧
        ((e.step i).state = .Unpaired → NoNewPair (e.attemptOf i) e (e.step i) ∧
          (e.step i).platform.attached (e.attemptOf i) = none) := by
    have hends : e.EndsAttempt i := ⟨hopen, h.state⟩
    refine ⟨fun hstate => ?_, fun _ => ?_⟩
    · rw [h.state] at hstate
      cases hstate
    · have hend := h.clean_end hsound hclean hends (hother hends)
      rwa [hother hends] at hend
  by_cases hpairing : e.state = .Pairing
  · have hof := attemptOf_pairing (i := i) hpairing
    rcases step_pairing hpairing hlinked i with h | h | ⟨other, hcan, h⟩
    · rw [← hof] at h
      exact htries h
    · refine ⟨fun hstate => ?_, fun hstate => ?_⟩
      · rw [h] at hstate
        cases hstate
      · rw [h] at hstate
        cases hstate
    · refine hdrops (fun hends => ?_) h
      rw [hof]
      cases i with
      | tick now_ms =>
        rcases hcan with hown | ⟨hdue, hdeferred⟩
        · exact hown
        · rw [hdeferred]
          exact hclean.cleanup hends now_ms rfl hdue
      | pairInit sender corr_id seed nonce => exact hcan
      | _ => exact hclean.answers hends other hcan
  · obtain ⟨peer, hbegins⟩ := Option.isSome_iff_exists.mp (hopen.resolve_left hpairing)
    rw [attemptOf_begins hbegins] at htries hdrops ⊢
    rcases step_begins hbegins hlinked with h | h
    · exact htries h
    · exact hdrops (fun _ => rfl) h

end

end PairingEngine

namespace AttemptTrace

open PairingEngine

/-- What holds along a run whose attempts end cleanly. -/
structure Inv (t : AttemptTrace) : Prop where
  sound : t.engine.StoreSound
  linked : t.engine.UnpairLinked
  opened : ∀ peer before, t.opened = some (peer, before) → t.engine.state = .Pairing ∧
    t.engine.peer_mac = peer ∧ NoNewPair peer before t.engine

theorem inv_start {e : PairingEngine} (h : e.Booted) : (start e).Inv := by
  obtain ⟨config, crypto, platform, store, has_hooks, has_time_source, local_mac, profile_id, rfl,
    hempty⟩ := h
  refine ⟨fun s hs key entry hentry => ?_, fun hpending => ?_, fun peer before hopen => ?_⟩
  · rw [hempty s hs] at hentry
    cases hentry
  · cases hpending
  · cases hopen

/-- The attempt an input belongs to has the peer that the engine takes it for, and began with what was
stored then. -/
theorem Inv.current {t : AttemptTrace} (ht : t.Inv) {i : PairingInput} {peer : MacAddress}
    {before : PairingEngine} (h : t.current i = some (peer, before)) :
    (t.engine.state = .Pairing ∨ (t.engine.attemptPeer i).isSome) ∧ t.engine.attemptOf i = peer ∧
      NoNewPair peer before t.engine := by
  unfold AttemptTrace.current at h
  cases hbegins : t.engine.attemptPeer i with
  | some other =>
    simp only [hbegins, Option.map_some, Option.some_or, Option.some.injEq, Prod.mk.injEq] at h
    obtain ⟨rfl, rfl⟩ := h
    exact ⟨.inr rfl, attemptOf_begins hbegins, .of_store rfl rfl⟩
  | none =>
    simp only [hbegins, Option.map_none, Option.none_or] at h
    obtain ⟨hpairing, hpeer, hnew⟩ := ht.opened peer before h
    exact ⟨.inl hpairing, (attemptOf_pairing hpairing).trans hpeer, hnew⟩

theorem inv_step {t : AttemptTrace} (ht : t.Inv) {i : PairingInput} (hclean : t.engine.CleanEnd i) :
    (t.step i).Inv := by
  have hkept := t.engine.step_kept ht.linked i
  refine ⟨hkept.sound ht.sound, hkept.unpair ht.linked, fun peer before hopen => ?_⟩
  simp only [step, Option.ite_none_right_eq_some] at hopen
  obtain ⟨hpairing, hcurrent⟩ := hopen
  obtain ⟨hopen, hpeer, hbefore⟩ := ht.current hcurrent
  obtain ⟨hmac, hnew⟩ := (step_attempted hopen ht.sound ht.linked hclean).1 hpairing
  rw [hpeer] at hmac hnew
  exact ⟨hpairing, hmac, hbefore.trans hnew⟩

end AttemptTrace

namespace PairingExample

open PairingEngine

theorem tick_cleanEnd {e : PairingEngine} {now_ms : UInt32}
    (hpeer : e.peer_mac ≠ kBroadcastMac) (hcleans : ¬ e.CleansUp now_ms)
    (hremoval : ((e.step (.tick now_ms)).platform.answer
      ((e.step (.tick now_ms)).platform.calls - 1)).ok = true) : e.CleanEnd (.tick now_ms) where
  answers := fun _ _ h => by cases h
  addressed := fun _ => hpeer
  cleanup := fun _ _ h hdue => by
    cases h
    exact absurd hdue hcleans
  removal := fun _ _ => hremoval
  whole := fun _ h => by cases h

/-- A store whose eighth access fails: in a handshake that is the write of the index. -/
def tornStore : PairingStore := { emptyStore with backend := ⟨fun _ => none, (· != 7), 0⟩ }

def tornMaster : PairingEngine :=
  .boot (config .Master) master.crypto alwaysOk (some tornStore) false false (mac 1) 1

end PairingExample

end EspNowLink
