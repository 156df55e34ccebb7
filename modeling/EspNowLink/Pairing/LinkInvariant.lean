import EspNowLink.Pairing.EngineSteps

namespace EspNowLink

open PairingEngine

namespace PairingEngine

def StoreSound (e : PairingEngine) : Prop := ∀ s, e.store = some s → s.CacheSound

/-- The attempt is past the point where the master has installed the derived key. -/
def KeyInstalled (e : PairingEngine) : Prop :=
  e.state = .Secured ∨ (e.state = .Pairing ∧ e.config.local_role = .Master ∧
    (e.pair_phase = .MasterSecureGuard ∨ e.pair_phase = .MasterWaitConfirmAck))

/-- The active peer is attached with the current key, and a secured link is persisted. -/
structure LinkInv (e : PairingEngine) : Prop where
  sound : e.StoreSound
  attached : e.KeyInstalled → e.platform.attached e.peer_mac = some ⟨true, some e.current_lmk⟩
  held : e.state = .Secured →
    ∃ s, e.store = some s ∧ HoldsPair s e.local_mac e.peer_mac e.current_lmk

/-- A step that starts no attempt ends the link or goes on with the same peer. -/
def Follows (e t : PairingEngine) : Prop :=
  t.state = .Unpaired ∨
    (t.peer_mac = e.peer_mac ∧ e.state ≠ .Unpaired ∧ (t.state = .Pairing → e.state = .Pairing))

theorem SameLink.inv {e t : PairingEngine} (h : SameLink e t) (he : LinkInv e) : LinkInv t where
  sound := h.sound he.sound
  attached := by
    intro hk
    have hk' : e.KeyInstalled := by
      simpa only [KeyInstalled, h.state, h.config, h.pair_phase] using hk
    rw [h.peer_mac, h.current_lmk, h.attached, he.attached hk']
  held := by
    intro hs
    rw [h.local_mac, h.peer_mac, h.current_lmk]
    exact h.held (he.held (h.state ▸ hs))

theorem SameLink.follows {e t : PairingEngine} (h : SameLink e t) : Follows e t := by
  by_cases hs : e.state = .Unpaired
  · exact .inl (h.state.trans hs)
  · exact .inr ⟨h.peer_mac, hs, fun ht => h.state ▸ ht⟩

theorem LinkInv.of_unpaired {e : PairingEngine} (hs : e.state = .Unpaired) (h : e.StoreSound) :
    LinkInv e where
  sound := h
  attached := by simp [KeyInstalled, hs]
  held := by simp [hs]

/-- What every step that starts no attempt does to the invariant. -/
def Keeps (e t : PairingEngine) : Prop := (LinkInv e → LinkInv t) ∧ Follows e t

theorem SameLink.keeps {e t : PairingEngine} (h : SameLink e t) : Keeps e t := ⟨h.inv, h.follows⟩

theorem Keeps.of_unpaired {e t : PairingEngine} (ht : t.state = .Unpaired)
    (h : e.StoreSound → t.StoreSound) : Keeps e t :=
  ⟨fun he => .of_unpaired ht (h he.sound), .inl ht⟩

theorem Keeps.trans {e t u : PairingEngine} (het : Keeps e t) (htu : Keeps t u) : Keeps e u := by
  refine ⟨htu.1 ∘ het.1, ?_⟩
  rcases htu.2 with hu | ⟨hpeer, hstate, hpairing⟩
  · exact .inl hu
  · rcases het.2 with ht | ⟨hpeer', hstate', hpairing'⟩
    · exact absurd ht hstate
    · exact .inr ⟨hpeer.trans hpeer', hstate', hpairing' ∘ hpairing⟩

theorem failPairing_keeps (e : PairingEngine) {t : PairingEngine} (peer : MacAddress)
    (corr_id : UInt32) (msg : String) (h : e.StoreSound → t.StoreSound) :
    Keeps e (t.failPairing peer corr_id msg) :=
  .of_unpaired rfl (by intro he s hs; exact h he s (by simpa using hs))

/-! The clock. -/

theorem tickDiscovery_sameLink (e : PairingEngine) (now_ms : UInt32) :
    SameLink e (e.tickDiscovery now_ms) := by
  unfold tickDiscovery
  split
  · refine SameLink.sendControl ?_ _ _ _ _
    exact ⟨rfl, rfl, rfl, rfl, rfl, rfl, rfl, id, id⟩
  · exact .refl e

theorem pairDeadline_keeps (e : PairingEngine) (hstate : e.state = .Pairing) :
    Keeps e e.pairDeadline.2 := by
  unfold pairDeadline
  split
  · rename_i hphase
    obtain ⟨ok, p, m, a, h, hatt, -⟩ := e.sendControl_cases e.peer_mac .PairConfirm e.corr_id
      (pairConfirmPayload e.pairing_nonce)
    rw [h]
    cases ok with
    | false => exact failPairing_keeps e _ _ _ id
    | true =>
      refine ⟨fun he => ⟨he.sound, ?_, ?_⟩, .inr ⟨rfl, by simp [hstate], fun _ => hstate⟩⟩
      · intro hk
        have hrole : e.config.local_role = .Master := by
          rcases hk with hk | hk
          · exact absurd (hstate.symm.trans hk) (by simp)
          · exact hk.2.1
        exact (congrFun hatt _).trans (he.attached (.inr ⟨hstate, hrole, .inl hphase⟩))
      · intro hs
        exact absurd (hstate.symm.trans hs) (by simp)
  · exact failPairing_keeps e _ _ _ id

theorem spendPhase_keeps (e : PairingEngine) (elapsed : UInt32) (hstate : e.state = .Pairing) :
    Keeps e (e.spendPhase elapsed).2 := by
  unfold spendPhase
  split
  · exact (SameLink.refl e).keeps
  split
  · exact pairDeadline_keeps e hstate
  · exact SameLink.keeps ⟨rfl, rfl, rfl, rfl, rfl, rfl, rfl, id, id⟩

theorem spendTotal_sameLink (e : PairingEngine) (elapsed : UInt32) :
    SameLink e (e.spendTotal elapsed) := by
  unfold spendTotal
  split
  · exact ⟨rfl, rfl, rfl, rfl, rfl, rfl, rfl, id, id⟩
  · exact .refl e

theorem tickPairing_keeps (e : PairingEngine) (now_ms : UInt32) :
    Keeps e (e.tickPairing now_ms).2 := by
  have hmark (a : UInt32) : SameLink e { e with pair_last_tick_ms := a } :=
    ⟨rfl, rfl, rfl, rfl, rfl, rfl, rfl, id, id⟩
  unfold tickPairing
  split
  · exact (SameLink.refl e).keeps
  split
  · exact (hmark now_ms).keeps
  · rename_i hstate _
    have hspend := (hmark now_ms).trans (spendTotal_sameLink _ (now_ms - e.pair_last_tick_ms))
    by_cases hfail : e.pair_total_deadline_ms ≠ 0 ∧
        now_ms - e.pair_last_tick_ms ≥ e.pair_total_deadline_ms
    · rw [if_pos hfail]
      exact failPairing_keeps e _ _ _ id
    · rw [if_neg hfail]
      have hpairing : e.state = .Pairing := by simpa using hstate
      exact hspend.keeps.trans (spendPhase_keeps _ _ (hspend.state.trans hpairing))

theorem applySlaveChannel_sameLink (e : PairingEngine) : SameLink e e.applySlaveChannel.2 := by
  unfold applySlaveChannel
  cases hset : e.platform.setChannel e.pending_channel with
  | mk ok platform =>
    have hplat : SameLink e { e with platform := platform } := by
      have hatt := Platform.setChannel_attached e.platform e.pending_channel
      rw [hset] at hatt
      exact ⟨rfl, rfl, rfl, rfl, rfl, rfl, congrFun hatt _, id, id⟩
    have hidle {t : PairingEngine} (h : SameLink e t) :
        SameLink e { t with channel_state := .Idle } :=
      h.trans ⟨rfl, rfl, rfl, rfl, rfl, rfl, rfl, id, id⟩
    cases ok with
    | false => exact hidle (hplat.emit _ _ _ _)
    | true =>
      have hsent := (hplat.trans (saveChannel_sameLink _ e.peer_mac e.pending_channel)).sendControl
        e.peer_mac .ChannelSwitchCommitAck e.channel_corr_id []
      dsimp only
      split
      · exact (hidle hsent).emit _ _ _ _
      · exact hidle hsent

theorem tickChannel_sameLink (e : PairingEngine) (now_ms : UInt32) :
    SameLink e (e.tickChannel now_ms).2 := by
  have hidle {t : PairingEngine} (h : SameLink e t) :
      SameLink e { t with channel_state := .Idle } :=
    h.trans ⟨rfl, rfl, rfl, rfl, rfl, rfl, rfl, id, id⟩
  unfold tickChannel
  split
  · exact hidle ((SameLink.refl e).emit _ _ _ _)
  split
  · exact applySlaveChannel_sameLink e
  split
  · cases hset : e.platform.setChannel e.pending_channel with
    | mk ok platform =>
      have hplat : SameLink e { e with platform := platform } := by
        have hatt := Platform.setChannel_attached e.platform e.pending_channel
        rw [hset] at hatt
        exact ⟨rfl, rfl, rfl, rfl, rfl, rfl, congrFun hatt _, id, id⟩
      cases ok with
      | false => exact hidle (hplat.emit _ _ _ _)
      | true => exact hplat
  · exact .refl e

theorem tickUnpair_sameLink (e : PairingEngine) (now_ms : UInt32) :
    SameLink e (e.tickUnpair now_ms) := by
  unfold tickUnpair
  split
  · split
    · exact ⟨rfl, rfl, rfl, rfl, rfl, rfl, rfl, id, id⟩
    · dsimp only
      split <;> exact ⟨rfl, rfl, rfl, rfl, rfl, rfl, rfl, id, id⟩
  · exact .refl e

theorem deferredCleanup_keeps (e : PairingEngine) : Keeps e e.deferredCleanup :=
  .of_unpaired rfl (forgetPeer_sound e e.deferred_unpair_peer)

theorem tickDeferredCleanup_keeps (e : PairingEngine) (now_ms : UInt32) :
    Keeps e (e.tickDeferredCleanup now_ms) := by
  have hmark (a b : UInt32) : SameLink e { e with
      deferred_unpair_last_tick_ms := a, deferred_unpair_deadline_ms := b } :=
    ⟨rfl, rfl, rfl, rfl, rfl, rfl, rfl, id, id⟩
  unfold tickDeferredCleanup
  split
  · split
    · exact (hmark _ _).keeps
    · dsimp only
      split
      · exact (hmark now_ms e.deferred_unpair_deadline_ms).keeps.trans (deferredCleanup_keeps _)
      · exact (hmark _ _).keeps
  · exact (SameLink.refl e).keeps

theorem tick_keeps (e : PairingEngine) (now_ms : UInt32) : Keeps e (e.tick now_ms).2 := by
  have hnow : SameLink e { e with current_now_ms := now_ms } :=
    ⟨rfl, rfl, rfl, rfl, rfl, rfl, rfl, id, id⟩
  have hdisc := (hnow.trans (tickDiscovery_sameLink _ now_ms)).keeps
  have hpair := hdisc.trans (tickPairing_keeps _ now_ms)
  unfold tick
  dsimp only
  rcases hp : (({ e with current_now_ms := now_ms } : PairingEngine).tickDiscovery
    now_ms).tickPairing now_ms with ⟨ok, t⟩
  rw [hp] at hpair
  cases ok with
  | false => exact hpair
  | true =>
    have hchan := hpair.trans (tickChannel_sameLink t now_ms).keeps
    rcases hc : t.tickChannel now_ms with ⟨result, u⟩
    rw [hc] at hchan
    dsimp only
    rw [hc]
    cases result with
    | some r => exact hchan
    | none =>
      exact (hchan.trans (tickUnpair_sameLink u now_ms).keeps).trans (tickDeferredCleanup_keeps _ _)

/-! Handshake messages of the attempt's own peer. -/

/-- A change inside an attempt: only the platform, the key material and the timers move. -/
structure SameAttempt (e t : PairingEngine) : Prop where
  config : t.config = e.config
  local_mac : t.local_mac = e.local_mac
  state : t.state = e.state
  pair_phase : t.pair_phase = e.pair_phase
  peer_mac : t.peer_mac = e.peer_mac
  store : t.store = e.store

namespace SameAttempt

variable {e t : PairingEngine}

theorem sendControl (h : SameAttempt e t) {dest : MacAddress} {type : MessageType}
    {corr_id : UInt32} {payload : Bytes} {ok : Bool} {u : PairingEngine}
    (hu : t.sendControl dest type corr_id payload = (ok, u)) : SameAttempt e u := by
  obtain ⟨_, _, _, _, hs, -, -⟩ := t.sendControl_cases dest type corr_id payload
  obtain ⟨-, rfl⟩ := Prod.mk.inj (hs.symm.trans hu)
  exact ⟨h.config, h.local_mac, h.state, h.pair_phase, h.peer_mac, h.store⟩

theorem attachPeer (h : SameAttempt e t) {mac : MacAddress} {encrypted : Bool}
    {lmk : Option LmkKey} {ok : Bool} {u : PairingEngine}
    (hu : t.attachPeer mac encrypted lmk = (ok, u)) : SameAttempt e u := by
  obtain ⟨-, rfl⟩ := Prod.mk.inj hu
  exact ⟨h.config, h.local_mac, h.state, h.pair_phase, h.peer_mac, h.store⟩

theorem drawSecrets (h : SameAttempt e t) : SameAttempt e t.drawSecrets := by
  unfold PairingEngine.drawSecrets
  generalize makePairSeed t.platform = seed
  exact ⟨h.config, h.local_mac, h.state, h.pair_phase, h.peer_mac, h.store⟩

/-- An attempt without an installed key has nothing to keep. -/
theorem inv (h : SameAttempt e t) (hs : e.StoreSound) (hp : e.state = .Pairing)
    (hphase : e.pair_phase = .MasterWaitInitAck ∨ e.pair_phase = .SlaveWaitConfirm) :
    LinkInv t where
  sound := by intro s; rw [h.store]; exact hs s
  attached := by
    simp only [KeyInstalled, h.state, h.pair_phase, hp]
    rcases hphase with hphase | hphase <;> simp [hphase]
  held := by simp [h.state, hp]

theorem failPairing_inv (h : SameAttempt e t) (hs : e.StoreSound) (peer : MacAddress)
    (corr_id : UInt32) (msg : String) : LinkInv (t.failPairing peer corr_id msg) :=
  .of_unpaired rfl (by intro s; rw [failPairing_store, h.store]; exact hs s)

end SameAttempt

/-- How an attempt with `peer` starts: it fails at once or goes on with that peer. -/
def Starts (peer : MacAddress) (t : PairingEngine) : Prop :=
  LinkInv t ∧ (t.state = .Unpaired ∨ (t.state = .Pairing ∧ t.peer_mac = peer))

theorem requestPair_starts (e : PairingEngine) (peer : MacAddress) (corr_id : UInt32)
    (he : LinkInv e) (hrole : e.config.local_role = .Master)
    (hidle : ¬ (e.state = .Pairing ∨ e.unpair_pending = true)) :
    Starts peer (e.requestPair peer corr_id).2 := by
  have hbegin : SameAttempt (e.beginMasterAttempt peer corr_id) (e.beginMasterAttempt peer corr_id) :=
    ⟨rfl, rfl, rfl, rfl, rfl, rfl⟩
  have hsound : (e.beginMasterAttempt peer corr_id).StoreSound := he.sound
  unfold requestPair
  rw [if_neg (by simp [hrole]), if_neg hidle]
  rcases ha : (e.beginMasterAttempt peer corr_id).attachPeer peer false none with ⟨ok, t⟩
  have ht := hbegin.attachPeer ha
  cases ok with
  | false => exact ⟨ht.failPairing_inv hsound _ _ _, .inl rfl⟩
  | true =>
    dsimp only
    have hdraw := ht.drawSecrets
    generalize t.drawSecrets = d at hdraw
    generalize hemit : d.emit .PairingStarted peer corr_id "pair_init_tx_unsecure" = u
    have hu : SameAttempt (e.beginMasterAttempt peer corr_id) u := by
      subst u
      exact ⟨hdraw.config, hdraw.local_mac, hdraw.state, hdraw.pair_phase, hdraw.peer_mac,
        hdraw.store⟩
    generalize pairInitPayload u.current_seed u.pairing_nonce 0 = payload
    rcases hs : u.sendControl peer .PairInit corr_id payload with ⟨ok, v⟩
    have hv := hu.sendControl hs
    cases ok with
    | false => exact ⟨hv.failPairing_inv hsound _ _ _, .inl rfl⟩
    | true => exact ⟨hv.inv hsound rfl (.inl rfl), .inr ⟨hv.state, hv.peer_mac⟩⟩

/-- Installing a key for the attempt's peer attaches it with that key, if it works. -/
theorem SameAttempt.installKey {e t : PairingEngine} (h : SameAttempt e t) {peer : MacAddress}
    {lmk : LmkKey} {ok : Bool} {u : PairingEngine} (hu : t.installKey peer lmk = (ok, u)) :
    SameAttempt e u ∧ u.current_lmk = lmk ∧
      (ok = true → u.platform.attached peer = some ⟨true, some lmk⟩) := by
  obtain ⟨rfl, rfl⟩ := Prod.mk.inj hu
  exact ⟨⟨h.config, h.local_mac, h.state, h.pair_phase, h.peer_mac, h.store⟩, rfl,
    Platform.addPeer_attached⟩

theorem prepareSlaveKey_starts {b t : PairingEngine} (ht : SameAttempt b t) (hs : b.StoreSound)
    (hpairing : b.state = .Pairing) (hphase : b.pair_phase = .SlaveWaitConfirm)
    (sender : MacAddress) (corr_id : UInt32) :
    Starts b.peer_mac (t.prepareSlaveKey sender corr_id).2 := by
  unfold prepareSlaveKey
  cases t.slaveKey sender with
  | none => exact ⟨ht.failPairing_inv hs _ _ _, .inl rfl⟩
  | some lmk =>
    dsimp only
    rcases hk : t.installKey sender lmk with ⟨ok, u⟩
    obtain ⟨hu, -, -⟩ := ht.installKey hk
    cases ok with
    | false => exact ⟨hu.failPairing_inv hs _ _ _, .inl rfl⟩
    | true =>
      have hemit : SameAttempt b (u.emit .PairingStep sender corr_id "secure_peer_install_done") :=
        ⟨hu.config, hu.local_mac, hu.state, hu.pair_phase, hu.peer_mac, hu.store⟩
      exact ⟨hemit.inv hs hpairing (.inr hphase), .inr ⟨hu.state.trans hpairing, hu.peer_mac⟩⟩

theorem onPairInit_starts (e : PairingEngine) (sender : MacAddress) (corr_id : UInt32)
    (seed : PairSeed) (nonce : UInt32) (he : LinkInv e) (hrole : e.config.local_role = .Slave)
    (hstate : e.state ≠ .Secured)
    (hown : ¬ (e.state = .Pairing ∧ (sender ≠ e.peer_mac ∨ corr_id ≠ e.corr_id))) :
    Starts sender (e.onPairInit sender corr_id seed nonce).2 := by
  unfold onPairInit
  rw [if_neg (by simp [hrole, hstate]), if_neg hown]
  dsimp only
  generalize hb : (e.beginSlaveAttempt sender corr_id seed nonce).emit .PairingStep sender corr_id
    "pair_init_rx_unsecure" = b
  have hsound : b.StoreSound := by subst b; exact he.sound
  have hpairing : b.state = .Pairing := by subst b; rfl
  have hphase : b.pair_phase = .SlaveWaitConfirm := by subst b; rfl
  have hpeer : b.peer_mac = sender := by subst b; rfl
  have hself : SameAttempt b b := ⟨rfl, rfl, rfl, rfl, rfl, rfl⟩
  rcases ha : b.attachPeer sender false none with ⟨ok, t⟩
  have ht := hself.attachPeer ha
  cases ok with
  | false => exact ⟨ht.failPairing_inv hsound _ _ _, .inl rfl⟩
  | true =>
    dsimp only
    rcases hs : t.sendControl sender .PairInitAck corr_id
      (pairInitAckPayload t.pairing_nonce) with ⟨ok, u⟩
    have hu := ht.sendControl hs
    cases ok with
    | false => exact ⟨hu.failPairing_inv hsound _ _ _, .inl rfl⟩
    | true =>
      have hemit : SameAttempt b (u.emit .PairingStep sender corr_id "pair_init_ack_tx_unsecure") :=
        ⟨hu.config, hu.local_mac, hu.state, hu.pair_phase, hu.peer_mac, hu.store⟩
      have hstarts := prepareSlaveKey_starts hemit hsound hpairing hphase sender corr_id
      rwa [hpeer] at hstarts

/-- A slave that turns a second attempt away keeps its own. -/
theorem rejectBusy_keeps (e : PairingEngine) (sender : MacAddress) (corr_id : UInt32)
    (hrole : e.config.local_role = .Slave) (hstate : e.state = .Pairing) :
    Keeps e (e.rejectBusy sender corr_id) := by
  have hself : SameAttempt e e := ⟨rfl, rfl, rfl, rfl, rfl, rfl⟩
  have hsent : SameAttempt e (((e.attachPeer sender false none).2.sendControl sender .PairBusy
      corr_id [1]).2) := (hself.attachPeer (Prod.eta _).symm).sendControl (Prod.eta _).symm
  have hsame : SameAttempt e (e.rejectBusy sender corr_id) :=
    ⟨hsent.config, hsent.local_mac, hsent.state, hsent.pair_phase, hsent.peer_mac, hsent.store⟩
  refine ⟨fun he => ⟨?_, ?_, ?_⟩, .inr ⟨hsame.peer_mac, by simp [hstate], fun _ => hstate⟩⟩
  · intro s; rw [hsame.store]; exact he.sound s
  · simp [KeyInstalled, hsame.state, hsame.config, hrole, hstate]
  · simp [hsame.state, hstate]

theorem onPairInitAck_keeps (e : PairingEngine) (sender : MacAddress) (corr_id nonce : UInt32)
    (hsender : e.expectsPairInitAck corr_id → sender = e.peer_mac) :
    Keeps e (e.onPairInitAck sender corr_id nonce).2 := by
  unfold onPairInitAck
  split
  · exact (SameLink.refl e).keeps
  rename_i hexp
  have hexp' := not_not.mp hexp
  have hpeer := hsender hexp'
  obtain ⟨-, hpairing, -, -⟩ := hexp'
  have hself : SameAttempt e e := ⟨rfl, rfl, rfl, rfl, rfl, rfl⟩
  split
  · exact failPairing_keeps e _ _ _ id
  cases e.masterKey sender with
  | none => exact failPairing_keeps e _ _ _ id
  | some lmk =>
    dsimp only
    rcases hk : e.installKey sender lmk with ⟨ok, u⟩
    obtain ⟨hu, hlmk, hatt⟩ := hself.installKey hk
    have hstore : e.StoreSound → u.StoreSound := by intro h s; rw [hu.store]; exact h s
    cases ok with
    | false => exact failPairing_keeps e _ _ _ hstore
    | true =>
      refine ⟨fun he => ⟨hstore he.sound, fun _ => ?_, fun hs => ?_⟩,
        .inr ⟨hu.peer_mac, by simp [hpairing], fun _ => hpairing⟩⟩
      · change u.platform.attached u.peer_mac = some ⟨true, some u.current_lmk⟩
        rw [hu.peer_mac, ← hpeer, hlmk]
        exact hatt rfl
      · exact absurd ((hu.state.trans hpairing).symm.trans hs) (by simp)

/-- The end of a handshake: a persisted secured link, when the peer holds the derived key. -/
theorem persistPair_keeps (e : PairingEngine) {t u : PairingEngine} {ok : Bool}
    (ht : t.persistPair = (ok, u)) (hs : e.StoreSound → t.StoreSound)
    (hpeer : t.peer_mac = e.peer_mac) (hpairing : e.state = .Pairing)
    (hatt : t.state = .Secured → LinkInv e →
      t.platform.attached t.peer_mac = some ⟨true, some t.current_lmk⟩)
    (hsec : t.state = .Secured) :
    (ok = true → Keeps e u) ∧ (e.StoreSound → u.StoreSound) := by
  obtain ⟨ok', store, hp, hsound, hheld⟩ := t.persistPair_cases
  obtain ⟨rfl, rfl⟩ := Prod.mk.inj (hp.symm.trans ht)
  refine ⟨fun hok => ⟨fun he => ?_, .inr ⟨hpeer, by simp [hpairing], fun _ => hpairing⟩⟩,
    fun h => hsound (hs h)⟩
  exact ⟨hsound (hs he.sound), fun _ => hatt hsec he, fun _ => hheld (hs he.sound) hok⟩

theorem onPairConfirm_keeps (e : PairingEngine) (sender : MacAddress) (corr_id nonce : UInt32)
    (hsender : e.expectsPairConfirm corr_id → sender = e.peer_mac) :
    Keeps e (e.onPairConfirm sender corr_id nonce).2 := by
  unfold onPairConfirm
  split
  · exact (SameLink.refl e).keeps
  rename_i hexp
  have hexp' := not_not.mp hexp
  have hpeer := hsender hexp'
  obtain ⟨-, hpairing, -, -⟩ := hexp'
  have hself : SameAttempt e e := ⟨rfl, rfl, rfl, rfl, rfl, rfl⟩
  split
  · exact failPairing_keeps e _ _ _ id
  cases e.slaveKey sender with
  | none => exact failPairing_keeps e _ _ _ id
  | some lmk =>
    dsimp only
    rcases hk : e.installKey sender lmk with ⟨ok, u⟩
    obtain ⟨hu, hlmk, hatt⟩ := hself.installKey hk
    have hstore : e.StoreSound → u.StoreSound := by intro h s; rw [hu.store]; exact h s
    cases ok with
    | false => exact failPairing_keeps e _ _ _ hstore
    | true =>
      dsimp only
      rcases hp : u.enterSecured.persistPair with ⟨ok, v⟩
      obtain ⟨hkeep, hsound⟩ := persistPair_keeps e hp hstore hu.peer_mac hpairing
        (fun _ _ => by
          change u.platform.attached u.peer_mac = some ⟨true, some u.current_lmk⟩
          rw [hu.peer_mac, ← hpeer, hlmk]
          exact hatt rfl) rfl
      cases ok with
      | false => exact failPairing_keeps e _ _ _ hsound
      | true =>
        exact (hkeep rfl).trans (((SameLink.refl v).emit _ _ _ _).sendControl _ _ _ _).keeps

theorem onPairConfirmAck_keeps (e : PairingEngine) (sender : MacAddress) (corr_id : UInt32)
    (flag : Bool) : Keeps e (e.onPairConfirmAck sender corr_id flag).2 := by
  unfold onPairConfirmAck
  split
  · exact (SameLink.refl e).keeps
  rename_i hexp
  obtain ⟨hrole, hpairing, hphase, -⟩ := not_not.mp hexp
  split
  · exact failPairing_keeps e _ _ _ id
  rcases hp : e.enterSecured.clearNonce.persistPair with ⟨ok, u⟩
  obtain ⟨hkeep, hsound⟩ := persistPair_keeps e hp id rfl hpairing
    (fun _ he => he.attached (.inr ⟨hpairing, hrole, .inr hphase⟩)) rfl
  cases ok with
  | false => exact failPairing_keeps e _ _ _ hsound
  | true => exact (hkeep rfl).trans ((SameLink.refl u).emit _ _ _ _).keeps

theorem onPairBusy_keeps (e : PairingEngine) (sender : MacAddress) (corr_id : UInt32) :
    Keeps e (e.onPairBusy sender corr_id).2 := by
  unfold onPairBusy
  split
  · exact (SameLink.refl e).keeps
  · exact .of_unpaired rfl id

/-! Requests of the owner and the messages of a secured link. -/

theorem requestUnpair_keeps (e : PairingEngine) (peer : MacAddress) (corr_id : UInt32)
    (hpeer : e.config.local_role = .Master → e.state = .Secured → e.unpair_pending = false →
      peer = e.peer_mac) : Keeps e (e.requestUnpair peer corr_id).2 := by
  unfold requestUnpair
  split
  · exact (SameLink.refl e).keeps
  rename_i hguard
  simp only [ne_eq, not_or, not_not, Bool.not_eq_true] at hguard
  have hbegin : SameLink e (e.beginUnpair peer corr_id) :=
    ⟨rfl, rfl, rfl, rfl, hpeer hguard.1 hguard.2.1 hguard.2.2, rfl, rfl, id, id⟩
  have hsent := hbegin.sendControl peer .UnpairRequest corr_id []
  rcases hs : (e.beginUnpair peer corr_id).sendControl peer .UnpairRequest corr_id [] with ⟨ok, t⟩
  rw [hs] at hsent
  cases ok with
  | false => exact SameLink.keeps (hsent.trans (u := t.cancelUnpair)
      ⟨rfl, rfl, rfl, rfl, rfl, rfl, rfl, id, id⟩)
  | true => exact hsent.keeps

theorem onUnpairRequest_keeps (e : PairingEngine) (sender : MacAddress) (corr_id : UInt32) :
    Keeps e (e.onUnpairRequest sender corr_id).2 := by
  unfold onUnpairRequest
  split
  · exact (SameLink.refl e).keeps
  have hsent := (SameLink.refl e).sendControl sender .UnpairAck corr_id []
  rcases hs : e.sendControl sender .UnpairAck corr_id [] with ⟨ok, t⟩
  rw [hs] at hsent
  cases ok with
  | false => exact hsent.keeps
  | true => exact SameLink.keeps (hsent.trans (u := t.scheduleCleanup sender corr_id)
      ⟨rfl, rfl, rfl, rfl, rfl, rfl, rfl, id, id⟩)

theorem onUnpairAck_keeps (e : PairingEngine) (sender : MacAddress) (corr_id : UInt32) :
    Keeps e (e.onUnpairAck sender corr_id).2 := by
  unfold onUnpairAck
  split
  · exact (SameLink.refl e).keeps
  · exact .of_unpaired rfl (forgetPeer_sound e sender)

theorem dropPeer_fields (e : PairingEngine) (peer : MacAddress) (erase : Bool) :
    (e.dropPeer peer erase).config = e.config ∧ (e.dropPeer peer erase).state = e.state ∧
      (e.dropPeer peer erase).pair_phase = e.pair_phase ∧
      (e.dropPeer peer erase).peer_mac = e.peer_mac ∧
      (e.dropPeer peer erase).current_lmk = e.current_lmk ∧
      (e.dropPeer peer erase).platform = (e.platform.removePeer peer).2 := by
  unfold dropPeer
  split <;> exact ⟨rfl, rfl, rfl, rfl, rfl, rfl⟩

theorem dropPeer_sound (e : PairingEngine) (peer : MacAddress) (erase : Bool)
    (h : e.StoreSound) : (e.dropPeer peer erase).StoreSound := by
  unfold dropPeer
  split
  · exact forgetPeer_sound _ peer h
  · exact h

theorem dropPeer_sameLink (e : PairingEngine) {peer : MacAddress} (erase : Bool)
    (hpeer : peer ≠ e.peer_mac) (hkey : erase = true → ∀ s, e.store = some s →
      s.makeKey .Pair e.local_mac e.peer_mac ≠ s.makeKey .Pair e.local_mac peer) :
    SameLink e (e.dropPeer peer erase) := by
  have hevict := (SameLink.refl e).evictPeer hpeer
  unfold dropPeer
  split
  · rename_i he
    exact hevict.trans (forgetPeer_sameLink _ (hkey he))
  · exact hevict

/-- Removing a peer ends its own link, and leaves the link to another peer alone unless both
records share a key. -/
theorem removePeer_keeps (e : PairingEngine) (peer : MacAddress) (erase : Bool)
    (hpairing : e.state = .Pairing → e.KeyInstalled → peer ≠ e.peer_mac)
    (hkey : erase = true → e.state = .Secured → peer ≠ e.peer_mac → ∀ s, e.store = some s →
      s.makeKey .Pair e.local_mac e.peer_mac ≠ s.makeKey .Pair e.local_mac peer) :
    Keeps e (e.removePeer peer erase).2 := by
  obtain ⟨hconfig, hstate, hphase, hpeer, hlmk, hplat⟩ := e.dropPeer_fields peer erase
  unfold removePeer
  dsimp only
  split
  · exact .of_unpaired rfl (dropPeer_sound e peer erase)
  · rename_i hother
    refine Keeps.trans ?_ ((SameLink.refl _).emit _ _ _ _).keeps
    cases hs : e.state with
    | Unpaired => exact .of_unpaired (hstate.trans hs) (dropPeer_sound e peer erase)
    | Secured =>
      have hne : peer ≠ e.peer_mac := by simpa [hstate, hs, hpeer] using hother
      exact (dropPeer_sameLink e erase hne fun he => hkey he hs hne).keeps
    | Pairing =>
      refine ⟨fun he => ⟨dropPeer_sound e peer erase he.sound, fun hk => ?_, ?_⟩,
        .inr ⟨hpeer, by simp [hs], fun _ => hs⟩⟩
      · have hk' : e.KeyInstalled := by simpa only [KeyInstalled, hstate, hconfig, hphase] using hk
        rw [hplat, hpeer, hlmk, Platform.removePeer_attached_of_ne _ (hpairing hs hk').symm]
        exact he.attached hk'
      · simp [hstate, hs]

theorem askChannelSwitch_sameLink (e : PairingEngine) : SameLink e e.askChannelSwitch.2 := by
  unfold askChannelSwitch
  split <;> exact ⟨rfl, rfl, rfl, rfl, rfl, rfl, rfl, id, id⟩

theorem requestChannelSwitch_keeps (e : PairingEngine) (peer : MacAddress) (channel : UInt8)
    (now_ms corr_id : UInt32) (hpeer : e.config.local_role = .Master → e.state = .Secured →
      peer = e.peer_mac) : Keeps e (e.requestChannelSwitch peer channel now_ms corr_id).2 := by
  unfold requestChannelSwitch
  split
  · exact (SameLink.refl e).keeps
  rename_i hguard
  simp only [ne_eq, not_or, not_not] at hguard
  have hp := hpeer hguard.1 hguard.2.1
  split
  · exact (SameLink.refl e).keeps
  have hask := askChannelSwitch_sameLink e
  rcases ha : e.askChannelSwitch with ⟨allowed, t⟩
  rw [ha] at hask
  cases allowed with
  | false => exact (hask.emit _ _ _ _).keeps
  | true =>
    dsimp only
    generalize channelPreparePayload ⟨channel, now_ms + t.config.channel_switch_grace_ms⟩ = payload
    have hsent := hask.sendControl peer .ChannelSwitchPrepare corr_id payload
    rcases hs : t.sendControl peer .ChannelSwitchPrepare corr_id payload with ⟨ok, u⟩
    rw [hs] at hsent
    cases ok with
    | false => exact hsent.keeps
    | true =>
      refine (SameLink.emit ?_ _ _ _ _).keeps
      exact hsent.trans ⟨rfl, rfl, rfl, rfl, hp.trans hsent.peer_mac.symm, rfl, rfl, id, id⟩

theorem onChannelSwitchPrepare_keeps (e : PairingEngine) (sender : MacAddress) (corr_id : UInt32)
    (payload : ChannelSwitchPayload) (hpeer : e.config.local_role = .Slave → e.state = .Secured →
      sender = e.peer_mac) : Keeps e (e.onChannelSwitchPrepare sender corr_id payload).2 := by
  unfold onChannelSwitchPrepare
  split
  · exact (SameLink.refl e).keeps
  rename_i hguard
  simp only [ne_eq, not_or, not_not] at hguard
  have hp := hpeer hguard.1 hguard.2
  split
  · exact ((SameLink.refl e).emit _ _ _ _).keeps
  have hask := askChannelSwitch_sameLink e
  rcases ha : e.askChannelSwitch with ⟨allowed, t⟩
  rw [ha] at hask
  cases allowed with
  | false => exact (hask.emit _ _ _ _).keeps
  | true =>
    refine ((SameLink.emit ?_ _ _ _ _).sendControl _ _ _ _).keeps
    exact hask.trans ⟨rfl, rfl, rfl, rfl, hp.trans hask.peer_mac.symm, rfl, rfl, id, id⟩

theorem onChannelSwitchAck_keeps (e : PairingEngine) (sender : MacAddress) (corr_id : UInt32) :
    Keeps e (e.onChannelSwitchAck sender corr_id).2 := by
  unfold onChannelSwitchAck
  split
  · exact (SameLink.refl e).keeps
  · exact SameLink.keeps ⟨rfl, rfl, rfl, rfl, rfl, rfl, rfl, id, id⟩

theorem onChannelSwitchCommitAck_keeps (e : PairingEngine) (sender : MacAddress)
    (corr_id : UInt32) : Keeps e (e.onChannelSwitchCommitAck sender corr_id).2 := by
  unfold onChannelSwitchCommitAck
  split
  · exact (SameLink.refl e).keeps
  · exact SameLink.keeps ((saveChannel_sameLink e sender e.pending_channel).trans
      ⟨rfl, rfl, rfl, rfl, rfl, rfl, rfl, id, id⟩)

/-- A record the store holds, as `restorePairedLink` is to be given. -/
def HoldsRecord (e : PairingEngine) (record : PairRecord) : Prop :=
  ∃ s, e.store = some s ∧ s.enabled = true ∧
    (s.backend.blobs (s.makeKey .Pair e.local_mac record.peer_mac)).bind pairOfBlob = some record

theorem restorePairedLink_cases (e : PairingEngine) (record : PairRecord)
    (hheld : e.HoldsRecord record) (hpeer : e.KeyInstalled → record.peer_mac ≠ e.peer_mac) :
    ((e.restorePairedLink record).1 = false ∧ Keeps e (e.restorePairedLink record).2) ∨
      ((e.restorePairedLink record).1 = true ∧ (LinkInv e → LinkInv (e.restorePairedLink record).2) ∧
        (e.restorePairedLink record).2.state = .Secured ∧
        (e.restorePairedLink record).2.peer_mac = record.peer_mac) := by
  unfold restorePairedLink
  split
  · exact .inl ⟨rfl, (SameLink.refl e).keeps⟩
  rename_i hvalid
  simp only [ne_eq, Bool.or_eq_true, Bool.not_eq_true', decide_eq_true_eq, not_or,
    Bool.not_eq_false, not_not] at hvalid
  obtain ⟨⟨hv, -⟩, hlocal⟩ := hvalid
  rcases hset : e.platform.setChannel record.channel with ⟨ok, p⟩
  have hatt : p.attached = e.platform.attached := by
    have h := Platform.setChannel_attached e.platform record.channel
    rwa [hset] at h
  have hplat : SameLink e (e.withPlatform p) :=
    ⟨rfl, rfl, rfl, rfl, rfl, rfl, congrFun hatt _, id, id⟩
  cases ok with
  | false => exact .inl ⟨rfl, hplat.keeps⟩
  | true =>
    dsimp only
    obtain ⟨ok, q, ha, -, hother, hadded⟩ := (e.withPlatform p).attachPeer_cases record.peer_mac
      true (some record.lmk)
    rw [ha]
    cases ok with
    | false =>
      refine .inl ⟨rfl, fun he => ⟨he.sound, fun hk => ?_, he.held⟩, ?_⟩
      · exact (hother _ (hpeer hk).symm).trans ((congrFun hatt _).trans (he.attached hk))
      · by_cases hs : e.state = .Unpaired
        · exact .inl hs
        · exact .inr ⟨rfl, hs, id⟩
    | true =>
      refine .inr ⟨rfl, fun he => ⟨he.sound, fun _ => hadded rfl, fun _ => ?_⟩, rfl, rfl⟩
      obtain ⟨s, hs, hen, hr⟩ := hheld
      exact ⟨s, hs, hen, record, hr, hv, hlocal, rfl, rfl⟩

end PairingEngine

end EspNowLink
