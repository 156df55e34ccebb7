import EspNowLink.Pairing.ControlFrames
import EspNowLink.Pairing.LinkInvariant

namespace EspNowLink

/-- The messages of the handshake proper. -/
def MessageType.isHandshake : MessageType → Bool
  | .PairInit | .PairInitAck | .PairConfirm | .PairConfirmAck => true
  | _ => false

namespace PairingEngine

variable {e t u : PairingEngine}

/-- Between two states of an engine it sent only frames that satisfy `P`. -/
def Emits (e t : PairingEngine) (P : SentFrame → Prop) : Prop :=
  ∃ new, t.platform.sent = e.platform.sent ++ new ∧ ∀ f ∈ new, P f

namespace Emits

variable {P Q : SentFrame → Prop}

theorem nil (h : t.platform.sent = e.platform.sent) : e.Emits t P := ⟨[], by simp [h], by simp⟩

theorem mono (h : e.Emits t P) (hPQ : ∀ f, P f → Q f) : e.Emits t Q := by
  obtain ⟨new, hsent, hnew⟩ := h
  exact ⟨new, hsent, fun f hf => hPQ f (hnew f hf)⟩

theorem trans (h : e.Emits t P) (h' : t.Emits u P) : e.Emits u P := by
  obtain ⟨new, hsent, hnew⟩ := h
  obtain ⟨new', hsent', hnew'⟩ := h'
  refine ⟨new ++ new', by rw [hsent', hsent, List.append_assoc], ?_⟩
  intro f hf
  rcases List.mem_append.mp hf with hf | hf
  · exact hnew f hf
  · exact hnew' f hf

end Emits

/-- A frame carries a control message: its type, its id and, behind a time prefix, its payload. -/
def Carries (f : SentFrame) (dest : MacAddress) (type : MessageType) (corr_id : UInt32)
    (payload : Bytes) : Prop :=
  f.dest = dest ∧ f.header.type = type ∧ f.header.correlation_id = corr_id ∧
    f.effectivePayload = some payload

/-- `onRx` takes off the prefix that `wrapTimeSync` put on. -/
theorem wrapTimeSync_payload (e : PairingEngine) (payload : Bytes) (frame : SentFrame)
    (hflags : frame.header.flags = (e.wrapTimeSync payload).2.1)
    (hwire : frame.payload = (e.wrapTimeSync payload).1) :
    frame.effectivePayload = some payload ∧
      (e.wrapTimeSync payload).2.2.platform.sent = e.platform.sent := by
  unfold wrapTimeSync at *
  split at hflags
  · rename_i hattach
    rw [if_pos hattach] at hwire ⊢
    rcases hnow : e.platform.nowEpochSec with ⟨epoch, p⟩
    obtain rfl : p = e.platform.next := (congrArg Prod.snd hnow).symm
    rw [hnow] at hflags hwire
    cases epoch with
    | some epoch =>
      dsimp only at hflags hwire ⊢
      refine ⟨?_, rfl⟩
      have hlen : (le32 epoch.toUInt32 ++ payload).drop kTimeSyncMetadataSize = payload := by
        simp [kTimeSyncMetadataSize, le32]
      rw [SentFrame.effectivePayload, hflags, hwire, if_neg (by decide), if_neg, hlen]
      simp [kTimeSyncMetadataSize]
    | none =>
      dsimp only at hflags hwire ⊢
      exact ⟨by rw [SentFrame.effectivePayload, hflags, hwire, if_pos (by decide)], rfl⟩
  · rename_i hplain
    rw [if_neg hplain] at hwire ⊢
    have hclear : (0 : UInt8) &&& kFrameFlagTimeSyncEpoch = 0 := by decide
    exact ⟨by rw [SentFrame.effectivePayload, hflags, hwire, if_pos hclear], rfl⟩

/-- A control message is on the air exactly if `sendControl` reports success. -/
theorem sendControl_sent (e : PairingEngine) (dest : MacAddress) (type : MessageType)
    (corr_id : UInt32) (payload : Bytes) :
    ((e.sendControl dest type corr_id payload).1 = false ∧
      (e.sendControl dest type corr_id payload).2.platform.sent = e.platform.sent) ∨
    ((e.sendControl dest type corr_id payload).1 = true ∧
      ∃ f, (e.sendControl dest type corr_id payload).2.platform.sent = e.platform.sent ++ [f] ∧
        Carries f dest type corr_id payload) := by
  unfold sendControl
  rcases hw : e.wrapTimeSync payload with ⟨wire, flags, t⟩
  have hsent : t.platform.sent = e.platform.sent := by
    have h := (e.wrapTimeSync_payload payload ⟨dest, ⟨type, (e.wrapTimeSync payload).2.1, corr_id,
      e.config.local_role⟩, (e.wrapTimeSync payload).1⟩ rfl rfl).2
    rwa [hw] at h
  dsimp only
  split
  · exact .inl ⟨rfl, hsent⟩
  · have hpayload := (e.wrapTimeSync_payload payload ⟨dest, ⟨type, flags, corr_id,
      t.config.local_role⟩, wire⟩ (by rw [hw]) (by rw [hw])).1
    unfold Platform.send
    split
    · exact .inr ⟨rfl, _, congrArg (· ++ _) hsent, rfl, rfl, rfl, hpayload⟩
    · exact .inl ⟨rfl, hsent⟩

/-- What a step outside the handshake leaves alone besides the link. -/
structure Aside (e t : PairingEngine) : Prop where
  crypto : t.crypto = e.crypto
  corr_id : t.corr_id = e.corr_id
  current_seed : t.current_seed = e.current_seed
  pairing_nonce : t.pairing_nonce = e.pairing_nonce
  emits : e.Emits t fun f => f.header.type.isHandshake = false

namespace Aside

protected theorem refl (e : PairingEngine) : Aside e e := ⟨rfl, rfl, rfl, rfl, .nil rfl⟩

protected theorem trans (h : Aside e t) (h' : Aside t u) : Aside e u where
  crypto := h'.crypto.trans h.crypto
  corr_id := h'.corr_id.trans h.corr_id
  current_seed := h'.current_seed.trans h.current_seed
  pairing_nonce := h'.pairing_nonce.trans h.pairing_nonce
  emits := h.emits.trans h'.emits

theorem sendControl (h : Aside e t) (dest : MacAddress) (type : MessageType)
    (htype : type.isHandshake = false) (corr_id : UInt32) (payload : Bytes) :
    Aside e (t.sendControl dest type corr_id payload).2 := by
  obtain ⟨ok, p, m, a, hs, -, -⟩ := t.sendControl_cases dest type corr_id payload
  have hemits : t.Emits (t.sendControl dest type corr_id payload).2
      fun f => f.header.type.isHandshake = false := by
    rcases t.sendControl_sent dest type corr_id payload with ⟨-, hnone⟩ | ⟨-, f, hone, -, hf, -⟩
    · exact .nil hnone
    · refine ⟨[f], hone, fun g hg => ?_⟩
      obtain rfl := List.mem_singleton.mp hg
      exact (congrArg _ hf).trans htype
  rw [hs] at hemits ⊢
  exact h.trans ⟨rfl, rfl, rfl, rfl, hemits⟩

theorem emit (h : Aside e t) (type : EventType) (peer : MacAddress) (corr_id : UInt32)
    (msg : String) : Aside e (t.emit type peer corr_id msg) :=
  h.trans ⟨rfl, rfl, rfl, rfl, .nil rfl⟩

theorem attachPeer (h : Aside e t) (mac : MacAddress) (encrypted : Bool) (lmk : Option LmkKey) :
    Aside e (t.attachPeer mac encrypted lmk).2 :=
  h.trans ⟨rfl, rfl, rfl, rfl, .nil (Platform.addPeer_sent _ _ _ _)⟩

theorem evictPeer (h : Aside e t) (mac : MacAddress) : Aside e (t.evictPeer mac).2 :=
  h.trans ⟨rfl, rfl, rfl, rfl, .nil (Platform.removePeer_sent _ _)⟩

theorem withStore (h : Aside e t) (f : PairingStore → PairingStore) : Aside e (t.withStore f) :=
  h.trans ⟨rfl, rfl, rfl, rfl, .nil rfl⟩

end Aside

theorem tickDiscovery_aside (e : PairingEngine) (now_ms : UInt32) :
    Aside e (e.tickDiscovery now_ms) := by
  unfold tickDiscovery
  split
  · refine Aside.sendControl ?_ _ _ rfl _ _
    exact ⟨rfl, rfl, rfl, rfl, .nil rfl⟩
  · exact .refl e

theorem spendTotal_aside (e : PairingEngine) (elapsed : UInt32) : Aside e (e.spendTotal elapsed) := by
  unfold spendTotal
  split
  · exact ⟨rfl, rfl, rfl, rfl, .nil rfl⟩
  · exact .refl e

theorem setChannel_aside {e : PairingEngine} {channel : UInt8} {ok : Bool} {p : Platform}
    (h : e.platform.setChannel channel = (ok, p)) : Aside e { e with platform := p } := by
  have hp := Platform.setChannel_sent e.platform channel
  rw [h] at hp
  exact ⟨rfl, rfl, rfl, rfl, .nil hp⟩

theorem applySlaveChannel_aside (e : PairingEngine) : Aside e e.applySlaveChannel.2 := by
  have hidle {t : PairingEngine} (h : Aside e t) : Aside e { t with channel_state := .Idle } :=
    h.trans ⟨rfl, rfl, rfl, rfl, .nil rfl⟩
  unfold applySlaveChannel
  rcases hset : e.platform.setChannel e.pending_channel with ⟨ok, p⟩
  have hplat := setChannel_aside hset
  cases ok with
  | false => exact hidle (hplat.emit _ _ _ _)
  | true =>
    have hsent := (hplat.withStore fun s => (s.saveChannel e.local_mac e.peer_mac
      e.pending_channel).2).sendControl e.peer_mac .ChannelSwitchCommitAck rfl
        e.channel_corr_id []
    dsimp only
    split
    · exact (hidle hsent).emit _ _ _ _
    · exact hidle hsent

theorem tickChannel_aside (e : PairingEngine) (now_ms : UInt32) :
    Aside e (e.tickChannel now_ms).2 := by
  have hidle {t : PairingEngine} (h : Aside e t) : Aside e { t with channel_state := .Idle } :=
    h.trans ⟨rfl, rfl, rfl, rfl, .nil rfl⟩
  unfold tickChannel
  split
  · exact hidle ((Aside.refl e).emit _ _ _ _)
  split
  · exact applySlaveChannel_aside e
  split
  · rcases hset : e.platform.setChannel e.pending_channel with ⟨ok, p⟩
    have hplat := setChannel_aside hset
    cases ok with
    | false => exact hidle (hplat.emit _ _ _ _)
    | true => exact hplat
  · exact .refl e

theorem tickUnpair_aside (e : PairingEngine) (now_ms : UInt32) : Aside e (e.tickUnpair now_ms) := by
  unfold tickUnpair
  split
  · split
    · exact ⟨rfl, rfl, rfl, rfl, .nil rfl⟩
    · dsimp only
      split <;> exact ⟨rfl, rfl, rfl, rfl, .nil rfl⟩
  · exact .refl e

theorem askChannelSwitch_aside (e : PairingEngine) : Aside e e.askChannelSwitch.2 := by
  unfold askChannelSwitch
  split <;> exact ⟨rfl, rfl, rfl, rfl, .nil rfl⟩

/-- The store names the engine's peer with the current key. -/
def Persisted (e : PairingEngine) : Prop :=
  ∃ s, e.store = some s ∧ HoldsPair s e.local_mac e.peer_mac e.current_lmk

/-- The frame is the confirm that the engine owes when its guard delay is over. -/
def Confirms (e : PairingEngine) (f : SentFrame) : Prop :=
  f.header.type = .PairConfirm ∧ f.header.correlation_id = e.corr_id ∧ e.state = .Pairing ∧
    e.pair_phase = .MasterSecureGuard

/-- What an engine is made with. -/
structure SameNode (e t : PairingEngine) : Prop where
  config : t.config = e.config
  crypto : t.crypto = e.crypto
  local_mac : t.local_mac = e.local_mac

/-- A step that begins, completes and ends no attempt; it may send the confirm. -/
structure Holds (e t : PairingEngine) : Prop extends SameNode e t where
  state : t.state = e.state
  peer_mac : t.peer_mac = e.peer_mac
  corr_id : t.corr_id = e.corr_id
  current_seed : t.current_seed = e.current_seed
  pairing_nonce : t.pairing_nonce = e.pairing_nonce
  current_lmk : t.current_lmk = e.current_lmk
  pair_phase : t.pair_phase = e.pair_phase ∨
    (e.pair_phase = .MasterSecureGuard ∧ t.pair_phase = .MasterWaitConfirmAck)
  sound : e.StoreSound → t.StoreSound
  held : e.state = .Secured → e.Persisted → t.Persisted
  emits : e.Emits t fun f => f.header.type.isHandshake = true → e.Confirms f

/-- A step that leaves the engine without a link. -/
structure Ends (e t : PairingEngine) (P : SentFrame → Prop) : Prop extends SameNode e t where
  state : t.state = .Unpaired
  sound : e.StoreSound → t.StoreSound
  emits : e.Emits t P

namespace Holds

theorem of_sameLink (h : SameLink e t) (ha : Aside e t) : Holds e t where
  config := h.config
  crypto := ha.crypto
  local_mac := h.local_mac
  state := h.state
  peer_mac := h.peer_mac
  corr_id := ha.corr_id
  current_seed := ha.current_seed
  pairing_nonce := ha.pairing_nonce
  current_lmk := h.current_lmk
  pair_phase := .inl h.pair_phase
  sound := h.sound
  held := by
    intro _ hp
    unfold Persisted
    rw [h.local_mac, h.peer_mac, h.current_lmk]
    exact h.held hp
  emits := ha.emits.mono fun f hf hs => absurd (hf.symm.trans hs) (by simp)

protected theorem refl (e : PairingEngine) : Holds e e := .of_sameLink (.refl e) (.refl e)

/-- A confirm owed later was owed before. -/
theorem confirms (h : Holds e t) {f : SentFrame} (hf : t.Confirms f) : e.Confirms f := by
  obtain ⟨htype, hcorr, hstate, hphase⟩ := hf
  refine ⟨htype, hcorr.trans h.corr_id, h.state.symm.trans hstate, ?_⟩
  rcases h.pair_phase with hp | ⟨hp, -⟩
  · exact hp.symm.trans hphase
  · exact hp

protected theorem trans (h : Holds e t) (h' : Holds t u) : Holds e u where
  config := h'.config.trans h.config
  crypto := h'.crypto.trans h.crypto
  local_mac := h'.local_mac.trans h.local_mac
  state := h'.state.trans h.state
  peer_mac := h'.peer_mac.trans h.peer_mac
  corr_id := h'.corr_id.trans h.corr_id
  current_seed := h'.current_seed.trans h.current_seed
  pairing_nonce := h'.pairing_nonce.trans h.pairing_nonce
  current_lmk := h'.current_lmk.trans h.current_lmk
  pair_phase := by
    rcases h.pair_phase with hp | ⟨hp, hw⟩ <;> rcases h'.pair_phase with hp' | ⟨hp', hw'⟩
    · exact .inl (hp'.trans hp)
    · exact .inr ⟨hp.symm.trans hp', hw'⟩
    · exact .inr ⟨hp, hp'.trans hw⟩
    · exact .inr ⟨hp, hw'⟩
  sound := h'.sound ∘ h.sound
  held := fun hs hp => h'.held (h.state.trans hs) (h.held hs hp)
  emits := h.emits.trans (h'.emits.mono fun _ hf hs => h.confirms (hf hs))

theorem ends (h : Holds e t) {P : SentFrame → Prop} (h' : Ends t u P)
    (hP : ∀ f, P f → f.header.type.isHandshake = true → t.Confirms f) :
    Ends e u fun f => f.header.type.isHandshake = true → e.Confirms f where
  config := h'.config.trans h.config
  crypto := h'.crypto.trans h.crypto
  local_mac := h'.local_mac.trans h.local_mac
  state := h'.state
  sound := h'.sound ∘ h.sound
  emits := h.emits.trans (h'.emits.mono fun f hf hs => h.confirms (hP f hf hs))

end Holds

/-- The frames a step that completes no handshake may send: no message of the handshake but the
confirm. -/
def Quiet (e : PairingEngine) (f : SentFrame) : Prop :=
  f.header.type.isHandshake = true → e.Confirms f

/-- A step that begins and completes no attempt. -/
def Wanes (e t : PairingEngine) : Prop := Holds e t ∨ Ends e t e.Quiet

theorem Holds.wanes (h : Holds e t) (h' : Wanes t u) : Wanes e u :=
  h'.imp h.trans fun hu => h.ends hu fun _ => id

theorem failPairing_aside_sent (e : PairingEngine) (peer : MacAddress) (corr_id : UInt32)
    (msg : String) : (e.failPairing peer corr_id msg).platform.sent = e.platform.sent := by
  unfold failPairing
  dsimp only
  split
  · rfl
  · exact Platform.removePeer_sent _ _

theorem failPairing_ends (e : PairingEngine) (peer : MacAddress) (corr_id : UInt32) (msg : String)
    {P : SentFrame → Prop} : Ends e (e.failPairing peer corr_id msg) P where
  config := by unfold failPairing; dsimp only; split <;> rfl
  crypto := by unfold failPairing; dsimp only; split <;> rfl
  local_mac := by unfold failPairing; dsimp only; split <;> rfl
  state := rfl
  sound := by intro h s; rw [failPairing_store]; exact h s
  emits := .nil (failPairing_aside_sent _ _ _ _)

theorem pairDeadline_wanes (e : PairingEngine) (hstate : e.state = .Pairing) :
    Wanes e e.pairDeadline.2 := by
  unfold pairDeadline
  split
  · rename_i hphase
    have hsent := e.sendControl_sent e.peer_mac .PairConfirm e.corr_id
      (pairConfirmPayload e.pairing_nonce)
    obtain ⟨ok, p, m, a, h, -, -⟩ := e.sendControl_cases e.peer_mac .PairConfirm e.corr_id
      (pairConfirmPayload e.pairing_nonce)
    rw [h] at hsent ⊢
    rcases hsent with ⟨rfl, hnone⟩ | ⟨rfl, f, hone, -, htype, hcorr, -⟩
    · have hsent : Holds e { e with platform := p, has_time_sync_tx := m,
                                    last_time_sync_tx_ms := a } :=
        ⟨⟨rfl, rfl, rfl⟩, rfl, rfl, rfl, rfl, rfl, rfl, .inl rfl, id, fun _ hp => hp, .nil hnone⟩
      exact hsent.wanes (.inr (failPairing_ends _ _ _ _))
    · refine .inl ⟨⟨rfl, rfl, rfl⟩, rfl, rfl, rfl, rfl, rfl, rfl, .inr ⟨hphase, rfl⟩, id,
        fun _ hp => hp, [f], hone, fun g hg _ => ?_⟩
      obtain rfl := List.mem_singleton.mp hg
      exact ⟨htype, hcorr, hstate, hphase⟩
  · exact .inr (failPairing_ends _ _ _ _)

theorem tickPairing_wanes (e : PairingEngine) (now_ms : UInt32) :
    Wanes e (e.tickPairing now_ms).2 := by
  have hmark (a : UInt32) : Holds e { e with pair_last_tick_ms := a } :=
    .of_sameLink ⟨rfl, rfl, rfl, rfl, rfl, rfl, rfl, id, id⟩ ⟨rfl, rfl, rfl, rfl, .nil rfl⟩
  unfold tickPairing
  split
  · exact .inl (.refl e)
  rename_i hstate
  split
  · exact .inl (hmark now_ms)
  have hpairing : e.state = .Pairing := by simpa using hstate
  by_cases hfail : e.pair_total_deadline_ms ≠ 0 ∧
      now_ms - e.pair_last_tick_ms ≥ e.pair_total_deadline_ms
  · rw [if_pos hfail]
    exact (hmark now_ms).wanes (.inr (failPairing_ends _ _ _ _))
  · rw [if_neg hfail]
    have hspend := (hmark now_ms).trans (.of_sameLink
      (spendTotal_sameLink _ (now_ms - e.pair_last_tick_ms))
      (spendTotal_aside _ (now_ms - e.pair_last_tick_ms)))
    refine hspend.wanes ?_
    unfold spendPhase
    split
    · exact .inl (.refl _)
    split
    · exact pairDeadline_wanes _ (hspend.state.trans hpairing)
    · exact .inl (.of_sameLink ⟨rfl, rfl, rfl, rfl, rfl, rfl, rfl, id, id⟩
        ⟨rfl, rfl, rfl, rfl, .nil rfl⟩)

theorem deferredCleanup_ends (e : PairingEngine) {P : SentFrame → Prop} :
    Ends e e.deferredCleanup P where
  config := rfl
  crypto := rfl
  local_mac := rfl
  state := rfl
  sound := forgetPeer_sound e e.deferred_unpair_peer
  emits := .nil (Platform.removePeer_sent _ _)

theorem tickDeferredCleanup_wanes (e : PairingEngine) (now_ms : UInt32) :
    Wanes e (e.tickDeferredCleanup now_ms) := by
  have hmark (a b : UInt32) : Holds e { e with
      deferred_unpair_last_tick_ms := a, deferred_unpair_deadline_ms := b } :=
    .of_sameLink ⟨rfl, rfl, rfl, rfl, rfl, rfl, rfl, id, id⟩ ⟨rfl, rfl, rfl, rfl, .nil rfl⟩
  unfold tickDeferredCleanup
  split
  · split
    · exact .inl (hmark _ _)
    · dsimp only
      split
      · exact (hmark now_ms e.deferred_unpair_deadline_ms).wanes (.inr (deferredCleanup_ends _))
      · exact .inl (hmark _ _)
  · exact .inl (.refl e)

/-- A tick that ends an attempt goes on to nothing but the timers of an unpaired engine. -/
theorem Ends.wanes {P : SentFrame → Prop} (h : Ends e t P) (h' : Wanes t u)
    (hP : ∀ f, ¬ f.header.type.isHandshake = true → P f) : Ends e u P := by
  have hquiet (f : SentFrame) (hf : t.Quiet f) : P f := by
    refine hP f fun hs => ?_
    exact absurd (h.state.symm.trans (hf hs).2.2.1) (by simp)
  rcases h' with hu | hu
  · exact ⟨⟨hu.config.trans h.config, hu.crypto.trans h.crypto, hu.local_mac.trans h.local_mac⟩,
      hu.state.trans h.state, hu.sound ∘ h.sound, h.emits.trans (hu.emits.mono hquiet)⟩
  · exact ⟨⟨hu.config.trans h.config, hu.crypto.trans h.crypto, hu.local_mac.trans h.local_mac⟩,
      hu.state, hu.sound ∘ h.sound, h.emits.trans (hu.emits.mono hquiet)⟩

theorem Wanes.trans (h : Wanes e t) (h' : Wanes t u) : Wanes e u := by
  rcases h with h | h
  · exact h.wanes h'
  · exact .inr (h.wanes h' fun f hf hs => absurd hs hf)

theorem tick_wanes (e : PairingEngine) (now_ms : UInt32) : Wanes e (e.tick now_ms).2 := by
  have hnow : Holds e { e with current_now_ms := now_ms } :=
    .of_sameLink ⟨rfl, rfl, rfl, rfl, rfl, rfl, rfl, id, id⟩ ⟨rfl, rfl, rfl, rfl, .nil rfl⟩
  have hdisc := hnow.trans (.of_sameLink (tickDiscovery_sameLink _ now_ms)
    (tickDiscovery_aside _ now_ms))
  have hpair := hdisc.wanes (tickPairing_wanes _ now_ms)
  unfold tick
  dsimp only
  rcases hp : (({ e with current_now_ms := now_ms } : PairingEngine).tickDiscovery
    now_ms).tickPairing now_ms with ⟨ok, t⟩
  rw [hp] at hpair
  cases ok with
  | false => exact hpair
  | true =>
    have hchan := hpair.trans (.inl (.of_sameLink (tickChannel_sameLink t now_ms)
      (tickChannel_aside t now_ms)))
    rcases hc : t.tickChannel now_ms with ⟨result, u⟩
    rw [hc] at hchan
    dsimp only
    rw [hc]
    cases result with
    | some r => exact hchan
    | none =>
      exact (hchan.trans (.inl (.of_sameLink (tickUnpair_sameLink u now_ms)
        (tickUnpair_aside u now_ms)))).trans (tickDeferredCleanup_wanes _ _)

end PairingEngine

end EspNowLink
