import EspNowLink.Pairing.HandshakeSteps
import EspNowLink.Pairing.PeerAuthenticity

namespace EspNowLink

/-- The input is the clock, or names `peer` as the other side. A link restored from a record is no
outcome of a handshake. -/
def PairingInput.About (peer : MacAddress) : PairingInput → Prop
  | .tick _ => True
  | .discovery sender _ | .pairInit sender _ _ _ | .pairInitAck sender _ _
  | .pairConfirm sender _ _ | .pairConfirmAck sender _ _ | .pairBusy sender _
  | .unpairRequest sender _ | .unpairAck sender _ | .channelSwitchPrepare sender _ _
  | .channelSwitchAck sender _ | .channelSwitchCommitAck sender _ => sender = peer
  | .requestPair other _ | .requestUnpair other _ | .removePeer other _
  | .requestChannelSwitch other _ _ _ => other = peer
  | .restore _ => False

namespace PairingEngine

variable {e t u : PairingEngine}

/-- An attempt of a master begins: its pair init is on the air. -/
structure Asks (peer : MacAddress) (e t : PairingEngine) : Prop extends SameNode e t where
  role : e.config.local_role = .Master
  sound : e.StoreSound → t.StoreSound
  state : t.state = .Pairing
  pair_phase : t.pair_phase = .MasterWaitInitAck
  peer_mac : t.peer_mac = peer
  sent : ∃ f, t.platform.sent = e.platform.sent ++ [f] ∧
    Carries f peer .PairInit t.corr_id (pairInitPayload t.current_seed t.pairing_nonce 0)

/-- A slave takes up a pair init, whether or not it is its first of the attempt. -/
structure Answers (peer : MacAddress) (attempt : UInt32) (seed : PairSeed) (nonce : UInt32)
    (e t : PairingEngine) : Prop extends SameNode e t where
  takes : e.TakesPairInit peer attempt
  sound : e.StoreSound → t.StoreSound
  state : t.state = .Pairing
  pair_phase : t.pair_phase = .SlaveWaitConfirm
  peer_mac : t.peer_mac = peer
  corr_id : t.corr_id = attempt
  current_seed : t.current_seed = seed
  pairing_nonce : t.pairing_nonce = nonce
  emits : e.Emits t fun f => f.header.type.isHandshake = true →
    f.header.type = .PairInitAck ∧ f.header.correlation_id = attempt

/-- The attempt goes on with the values it has. -/
structure SameValues (e t : PairingEngine) : Prop extends SameNode e t where
  sound : e.StoreSound → t.StoreSound
  peer_mac : t.peer_mac = e.peer_mac
  corr_id : t.corr_id = e.corr_id
  current_seed : t.current_seed = e.current_seed

/-- The master installs the key at the init ack. -/
structure Keys (peer : MacAddress) (attempt : UInt32) (e t : PairingEngine) : Prop
    extends SameValues e t where
  expects : e.expectsPairInitAck attempt
  state : t.state = .Pairing
  pair_phase : t.pair_phase = .MasterSecureGuard
  pairing_nonce : t.pairing_nonce = e.pairing_nonce
  key : e.masterKey peer = some t.current_lmk
  emits : e.Emits t e.Quiet

/-- The slave installs the key at the confirm and is done. -/
structure Completes (peer : MacAddress) (attempt : UInt32) (e t : PairingEngine) : Prop
    extends SameValues e t where
  expects : e.expectsPairConfirm attempt
  state : t.state = .Secured
  pairing_nonce : t.pairing_nonce = e.pairing_nonce
  key : e.slaveKey peer = some t.current_lmk
  persisted : e.StoreSound → t.Persisted
  emits : e.Emits t fun f => f.header.type.isHandshake = true →
    f.header.type = .PairConfirmAck ∧ f.header.correlation_id = attempt

/-- The master is done at the confirm ack. -/
structure Concludes (attempt : UInt32) (e t : PairingEngine) : Prop extends SameValues e t where
  expects : e.expectsPairConfirmAck attempt
  state : t.state = .Secured
  current_lmk : t.current_lmk = e.current_lmk
  persisted : e.StoreSound → t.Persisted
  emits : e.Emits t e.Quiet

/-- Everything an input of the other side's node can do to the handshake of an engine. -/
inductive HandshakeStep (peer : MacAddress) (i : PairingInput) (e t : PairingEngine) : Prop
  | wanes (h : Wanes e t)
  | asks (h : Asks peer e t)
  | drops (role : e.config.local_role = .Slave) (h : Ends e t fun f => f.header.type ≠ .PairInit)
  | answers (corr_id : UInt32) (seed : PairSeed) (nonce : UInt32)
      (hi : i = .pairInit peer corr_id seed nonce) (h : Answers peer corr_id seed nonce e t)
  | keys (corr_id : UInt32) (hi : i = .pairInitAck peer corr_id e.pairing_nonce)
      (h : Keys peer corr_id e t)
  | completes (corr_id : UInt32) (hi : i = .pairConfirm peer corr_id e.pairing_nonce)
      (h : Completes peer corr_id e t)
  | concludes (corr_id : UInt32) (hi : i = .pairConfirmAck peer corr_id true)
      (h : Concludes corr_id e t)

theorem Holds.of_sameAttempt (h : SameAttempt e t) (ha : Aside e t)
    (hlmk : t.current_lmk = e.current_lmk) : Holds e t where
  config := h.config
  crypto := ha.crypto
  local_mac := h.local_mac
  state := h.state
  peer_mac := h.peer_mac
  corr_id := ha.corr_id
  current_seed := ha.current_seed
  pairing_nonce := ha.pairing_nonce
  current_lmk := hlmk
  pair_phase := .inl h.pair_phase
  sound := by intro hs s; rw [h.store]; exact hs s
  held := by
    intro _ hp
    unfold Persisted
    rw [h.local_mac, h.peer_mac, h.store, hlmk]
    exact hp
  emits := ha.emits.mono fun f hf hs => absurd (hf.symm.trans hs) (by simp)

/-- An attempt that fails after `t` ends without a link. -/
theorem SameNode.failPairing (h : SameNode e t) (hs : e.StoreSound → t.StoreSound)
    {P : SentFrame → Prop} (hemits : e.Emits t P) (peer : MacAddress) (corr_id : UInt32)
    (msg : String) : Ends e (t.failPairing peer corr_id msg) P := by
  have hends := t.failPairing_ends peer corr_id msg (P := P)
  exact ⟨⟨hends.config.trans h.config, hends.crypto.trans h.crypto,
    hends.local_mac.trans h.local_mac⟩, rfl, hends.sound ∘ hs, hemits.trans hends.emits⟩

/-- A change inside an attempt that keeps its values: only the platform, the key and the timers
move. -/
structure SameHandshake (e t : PairingEngine) : Prop extends SameAttempt e t where
  crypto : t.crypto = e.crypto
  corr_id : t.corr_id = e.corr_id
  current_seed : t.current_seed = e.current_seed
  pairing_nonce : t.pairing_nonce = e.pairing_nonce

namespace SameHandshake

protected theorem refl (e : PairingEngine) : SameHandshake e e :=
  ⟨⟨rfl, rfl, rfl, rfl, rfl, rfl⟩, rfl, rfl, rfl, rfl⟩

theorem node (h : SameHandshake e t) : SameNode e t := ⟨h.config, h.crypto, h.local_mac⟩

theorem sound (h : SameHandshake e t) (hs : e.StoreSound) : t.StoreSound := by
  intro s
  rw [h.store]
  exact hs s

theorem attachPeer (h : SameHandshake e t) {mac : MacAddress} {encrypted : Bool}
    {lmk : Option LmkKey} {ok : Bool} (ha : t.attachPeer mac encrypted lmk = (ok, u)) :
    SameHandshake e u ∧ u.platform.sent = t.platform.sent := by
  have hsame := h.toSameAttempt.attachPeer ha
  obtain ⟨-, rfl⟩ := Prod.mk.inj ha
  exact ⟨⟨hsame, h.crypto, h.corr_id, h.current_seed, h.pairing_nonce⟩,
    Platform.addPeer_sent _ _ _ _⟩

theorem sendControl (h : SameHandshake e t) {dest : MacAddress} {type : MessageType}
    {corr_id : UInt32} {payload : Bytes} {ok : Bool}
    (hs : t.sendControl dest type corr_id payload = (ok, u)) :
    SameHandshake e u ∧ ((ok = false ∧ u.platform.sent = t.platform.sent) ∨
      (ok = true ∧ ∃ f, u.platform.sent = t.platform.sent ++ [f] ∧
        Carries f dest type corr_id payload)) := by
  have hsame := h.toSameAttempt.sendControl hs
  have hsent := t.sendControl_sent dest type corr_id payload
  obtain ⟨_, _, _, _, hc, -, -⟩ := t.sendControl_cases dest type corr_id payload
  rw [hs] at hsent
  obtain ⟨-, rfl⟩ := Prod.mk.inj (hc.symm.trans hs)
  exact ⟨⟨hsame, h.crypto, h.corr_id, h.current_seed, h.pairing_nonce⟩, hsent⟩

theorem installKey (h : SameHandshake e t) {peer : MacAddress} {lmk : LmkKey} {ok : Bool}
    (hk : t.installKey peer lmk = (ok, u)) :
    SameHandshake e u ∧ u.current_lmk = lmk ∧ u.platform.sent = t.platform.sent := by
  obtain ⟨hsame, hlmk, -⟩ := h.toSameAttempt.installKey hk
  obtain ⟨-, rfl⟩ := Prod.mk.inj hk
  refine ⟨⟨hsame, h.crypto, h.corr_id, h.current_seed, h.pairing_nonce⟩, hlmk, ?_⟩
  exact (Platform.addPeer_sent _ _ _ _).trans (Platform.removePeer_sent _ _)

theorem emit (h : SameHandshake e t) (type : EventType) (peer : MacAddress) (corr_id : UInt32)
    (msg : String) : SameHandshake e (t.emit type peer corr_id msg) :=
  ⟨⟨h.config, h.local_mac, h.state, h.pair_phase, h.peer_mac, h.store⟩, h.crypto, h.corr_id,
    h.current_seed, h.pairing_nonce⟩

end SameHandshake

theorem drawSecrets_cases (e : PairingEngine) :
    SameAttempt e e.drawSecrets ∧ e.drawSecrets.crypto = e.crypto ∧
      e.drawSecrets.corr_id = e.corr_id ∧ e.drawSecrets.platform.sent = e.platform.sent := by
  have hseed : (makePairSeed e.platform).2.sent = e.platform.sent := by
    unfold makePairSeed
    dsimp only
    split <;> rfl
  unfold drawSecrets
  generalize makePairSeed e.platform = drawn at hseed
  exact ⟨⟨rfl, rfl, rfl, rfl, rfl, rfl⟩, rfl, rfl, hseed⟩

theorem requestPair_cases (e : PairingEngine) (peer : MacAddress) (corr_id : UInt32) :
    Wanes e (e.requestPair peer corr_id).2 ∨ Asks peer e (e.requestPair peer corr_id).2 := by
  unfold requestPair
  split
  · exact .inl (.inl (.refl e))
  rename_i hrole
  split
  · exact .inl (.inl (.refl e))
  have hmaster : e.config.local_role = .Master := by simpa using hrole
  rcases ha : (e.beginMasterAttempt peer corr_id).attachPeer peer false none with ⟨ok, t⟩
  obtain ⟨ht, hsent⟩ := (SameHandshake.refl _).attachPeer ha
  have hsent : t.platform.sent = e.platform.sent := hsent
  have hnode : SameNode e t := ⟨ht.config, ht.crypto, ht.local_mac⟩
  have hsound : e.StoreSound → t.StoreSound := ht.sound
  cases ok with
  | false => exact .inl (.inr (hnode.failPairing hsound (.nil hsent) _ _ _))
  | true =>
    obtain ⟨hd, hdcrypto, hdcorr, hdsent⟩ := t.drawSecrets_cases
    dsimp only
    generalize t.drawSecrets = d at hd hdcrypto hdcorr hdsent
    have hu := (SameHandshake.refl d).emit .PairingStarted peer corr_id "pair_init_tx_unsecure"
    have husent : (d.emit .PairingStarted peer corr_id "pair_init_tx_unsecure").platform.sent =
        e.platform.sent := hdsent.trans hsent
    generalize d.emit .PairingStarted peer corr_id "pair_init_tx_unsecure" = u at hu husent
    rcases hs : u.sendControl peer .PairInit corr_id
      (pairInitPayload u.current_seed u.pairing_nonce 0) with ⟨ok, v⟩
    obtain ⟨hv, hcontrol⟩ := (SameHandshake.refl u).sendControl hs
    have hall := hv.toSameAttempt
    have hvnode : SameNode e v :=
      ⟨hv.config.trans (hu.config.trans (hd.config.trans hnode.config)),
        hv.crypto.trans (hu.crypto.trans (hdcrypto.trans hnode.crypto)),
        hv.local_mac.trans (hu.local_mac.trans (hd.local_mac.trans hnode.local_mac))⟩
    have hvsound : e.StoreSound → v.StoreSound := by
      intro h s
      rw [hv.store, hu.store, hd.store]
      exact hsound h s
    rcases hcontrol with ⟨rfl, hnone⟩ | ⟨rfl, f, hone, hcarries⟩
    · exact .inl (.inr (hvnode.failPairing hvsound (.nil (hnone.trans husent)) _ _ _))
    · refine .inr ⟨hvnode, hmaster, hvsound, ?_, ?_, ?_, f, by rw [← husent]; exact hone, ?_⟩
      · exact hv.state.trans (hu.state.trans (hd.state.trans ht.state))
      · exact hv.pair_phase.trans (hu.pair_phase.trans (hd.pair_phase.trans ht.pair_phase))
      · exact hv.peer_mac.trans (hu.peer_mac.trans (hd.peer_mac.trans ht.peer_mac))
      · have hcorr : v.corr_id = corr_id :=
          hv.corr_id.trans (hu.corr_id.trans (hdcorr.trans ht.corr_id))
        dsimp only
        rw [hcorr, hv.current_seed, hv.pairing_nonce]
        exact hcarries

theorem onDiscovery_cases (e : PairingEngine) (sender : MacAddress) (corr_id : UInt32) :
    Wanes e (e.onDiscovery sender corr_id).2 ∨ Asks sender e (e.onDiscovery sender corr_id).2 := by
  unfold onDiscovery
  split
  · exact .inl (.inl (.refl e))
  split
  · exact .inl (.inl (.of_sameLink ((SameLink.refl e).emit _ _ _ _) ((Aside.refl e).emit _ _ _ _)))
  · exact requestPair_cases e sender corr_id

/-- A slave under way turns an init of another attempt away. -/
theorem rejectBusy_holds (e : PairingEngine) (sender : MacAddress) (corr_id : UInt32) :
    Holds e (e.rejectBusy sender corr_id) := by
  unfold rejectBusy
  dsimp only
  rcases ha : e.attachPeer sender false none with ⟨ok, t⟩
  obtain ⟨ht, -⟩ := (SameHandshake.refl e).attachPeer ha
  have htaside := (Aside.refl e).attachPeer sender false none
  rw [ha] at htaside
  have htlmk : t.current_lmk = e.current_lmk := by
    obtain ⟨-, rfl⟩ := Prod.mk.inj ha
    rfl
  dsimp only
  rcases hs : t.sendControl sender .PairBusy corr_id [1] with ⟨ok', u⟩
  obtain ⟨hu, -⟩ := ht.sendControl hs
  have huaside := htaside.sendControl sender .PairBusy rfl corr_id [1]
  rw [hs] at huaside
  have hulmk : u.current_lmk = e.current_lmk := by
    obtain ⟨_, _, _, _, hc, -, -⟩ := t.sendControl_cases sender .PairBusy corr_id [1]
    obtain ⟨-, rfl⟩ := Prod.mk.inj (hc.symm.trans hs)
    exact htlmk
  exact .of_sameAttempt (hu.emit _ _ _ _).toSameAttempt (huaside.emit _ _ _ _) hulmk

theorem prepareSlaveKey_cases {b t : PairingEngine} (ht : SameHandshake b t)
    {P : SentFrame → Prop} (hemits : b.Emits t P) (sender : MacAddress) (corr_id : UInt32) :
    (SameHandshake b (t.prepareSlaveKey sender corr_id).2 ∧
        b.Emits (t.prepareSlaveKey sender corr_id).2 P) ∨
      Ends b (t.prepareSlaveKey sender corr_id).2 P := by
  unfold prepareSlaveKey
  cases t.slaveKey sender with
  | none => exact .inr (ht.node.failPairing ht.sound hemits _ _ _)
  | some lmk =>
    dsimp only
    rcases hk : t.installKey sender lmk with ⟨ok, u⟩
    obtain ⟨hu, -, hsent⟩ := ht.installKey hk
    have huemits : b.Emits u P := hemits.trans (.nil hsent)
    cases ok with
    | false => exact .inr (hu.node.failPairing hu.sound huemits _ _ _)
    | true => exact .inl ⟨hu.emit _ _ _ _, huemits.trans (.nil rfl)⟩

theorem onPairInit_cases (e : PairingEngine) (sender : MacAddress) (corr_id : UInt32)
    (seed : PairSeed) (nonce : UInt32) :
    Wanes e (e.onPairInit sender corr_id seed nonce).2 ∨
      (e.config.local_role = .Slave ∧ Ends e (e.onPairInit sender corr_id seed nonce).2
        fun f => f.header.type ≠ .PairInit) ∨
      Answers sender corr_id seed nonce e (e.onPairInit sender corr_id seed nonce).2 := by
  unfold onPairInit
  split
  · exact .inl (.inl (.refl e))
  rename_i hguard
  simp only [ne_eq, not_or, not_not] at hguard
  split
  · exact .inl (.inl (rejectBusy_holds e sender corr_id))
  rename_i hown
  dsimp only
  generalize hb : (e.beginSlaveAttempt sender corr_id seed nonce).emit .PairingStep sender corr_id
    "pair_init_rx_unsecure" = b
  have hbnode : SameNode e b := by subst b; exact ⟨rfl, rfl, rfl⟩
  have hbsound : e.StoreSound → b.StoreSound := by subst b; exact id
  have hbsent : b.platform.sent = e.platform.sent := by subst b; rfl
  have hvalues : b.state = .Pairing ∧ b.pair_phase = .SlaveWaitConfirm ∧ b.peer_mac = sender ∧
      b.corr_id = corr_id ∧ b.current_seed = seed ∧ b.pairing_nonce = nonce := by
    subst b; exact ⟨rfl, rfl, rfl, rfl, rfl, rfl⟩
  -- whatever ends the attempt from here on ends it for `e`
  have hends {t : PairingEngine} {P : SentFrame → Prop} (h : Ends b t P) : Ends e t P :=
    ⟨⟨h.config.trans hbnode.config, h.crypto.trans hbnode.crypto,
      h.local_mac.trans hbnode.local_mac⟩, h.state, h.sound ∘ hbsound,
      Emits.trans (.nil hbsent) h.emits⟩
  rcases ha : b.attachPeer sender false none with ⟨ok, t⟩
  obtain ⟨ht, htsent⟩ := (SameHandshake.refl b).attachPeer ha
  cases ok with
  | false =>
    exact .inr (.inl ⟨hguard.1, hends (ht.node.failPairing ht.sound (.nil htsent) _ _ _)⟩)
  | true =>
    dsimp only
    rcases hs : t.sendControl sender .PairInitAck corr_id
      (pairInitAckPayload t.pairing_nonce) with ⟨ok, u⟩
    obtain ⟨hu, hcontrol⟩ := ht.sendControl hs
    rcases hcontrol with ⟨rfl, hnone⟩ | ⟨rfl, f, hone, -, htype, hcorr, -⟩
    · exact .inr (.inl ⟨hguard.1,
        hends (hu.node.failPairing hu.sound (.nil (hnone.trans htsent)) _ _ _)⟩)
    · have hack : b.Emits u fun f => f.header.type = .PairInitAck ∧
          f.header.correlation_id = corr_id := by
        refine ⟨[f], by rw [← htsent]; exact hone, fun g hg => ?_⟩
        obtain rfl := List.mem_singleton.mp hg
        exact ⟨htype, hcorr⟩
      have hemit := hu.emit .PairingStep sender corr_id "pair_init_ack_tx_unsecure"
      rcases prepareSlaveKey_cases hemit (hack.trans (.nil rfl)) sender corr_id with
        ⟨hkey, hsent⟩ | hfail
      · refine .inr (.inr ⟨⟨hkey.config.trans hbnode.config, hkey.crypto.trans hbnode.crypto,
          hkey.local_mac.trans hbnode.local_mac⟩, ⟨hguard.1, hguard.2, hown⟩, hkey.sound ∘ hbsound,
          hkey.state.trans hvalues.1, hkey.pair_phase.trans hvalues.2.1,
          hkey.peer_mac.trans hvalues.2.2.1, hkey.corr_id.trans hvalues.2.2.2.1,
          hkey.current_seed.trans hvalues.2.2.2.2.1, hkey.pairing_nonce.trans hvalues.2.2.2.2.2,
          Emits.trans (.nil hbsent) (hsent.mono fun _ hf _ => hf)⟩)
      · refine .inr (.inl ⟨hguard.1, hends ⟨hfail.toSameNode, hfail.state, hfail.sound, ?_⟩⟩)
        exact hfail.emits.mono fun f hf h => by simp [hf.1] at h

theorem onPairInitAck_cases (e : PairingEngine) (sender : MacAddress) (corr_id nonce : UInt32) :
    Wanes e (e.onPairInitAck sender corr_id nonce).2 ∨
      (nonce = e.pairing_nonce ∧ Keys sender corr_id e (e.onPairInitAck sender corr_id nonce).2) := by
  unfold onPairInitAck
  split
  · exact .inl (.inl (.refl e))
  rename_i hexp
  have hexp := not_not.mp hexp
  split
  · exact .inl (.inr (failPairing_ends _ _ _ _))
  rename_i hnonce
  cases hkey : e.masterKey sender with
  | none =>
    have hnode : SameNode e (e.evictPeer sender).2 := ⟨rfl, rfl, rfl⟩
    exact .inl (.inr (hnode.failPairing id (.nil (Platform.removePeer_sent _ _)) _ _ _))
  | some lmk =>
    dsimp only
    rcases hk : e.installKey sender lmk with ⟨ok, u⟩
    obtain ⟨hu, hlmk, hsent⟩ := (SameHandshake.refl e).installKey hk
    cases ok with
    | false => exact .inl (.inr (hu.node.failPairing hu.sound (.nil hsent) _ _ _))
    | true =>
      exact .inr ⟨not_not.mp hnonce, ⟨⟨hu.config, hu.crypto, hu.local_mac⟩, hu.sound, hu.peer_mac,
        hu.corr_id, hu.current_seed⟩, hexp, hu.state.trans hexp.2.1, rfl, hu.pairing_nonce,
        hkey.trans (congrArg some hlmk.symm), .nil hsent⟩

/-- The common end of both handshakes: a persisted link, or a failure without one. -/
theorem persistPair_secured {e t u : PairingEngine} {ok : Bool} (hnode : SameNode e t)
    (hsound : e.StoreSound → t.StoreSound) (hp : t.persistPair = (ok, u)) :
    SameNode e u ∧ (e.StoreSound → u.StoreSound) ∧ u.platform.sent = t.platform.sent ∧
      u.state = t.state ∧ u.peer_mac = t.peer_mac ∧ u.corr_id = t.corr_id ∧
      u.current_seed = t.current_seed ∧ u.pairing_nonce = t.pairing_nonce ∧
      u.current_lmk = t.current_lmk ∧ (ok = true → e.StoreSound → u.Persisted) := by
  obtain ⟨ok', store, hp', hs, hheld⟩ := t.persistPair_cases
  obtain ⟨rfl, rfl⟩ := Prod.mk.inj (hp'.symm.trans hp)
  exact ⟨⟨hnode.config, hnode.crypto, hnode.local_mac⟩, fun h => hs (hsound h), rfl, rfl, rfl, rfl,
    rfl, rfl, rfl, fun hok h => hheld (hsound h) hok⟩

/-- A failed end takes the hardware entry away before it gives up. -/
theorem SameNode.evict_failPairing (h : SameNode e t) (hs : e.StoreSound → t.StoreSound)
    {P : SentFrame → Prop} (hsent : t.platform.sent = e.platform.sent) (peer : MacAddress)
    (corr_id : UInt32) (msg : String) :
    Ends e ((t.evictPeer peer).2.failPairing peer corr_id msg) P := by
  have hnode : SameNode e (t.evictPeer peer).2 := ⟨h.config, h.crypto, h.local_mac⟩
  exact hnode.failPairing hs (.nil ((Platform.removePeer_sent _ _).trans hsent)) _ _ _

theorem onPairConfirm_cases (e : PairingEngine) (sender : MacAddress) (corr_id nonce : UInt32) :
    Wanes e (e.onPairConfirm sender corr_id nonce).2 ∨
      (nonce = e.pairing_nonce ∧
        Completes sender corr_id e (e.onPairConfirm sender corr_id nonce).2) := by
  unfold onPairConfirm
  split
  · exact .inl (.inl (.refl e))
  rename_i hexp
  have hexp := not_not.mp hexp
  split
  · exact .inl (.inr (failPairing_ends _ _ _ _))
  rename_i hnonce
  cases hkey : e.slaveKey sender with
  | none => exact .inl (.inr (failPairing_ends _ _ _ _))
  | some lmk =>
    dsimp only
    rcases hk : e.installKey sender lmk with ⟨ok, t⟩
    obtain ⟨ht, hlmk, htsent⟩ := (SameHandshake.refl e).installKey hk
    cases ok with
    | false => exact .inl (.inr (ht.node.failPairing ht.sound (.nil htsent) _ _ _))
    | true =>
      dsimp only
      rcases hp : t.enterSecured.persistPair with ⟨ok, u⟩
      obtain ⟨hnode, hsound, husent, hstate, hpeer, hcorr, hseed, hn, hulmk, hheld⟩ :=
        persistPair_secured (e := e) (t := t.enterSecured) ⟨ht.config, ht.crypto, ht.local_mac⟩
          ht.sound hp
      have husent : u.platform.sent = e.platform.sent := husent.trans htsent
      cases ok with
      | false => exact .inl (.inr (hnode.evict_failPairing hsound husent _ _ _))
      | true =>
        dsimp only
        have hv := (SameHandshake.refl u).emit .Paired sender corr_id "pair_complete_persisted"
        generalize hemit : u.emit .Paired sender corr_id "pair_complete_persisted" = v at hv
        have hvsent : v.platform.sent = e.platform.sent := by subst v; exact husent
        have hvlmk : v.current_lmk = u.current_lmk := by subst v; rfl
        rcases hs : v.sendControl sender .PairConfirmAck corr_id pairConfirmAckPayload with ⟨ok, w⟩
        obtain ⟨hw, hcontrol⟩ := hv.sendControl hs
        have hwlmk : w.current_lmk = v.current_lmk := by
          obtain ⟨_, _, _, _, hc, -, -⟩ := v.sendControl_cases sender .PairConfirmAck corr_id
            pairConfirmAckPayload
          obtain ⟨-, rfl⟩ := Prod.mk.inj (hc.symm.trans hs)
          rfl
        have hemits : e.Emits w fun f => f.header.type.isHandshake = true →
            f.header.type = .PairConfirmAck ∧ f.header.correlation_id = corr_id := by
          rcases hcontrol with ⟨-, hnone⟩ | ⟨-, f, hone, -, htype, hfcorr, -⟩
          · exact .nil (hnone.trans hvsent)
          · refine ⟨[f], by rw [← hvsent]; exact hone, fun g hg _ => ?_⟩
            obtain rfl := List.mem_singleton.mp hg
            exact ⟨htype, hfcorr⟩
        refine .inr ⟨not_not.mp hnonce, ⟨⟨hw.config.trans hnode.config, hw.crypto.trans hnode.crypto,
          hw.local_mac.trans hnode.local_mac⟩, hw.sound ∘ hsound, ?_, ?_, ?_⟩, hexp,
          hw.state.trans hstate, ?_, ?_, ?_, hemits⟩
        · exact hw.peer_mac.trans (hpeer.trans ht.peer_mac)
        · exact hw.corr_id.trans (hcorr.trans ht.corr_id)
        · exact hw.current_seed.trans (hseed.trans ht.current_seed)
        · exact hw.pairing_nonce.trans (hn.trans ht.pairing_nonce)
        · rw [hkey, hwlmk, hvlmk, hulmk]
          exact congrArg some hlmk.symm
        · intro h
          unfold Persisted
          rw [hw.store, hw.local_mac, hw.peer_mac, hwlmk, hvlmk]
          exact hheld rfl h

theorem onPairConfirmAck_cases (e : PairingEngine) (sender : MacAddress) (corr_id : UInt32)
    (flag : Bool) :
    Wanes e (e.onPairConfirmAck sender corr_id flag).2 ∨
      (flag = true ∧ Concludes corr_id e (e.onPairConfirmAck sender corr_id flag).2) := by
  unfold onPairConfirmAck
  split
  · exact .inl (.inl (.refl e))
  rename_i hexp
  have hexp := not_not.mp hexp
  split
  · exact .inl (.inr (failPairing_ends _ _ _ _))
  rename_i hflag
  rcases hp : e.enterSecured.clearNonce.persistPair with ⟨ok, u⟩
  obtain ⟨hnode, hsound, husent, hstate, hpeer, hcorr, hseed, -, hulmk, hheld⟩ :=
    persistPair_secured (e := e) (t := e.enterSecured.clearNonce) ⟨rfl, rfl, rfl⟩ id hp
  cases ok with
  | false => exact .inl (.inr (hnode.evict_failPairing hsound husent _ _ _))
  | true =>
    exact .inr ⟨by simpa using hflag, ⟨⟨hnode.config, hnode.crypto, hnode.local_mac⟩, hsound, hpeer,
      hcorr, hseed⟩, hexp, hstate, hulmk, fun h => hheld rfl h, .nil husent⟩

theorem onPairBusy_wanes (e : PairingEngine) (sender : MacAddress) (corr_id : UInt32) :
    Wanes e (e.onPairBusy sender corr_id).2 := by
  unfold onPairBusy
  split
  · exact .inl (.refl e)
  · exact .inr ⟨⟨rfl, rfl, rfl⟩, rfl, id, .nil (Platform.removePeer_sent _ _)⟩

theorem onUnpairAck_wanes (e : PairingEngine) (sender : MacAddress) (corr_id : UInt32) :
    Wanes e (e.onUnpairAck sender corr_id).2 := by
  unfold onUnpairAck
  split
  · exact .inl (.refl e)
  · exact .inr ⟨⟨rfl, rfl, rfl⟩, rfl, forgetPeer_sound e sender,
      .nil (Platform.removePeer_sent _ _)⟩

theorem onUnpairRequest_wanes (e : PairingEngine) (sender : MacAddress) (corr_id : UInt32) :
    Wanes e (e.onUnpairRequest sender corr_id).2 := by
  unfold onUnpairRequest
  split
  · exact .inl (.refl e)
  have hlink := (SameLink.refl e).sendControl sender .UnpairAck corr_id []
  have haside := (Aside.refl e).sendControl sender .UnpairAck rfl corr_id []
  rcases hs : e.sendControl sender .UnpairAck corr_id [] with ⟨ok, t⟩
  rw [hs] at hlink haside
  have hsent := Holds.of_sameLink hlink haside
  cases ok with
  | false => exact .inl hsent
  | true =>
    exact .inl (hsent.trans (.of_sameLink (t := t.scheduleCleanup sender corr_id)
      ⟨rfl, rfl, rfl, rfl, rfl, rfl, rfl, id, id⟩ ⟨rfl, rfl, rfl, rfl, .nil rfl⟩))

theorem requestUnpair_wanes (e : PairingEngine) (peer : MacAddress) (corr_id : UInt32)
    (hpeer : e.state ≠ .Unpaired → e.peer_mac = peer) :
    Wanes e (e.requestUnpair peer corr_id).2 := by
  unfold requestUnpair
  split
  · exact .inl (.refl e)
  rename_i hguard
  simp only [ne_eq, not_or, not_not, Bool.not_eq_true] at hguard
  have hp : peer = e.peer_mac := (hpeer (by simp [hguard.2.1])).symm
  have hbegin : SameLink e (e.beginUnpair peer corr_id) :=
    ⟨rfl, rfl, rfl, rfl, hp, rfl, rfl, id, id⟩
  have hbaside : Aside e (e.beginUnpair peer corr_id) := ⟨rfl, rfl, rfl, rfl, .nil rfl⟩
  have hlink := hbegin.sendControl peer .UnpairRequest corr_id []
  have haside := hbaside.sendControl peer .UnpairRequest rfl corr_id []
  rcases hs : (e.beginUnpair peer corr_id).sendControl peer .UnpairRequest corr_id [] with ⟨ok, t⟩
  rw [hs] at hlink haside
  have hsent := Holds.of_sameLink hlink haside
  cases ok with
  | false =>
    exact .inl (hsent.trans (.of_sameLink (t := t.cancelUnpair)
      ⟨rfl, rfl, rfl, rfl, rfl, rfl, rfl, id, id⟩ ⟨rfl, rfl, rfl, rfl, .nil rfl⟩))
  | true => exact .inl hsent

theorem dropPeer_aside (e : PairingEngine) (peer : MacAddress) (erase : Bool) :
    Aside e (e.dropPeer peer erase) := by
  unfold dropPeer
  split
  · exact ((Aside.refl e).evictPeer peer).withStore _
  · exact (Aside.refl e).evictPeer peer

/-- Removing the other side ends a secured link, and leaves an attempt under way. -/
theorem removePeer_wanes (e : PairingEngine) (peer : MacAddress) (erase : Bool)
    (hpeer : e.state ≠ .Unpaired → e.peer_mac = peer) : Wanes e (e.removePeer peer erase).2 := by
  obtain ⟨hconfig, hstate, hphase, hmac, hlmk, -⟩ := e.dropPeer_fields peer erase
  have haside := e.dropPeer_aside peer erase
  have hsound : e.StoreSound → (e.dropPeer peer erase).StoreSound := dropPeer_sound e peer erase
  have hlocal : (e.dropPeer peer erase).local_mac = e.local_mac := by
    unfold dropPeer
    split <;> rfl
  unfold removePeer
  dsimp only
  generalize e.dropPeer peer erase = t at *
  have hsent : e.Emits t e.Quiet :=
    haside.emits.mono fun f hf hs => absurd (hf.symm.trans hs) (by simp)
  split
  · exact .inr ⟨⟨hconfig, haside.crypto, hlocal⟩, rfl, hsound, hsent⟩
  · rename_i hother
    have hopen : e.state ≠ .Secured := by
      intro hs
      exact hother ⟨hstate.trans hs, by rw [hmac, hpeer (by simp [hs])]⟩
    exact .inl ⟨⟨hconfig, haside.crypto, hlocal⟩, hstate, hmac, haside.corr_id, haside.current_seed,
      haside.pairing_nonce, hlmk, .inl hphase, hsound, fun hs => absurd hs hopen, hsent⟩

theorem requestChannelSwitch_wanes (e : PairingEngine) (peer : MacAddress) (channel : UInt8)
    (now_ms corr_id : UInt32) (hpeer : e.state ≠ .Unpaired → e.peer_mac = peer) :
    Wanes e (e.requestChannelSwitch peer channel now_ms corr_id).2 := by
  unfold requestChannelSwitch
  split
  · exact .inl (.refl e)
  rename_i hguard
  simp only [ne_eq, not_or, not_not] at hguard
  have hp : peer = e.peer_mac := (hpeer (by simp [hguard.2.1])).symm
  split
  · exact .inl (.refl e)
  have hlink := askChannelSwitch_sameLink e
  have haside := askChannelSwitch_aside e
  rcases ha : e.askChannelSwitch with ⟨allowed, t⟩
  rw [ha] at hlink haside
  cases allowed with
  | false => exact .inl (.of_sameLink (hlink.emit _ _ _ _) (haside.emit _ _ _ _))
  | true =>
    dsimp only
    generalize channelPreparePayload ⟨channel, now_ms + t.config.channel_switch_grace_ms⟩ = payload
    have hslink := hlink.sendControl peer .ChannelSwitchPrepare corr_id payload
    have hsaside := haside.sendControl peer .ChannelSwitchPrepare rfl corr_id payload
    rcases hs : t.sendControl peer .ChannelSwitchPrepare corr_id payload with ⟨ok, u⟩
    rw [hs] at hslink hsaside
    cases ok with
    | false => exact .inl (.of_sameLink hslink hsaside)
    | true =>
      refine .inl (.of_sameLink (SameLink.emit ?_ _ _ _ _) (Aside.emit ?_ _ _ _ _))
      · exact hslink.trans ⟨rfl, rfl, rfl, rfl, hp.trans hslink.peer_mac.symm, rfl, rfl, id, id⟩
      · exact hsaside.trans ⟨rfl, rfl, rfl, rfl, .nil rfl⟩

theorem onChannelSwitchPrepare_wanes (e : PairingEngine) (sender : MacAddress) (corr_id : UInt32)
    (payload : ChannelSwitchPayload) (hpeer : e.state ≠ .Unpaired → e.peer_mac = sender) :
    Wanes e (e.onChannelSwitchPrepare sender corr_id payload).2 := by
  unfold onChannelSwitchPrepare
  split
  · exact .inl (.refl e)
  rename_i hguard
  simp only [ne_eq, not_or, not_not] at hguard
  have hp : sender = e.peer_mac := (hpeer (by simp [hguard.2])).symm
  split
  · exact .inl (.of_sameLink ((SameLink.refl e).emit _ _ _ _) ((Aside.refl e).emit _ _ _ _))
  have hlink := askChannelSwitch_sameLink e
  have haside := askChannelSwitch_aside e
  rcases ha : e.askChannelSwitch with ⟨allowed, t⟩
  rw [ha] at hlink haside
  cases allowed with
  | false => exact .inl (.of_sameLink (hlink.emit _ _ _ _) (haside.emit _ _ _ _))
  | true =>
    refine .inl (.of_sameLink ((SameLink.emit ?_ _ _ _ _).sendControl _ _ _ _)
      ((Aside.emit ?_ _ _ _ _).sendControl _ _ rfl _ _))
    · exact hlink.trans ⟨rfl, rfl, rfl, rfl, hp.trans hlink.peer_mac.symm, rfl, rfl, id, id⟩
    · exact haside.trans ⟨rfl, rfl, rfl, rfl, .nil rfl⟩

theorem onChannelSwitchAck_wanes (e : PairingEngine) (sender : MacAddress) (corr_id : UInt32) :
    Wanes e (e.onChannelSwitchAck sender corr_id).2 := by
  unfold onChannelSwitchAck
  split
  · exact .inl (.refl e)
  · exact .inl (.of_sameLink ⟨rfl, rfl, rfl, rfl, rfl, rfl, rfl, id, id⟩
      ⟨rfl, rfl, rfl, rfl, .nil rfl⟩)

theorem onChannelSwitchCommitAck_wanes (e : PairingEngine) (sender : MacAddress)
    (corr_id : UInt32) : Wanes e (e.onChannelSwitchCommitAck sender corr_id).2 := by
  unfold onChannelSwitchCommitAck
  split
  · exact .inl (.refl e)
  · exact .inl (.of_sameLink ((saveChannel_sameLink e sender e.pending_channel).trans
      ⟨rfl, rfl, rfl, rfl, rfl, rfl, rfl, id, id⟩) ⟨rfl, rfl, rfl, rfl, .nil rfl⟩)

/-- What an input of the other side's node does to the handshake. -/
theorem step_cases (e : PairingEngine) {peer : MacAddress} {i : PairingInput} (hi : i.About peer)
    (hpeer : e.state ≠ .Unpaired → e.peer_mac = peer) : HandshakeStep peer i e (e.step i) := by
  cases i with
  | tick now_ms => exact .wanes (tick_wanes e now_ms)
  | discovery sender corr_id =>
    obtain rfl := hi
    rcases onDiscovery_cases e sender corr_id with h | h
    · exact .wanes h
    · exact .asks h
  | pairInit sender corr_id seed nonce =>
    obtain rfl := hi
    rcases onPairInit_cases e sender corr_id seed nonce with h | ⟨hrole, h⟩ | h
    · exact .wanes h
    · exact .drops hrole h
    · exact .answers corr_id seed nonce rfl h
  | pairInitAck sender corr_id nonce =>
    obtain rfl := hi
    rcases onPairInitAck_cases e sender corr_id nonce with h | ⟨rfl, h⟩
    · exact .wanes h
    · exact .keys corr_id rfl h
  | pairConfirm sender corr_id nonce =>
    obtain rfl := hi
    rcases onPairConfirm_cases e sender corr_id nonce with h | ⟨rfl, h⟩
    · exact .wanes h
    · exact .completes corr_id rfl h
  | pairConfirmAck sender corr_id flag =>
    obtain rfl := hi
    rcases onPairConfirmAck_cases e sender corr_id flag with h | ⟨rfl, h⟩
    · exact .wanes h
    · exact .concludes corr_id rfl h
  | pairBusy sender corr_id => exact .wanes (onPairBusy_wanes e sender corr_id)
  | restore record => exact absurd hi id
  | requestPair other corr_id =>
    obtain rfl := hi
    rcases requestPair_cases e other corr_id with h | h
    · exact .wanes h
    · exact .asks h
  | requestUnpair other corr_id =>
    obtain rfl := hi
    exact .wanes (requestUnpair_wanes e other corr_id hpeer)
  | unpairRequest sender corr_id => exact .wanes (onUnpairRequest_wanes e sender corr_id)
  | unpairAck sender corr_id => exact .wanes (onUnpairAck_wanes e sender corr_id)
  | removePeer other erase =>
    obtain rfl := hi
    exact .wanes (removePeer_wanes e other erase hpeer)
  | requestChannelSwitch other channel now_ms corr_id =>
    obtain rfl := hi
    exact .wanes (requestChannelSwitch_wanes e other channel now_ms corr_id hpeer)
  | channelSwitchPrepare sender corr_id payload =>
    obtain rfl := hi
    exact .wanes (onChannelSwitchPrepare_wanes e sender corr_id payload hpeer)
  | channelSwitchAck sender corr_id => exact .wanes (onChannelSwitchAck_wanes e sender corr_id)
  | channelSwitchCommitAck sender corr_id =>
    exact .wanes (onChannelSwitchCommitAck_wanes e sender corr_id)

end PairingEngine

end EspNowLink
