import EspNowLink.Framework.Runs
import EspNowLink.Pairing.EngineSteps

namespace EspNowLink

namespace PairingEngine

/-- What the store's backend holds as the pair record of a peer. -/
def storedPair (e : PairingEngine) (peer : MacAddress) : Option PairRecord :=
  e.store.bind fun s => (s.backend.blobs (s.makeKey .Pair e.local_mac peer)).bind pairOfBlob

/-- The records of the two peers are kept under different keys. -/
def KeysDiffer (e : PairingEngine) (a peer : MacAddress) : Prop :=
  ∀ s, e.store = some s → s.makeKey .Pair e.local_mac a ≠ s.makeKey .Pair e.local_mac peer

/-- The store's configuration with the blob under the key of a peer's record. -/
def recordView (e : PairingEngine) (a : MacAddress) : Option (PersistenceConfig × Option Bytes) :=
  e.store.map fun s => (s.config, s.backend.blobs (s.makeKey .Pair e.local_mac a))

/-- A change that leaves a device's attachment and its record alone. -/
structure Spares (a : MacAddress) (e t : PairingEngine) : Prop where
  config : t.config = e.config
  local_mac : t.local_mac = e.local_mac
  attached : t.platform.attached a = e.platform.attached a
  record : t.recordView a = e.recordView a

/-- The events after `e` on the way to `t`, none of which reports a failed pairing. -/
def Quietly (e t : PairingEngine) : Prop :=
  ∃ new, t.events = e.events ++ new ∧ ∀ ev ∈ new, ev.type ≠ .PairingFailed

/-- The master waits for answers of `peer`. -/
structure Attempting (peer : MacAddress) (e : PairingEngine) : Prop where
  role : e.config.local_role = .Master
  state : e.state = .Pairing
  peer_mac : e.peer_mac = peer
  unpair : e.unpair_pending = false

/-- The input reports that the pairing failed. -/
def FailsAt (e : PairingEngine) (i : PairingInput) : Prop :=
  ∃ ev ∈ (e.step i).events.drop e.events.length, ev.type = .PairingFailed

end PairingEngine

/-- What an attempt with `peer` can meet: everything but handshake answers of other devices, and calls
that restore or remove a link. -/
def PairingInput.InAttempt (peer : MacAddress) : PairingInput → Prop
  | .pairInitAck sender _ _ => sender = peer
  | .pairConfirmAck sender _ _ => sender = peer
  | .pairBusy sender _ => sender = peer
  | .restore _ => False
  | .removePeer _ _ => False
  | _ => True

namespace PairingEngine

/-- `requestPair` fails, or the attempt it starts goes on until an input fails it. -/
def FailedAttempt (e : PairingEngine) (peer : MacAddress) (corr_id : UInt32)
    (inputs : List PairingInput) : Prop :=
  ((e.requestPair peer corr_id).1 = false ∧ inputs = []) ∨
    ((e.requestPair peer corr_id).1 = true ∧ ∃ before last, inputs = before ++ [last] ∧
      Framework.Admitted step (fun t i => t.state = .Pairing ∧ i.InAttempt peer)
        (e.requestPair peer corr_id).2 inputs ∧
      FailsAt (before.foldl step (e.requestPair peer corr_id).2) last)

/-- The engine after the request and the inputs that follow it. -/
def afterAttempt (e : PairingEngine) (peer : MacAddress) (corr_id : UInt32)
    (inputs : List PairingInput) : PairingEngine :=
  inputs.foldl step (e.requestPair peer corr_id).2

namespace Spares

variable {a : MacAddress} {e t u : PairingEngine}

protected theorem refl (a : MacAddress) (e : PairingEngine) : Spares a e e := ⟨rfl, rfl, rfl, rfl⟩

protected theorem trans (het : Spares a e t) (htu : Spares a t u) : Spares a e u :=
  ⟨htu.config.trans het.config, htu.local_mac.trans het.local_mac,
    htu.attached.trans het.attached, htu.record.trans het.record⟩

theorem of_same (hconfig : t.config = e.config) (hlocal : t.local_mac = e.local_mac)
    (hattached : t.platform.attached a = e.platform.attached a) (hstore : t.store = e.store) :
    Spares a e t :=
  ⟨hconfig, hlocal, hattached, by unfold recordView; rw [hstore, hlocal]⟩

theorem sendControl (h : Spares a e t) (dest : MacAddress) (type : MessageType) (corr_id : UInt32)
    (payload : Bytes) : Spares a e (t.sendControl dest type corr_id payload).2 := by
  obtain ⟨ok, p, m, at_ms, hs, hatt, -⟩ := t.sendControl_cases dest type corr_id payload
  rw [hs]
  exact h.trans (of_same rfl rfl (congrFun hatt a) rfl)

theorem attachPeer (h : Spares a e t) {mac : MacAddress} (hmac : a ≠ mac) (encrypted : Bool)
    (lmk : Option LmkKey) : Spares a e (t.attachPeer mac encrypted lmk).2 :=
  h.trans (of_same rfl rfl (Platform.addPeer_attached_of_ne _ _ _ hmac) rfl)

theorem evictPeer (h : Spares a e t) {mac : MacAddress} (hmac : a ≠ mac) :
    Spares a e (t.evictPeer mac).2 :=
  h.trans (of_same rfl rfl (Platform.removePeer_attached_of_ne _ hmac) rfl)

theorem failPairing (h : Spares a e t) {peer : MacAddress} (hpeer : a ≠ peer) (corr_id : UInt32)
    (msg : String) : Spares a e (t.failPairing peer corr_id msg) := by
  have hemit : Spares a e (t.emit .PairingFailed peer corr_id msg) :=
    h.trans (of_same rfl rfl rfl rfl)
  unfold PairingEngine.failPairing
  dsimp only
  split
  · exact hemit.trans (of_same rfl rfl rfl rfl)
  · exact (hemit.evictPeer hpeer).trans (of_same rfl rfl rfl rfl)

/-- A store operation that keeps clear of the device's record. -/
theorem withStore (h : Spares a e t) {f : PairingStore → PairingStore}
    {K : PairingStore → Set BlobKey} (hf : ∀ s, PairingStore.StoreFrame (K s) s (f s))
    (hk : ∀ s, t.store = some s → s.makeKey .Pair t.local_mac a ∉ K s) :
    Spares a e (t.withStore f) := by
  refine h.trans ⟨rfl, rfl, rfl, ?_⟩
  unfold recordView PairingEngine.withStore
  cases hstore : t.store with
  | none => rfl
  | some s =>
    simp only [Option.map_some, Option.some.injEq, Prod.mk.injEq]
    exact ⟨(hf s).config, by rw [(hf s).makeKey]; exact (hf s).blobs (hk s hstore)⟩

theorem saveChannel (h : Spares a e t) (peer : MacAddress) (channel : UInt8) :
    Spares a e (t.withStore fun s => (s.saveChannel t.local_mac peer channel).2) :=
  h.withStore (fun s => PairingStore.saveChannel_frame s t.local_mac peer channel)
    (fun s _ => by simp [PairingStore.makeKey, PairingStore.blobKey])

/-- Saving the pair of another device writes under other keys. -/
theorem persistPair (h : Spares a e t) (hkeys : t.KeysDiffer a t.peer_mac) :
    Spares a e t.persistPair.2 := by
  unfold PairingEngine.persistPair
  cases hstore : t.store with
  | none => exact h
  | some s =>
    dsimp only
    split
    · exact h
    · have hpair := (PairingStore.savePair_frame s t.pairRecord).1
      have hchannel := PairingStore.saveChannel_frame (s.savePair t.pairRecord).2 t.local_mac
        t.peer_mac t.platform.channel
      refine h.trans ⟨rfl, rfl, rfl, ?_⟩
      unfold recordView
      simp only [hstore, Option.map_some, Option.some.injEq, Prod.mk.injEq]
      refine ⟨hchannel.config.trans hpair.config, ?_⟩
      rw [hchannel.makeKey, hpair.makeKey]
      have hout : s.makeKey .Pair t.local_mac a ≠
          (s.savePair t.pairRecord).2.makeKey .Channel t.local_mac t.peer_mac := by
        simp [PairingStore.makeKey, PairingStore.blobKey]
      rw [hchannel.blobs hout]
      refine hpair.blobs fun hmem => ?_
      rcases hmem with hmem | hmem | hmem
      · exact hkeys s hstore hmem
      · simp [PairingStore.makeKey, PairingStore.pairIndexKey, PairingStore.makeLocalMetaKey,
          PairingStore.blobKey] at hmem
      · simp [PairingStore.makeKey, PairingStore.pairSeqCounterKey, PairingStore.makeLocalMetaKey,
          PairingStore.blobKey] at hmem

end Spares

namespace Quietly

variable {e t u : PairingEngine}

theorem of_same (h : t.events = e.events) : Quietly e t := ⟨[], by simp [h], by simp⟩

protected theorem refl (e : PairingEngine) : Quietly e e := of_same rfl

protected theorem trans (het : Quietly e t) (htu : Quietly t u) : Quietly e u := by
  obtain ⟨new, hnew, hquiet⟩ := het
  obtain ⟨more, hmore, hmoreQuiet⟩ := htu
  refine ⟨new ++ more, by rw [hmore, hnew, List.append_assoc], fun ev hev => ?_⟩
  rcases List.mem_append.mp hev with hev | hev
  · exact hquiet ev hev
  · exact hmoreQuiet ev hev

theorem emit (h : Quietly e t) {type : EventType} (htype : type ≠ .PairingFailed)
    (peer : MacAddress) (corr_id : UInt32) (msg : String) :
    Quietly e (t.emit type peer corr_id msg) :=
  h.trans ⟨[⟨type, peer, corr_id, msg⟩], rfl, by simpa using htype⟩

theorem sendControl (h : Quietly e t) (dest : MacAddress) (type : MessageType) (corr_id : UInt32)
    (payload : Bytes) : Quietly e (t.sendControl dest type corr_id payload).2 := by
  obtain ⟨ok, p, m, at_ms, hs, -⟩ := t.sendControl_cases dest type corr_id payload
  rw [hs]
  exact h.trans (of_same rfl)

theorem not_failsAt {i : PairingInput} (h : Quietly e (e.step i)) : ¬ e.FailsAt i := by
  obtain ⟨new, hnew, hquiet⟩ := h
  rintro ⟨ev, hev, hfailed⟩
  rw [hnew, List.drop_left] at hev
  exact hquiet ev hev hfailed

end Quietly

/-- An attempt with `peer` goes on, or ends without a failure. -/
structure Goes (a peer : MacAddress) (e t : PairingEngine) : Prop where
  quietly : Quietly e t
  keeps : t.state = .Pairing → t.Attempting peer ∧ Spares a e t

/-- A step of an attempt: it goes on, or the failure has dropped the link. -/
def AttemptStep (a peer : MacAddress) (e t : PairingEngine) : Prop :=
  Goes a peer e t ∨ (t.state = .Unpaired ∧ Spares a e t)

section

variable {a peer : MacAddress} {e t u : PairingEngine}

theorem Goes.refl (h : e.Attempting peer) : Goes a peer e e :=
  ⟨.refl e, fun _ => ⟨h, .refl a e⟩⟩

theorem Goes.trans (het : Goes a peer e t) (hstate : t.state = .Pairing) (htu : Goes a peer t u) :
    Goes a peer e u := by
  refine ⟨het.quietly.trans htu.quietly, fun hu => ?_⟩
  obtain ⟨hattempt, hspares⟩ := htu.keeps hu
  exact ⟨hattempt, (het.keeps hstate).2.trans hspares⟩

theorem AttemptStep.failed (h : Spares a e t) {mac : MacAddress} (hmac : mac = peer)
    (hpeer : a ≠ peer) (corr_id : UInt32) (msg : String) :
    AttemptStep a peer e (t.failPairing mac corr_id msg) := by
  subst hmac
  exact .inr ⟨rfl, h.failPairing hpeer corr_id msg⟩

/-- Only timers and the platform's log move. -/
theorem Attempting.of_same (h : e.Attempting peer) (hconfig : t.config = e.config)
    (hstate : t.state = e.state) (hpeer : t.peer_mac = e.peer_mac)
    (hunpair : t.unpair_pending = e.unpair_pending) : t.Attempting peer :=
  ⟨by rw [hconfig]; exact h.role, hstate.trans h.state, hpeer.trans h.peer_mac,
    hunpair.trans h.unpair⟩

theorem Attempting.sendControl (h : t.Attempting peer) (dest : MacAddress) (type : MessageType)
    (corr_id : UInt32) (payload : Bytes) :
    (t.sendControl dest type corr_id payload).2.Attempting peer := by
  obtain ⟨ok, p, m, at_ms, hs, -⟩ := t.sendControl_cases dest type corr_id payload
  rw [hs]
  exact h.of_same rfl rfl rfl rfl

theorem pairDeadline_attempt (h : e.Attempting peer) (hpeer : a ≠ peer) :
    AttemptStep a peer e e.pairDeadline.2 ∧
      (e.pairDeadline.1 = true → e.pairDeadline.2.state = .Pairing) ∧
      (e.pairDeadline.1 = false → e.pairDeadline.2.state = .Unpaired) := by
  unfold pairDeadline
  split
  · rename_i hguard
    have hspares := (Spares.refl a e).sendControl e.peer_mac .PairConfirm e.corr_id
      (pairConfirmPayload e.pairing_nonce)
    have hquiet := (Quietly.refl e).sendControl e.peer_mac .PairConfirm e.corr_id
      (pairConfirmPayload e.pairing_nonce)
    have hsame := h.sendControl e.peer_mac .PairConfirm e.corr_id
      (pairConfirmPayload e.pairing_nonce)
    generalize e.sendControl e.peer_mac .PairConfirm e.corr_id (pairConfirmPayload e.pairing_nonce)
      = answer at hspares hquiet hsame ⊢
    obtain ⟨sent, t⟩ := answer
    cases sent with
    | false =>
      exact ⟨.failed hspares hsame.peer_mac hpeer _ _, by simp, fun _ => rfl⟩
    | true =>
      refine ⟨.inl ⟨?_, fun _ => ⟨?_, ?_⟩⟩, fun _ => hsame.state, by simp⟩
      · exact (hquiet.trans (.of_same rfl)).emit (by simp) _ _ _
      · exact hsame.of_same rfl rfl rfl rfl
      · exact hspares.trans (.of_same rfl rfl rfl rfl)
  · exact ⟨.failed (.refl a e) h.peer_mac hpeer _ _, by simp, fun _ => rfl⟩

theorem tickPairing_attempt (h : e.Attempting peer) (hpeer : a ≠ peer) (now_ms : UInt32) :
    AttemptStep a peer e (e.tickPairing now_ms).2 ∧
      ((e.tickPairing now_ms).1 = true → (e.tickPairing now_ms).2.state = .Pairing) ∧
      ((e.tickPairing now_ms).1 = false → (e.tickPairing now_ms).2.state = .Unpaired) := by
  have hgoes {t : PairingEngine} (hconfig : t.config = e.config) (hlocal : t.local_mac = e.local_mac)
      (hevents : t.events = e.events) (hstate : t.state = e.state) (hmac : t.peer_mac = e.peer_mac)
      (hunpair : t.unpair_pending = e.unpair_pending)
      (hattached : t.platform.attached a = e.platform.attached a) (hstore : t.store = e.store) :
      Goes a peer e t :=
    ⟨.of_same hevents, fun _ => ⟨h.of_same hconfig hstate hmac hunpair,
      .of_same hconfig hlocal hattached hstore⟩⟩
  unfold tickPairing
  rw [if_neg (by simp [h.state])]
  split
  · exact ⟨.inl (hgoes rfl rfl rfl rfl rfl rfl rfl rfl), fun _ => h.state, by simp⟩
  dsimp only
  split
  · have hmarked : Spares a e { e with pair_last_tick_ms := now_ms } := .of_same rfl rfl rfl rfl
    exact ⟨.failed hmarked h.peer_mac hpeer _ _, by simp, fun _ => rfl⟩
  -- the phase timer runs on an engine that differs in its timers only
  generalize hspent : ({ e with pair_last_tick_ms := now_ms } : PairingEngine).spendTotal
    (now_ms - e.pair_last_tick_ms) = spent
  have hmark : Goes a peer e spent := by
    rw [← hspent]
    unfold spendTotal
    split <;> exact hgoes rfl rfl rfl rfl rfl rfl rfl rfl
  have hpairing : spent.state = .Pairing := by
    rw [← hspent]
    unfold spendTotal
    split <;> exact h.state
  obtain ⟨hattempt, hspares⟩ := hmark.keeps hpairing
  unfold spendPhase
  split
  · exact ⟨.inl hmark, fun _ => hpairing, by simp⟩
  split
  · obtain ⟨hstep, hon, hoff⟩ := pairDeadline_attempt hattempt hpeer
    refine ⟨?_, hon, hoff⟩
    rcases hstep with hgo | ⟨hdropped, hkept⟩
    · exact .inl (hmark.trans hpairing hgo)
    · exact .inr ⟨hdropped, hspares.trans hkept⟩
  · have hnext : Goes a peer spent { spent with
        pair_deadline_ms := spent.pair_deadline_ms - (now_ms - e.pair_last_tick_ms) } :=
      ⟨.of_same rfl, fun _ => ⟨hattempt.of_same rfl rfl rfl rfl, .of_same rfl rfl rfl rfl⟩⟩
    exact ⟨.inl (hmark.trans hpairing hnext), fun _ => hpairing, by simp⟩

/-- A step that stays inside the attempt. -/
structure Stays (a peer : MacAddress) (e t : PairingEngine) : Prop where
  quietly : Quietly e t
  attempt : e.Attempting peer → t.Attempting peer
  spares : Spares a e t

namespace Stays

protected theorem refl (a peer : MacAddress) (e : PairingEngine) : Stays a peer e e :=
  ⟨.refl e, id, .refl a e⟩

protected theorem trans (het : Stays a peer e t) (htu : Stays a peer t u) : Stays a peer e u :=
  ⟨het.quietly.trans htu.quietly, htu.attempt ∘ het.attempt, het.spares.trans htu.spares⟩

theorem goes (h : Stays a peer e t) (he : e.Attempting peer) : Goes a peer e t :=
  ⟨h.quietly, fun _ => ⟨h.attempt he, h.spares⟩⟩

theorem of_same (hconfig : t.config = e.config) (hlocal : t.local_mac = e.local_mac)
    (hevents : t.events = e.events) (hstate : t.state = e.state) (hmac : t.peer_mac = e.peer_mac)
    (hunpair : t.unpair_pending = e.unpair_pending)
    (hattached : t.platform.attached a = e.platform.attached a) (hstore : t.store = e.store) :
    Stays a peer e t :=
  ⟨.of_same hevents, fun he => he.of_same hconfig hstate hmac hunpair,
    .of_same hconfig hlocal hattached hstore⟩

theorem emit (h : Stays a peer e t) {type : EventType} (htype : type ≠ .PairingFailed)
    (mac : MacAddress) (corr_id : UInt32) (msg : String) :
    Stays a peer e (t.emit type mac corr_id msg) :=
  ⟨h.quietly.emit htype _ _ _, fun he => (h.attempt he).of_same rfl rfl rfl rfl,
    h.spares.trans (.of_same rfl rfl rfl rfl)⟩

theorem sendControl (h : Stays a peer e t) (dest : MacAddress) (type : MessageType)
    (corr_id : UInt32) (payload : Bytes) :
    Stays a peer e (t.sendControl dest type corr_id payload).2 :=
  ⟨h.quietly.sendControl _ _ _ _, fun he => (h.attempt he).sendControl _ _ _ _,
    h.spares.sendControl _ _ _ _⟩

theorem saveChannel (h : Stays a peer e t) (mac : MacAddress) (channel : UInt8) :
    Stays a peer e (t.withStore fun s => (s.saveChannel t.local_mac mac channel).2) :=
  ⟨h.quietly.trans (.of_same rfl), fun he => (h.attempt he).of_same rfl rfl rfl rfl,
    h.spares.saveChannel mac channel⟩

theorem setChannel (h : Stays a peer e t) {ok : Bool} {platform : Platform} {channel : UInt8}
    (hset : t.platform.setChannel channel = (ok, platform)) :
    Stays a peer e { t with platform := platform } := by
  have hattached := congrFun (Platform.setChannel_attached t.platform channel) a
  rw [hset] at hattached
  exact h.trans (.of_same rfl rfl rfl rfl rfl rfl hattached rfl)

theorem channelIdle (h : Stays a peer e t) : Stays a peer e { t with channel_state := .Idle } :=
  h.trans (.of_same rfl rfl rfl rfl rfl rfl rfl rfl)

end Stays

theorem applySlaveChannel_stays (a peer : MacAddress) (e : PairingEngine) :
    Stays a peer e e.applySlaveChannel.2 := by
  have hrefl := Stays.refl a peer e
  unfold applySlaveChannel
  cases hset : e.platform.setChannel e.pending_channel with
  | mk ok platform =>
    have hplat := hrefl.setChannel hset
    cases ok with
    | false => exact (hplat.emit (by simp) _ _ _).channelIdle
    | true =>
      have hsent := (hplat.saveChannel e.peer_mac e.pending_channel).sendControl e.peer_mac
        .ChannelSwitchCommitAck e.channel_corr_id []
      dsimp only
      split
      · exact hsent.channelIdle.emit (by simp) _ _ _
      · exact hsent.channelIdle

theorem tickChannel_stays (a peer : MacAddress) (e : PairingEngine) (now_ms : UInt32) :
    Stays a peer e (e.tickChannel now_ms).2 := by
  have hrefl := Stays.refl a peer e
  unfold tickChannel
  split
  · exact (hrefl.emit (by simp) _ _ _).channelIdle
  split
  · exact applySlaveChannel_stays a peer e
  split
  · cases hset : e.platform.setChannel e.pending_channel with
    | mk ok platform =>
      have hplat := hrefl.setChannel hset
      cases ok with
      | false => exact (hplat.emit (by simp) _ _ _).channelIdle
      | true => exact hplat
  · exact hrefl

/-- The deferred teardown ends an attempt, but it does not report a failed pairing. -/
theorem tickDeferredCleanup_goes (h : e.Attempting peer) (now_ms : UInt32) :
    Goes a peer e (e.tickDeferredCleanup now_ms) := by
  unfold tickDeferredCleanup
  split
  · split
    · refine Stays.goes ?_ h
      exact .of_same rfl rfl rfl rfl rfl rfl rfl rfl
    · dsimp only
      split
      · refine ⟨⟨[⟨.PairingStep, _, _, "unpaired by request"⟩], rfl, by simp⟩, fun hstate => ?_⟩
        cases hstate
      · refine Stays.goes ?_ h
        exact .of_same rfl rfl rfl rfl rfl rfl rfl rfl
  · exact .refl h

theorem tick_attempt (h : e.Attempting peer) (hpeer : a ≠ peer) (now_ms : UInt32) :
    AttemptStep a peer e (e.tick now_ms).2 := by
  have hclock : Stays a peer e { e with current_now_ms := now_ms } :=
    .of_same rfl rfl rfl rfl rfl rfl rfl rfl
  have hattempt := hclock.attempt h
  have hsilent : ({ e with current_now_ms := now_ms } : PairingEngine).tickDiscovery now_ms =
      { e with current_now_ms := now_ms } := by
    unfold tickDiscovery
    rw [if_neg]
    rintro ⟨hslave, -⟩
    rw [hattempt.role] at hslave
    cases hslave
  unfold tick
  dsimp only
  rw [hsilent]
  obtain ⟨hstep, hon, hoff⟩ := tickPairing_attempt (a := a) hattempt hpeer now_ms
  generalize ({ e with current_now_ms := now_ms } : PairingEngine).tickPairing now_ms = answer
    at hstep hon hoff ⊢
  obtain ⟨ok, t⟩ := answer
  dsimp only at hstep hon hoff
  cases ok with
  | false =>
    rcases hstep with hgo | ⟨hdropped, hspares⟩
    · refine .inl ((hclock.goes h).trans h.state hgo)
    · exact .inr ⟨hdropped, hclock.spares.trans hspares⟩
  | true =>
    have hpairing := hon rfl
    have hgo : Goes a peer e t := by
      rcases hstep with hgo | ⟨hdropped, -⟩
      · exact (hclock.goes h).trans h.state hgo
      · rw [hdropped] at hpairing
        cases hpairing
    obtain ⟨hattemptT, -⟩ := hgo.keeps hpairing
    have hchannel := tickChannel_stays a peer t now_ms
    dsimp only
    generalize t.tickChannel now_ms = switched at hchannel ⊢
    obtain ⟨result, u⟩ := switched
    dsimp only at hchannel
    have hattemptU := hchannel.attempt hattemptT
    have hgoU := hgo.trans hpairing (hchannel.goes hattemptT)
    cases result with
    | some r => exact .inl hgoU
    | none =>
      have hunpair : u.tickUnpair now_ms = u := by
        unfold tickUnpair
        rw [if_neg (by simp [hattemptU.unpair])]
      dsimp only
      rw [hunpair]
      exact .inl (hgoU.trans hattemptU.state (tickDeferredCleanup_goes hattemptU now_ms))

theorem installKey_attempt (h : e.Attempting peer) (hpeer : a ≠ peer) (lmk : LmkKey) :
    Spares a e (e.installKey peer lmk).2 ∧ Quietly e (e.installKey peer lmk).2 ∧
      (e.installKey peer lmk).2.Attempting peer := by
  have hevicted := (Spares.refl a e).evictPeer hpeer
  have hkeyed : Spares a e { (e.evictPeer peer).2 with current_lmk := lmk } :=
    hevicted.trans (.of_same rfl rfl rfl rfl)
  exact ⟨hkeyed.attachPeer hpeer true (some lmk), .of_same rfl, h.of_same rfl rfl rfl rfl⟩

theorem onPairInitAck_attempt (h : e.Attempting peer) (hpeer : a ≠ peer)
    (corr_id pairing_nonce_echo : UInt32) :
    AttemptStep a peer e (e.onPairInitAck peer corr_id pairing_nonce_echo).2 := by
  unfold onPairInitAck
  split
  · exact .inl (.refl h)
  split
  · exact .failed (.refl a e) rfl hpeer _ _
  split
  · exact .failed ((Spares.refl a e).evictPeer hpeer) rfl hpeer _ _
  rename_i lmk _
  obtain ⟨hspares, hquiet, hattempt⟩ := installKey_attempt h hpeer lmk
  generalize e.installKey peer lmk = answer at hspares hquiet hattempt ⊢
  obtain ⟨ok, t⟩ := answer
  cases ok with
  | false => exact .failed hspares rfl hpeer _ _
  | true =>
    refine .inl ⟨(hquiet.trans (.of_same rfl)).emit (by simp) _ _ _, fun _ => ⟨?_, ?_⟩⟩
    · exact hattempt.of_same rfl rfl rfl rfl
    · exact hspares.trans (.of_same rfl rfl rfl rfl)

theorem onPairConfirmAck_attempt (h : e.Attempting peer) (hpeer : a ≠ peer)
    (hkeys : e.KeysDiffer a peer) (corr_id : UInt32) (paired_flag : Bool) :
    AttemptStep a peer e (e.onPairConfirmAck peer corr_id paired_flag).2 := by
  unfold onPairConfirmAck
  split
  · exact .inl (.refl h)
  split
  · exact .failed (.refl a e) rfl hpeer _ _
  have hsecured : Spares a e e.enterSecured.clearNonce := .of_same rfl rfl rfl rfl
  have hkeys' : e.enterSecured.clearNonce.KeysDiffer a e.enterSecured.clearNonce.peer_mac := by
    have hmac : e.enterSecured.clearNonce.peer_mac = peer := h.peer_mac
    rw [hmac]
    exact hkeys
  have hspares := hsecured.persistPair hkeys'
  obtain ⟨ok, store, hsaved, -⟩ := e.enterSecured.clearNonce.persistPair_cases
  rw [hsaved] at hspares ⊢
  cases ok with
  | false => exact .failed (hspares.evictPeer hpeer) rfl hpeer _ _
  | true =>
    refine .inl ⟨⟨[⟨.Paired, peer, corr_id, _⟩], rfl, by simp⟩, fun hstate => ?_⟩
    cases hstate

theorem onPairBusy_attempt (h : e.Attempting peer) (hpeer : a ≠ peer) (corr_id : UInt32) :
    AttemptStep a peer e (e.onPairBusy peer corr_id).2 := by
  unfold onPairBusy
  split
  · exact .inl (.refl h)
  · have hreported : Spares a e (e.emit .PairingFailed peer corr_id "busy_pairing") :=
      .of_same rfl rfl rfl rfl
    exact .inr ⟨rfl, (hreported.evictPeer hpeer).trans (.of_same rfl rfl rfl rfl)⟩

/-- Every input that an attempt can meet keeps it going, ends it without a failure, or fails it. -/
theorem step_attempt (h : e.Attempting peer) (hpeer : a ≠ peer) (hkeys : e.KeysDiffer a peer)
    (i : PairingInput) (hi : i.InAttempt peer) : AttemptStep a peer e (e.step i) := by
  have hnot : ∀ {ok : Bool}, AttemptStep a peer e (ok, e).2 := .inl (.refl h)
  have hmaster : e.config.local_role ≠ .Slave := by simp [h.role]
  cases i with
  | tick now_ms => exact tick_attempt h hpeer now_ms
  | discovery sender corr_id =>
    change AttemptStep a peer e (e.onDiscovery sender corr_id).2
    unfold onDiscovery
    rw [if_pos (.inr (by simp [h.state]))]
    exact hnot
  | pairInit sender corr_id seed nonce =>
    change AttemptStep a peer e (e.onPairInit sender corr_id seed nonce).2
    unfold onPairInit
    rw [if_pos (.inl hmaster)]
    exact hnot
  | pairInitAck sender corr_id echo =>
    cases hi
    exact onPairInitAck_attempt h hpeer corr_id echo
  | pairConfirm sender corr_id echo =>
    change AttemptStep a peer e (e.onPairConfirm sender corr_id echo).2
    unfold onPairConfirm
    rw [if_pos fun hexpects => hmaster hexpects.1]
    exact hnot
  | pairConfirmAck sender corr_id flag =>
    cases hi
    exact onPairConfirmAck_attempt h hpeer hkeys corr_id flag
  | pairBusy sender corr_id =>
    cases hi
    exact onPairBusy_attempt h hpeer corr_id
  | restore record => exact hi.elim
  | requestPair other corr_id =>
    change AttemptStep a peer e (e.requestPair other corr_id).2
    unfold requestPair
    rw [if_neg (by simp [h.role]), if_pos (.inl h.state)]
    exact hnot
  | requestUnpair other corr_id =>
    change AttemptStep a peer e (e.requestUnpair other corr_id).2
    unfold requestUnpair
    rw [if_pos (.inr (.inl (by simp [h.state])))]
    exact hnot
  | unpairRequest sender corr_id =>
    change AttemptStep a peer e (e.onUnpairRequest sender corr_id).2
    unfold onUnpairRequest
    rw [if_pos (by simp [h.state])]
    exact hnot
  | unpairAck sender corr_id =>
    change AttemptStep a peer e (e.onUnpairAck sender corr_id).2
    unfold onUnpairAck
    rw [if_pos (by simp [h.unpair])]
    exact hnot
  | removePeer other erase => exact hi.elim
  | requestChannelSwitch other channel now_ms corr_id =>
    change AttemptStep a peer e (e.requestChannelSwitch other channel now_ms corr_id).2
    unfold requestChannelSwitch
    rw [if_pos (.inr (.inl (by simp [h.state])))]
    exact hnot
  | channelSwitchPrepare sender corr_id payload =>
    change AttemptStep a peer e (e.onChannelSwitchPrepare sender corr_id payload).2
    unfold onChannelSwitchPrepare
    rw [if_pos (.inl hmaster)]
    exact hnot
  | channelSwitchAck sender corr_id =>
    change AttemptStep a peer e (e.onChannelSwitchAck sender corr_id).2
    unfold onChannelSwitchAck
    split
    · exact hnot
    · have hquiet : EventType.PairingStep ≠ .PairingFailed := by decide
      have hstep := (Stays.refl a peer e).emit hquiet sender corr_id "channel switch ack received"
      refine .inl (Stays.goes (hstep.trans ?_) h)
      exact .of_same rfl rfl rfl rfl rfl rfl rfl rfl
  | channelSwitchCommitAck sender corr_id =>
    change AttemptStep a peer e (e.onChannelSwitchCommitAck sender corr_id).2
    unfold onChannelSwitchCommitAck
    split
    · exact hnot
    · have hquiet : EventType.ChannelSwitchCommitted ≠ .PairingFailed := by decide
      have hstep := ((Stays.refl a peer e).saveChannel sender e.pending_channel).emit hquiet sender
        corr_id "master switch confirmed"
      exact .inl (hstep.channelIdle.goes h)

theorem drawSecrets_stays (a peer : MacAddress) (e : PairingEngine) :
    Stays a peer e e.drawSecrets := by
  have hseed : (makePairSeed e.platform).2.attached = e.platform.attached := by
    unfold makePairSeed
    dsimp only
    split <;> rfl
  unfold drawSecrets
  generalize makePairSeed e.platform = seed at hseed ⊢
  exact .of_same rfl rfl rfl rfl rfl rfl (congrFun hseed a) rfl

/-- The request itself: it starts an attempt, or its failure has dropped the link. -/
theorem requestPair_attempt (hrole : e.config.local_role = .Master)
    (hidle : ¬ (e.state = .Pairing ∨ e.unpair_pending = true)) (hpeer : a ≠ peer)
    (corr_id : UInt32) :
    ((e.requestPair peer corr_id).1 = true ∧ (e.requestPair peer corr_id).2.Attempting peer ∧
        Spares a e (e.requestPair peer corr_id).2) ∨
      ((e.requestPair peer corr_id).1 = false ∧ (e.requestPair peer corr_id).2.state = .Unpaired ∧
        Spares a e (e.requestPair peer corr_id).2) := by
  have hbegin : Spares a e (e.beginMasterAttempt peer corr_id) := .of_same rfl rfl rfl rfl
  have hattempt : (e.beginMasterAttempt peer corr_id).Attempting peer := by
    simp only [not_or, Bool.not_eq_true] at hidle
    exact ⟨hrole, rfl, rfl, hidle.2⟩
  unfold requestPair
  rw [if_neg (by simp [hrole]), if_neg hidle]
  have hattached := hbegin.attachPeer hpeer false none
  have hopen : ((e.beginMasterAttempt peer corr_id).attachPeer peer false none).2.Attempting peer :=
    hattempt.of_same rfl rfl rfl rfl
  generalize (e.beginMasterAttempt peer corr_id).attachPeer peer false none = opened
    at hattached hopen ⊢
  obtain ⟨ok, t⟩ := opened
  cases ok with
  | false => exact .inr ⟨rfl, rfl, hattached.failPairing hpeer _ _⟩
  | true =>
    dsimp only at hattached hopen ⊢
    have hquiet : EventType.PairingStarted ≠ .PairingFailed := by decide
    have hdrawn := (drawSecrets_stays a peer t).emit hquiet peer corr_id "pair_init_tx_unsecure"
    generalize t.drawSecrets.emit .PairingStarted peer corr_id "pair_init_tx_unsecure" = ready
      at hdrawn ⊢
    have hready := hdrawn.attempt hopen
    have hspares := (hattached.trans hdrawn.spares).sendControl peer .PairInit corr_id
      (pairInitPayload ready.current_seed ready.pairing_nonce 0)
    have hsent := hready.sendControl peer .PairInit corr_id
      (pairInitPayload ready.current_seed ready.pairing_nonce 0)
    generalize ready.sendControl peer .PairInit corr_id
      (pairInitPayload ready.current_seed ready.pairing_nonce 0) = answer at hspares hsent ⊢
    obtain ⟨sent, u⟩ := answer
    cases sent with
    | false => exact .inr ⟨rfl, rfl, hspares.failPairing hpeer _ _⟩
    | true => exact .inl ⟨rfl, hsent, hspares⟩

end

theorem FailsAt.of_step {a peer : MacAddress} {e : PairingEngine} {i : PairingInput}
    (hfails : e.FailsAt i) (hstep : AttemptStep a peer e (e.step i)) :
    (e.step i).state = .Unpaired ∧ Spares a e (e.step i) := by
  rcases hstep with hgo | hdropped
  · exact absurd hfails hgo.quietly.not_failsAt
  · exact hdropped

theorem KeysDiffer.of_spares {a peer : MacAddress} {e t : PairingEngine} (h : e.KeysDiffer a peer)
    (hspares : Spares a e t) : t.KeysDiffer a peer := by
  intro u hu
  have hrecord := hspares.record
  unfold recordView at hrecord
  rw [hu] at hrecord
  cases hstore : e.store with
  | none => simp [hstore] at hrecord
  | some s =>
    simp only [hstore, Option.map_some, Option.some.injEq, Prod.mk.injEq] at hrecord
    have hdiffer := h s hstore
    simpa only [PairingStore.makeKey, hrecord.1, hspares.local_mac] using hdiffer

/-- A run of an attempt up to the input that fails it. -/
theorem attempt_run {a peer : MacAddress} (hpeer : a ≠ peer) (before : List PairingInput)
    {e : PairingEngine} (h : e.Attempting peer) (hkeys : e.KeysDiffer a peer) (last : PairingInput)
    (hrun : Framework.Admitted step (fun t i => t.state = .Pairing ∧ i.InAttempt peer) e
      (before ++ [last]))
    (hfails : FailsAt (before.foldl step e) last) :
    ((before ++ [last]).foldl step e).state = .Unpaired ∧
      Spares a e ((before ++ [last]).foldl step e) := by
  induction before generalizing e with
  | nil =>
    obtain ⟨⟨-, hi⟩, -⟩ := hrun
    exact hfails.of_step (step_attempt h hpeer hkeys last hi)
  | cons i is ih =>
    obtain ⟨⟨-, hi⟩, hrest⟩ := hrun
    have hpairing : (e.step i).state = .Pairing := by
      cases is with
      | nil => exact hrest.1.1
      | cons j js => exact hrest.1.1
    rcases step_attempt h hpeer hkeys i hi with hgo | ⟨hdropped, -⟩
    · obtain ⟨hattempt, hspares⟩ := hgo.keeps hpairing
      obtain ⟨hstate, hkept⟩ := ih hattempt (hkeys.of_spares hspares) hrest hfails
      exact ⟨hstate, hspares.trans hkept⟩
    · rw [hdropped] at hpairing
      cases hpairing

theorem storedPair_eq (e : PairingEngine) (peer : MacAddress) :
    e.storedPair peer = (e.recordView peer).bind fun view => view.2.bind pairOfBlob := by
  unfold storedPair recordView
  cases e.store <;> rfl

/-- The link with `a` is no longer active in `t`; what makes it up is as it was in `e`, and it can be
taken up again from its record. -/
structure LinkSuspended (a : MacAddress) (e t : PairingEngine) : Prop where
  state : t.state = .Unpaired
  attached : t.platform.attached a = e.platform.attached a
  record : t.storedPair a = e.storedPair a
  unpair_refused : ∀ corr_id, t.requestUnpair a corr_id = (false, t)
  switch_refused : ∀ channel now_ms corr_id,
    t.requestChannelSwitch a channel now_ms corr_id = (false, t)
  resumes : ∀ record, record.peer_mac = a → (t.restorePairedLink record).1 = true →
    (t.restorePairedLink record).2.state = .Secured ∧
      (t.restorePairedLink record).2.peer_mac = a ∧
      (t.restorePairedLink record).2.current_lmk = record.lmk

theorem LinkSuspended.of_spares {a : MacAddress} {e t : PairingEngine} (hstate : t.state = .Unpaired)
    (h : Spares a e t) : LinkSuspended a e t where
  state := hstate
  attached := h.attached
  record := by rw [storedPair_eq, storedPair_eq, h.record]
  unpair_refused := by
    intro corr_id
    unfold requestUnpair
    rw [if_pos (.inr (.inl (by simp [hstate])))]
  switch_refused := by
    intro channel now_ms corr_id
    unfold requestChannelSwitch
    rw [if_pos (.inr (.inl (by simp [hstate])))]
  resumes := by
    intro record hpeer
    unfold restorePairedLink
    split
    · simp
    generalize t.platform.setChannel record.channel = switched
    obtain ⟨ok, p⟩ := switched
    cases ok with
    | false => simp
    | true =>
      dsimp only
      obtain ⟨ok, q, ha, -⟩ := (t.withPlatform p).attachPeer_cases record.peer_mac true
        (some record.lmk)
      rw [ha]
      cases ok with
      | false => simp
      | true => exact fun _ => ⟨rfl, hpeer, rfl⟩

/-- A request that its guard refuses changes nothing. Any other failure of an attempt with `peer` leaves
the engine unpaired, with the attachment and the record of the former peer as they were. -/
theorem failed_attempt_spares_link (e : PairingEngine) (hrole : e.config.local_role = .Master)
    (hsecured : e.state = .Secured) {peer : MacAddress} (hpeer : peer ≠ e.peer_mac)
    (hkeys : e.KeysDiffer e.peer_mac peer) (corr_id : UInt32) (inputs : List PairingInput)
    (hfailed : e.FailedAttempt peer corr_id inputs) :
    (e.unpair_pending = true → e.afterAttempt peer corr_id inputs = e) ∧
      (e.unpair_pending = false →
        LinkSuspended e.peer_mac e (e.afterAttempt peer corr_id inputs)) := by
  unfold afterAttempt
  constructor
  · intro hpending
    have hrefused : e.requestPair peer corr_id = (false, e) := by
      unfold requestPair
      rw [if_neg (by simp [hrole]), if_pos (.inr hpending)]
    rcases hfailed with ⟨-, rfl⟩ | ⟨hstarted, -⟩
    · rw [hrefused]
      rfl
    · rw [hrefused] at hstarted
      cases hstarted
  · intro hfree
    have hidle : ¬ (e.state = .Pairing ∨ e.unpair_pending = true) := by simp [hsecured, hfree]
    have hrequest := requestPair_attempt hrole hidle hpeer.symm corr_id
    rcases hfailed with ⟨hrefused, rfl⟩ | ⟨hstarted, before, last, rfl, hrun, hfails⟩
    · rcases hrequest with ⟨hok, -⟩ | ⟨-, hstate, hspares⟩
      · rw [hrefused] at hok
        cases hok
      · exact .of_spares hstate hspares
    · rcases hrequest with ⟨-, hattempt, hspares⟩ | ⟨hno, -⟩
      · obtain ⟨hstate, hkept⟩ := attempt_run hpeer.symm before hattempt (hkeys.of_spares hspares)
          last hrun hfails
        exact .of_spares hstate (hspares.trans hkept)
      · rw [hstarted] at hno
        cases hno

end PairingEngine

namespace PairingExample

open PairingEngine

/-- The master after its handshake with `mac 2`. -/
def linked : PairingEngine := (handshake (mac 2)).foldl step master

/-- An attempt that nobody answers. -/
def unanswered : List PairingInput := [.tick 500, .tick 1800]

theorem unanswered_fails : linked.FailedAttempt (mac 3) 9 unanswered := by
  refine .inr ⟨by decide +kernel, [.tick 500], .tick 1800, rfl, ⟨⟨?_, trivial⟩, ⟨?_, trivial⟩, trivial⟩,
    ?_⟩
  · decide +kernel
  · decide +kernel
  · unfold FailsAt
    decide +kernel

theorem linked_keys_differ : linked.KeysDiffer (mac 2) (mac 3) := by
  intro s hs
  have hschema : linked.store.map (·.config.schema_version) = some 1 := by decide +kernel
  have hlocal : linked.local_mac = mac 1 := by decide +kernel
  rw [hs] at hschema
  simp only [Option.map_some, Option.some.injEq] at hschema
  simp only [PairingStore.makeKey, hschema, hlocal]
  decide +kernel

theorem unanswered_attempt_suspends :
    LinkSuspended (mac 2) linked (linked.afterAttempt (mac 3) 9 unanswered) := by
  have hpeer : linked.peer_mac = mac 2 := by decide +kernel
  have hrun := failed_attempt_spares_link linked (by decide +kernel) (by decide +kernel)
    (by rw [hpeer]; decide) (by rw [hpeer]; exact linked_keys_differ) 9 unanswered unanswered_fails
  rw [← hpeer]
  exact hrun.2 (by decide +kernel)

/-- A master that is linked with `mac 2` loses its link to an attempt with `mac 3` that nobody answers. -/
theorem unanswered_attempt_loses_link :
    linked.state = .Secured ∧ linked.peer_mac = mac 2 ∧
      linked.FailedAttempt (mac 3) 9 unanswered ∧
      (linked.afterAttempt (mac 3) 9 unanswered).state = .Unpaired ∧
      (linked.afterAttempt (mac 3) 9 unanswered).peer_mac = mac 3 := by
  refine ⟨?_, ?_, unanswered_fails, ?_, ?_⟩
  all_goals decide +kernel

end PairingExample

end EspNowLink
