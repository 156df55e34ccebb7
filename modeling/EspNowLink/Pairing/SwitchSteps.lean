import EspNowLink.Pairing.ChannelSwitch

namespace EspNowLink

open Framework

namespace PairingEngine

variable {e t u : PairingEngine}

/-- Between two states of an engine it reported only events of the types. -/
def ReportsOnly (P : EventType → Prop) (e t : PairingEngine) : Prop :=
  ∃ new, t.events = e.events ++ new ∧ ∀ ev ∈ new, P ev.type

namespace ReportsOnly

variable {P Q : EventType → Prop}

theorem nothing (h : t.events = e.events) : ReportsOnly P e t := ⟨[], by simp [h], by simp⟩

theorem one {type : EventType} {peer : MacAddress} {corr_id : UInt32} {msg : String} (hP : P type)
    (h : t.events = e.events ++ [⟨type, peer, corr_id, msg⟩]) : ReportsOnly P e t :=
  ⟨_, h, fun ev hev => by rwa [List.mem_singleton.mp hev]⟩

theorem mono (h : ReportsOnly P e t) (hPQ : ∀ type, P type → Q type) : ReportsOnly Q e t := by
  obtain ⟨new, hevents, hnew⟩ := h
  exact ⟨new, hevents, fun ev hev => hPQ _ (hnew ev hev)⟩

theorem trans (h : ReportsOnly P e t) (h' : ReportsOnly P t u) : ReportsOnly P e u := by
  obtain ⟨new, hevents, hnew⟩ := h
  obtain ⟨new', hevents', hnew'⟩ := h'
  refine ⟨new ++ new', by rw [hevents', hevents, List.append_assoc], ?_⟩
  intro ev hev
  rcases List.mem_append.mp hev with hev | hev
  · exact hnew ev hev
  · exact hnew' ev hev

theorem not_reports (h : ReportsOnly P e t) {type : EventType} (htype : ¬ P type) : ¬ Reports type e t := by
  obtain ⟨new, hevents, hnew⟩ := h
  rintro ⟨ev, hev, rfl⟩
  rw [hevents, List.drop_left] at hev
  exact htype (hnew ev hev)

end ReportsOnly

/-- What a step outside the channel switch leaves alone. -/
structure Idly (e t : PairingEngine) : Prop where
  config : t.config = e.config
  local_mac : t.local_mac = e.local_mac
  unpairing : e.state ≠ .Pairing → t.state ≠ .Pairing
  channel_state : t.channel_state = e.channel_state
  pending_channel : t.pending_channel = e.pending_channel
  channel_corr_id : t.channel_corr_id = e.channel_corr_id
  channel : t.platform.channel = e.platform.channel
  emits : e.Emits t fun f => f.header.type.isChannelSwitch = false
  reports : ReportsOnly (· = .PairingStep) e t

namespace Idly

protected theorem refl (e : PairingEngine) : Idly e e :=
  ⟨rfl, rfl, id, rfl, rfl, rfl, rfl, .nil rfl, .nothing rfl⟩

protected theorem trans (h : Idly e t) (h' : Idly t u) : Idly e u where
  config := h'.config.trans h.config
  local_mac := h'.local_mac.trans h.local_mac
  unpairing := h'.unpairing ∘ h.unpairing
  channel_state := h'.channel_state.trans h.channel_state
  pending_channel := h'.pending_channel.trans h.pending_channel
  channel_corr_id := h'.channel_corr_id.trans h.channel_corr_id
  channel := h'.channel.trans h.channel
  emits := h.emits.trans h'.emits
  reports := h.reports.trans h'.reports

/-- A change of what the switch does not look at. -/
theorem of_rest (hconfig : t.config = e.config) (hmac : t.local_mac = e.local_mac)
    (hstate : t.state = e.state) (hswitch : t.channel_state = e.channel_state)
    (hpending : t.pending_channel = e.pending_channel) (hcorr : t.channel_corr_id = e.channel_corr_id)
    (hplatform : t.platform = e.platform) (hevents : t.events = e.events) : Idly e t where
  config := hconfig
  local_mac := hmac
  unpairing := by
    rw [hstate]
    exact id
  channel_state := hswitch
  pending_channel := hpending
  channel_corr_id := hcorr
  channel := by rw [hplatform]
  emits := .nil (by rw [hplatform])
  reports := .nothing hevents

theorem sendControl (h : Idly e t) (dest : MacAddress) {type : MessageType}
    (htype : type.isChannelSwitch = false) (corr_id : UInt32) (payload : Bytes) :
    Idly e (t.sendControl dest type corr_id payload).2 := by
  have hemits : t.Emits (t.sendControl dest type corr_id payload).2
      fun f => f.header.type.isChannelSwitch = false := by
    rcases t.sendControl_sent dest type corr_id payload with ⟨-, hnone⟩ | ⟨-, f, hone, -, hf, -⟩
    · exact .nil hnone
    · refine ⟨[f], hone, fun g hg => ?_⟩
      obtain rfl := List.mem_singleton.mp hg
      exact (congrArg _ hf).trans htype
  obtain ⟨ok, p, m, a, hs, -, hchannel⟩ := t.sendControl_cases dest type corr_id payload
  rw [hs] at hemits ⊢
  exact h.trans ⟨rfl, rfl, id, rfl, rfl, rfl, hchannel, hemits, .nothing rfl⟩

theorem emitStep (h : Idly e t) (peer : MacAddress) (corr_id : UInt32) (msg : String) :
    Idly e (t.emit .PairingStep peer corr_id msg) :=
  h.trans ⟨rfl, rfl, id, rfl, rfl, rfl, rfl, .nil rfl, .one rfl rfl⟩

theorem evictPeer (h : Idly e t) (mac : MacAddress) : Idly e (t.evictPeer mac).2 :=
  h.trans ⟨rfl, rfl, id, rfl, rfl, rfl, Platform.removePeer_channel _ _,
    .nil (Platform.removePeer_sent _ _), .nothing rfl⟩

theorem withStore (h : Idly e t) (f : PairingStore → PairingStore) : Idly e (t.withStore f) :=
  h.trans (of_rest rfl rfl rfl rfl rfl rfl rfl rfl)

theorem unpaired (h : Idly e t) : Idly e (t.setPaired false).resetPairing :=
  h.trans ⟨rfl, rfl, fun _ => by simp, rfl, rfl, rfl, rfl, .nil rfl, .nothing rfl⟩

end Idly

theorem tickDiscovery_idly (e : PairingEngine) (now_ms : UInt32) :
    Idly e (e.tickDiscovery now_ms) := by
  unfold tickDiscovery
  split
  · refine Idly.sendControl ?_ _ rfl _ _
    exact .of_rest rfl rfl rfl rfl rfl rfl rfl rfl
  · exact .refl e

theorem tickUnpair_idly (e : PairingEngine) (now_ms : UInt32) : Idly e (e.tickUnpair now_ms) := by
  unfold tickUnpair
  split
  · split
    · exact .of_rest rfl rfl rfl rfl rfl rfl rfl rfl
    · dsimp only
      split
      · refine Idly.emitStep ?_ _ _ _
        exact .of_rest rfl rfl rfl rfl rfl rfl rfl rfl
      · exact .of_rest rfl rfl rfl rfl rfl rfl rfl rfl
  · exact .refl e

theorem deferredCleanup_idly (e : PairingEngine) : Idly e e.deferredCleanup := by
  have hforget : Idly e (e.forgetPeer e.deferred_unpair_peer) := (Idly.refl e).withStore _
  have hunpaired := (hforget.evictPeer e.deferred_unpair_peer).unpaired
  exact hunpaired.trans ⟨rfl, rfl, id, rfl, rfl, rfl, rfl, .nil rfl, .one rfl rfl⟩

theorem tickDeferredCleanup_idly (e : PairingEngine) (now_ms : UInt32) :
    Idly e (e.tickDeferredCleanup now_ms) := by
  have htick : Idly e { e with deferred_unpair_last_tick_ms := now_ms } :=
    .of_rest rfl rfl rfl rfl rfl rfl rfl rfl
  unfold tickDeferredCleanup
  split
  · split
    · exact htick
    · dsimp only
      split
      · exact htick.trans (deferredCleanup_idly _)
      · exact .of_rest rfl rfl rfl rfl rfl rfl rfl rfl
  · exact .refl e

/-- A tick that is not in an attempt has no timers of one. -/
theorem tickPairing_idle (h : e.state ≠ .Pairing) (now_ms : UInt32) : e.tickPairing now_ms = (true, e) := by
  rw [tickPairing, if_pos h]

/-- A step at the end of which no switch is open. -/
structure Ended (channel : UInt8) (P : SentFrame → Prop) (e t : PairingEngine) : Prop where
  config : t.config = e.config
  local_mac : t.local_mac = e.local_mac
  unpairing : e.state ≠ .Pairing → t.state ≠ .Pairing
  idle : t.channel_state = .Idle
  channel : t.platform.channel = channel
  emits : e.Emits t P

theorem Ended.emit {channel : UInt8} {P : SentFrame → Prop} (h : Ended channel P e t) (type : EventType)
    (peer : MacAddress) (corr_id : UInt32) (msg : String) : Ended channel P e (t.emit type peer corr_id msg) :=
  ⟨h.config, h.local_mac, h.unpairing, h.idle, h.channel, h.emits⟩

theorem Idly.ended (h : Idly e t) {channel : UInt8} {P : SentFrame → Prop} (h' : Ended channel P t u)
    (hP : ∀ f, f.header.type.isChannelSwitch = false → P f) : Ended channel P e u where
  config := h'.config.trans h.config
  local_mac := h'.local_mac.trans h.local_mac
  unpairing := h'.unpairing ∘ h.unpairing
  idle := h'.idle
  channel := h'.channel
  emits := (h.emits.mono hP).trans h'.emits

/-- The frame is no message of a switch. -/
def Unrelated (f : SentFrame) : Prop := f.header.type.isChannelSwitch = false

/-- The engine with its radio on the channel. -/
def onChannel (e : PairingEngine) (channel : UInt8) : PairingEngine :=
  { e with platform := { e.platform with channel := channel } }

theorem setChannel_cases (p : Platform) (channel : UInt8) :
    ((p.setChannel channel).1 = true ∧ (p.setChannel channel).2.channel = channel) ∨
      ((p.setChannel channel).1 = false ∧ (p.setChannel channel).2.channel = p.channel) := by
  unfold Platform.setChannel
  split
  · exact .inl ⟨rfl, rfl⟩
  · exact .inr ⟨rfl, rfl⟩

/-- The engine as it enters a tick. -/
def clocked (e : PairingEngine) (now_ms : UInt32) : PairingEngine := { e with current_now_ms := now_ms }

theorem clocked_idly (e : PairingEngine) (now_ms : UInt32) : Idly e (e.clocked now_ms) :=
  .of_rest rfl rfl rfl rfl rfl rfl rfl rfl

/-- A tick in which the switch ends. -/
theorem tick_of_result {d : PairingEngine} {now_ms : UInt32} {result : Bool}
    (hpairing : ((e.clocked now_ms).tickDiscovery now_ms).tickPairing now_ms = (true, d))
    (hchannel : d.tickChannel now_ms = (some result, t)) : e.tick now_ms = (result, t) := by
  have hpairing : (({ e with current_now_ms := now_ms } : PairingEngine).tickDiscovery now_ms).tickPairing
      now_ms = (true, d) := hpairing
  rw [tick, hpairing]
  dsimp only
  rw [hchannel]

/-- A tick in which the switch goes on. -/
theorem tick_of_none {d : PairingEngine} {now_ms : UInt32}
    (hpairing : ((e.clocked now_ms).tickDiscovery now_ms).tickPairing now_ms = (true, d))
    (hchannel : d.tickChannel now_ms = (none, t)) :
    e.tick now_ms = (true, (t.tickUnpair now_ms).tickDeferredCleanup now_ms) := by
  have hpairing : (({ e with current_now_ms := now_ms } : PairingEngine).tickDiscovery now_ms).tickPairing
      now_ms = (true, d) := hpairing
  rw [tick, hpairing]
  dsimp only
  rw [hchannel]

section MasterTick

/-- A master that is not in an attempt comes to its switch as it entered the tick. -/
theorem master_before (hrole : e.config.local_role = .Master) (hstate : e.state ≠ .Pairing) (now_ms : UInt32) :
    ((e.clocked now_ms).tickDiscovery now_ms).tickPairing now_ms = (true, e.clocked now_ms) := by
  have hdiscovery : (e.clocked now_ms).tickDiscovery now_ms = e.clocked now_ms := by
    rw [tickDiscovery, if_neg]
    rintro ⟨hslave, -⟩
    have hmaster : (e.clocked now_ms).config.local_role = .Master := hrole
    rw [hmaster] at hslave
    cases hslave
  have hclocked : (e.clocked now_ms).state ≠ .Pairing := hstate
  rw [hdiscovery, tickPairing_idle hclocked]

/-- What the switch does in a tick of a master. -/
theorem masterTick_channel (hswitch : e.channel_state ≠ .SlavePrepared) (now_ms : UInt32) :
    (e.SwitchFails now_ms ∧ ∃ t, (e.clocked now_ms).tickChannel now_ms = (some false, t) ∧
        Ended e.platform.channel Unrelated e t ∧ t.store = e.store ∧
        ReportsOnly (· ≠ .ChannelSwitchCommitted) e t) ∨
    (¬ e.SwitchFails now_ms ∧ ∃ t, (e.clocked now_ms).tickChannel now_ms = (none, t) ∧
      Idly (e.onChannel (if e.MasterDue now_ms then e.pending_channel else e.platform.channel)) t ∧
      t.store = e.store ∧ t.deferred_unpair_peer = e.deferred_unpair_peer) := by
  by_cases hexpired : e.channel_state ≠ .Idle ∧ e.SwitchExpired now_ms
  · have hbranch : (e.clocked now_ms).tickChannel now_ms = (some false,
        { (e.clocked now_ms).emit .ChannelSwitchFailed e.peer_mac e.channel_corr_id
          "channel switch timeout" with channel_state := .Idle }) := by
      rw [tickChannel]
      exact if_pos ⟨hexpired.1, hexpired.2.1, hexpired.2.2⟩
    refine .inl ⟨⟨hexpired.1, .inl hexpired.2⟩, _, hbranch, ?_, rfl, .one (by simp) rfl⟩
    exact ⟨rfl, rfl, id, rfl, rfl, .nil rfl⟩
  · have hlive : ¬ ((e.clocked now_ms).channel_state ≠ .Idle ∧ (e.clocked now_ms).channel_deadline_ms ≠ 0 ∧
        now_ms > (e.clocked now_ms).channel_deadline_ms) :=
      fun h => hexpired ⟨h.1, h.2.1, h.2.2⟩
    have hmaster : ¬ ((e.clocked now_ms).channel_state = .SlavePrepared ∧
        now_ms ≥ (e.clocked now_ms).channel_effective_at_ms) := fun h => hswitch h.1
    by_cases hdue : e.MasterDue now_ms
    · have hopen : e.channel_state ≠ .Idle := by
        rw [hdue.1]
        decide
      have hdue' : (e.clocked now_ms).channel_state = .MasterWaitCommit ∧
          now_ms ≥ (e.clocked now_ms).channel_effective_at_ms := hdue
      have hsent := Platform.setChannel_sent e.platform e.pending_channel
      have hradio := setChannel_cases e.platform e.pending_channel
      rcases hset : e.platform.setChannel e.pending_channel with ⟨ok, p⟩
      rw [hset] at hradio hsent
      have hset' : (e.clocked now_ms).platform.setChannel (e.clocked now_ms).pending_channel = (ok, p) := hset
      cases ok with
      | false =>
        have hbranch : (e.clocked now_ms).tickChannel now_ms = (some false,
            { ((e.clocked now_ms).withPlatform p).emit .ChannelSwitchFailed e.peer_mac e.channel_corr_id
              "master channel apply failed" with channel_state := .Idle }) := by
          rw [tickChannel, if_neg hlive, if_neg hmaster, if_pos hdue', hset']
          rfl
        obtain ⟨hno, -⟩ | ⟨-, hchannel⟩ := hradio
        · cases hno
        · refine .inl ⟨⟨hopen, .inr ⟨hdue, by rw [hset]⟩⟩, _, hbranch, ?_, rfl, .one (by simp) rfl⟩
          exact ⟨rfl, rfl, id, rfl, hchannel, .nil hsent⟩
      | true =>
        have hbranch : (e.clocked now_ms).tickChannel now_ms =
            (none, (e.clocked now_ms).withPlatform p) := by
          rw [tickChannel, if_neg hlive, if_neg hmaster, if_pos hdue', hset']
          rfl
        obtain ⟨-, hchannel⟩ | ⟨hno, -⟩ := hradio
        · refine .inr ⟨?_, _, hbranch, ?_, rfl, rfl⟩
          · rintro ⟨-, hfails⟩
            rcases hfails with hdead | ⟨-, hrefused⟩
            · exact hexpired ⟨hopen, hdead⟩
            · rw [hset] at hrefused
              cases hrefused
          · rw [if_pos hdue]
            exact ⟨rfl, rfl, id, rfl, rfl, rfl, hchannel, .nil hsent, .nothing rfl⟩
        · cases hno
    · have hbranch : (e.clocked now_ms).tickChannel now_ms = (none, e.clocked now_ms) := by
        rw [tickChannel, if_neg hlive, if_neg hmaster]
        exact if_neg fun h => hdue ⟨h.1, h.2⟩
      refine .inr ⟨?_, _, hbranch, ?_, rfl, rfl⟩
      · rintro ⟨hopen, hfails⟩
        rcases hfails with hdead | ⟨hmoves, -⟩
        · exact hexpired ⟨hopen, hdead⟩
        · exact hdue hmoves
      · rw [if_neg hdue]
        exact .of_rest rfl rfl rfl rfl rfl rfl rfl rfl

theorem tickUnpair_keeps (e : PairingEngine) (now_ms : UInt32) : (e.tickUnpair now_ms).store = e.store ∧
    (e.tickUnpair now_ms).deferred_unpair_peer = e.deferred_unpair_peer := by
  unfold tickUnpair
  split
  · split
    · exact ⟨rfl, rfl⟩
    · dsimp only
      split <;> exact ⟨rfl, rfl⟩
  · exact ⟨rfl, rfl⟩

/-- Only a teardown that is due touches the store. -/
theorem tickDeferredCleanup_store (e : PairingEngine) (now_ms : UInt32) :
    (e.tickDeferredCleanup now_ms).store =
      if e.CleanupDue now_ms then (e.forgetPeer e.deferred_unpair_peer).store else e.store := by
  unfold tickDeferredCleanup
  by_cases hflag : e.deferred_unpair_cleanup = true ∧ e.deferred_unpair_deadline_ms ≠ 0
  · rw [if_pos hflag]
    by_cases hfirst : e.deferred_unpair_last_tick_ms = 0
    · rw [if_pos hfirst, if_neg fun h => h.2.2.1 hfirst]
    · rw [if_neg hfirst]
      dsimp only
      by_cases hover : now_ms - e.deferred_unpair_last_tick_ms ≥ e.deferred_unpair_deadline_ms
      · rw [if_pos hover, if_pos ⟨hflag.1, hflag.2, hfirst, hover⟩]
        rfl
      · rw [if_neg hover, if_neg fun h => hover h.2.2.2]
  · rw [if_neg hflag, if_neg fun h => hflag ⟨h.1, h.2.1⟩]

theorem storedChannel_eq (hstore : t.store = e.store) (hmac : t.local_mac = e.local_mac) (peer : MacAddress) :
    t.storedChannel peer = e.storedChannel peer := by
  rw [storedChannel, storedChannel, hstore, hmac]

/-- Forgetting a peer leaves the channels alone that are stored under other keys. -/
theorem storedChannel_forgetPeer {forgotten peer : MacAddress}
    (h : (e.store.any fun s => s.makeKey .Channel e.local_mac forgotten = s.makeKey .Channel e.local_mac peer) ≠
      true) :
    (e.forgetPeer forgotten).storedChannel peer = e.storedChannel peer := by
  cases hstore : e.store with
  | none => simp [storedChannel, forgetPeer, withStore, hstore]
  | some s =>
    have hkey : s.makeKey .Channel e.local_mac forgotten ≠ s.makeKey .Channel e.local_mac peer := by
      simpa [hstore] using h
    have hframe := forgetPeer_frame s e.local_mac forgotten
    have hclear : s.makeKey .Channel e.local_mac peer ∉ ({s.makeKey .Pair e.local_mac forgotten,
        s.pairIndexKey e.local_mac, s.makeKey .Channel e.local_mac forgotten} : Set BlobKey) := by
      rintro (hk | hk | hk)
      · simp [PairingStore.makeKey, PairingStore.blobKey] at hk
      · simp [PairingStore.makeKey, PairingStore.pairIndexKey, PairingStore.makeLocalMetaKey,
          PairingStore.blobKey] at hk
      · exact hkey hk.symm
    have hblob := hframe.blobs hclear
    have hsame := hframe.makeKey .Channel e.local_mac peer
    have hmac : (e.forgetPeer forgotten).local_mac = e.local_mac := rfl
    have hnew : (e.forgetPeer forgotten).store =
        some (((s.erasePair e.local_mac forgotten).2.eraseChannel e.local_mac forgotten).2) := by
      simp [forgetPeer, withStore, hstore]
    rw [storedChannel, storedChannel, hnew, hstore, hmac, Option.bind_some, Option.bind_some, hsame, hblob]

/-- A tick of a master that is not in an attempt: the switch fails, and nothing else happens, or the
engine goes on, on the channel of the switch if that is due. -/
theorem masterTick_cases (hrole : e.config.local_role = .Master) (hstate : e.state ≠ .Pairing)
    (hswitch : e.channel_state ≠ .SlavePrepared) (now_ms : UInt32) :
    (e.SwitchFails now_ms ∧ Ended e.platform.channel Unrelated e (e.tick now_ms).2 ∧
      (e.tick now_ms).2.store = e.store ∧
      ReportsOnly (· ≠ .ChannelSwitchCommitted) e (e.tick now_ms).2) ∨
    (¬ e.SwitchFails now_ms ∧
      Idly (e.onChannel (if e.MasterDue now_ms then e.pending_channel else e.platform.channel))
        (e.tick now_ms).2 ∧
      ∀ peer, ¬ e.ErasesChannel peer now_ms → (e.tick now_ms).2.storedChannel peer = e.storedChannel peer) := by
  have hbegun := master_before hrole hstate now_ms
  rcases masterTick_channel hswitch now_ms with
    ⟨hfails, t, hchannel, hended, hstore, hreports⟩ | ⟨hgoes, t, hchannel, hidly, hstore, hpeer⟩
  · rw [tick_of_result hbegun hchannel]
    exact .inl ⟨hfails, hended, hstore, hreports⟩
  · have htick := tick_of_none hbegun hchannel
    have hunpair := tickUnpair_idly t now_ms
    have hcleanup := tickDeferredCleanup_idly (t.tickUnpair now_ms) now_ms
    have hlocal : (t.tickUnpair now_ms).local_mac = e.local_mac := hunpair.local_mac.trans hidly.local_mac
    obtain ⟨hkept, hsame⟩ := tickUnpair_keeps t now_ms
    refine .inr ⟨hgoes, ?_, ?_⟩
    · rw [htick]
      exact hidly.trans (hunpair.trans hcleanup)
    · intro peer herases
      rw [htick]
      show ((t.tickUnpair now_ms).tickDeferredCleanup now_ms).storedChannel peer = e.storedChannel peer
      have hafter := tickDeferredCleanup_store (t.tickUnpair now_ms) now_ms
      have hbefore : (t.tickUnpair now_ms).store = e.store := hkept.trans hstore
      have hmac := hcleanup.local_mac
      by_cases hdue : (t.tickUnpair now_ms).CleanupDue now_ms
      · have hcleans : e.CleansUp now_ms := by
          show (((e.clocked now_ms).tickDiscovery now_ms).tickPairing now_ms).1 = true ∧
            ((((e.clocked now_ms).tickDiscovery now_ms).tickPairing now_ms).2.tickChannel now_ms).1 = none ∧
            (((((e.clocked now_ms).tickDiscovery now_ms).tickPairing now_ms).2.tickChannel now_ms).2.tickUnpair
              now_ms).CleanupDue now_ms
          rw [hbegun, hchannel]
          exact ⟨rfl, rfl, hdue⟩
        have hother : (e.store.any fun s => s.makeKey .Channel e.local_mac e.deferred_unpair_peer =
            s.makeKey .Channel e.local_mac peer) ≠ true := fun h => herases ⟨hcleans, h⟩
        rw [← hbefore, ← hlocal, ← hpeer, ← hsame] at hother
        rw [if_pos hdue] at hafter
        have hforget := storedChannel_forgetPeer hother
        have hsame' := storedChannel_eq hafter hmac peer
        exact hsame'.trans (hforget.trans (storedChannel_eq hbefore hlocal peer))
      · rw [if_neg hdue] at hafter
        exact storedChannel_eq (hafter.trans hbefore) (hmac.trans hlocal) peer

end MasterTick

section SlaveTick

theorem tickDiscovery_timers (e : PairingEngine) (now_ms : UInt32) :
    (e.tickDiscovery now_ms).channel_effective_at_ms = e.channel_effective_at_ms ∧
      (e.tickDiscovery now_ms).channel_deadline_ms = e.channel_deadline_ms := by
  unfold tickDiscovery
  split
  · dsimp only
    obtain ⟨ok, p, m, a, hs, -, -⟩ := sendControl_cases
      { e with discovery_last_sent_ms := now_ms, discovery_counter := e.discovery_counter + 1 } kBroadcastMac
      .Discovery e.discovery_counter [kProtocolVersion, 0, 2, 2, 1, discoveryNameId e.config,
        e.local_profile_id, 0, 0, 0, 0, 0, 0, 0]
    rw [hs]
    exact ⟨rfl, rfl⟩
  · exact ⟨rfl, rfl⟩

/-- The frames of a slave that moves: the acknowledgement of its commit, if any. -/
def CommitFrame (e : PairingEngine) (f : SentFrame) : Prop :=
  f.header.type.isChannelSwitch = true →
    f.header.type = .ChannelSwitchCommitAck ∧ f.header.correlation_id = e.channel_corr_id

/-- The prepared slave's radio takes the channel, or the switch ends without it. -/
theorem applySlaveChannel_cases (e : PairingEngine) :
    ((e.platform.setChannel e.pending_channel).1 = true ∧
      Ended e.pending_channel e.CommitFrame e e.applySlaveChannel.2) ∨
    ((e.platform.setChannel e.pending_channel).1 = false ∧
      Ended e.platform.channel Unrelated e e.applySlaveChannel.2 ∧
      ReportsOnly (· ≠ .ChannelSwitchCommitted) e e.applySlaveChannel.2) := by
  have hsent := Platform.setChannel_sent e.platform e.pending_channel
  have hradio := setChannel_cases e.platform e.pending_channel
  unfold applySlaveChannel
  rcases hset : e.platform.setChannel e.pending_channel with ⟨ok, p⟩
  rw [hset] at hradio hsent
  cases ok with
  | false =>
    obtain ⟨hno, -⟩ | ⟨-, hchannel⟩ := hradio
    · cases hno
    · exact .inr ⟨rfl, ⟨rfl, rfl, id, rfl, hchannel, .nil hsent⟩, .one (by simp) rfl⟩
  | true =>
    obtain ⟨-, hchannel⟩ | ⟨hno, -⟩ := hradio
    · refine .inl ⟨rfl, ?_⟩
      dsimp only
      generalize hbase : ({ e with platform := p } : PairingEngine).withStore
        (fun s => (s.saveChannel e.local_mac e.peer_mac e.pending_channel).2) = b
      have hended : Ended e.pending_channel e.CommitFrame e
          { (b.sendControl b.peer_mac .ChannelSwitchCommitAck b.channel_corr_id []).2 with
            channel_state := .Idle } := by
        have hemits : b.Emits (b.sendControl b.peer_mac .ChannelSwitchCommitAck b.channel_corr_id []).2
            e.CommitFrame := by
          have hcorr : b.channel_corr_id = e.channel_corr_id := by rw [← hbase]; rfl
          rcases b.sendControl_sent b.peer_mac .ChannelSwitchCommitAck b.channel_corr_id [] with
            ⟨-, hnone⟩ | ⟨-, f, hone, -, htype, hid, -⟩
          · exact .nil hnone
          · refine ⟨[f], hone, fun g hg => ?_⟩
            obtain rfl := List.mem_singleton.mp hg
            exact fun _ => ⟨htype, hid.trans hcorr⟩
        obtain ⟨new, hnew, hframes⟩ := hemits
        obtain ⟨ok, q, m, a, hs, -, hq⟩ :=
          b.sendControl_cases b.peer_mac .ChannelSwitchCommitAck b.channel_corr_id []
        rw [hs] at hnew ⊢
        subst hbase
        exact ⟨rfl, rfl, id, rfl, hq.trans hchannel, new, hnew.trans (congrArg (· ++ new) hsent), hframes⟩
      split
      · exact hended.emit _ _ _ _
      · exact hended
    · cases hno

/-- A tick of a slave that is not in an attempt: it moves to the channel of its switch, or it stays on its
own and commits nothing. -/
theorem slaveTick_cases (hstate : e.state ≠ .Pairing)
    (hswitch : e.channel_state = .Idle ∨ e.channel_state = .SlavePrepared) (now_ms : UInt32) :
    (e.SlaveMoves now_ms ∧ Ended e.pending_channel e.CommitFrame e (e.tick now_ms).2) ∨
    (¬ e.SlaveMoves now_ms ∧ ReportsOnly (· ≠ .ChannelSwitchCommitted) e (e.tick now_ms).2 ∧
      (Ended e.platform.channel Unrelated e (e.tick now_ms).2 ∨ Idly e (e.tick now_ms).2)) := by
  have hsteps : ∀ type : EventType, type = .PairingStep → type ≠ .ChannelSwitchCommitted := by
    rintro _ rfl
    decide
  have hpairing : ((e.clocked now_ms).tickDiscovery now_ms).tickPairing now_ms =
      (true, (e.clocked now_ms).tickDiscovery now_ms) := by
    have hkept := (tickDiscovery_idly (e.clocked now_ms) now_ms).unpairing
    exact tickPairing_idle (hkept hstate) now_ms
  have hresult (result : Bool) (u : PairingEngine)
      (h : ((e.clocked now_ms).tickDiscovery now_ms).tickChannel now_ms = (some result, u)) :
      e.tick now_ms = (result, u) := tick_of_result hpairing h
  have hnone (u : PairingEngine)
      (h : ((e.clocked now_ms).tickDiscovery now_ms).tickChannel now_ms = (none, u)) :
      e.tick now_ms = (true, (u.tickUnpair now_ms).tickDeferredCleanup now_ms) := tick_of_none hpairing h
  have hmoves : e.SlaveMoves now_ms ↔ e.channel_state = .SlavePrepared ∧ ¬ e.SwitchExpired now_ms ∧
      now_ms ≥ e.channel_effective_at_ms ∧
      (((e.clocked now_ms).tickDiscovery now_ms).platform.setChannel e.pending_channel).1 = true := Iff.rfl
  have hd : Idly e ((e.clocked now_ms).tickDiscovery now_ms) :=
    (clocked_idly e now_ms).trans (tickDiscovery_idly _ now_ms)
  have htimers : ((e.clocked now_ms).tickDiscovery now_ms).channel_effective_at_ms =
      e.channel_effective_at_ms ∧
      ((e.clocked now_ms).tickDiscovery now_ms).channel_deadline_ms = e.channel_deadline_ms :=
    tickDiscovery_timers (e.clocked now_ms) now_ms
  generalize (e.clocked now_ms).tickDiscovery now_ms = d at hresult hnone hmoves hd htimers
  obtain ⟨heffective, hdeadline⟩ := htimers
  by_cases hexpired : e.channel_state ≠ .Idle ∧ e.SwitchExpired now_ms
  · have hbranch : d.tickChannel now_ms = (some false,
        { d.emit .ChannelSwitchFailed d.peer_mac d.channel_corr_id "channel switch timeout" with
          channel_state := .Idle }) := by
      rw [tickChannel, hd.channel_state, hdeadline]
      exact if_pos ⟨hexpired.1, hexpired.2.1, hexpired.2.2⟩
    rw [hresult _ _ hbranch]
    refine .inr ⟨fun h => (hmoves.mp h).2.1 hexpired.2, ?_, .inl ?_⟩
    · exact (hd.reports.mono hsteps).trans (.one (by simp) rfl)
    · refine hd.ended (P := Unrelated) ?_ fun f hf => hf
      exact ⟨rfl, rfl, id, rfl, hd.channel, .nil rfl⟩
  · have hlive : ¬ (d.channel_state ≠ .Idle ∧ d.channel_deadline_ms ≠ 0 ∧ now_ms > d.channel_deadline_ms) := by
      rw [hd.channel_state, hdeadline]
      exact fun h => hexpired ⟨h.1, h.2.1, h.2.2⟩
    by_cases hdue : d.channel_state = .SlavePrepared ∧ now_ms ≥ d.channel_effective_at_ms
    · have hbranch : d.tickChannel now_ms = (some d.applySlaveChannel.1, d.applySlaveChannel.2) := by
        rw [tickChannel, if_neg hlive]
        exact if_pos hdue
      rw [hresult _ _ hbranch]
      have hprepared : e.channel_state = .SlavePrepared := hd.channel_state.symm.trans hdue.1
      have hopen : e.channel_state ≠ .Idle := by
        rw [hprepared]
        decide
      have hcases := applySlaveChannel_cases d
      rw [hd.pending_channel] at hcases
      rcases hcases with ⟨hset, hended⟩ | ⟨hset, hended, hreports⟩
      · refine .inl ⟨hmoves.mpr ⟨hprepared, fun h => hexpired ⟨hopen, h⟩, ?_, hset⟩, ?_⟩
        · rw [← heffective]
          exact hdue.2
        · have hframes : d.CommitFrame = e.CommitFrame := by
            funext f
            rw [CommitFrame, CommitFrame, hd.channel_corr_id]
          rw [hframes] at hended
          refine hd.ended hended fun f hf hswitch => ?_
          rw [hf] at hswitch
          cases hswitch
      · refine .inr ⟨?_, (hd.reports.mono hsteps).trans hreports, .inl ?_⟩
        · intro h
          rw [(hmoves.mp h).2.2.2] at hset
          cases hset
        · rw [hd.channel] at hended
          exact hd.ended hended fun f hf => hf
    · have hmaster : d.channel_state ≠ .MasterWaitCommit := by
        rw [hd.channel_state]
        rcases hswitch with h | h <;> rw [h] <;> decide
      have hbranch : d.tickChannel now_ms = (none, d) := by
        rw [tickChannel, if_neg hlive, if_neg hdue]
        exact if_neg fun h => hmaster h.1
      rw [hnone _ hbranch]
      have hidly := hd.trans ((tickUnpair_idly d now_ms).trans
        (tickDeferredCleanup_idly (d.tickUnpair now_ms) now_ms))
      refine .inr ⟨?_, hidly.reports.mono hsteps, .inr hidly⟩
      intro h
      refine hdue ⟨hd.channel_state.trans (hmoves.mp h).1, ?_⟩
      rw [heffective]
      exact (hmoves.mp h).2.2.1

end SlaveTick

section Messages

/-- A step that opens and closes no switch. -/
structure Declines (e t : PairingEngine) : Prop where
  config : t.config = e.config
  local_mac : t.local_mac = e.local_mac
  unpairing : e.state ≠ .Pairing → t.state ≠ .Pairing
  channel_state : t.channel_state = e.channel_state
  pending_channel : t.pending_channel = e.pending_channel
  channel_corr_id : t.channel_corr_id = e.channel_corr_id
  channel : t.platform.channel = e.platform.channel
  store : t.store = e.store
  emits : e.Emits t Unrelated
  reports : ReportsOnly (· ≠ .ChannelSwitchCommitted) e t

/-- A step that opens a switch. -/
structure Opens (state : ChannelSwitchState) (channel : UInt8) (corr_id : UInt32) (P : SentFrame → Prop)
    (e t : PairingEngine) : Prop where
  config : t.config = e.config
  local_mac : t.local_mac = e.local_mac
  unpairing : e.state ≠ .Pairing → t.state ≠ .Pairing
  channel_state : t.channel_state = state
  pending_channel : t.pending_channel = channel
  channel_corr_id : t.channel_corr_id = corr_id
  channel : t.platform.channel = e.platform.channel
  store : t.store = e.store
  emits : e.Emits t P
  reports : ReportsOnly (· = .ChannelSwitchStarted) e t

theorem askChannelSwitch_cases (e : PairingEngine) : ∃ allowed platform,
    e.askChannelSwitch = (allowed, e.withPlatform platform) ∧ platform.channel = e.platform.channel ∧
      platform.sent = e.platform.sent := by
  unfold askChannelSwitch
  split
  · exact ⟨_, _, rfl, rfl, rfl⟩
  · exact ⟨_, e.platform, rfl, rfl, rfl⟩

/-- The frame is the prepare of the switch. -/
def PrepareFrame (channel : UInt8) (corr_id : UInt32) (f : SentFrame) : Prop :=
  f.header.type = .ChannelSwitchPrepare ∧ f.header.correlation_id = corr_id ∧
    ∃ payload : ChannelSwitchPayload, payload.new_channel = channel ∧
      f.effectivePayload.bind parseChannelSwitchPayload = some payload

theorem requestChannelSwitch_cases (e : PairingEngine) (peer : MacAddress) (channel : UInt8)
    (now_ms corr_id : UInt32) :
    (e.requestChannelSwitch peer channel now_ms corr_id).2 = e ∨ (e.channel_state = .Idle ∧
      (Declines e (e.requestChannelSwitch peer channel now_ms corr_id).2 ∨
        Opens .MasterWaitAck channel corr_id (PrepareFrame channel corr_id) e
          (e.requestChannelSwitch peer channel now_ms corr_id).2)) := by
  unfold requestChannelSwitch
  split
  · exact .inl rfl
  rename_i hready
  split
  · exact .inl rfl
  have hidle : e.channel_state = .Idle := by
    by_contra hopen
    exact hready (.inr (.inr hopen))
  refine .inr ⟨hidle, ?_⟩
  obtain ⟨allowed, platform, hask, hchannel, hsent⟩ := e.askChannelSwitch_cases
  rw [hask]
  cases allowed with
  | false => exact .inl ⟨rfl, rfl, id, rfl, rfl, rfl, hchannel, rfl, .nil hsent, .one (by simp) rfl⟩
  | true =>
    dsimp only
    generalize hpayload : (⟨channel, now_ms + (e.withPlatform platform).config.channel_switch_grace_ms⟩ :
      ChannelSwitchPayload) = payload
    have hnew : payload.new_channel = channel := by rw [← hpayload]
    have hframe := (e.withPlatform platform).sendControl_sent peer .ChannelSwitchPrepare corr_id
      (channelPreparePayload payload)
    obtain ⟨ok, q, m, a, hs, -, hq⟩ := (e.withPlatform platform).sendControl_cases peer
      .ChannelSwitchPrepare corr_id (channelPreparePayload payload)
    rw [hs] at hframe ⊢
    cases ok with
    | false =>
      obtain ⟨-, hnone⟩ | ⟨hno, -⟩ := hframe
      · exact .inl ⟨rfl, rfl, id, rfl, rfl, rfl, hq.trans hchannel, rfl, .nil (hnone.trans hsent), .nothing rfl⟩
      · cases hno
    | true =>
      obtain ⟨hno, -⟩ | ⟨-, f, hone, -, htype, hid, hread⟩ := hframe
      · cases hno
      · refine .inr ⟨rfl, rfl, id, rfl, hnew, rfl, hq.trans hchannel, rfl, ?_, .one rfl rfl⟩
        refine ⟨[f], hone.trans (congrArg (· ++ [f]) hsent), fun g hg => ?_⟩
        obtain rfl := List.mem_singleton.mp hg
        refine ⟨htype, hid, payload, hnew, ?_⟩
        rw [hread, Option.bind_some, parseChannelSwitchPayload_channelPreparePayload]

theorem onChannelSwitchPrepare_cases (e : PairingEngine) (sender : MacAddress) (corr_id : UInt32)
    (payload : ChannelSwitchPayload) :
    Declines e (e.onChannelSwitchPrepare sender corr_id payload).2 ∨
      (e.config.local_role = .Slave ∧ Opens .SlavePrepared payload.new_channel corr_id
        (fun f => f.header.type = .ChannelSwitchAck) e
          (e.onChannelSwitchPrepare sender corr_id payload).2) := by
  have hsame : Declines e e := ⟨rfl, rfl, id, rfl, rfl, rfl, rfl, rfl, .nil rfl, .nothing rfl⟩
  unfold onChannelSwitchPrepare
  split
  · exact .inl hsame
  rename_i hready
  have hslave : e.config.local_role = .Slave := by
    by_contra hother
    exact hready (.inl hother)
  split
  · exact .inl ⟨rfl, rfl, id, rfl, rfl, rfl, rfl, rfl, .nil rfl, .one (by simp) rfl⟩
  obtain ⟨allowed, platform, hask, hchannel, hsent⟩ := e.askChannelSwitch_cases
  rw [hask]
  cases allowed with
  | false => exact .inl ⟨rfl, rfl, id, rfl, rfl, rfl, hchannel, rfl, .nil hsent, .one (by simp) rfl⟩
  | true =>
    refine .inr ⟨hslave, ?_⟩
    dsimp only
    generalize hbegun : (((e.withPlatform platform).beginChannelSwitch sender corr_id payload
      (payload.effective_at_ms + (e.withPlatform platform).config.channel_switch_timeout_ms)
      .SlavePrepared).emit .ChannelSwitchStarted sender corr_id "slave prepared") = b
    have hemits : b.Emits (b.sendControl sender .ChannelSwitchAck corr_id []).2
        fun f => f.header.type = .ChannelSwitchAck := by
      rcases b.sendControl_sent sender .ChannelSwitchAck corr_id [] with ⟨-, hnone⟩ | ⟨-, f, hone, -, htype, -⟩
      · exact .nil hnone
      · refine ⟨[f], hone, fun g hg => ?_⟩
        obtain rfl := List.mem_singleton.mp hg
        exact htype
    obtain ⟨new, hnew, hframes⟩ := hemits
    obtain ⟨ok, q, m, a, hs, -, hq⟩ := b.sendControl_cases sender .ChannelSwitchAck corr_id []
    rw [hs] at hnew ⊢
    subst hbegun
    exact ⟨rfl, rfl, id, rfl, rfl, rfl, hq.trans hchannel, rfl,
      ⟨new, hnew.trans (congrArg (· ++ new) hsent), hframes⟩, .one rfl rfl⟩

theorem onChannelSwitchAck_cases (e : PairingEngine) (sender : MacAddress) (corr_id : UInt32) :
    (e.onChannelSwitchAck sender corr_id).2 = e ∨
      (e.channel_state = .MasterWaitAck ∧
        (e.onChannelSwitchAck sender corr_id).2 = { e.emit .PairingStep sender corr_id
          "channel switch ack received" with channel_state := .MasterWaitCommit }) := by
  unfold onChannelSwitchAck
  split
  · exact .inl rfl
  · rename_i hready
    refine .inr ⟨?_, rfl⟩
    by_contra hother
    exact hready (.inr (.inl hother))

theorem onChannelSwitchCommitAck_cases (e : PairingEngine) (sender : MacAddress) (corr_id : UInt32) :
    (e.onChannelSwitchCommitAck sender corr_id).2 = e ∨
      (e.config.local_role = .Master ∧ e.channel_state = .MasterWaitCommit ∧ corr_id = e.channel_corr_id ∧
        Ended e.platform.channel Unrelated e (e.onChannelSwitchCommitAck sender corr_id).2 ∧
        ReportsOnly (· = .ChannelSwitchCommitted) e (e.onChannelSwitchCommitAck sender corr_id).2) := by
  unfold onChannelSwitchCommitAck
  split
  · exact .inl rfl
  · rename_i hready
    simp only [not_or, not_not] at hready
    exact .inr ⟨hready.1, hready.2.1, hready.2.2, ⟨rfl, rfl, id, rfl, rfl, .nil rfl⟩, .one rfl rfl⟩

end Messages

section Outcomes

/-- A step of the master after which its switch, if it is open, is the one that was open before, its
radio being on the channel. -/
structure KeepsSwitch (channel : UInt8) (e t : PairingEngine) : Prop where
  config : t.config = e.config
  unpairing : e.state ≠ .Pairing → t.state ≠ .Pairing
  unprepared : t.channel_state ≠ .SlavePrepared
  opened : t.channel_state ≠ .Idle → e.channel_state ≠ .Idle ∧ t.pending_channel = e.pending_channel ∧
    t.channel_corr_id = e.channel_corr_id ∧ t.platform.channel = channel
  emits : e.Emits t Unrelated

/-- A step of the slave in which the switch it is prepared for, if any, stays the same. -/
structure StaysPrepared (e t : PairingEngine) : Prop where
  config : t.config = e.config
  unpairing : e.state ≠ .Pairing → t.state ≠ .Pairing
  opened : t.channel_state = .Idle ∨ (t.channel_state = e.channel_state ∧
    t.pending_channel = e.pending_channel ∧ t.channel_corr_id = e.channel_corr_id)
  channel : t.platform.channel = e.platform.channel
  emits : e.Emits t Unrelated

theorem Ended.keepsSwitch {channel : UInt8} (h : Ended channel Unrelated e t) :
    KeepsSwitch channel e t where
  config := h.config
  unpairing := h.unpairing
  unprepared := by simp [h.idle]
  opened := fun hopen => absurd h.idle hopen
  emits := h.emits

theorem Declines.keepsSwitch (h : Declines e t) (hidle : e.channel_state = .Idle) :
    KeepsSwitch e.platform.channel e t where
  config := h.config
  unpairing := h.unpairing
  unprepared := by simp [h.channel_state, hidle]
  opened := fun hopen => absurd (h.channel_state.trans hidle) hopen
  emits := h.emits

theorem Idly.keepsSwitch {channel : UInt8} (h : Idly (e.onChannel channel) t)
    (hswitch : e.channel_state ≠ .SlavePrepared) : KeepsSwitch channel e t where
  config := h.config
  unpairing := h.unpairing
  unprepared := fun hprepared => hswitch (h.channel_state.symm.trans hprepared)
  opened := fun hopen => ⟨fun hidle => hopen (h.channel_state.trans hidle), h.pending_channel,
    h.channel_corr_id, h.channel⟩
  emits := h.emits

end Outcomes

end PairingEngine

end EspNowLink
