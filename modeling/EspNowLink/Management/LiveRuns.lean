import EspNowLink.Management.LiveTruth

open Framework

namespace EspNowLink

namespace LiveMonitor

section Clocks

variable {m m' : LiveMonitor}

/-- Only the peers and the stamps of the tracked ones matter for the clock. -/
theorem Clocked.relabel (h : m.Clocked) (hnow : m'.now_ms = m.now_ms) (htime : m'.time = m.time)
    (hnoted : m'.noted = m.noted) (hlabels : m'.peers.map label = m.peers.map label) : m'.Clocked := by
  have hkeys := congrArg (List.map Prod.fst) hlabels
  rw [List.map_map, List.map_map] at hkeys
  refine ⟨?_, ?_, hkeys ▸ h.nodup, ?_⟩
  · rw [hnow, htime]
    exact h.now
  · rw [hnoted, htime]
    exact h.noted
  · intro state hstate
    have hlabel : label state ∈ m.peers.map label := hlabels ▸ List.mem_map_of_mem hstate
    obtain ⟨before, hmem, hbefore⟩ := List.mem_map.mp hlabel
    have hseen := h.stamps before hmem
    have hpeer : before.peer = state.peer := congrArg Prod.fst hbefore
    have hstamp : before.last_seen_ms = state.last_seen_ms := congrArg Prod.snd hbefore
    rw [hpeer, hstamp] at hseen
    rw [SeenAt, htime, hnoted]
    exact hseen

theorem Clocked.same (h : m.Clocked) (hnow : m'.now_ms = m.now_ms) (htime : m'.time = m.time)
    (hnoted : m'.noted = m.noted) (hpeers : m'.peers = m.peers) : m'.Clocked :=
  h.relabel hnow htime hnoted (by rw [hpeers])

theorem map_label_resetProbes (peers : List LivenessPeerState) :
    (peers.map resetProbes).map label = peers.map label := by
  rw [List.map_map]
  rfl

theorem Clocked.disable (h : m.Clocked) : m.disable.Clocked :=
  h.relabel rfl rfl rfl (map_label_resetProbes m.peers)

theorem Clocked.clock (h : m.Clocked) (elapsed_ms : Nat) :
    Clocked { m with time := m.time + elapsed_ms, now_ms := UInt32.ofNat (m.time + elapsed_ms) } := by
  refine ⟨rfl, ?_, h.nodup, ?_⟩
  · intro peer t ht
    exact (h.noted peer t ht).trans (Nat.le_add_right _ _)
  · intro state hstate
    obtain ⟨s, hs, hstamp, hnoted⟩ := h.stamps state hstate
    exact ⟨s, hs.trans (Nat.le_add_right _ _), hstamp, hnoted⟩

/-- The monitor of a pump before its loops. -/
def prepared (m : LiveMonitor) (calls : PumpCalls) : LiveMonitor :=
  { m.syncLiveMonitorPeers calls.persisted with
    ignore_reason_mask := m.liveMonitorIgnoreReasonMask calls
    ignore_active := m.liveMonitorIgnoreReasonMask calls ≠ 0
    pumped := some calls.persisted }

/-- A pump leaves it at that, or its loops run. -/
theorem pump_cases (m : LiveMonitor) (calls : PumpCalls) :
    m.pumpLiveMonitor calls = { m.prepared calls with next_probe_due_ms := 0 } ∨
      m.enabled = true ∧ m.pumpLiveMonitor calls = (m.prepared calls).pumpPeers m.ignore_active calls := by
  rw [pumpLiveMonitor]
  dsimp only
  split
  · exact .inl rfl
  · rename_i hgo
    refine .inr ⟨?_, rfl⟩
    cases hm : m.enabled with
    | true => rfl
    | false =>
      refine absurd (.inl ?_) hgo
      rw [syncLiveMonitorPeers]
      simp [hm]

theorem pumpPeers_frame (m : LiveMonitor) (was_ignore : Bool) (calls : PumpCalls) :
    (m.pumpPeers was_ignore calls).now_ms = m.now_ms ∧ (m.pumpPeers was_ignore calls).time = m.time ∧
      (m.pumpPeers was_ignore calls).noted = m.noted ∧ (m.pumpPeers was_ignore calls).pumped = m.pumped := by
  rw [pumpPeers]
  dsimp only
  split <;> exact ⟨rfl, rfl, rfl, rfl⟩

theorem Clocked.prepared (h : m.Clocked) (calls : PumpCalls) : (m.prepared calls).Clocked :=
  (h.sync calls.persisted).same rfl rfl rfl rfl

theorem Clocked.pump (h : m.Clocked) (calls : PumpCalls) : (m.pumpLiveMonitor calls).Clocked := by
  have hprepared := h.prepared calls
  rcases pump_cases m calls with hcase | ⟨henabled, hcase⟩
  · rw [hcase]
    exact hprepared.same rfl rfl rfl rfl
  · obtain ⟨hlowered, -⟩ := lowered_pumpPeers hprepared henabled m.ignore_active calls
    obtain ⟨hnow, htime, hnoted, -⟩ := pumpPeers_frame (m.prepared calls) m.ignore_active calls
    rw [hcase]
    exact hprepared.relabel hnow htime hnoted hlowered.labels

/-- The monitor that has noted a frame, before the peer's state is touched. -/
def noting (m : LiveMonitor) (peer : MacAddress) : LiveMonitor :=
  { m with noted := fun p => if p = peer then some m.time else m.noted p }

/-- The state of a peer that is seen. -/
def seenState (now_ms : UInt32) (state : LivenessPeerState) : LivenessPeerState :=
  { state with
    online := true
    last_seen_ms := now_ms
    probe_pending := false
    probe_sent_ms := 0
    probe_fail_count := 0 }

/-- What becomes of the monitor with a frame of a persisted peer. -/
inductive Notes (m : LiveMonitor) (peer : MacAddress) (m' : LiveMonitor) : Prop
  | fresh (untracked : ¬m.Tracks peer)
      (eq : m' = { m.noting peer with peers := m.peers ++ [{ peer := peer, last_seen_ms := m.now_ms }] })
  | silent (state : LivenessPeerState) (mem : state ∈ m.peers) (peer_eq : state.peer = peer)
      (quiet : state.online = true ∨ m.enabled = false)
      (eq : m' = { m.noting peer with peers := updatePeer peer (seenState m.now_ms) m.peers })
  | told (state : LivenessPeerState) (mem : state ∈ m.peers) (peer_eq : state.peer = peer)
      (offline : state.online = false) (enabled : m.enabled = true) (reason_code : UInt8)
      (eq : m' = { m.noting peer with
        peers := updatePeer peer (seenState m.now_ms) m.peers
        last_transition_ms := m.now_ms
        transitions := m.transitions ++ [(m.noting peer).transition peer true reason_code] })

theorem notes (m : LiveMonitor) (peer : MacAddress) (reason_code : UInt8) :
    Notes m peer (m.noteLivePeerSeen true peer reason_code) := by
  have hfind : (m.noting peer).findLivePeerState peer = m.findLivePeerState peer := rfl
  cases hstate : m.findLivePeerState peer with
  | none =>
    refine .fresh ?_ ?_
    · rintro ⟨state, hmem, hpeer⟩
      have hnone := List.find?_eq_none.mp hstate state hmem
      exact absurd hpeer (by simpa using hnone)
    · rw [noting] at hfind
      simp only [noteLivePeerSeen, Bool.not_true, Bool.false_eq_true, if_false, hfind, hstate]
      rfl
  | some state =>
    have hmem : state ∈ m.peers := List.mem_of_find?_eq_some hstate
    have hpeer : state.peer = peer := by simpa using List.find?_some hstate
    have heq : ∀ reason, reason = (if state.probe_pending then kLiveTransitionReasonProbeSuccess else reason_code) →
        m.noteLivePeerSeen true peer reason_code =
          if state.online then { m.noting peer with peers := updatePeer peer (seenState m.now_ms) m.peers }
          else emitLivePeerTransition { m.noting peer with
            peers := updatePeer peer (seenState m.now_ms) m.peers } peer true reason := by
      rintro reason rfl
      rw [noting] at hfind
      simp only [noteLivePeerSeen, Bool.not_true, Bool.false_eq_true, if_false, hfind, hstate]
      rfl
    have heq := heq _ rfl
    cases honline : state.online with
    | true =>
      rw [honline, if_pos rfl] at heq
      exact .silent state hmem hpeer (.inl honline) heq
    | false =>
      rw [honline, if_neg (by decide), emitLivePeerTransition] at heq
      cases henabled : m.enabled with
      | false =>
        refine .silent state hmem hpeer (.inr henabled) (heq.trans (if_pos ?_))
        change (!m.enabled) = true
        rw [henabled]
        rfl
      | true =>
        refine .told state hmem hpeer honline henabled _ (heq.trans (if_neg ?_))
        change ¬(!m.enabled) = true
        rw [henabled]
        decide

theorem Clocked.noting (h : m.Clocked) (peer : MacAddress) {peers : List LivenessPeerState}
    (hnodup : (peers.map (·.peer)).Nodup)
    (hpeers : ∀ state ∈ peers, state.last_seen_ms = m.now_ms ∨ state.peer ≠ peer ∧ state ∈ m.peers)
    (hm' : m'.now_ms = m.now_ms ∧ m'.time = m.time ∧ m'.noted = (m.noting peer).noted ∧ m'.peers = peers) :
    m'.Clocked := by
  obtain ⟨hnow, htime, hnoted, heq⟩ := hm'
  have hall : ∀ p, ∀ t ∈ m'.noted p, t ≤ m.time := by
    intro p t ht
    rw [hnoted] at ht
    simp only [LiveMonitor.noting] at ht
    split at ht
    · obtain rfl := Option.some.inj ht
      exact Nat.le_refl _
    · exact h.noted p t ht
  refine ⟨?_, ?_, heq ▸ hnodup, ?_⟩
  · rw [hnow, htime]
    exact h.now
  · rw [htime]
    exact hall
  · rw [heq]
    intro state hstate
    rcases hpeers state hstate with hstamp | ⟨hne, hmem⟩
    · refine ⟨m.time, htime.ge, ?_, hall state.peer⟩
      rw [hstamp]
      exact h.now
    · obtain ⟨s, hs, hstamp, hle⟩ := h.stamps state hmem
      refine ⟨s, htime ▸ hs, hstamp, ?_⟩
      rw [hnoted]
      simp only [LiveMonitor.noting, if_neg hne]
      exact hle

theorem nodup_updatePeer (h : m.Clocked) (peer : MacAddress) :
    ((updatePeer peer (seenState m.now_ms) m.peers).map (·.peer)).Nodup := by
  rw [map_updatePeer (f := seenState m.now_ms) fun _ => rfl]
  exact h.nodup

theorem Clocked.frame (h : m.Clocked) (persisted : Bool) (peer : MacAddress) (reason_code : UInt8) :
    (m.noteLivePeerSeen persisted peer reason_code).Clocked := by
  cases persisted with
  | false => exact h
  | true =>
    have hupdated : ∀ state ∈ updatePeer peer (seenState m.now_ms) m.peers,
        state.last_seen_ms = m.now_ms ∨ state.peer ≠ peer ∧ state ∈ m.peers := by
      intro state hstate
      by_cases hpeer : state.peer = peer
      · obtain ⟨before, -, -, rfl⟩ := mem_updatePeer_self h.nodup hstate hpeer
        exact .inl rfl
      · rcases mem_updatePeer hstate with hmem | ⟨before, -, -, rfl⟩
        · exact .inr ⟨hpeer, hmem⟩
        · exact .inl rfl
    cases notes m peer reason_code with
    | fresh untracked eq =>
      rw [eq]
      refine @Clocked.noting m _ h peer (m.peers ++ [{ peer := peer, last_seen_ms := m.now_ms }]) ?_ ?_
        ⟨rfl, rfl, rfl, rfl⟩
      · rw [List.map_append, List.nodup_append]
        refine ⟨h.nodup, List.nodup_singleton peer, ?_⟩
        intro p hp q hq hpq
        obtain rfl := List.mem_singleton.mp hq
        exact untracked (tracks_iff.mpr (hpq ▸ hp))
      · intro state hstate
        rcases List.mem_append.mp hstate with hmem | hmem
        · exact .inr ⟨fun hpeer => untracked ⟨state, hmem, hpeer⟩, hmem⟩
        · rw [List.mem_singleton.mp hmem]
          exact .inl rfl
    | silent state mem peer_eq quiet eq =>
      rw [eq]
      exact h.noting peer (nodup_updatePeer h peer) hupdated ⟨rfl, rfl, rfl, rfl⟩
    | told state mem peer_eq offline enabled reason_code eq =>
      rw [eq]
      exact h.noting peer (nodup_updatePeer h peer) hupdated ⟨rfl, rfl, rfl, rfl⟩

theorem Clocked.begin (h : m.Clocked) (disable_live_monitor clear_master_update_guard : Bool) :
    (m.beginRadioTransition disable_live_monitor clear_master_update_guard).Clocked := by
  rw [beginRadioTransition]
  split
  · exact h
  · cases disable_live_monitor with
    | false => exact h.same rfl rfl rfl rfl
    | true => exact h.disable.same rfl rfl rfl rfl

theorem Clocked.hardDeinit (h : m.Clocked) (disable_live_monitor clear_master_update_guard : Bool) :
    (m.hardDeinitRadio disable_live_monitor clear_master_update_guard).Clocked := by
  cases disable_live_monitor with
  | false => exact h.same rfl rfl rfl rfl
  | true => exact h.disable.same rfl rfl rfl rfl

/-- The monitor at the end of a radio transition, before it syncs. -/
def resumed (m : LiveMonitor) (restore_live_monitor : Bool) : LiveMonitor :=
  { m with
    enabled := m.enabled || restore_live_monitor && m.radio_transition_restore
    radio_transition_restore := false
    radio_transition_active := false
    radio_transition_state := .Idle }

/-- The end of a transition syncs in the monitor that it leaves enabled. -/
theorem end_cases (m : LiveMonitor) (restore_live_monitor sync_live_monitor_peers : Bool)
    (persisted : List MacAddress) :
    m.radio_transition_active = false ∧
        m.endRadioTransition restore_live_monitor sync_live_monitor_peers persisted =
          { m with radio_transition_state := .Idle } ∨
      m.radio_transition_active = true ∧
        (sync_live_monitor_peers = true ∧ (m.resumed restore_live_monitor).enabled = true ∧
            m.endRadioTransition restore_live_monitor sync_live_monitor_peers persisted =
              (m.resumed restore_live_monitor).syncLiveMonitorPeers persisted ∨
          ¬(sync_live_monitor_peers = true ∧ (m.resumed restore_live_monitor).enabled = true) ∧
            m.endRadioTransition restore_live_monitor sync_live_monitor_peers persisted =
              m.resumed restore_live_monitor) := by
  by_cases hactive : m.radio_transition_active = true
  · refine .inr ⟨hactive, ?_⟩
    have hgo : ¬(!m.radio_transition_active) = true := by simp [hactive]
    rw [endRadioTransition, if_neg hgo]
    dsimp only
    split
    · rename_i hsync
      exact .inl ⟨hsync.1, hsync.2, rfl⟩
    · rename_i hsync
      exact .inr ⟨hsync, rfl⟩
  · have hidle : m.radio_transition_active = false := Bool.eq_false_of_not_eq_true hactive
    have hstop : (!m.radio_transition_active) = true := by simp [hidle]
    refine .inl ⟨hidle, ?_⟩
    rw [endRadioTransition, if_pos hstop]

theorem Clocked.step (h : m.Clocked) (i : LiveInput) : (m.step i).Clocked := by
  have h : Clocked { m with pumped := none } := h.same rfl rfl rfl rfl
  rw [LiveMonitor.step]
  revert h
  generalize { m with pumped := none } = m
  intro h
  cases i with
  | clock elapsed_ms => exact h.clock elapsed_ms
  | enable persisted =>
    have henabled : Clocked { m with enabled := true } := h.same rfl rfl rfl rfl
    exact henabled.sync persisted
  | disable => exact h.disable
  | masterUpdate =>
    have hguarded : ∀ until_ms, Clocked { m with master_update_guard_until_ms := until_ms } :=
      fun _ => h.same rfl rfl rfl rfl
    exact hguarded _
  | pump calls => exact h.pump calls
  | frame persisted peer reason_code => exact h.frame persisted peer reason_code
  | remove peer =>
    refine ⟨h.now, h.noted, h.nodup.sublist (List.filter_sublist.map _), ?_⟩
    intro state hstate
    exact h.stamps state (List.mem_filter.mp hstate).1
  | sync persisted => exact h.sync persisted
  | beginTransition disable_live_monitor clear_master_update_guard =>
    exact h.begin disable_live_monitor clear_master_update_guard
  | endTransition restore_live_monitor sync_live_monitor_peers persisted =>
    have hresumed : (m.resumed restore_live_monitor).Clocked := h.same rfl rfl rfl rfl
    change (m.endRadioTransition _ _ _).Clocked
    rcases end_cases m restore_live_monitor sync_live_monitor_peers persisted with
      ⟨-, hcase⟩ | ⟨-, ⟨-, -, hcase⟩ | ⟨-, hcase⟩⟩
    · rw [hcase]
      exact h.same rfl rfl rfl rfl
    · rw [hcase]
      exact hresumed.sync persisted
    · rw [hcase]
      exact hresumed
  | hardDeinit disable_live_monitor clear_master_update_guard =>
    exact h.hardDeinit disable_live_monitor clear_master_update_guard
  | hardReinit manager_begins =>
    change (m.hardReinitRadio manager_begins).Clocked
    rw [hardReinitRadio]
    split <;> exact h.same rfl rfl rfl rfl

theorem clocked_start (has_pull enabled : Bool) (persisted : List MacAddress) :
    (start has_pull enabled persisted).Clocked := by
  have hempty : Clocked { has_pull := has_pull, enabled := enabled } := by
    refine ⟨rfl, fun peer t ht => ?_, List.nodup_nil, fun state hstate => ?_⟩
    · cases ht
    · cases hstate
  exact hempty.sync persisted

end Clocks

section Truths

variable {m m' : LiveMonitor}

/-- Whatever is not told and changes no flag keeps the transitions truthful. -/
theorem Truthful.quiet (h : m.Truthful) (htransitions : m'.transitions = m.transitions)
    (hpumped : m'.pumped = none)
    (hpeers : ∀ state ∈ m'.peers, ∃ before ∈ m.peers, before.peer = state.peer ∧ before.online = state.online) :
    m'.Truthful := by
  have hlog : m'.log = m.log := by rw [log, log, htransitions]
  refine ⟨?_, ?_, ?_, ?_⟩
  · rw [htransitions]
    exact h.due
  · rw [hpumped]
    intro persisted hpersisted
    cases hpersisted
  · rw [hlog]
    exact h.alternate
  · intro state hstate
    obtain ⟨before, hmem, hpeer, honline⟩ := hpeers state hstate
    rw [told, hlog, ← hpeer, ← honline]
    exact h.agrees before hmem

theorem Truthful.samePeers (h : m.Truthful) (htransitions : m'.transitions = m.transitions)
    (hpumped : m'.pumped = none) (hpeers : m'.peers = m.peers) : m'.Truthful :=
  h.quiet htransitions hpumped fun state hstate => ⟨state, hpeers ▸ hstate, rfl, rfl⟩

theorem Truthful.disable (h : m.Truthful) (hpumped : m.pumped = none) : m.disable.Truthful := by
  refine h.quiet rfl hpumped ?_
  intro state hstate
  obtain ⟨before, hmem, rfl⟩ := List.mem_map.mp hstate
  exact ⟨before, hmem, rfl, rfl⟩

/-- A sync keeps the transitions truthful exactly when no peer returns that was told offline. -/
theorem truthful_sync_iff (hclock : m.Clocked) (h : m.Truthful) (hpumped : m.pumped = none)
    (persisted : List MacAddress) :
    (m.syncLiveMonitorPeers persisted).Truthful ↔ m.NoneReturns persisted := by
  rw [← agrees_sync_iff hclock h.agrees persisted]
  constructor
  · exact fun hafter => hafter.agrees
  · intro hagrees
    refine ⟨h.due, ?_, h.alternate, hagrees⟩
    intro p hp
    have hnone : (m.syncLiveMonitorPeers persisted).pumped = none := hpumped
    rw [hnone] at hp
    cases hp

/-- Nothing that the loops of a pump lower was just seen, so they agree afterwards exactly where they did. -/
theorem agrees_lowered_iff (hclock : m.Clocked) {log' : ChangeLog MacAddress} {done : List LivenessPeerState}
    (hlowered : m.Lowered m.log log' m.peers done)
    (hnow : ∀ state ∈ m.peers, state.online ≠ m.told state.peer → state.last_seen_ms = m.now_ms) :
    (∀ state ∈ done, state.online = ChangeLog.current true log' state.peer) ↔ m.Agrees := by
  have hpeers : ∀ s s' : LivenessPeerState, label s' = label s → s'.peer = s.peer := fun s s' h => congrArg Prod.fst h
  constructor
  · intro hafter state hstate
    by_contra hdiffers
    have hstamp := hnow state hstate hdiffers
    have hlabel : label state ∈ done.map label := hlowered.labels ▸ List.mem_map_of_mem hstate
    obtain ⟨after, hmem, hafterlabel⟩ := List.mem_map.mp hlabel
    obtain ⟨before, hbefore, hbeforelabel, hcases⟩ := hlowered.each after hmem
    have hsame : before = state := by
      have hpeer := (hpeers before after hbeforelabel).symm.trans (hpeers state after hafterlabel)
      exact List.inj_on_of_nodup_map hclock.nodup hbefore hstate hpeer
    subst hsame
    rcases hcases with ⟨hof, hflag⟩ | ⟨hdue, -⟩
    · have hof : ChangeLog.of log' before.peer = ChangeLog.of m.log before.peer := hof
      have htold := hafter after hmem
      rw [hpeers before after hafterlabel, ChangeLog.current_congr hof] at htold
      exact hdiffers (hflag.symm.trans htold)
    · have hzero : (m.now_ms - (label before).2) = 0 := by
        change m.now_ms - before.last_seen_ms = 0
        rw [hstamp, UInt32.sub_self]
      rw [hzero] at hdue
      exact absurd hdue (by decide)
  · intro hagrees after hmem
    obtain ⟨before, hbefore, hlabel, hcases⟩ := hlowered.each after hmem
    rw [hpeers before after hlabel]
    rcases hcases with ⟨hof, hflag⟩ | ⟨-, -, hdown, hof⟩
    · have hof : ChangeLog.of log' before.peer = ChangeLog.of m.log before.peer := hof
      rw [ChangeLog.current_congr hof, hflag]
      exact hagrees before hbefore
    · have hof : ChangeLog.of log' before.peer = ChangeLog.of m.log before.peer ++ [false] := hof
      rw [ChangeLog.current_of_append hof]
      exact hdown

/-- What the loops of a pump tell are changes, where the flags are what was told. -/
theorem alternates_lowered (hagrees : m.Agrees) (halternate : ∀ peer, ChangeLog.Alternates true m.log peer)
    {log' : ChangeLog MacAddress} {done : List LivenessPeerState}
    (hlowered : m.Lowered m.log log' m.peers done) (peer : MacAddress) : ChangeLog.Alternates true log' peer := by
  by_cases htracked : peer ∈ m.peers.map (·.peer)
  · obtain ⟨state, hstate, rfl⟩ := List.mem_map.mp htracked
    have hlabel : label state ∈ done.map label := hlowered.labels ▸ List.mem_map_of_mem hstate
    obtain ⟨after, hmem, hafterlabel⟩ := List.mem_map.mp hlabel
    obtain ⟨before, hbefore, hbeforelabel, hcases⟩ := hlowered.each after hmem
    have hpeer : before.peer = state.peer := congrArg Prod.fst (hbeforelabel.symm.trans hafterlabel)
    rw [← hpeer]
    rcases hcases with ⟨hof, -⟩ | ⟨-, hup, -, hof⟩
    · have hof : ChangeLog.of log' before.peer = ChangeLog.of m.log before.peer := hof
      rw [ChangeLog.Alternates, hof]
      exact halternate before.peer
    · have hof : ChangeLog.of log' before.peer = ChangeLog.of m.log before.peer ++ [false] := hof
      rw [ChangeLog.Alternates, hof]
      refine (ChangeLog.isChain_concat _).mpr ⟨halternate before.peer, ?_⟩
      have htold := hagrees before hbefore
      rw [hup] at htold
      change m.told before.peer ≠ false
      rw [← htold]
      decide
  · rw [ChangeLog.Alternates, hlowered.others peer htracked]
    exact halternate peer

theorem truthful_pump_iff (hclock : m.Clocked) (h : m.Truthful) (calls : PumpCalls) :
    (m.pumpLiveMonitor calls).Truthful ↔ m.NoneReturns calls.persisted := by
  have hprepared := hclock.prepared calls
  have hagrees : (m.prepared calls).Agrees ↔ m.NoneReturns calls.persisted :=
    agrees_sync_iff hclock h.agrees calls.persisted
  obtain ⟨hnodup, htracks⟩ := tracks_sync hclock.nodup calls.persisted
  rcases pump_cases m calls with hcase | ⟨henabled, hcase⟩
  · rw [hcase, ← hagrees]
    constructor
    · exact fun hafter => hafter.agrees
    · intro hagrees
      refine ⟨h.due, ?_, h.alternate, hagrees⟩
      rintro persisted hpersisted
      obtain rfl := Option.some.inj hpersisted
      exact ⟨hnodup, htracks⟩
  · obtain ⟨hlowered, hdue⟩ := lowered_pumpPeers hprepared henabled m.ignore_active calls
    obtain ⟨-, -, -, hpumped⟩ := pumpPeers_frame (m.prepared calls) m.ignore_active calls
    have hnow : ∀ state ∈ (m.prepared calls).peers, state.online ≠ (m.prepared calls).told state.peer →
        state.last_seen_ms = (m.prepared calls).now_ms := by
      intro state hstate hdiffers
      rcases mem_sync hclock.nodup hstate with ⟨before, hmem, hpeer, honline, -⟩ | hfresh
      · have hbefore := h.agrees before hmem
        rw [honline, hpeer] at hbefore
        exact absurd hbefore hdiffers
      · exact hfresh.last_seen_ms
    rw [hcase, ← hagrees, ← agrees_lowered_iff hprepared hlowered hnow]
    constructor
    · exact fun hafter => hafter.agrees
    · intro hafter
      have hbefore := (agrees_lowered_iff hprepared hlowered hnow).mp hafter
      refine ⟨hdue h.due, ?_, alternates_lowered hbefore h.alternate hlowered, hafter⟩
      rintro persisted hpersisted
      rw [hpumped] at hpersisted
      obtain rfl := Option.some.inj hpersisted
      have hkeys := congrArg (List.map Prod.fst) hlowered.labels
      rw [List.map_map, List.map_map] at hkeys
      have hkeys : ((m.prepared calls).pumpPeers m.ignore_active calls).peers.map (·.peer) =
          (m.prepared calls).peers.map (·.peer) := hkeys
      refine ⟨hkeys ▸ hnodup, fun peer => ?_⟩
      rw [tracks_iff, hkeys, ← tracks_iff]
      exact htracks peer

/-- A frame keeps the transitions truthful exactly when the peer is not put online unseen. -/
theorem truthful_frame_iff (hclock : m.Clocked) (h : m.Truthful) (hpumped : m.pumped = none)
    (peer : MacAddress) (reason_code : UInt8) :
    (m.noteLivePeerSeen true peer reason_code).Truthful ↔
      (∀ state ∈ m.peers, state.peer = peer → state.online = false → m.enabled = true) ∧
        (¬m.Tracks peer → m.told peer = true) := by
  have hnotPumped : ∀ {m' : LiveMonitor}, m'.pumped = m.pumped →
      ∀ persisted ∈ m'.pumped, (m'.peers.map (·.peer)).Nodup ∧ ∀ p, m'.Tracks p ↔ p ∈ persisted := by
    intro m' heq persisted hpersisted
    rw [heq, hpumped] at hpersisted
    cases hpersisted
  have honly : ∀ {s t : LivenessPeerState}, s ∈ m.peers → s.peer = peer → t ∈ m.peers → t.peer = peer → t = s := by
    intro s t hs hspeer ht htpeer
    exact List.inj_on_of_nodup_map hclock.nodup ht hs (htpeer.trans hspeer.symm)
  have hothers : ∀ state ∈ updatePeer peer (seenState m.now_ms) m.peers, state.peer ≠ peer → state ∈ m.peers := by
    intro state hstate hne
    rcases mem_updatePeer hstate with hmem | ⟨before, -, hpeer, rfl⟩
    · exact hmem
    · exact absurd hpeer hne
  have hseen : ∀ state ∈ updatePeer peer (seenState m.now_ms) m.peers, state.peer = peer → state.online = true := by
    intro state hstate hpeer
    obtain ⟨before, -, -, rfl⟩ := mem_updatePeer_self hclock.nodup hstate hpeer
    rfl
  cases notes m peer reason_code with
  | fresh untracked eq =>
    rw [eq]
    constructor
    · intro hafter
      refine ⟨fun state hmem hpeer _ => absurd ⟨state, hmem, hpeer⟩ untracked, fun _ => ?_⟩
      have hnew := hafter.agrees _ (List.mem_append_right _ List.mem_cons_self)
      exact hnew.symm
    · rintro ⟨-, htold⟩
      refine ⟨h.due, hnotPumped rfl, h.alternate, ?_⟩
      intro state hstate
      rcases List.mem_append.mp hstate with hmem | hmem
      · exact h.agrees state hmem
      · rw [List.mem_singleton.mp hmem]
        exact (htold untracked).symm
  | silent state mem peer_eq quiet eq =>
    rw [eq]
    have htold : state.online = m.told peer := peer_eq ▸ h.agrees state mem
    constructor
    · intro hafter
      refine ⟨?_, fun huntracked => absurd ⟨state, mem, peer_eq⟩ huntracked⟩
      intro t ht htpeer hoffline
      obtain rfl := honly mem peer_eq ht htpeer
      have hkeys : peer ∈ (updatePeer peer (seenState m.now_ms) m.peers).map (·.peer) := by
        rw [map_updatePeer (f := seenState m.now_ms) fun _ => rfl, ← peer_eq]
        exact List.mem_map_of_mem mem
      obtain ⟨after, hmem, hpeer⟩ := List.mem_map.mp hkeys
      have hflag : after.online = m.told after.peer := hafter.agrees after hmem
      rw [hseen after hmem hpeer, hpeer, ← htold, hoffline] at hflag
      cases hflag
    · rintro ⟨henabled, -⟩
      have honline : state.online = true := by
        rcases quiet with hup | hdisabled
        · exact hup
        · by_contra hdown
          have hon := henabled state mem peer_eq (Bool.eq_false_of_not_eq_true hdown)
          rw [hdisabled] at hon
          cases hon
      refine ⟨h.due, hnotPumped rfl, h.alternate, ?_⟩
      intro after hmem
      by_cases hpeer : after.peer = peer
      · rw [hseen after hmem hpeer, hpeer]
        exact honline.symm.trans htold
      · exact h.agrees after (hothers after hmem hpeer)
  | told state mem peer_eq offline enabled reason_code eq =>
    rw [eq]
    have htold : m.told peer = false := by
      rw [← offline, ← peer_eq]
      exact (h.agrees state mem).symm
    refine iff_of_true ⟨?_, hnotPumped rfl, ?_, ?_⟩
      ⟨fun _ _ _ _ => enabled, fun huntracked => absurd ⟨state, mem, peer_eq⟩ huntracked⟩
    · intro r hr
      rcases List.mem_append.mp hr with hr | hr
      · exact h.due r hr
      · rw [List.mem_singleton.mp hr]
        intro hoffline
        cases hoffline
    · intro p
      rw [log, List.map_append]
      by_cases hp : peer = p
      · subst hp
        change (true :: ChangeLog.of (m.log ++ [(peer, true)]) peer).IsChain (· ≠ ·)
        rw [ChangeLog.of_append_self]
        refine (ChangeLog.isChain_concat _).mpr ⟨h.alternate peer, ?_⟩
        change m.told peer ≠ true
        rw [htold]
        decide
      · change (true :: ChangeLog.of (m.log ++ [(peer, true)]) p).IsChain (· ≠ ·)
        rw [ChangeLog.of_append_other hp]
        exact h.alternate p
    · intro after hmem
      rw [LiveMonitor.told, log, List.map_append]
      change after.online = ChangeLog.current true (m.log ++ [(peer, true)]) after.peer
      by_cases hpeer : after.peer = peer
      · rw [hseen after hmem hpeer, hpeer, ChangeLog.current_of_append ChangeLog.of_append_self]
      · rw [ChangeLog.current_congr (ChangeLog.of_append_other (Ne.symm hpeer))]
        exact h.agrees after (hothers after hmem hpeer)

/-- A step keeps the transitions truthful exactly when it is told. -/
theorem truthful_step_iff (hclock : m.Clocked) (h : m.Truthful) (i : LiveInput) :
    (m.step i).Truthful ↔ m.Told i := by
  have hclock : Clocked { m with pumped := none } := hclock.same rfl rfl rfl rfl
  have h : Truthful { m with pumped := none } := h.samePeers rfl rfl rfl
  have htold : m.Told i ↔ Told { m with pumped := none } i := by cases i <;> exact Iff.rfl
  have hpumped : LiveMonitor.pumped { m with pumped := none } = none := rfl
  rw [htold, step]
  revert hclock h hpumped
  generalize { m with pumped := none } = m
  intro hclock h hpumped
  cases i with
  | clock elapsed_ms => exact iff_of_true (h.samePeers rfl hpumped rfl) trivial
  | enable persisted =>
    have hclock : Clocked { m with enabled := true } := hclock.same rfl rfl rfl rfl
    have h : Truthful { m with enabled := true } := h.samePeers rfl hpumped rfl
    exact truthful_sync_iff hclock h hpumped persisted
  | disable => exact iff_of_true (h.disable hpumped) trivial
  | masterUpdate =>
    have hguarded : ∀ until_ms, Truthful { m with master_update_guard_until_ms := until_ms } :=
      fun _ => h.samePeers rfl hpumped rfl
    exact iff_of_true (hguarded _) trivial
  | pump calls => exact truthful_pump_iff hclock h calls
  | frame persisted peer reason_code =>
    cases persisted with
    | false =>
      refine iff_of_true ?_ fun hpersisted => absurd hpersisted (by decide)
      exact h
    | true =>
      refine (truthful_frame_iff hclock h hpumped peer reason_code).trans ?_
      exact ⟨fun htold _ => htold, fun htold => htold rfl⟩
  | remove peer =>
    refine iff_of_true (h.quiet rfl hpumped ?_) trivial
    intro state hstate
    exact ⟨state, (List.mem_filter.mp hstate).1, rfl, rfl⟩
  | sync persisted => exact truthful_sync_iff hclock h hpumped persisted
  | beginTransition disable_live_monitor clear_master_update_guard =>
    refine iff_of_true ?_ trivial
    change (m.beginRadioTransition disable_live_monitor clear_master_update_guard).Truthful
    rw [beginRadioTransition]
    split
    · exact h
    · cases disable_live_monitor with
      | false => exact h.samePeers rfl hpumped rfl
      | true => exact (h.disable hpumped).samePeers rfl hpumped rfl
  | endTransition restore_live_monitor sync_live_monitor_peers persisted =>
    have hclock : (m.resumed restore_live_monitor).Clocked := hclock.same rfl rfl rfl rfl
    have hresumed : (m.resumed restore_live_monitor).Truthful := h.samePeers rfl hpumped rfl
    change (m.endRadioTransition _ _ _).Truthful ↔ _
    rcases end_cases m restore_live_monitor sync_live_monitor_peers persisted with
      ⟨hidle, hcase⟩ | ⟨hactive, ⟨hsync, henabled, hcase⟩ | ⟨hno, hcase⟩⟩
    · rw [hcase]
      refine iff_of_true (h.samePeers rfl hpumped rfl) ?_
      intro hactive
      rw [hidle] at hactive
      cases hactive
    · rw [hcase]
      refine (truthful_sync_iff hclock hresumed hpumped persisted).trans ?_
      exact ⟨fun hnone _ _ _ => hnone, fun htold => htold hactive hsync henabled⟩
    · rw [hcase]
      exact iff_of_true hresumed fun _ hsync henabled => absurd ⟨hsync, henabled⟩ hno
  | hardDeinit disable_live_monitor clear_master_update_guard =>
    refine iff_of_true ?_ trivial
    change (m.hardDeinitRadio disable_live_monitor clear_master_update_guard).Truthful
    cases disable_live_monitor with
    | false => exact h.samePeers rfl hpumped rfl
    | true => exact (h.disable hpumped).samePeers rfl hpumped rfl
  | hardReinit manager_begins =>
    refine iff_of_true ?_ trivial
    change (m.hardReinitRadio manager_begins).Truthful
    rw [hardReinitRadio]
    split <;> exact h.samePeers rfl hpumped rfl

theorem truthful_start (has_pull enabled : Bool) (persisted : List MacAddress) :
    (start has_pull enabled persisted).Truthful := by
  have hclock : Clocked { has_pull := has_pull, enabled := enabled } := by
    refine ⟨rfl, fun peer t ht => ?_, List.nodup_nil, fun state hstate => ?_⟩
    · cases ht
    · cases hstate
  have hempty : Truthful { has_pull := has_pull, enabled := enabled } := by
    refine ⟨fun r hr => ?_, fun p hp => ?_, fun peer => List.isChain_singleton true, fun state hstate => ?_⟩
    · cases hr
    · cases hp
    · cases hstate
  exact (truthful_sync_iff hclock hempty rfl persisted).mpr fun _ _ _ => rfl

end Truths

/-- The transitions are truthful at every moment of a run exactly when every frame of an offline peer comes while
the monitor is enabled, and no peer that was told offline is tracked anew. -/
theorem live_transitions_truthful_iff (has_pull enabled : Bool) (persisted : List MacAddress)
    (inputs : List LiveInput) :
    (∀ before after, inputs = before ++ after →
        (before.foldl step (start has_pull enabled persisted)).Truthful) ↔
      Admitted step Told (start has_pull enabled persisted) inputs := by
  have hclocked : ∀ is : List LiveInput, (is.foldl step (start has_pull enabled persisted)).Clocked := by
    intro is
    induction is using List.reverseRecOn with
    | nil => exact clocked_start has_pull enabled persisted
    | append_singleton is i ih =>
      rw [List.foldl_concat]
      exact ih.step i
  have hexact : ∀ (m : LiveMonitor) (i : LiveInput), m.Clocked ∧ m.Truthful →
      ((step m i).Clocked ∧ (step m i).Truthful ↔ Told m i) :=
    fun m i hm => ⟨fun hafter => (truthful_step_iff hm.1 hm.2 i).mp hafter.2,
      fun htold => ⟨hm.1.step i, (truthful_step_iff hm.1 hm.2 i).mpr htold⟩⟩
  have hstart : (start has_pull enabled persisted).Clocked ∧ (start has_pull enabled persisted).Truthful :=
    ⟨clocked_start has_pull enabled persisted, truthful_start has_pull enabled persisted⟩
  rw [← always_iff_admitted hexact hstart inputs]
  constructor
  · intro htruthful before after hsplit
    exact ⟨hclocked before, htruthful before after hsplit⟩
  · intro htruthful before after hsplit
    exact (htruthful before after hsplit).2

/-- A peer is told offline; it sends a frame while the monitor is disabled, and is told offline again later. -/
def toldTwice : List LiveInput :=
  [.clock 1, .pump { persisted := [zeroMac] }, .clock 2500, .pump { persisted := [zeroMac] }, .clock 10, .disable,
    .frame true zeroMac kLiveTransitionReasonPassiveRx, .clock 10, .enable [zeroMac], .clock 2490,
    .pump { persisted := [zeroMac] }]

theorem offline_told_twice :
    ¬ ∀ (has_pull enabled : Bool) (persisted : List MacAddress) (inputs : List LiveInput),
      (inputs.foldl step (start has_pull enabled persisted)).Truthful := by
  intro h
  have halternate := (h true true [zeroMac] toldTwice).alternate zeroMac
  revert halternate
  decide +kernel

end LiveMonitor

end EspNowLink
