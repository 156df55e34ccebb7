import EspNowLink.Framework.Runs
import EspNowLink.Management.LiveMonitor

open Framework

namespace EspNowLink

/-- A transition as a change of the peer's flag. -/
def LiveTransition.change (r : LiveTransition) : MacAddress × Bool := (r.peer, r.online)

/-- A transition to offline comes when no frame was noted for long enough. -/
def LiveTransition.Due (r : LiveTransition) : Prop :=
  r.online = false → ∀ t ∈ r.noted, t + kLiveOfflineDetectMaxMs.toNat ≤ r.time

namespace LiveMonitor

section Truth

def log (m : LiveMonitor) : ChangeLog MacAddress := m.transitions.map LiveTransition.change

def Tracks (m : LiveMonitor) (peer : MacAddress) : Prop := ∃ state ∈ m.peers, state.peer = peer

/-- What the transitions have told last of a peer; before the first one it is online. -/
def told (m : LiveMonitor) (peer : MacAddress) : Bool := ChangeLog.current true m.log peer

/-- Every tracked peer is what was told of it. -/
def Agrees (m : LiveMonitor) : Prop := ∀ state ∈ m.peers, state.online = m.told state.peer

/-- The transitions are truthful: offline comes only after the silence it takes, a pump tracks the persisted
peers, each once, and of each peer offline and online are told in turn, the last of them its flag. -/
structure Truthful (m : LiveMonitor) : Prop where
  due : ∀ r ∈ m.transitions, r.Due
  tracked : ∀ persisted ∈ m.pumped, (m.peers.map (·.peer)).Nodup ∧ ∀ peer, m.Tracks peer ↔ peer ∈ persisted
  alternate : ∀ peer, ChangeLog.Alternates true m.log peer
  agrees : m.Agrees

/-- No persisted peer is tracked anew that was told offline. -/
def NoneReturns (m : LiveMonitor) (persisted : List MacAddress) : Prop :=
  ∀ peer ∈ persisted, ¬m.Tracks peer → m.told peer = true

/-- A frame of an offline peer comes while the monitor is enabled, and none that was told offline is tracked
anew. -/
def Told (m : LiveMonitor) : LiveInput → Prop
  | .frame persisted peer _ => persisted = true →
      (∀ state ∈ m.peers, state.peer = peer → state.online = false → m.enabled = true) ∧
        (¬m.Tracks peer → m.told peer = true)
  | .sync persisted => m.NoneReturns persisted
  | .enable persisted => m.NoneReturns persisted
  | .pump calls => m.NoneReturns calls.persisted
  | .endTransition restore_live_monitor sync_live_monitor_peers persisted =>
    m.radio_transition_active = true → sync_live_monitor_peers = true →
      (m.enabled || restore_live_monitor && m.radio_transition_restore) = true → m.NoneReturns persisted
  | _ => True

end Truth

section Clock

/-- The stamp of a peer is a time that has come, and no frame of it was noted later. -/
def SeenAt (m : LiveMonitor) (peer : MacAddress) (last_seen_ms : UInt32) : Prop :=
  ∃ s ≤ m.time, last_seen_ms = UInt32.ofNat s ∧ ∀ t ∈ m.noted peer, t ≤ s

structure Clocked (m : LiveMonitor) : Prop where
  now : m.now_ms = UInt32.ofNat m.time
  noted : ∀ peer, ∀ t ∈ m.noted peer, t ≤ m.time
  nodup : (m.peers.map (·.peer)).Nodup
  stamps : ∀ state ∈ m.peers, m.SeenAt state.peer state.last_seen_ms

variable {m : LiveMonitor}

theorem Clocked.seenNow (h : m.Clocked) (peer : MacAddress) : m.SeenAt peer m.now_ms :=
  ⟨m.time, Nat.le_refl _, h.now, h.noted peer⟩

/-- In 32 bits an age is never more than it is in full. -/
theorem Clocked.silence (h : m.Clocked) {peer : MacAddress} {last_seen_ms : UInt32}
    (hseen : m.SeenAt peer last_seen_ms) (hage : kLiveOfflineDetectMaxMs ≤ m.now_ms - last_seen_ms) :
    ∀ t ∈ m.noted peer, t + kLiveOfflineDetectMaxMs.toNat ≤ m.time := by
  obtain ⟨s, hs, hstamp, hnoted⟩ := hseen
  intro t ht
  have hle := hnoted t ht
  have hage := UInt32.le_iff_toNat_le.mp hage
  rw [h.now, hstamp, UInt32.toNat_sub, UInt32.toNat_ofNat', UInt32.toNat_ofNat'] at hage
  omega

end Clock

section Updates

variable {peers : List LivenessPeerState} {peer : MacAddress} {f : LivenessPeerState → LivenessPeerState}

theorem mem_updatePeer {state : LivenessPeerState} (h : state ∈ updatePeer peer f peers) :
    state ∈ peers ∨ ∃ before ∈ peers, before.peer = peer ∧ state = f before := by
  induction peers with
  | nil => cases h
  | cons first rest ih =>
    rw [updatePeer] at h
    split at h
    · rename_i hpeer
      rcases List.mem_cons.mp h with rfl | h
      · exact .inr ⟨first, List.mem_cons_self, hpeer, rfl⟩
      · exact .inl (List.mem_cons_of_mem first h)
    · rcases List.mem_cons.mp h with rfl | h
      · exact .inl List.mem_cons_self
      · rcases ih h with h | ⟨before, hmem, hrest⟩
        · exact .inl (List.mem_cons_of_mem first h)
        · exact .inr ⟨before, List.mem_cons_of_mem first hmem, hrest⟩

theorem map_updatePeer (hf : ∀ state, (f state).peer = state.peer) :
    (updatePeer peer f peers).map (·.peer) = peers.map (·.peer) := by
  induction peers with
  | nil => rfl
  | cons first rest ih =>
    rw [updatePeer]
    split
    · rw [List.map_cons, hf, List.map_cons]
    · rw [List.map_cons, ih, List.map_cons]

/-- Where the peers differ, the updated one is the only one of the peer. -/
theorem mem_updatePeer_self (hnodup : (peers.map (·.peer)).Nodup) {state : LivenessPeerState}
    (h : state ∈ updatePeer peer f peers)
    (hpeer : state.peer = peer) : ∃ before ∈ peers, before.peer = peer ∧ state = f before := by
  induction peers with
  | nil => cases h
  | cons first rest ih =>
    rw [List.map_cons, List.nodup_cons] at hnodup
    rw [updatePeer] at h
    split at h
    · rename_i hfirst
      rcases List.mem_cons.mp h with rfl | h
      · exact ⟨first, List.mem_cons_self, hfirst, rfl⟩
      · have hmem : first.peer ∈ rest.map (·.peer) := by
          rw [hfirst, ← hpeer]
          exact List.mem_map_of_mem h
        exact absurd hmem hnodup.1
    · rename_i hfirst
      rcases List.mem_cons.mp h with rfl | h
      · exact absurd hpeer hfirst
      · obtain ⟨before, hmem, hrest⟩ := ih hnodup.2 h
        exact ⟨before, List.mem_cons_of_mem first hmem, hrest⟩

theorem map_trackPeer (now_ms : UInt32) :
    (trackPeer now_ms peers peer).map (·.peer) =
      if peer ∈ peers.map (·.peer) then peers.map (·.peer) else peers.map (·.peer) ++ [peer] := by
  have hany : peers.any (·.peer = peer) = true ↔ peer ∈ peers.map (·.peer) := by
    simp [List.any_eq_true]
  rw [trackPeer]
  by_cases hmem : peer ∈ peers.map (·.peer)
  · rw [if_pos (hany.mpr hmem), if_pos hmem]
    apply map_updatePeer
    intro state
    split <;> rfl
  · rw [if_neg (mt hany.mp hmem), if_neg hmem, List.map_append]
    rfl

/-- A state after `syncLiveMonitorPeers` has been there, its stamp perhaps that of now, or it is new. -/
def Kept (now_ms : UInt32) (peers : List LivenessPeerState) (state : LivenessPeerState) : Prop :=
  ∃ before ∈ peers, before.peer = state.peer ∧ before.online = state.online ∧
    (state.last_seen_ms = before.last_seen_ms ∨ state.last_seen_ms = now_ms)

structure Fresh (now_ms : UInt32) (peers : List LivenessPeerState) (state : LivenessPeerState) : Prop where
  untracked : state.peer ∉ peers.map (·.peer)
  online : state.online = true
  last_seen_ms : state.last_seen_ms = now_ms

theorem mem_trackPeer {now_ms : UInt32} {state : LivenessPeerState} (h : state ∈ trackPeer now_ms peers peer) :
    Kept now_ms peers state ∨ Fresh now_ms peers state := by
  rw [trackPeer] at h
  split at h
  · left
    rcases mem_updatePeer h with h | ⟨before, hmem, -, rfl⟩
    · exact ⟨state, h, rfl, rfl, .inl rfl⟩
    · refine ⟨before, hmem, ?_⟩
      split
      · exact ⟨rfl, rfl, .inr rfl⟩
      · exact ⟨rfl, rfl, .inl rfl⟩
  · rename_i hany
    rcases List.mem_append.mp h with h | h
    · exact .inl ⟨state, h, rfl, rfl, .inl rfl⟩
    · obtain rfl := List.mem_singleton.mp h
      refine .inr ⟨?_, rfl, rfl⟩
      simpa [List.any_eq_true] using hany

theorem mem_foldl_trackPeer (now_ms : UInt32) (persisted : List MacAddress) {state : LivenessPeerState}
    (h : state ∈ persisted.foldl (trackPeer now_ms) peers) :
    Kept now_ms peers state ∨ Fresh now_ms peers state := by
  induction persisted generalizing peers with
  | nil => exact .inl ⟨state, h, rfl, rfl, .inl rfl⟩
  | cons peer persisted ih =>
    rcases ih h with ⟨middle, hmem, hpeer, honline, hstamp⟩ | hfresh
    · rcases mem_trackPeer hmem with ⟨before, hbefore, hpeer', honline', hstamp'⟩ | hfresh
      · refine .inl ⟨before, hbefore, hpeer'.trans hpeer, honline'.trans honline, ?_⟩
        rcases hstamp with hstamp | hstamp
        · rw [hstamp]
          exact hstamp'
        · exact .inr hstamp
      · refine .inr ⟨hpeer ▸ hfresh.untracked, honline ▸ hfresh.online, ?_⟩
        rcases hstamp with hstamp | hstamp
        · exact hstamp.trans hfresh.last_seen_ms
        · exact hstamp
    · refine .inr ⟨?_, hfresh.online, hfresh.last_seen_ms⟩
      intro hmem
      apply hfresh.untracked
      rw [map_trackPeer]
      split
      · exact hmem
      · exact List.mem_append_left _ hmem

theorem map_foldl_trackPeer (now_ms : UInt32) (persisted : List MacAddress)
    (hnodup : (peers.map (·.peer)).Nodup) :
    ((persisted.foldl (trackPeer now_ms) peers).map (·.peer)).Nodup ∧
      ∀ peer, peer ∈ (persisted.foldl (trackPeer now_ms) peers).map (·.peer) ↔
        peer ∈ peers.map (·.peer) ∨ peer ∈ persisted := by
  induction persisted generalizing peers with
  | nil => exact ⟨hnodup, fun peer => by simp⟩
  | cons first persisted ih =>
    have htracked : ((trackPeer now_ms peers first).map (·.peer)).Nodup ∧
        ∀ peer, peer ∈ (trackPeer now_ms peers first).map (·.peer) ↔ peer ∈ peers.map (·.peer) ∨ peer = first := by
      rw [map_trackPeer]
      split
      · rename_i hmem
        refine ⟨hnodup, fun peer => ⟨.inl, ?_⟩⟩
        rintro (h | rfl)
        · exact h
        · exact hmem
      · rename_i hmem
        refine ⟨List.nodup_append.mpr ⟨hnodup, List.nodup_singleton first, ?_⟩, fun peer => by simp⟩
        intro a ha b hb hab
        rw [List.mem_singleton.mp hb] at hab
        exact hmem (hab ▸ ha)
    obtain ⟨hrest, hiff⟩ := ih htracked.1
    refine ⟨hrest, fun peer => ?_⟩
    rw [List.foldl_cons, hiff peer, htracked.2 peer, List.mem_cons, or_assoc]

end Updates

section Syncing

variable {m : LiveMonitor} {persisted : List MacAddress}

theorem tracks_iff {peer : MacAddress} : m.Tracks peer ↔ peer ∈ m.peers.map (·.peer) := List.mem_map.symm

/-- Every persisted peer is tracked once, and no other. -/
theorem tracks_sync (hnodup : (m.peers.map (·.peer)).Nodup) (persisted : List MacAddress) :
    ((m.syncLiveMonitorPeers persisted).peers.map (·.peer)).Nodup ∧
      ∀ peer, (m.syncLiveMonitorPeers persisted).Tracks peer ↔ peer ∈ persisted := by
  have hfilter : ((m.peers.filter (·.peer ∈ persisted)).map (·.peer)).Nodup :=
    hnodup.sublist (List.filter_sublist.map _)
  obtain ⟨hunique, hiff⟩ := map_foldl_trackPeer m.now_ms persisted hfilter
  refine ⟨hunique, fun peer => ?_⟩
  rw [tracks_iff]
  refine (hiff peer).trans ⟨?_, .inr⟩
  rintro (h | h)
  · obtain ⟨state, hstate, rfl⟩ := List.mem_map.mp h
    simpa using (List.mem_filter.mp hstate).2
  · exact h

theorem mem_sync (hnodup : (m.peers.map (·.peer)).Nodup) {state : LivenessPeerState}
    (h : state ∈ (m.syncLiveMonitorPeers persisted).peers) :
    Kept m.now_ms m.peers state ∨ Fresh m.now_ms m.peers state := by
  rcases mem_foldl_trackPeer m.now_ms persisted h with ⟨before, hmem, hrest⟩ | hfresh
  · exact .inl ⟨before, (List.mem_filter.mp hmem).1, hrest⟩
  · refine .inr ⟨?_, hfresh.online, hfresh.last_seen_ms⟩
    have hpersisted : state.peer ∈ persisted := ((tracks_sync hnodup persisted).2 _).mp ⟨state, h, rfl⟩
    intro htracked
    obtain ⟨before, hmem, hpeer⟩ := List.mem_map.mp htracked
    apply hfresh.untracked
    rw [← hpeer]
    exact List.mem_map_of_mem (List.mem_filter.mpr ⟨hmem, by simpa [hpeer] using hpersisted⟩)

theorem Clocked.sync (h : m.Clocked) (persisted : List MacAddress) :
    (m.syncLiveMonitorPeers persisted).Clocked := by
  refine ⟨h.now, h.noted, (tracks_sync h.nodup persisted).1, ?_⟩
  intro state hstate
  rcases mem_sync h.nodup hstate with ⟨before, hmem, hpeer, -, hstamp⟩ | hfresh
  · rcases hstamp with hstamp | hstamp
    · rw [hstamp, ← hpeer]
      exact h.stamps before hmem
    · rw [hstamp]
      exact h.seenNow state.peer
  · rw [hfresh.last_seen_ms]
    exact h.seenNow state.peer

/-- A peer that is tracked anew was told offline, or the tracked peers still are what was told. -/
theorem agrees_sync_iff (h : m.Clocked) (hagrees : m.Agrees) (persisted : List MacAddress) :
    (m.syncLiveMonitorPeers persisted).Agrees ↔ m.NoneReturns persisted := by
  constructor
  · intro hafter peer hpersisted huntracked
    obtain ⟨state, hstate, rfl⟩ := ((tracks_sync h.nodup persisted).2 peer).mpr hpersisted
    have hflag : state.online = m.told state.peer := hafter state hstate
    rcases mem_sync h.nodup hstate with ⟨before, hmem, hpeer, -⟩ | hfresh
    · exact absurd ⟨before, hmem, hpeer⟩ huntracked
    · exact hflag.symm.trans hfresh.online
  · intro hnone state hstate
    have hpersisted : state.peer ∈ persisted := ((tracks_sync h.nodup persisted).2 _).mp ⟨state, hstate, rfl⟩
    rcases mem_sync h.nodup hstate with ⟨before, hmem, hpeer, honline, -⟩ | hfresh
    · have hbefore := hagrees before hmem
      rw [← honline, hbefore, hpeer]
      rfl
    · have htold := hnone state.peer hpersisted (mt tracks_iff.mp hfresh.untracked)
      rw [hfresh.online]
      exact htold.symm

end Syncing

section Visits

variable {m : LiveMonitor}

/-- What a visit of a peer does: its flag is lowered where the peer is silent for too long, and that is told. -/
def Visits (m : LiveMonitor) (visit : PumpState → LivenessPeerState → PumpState × LivenessPeerState) : Prop :=
  ∀ a state, (visit a state).2.peer = state.peer ∧ (visit a state).2.last_seen_ms = state.last_seen_ms ∧
    ((visit a state).1.transitions = a.transitions ∧ (visit a state).2.online = state.online ∨
      kLiveOfflineDetectMaxMs ≤ m.ageMs state ∧ state.online = true ∧ (visit a state).2.online = false ∧
        ∃ reason_code, (visit a state).1.transitions = a.transitions ++
          [m.transition state.peer false reason_code])

theorem visits_markOffline (henabled : m.enabled = true) (reason_code : UInt8) (a : PumpState)
    (state : LivenessPeerState) :
    (m.markOffline reason_code a state).2 = { state with online := false } ∧
      (m.markOffline reason_code a state).1.transitions =
        a.transitions ++ [m.transition state.peer false reason_code] := by
  rw [markOffline]
  simp [henabled]

theorem visits_recheckPeer (henabled : m.enabled = true) : m.Visits m.recheckPeer := by
  intro a state
  rw [recheckPeer]
  dsimp only
  split
  · rename_i hdue
    obtain ⟨hstate, htold⟩ := visits_markOffline henabled kLiveTransitionReasonResumeRecheckTimeout a
      { state with probe_pending := false, probe_sent_ms := 0, probe_fail_count := 0 }
    rw [hstate, htold]
    exact ⟨rfl, rfl, .inr ⟨hdue.1, hdue.2, rfl, _, rfl⟩⟩
  · split <;> exact ⟨rfl, rfl, .inl ⟨rfl, rfl⟩⟩

theorem visits_checkAge (henabled : m.enabled = true) (probe_timeout_ms : UInt32) :
    m.Visits (m.checkAge probe_timeout_ms) := by
  intro a state
  rw [checkAge]
  dsimp only
  split
  · rename_i hdue
    split
    · rename_i honline
      obtain ⟨hstate, htold⟩ := visits_markOffline henabled kLiveTransitionReasonProbeTimeoutThreshold a
        { state with probe_pending := false, probe_sent_ms := 0 }
      rw [hstate, htold]
      exact ⟨rfl, rfl, .inr ⟨hdue, honline, rfl, _, rfl⟩⟩
    · exact ⟨rfl, rfl, .inl ⟨rfl, rfl⟩⟩
  · split
    · exact ⟨rfl, rfl, .inl ⟨rfl, rfl⟩⟩
    · split <;> exact ⟨rfl, rfl, .inl ⟨rfl, rfl⟩⟩

theorem sendProbe_silent (calls : PumpCalls) (probe_budget : UInt8) (probe_timeout_ms : UInt32) (a : PumpState)
    (state : LivenessPeerState) :
    (m.sendProbe calls probe_budget probe_timeout_ms a state).2.peer = state.peer ∧
      (m.sendProbe calls probe_budget probe_timeout_ms a state).2.last_seen_ms = state.last_seen_ms ∧
      (m.sendProbe calls probe_budget probe_timeout_ms a state).2.online = state.online ∧
      (m.sendProbe calls probe_budget probe_timeout_ms a state).1.transitions = a.transitions := by
  rw [sendProbe]
  dsimp only
  split_ifs <;> exact ⟨rfl, rfl, rfl, rfl⟩

theorem visits_probePeer (henabled : m.enabled = true) (calls : PumpCalls) (probe_budget : UInt8)
    (probe_timeout_ms : UInt32) : m.Visits (m.probePeer calls probe_budget probe_timeout_ms) := by
  intro a state
  rw [probePeer]
  split
  · exact ⟨rfl, rfl, .inl ⟨rfl, rfl⟩⟩
  · split
    · rename_i hdue
      obtain ⟨hstate, htold⟩ := visits_markOffline henabled kLiveTransitionReasonProbeTimeoutThreshold a state
      obtain ⟨hpeer, hstamp, honline, htransitions⟩ := sendProbe_silent (m := m) calls probe_budget
        probe_timeout_ms (m.markOffline kLiveTransitionReasonProbeTimeoutThreshold a state).1
        (m.markOffline kLiveTransitionReasonProbeTimeoutThreshold a state).2
      rw [hpeer, hstamp, honline, htransitions, hstate, htold]
      exact ⟨rfl, rfl, .inr ⟨hdue.1, hdue.2, rfl, _, rfl⟩⟩
    · obtain ⟨hpeer, hstamp, honline, htransitions⟩ := sendProbe_silent (m := m) calls probe_budget
        probe_timeout_ms a state
      exact ⟨hpeer, hstamp, .inl ⟨htransitions, honline⟩⟩

/-- The peer and the stamp of a state, which no visit changes. -/
def label (state : LivenessPeerState) : MacAddress × UInt32 := (state.peer, state.last_seen_ms)

/-- Peers of which some were lowered in the loops of a pump. -/
abbrev Lowered (m : LiveMonitor) (log log' : ChangeLog MacAddress) (todo done : List LivenessPeerState) : Prop :=
  Swept label Prod.fst (·.online) (fun l => kLiveOfflineDetectMaxMs ≤ m.now_ms - l.2) log log' todo done

/-- What a loop of a pump does. -/
theorem lowered_sweep {visit : PumpState → LivenessPeerState → PumpState × LivenessPeerState}
    (hvisit : m.Visits visit) (h : m.Clocked) {todo : List LivenessPeerState}
    (hnodup : (todo.map fun state => (label state).1).Nodup)
    (hlabels : ∀ state ∈ todo, label state ∈ m.peers.map label) (a : PumpState) :
    m.Lowered (a.transitions.map LiveTransition.change)
        ((sweep visit a todo).1.transitions.map LiveTransition.change) todo (sweep visit a todo).2 ∧
      ((∀ r ∈ a.transitions, r.Due) → ∀ r ∈ (sweep visit a todo).1.transitions, r.Due) := by
  have hlowers : Lowers label Prod.fst (·.online) (fun a : PumpState => a.transitions.map LiveTransition.change)
      (fun l => kLiveOfflineDetectMaxMs ≤ m.now_ms - l.2) visit := by
    constructor
    · intro a state
      obtain ⟨hpeer, hstamp, -⟩ := hvisit a state
      exact Prod.ext hpeer hstamp
    · intro a state
      obtain ⟨-, -, ⟨hsame, honline⟩ | ⟨hdue, hup, hdown, reason_code, htold⟩⟩ := hvisit a state
      · exact .inl ⟨congrArg _ hsame, honline⟩
      · refine .inr ⟨hdue, hup, hdown, ?_⟩
        rw [htold, List.map_append]
        rfl
  refine ⟨sweep_swept hlowers todo hnodup a, fun ha => ?_⟩
  refine sweep_invariant (P := fun a : PumpState => ∀ r ∈ a.transitions, r.Due) todo ?_ ha
  intro a state hstate ha
  obtain ⟨-, -, ⟨hsame, -⟩ | ⟨hdue, -, -, reason_code, htold⟩⟩ := hvisit a state
  · rw [hsame]
    exact ha
  · rw [htold]
    intro r hr
    rcases List.mem_append.mp hr with hr | hr
    · exact ha r hr
    · rw [List.mem_singleton.mp hr]
      intro _
      obtain ⟨before, hmem, hbefore⟩ := List.mem_map.mp (hlabels state hstate)
      have hseen := h.stamps before hmem
      have hpeer : before.peer = state.peer := congrArg Prod.fst hbefore
      have hstamp : before.last_seen_ms = state.last_seen_ms := congrArg Prod.snd hbefore
      rw [hpeer, hstamp] at hseen
      exact h.silence hseen hdue

/-- What the loops of a pump do together. -/
theorem lowered_pumpPeers (h : m.Clocked) (henabled : m.enabled = true) (was_ignore : Bool) (calls : PumpCalls) :
    m.Lowered m.log (m.pumpPeers was_ignore calls).log m.peers (m.pumpPeers was_ignore calls).peers ∧
      ((∀ r ∈ m.transitions, r.Due) → ∀ r ∈ (m.pumpPeers was_ignore calls).transitions, r.Due) := by
  have hmem : ∀ {todo : List LivenessPeerState}, todo.map label = m.peers.map label →
      (todo.map fun state => (label state).1).Nodup ∧ ∀ state ∈ todo, label state ∈ m.peers.map label := by
    intro todo hlabels
    refine ⟨?_, fun state hstate => hlabels ▸ List.mem_map_of_mem hstate⟩
    have hkeys := congrArg (List.map Prod.fst) hlabels
    rw [List.map_map, List.map_map] at hkeys
    exact hkeys ▸ h.nodup
  let a : PumpState :=
    { transitions := m.transitions
      last_transition_ms := m.last_transition_ms
      next_probe_corr_id := m.next_probe_corr_id }
  have hfirst : ∀ first, first = (if was_ignore then sweep m.recheckPeer a m.peers else (a, m.peers)) →
      m.Lowered m.log (first.1.transitions.map LiveTransition.change) m.peers first.2 ∧
        ((∀ r ∈ m.transitions, r.Due) → ∀ r ∈ first.1.transitions, r.Due) := by
    rintro first rfl
    split
    · exact lowered_sweep (visits_recheckPeer henabled) h (hmem rfl).1 (hmem rfl).2 a
    · exact ⟨Swept.refl _ _, id⟩
  have hsecond : ∀ second, second = sweep (m.checkAge (liveProbeTimeoutMs m.peers.length))
        (if was_ignore then sweep m.recheckPeer a m.peers else (a, m.peers)).1
        (if was_ignore then sweep m.recheckPeer a m.peers else (a, m.peers)).2 →
      m.Lowered m.log (second.1.transitions.map LiveTransition.change) m.peers second.2 ∧
        ((∀ r ∈ m.transitions, r.Due) → ∀ r ∈ second.1.transitions, r.Due) := by
    rintro second rfl
    obtain ⟨hlowered, hdue⟩ := hfirst _ rfl
    obtain ⟨hnodup, hlabels⟩ := hmem hlowered.labels
    obtain ⟨hlowered', hdue'⟩ := lowered_sweep (visits_checkAge henabled _) h hnodup hlabels _
    exact ⟨hlowered.trans hlowered', fun hm => hdue' (hdue hm)⟩
  rw [pumpPeers]
  dsimp only
  change m.Lowered _ (LiveMonitor.log (if _ then _ else _)) _ (LiveMonitor.peers (if _ then _ else _)) ∧ _
  obtain ⟨hlowered, hdue⟩ := hsecond _ rfl
  split
  · exact ⟨hlowered, hdue⟩
  · rename_i hsome
    have hpos : 0 < m.peers.length := List.length_pos_iff.mpr fun hnil => hsome (.inr (.inl hnil))
    have hstart := Nat.mod_lt m.probe_rr_cursor.toNat hpos
    obtain ⟨hnodup, hlabels⟩ := hmem hlowered.labels
    have hlength := congrArg List.length hlowered.labels
    rw [List.length_map, List.length_map] at hlength
    have hnodup' := hnodup
    rw [← List.nodup_rotate (n := m.probe_rr_cursor.toNat % m.peers.length), ← List.map_rotate] at hnodup'
    obtain ⟨hlowered', hdue'⟩ := lowered_sweep
      (visits_probePeer henabled calls m.probeBudget (liveProbeTimeoutMs m.peers.length)) h hnodup'
      (fun state hstate => hlabels state (List.mem_rotate.mp hstate)) _
    have hrotated := Swept.rotate (by rw [hlength]; exact hstart.le) hlowered'
    rw [hlength] at hrotated
    exact ⟨hlowered.trans hrotated, fun hm => hdue' (hdue hm)⟩

end Visits

end LiveMonitor

end EspNowLink
