import EspNowLink.Core.Types
import EspNowLink.Framework.ChangeLog

open Framework

namespace EspNowLink

section Constants

def kLiveOfflineDetectMaxMs : UInt32 := 2500
def kLiveProbeLeadMs : UInt32 := 1500
def kLiveProbeUrgencyWindowMs : UInt32 := 600
def kLiveProbeTimeoutFastMs : UInt32 := 500
def kLiveProbeTimeoutNormalMs : UInt32 := 700
def kLiveProbeBudgetFast : UInt8 := 2
def kLiveProbeBudgetNormal : UInt8 := 1
def kLiveIgnoreReasonOtaPush : UInt16 := 0x0001
def kLiveIgnoreReasonOtaUpdate : UInt16 := 0x0002
def kLiveIgnoreReasonCriticalInflight : UInt16 := 0x0004
def kLiveIgnoreReasonMasterUpdateGuard : UInt16 := 0x0008
def kLiveTransitionReasonPassiveRx : UInt8 := 1
def kLiveTransitionReasonProbeSuccess : UInt8 := 2
def kLiveTransitionReasonProbeTimeoutThreshold : UInt8 := 3
def kLiveTransitionReasonResumeRecheckTimeout : UInt8 := 4
def kMasterUpdateLiveGuardMs : UInt32 := 120000

def liveProbeTriggerAgeMs : UInt32 := kLiveOfflineDetectMaxMs - kLiveProbeLeadMs

def liveProbeUrgencyAgeMs : UInt32 := kLiveOfflineDetectMaxMs - kLiveProbeUrgencyWindowMs

def liveProbeTimeoutMs (paired_count : Nat) : UInt32 :=
  if paired_count ≤ 4 then kLiveProbeTimeoutFastMs else kLiveProbeTimeoutNormalMs

def liveProbeBudgetPerPump (paired_count : Nat) : UInt8 :=
  if paired_count ≤ 4 then kLiveProbeBudgetFast else kLiveProbeBudgetNormal

end Constants

structure LivenessPeerState where
  peer : MacAddress
  online : Bool := true
  last_seen_ms : UInt32 := 0
  probe_pending : Bool := false
  probe_sent_ms : UInt32 := 0
  probe_fail_count : UInt8 := 0
  deriving DecidableEq

/-- A `PeerLivenessTransition`, with the service's time in full and the time when the last frame of the peer
was noted; these two are read by nothing. -/
structure LiveTransition where
  peer : MacAddress
  online : Bool
  reason_code : UInt8
  now_ms : UInt32
  time : Nat
  noted : Option Nat
  deriving DecidableEq

inductive RadioTransitionState where
  | Idle
  | Quiescing
  | Paused
  | Resuming
  | Failed
  deriving DecidableEq

/-- The live monitor of a `ManagementService`, with the clock of the service and its radio transition. Below
`time` stands what nothing in the service reads: the time of its last tick in full, when a frame of each peer was
last noted, the transitions emitted so far, and the persisted peers of the pump that has just ended. -/
structure LiveMonitor where
  now_ms : UInt32 := 0
  has_pull : Bool := true
  enabled : Bool := false
  ignore_active : Bool := false
  ignore_reason_mask : UInt16 := 0
  next_probe_due_ms : UInt32 := 0
  last_transition_ms : UInt32 := 0
  next_probe_corr_id : UInt32 := 1
  probe_rr_cursor : UInt8 := 0
  peers : List LivenessPeerState := []
  master_update_guard_until_ms : UInt32 := 0
  radio_transition_active : Bool := false
  radio_transition_state : RadioTransitionState := .Idle
  radio_transition_restore : Bool := false
  time : Nat := 0
  noted : MacAddress → Option Nat := fun _ => none
  transitions : List LiveTransition := []
  pumped : Option (List MacAddress) := none

/-- What a pump asks of the rest of the service, of the manager and of the pull client. -/
structure PumpCalls where
  persisted : List MacAddress
  ota_push_active : Bool := false
  ota_update_active : Bool := false
  critical_inflight : Bool := false
  hasPendingTargetRequest : MacAddress → Bool := fun _ => false
  requestLiveness : MacAddress → UInt32 → Bool := fun _ _ => true

/-- What the loops of a pump carry along. -/
structure PumpState where
  transitions : List LiveTransition
  last_transition_ms : UInt32
  next_due_ms : UInt32 := 0xFFFFFFFF
  next_probe_corr_id : UInt32
  probes_sent : UInt8 := 0
  stopped : Bool := false

def PumpState.trackNextDue (a : PumpState) (due_ms : UInt32) : PumpState :=
  { a with next_due_ms := if due_ms < a.next_due_ms then due_ms else a.next_due_ms }

namespace LiveMonitor

variable (m : LiveMonitor)

section Peers

/-- The first state of the peer, changed. -/
def updatePeer (peer : MacAddress) (f : LivenessPeerState → LivenessPeerState) :
    List LivenessPeerState → List LivenessPeerState
  | [] => []
  | state :: rest => if state.peer = peer then f state :: rest else state :: updatePeer peer f rest

def findLivePeerState (peer : MacAddress) : Option LivenessPeerState := m.peers.find? (·.peer = peer)

def removeLivePeerState (peer : MacAddress) : LiveMonitor :=
  { m with peers := m.peers.filter (·.peer ≠ peer) }

/-- A persisted peer in the loop of `syncLiveMonitorPeers`. -/
def trackPeer (now_ms : UInt32) (peers : List LivenessPeerState) (peer : MacAddress) : List LivenessPeerState :=
  if peers.any (·.peer = peer) then
    updatePeer peer
      (fun state => if state.last_seen_ms = 0 then { state with last_seen_ms := now_ms } else state) peers
  else peers ++ [{ peer := peer, last_seen_ms := now_ms }]

def syncLiveMonitorPeers (persisted : List MacAddress) : LiveMonitor :=
  { m with peers := persisted.foldl (trackPeer m.now_ms) (m.peers.filter (·.peer ∈ persisted)) }

def transition (peer : MacAddress) (online : Bool) (reason_code : UInt8) : LiveTransition where
  peer := peer
  online := online
  reason_code := reason_code
  now_ms := m.now_ms
  time := m.time
  noted := m.noted peer

def emitLivePeerTransition (peer : MacAddress) (online : Bool) (reason_code : UInt8) : LiveMonitor :=
  if !m.enabled then m
  else
    { m with
      last_transition_ms := m.now_ms
      transitions := m.transitions ++ [m.transition peer online reason_code] }

/-- A frame of a peer; of one that is not persisted nothing is noted. -/
def noteLivePeerSeen (persisted : Bool) (peer : MacAddress) (reason_code : UInt8) : LiveMonitor :=
  if !persisted then m
  else
    let m := { m with noted := fun p => if p = peer then some m.time else m.noted p }
    match m.findLivePeerState peer with
    | none => { m with peers := m.peers ++ [{ peer := peer, last_seen_ms := m.now_ms }] }
    | some state =>
      let reason := if state.probe_pending then kLiveTransitionReasonProbeSuccess else reason_code
      let seen : LiveMonitor := { m with
        peers := updatePeer peer (fun state =>
          { state with
            online := true
            last_seen_ms := m.now_ms
            probe_pending := false
            probe_sent_ms := 0
            probe_fail_count := 0 }) m.peers }
      if state.online then seen else seen.emitLivePeerTransition peer true reason

end Peers

section Pump

def liveMonitorIgnoreReasonMask (calls : PumpCalls) : UInt16 :=
  (if calls.ota_push_active then kLiveIgnoreReasonOtaPush else 0) |||
    (if calls.ota_update_active then kLiveIgnoreReasonOtaUpdate else 0) |||
    (if calls.critical_inflight then kLiveIgnoreReasonCriticalInflight else 0) |||
    if m.master_update_guard_until_ms ≠ 0 ∧ 0x80000000 ≤ m.now_ms - m.master_update_guard_until_ms then
      kLiveIgnoreReasonMasterUpdateGuard
    else 0

def ageMs (state : LivenessPeerState) : UInt32 := m.now_ms - state.last_seen_ms

/-- The peer goes offline. -/
def markOffline (reason_code : UInt8) (a : PumpState) (state : LivenessPeerState) :
    PumpState × LivenessPeerState :=
  let state := { state with online := false }
  if !m.enabled then (a, state)
  else
    ({ a with
        last_transition_ms := m.now_ms
        transitions := a.transitions ++ [m.transition state.peer false reason_code] }, state)

/-- The first loop, after a pump that ignored. -/
def recheckPeer (a : PumpState) (state : LivenessPeerState) : PumpState × LivenessPeerState :=
  let state := { state with probe_pending := false, probe_sent_ms := 0, probe_fail_count := 0 }
  let age_ms := m.ageMs state
  if kLiveOfflineDetectMaxMs ≤ age_ms ∧ state.online then
    m.markOffline kLiveTransitionReasonResumeRecheckTimeout a state
  else if age_ms < kLiveOfflineDetectMaxMs then (a.trackNextDue (kLiveOfflineDetectMaxMs - age_ms), state)
  else (a, state)

/-- The second loop. -/
def checkAge (probe_timeout_ms : UInt32) (a : PumpState) (state : LivenessPeerState) :
    PumpState × LivenessPeerState :=
  let age_ms := m.ageMs state
  let untilTrigger := liveProbeTriggerAgeMs - age_ms
  if kLiveOfflineDetectMaxMs ≤ age_ms then
    let state := { state with probe_pending := false, probe_sent_ms := 0 }
    if state.online then m.markOffline kLiveTransitionReasonProbeTimeoutThreshold a state else (a, state)
  else if !state.probe_pending then
    (a.trackNextDue (if age_ms < liveProbeTriggerAgeMs then untilTrigger else 1), state)
  else
    let probe_age_ms := m.now_ms - state.probe_sent_ms
    if probe_age_ms < probe_timeout_ms then (a.trackNextDue (probe_timeout_ms - probe_age_ms), state)
    else
      (a.trackNextDue (if liveProbeUrgencyAgeMs ≤ age_ms then 20
          else if age_ms < liveProbeTriggerAgeMs then untilTrigger else 80),
        { state with
          probe_pending := false
          probe_sent_ms := 0
          probe_fail_count :=
            if state.probe_fail_count < 0xFF then state.probe_fail_count + 1 else state.probe_fail_count })

/-- The probe of one peer, once its age has been looked at. -/
def sendProbe (calls : PumpCalls) (probe_budget : UInt8) (probe_timeout_ms : UInt32) (a : PumpState)
    (state : LivenessPeerState) : PumpState × LivenessPeerState :=
  let age_ms := m.ageMs state
  if state.online ∧ age_ms < liveProbeTriggerAgeMs then
    (a.trackNextDue (liveProbeTriggerAgeMs - age_ms), state)
  else
    let near_deadline := state.online ∧ liveProbeUrgencyAgeMs ≤ age_ms
    if calls.hasPendingTargetRequest state.peer ∧ ¬near_deadline then (a.trackNextDue 50, state)
    else
      let corr_id := if a.next_probe_corr_id = 0 then 1 else a.next_probe_corr_id
      let a := { a with next_probe_corr_id := corr_id + 1 }
      if calls.requestLiveness state.peer corr_id then
        ({ a.trackNextDue probe_timeout_ms with
            probes_sent := a.probes_sent + 1
            stopped := probe_budget ≤ a.probes_sent + 1 },
          { state with probe_pending := true, probe_sent_ms := m.now_ms })
      else (a.trackNextDue (if near_deadline then 20 else 50), state)

/-- The third loop; it is left when the probes of a pump are spent. -/
def probePeer (calls : PumpCalls) (probe_budget : UInt8) (probe_timeout_ms : UInt32) (a : PumpState)
    (state : LivenessPeerState) : PumpState × LivenessPeerState :=
  if a.stopped ∨ state.probe_pending then (a, state)
  else if kLiveOfflineDetectMaxMs ≤ m.ageMs state ∧ state.online then
    let marked := m.markOffline kLiveTransitionReasonProbeTimeoutThreshold a state
    m.sendProbe calls probe_budget probe_timeout_ms marked.1 marked.2
  else m.sendProbe calls probe_budget probe_timeout_ms a state

def probeBudget : UInt8 :=
  let recovery_budget := if m.peers.length ≤ 4 then 3 else 2
  if m.peers.all (·.online) then liveProbeBudgetPerPump m.peers.length
  else max (liveProbeBudgetPerPump m.peers.length) recovery_budget

/-- The monitor at the end of the loops. -/
def pumpDone (a : PumpState) (peers : List LivenessPeerState) : LiveMonitor :=
  { m with
    transitions := a.transitions
    last_transition_ms := a.last_transition_ms
    next_probe_corr_id := a.next_probe_corr_id
    next_probe_due_ms := if a.next_due_ms = 0xFFFFFFFF then 0 else a.next_due_ms
    peers := peers }

/-- The loops of a pump over the peers of the monitor. -/
def pumpPeers (was_ignore : Bool) (calls : PumpCalls) : LiveMonitor :=
  let probe_timeout_ms := liveProbeTimeoutMs m.peers.length
  let a : PumpState :=
    { transitions := m.transitions
      last_transition_ms := m.last_transition_ms
      next_probe_corr_id := m.next_probe_corr_id }
  let first := if was_ignore then sweep m.recheckPeer a m.peers else (a, m.peers)
  let second := sweep (m.checkAge probe_timeout_ms) first.1 first.2
  if !m.has_pull ∨ m.peers = [] ∨ m.probeBudget = 0 then m.pumpDone second.1 second.2
  else
    let start_index := m.probe_rr_cursor.toNat % m.peers.length
    let third := sweep (m.probePeer calls m.probeBudget probe_timeout_ms) second.1 (second.2.rotate start_index)
    { m.pumpDone third.1 (third.2.rotate (m.peers.length - start_index)) with
      probe_rr_cursor := UInt8.ofNat ((start_index + 1) % m.peers.length) }

def pumpLiveMonitor (calls : PumpCalls) : LiveMonitor :=
  let was_ignore := m.ignore_active
  let mask := m.liveMonitorIgnoreReasonMask calls
  let m : LiveMonitor := { m.syncLiveMonitorPeers calls.persisted with
    ignore_reason_mask := mask
    ignore_active := mask ≠ 0
    pumped := some calls.persisted }
  if !m.enabled ∨ m.ignore_active then { m with next_probe_due_ms := 0 }
  else m.pumpPeers was_ignore calls

end Pump

section Switching

def resetProbes (state : LivenessPeerState) : LivenessPeerState :=
  { state with probe_pending := false, probe_sent_ms := 0, probe_fail_count := 0 }

/-- What `LiveMonitorDisable` and the radio transitions do to the monitor. -/
def disable : LiveMonitor :=
  { m with enabled := false, next_probe_due_ms := 0, peers := m.peers.map resetProbes }

def enable (persisted : List MacAddress) : LiveMonitor :=
  syncLiveMonitorPeers { m with enabled := true } persisted

/-- `beginRadioTransition`. -/
def beginRadioTransition (disable_live_monitor clear_master_update_guard : Bool) : LiveMonitor :=
  if m.radio_transition_active ∧ (m.radio_transition_state = .Quiescing ∨ m.radio_transition_state = .Paused) then m
  else
    let restore := disable_live_monitor && m.enabled
    let m := if disable_live_monitor then m.disable else m
    { m with
      radio_transition_active := true
      radio_transition_state := .Paused
      radio_transition_restore := restore
      master_update_guard_until_ms := if clear_master_update_guard then 0 else m.master_update_guard_until_ms }

/-- `endRadioTransition`. -/
def endRadioTransition (restore_live_monitor sync_live_monitor_peers : Bool) (persisted : List MacAddress) :
    LiveMonitor :=
  if !m.radio_transition_active then { m with radio_transition_state := .Idle }
  else
    let enabled := m.enabled || restore_live_monitor && m.radio_transition_restore
    let m := { m with
      enabled := enabled
      radio_transition_restore := false
      radio_transition_active := false
      radio_transition_state := .Idle }
    if sync_live_monitor_peers ∧ enabled then m.syncLiveMonitorPeers persisted else m

/-- `hardDeinitRadio`. -/
def hardDeinitRadio (disable_live_monitor clear_master_update_guard : Bool) : LiveMonitor :=
  let m := if disable_live_monitor then m.disable else m
  { m with
    radio_transition_active := true
    radio_transition_state := .Paused
    master_update_guard_until_ms := if clear_master_update_guard then 0 else m.master_update_guard_until_ms }

/-- `hardReinitRadio` without a reset of the service, which would be a new start. -/
def hardReinitRadio (manager_begins : Bool) : LiveMonitor :=
  if manager_begins then
    { m with
      radio_transition_active := false
      radio_transition_state := .Idle
      radio_transition_restore := false }
  else { m with radio_transition_active := true, radio_transition_state := .Failed }

end Switching

end LiveMonitor

/-- What happens to the live monitor. A tick of the service is a `clock`, at most one command, and a `pump`; a
`Paired` event is a `sync` and a `frame`, an unpaired peer a `remove`, with a `sync` where an event tells it. -/
inductive LiveInput where
  | clock (elapsed_ms : Nat)
  | enable (persisted : List MacAddress)
  | disable
  | masterUpdate
  | pump (calls : PumpCalls)
  | frame (persisted : Bool) (peer : MacAddress) (reason_code : UInt8)
  | remove (peer : MacAddress)
  | sync (persisted : List MacAddress)
  | beginTransition (disable_live_monitor clear_master_update_guard : Bool)
  | endTransition (restore_live_monitor sync_live_monitor_peers : Bool) (persisted : List MacAddress)
  | hardDeinit (disable_live_monitor clear_master_update_guard : Bool)
  | hardReinit (manager_begins : Bool)

namespace LiveMonitor

def perform (m : LiveMonitor) : LiveInput → LiveMonitor
  | .clock elapsed_ms =>
    { m with time := m.time + elapsed_ms, now_ms := UInt32.ofNat (m.time + elapsed_ms) }
  | .enable persisted => m.enable persisted
  | .disable => m.disable
  | .masterUpdate => { m with master_update_guard_until_ms := m.now_ms + kMasterUpdateLiveGuardMs }
  | .pump calls => m.pumpLiveMonitor calls
  | .frame persisted peer reason_code => m.noteLivePeerSeen persisted peer reason_code
  | .remove peer => m.removeLivePeerState peer
  | .sync persisted => m.syncLiveMonitorPeers persisted
  | .beginTransition disable_live_monitor clear_master_update_guard =>
    m.beginRadioTransition disable_live_monitor clear_master_update_guard
  | .endTransition restore_live_monitor sync_live_monitor_peers persisted =>
    m.endRadioTransition restore_live_monitor sync_live_monitor_peers persisted
  | .hardDeinit disable_live_monitor clear_master_update_guard =>
    m.hardDeinitRadio disable_live_monitor clear_master_update_guard
  | .hardReinit manager_begins => m.hardReinitRadio manager_begins

def step (m : LiveMonitor) (i : LiveInput) : LiveMonitor := { m with pumped := none }.perform i

/-- `begin`: the monitor as it was stored, tracking the persisted peers. -/
def start (has_pull enabled : Bool) (persisted : List MacAddress) : LiveMonitor :=
  syncLiveMonitorPeers { has_pull := has_pull, enabled := enabled } persisted

end LiveMonitor

end EspNowLink
