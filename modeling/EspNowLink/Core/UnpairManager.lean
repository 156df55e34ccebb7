import EspNowLink.Pairing.UnpairConfinement
import EspNowLink.Telemetry.MandatoryEvents
import EspNowLink.Telemetry.PushControl
import EspNowLink.Topology.Manager

namespace EspNowLink

open Framework

def kPeerRoleMetaSlot : UInt8 := 3

inductive LogicalPeerState where
  | Discovered
  | Pairing
  | Paired
  | Offline
  deriving DecidableEq

structure PeerRecord where
  mac : MacAddress
  state : LogicalPeerState
  pinned : Bool
  last_rssi : Int16
  last_seen_ms : UInt32
  last_liveness_online : Bool
  retry_count : UInt32
  backoff_until_ms : UInt32
  deriving DecidableEq

structure PeerRoleHintEntry where
  peer : MacAddress
  role_code : UInt8
  deriving DecidableEq

/-- The part of a manager that the end of a pairing reaches. The role, the address of the node and the
store are those of the engine. -/
structure LinkManager where
  pairing : PairingEngine
  telemetry : TelemetryManager
  mandatory_event_queue : List PendingMandatoryEvent
  peer_role_hints : List PeerRoleHintEntry
  topology_attached_peers : List MacAddress
  peer_registry : List PeerRecord

namespace TelemetryManager

/-- To clear a configuration touches its blob only. -/
theorem clearTelemetryPushConfig_frame (m : TelemetryManager) (master : MacAddress) {s : PairingStore}
    (hs : m.store = some s) :
    ∃ u, (m.clearTelemetryPushConfig master).2.store = some u ∧
      PairingStore.StoreFrame {s.makeMetaKey m.local_mac master kTelemetryMetaSlot} s u := by
  unfold clearTelemetryPushConfig
  rw [hs]
  dsimp only
  split
  · exact ⟨s, hs, .refl s⟩
  · have hload := (s.loadMetaBlob_frame m.local_mac master kTelemetryMetaSlot).1
    have herase := (s.loadMetaBlob m.local_mac master kTelemetryMetaSlot).2.eraseMetaBlob_frame
      m.local_mac master kTelemetryMetaSlot
    rw [hload.makeMetaKey] at herase
    have hread := hload.mono (Set.empty_subset {s.makeMetaKey m.local_mac master kTelemetryMetaSlot})
    have hstore : ∀ (u : PairingStore) (session : Bool),
        (if session then (m.withPushStore u).withSession {} else m.withPushStore u).store = some u := by
      intro u session
      cases session <;> rfl
    cases (s.loadMetaBlob m.local_mac master kTelemetryMetaSlot).1 with
    | none => exact ⟨_, hstore _ _, hread⟩
    | some blob => exact ⟨_, hstore _ _, hread.trans herase⟩

theorem clearTelemetryPushConfig_storeless (m : TelemetryManager) (master : MacAddress)
    (hs : m.store = none) : (m.clearTelemetryPushConfig master).2.store = none := by
  unfold clearTelemetryPushConfig
  rw [hs]
  exact hs

/-- Only the session of the master itself is dropped. -/
theorem clearTelemetryPushConfig_session (m : TelemetryManager) (master : MacAddress)
    (h : ¬ (m.push_session.has_master = true ∧ m.push_session.master = master)) :
    (m.clearTelemetryPushConfig master).2.push_session = m.push_session := by
  unfold clearTelemetryPushConfig
  cases hs : m.store with
  | none => rfl
  | some s =>
    dsimp only
    split
    · rfl
    · have hkept : ∀ u, ((m.withPushStore u).push_session.has_master &&
          decide ((m.withPushStore u).push_session.master = master)) = false := by
        intro u
        rw [Bool.eq_false_iff]
        intro hown
        obtain ⟨hmaster, hown⟩ := Bool.and_eq_true_iff.mp hown
        exact h ⟨hmaster, of_decide_eq_true hown⟩
      rw [hkept]
      rfl

end TelemetryManager

namespace LinkManager

def local_role (m : LinkManager) : Role := m.pairing.config.local_role

def withPairing (m : LinkManager) (pairing : PairingEngine) : LinkManager := { m with pairing := pairing }

def clearEvents (m : LinkManager) : LinkManager := { m with mandatory_event_queue := [] }

/-- The state that the functions of the telemetry push work on. -/
def telemetryView (m : LinkManager) : TelemetryManager :=
  { m.telemetry with
    local_role := m.pairing.config.local_role
    local_mac := m.pairing.local_mac
    store := m.pairing.store }

def clearTelemetryPushConfig (m : LinkManager) (master : MacAddress) : LinkManager :=
  let telemetry := (m.telemetryView.clearTelemetryPushConfig master).2
  { m with telemetry := telemetry, pairing := { m.pairing with store := telemetry.store } }

/-- `eraseMetaBlob` with its result ignored; a store that is missing or disabled is skipped. -/
def eraseMeta (m : LinkManager) (peer : MacAddress) (slot : UInt8) : LinkManager :=
  m.withPairing (m.pairing.withStore fun s => (s.eraseMetaBlob m.pairing.local_mac peer slot).2)

def eraseLocalMetaBlob (m : LinkManager) (slot : UInt8) : LinkManager := m.eraseMeta zeroMac slot

def onRxUnpairRequest (m : LinkManager) (sender : MacAddress) (corr_id : UInt32) : Bool × LinkManager :=
  let m := if m.local_role = .Slave then
      { m.clearEvents with telemetry := m.telemetry.withSession {} }.clearTelemetryPushConfig sender
    else m
  let (ok, pairing) := m.pairing.onUnpairRequest sender corr_id
  (ok, m.withPairing pairing)

def requestUnpair (m : LinkManager) (peer : MacAddress) (corr_id : UInt32) : Bool × LinkManager :=
  let m := if m.local_role = .Master then m.clearTelemetryPushConfig peer else m.clearEvents
  let (ok, pairing) := m.pairing.requestUnpair peer corr_id
  let m := m.withPairing pairing
  (ok, if ok && m.local_role = .Slave then m.eraseLocalMetaBlob kTopologyMetaSlotLmk else m)

/-- What `removePeer` erases before it calls the engine. -/
def forgetPeerMeta (m : LinkManager) (peer : MacAddress) : LinkManager :=
  (m.clearTelemetryPushConfig peer).eraseMeta peer kPeerRoleMetaSlot

def dropRoleHints (m : LinkManager) (peer : MacAddress) : LinkManager :=
  { m with peer_role_hints := m.peer_role_hints.filter (·.peer != peer) }

/-- `peer_registry_.removePeer` and the loop over the attached peers. -/
def dropEntries (m : LinkManager) (peer : MacAddress) : LinkManager :=
  { m with
    peer_registry := m.peer_registry.eraseP (·.mac == peer)
    topology_attached_peers := m.topology_attached_peers.filter (· != peer) }

/-- `removePeer` from the engine's answer on. -/
def finishRemoval (m : LinkManager) (peer : MacAddress) (erase_persisted removed : Bool) : LinkManager :=
  let m := m.dropRoleHints peer
  if removed then
    let m := m.dropEntries peer
    if erase_persisted && m.local_role = .Slave then m.eraseLocalMetaBlob kTopologyMetaSlotLmk else m
  else m

def removePeer (m : LinkManager) (peer : MacAddress) (erase_persisted : Bool) : Bool × LinkManager :=
  let m := (if erase_persisted then m.forgetPeerMeta peer else m).clearEvents
  let (removed, pairing) := m.pairing.removePeer peer erase_persisted
  (removed, (m.withPairing pairing).finishRemoval peer erase_persisted removed)

end LinkManager

/-- The steps that unpair or remove a peer. -/
inductive UnpairStep where
  | request (sender : MacAddress) (corr_id : UInt32)
  | ack (sender : MacAddress) (corr_id : UInt32)
  | cleanup (now_ms : UInt32)
  | requestUnpair (peer : MacAddress) (corr_id : UInt32)
  | removePeer (peer : MacAddress) (erase_persisted : Bool)

namespace LinkManager

def unpairPeer (m : LinkManager) : UnpairStep → MacAddress
  | .request sender _ | .ack sender _ => sender
  | .cleanup _ => m.pairing.deferred_unpair_peer
  | .requestUnpair peer _ | .removePeer peer _ => peer

/-- An ack and the timer go to the engine as they are. -/
def unpairStep (m : LinkManager) : UnpairStep → LinkManager
  | .request sender corr_id => (m.onRxUnpairRequest sender corr_id).2
  | .ack sender corr_id => m.withPairing (m.pairing.onUnpairAck sender corr_id).2
  | .cleanup now_ms => m.withPairing (m.pairing.tickDeferredCleanup now_ms)
  | .requestUnpair peer corr_id => (m.requestUnpair peer corr_id).2
  | .removePeer peer erase => (m.removePeer peer erase).2

/-- The records a manager keeps for `peer` beside the pair. -/
def metaKeys (m : LinkManager) (s : PairingStore) (peer : MacAddress) : Set BlobKey :=
  {s.makeMetaKey m.pairing.local_mac peer kTelemetryMetaSlot,
    s.makeMetaKey m.pairing.local_mac peer kPeerRoleMetaSlot}

def recordKeys (m : LinkManager) (peer : MacAddress) (s : PairingStore) : Set BlobKey :=
  m.pairing.recordKeys s peer ∪ m.metaKeys s peer

/-- The push session is that of `peer`. -/
def Streams (m : LinkManager) (peer : MacAddress) : Prop :=
  m.telemetry.push_session.has_master = true ∧ m.telemetry.push_session.master = peer

/-- A step on behalf of `other` changes nothing but what is kept for `other`: the link, the events that
wait for the active peer, the push session and every entry of another peer are as before. -/
structure Confined (m t : LinkManager) (other : MacAddress) : Prop where
  pairing : m.pairing.Confined t.pairing other (m.recordKeys other)
  events : t.mandatory_event_queue = m.mandatory_event_queue
  push_session : ¬ m.Streams other → t.telemetry.push_session = m.telemetry.push_session
  hints : t.peer_role_hints.filter (·.peer != other) = m.peer_role_hints.filter (·.peer != other)
  attached : t.topology_attached_peers.filter (· != other) = m.topology_attached_peers.filter (· != other)
  registry : t.peer_registry.filter (·.mac != other) = m.peer_registry.filter (·.mac != other)

/-- The record of the active peer goes with those of `peer`: both have one key. -/
def ErasesActiveRecord (m : LinkManager) (peer : MacAddress) : Prop :=
  (m.forgetPeerMeta peer).pairing.ErasesActiveRecord peer

/-- A slave that has removed `peer` erases the topology keys, which are kept for no peer. -/
def ErasesTopologyKeys (m : LinkManager) (peer : MacAddress) : Prop :=
  m.local_role = .Slave ∧ (m.pairing.platform.removePeer peer).1 = true ∧
    ∃ s, ((m.forgetPeerMeta peer).pairing.forgetPeer peer).store = some s ∧
      s.makeMetaKey m.pairing.local_mac zeroMac kTopologyMetaSlotLmk ∉ m.recordKeys peer s ∧
      s.ErasesBlob (s.makeMetaKey m.pairing.local_mac zeroMac kTopologyMetaSlotLmk)

/-- When a step for another peer stays away from the active link and what belongs to it. -/
def UnpairGuard (m : LinkManager) : UnpairStep → Prop
  | .request sender _ => m.local_role = .Slave →
      m.mandatory_event_queue = [] ∧ (m.Streams sender ∨ m.telemetry.push_session = {})
  | .ack _ corr_id => ¬ (m.pairing.unpair_pending = true ∧ corr_id = m.pairing.unpair_corr_id)
  | .cleanup now_ms => ¬ m.pairing.CleanupDue now_ms
  | .requestUnpair _ _ =>
      if m.local_role = .Master then m.pairing.unpair_pending = true else m.mandatory_event_queue = []
  | .removePeer peer erase => m.mandatory_event_queue = [] ∧
      (erase = true → ¬ m.ErasesActiveRecord peer ∧ ¬ m.ErasesTopologyKeys peer)

section Confinement

variable {m : LinkManager} {peer : MacAddress}

/-- The store of a manager that clears a configuration of `peer` changes at its key only. -/
theorem clearTelemetryPushConfig_pairing (m : LinkManager) (peer : MacAddress) :
    ∃ f, (m.clearTelemetryPushConfig peer).pairing = m.pairing.withStore f ∧
      ∀ s, m.pairing.store = some s → PairingStore.StoreFrame (m.metaKeys s peer) s (f s) := by
  cases hs : m.pairing.store with
  | none =>
    refine ⟨id, ?_, fun s h => by cases h⟩
    have hclear := m.telemetryView.clearTelemetryPushConfig_storeless peer hs
    simp [clearTelemetryPushConfig, hclear, PairingEngine.withStore, hs]
  | some s =>
    obtain ⟨u, hu, hframe⟩ := m.telemetryView.clearTelemetryPushConfig_frame peer (s := s) hs
    refine ⟨fun _ => u, ?_, fun s' h => ?_⟩
    · simp [clearTelemetryPushConfig, hu, PairingEngine.withStore, hs]
    · obtain rfl := Option.some.inj h
      exact hframe.mono fun k hk => .inl hk

theorem forgetPeerMeta_pairing (m : LinkManager) (peer : MacAddress) :
    ∃ f, (m.forgetPeerMeta peer).pairing = m.pairing.withStore f ∧
      ∀ s, m.pairing.store = some s → PairingStore.StoreFrame (m.metaKeys s peer) s (f s) := by
  obtain ⟨f, hclear, hf⟩ := m.clearTelemetryPushConfig_pairing peer
  refine ⟨fun s => ((f s).eraseMetaBlob m.pairing.local_mac peer kPeerRoleMetaSlot).2, ?_, fun s hs => ?_⟩
  · unfold forgetPeerMeta eraseMeta withPairing
    rw [hclear]
    simp [PairingEngine.withStore, Function.comp_def]
  · have herase := (f s).eraseMetaBlob_frame m.pairing.local_mac peer kPeerRoleMetaSlot
    rw [(hf s hs).makeMetaKey] at herase
    exact (hf s hs).trans (herase.mono fun k hk => .inr hk)

/-- Where the manager itself erases no more than what it keeps of `peer`, the engine decides. -/
theorem keepsRecords_of_meta {s u : PairingStore} (h : PairingStore.StoreFrame (m.metaKeys s peer) s u) :
    m.pairing.KeepsRecords (m.recordKeys peer s) s u := by
  refine ⟨h.blobs ?_, h.blobs.mono (Set.compl_subset_compl.mpr Set.subset_union_right)⟩
  rintro (hk | hk) <;> exact PairingEngine.pairKey_ne_metaKey _ _ _ _ _ _ hk

theorem clearTelemetryPushConfig_confined (m : LinkManager) (peer : MacAddress) :
    m.Confined (m.clearTelemetryPushConfig peer) peer := by
  obtain ⟨f, hclear, hf⟩ := m.clearTelemetryPushConfig_pairing peer
  refine ⟨?_, rfl, m.telemetryView.clearTelemetryPushConfig_session peer, rfl, rfl, rfl⟩
  rw [hclear]
  exact ⟨m.pairing.withStore_keepsLink f peer, fun s hs =>
    ⟨f s, by simp [PairingEngine.withStore, hs], keepsRecords_of_meta (hf s hs)⟩⟩

theorem onRxUnpairRequest_confined_iff (m : LinkManager) (sender : MacAddress) (corr_id : UInt32) :
    m.Confined (m.onRxUnpairRequest sender corr_id).2 sender ↔
      m.UnpairGuard (.request sender corr_id) := by
  by_cases hslave : m.local_role = .Slave
  · have hcleared := clearTelemetryPushConfig_confined
      { m.clearEvents with telemetry := m.telemetry.withSession {} } sender
    have hsession : (m.onRxUnpairRequest sender corr_id).2.telemetry.push_session = {} := by
      unfold onRxUnpairRequest
      rw [if_pos hslave]
      exact hcleared.push_session (by simp [Streams, TelemetryManager.withSession])
    have hevents : (m.onRxUnpairRequest sender corr_id).2.mandatory_event_queue = [] := by
      unfold onRxUnpairRequest
      rw [if_pos hslave]
      rfl
    constructor
    · intro h _
      refine ⟨h.events.symm.trans hevents, or_iff_not_imp_left.mpr fun hother => ?_⟩
      exact (h.push_session hother).symm.trans hsession
    · intro hguard
      obtain ⟨hqueue, hstream⟩ := hguard hslave
      refine ⟨?_, hevents.trans hqueue.symm, fun hother => hsession.trans ?_, ?_, ?_, ?_⟩
      · unfold onRxUnpairRequest
        rw [if_pos hslave]
        obtain ⟨hlink, hstore⟩ := PairingEngine.onUnpairRequest_keepsLink
          ({ m.clearEvents with telemetry := m.telemetry.withSession {} }.clearTelemetryPushConfig
            sender).pairing sender corr_id
        refine ⟨hcleared.pairing.link.trans hlink, fun s hs => ?_⟩
        obtain ⟨u, hu, hkept⟩ := hcleared.pairing.store s hs
        exact ⟨u, hstore.trans hu, hkept⟩
      · exact (hstream.resolve_left hother).symm
      all_goals
        unfold onRxUnpairRequest
        rw [if_pos hslave]
        rfl
  · obtain ⟨hlink, hstore⟩ := m.pairing.onUnpairRequest_keepsLink sender corr_id
    refine iff_of_true ?_ fun h => absurd h hslave
    unfold onRxUnpairRequest
    rw [if_neg hslave]
    exact ⟨.of_store_eq hlink hstore, rfl, fun _ => rfl, rfl, rfl, rfl⟩

/-- The engine of a slave refuses, so the topology keys stay. -/
theorem requestUnpair_eq (m : LinkManager) (peer : MacAddress) (corr_id : UInt32) :
    let t := if m.local_role = .Master then m.clearTelemetryPushConfig peer else m.clearEvents
    (m.requestUnpair peer corr_id).2 = t.withPairing (t.pairing.requestUnpair peer corr_id).2 := by
  intro t
  have hrole : (t.withPairing (t.pairing.requestUnpair peer corr_id).2).local_role = .Slave →
      (t.pairing.requestUnpair peer corr_id).1 = false := by
    intro hslave
    by_cases hrun : t.pairing.config.local_role = .Master ∧ t.pairing.unpair_pending = false
    · rw [local_role, withPairing, PairingEngine.requestUnpair_config, hrun.1] at hslave
      cases hslave
    · rw [PairingEngine.requestUnpair_refused _ _ _ hrun]
  unfold requestUnpair
  dsimp only
  refine if_neg fun h => ?_
  obtain ⟨hok, hslave⟩ := Bool.and_eq_true_iff.mp h
  rw [hrole (of_decide_eq_true hslave)] at hok
  cases hok

theorem requestUnpair_confined_iff (m : LinkManager) (peer : MacAddress) (corr_id : UInt32)
    (hsecured : m.pairing.state = .Secured) (hother : peer ≠ m.pairing.peer_mac) :
    m.Confined (m.requestUnpair peer corr_id).2 peer ↔ m.UnpairGuard (.requestUnpair peer corr_id) := by
  rw [requestUnpair_eq]
  by_cases hmaster : m.local_role = .Master
  · simp only [UnpairGuard, if_pos hmaster]
    have hcleared := m.clearTelemetryPushConfig_confined peer
    have hrole : (m.clearTelemetryPushConfig peer).pairing.config.local_role = .Master := hmaster
    by_cases hpending : m.pairing.unpair_pending = true
    · refine iff_of_true ?_ hpending
      rw [PairingEngine.requestUnpair_refused]
      · exact hcleared
      · rintro ⟨-, hidle⟩
        exact absurd (hpending.symm.trans hidle) (by simp)
    · refine iff_of_false (fun h => hother ?_) hpending
      have hto := PairingEngine.requestUnpair_peer_mac (m.clearTelemetryPushConfig peer).pairing peer
        corr_id (hcleared.pairing.link.state.trans hsecured) hrole (Bool.eq_false_iff.mpr hpending)
      exact hto.symm.trans h.pairing.link.peer_mac
  · simp only [UnpairGuard, if_neg hmaster]
    rw [PairingEngine.requestUnpair_refused]
    · constructor
      · exact fun h => h.events.symm
      · exact fun h => ⟨.of_store_eq (.refl _ _) rfl, h.symm, fun _ => rfl, rfl, rfl, rfl⟩
    · exact fun h => hmaster h.1

theorem filter_eraseP {α : Type} (l : List α) (p q : α → Bool) (h : ∀ a, q a = true → p a = false) :
    (l.eraseP q).filter p = l.filter p := by
  induction l with
  | nil => rfl
  | cons a l ih =>
    cases hq : q a with
    | true => rw [List.eraseP_cons_of_pos hq, List.filter_cons_of_neg (by simp [h a hq])]
    | false => rw [List.eraseP_cons_of_neg (by simp [hq]), List.filter_cons, List.filter_cons, ih]

/-- Which records of another peer an erasure under a meta key takes along. -/
theorem keepsRecords_eraseMeta_iff (e : PairingEngine) {K : Set BlobKey} {s v : PairingStore}
    (hothers : Set.EqOn v.backend.blobs s.backend.blobs (Set.compl K)) (peer : MacAddress) (slot : UInt8) :
    e.KeepsRecords K s (v.eraseMetaBlob e.local_mac peer slot).2 ↔
      e.KeepsRecords K s v ∧
        ¬ (v.makeMetaKey e.local_mac peer slot ∉ K ∧ v.ErasesBlob (v.makeMetaKey e.local_mac peer slot)) := by
  have hframe := v.eraseMetaBlob_frame e.local_mac peer slot
  have hactive := hframe.blobs (PairingEngine.pairKey_ne_metaKey s v e.local_mac e.peer_mac peer slot)
  constructor
  · intro h
    refine ⟨⟨hactive.symm.trans h.active, hothers⟩, fun ⟨hout, herases⟩ => ?_⟩
    exact (v.eraseMetaBlob_same_iff e.local_mac peer slot).mp
      ((h.others hout).trans (hothers hout).symm) herases
  · rintro ⟨h, hkept⟩
    refine ⟨hactive.trans h.active, fun k hout => ?_⟩
    by_cases hk : k = v.makeMetaKey e.local_mac peer slot
    · rw [hk] at hout ⊢
      exact ((v.eraseMetaBlob_same_iff e.local_mac peer slot).mpr fun herases => hkept ⟨hout, herases⟩).trans
        (hothers hout)
    · exact (hframe.blobs hk).trans (hothers hout)

theorem finishRemoval_pairing (m : LinkManager) (peer : MacAddress) (erase removed : Bool) :
    (m.finishRemoval peer erase removed).pairing =
      if erase = true ∧ m.local_role = .Slave ∧ removed = true then
        m.pairing.withStore fun s =>
          (s.eraseMetaBlob m.pairing.local_mac zeroMac kTopologyMetaSlotLmk).2
      else m.pairing := by
  unfold finishRemoval
  cases removed with
  | false =>
    dsimp only
    rw [if_neg Bool.false_ne_true, if_neg fun h => Bool.false_ne_true h.2.2]
    rfl
  | true =>
    dsimp only
    rw [if_pos rfl]
    by_cases hrun : erase = true ∧ m.local_role = .Slave
    · have hslave : (erase && decide (((m.dropRoleHints peer).dropEntries peer).local_role = .Slave)) = true :=
        Bool.and_eq_true_iff.mpr ⟨hrun.1, decide_eq_true hrun.2⟩
      rw [if_pos hslave, if_pos ⟨hrun.1, hrun.2, rfl⟩]
      rfl
    · have hslave : ¬ (erase && decide (((m.dropRoleHints peer).dropEntries peer).local_role = .Slave)) = true :=
        fun h => hrun ((Bool.and_eq_true_iff.mp h).imp id of_decide_eq_true)
      rw [if_neg hslave, if_neg fun h => hrun ⟨h.1, h.2.1⟩]
      rfl

/-- The lists of a manager lose the entries of `peer` only. -/
theorem finishRemoval_entries (m : LinkManager) (peer : MacAddress) (erase removed : Bool) :
    (m.finishRemoval peer erase removed).mandatory_event_queue = m.mandatory_event_queue ∧
    (m.finishRemoval peer erase removed).telemetry = m.telemetry ∧
    (m.finishRemoval peer erase removed).peer_role_hints = m.peer_role_hints.filter (·.peer != peer) ∧
    (m.finishRemoval peer erase removed).topology_attached_peers.filter (· != peer) =
      m.topology_attached_peers.filter (· != peer) ∧
    (m.finishRemoval peer erase removed).peer_registry.filter (·.mac != peer) =
      m.peer_registry.filter (·.mac != peer) := by
  cases removed with
  | false => exact ⟨rfl, rfl, rfl, rfl, rfl⟩
  | true =>
    have hentries : ∀ t : LinkManager, t = (m.dropRoleHints peer).dropEntries peer ∨
        t = ((m.dropRoleHints peer).dropEntries peer).eraseLocalMetaBlob kTopologyMetaSlotLmk →
        t.mandatory_event_queue = m.mandatory_event_queue ∧ t.telemetry = m.telemetry ∧
        t.peer_role_hints = m.peer_role_hints.filter (·.peer != peer) ∧
        t.topology_attached_peers.filter (· != peer) = m.topology_attached_peers.filter (· != peer) ∧
        t.peer_registry.filter (·.mac != peer) = m.peer_registry.filter (·.mac != peer) := by
      have hattached : (m.topology_attached_peers.filter (· != peer)).filter (· != peer) =
          m.topology_attached_peers.filter (· != peer) := by simp
      have hregistry := filter_eraseP m.peer_registry (·.mac != peer) (·.mac == peer)
        fun a ha => by simpa using ha
      rintro t (rfl | rfl) <;> exact ⟨rfl, rfl, rfl, hattached, hregistry⟩
    unfold finishRemoval
    dsimp only
    rw [if_pos rfl]
    split
    · exact hentries _ (.inr rfl)
    · exact hentries _ (.inl rfl)

/-- The manager that `removePeer` hands to the engine. -/
theorem removal_start (m : LinkManager) (peer : MacAddress) (erase : Bool) :
    ∃ t f, (if erase then m.forgetPeerMeta peer else m) = t ∧ t.pairing = m.pairing.withStore f ∧
      (¬ m.Streams peer → t.telemetry.push_session = m.telemetry.push_session) ∧
      t.peer_role_hints = m.peer_role_hints ∧
      t.topology_attached_peers = m.topology_attached_peers ∧ t.peer_registry = m.peer_registry := by
  cases erase with
  | false => exact ⟨m, id, rfl, by simp [PairingEngine.withStore], fun _ => rfl, rfl, rfl, rfl⟩
  | true =>
    obtain ⟨f, hf, -⟩ := m.forgetPeerMeta_pairing peer
    exact ⟨_, f, rfl, hf, (m.clearTelemetryPushConfig_confined peer).push_session, rfl, rfl, rfl⟩

theorem removePeer_confined (m : LinkManager) (peer : MacAddress) (erase : Bool) :
    m.Confined (m.removePeer peer erase).2 peer ↔
      m.mandatory_event_queue = [] ∧
        m.pairing.Confined (m.removePeer peer erase).2.pairing peer (m.recordKeys peer) := by
  obtain ⟨t, f, ht, -, hsession, hhints, hattached, hregistry⟩ := m.removal_start peer erase
  obtain ⟨hevents, htelemetry, hhints', hattached', hregistry'⟩ :=
    (t.clearEvents.withPairing (t.pairing.removePeer peer erase).2).finishRemoval_entries peer erase
      (t.pairing.removePeer peer erase).1
  have hresult : (m.removePeer peer erase).2 =
      (t.clearEvents.withPairing (t.pairing.removePeer peer erase).2).finishRemoval peer erase
        (t.pairing.removePeer peer erase).1 := by
    unfold removePeer
    rw [ht]
    rfl
  rw [hresult]
  constructor
  · exact fun h => ⟨h.events.symm.trans hevents, h.pairing⟩
  · rintro ⟨hqueue, hpairing⟩
    refine ⟨hpairing, hevents.trans hqueue.symm, fun hother => ?_, ?_, ?_, ?_⟩
    · rw [htelemetry]
      exact hsession hother
    · rw [hhints', List.filter_filter]
      simp [clearEvents, withPairing, hhints]
    · rw [hattached']
      simp [clearEvents, withPairing, hattached]
    · rw [hregistry']
      simp [clearEvents, withPairing, hregistry]

theorem removePeer_pairing (m : LinkManager) (peer : MacAddress) (erase : Bool) :
    let e := ((if erase then m.forgetPeerMeta peer else m).pairing.removePeer peer erase).2
    (m.removePeer peer erase).2.pairing =
      if erase = true ∧ m.local_role = .Slave ∧ (m.pairing.platform.removePeer peer).1 = true then
        e.withStore fun s =>
          (s.eraseMetaBlob m.pairing.local_mac zeroMac kTopologyMetaSlotLmk).2
      else e := by
  intro e
  obtain ⟨t, f, ht, hf, -⟩ := m.removal_start peer erase
  obtain ⟨hremoved, hconfig, hmac⟩ := t.pairing.removePeer_frame peer erase
  have hradio : (t.pairing.removePeer peer erase).1 = (m.pairing.platform.removePeer peer).1 := by
    rw [hremoved, hf]
    rfl
  have hrole : (t.pairing.removePeer peer erase).2.config.local_role = m.local_role := by
    rw [hconfig, hf]
    rfl
  have hlocal : (t.pairing.removePeer peer erase).2.local_mac = m.pairing.local_mac := by
    rw [hmac, hf]
    rfl
  unfold removePeer
  simp only [e, ht]
  rw [finishRemoval_pairing]
  change (if erase = true ∧ (t.pairing.removePeer peer erase).2.config.local_role = .Slave ∧
      (t.pairing.removePeer peer erase).1 = true then
      (t.pairing.removePeer peer erase).2.withStore fun s =>
        (s.eraseMetaBlob (t.pairing.removePeer peer erase).2.local_mac zeroMac kTopologyMetaSlotLmk).2
    else (t.pairing.removePeer peer erase).2) = _
  rw [hrole, hlocal, hradio]

/-- Records that are kept up to `t` are kept up to `v` if `v` keeps those of `t`. -/
theorem keepsRecords_through {e : PairingEngine} {K : Set BlobKey} {s t v : PairingStore}
    (h : e.KeepsRecords K s t) (hkeys : t.config = s.config) :
    e.KeepsRecords K s v ↔ e.KeepsRecords K t v := by
  have hkey : t.makeKey .Pair e.local_mac e.peer_mac = s.makeKey .Pair e.local_mac e.peer_mac := by
    simp [PairingStore.makeKey, hkeys]
  constructor
  · intro hv
    refine ⟨?_, hv.others.trans h.others.symm⟩
    rw [hkey]
    exact hv.active.trans h.active.symm
  · intro hv
    refine ⟨?_, hv.others.trans h.others⟩
    rw [← hkey, hv.active, hkey]
    exact h.active

/-- The records of a manager once the meta records and the pair of `peer` are erased. -/
theorem removal_records (m : LinkManager) (peer : MacAddress) {s : PairingStore}
    (hs : m.pairing.store = some s) :
    ∃ v, ((m.forgetPeerMeta peer).pairing.forgetPeer peer).store = some v ∧
      PairingStore.StoreFrame (m.recordKeys peer s) s v ∧
      (m.pairing.KeepsRecords (m.recordKeys peer s) s v ↔ ¬ m.ErasesActiveRecord peer) := by
  obtain ⟨f, hf, hframe⟩ := m.forgetPeerMeta_pairing peer
  have hmeta := hframe s hs
  have hforget := PairingEngine.forgetPeer_frame (f s) m.pairing.local_mac peer
  rw [hmeta.makeKey, hmeta.makeKey, hmeta.pairIndexKey] at hforget
  refine ⟨_, ?_, (hmeta.mono Set.subset_union_right).trans (hforget.mono Set.subset_union_left), ?_⟩
  · rw [hf]
    simp [PairingEngine.forgetPeer, PairingEngine.withStore, hs]
  · have hactive : m.ErasesActiveRecord peer ↔
        (f s).makeKey .Pair m.pairing.local_mac peer =
            (f s).makeKey .Pair m.pairing.local_mac m.pairing.peer_mac ∧
          (f s).ErasesBlob ((f s).makeKey .Pair m.pairing.local_mac m.pairing.peer_mac) := by
      unfold ErasesActiveRecord PairingEngine.ErasesActiveRecord
      rw [hf]
      simp [PairingEngine.withStore, hs]
    rw [hactive, keepsRecords_through (keepsRecords_of_meta hmeta) hmeta.config]
    refine PairingEngine.forgetPeer_keepsRecords_iff m.pairing (f s) peer ?_
    unfold PairingEngine.recordKeys
    rw [hmeta.makeKey, hmeta.makeKey, hmeta.pairIndexKey]
    exact Set.subset_union_left

/-- Which of the two erasures goes too far. -/
theorem erasedRecords_iff (m : LinkManager) (peer : MacAddress) {t : PairingEngine}
    (hlink : m.pairing.KeepsLink t peer)
    (hstore : t.store = ((m.forgetPeerMeta peer).pairing.forgetPeer peer).store.map
      (if m.local_role = .Slave ∧ (m.pairing.platform.removePeer peer).1 = true then
        fun s => (s.eraseMetaBlob m.pairing.local_mac zeroMac kTopologyMetaSlotLmk).2
      else id)) :
    m.pairing.Confined t peer (m.recordKeys peer) ↔
      ¬ m.ErasesActiveRecord peer ∧ ¬ m.ErasesTopologyKeys peer := by
  cases hs : m.pairing.store with
  | none =>
    obtain ⟨f, hf, -⟩ := m.forgetPeerMeta_pairing peer
    have hgone : (m.forgetPeerMeta peer).pairing.store = none := by
      rw [hf]
      simp [PairingEngine.withStore, hs]
    refine iff_of_true ⟨hlink, fun s h => absurd (hs.symm.trans h) (by simp)⟩ ⟨?_, ?_⟩
    · rintro ⟨s, h, -⟩
      exact absurd (hgone.symm.trans h) (by simp)
    · rintro ⟨-, -, s, h, -⟩
      simp [PairingEngine.forgetPeer, PairingEngine.withStore, hgone] at h
  | some s =>
    obtain ⟨v, hv, hframe, hactive⟩ := m.removal_records peer hs
    have hconfined : ∀ u, t.store = some u → (m.pairing.Confined t peer (m.recordKeys peer) ↔
        m.pairing.KeepsRecords (m.recordKeys peer s) s u) := by
      intro w hstore
      constructor
      · intro h
        obtain ⟨u, hu, hkept⟩ := h.store s hs
        obtain rfl := Option.some.inj (hstore.symm.trans hu)
        exact hkept
      · intro h
        refine ⟨hlink, fun s' hs' => ?_⟩
        obtain rfl := Option.some.inj (hs.symm.trans hs')
        exact ⟨_, hstore, h⟩
    have htopology : m.ErasesTopologyKeys peer ↔
        m.local_role = .Slave ∧ (m.pairing.platform.removePeer peer).1 = true ∧
          v.makeMetaKey m.pairing.local_mac zeroMac kTopologyMetaSlotLmk ∉ m.recordKeys peer s ∧
          v.ErasesBlob (v.makeMetaKey m.pairing.local_mac zeroMac kTopologyMetaSlotLmk) := by
      have hkeys : m.recordKeys peer v = m.recordKeys peer s := by
        unfold recordKeys metaKeys PairingEngine.recordKeys
        rw [hframe.makeKey, hframe.makeKey, hframe.pairIndexKey, hframe.makeMetaKey, hframe.makeMetaKey]
      unfold ErasesTopologyKeys
      rw [hv]
      simp [hkeys]
    rw [hv] at hstore
    rw [hconfined _ hstore, htopology]
    by_cases hkeys : m.local_role = .Slave ∧ (m.pairing.platform.removePeer peer).1 = true
    · rw [if_pos hkeys, keepsRecords_eraseMeta_iff m.pairing hframe.blobs, hactive]
      simp [hkeys]
    · rw [if_neg hkeys, id, hactive]
      exact ⟨fun h => ⟨h, fun ht => hkeys ⟨ht.1, ht.2.1⟩⟩, And.left⟩

theorem removePeer_confined_iff (m : LinkManager) (peer : MacAddress) (erase : Bool)
    (hother : peer ≠ m.pairing.peer_mac) :
    m.Confined (m.removePeer peer erase).2 peer ↔ m.UnpairGuard (.removePeer peer erase) := by
  rw [removePeer_confined]
  refine and_congr_right fun _ => ?_
  rw [removePeer_pairing]
  obtain ⟨f, hf, -⟩ := m.forgetPeerMeta_pairing peer
  cases erase with
  | false =>
    obtain ⟨hlink, hstore⟩ := m.pairing.removePeer_keepsLink peer false hother
    refine iff_of_true ?_ fun h => absurd h Bool.false_ne_true
    exact .of_store_eq hlink hstore
  | true =>
    obtain ⟨hlink, hstore⟩ := (m.forgetPeerMeta peer).pairing.removePeer_keepsLink peer true
      (by rw [hf]; exact hother)
    rw [if_pos rfl] at hstore
    have hfirst : m.pairing.KeepsLink (m.forgetPeerMeta peer).pairing peer := by
      rw [hf]
      exact m.pairing.withStore_keepsLink f peer
    have hkept := hfirst.trans hlink
    simp only [if_true, true_and, forall_const]
    by_cases hkeys : m.local_role = .Slave ∧ (m.pairing.platform.removePeer peer).1 = true
    · rw [if_pos hkeys]
      refine m.erasedRecords_iff peer (hkept.trans (PairingEngine.withStore_keepsLink _ _ peer)) ?_
      rw [if_pos hkeys]
      simp only [PairingEngine.withStore, hstore]
    · rw [if_neg hkeys]
      refine m.erasedRecords_iff peer hkept ?_
      rw [if_neg hkeys, hstore, Option.map_id_fun, id]

/-- A step for another peer leaves a secured link and what belongs to it alone exactly when its guard
holds. -/
theorem unpairStep_confined_iff (m : LinkManager) (i : UnpairStep) (hsecured : m.pairing.state = .Secured)
    (hother : m.unpairPeer i ≠ m.pairing.peer_mac) :
    m.Confined (m.unpairStep i) (m.unpairPeer i) ↔ m.UnpairGuard i := by
  have hengine : ∀ (e : PairingEngine) (peer : MacAddress), m.Confined (m.withPairing e) peer ↔
      m.pairing.Confined e peer (m.recordKeys peer) :=
    fun e peer => ⟨fun h => h.pairing, fun h => ⟨h, rfl, fun _ => rfl, rfl, rfl, rfl⟩⟩
  cases i with
  | request sender corr_id => exact m.onRxUnpairRequest_confined_iff sender corr_id
  | ack sender corr_id =>
    exact (hengine _ _).trans (m.pairing.onUnpairAck_confined_iff sender corr_id hsecured)
  | cleanup now_ms =>
    exact (hengine _ _).trans (m.pairing.tickDeferredCleanup_confined_iff now_ms hsecured)
  | requestUnpair peer corr_id => exact m.requestUnpair_confined_iff peer corr_id hsecured hother
  | removePeer peer erase => exact m.removePeer_confined_iff peer erase hother

end Confinement

end LinkManager

/-- An engine in a run, with the peer its latest unpair request went to. -/
structure UnpairTrace where
  engine : PairingEngine
  addressee : Option MacAddress

namespace UnpairTrace

def step (t : UnpairTrace) (i : PairingInput) : UnpairTrace where
  engine := t.engine.step i
  addressee := match i with
    | .requestUnpair peer corr_id =>
      if (t.engine.requestUnpair peer corr_id).1 then some peer else t.addressee
    | _ => t.addressee

/-- The unpair steps of a manager whose engine is secured are confined to their peer, and an ack is
accepted only from the peer that was asked. -/
def UnpairConfined (t : UnpairTrace) : Prop :=
  (∀ m : LinkManager, m.pairing = t.engine → t.engine.state = .Secured → ∀ i,
    m.unpairPeer i ≠ t.engine.peer_mac → m.Confined (m.unpairStep i) (m.unpairPeer i)) ∧
  ∀ sender corr_id, (t.engine.onUnpairAck sender corr_id).1 = true → t.addressee = some sender

end UnpairTrace

namespace PairingExample

/-- A manager around an engine, with nothing in its lists and no push session. -/
def around (e : PairingEngine) : LinkManager where
  pairing := e
  telemetry := ⟨e.config.local_role, e.local_mac, none, none, none, e.store, {}, 0, 0⟩
  mandatory_event_queue := []
  peer_role_hints := []
  topology_attached_peers := []
  peer_registry := []

end PairingExample

end EspNowLink
