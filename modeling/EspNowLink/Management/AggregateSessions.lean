import EspNowLink.Management.Service
import EspNowLink.Topology.Validation
import Mathlib.Data.List.Nodup

namespace EspNowLink

section Targets

def kProfileLockAlarm : ProfileId := 6

def isChainRoleCode (role_code : UInt8) : Bool :=
  role_code == kProfileSens.toUInt8 || role_code == kProfileSemu.toUInt8 ||
    role_code == kProfileRelay.toUInt8 || role_code == kProfileRemu.toUInt8

def channelSettingKeyForRole (role_code : UInt8) : String :=
  if role_code == kProfilePms.toUInt8 || role_code == kProfileLockAlarm.toUInt8 then "chan" else "channel"

/-- The peers in the order in which they are first named; a role of 0 gives way to another. -/
def upsertChannelSyncTarget : List (MacAddress × UInt8) → MacAddress → UInt8 →
    List (MacAddress × UInt8)
  | [], peer, role_code => [(peer, role_code)]
  | (p, r) :: targets, peer, role_code =>
    if p = peer then (p, if r = 0 ∧ role_code ≠ 0 then role_code else r) :: targets
    else (p, r) :: upsertChannelSyncTarget targets peer role_code

/-- The slots of the committed topology whose peers are nodes of the chain. -/
def chainSlots (committed : Option TopologySnapshot) : List TopologySlot :=
  (committed.map fun s => s.slots.toList.filter fun slot => slot.enabled && isChainRoleCode slot.peer_role).getD []

/-- The targets of `startChannelSyncAll` with their roles. -/
def channelSyncTargets (persisted : List (MacAddress × UInt8)) (committed : Option TopologySnapshot) :
    List (MacAddress × UInt8) :=
  (persisted ++ (chainSlots committed).map fun slot => (slot.peer, slot.peer_role)).foldl
    (fun targets t => upsertChannelSyncTarget targets t.1 t.2) []

def pushNew (peers : List MacAddress) (peer : MacAddress) : List MacAddress :=
  if peers.any fun p => p = peer then peers else peers ++ [peer]

def buildChainLoopTargetPeers (persisted : List (MacAddress × UInt8)) (committed : Option TopologySnapshot) :
    List MacAddress :=
  let peers := ((chainSlots committed).map (·.peer)).foldl pushNew []
  if peers ≠ [] then peers
  else ((persisted.filter fun t => t.2 = 0 || isChainRoleCode t.2).map (·.1)).foldl pushNew []

theorem mem_upsert {targets : List (MacAddress × UInt8)} {peer p : MacAddress} {role_code : UInt8}
    (h : p ∈ (upsertChannelSyncTarget targets peer role_code).map (·.1)) : p ∈ targets.map (·.1) ∨ p = peer := by
  induction targets with
  | nil => exact .inr (List.mem_singleton.mp h)
  | cons t targets ih =>
    rw [upsertChannelSyncTarget] at h
    by_cases hsame : t.1 = peer
    · rw [if_pos hsame] at h
      exact .inl h
    · rw [if_neg hsame, List.map_cons, List.mem_cons] at h
      rcases h with rfl | hrest
      · exact .inl List.mem_cons_self
      · exact (ih hrest).imp (List.mem_cons_of_mem _) id

theorem upsert_nodup {targets : List (MacAddress × UInt8)} (h : (targets.map (·.1)).Nodup) (peer : MacAddress)
    (role_code : UInt8) : ((upsertChannelSyncTarget targets peer role_code).map (·.1)).Nodup := by
  induction targets with
  | nil => exact List.nodup_singleton peer
  | cons t targets ih =>
    obtain ⟨hnew, hrest⟩ := List.nodup_cons.mp h
    rw [upsertChannelSyncTarget]
    by_cases hsame : t.1 = peer
    · rw [if_pos hsame]
      exact h
    · rw [if_neg hsame]
      refine List.nodup_cons.mpr ⟨fun hmem => ?_, ih hrest⟩
      rcases mem_upsert hmem with hold | heq
      · exact hnew hold
      · exact hsame heq

/-- No peer is asked twice in one session. -/
theorem channelSyncTargets_nodup (persisted : List (MacAddress × UInt8)) (committed : Option TopologySnapshot) :
    ((channelSyncTargets persisted committed).map (·.1)).Nodup := by
  rw [channelSyncTargets]
  refine List.foldlRecOn (motive := fun targets : List (MacAddress × UInt8) => (targets.map (·.1)).Nodup) _ _ ?_ ?_
  · exact List.nodup_nil
  · exact fun _ htargets t _ => upsert_nodup htargets t.1 t.2

theorem pushNew_nodup {peers : List MacAddress} (h : peers.Nodup) (peer : MacAddress) :
    (pushNew peers peer).Nodup := by
  rw [pushNew]
  split
  · exact h
  · next hnew =>
    refine List.nodup_append.mpr ⟨h, List.nodup_singleton peer, fun p hp q hq heq => ?_⟩
    obtain rfl := List.mem_singleton.mp hq
    exact hnew (List.any_eq_true.mpr ⟨p, hp, decide_eq_true heq⟩)

theorem pushAll_nodup (entries : List MacAddress) : (entries.foldl pushNew []).Nodup :=
  List.foldlRecOn (motive := List.Nodup) entries pushNew List.nodup_nil
    fun _ hpeers peer _ => pushNew_nodup hpeers peer

theorem buildChainLoopTargetPeers_nodup (persisted : List (MacAddress × UInt8))
    (committed : Option TopologySnapshot) : (buildChainLoopTargetPeers persisted committed).Nodup := by
  rw [buildChainLoopTargetPeers]
  split
  · exact pushAll_nodup _
  · exact pushAll_nodup _

end Targets

/-- A request to every target and the marks of those that have answered; `value` is what they are asked to set. -/
structure AggregateSession (α : Type) where
  active : Bool
  req_id : UInt32
  value : α
  started_ms : UInt32
  timeout_ms : UInt32
  peers : List MacAddress
  corr_ids : List UInt32
  acked : List Bool
  deriving DecidableEq

/-- The event that ends a session, `CmdDone` or `CmdFail`. -/
structure AggregateEvent (α : Type) where
  done : Bool
  req_id : UInt32
  status : ManagementStatus
  value : α
  acked_peers : Nat
  total_peers : Nat
  deriving DecidableEq

/-- The part of a master that `ChannelSyncAll` and `ChainLoopControlSet` have each for themselves. -/
structure Aggregate (α : Type) where
  session : AggregateSession α
  now_ms : UInt32
  answers : List (UInt32 × ManagementStatus)
  events : List (AggregateEvent α)
  deriving DecidableEq

/-- The first place at which the session waits for the response. -/
def AggregateSession.place (s : AggregateSession α) (peer : MacAddress) (corr_id : UInt32) : Option Nat :=
  (s.corr_ids.zip s.peers).findIdx? fun t => t.1 == corr_id && t.2 == peer

def AggregateSession.blank [Inhabited α] : AggregateSession α := ⟨false, 0, default, 0, 0, [], [], []⟩

namespace Aggregate

variable [Inhabited α]

def boot : Aggregate α := ⟨.blank, 0, [], []⟩

/-- `stopChannelSyncAll` and `stopChainLoopAll`. -/
def stop (a : Aggregate α) (success : Bool) (status : ManagementStatus) : Aggregate α :=
  if !a.session.active && a.session.req_id == 0 then a
  else
    { a with
      session := .blank
      events :=
        { done := success
          req_id := a.session.req_id
          status := status
          value := a.session.value
          acked_peers := min (a.session.acked.countP id) 255
          total_peers := min a.session.peers.length 255 } :: a.events }

/-- The requests go out under ids that follow the id of the command, up to one that is not taken. -/
def sendAll (sends : MacAddress → UInt32 → Bool) : List MacAddress → UInt32 → List UInt32 × Bool
  | [], _ => ([], true)
  | peer :: peers, corr =>
    if sends peer corr then
      let (corr_ids, sent) := sendAll sends peers (corr + 1)
      (corr :: corr_ids, sent)
    else ([], false)

/-- `startChannelSyncAll` and `startChainLoopAll` on their targets; `applies` is the answer of
`applyRuntimeChannelToAllPeers`, for the chain loop true. -/
def start (a : Aggregate α) (req_id : UInt32) (value : α) (targets : List MacAddress)
    (sends : MacAddress → UInt32 → Bool) (applies : Bool) : Bool × Aggregate α :=
  let session : AggregateSession α := ⟨true, req_id, value, a.now_ms, 4000, targets, [], []⟩
  if targets = [] then
    (true, { a with session := session }.stop applies (if applies then .Ok else .InternalError))
  else
    let (corr_ids, sent) := sendAll sends targets (req_id + 1)
    (sent, { a with
      session := { session with
        active := sent
        corr_ids := corr_ids
        acked := List.replicate targets.length false } })

/-- `executeRequest` of the command on a master. -/
def command (a : Aggregate α) (req_id : UInt32) (value : α) (targets : List MacAddress)
    (sends : MacAddress → UInt32 → Bool) (applies : Bool) : Aggregate α :=
  if a.session.active then { a with answers := (req_id, .InternalError) :: a.answers }
  else
    let (started, a) := a.start req_id value targets sends applies
    { a with answers := (req_id, if started then .OkDeferred else .InternalError) :: a.answers }

/-- `onEvent` of a `PullResponseSeen`, which knows the peer and the correlation of the response alone. -/
def onPullResponseSeen (a : Aggregate α) (peer : MacAddress) (corr_id : UInt32) : Aggregate α :=
  if a.session.active then
    match a.session.place peer corr_id with
    | none => a
    | some i => { a with session := { a.session with acked := a.session.acked.set i true } }
  else a

/-- `pumpChannelSyncAll` and `pumpChainLoopAll` in a tick. -/
def pump (a : Aggregate α) (now_ms : UInt32) (applies : Bool) : Aggregate α :=
  let a := { a with now_ms := now_ms }
  if !a.session.active then a
  else if a.session.timeout_ms ≠ 0 ∧ deadlineReached now_ms (a.session.started_ms + a.session.timeout_ms) then
    a.stop false .Timeout
  else if !a.session.acked.isEmpty && a.session.acked.all id then
    a.stop applies (if applies then .Ok else .InternalError)
  else a

/-- What happens to the sessions of a master. The targets of a command are named once each. -/
inductive Input (α : Type) where
  | command (req_id : UInt32) (value : α) (targets : {peers : List MacAddress // peers.Nodup})
      (sends : MacAddress → UInt32 → Bool) (applies : Bool)
  | response (peer : MacAddress) (corr_id : UInt32)
  | pump (now_ms : UInt32) (applies : Bool)
  | transition
  | clearQueues

def step (a : Aggregate α) : Input α → Aggregate α
  | .command req_id value targets sends applies => a.command req_id value targets sends applies
  | .response peer corr_id => a.onPullResponseSeen peer corr_id
  | .pump now_ms applies => a.pump now_ms applies
  | .transition => a.stop false .BusyRadioTransition
  | .clearQueues => { a with session := .blank }

def run (inputs : List (Input α)) : Aggregate α := inputs.foldl step boot

section Commands

/-- The request `requestSettingSet`. -/
structure SettingSet where
  peer : MacAddress
  key : String
  value : String
  corr_id : UInt32

def startChannelSyncAll (req_id : UInt32) (channel : UInt8) (persisted : List (MacAddress × UInt8))
    (committed : Option TopologySnapshot) (sends : SettingSet → Bool) (applies : Bool) : Input UInt8 :=
  let targets := channelSyncTargets persisted committed
  .command req_id channel ⟨targets.map (·.1), channelSyncTargets_nodup persisted committed⟩
    (fun peer corr_id => sends
      ⟨peer, channelSettingKeyForRole ((targets.lookup peer).getD 0), toString channel.toNat, corr_id⟩) applies

def startChainLoopAll (req_id : UInt32) (enabled : Bool) (persisted : List (MacAddress × UInt8))
    (committed : Option TopologySnapshot) (sends : SettingSet → Bool) : Input Bool :=
  .command req_id enabled
    ⟨buildChainLoopTargetPeers persisted committed, buildChainLoopTargetPeers_nodup persisted committed⟩
    (fun peer corr_id => sends ⟨peer, "LoopAuto", if enabled then "1" else "0", corr_id⟩) true

def pumpChainLoopAll (now_ms : UInt32) : Input Bool := .pump now_ms true

/-- `chain_loop_enabled_`, which `stopChainLoopAll` sets with the event that it tells. -/
def chainLoopEnabled (loaded : Bool) (events : List (AggregateEvent Bool)) : Bool :=
  match events with
  | [] => loaded
  | e :: _ => e.done && e.value

end Commands

end Aggregate

end EspNowLink
