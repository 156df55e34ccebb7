import EspNowLink.Core.PullTraffic
import EspNowLink.Topology.TriggerPayloads
import EspNowLink.Topology.StagePayload

namespace EspNowLink

open Framework

structure TopologyTriggerRequest where
  target_index : Int8
  direction : UInt8
  delay_ms : UInt16
  hold_ms : UInt16
  source_virtual_index : UInt8
  deriving DecidableEq

def blankSlot : TopologySlot := ⟨false, zeroMac, 0, 0, 0, 0xFF, 0xFF, 0, 0, 0⟩

def blankSnapshot : TopologySnapshot where
  schema_version := 1
  state := .None
  topology_version := 0
  index_neg := 0
  index_pos := 0
  enabled_slot_count := 0
  enabled_group_count := 0
  checksum := 0
  slots := Vector.replicate _ blankSlot
  groups := Vector.replicate _ ⟨false, 0, zeroSeed⟩

/-- The stage session of `SlaveControlPlane`. -/
structure StageSession where
  topology_stage_active : Bool := false
  topology_stage_owner : MacAddress := zeroMac
  topology_stage_snapshot : TopologySnapshot := blankSnapshot.withState .Staged
  topology_stage_slot_seen : Vector Bool kTopologyMaxSlots := Vector.replicate _ false
  topology_stage_group_seen : Vector Bool kTopologyMaxGroups := Vector.replicate _ false
  deriving DecidableEq

/-- What the topology queries of a slave read and change. -/
structure TopologyPlane where
  manager : TopologyManager
  topology_trigger_seq : UInt16
  session : StageSession

def isTopologyQuery : DescriptorQueryType → Bool
  | .TopologyStageClear | .TopologyStageBegin | .TopologyStageSlotSet | .TopologyStageGroupSet
  | .TopologyStageFinalize | .TopologyCommit | .TopologyStatus | .TopologyTriggerSend => true
  | _ => false

def hexDigit (n : Nat) : Char := "0123456789ABCDEF".toList.getD n '0'

/-- `0x%08lX`. -/
def checksumText (v : UInt32) : String :=
  "0x" ++ String.ofList ([28, 24, 20, 16, 12, 8, 4, 0].map fun shift => hexDigit (v.toNat / 2 ^ shift % 16))

def bitText (b : Bool) : String := if b then "1" else "0"

def TopologyState.code : TopologyState → Nat
  | .None => 0
  | .Staged => 1
  | .Committed => 2

namespace TopologyPlane

def withManager (p : TopologyPlane) (manager : TopologyManager) : TopologyPlane :=
  { p with manager := manager }

def resetTopologyStageSession (p : TopologyPlane) : TopologyPlane := { p with session := {} }

/-- `sendTyped` with the trigger answers nothing, or the text of its error. -/
def sendTopologyTrigger (p : TopologyPlane) (send : MacAddress → Bytes → Except String Unit)
    (request : TopologyTriggerRequest) : Except String UInt16 × TopologyPlane :=
  match p.manager.topology_committed with
  | none => (.error "topology_missing", p)
  | some committed =>
    if request.direction ≠ 1 ∧ request.direction ≠ 2 then (.error "invalid_direction", p)
    else if request.source_virtual_index ≠ 0xFF ∧ request.source_virtual_index > 0x0F then
      (.error "invalid_source_virtual_index", p)
    else if p.manager.local_profile_id = kProfileUnknown then (.error "local_profile_unknown", p)
    else match p.manager.resolveTopologyTargetIndex request.target_index true with
    | .error error => (.error error, p)
    | .ok slot =>
      let seq := p.topology_trigger_seq
      let p := { p with topology_trigger_seq := if seq + 1 = 0 then 1 else seq + 1 }
      let src_role := p.manager.local_profile_id.toUInt8
      if !isTopologyRolePairAllowed src_role slot.peer_role then (.error "invalid_role_pair", p)
      else match p.manager.ensureTopologyPeerReadyForSlot slot with
      | (.error error, m) => (.error error, p.withManager m)
      | (.ok _, m) =>
        let payload := buildTopologyTriggerPayload {
          topology_version := committed.topology_version
          seq := seq
          src_role := src_role
          src_vid := request.source_virtual_index
          dst_role := slot.peer_role
          dst_vid := slot.peer_virtual_index
          direction := request.direction
          delay_ms := request.delay_ms
          hold_ms := request.hold_ms }
        match send slot.peer payload with
        | .error error => (.error (if error.isEmpty then "send_failed" else error), p.withManager m)
        | .ok _ => (.ok seq, p.withManager m)

/-- The message of a `TopologyStatus` answer. -/
def statusMessage (m : TopologyManager) : String :=
  let staged := m.topology_staged
  let committed := m.topology_committed.getD blankSnapshot
  let indices := (m.topology_committed.or staged).getD blankSnapshot
  "staged=" ++ bitText staged.isSome ++ " committed=" ++ bitText m.topology_committed.isSome ++
    " committed_ver=" ++ toString committed.topology_version ++
    " committed_slots=" ++ toString committed.enabled_slot_count ++
    " committed_groups=" ++ toString committed.enabled_group_count ++
    " committed_state=" ++ toString committed.state.code ++
    " index_neg=" ++ toString indices.index_neg ++ " index_pos=" ++ toString indices.index_pos ++
    " committed_checksum=" ++ checksumText committed.checksum

def stageBegin (p : TopologyPlane) (sender : MacAddress) (query : DescriptorQuery) :
    StreamReply × TopologyPlane :=
  let snapshot : TopologySnapshot := { blankSnapshot with
    schema_version := query.topology_schema_version
    state := .Staged
    topology_version := query.topology_version
    index_neg := query.topology_index_neg
    index_pos := query.topology_index_pos }
  let session : StageSession :=
    { topology_stage_active := true, topology_stage_owner := sender, topology_stage_snapshot := snapshot }
  (⟨true, "topology stage begin ok"⟩, { p with session := session })

/-- The slot that a query stages. -/
def slotOfQuery (query : DescriptorQuery) : TopologySlot where
  enabled := query.topology_slot_enabled
  peer := query.topology_peer
  peer_role := query.topology_peer_role
  group_id := query.topology_group_id
  relative_index := query.topology_relative_index
  local_virtual_index := query.topology_local_virtual_index
  peer_virtual_index := query.topology_peer_virtual_index
  axis_order := query.topology_axis_order
  delay_ms := query.topology_delay_ms
  hold_ms := query.topology_hold_ms

/-- A query that adds to the session needs one of its sender. -/
def inSession (p : TopologyPlane) (sender : MacAddress) : Bool :=
  p.session.topology_stage_active && p.session.topology_stage_owner = sender

def stageSlot (p : TopologyPlane) (query : DescriptorQuery) : StreamReply × TopologyPlane :=
  let i := query.topology_slot_index.toNat
  if h : i < kTopologyMaxSlots then
    let snapshot := { p.session.topology_stage_snapshot with
      slots := p.session.topology_stage_snapshot.slots.set i (slotOfQuery query) h }
    let session := { p.session with
      topology_stage_snapshot := snapshot
      topology_stage_slot_seen := p.session.topology_stage_slot_seen.set i true h }
    (⟨true, "topology slot staged"⟩, { p with session := session })
  else (⟨false, "topology slot index invalid"⟩, p)

def stageGroup (p : TopologyPlane) (query : DescriptorQuery) : StreamReply × TopologyPlane :=
  let i := query.topology_group_slot.toNat
  if h : i < kTopologyMaxGroups then
    let group : TopologyGroupSeed :=
      ⟨query.topology_group_enabled, query.topology_group_id, query.topology_group_seed⟩
    let snapshot := { p.session.topology_stage_snapshot with
      groups := p.session.topology_stage_snapshot.groups.set i group h }
    let session := { p.session with
      topology_stage_snapshot := snapshot
      topology_stage_group_seen := p.session.topology_stage_group_seen.set i true h }
    (⟨true, "topology group staged"⟩, { p with session := session })
  else (⟨false, "topology group index invalid"⟩, p)

/-- The session is over, whether or not the topology is applied. -/
def stageFinalize (p : TopologyPlane) : StreamReply × TopologyPlane :=
  let (staged, m) := p.manager.stageTopology p.session.topology_stage_snapshot
  match staged with
  | .error error => (⟨false, error⟩, (p.withManager m).resetTopologyStageSession)
  | .ok _ =>
    let (committed, m) := m.commitStagedTopology
    let p := (p.withManager m).resetTopologyStageSession
    match committed with
    | .error error => (⟨false, error⟩, p)
    | .ok _ => (⟨true, "topology applied"⟩, p)

def topologyCommit (p : TopologyPlane) : StreamReply × TopologyPlane :=
  let (committed, m) := p.manager.commitStagedTopology
  let p := p.withManager m
  match committed with
  | .ok _ => (⟨true, "topology committed"⟩, p)
  | .error error =>
    if error = "topology_not_staged" ∧ m.topology_committed.isSome then
      (⟨true, "topology already committed"⟩, p)
    else (⟨false, error⟩, p)

/-- `handleTopologyQuery_`: the acknowledgement or the error that it sends; it takes no other query. -/
def handleTopologyQuery (p : TopologyPlane) (send : MacAddress → Bytes → Except String Unit)
    (sender : MacAddress) (query : DescriptorQuery) : Option StreamReply × TopologyPlane :=
  if !isTopologyQuery query.type then (none, p)
  else if p.manager.paired_peer ≠ some sender then (some ⟨false, "topology source unauthorized"⟩, p)
  else
    let (reply, p) := match query.type with
      | .TopologyStageClear =>
        let p := p.resetTopologyStageSession
        let (cleared, m) := p.manager.clearStagedTopology
        (if cleared then ⟨true, "topology stage cleared"⟩ else ⟨false, "topology stage clear failed"⟩,
          p.withManager m)
      | .TopologyStageBegin => p.stageBegin sender query
      | .TopologyStageSlotSet =>
        if p.inSession sender then p.stageSlot query else (⟨false, "topology stage not active"⟩, p)
      | .TopologyStageGroupSet =>
        if p.inSession sender then p.stageGroup query else (⟨false, "topology stage not active"⟩, p)
      | .TopologyStageFinalize =>
        if p.inSession sender then p.stageFinalize else (⟨false, "topology stage not active"⟩, p)
      | .TopologyCommit => p.topologyCommit
      | .TopologyStatus => (⟨true, statusMessage p.manager⟩, p)
      | .TopologyTriggerSend =>
        let (seq, p) := p.sendTopologyTrigger send
          ⟨query.topology_target_index, query.topology_trigger_direction, query.topology_delay_ms,
            query.topology_hold_ms, query.topology_source_virtual_index⟩
        match seq with
        | .ok seq => (⟨true, "topology trigger seq=" ++ toString seq⟩, p)
        | .error error => (⟨false, error⟩, p)
      | _ => (⟨false, "topology unsupported query"⟩, p)
    (some reply, p)

/-- A topology query gets an answer, an acknowledgement or an error, and no other query does. -/
theorem handleTopologyQuery_isSome (p : TopologyPlane) (send : MacAddress → Bytes → Except String Unit)
    (sender : MacAddress) (query : DescriptorQuery) :
    (p.handleTopologyQuery send sender query).1.isSome = isTopologyQuery query.type := by
  rw [handleTopologyQuery]
  cases htopology : isTopologyQuery query.type with
  | false => simp
  | true =>
    rw [if_neg (by simp)]
    by_cases hpeer : p.manager.paired_peer = some sender
    · rw [if_neg (by simp [hpeer])]
      rfl
    · rw [if_pos hpeer]
      rfl

/-- A query of another type leaves the topology and the session alone. -/
theorem handleTopologyQuery_other (p : TopologyPlane) (send : MacAddress → Bytes → Except String Unit)
    (sender : MacAddress) {query : DescriptorQuery} (h : isTopologyQuery query.type = false) :
    p.handleTopologyQuery send sender query = (none, p) := by
  rw [handleTopologyQuery, h]
  rfl

end TopologyPlane

end EspNowLink
