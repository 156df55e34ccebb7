import EspNowLink.Framework.Runs
import EspNowLink.Management.DescriptorPulls
import EspNowLink.Ota.Versions
import EspNowLink.Topology.StageRuns

namespace EspNowLink

open Framework

section Statuses

def lowerAscii (message : Bytes) : Bytes := message.map tolower

/-- `management_utils::trim`. -/
def trimSpaces (message : Bytes) : Bytes :=
  ((message.dropWhile isspace).reverse.dropWhile isspace).reverse

/-- `startsWith`. -/
def startsWithText (message : Bytes) (text : String) : Bool := (ascii text).isPrefixOf message

def isOneOf (message : Bytes) (texts : List String) : Bool := texts.any fun text => message = ascii text

/-- The status for the text of an error of the slave. -/
def topologyDescriptorErrorToStatus (message : Bytes) : ManagementStatus :=
  let err := lowerAscii (trimSpaces message)
  if err = [] then .InternalError
  else if isOneOf err ["topology_not_staged"] then .TopologyNotStaged
  else if isOneOf err ["topology_version_stale", "topology stale"] then .TopologyVersionStale
  else if isOneOf err ["topology_apply_failed", "topology stage failed", "topology commit failed",
      "topology stage not active", "topology_stage_not_active"] then
    .TopologyApplyFailed
  else if isOneOf err ["topology source unauthorized", "topology_source_unauthorized",
      "source unauthorized"] then
    .DeniedByRole
  else if startsWithText err "invalid_" || startsWithText err "invalid " ||
      isOneOf err ["out_of_window", "index_unmapped", "duplicate_logical_peer", "duplicate_relative_index",
        "group_id_missing"] then
    .BadPayload
  else if isOneOf err ["pull request unsupported", "topology unsupported query", "unsupported"] then
    .UnsupportedCommand
  else .InternalError

/-- No text of an error is taken for a success. -/
theorem topologyDescriptorErrorToStatus_ne_ok (message : Bytes) :
    topologyDescriptorErrorToStatus message ≠ .Ok := by
  rw [topologyDescriptorErrorToStatus]
  repeat' split
  all_goals
    intro h
    cases h

end Statuses

inductive TopologyStageStep where
  | None
  | WaitClearAck
  | WaitBeginAck
  | WaitGroupAck
  | WaitSlotAck
  | WaitFinalizeAck
  deriving DecidableEq

/-- The fields of a pending pull that its stage flow uses. One request is on its way, under `corr_last`. -/
structure PendingTopologyStage where
  topology_stage_snapshot : ManagementTopologySnapshotPayload
  topology_stage_step : TopologyStageStep := .WaitClearAck
  topology_stage_group_cursor : Nat := 0
  topology_stage_slot_cursor : Nat := 0
  corr_last : UInt32
  topology_stage_finalize_corr : UInt32
  deriving DecidableEq

/-- The service of a master with its stage flow for one peer. -/
structure StageClient where
  next_internal_corr_id : UInt32 := 0x80000000
  stage : Option PendingTopologyStage := none
  deriving DecidableEq

deriving instance DecidableEq for PullResponseDecoded

/-- A request on its way: its correlation and its query. -/
abbrev StageRequest := UInt32 × DescriptorQuery

namespace PendingTopologyStage

/-- The query of a step, if the snapshot has one there. -/
def queryOf (p : PendingTopologyStage) : TopologyStageStep → Option DescriptorQuery
  | .WaitBeginAck => some p.topology_stage_snapshot.beginQuery
  | .WaitGroupAck =>
    p.topology_stage_snapshot.groups[p.topology_stage_group_cursor]?.map requestTopologyStageGroupSet
  | .WaitSlotAck =>
    p.topology_stage_snapshot.slots[p.topology_stage_slot_cursor]?.map requestTopologyStageSlotSet
  | .WaitFinalizeAck => some requestTopologyStageFinalize
  | .None | .WaitClearAck => none

/-- The flow when the query of a step is on its way. -/
def dispatched (p : PendingTopologyStage) (next_step : TopologyStageStep) (send_corr : UInt32) :
    PendingTopologyStage :=
  { p with
    topology_stage_step := next_step
    topology_stage_group_cursor := p.topology_stage_group_cursor + if next_step = .WaitGroupAck then 1 else 0
    topology_stage_slot_cursor := p.topology_stage_slot_cursor + if next_step = .WaitSlotAck then 1 else 0
    corr_last := send_corr
    topology_stage_finalize_corr :=
      if next_step = .WaitFinalizeAck then send_corr else p.topology_stage_finalize_corr }

/-- The step after an acknowledgement; groups come before slots. -/
def nextStep (p : PendingTopologyStage) : TopologyStageStep :=
  if p.topology_stage_step = .WaitClearAck then .WaitBeginAck
  else if p.topology_stage_group_cursor < p.topology_stage_snapshot.groups.length then .WaitGroupAck
  else if p.topology_stage_slot_cursor < p.topology_stage_snapshot.slots.length then .WaitSlotAck
  else .WaitFinalizeAck

end PendingTopologyStage

namespace StageClient

def allocateInternalCorrelation (c : StageClient) : UInt32 × StageClient :=
  let corr := if c.next_internal_corr_id < 0x80000000 then 0x80000000 else c.next_internal_corr_id
  let next := if corr + 1 < 0x80000000 then 0x80000000 else corr + 1
  (corr, { c with next_internal_corr_id := next })

/-- What the service makes of an event: its answer, if the flow has one, and the request that it sends. -/
structure Outcome where
  client : StageClient
  status : Option ManagementStatus
  request : Option StageRequest

/-- The end of a flow. -/
def finish (c : StageClient) (status : ManagementStatus) : Outcome := ⟨{ c with stage := none }, some status, none⟩

/-- `dispatch_next_stage_step`; `sent` is whether the radio takes the request. -/
def dispatchNextStageStep (c : StageClient) (p : PendingTopologyStage) (next_step : TopologyStageStep)
    (sent : Bool) : Outcome :=
  let (send_corr, c) := c.allocateInternalCorrelation
  match p.queryOf next_step with
  | none => c.finish .InternalError
  | some query =>
    if sent then
      ⟨{ c with stage := some (p.dispatched next_step send_corr) }, some .OkDeferred, some (send_corr, query)⟩
    else c.finish .InternalError

/-- The step machine on an acknowledgement. -/
def onStageAck (c : StageClient) (p : PendingTopologyStage) (corr_id : UInt32) (sent : Bool) : Outcome :=
  match p.topology_stage_step with
  | .WaitClearAck | .WaitBeginAck | .WaitGroupAck | .WaitSlotAck => c.dispatchNextStageStep p p.nextStep sent
  | .WaitFinalizeAck =>
    c.finish (if p.topology_stage_finalize_corr ≠ 0 ∧ corr_id ≠ p.topology_stage_finalize_corr then .InternalError
      else .Ok)
  | .None => c.finish .InternalError

/-- `onPullResponse` on a response of the peer, where a stage flow waits for one. -/
def onPullResponse (c : StageClient) (corr_id : UInt32) (decoded : Option PullResponseDecoded) (sent : Bool) :
    Outcome :=
  match c.stage with
  | none => ⟨c, none, none⟩
  | some p =>
    if corr_id = 0 ∨ corr_id ≠ p.corr_last then ⟨c, none, none⟩
    else match decoded with
    | some (.descriptor d) =>
      if d.type = .Error then c.finish (topologyDescriptorErrorToStatus d.message)
      else if d.type ≠ .Ack then c.finish .InternalError
      else c.onStageAck p corr_id sent
    | _ => c.finish .InternalError

/-- `runDescriptorPull` of a `TopologyStageSet` for a peer that is paired; without an id it is not tracked. -/
def runTopologyStageSet (c : StageClient) (req_id : UInt32) (payload : Bytes) (sent : Bool) : Outcome :=
  if c.stage.isSome then ⟨c, some .QueueFull, none⟩
  else match readStage payload with
  | none => ⟨c, some .BadPayload, none⟩
  | some snapshot =>
    let (corr, c) := c.allocateInternalCorrelation
    if !sent then ⟨c, some .InternalError, none⟩
    else
      let pending : PendingTopologyStage :=
        { topology_stage_snapshot := snapshot, corr_last := corr, topology_stage_finalize_corr := corr }
      let c := if req_id = 0 then c else { c with stage := some pending }
      ⟨c, some .OkDeferred, some (corr, requestTopologyStageClear)⟩

/-- `prunePendingDescriptorPulls_` at the deadline of the flow. -/
def prune (c : StageClient) : StageClient := { c with stage := none }

end StageClient

/-- The response with which a slave answers a topology query. -/
def topologyResponse (reply : StreamReply) : DescriptorResponse :=
  { type := if reply.ok then .Ack else .Error, message := ascii reply.message }

/-- The queries that open a staging, add to it or end it. -/
def isStageQuery (query : DescriptorQuery) : Bool :=
  match query.type with
  | .TopologyStageClear | .TopologyStageBegin | .TopologyStageSlotSet | .TopologyStageGroupSet
  | .TopologyStageFinalize => true
  | _ => false

/-- A stage command that has come to its end: its answer, what was to be staged, and the correlation of the last
request. -/
structure StageReport where
  status : ManagementStatus
  snapshot : ManagementTopologySnapshotPayload
  corr_id : UInt32
  deriving DecidableEq

/-- A master and the slave it stages topologies on. `requests` are those that may still reach the slave, in the
order they were sent; `answered` is what the slave has answered, `applied` are the snapshots that it committed on a
Finalize, with the correlation of that. -/
structure StageExchange where
  client : StageClient
  requests : List StageRequest
  slave : TracedPlane
  answered : List (UInt32 × StreamReply)
  applied : List (UInt32 × TopologySnapshot)
  reports : List StageReport

namespace StageExchange

/-- What happens between the two. Flows for other peers take correlations too. A response is any that the slave
gave, at any time and any number of times. The request that is delivered stays, so it may be delivered again; those
before it are lost. -/
inductive Input where
  | command (req_id : UInt32) (payload : Bytes) (sent : Bool)
  | allocate
  | expire
  | request (corr_id : UInt32) (query : DescriptorQuery)
  | deliver (send : MacAddress → Bytes → Except String Unit) (i : Nat)
  | respond (corr_id : UInt32) (decoded : Option PullResponseDecoded) (sent : Bool)
  | slave (i : TopologyPlane.Input)

variable (master : MacAddress)

/-- Other pulls go under the ids of their requests, which are below the correlations of the service. While a flow is
open no other stage query is sent. -/
def Admits (x : StageExchange) : Input → Prop
  | .request corr_id query => corr_id < 0x80000000 ∧ (x.client.stage.isSome → isStageQuery query = false)
  | .respond corr_id decoded _ => 0x80000000 ≤ corr_id →
    decoded = none ∨ ∃ a ∈ x.answered, a.1 = corr_id ∧ decoded = some (.descriptor (topologyResponse a.2))
  | .slave (.query _ sender _) => sender ≠ master
  | .command .. | .allocate | .expire | .deliver .. | .slave (.manager _) => True

instance (x : StageExchange) : ∀ i, Decidable (x.Admits master i)
  | .request _ _ => inferInstanceAs (Decidable (_ ∧ (_ → _)))
  | .respond .. => inferInstanceAs (Decidable (_ → _))
  | .slave (.query ..) => inferInstanceAs (Decidable (_ ≠ _))
  | .command .. | .allocate | .expire | .deliver .. | .slave (.manager _) => inferInstanceAs (Decidable True)

/-- The state after the service has dealt with an event. -/
def after (x : StageExchange) (o : StageClient.Outcome) : StageExchange :=
  { x with
    client := o.client
    requests := x.requests ++ o.request.toList
    reports := match x.client.stage, o.client.stage, o.status with
      | some p, none, some status => ⟨status, p.topology_stage_snapshot, p.corr_last⟩ :: x.reports
      | _, _, _ => x.reports }

/-- A request reaches the slave. -/
def handle (x : StageExchange) (send : MacAddress → Bytes → Except String Unit) (corr_id : UInt32)
    (query : DescriptorQuery) : StageExchange :=
  let reply := (x.slave.plane.handleTopologyQuery send master query).1
  let slave := x.slave.step (.query send master query)
  { x with
    slave := slave
    answered := (reply.map fun reply => (corr_id, reply)).toList ++ x.answered
    applied :=
      (if query.type = .TopologyStageFinalize ∧ reply.any (·.ok) then
        slave.plane.manager.topology_committed.map fun c => (corr_id, c)
      else none).toList ++ x.applied }

/-- Nothing has been sent yet. -/
def start (slave : TracedPlane) : StageExchange := ⟨{}, [], slave, [], [], []⟩

def step (x : StageExchange) : Input → StageExchange
  | .command req_id payload sent => x.after (x.client.runTopologyStageSet req_id payload sent)
  | .allocate => { x with client := x.client.allocateInternalCorrelation.2 }
  | .expire => { x with client := x.client.prune }
  | .request corr_id query => { x with requests := x.requests ++ [(corr_id, query)] }
  | .deliver send i =>
    match x.requests[i]? with
    | none => x
    | some (corr_id, query) => { x with requests := x.requests.drop i }.handle master send corr_id query
  | .respond corr_id decoded sent => x.after (x.client.onPullResponse corr_id decoded sent)
  | .slave i => { x with slave := x.slave.step i }

end StageExchange

end EspNowLink
