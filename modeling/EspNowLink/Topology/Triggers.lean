import EspNowLink.Framework.DedupWindow
import EspNowLink.Topology.Types

namespace EspNowLink

open Framework

def kTopologyProtoId : UInt8 := 0xED
def kTopologyProtoVersion : UInt8 := 1
def kTopologyMsgTrigger : UInt8 := 0x01
def kTopologyMsgTriggerBatch : UInt8 := 0x03
def kTopologyTriggerDedupWindowMs : UInt32 := 15000
def kTopologyTriggerDedupMaxEntries : Nat := 32
def kTopologyTriggerResultAccepted : UInt8 := 0
def kTopologyTriggerResultRejected : UInt8 := 1
def kTopologyTriggerReasonOk : UInt8 := 0x00
def kTopologyTriggerReasonUnauthorizedPeer : UInt8 := 0x01
def kTopologyTriggerReasonStaleTopology : UInt8 := 0x02
def kTopologyTriggerReasonBadIndex : UInt8 := 0x03
def kTopologyTriggerReasonRangeRejected : UInt8 := 0x04

structure TopologyTriggerPayload where
  topology_version : UInt32
  seq : UInt16
  src_role : UInt8
  src_vid : UInt8
  dst_role : UInt8
  dst_vid : UInt8
  direction : UInt8
  delay_ms : UInt16
  hold_ms : UInt16
  deriving DecidableEq

structure TopologyTriggerBatchItem where
  dst_vid : UInt8
  target_index : Int8
  delay_ms : UInt16
  hold_ms : UInt16
  deriving DecidableEq

structure TopologyTriggerBatchPayload where
  topology_version : UInt32
  seq : UInt16
  src_role : UInt8
  src_vid : UInt8
  dst_role : UInt8
  direction : UInt8
  items : List TopologyTriggerBatchItem
  deriving DecidableEq

structure TopologyTriggerAckPayload where
  topology_version : UInt32
  seq : UInt16
  src_role : UInt8
  src_vid : UInt8
  dst_role : UInt8
  dst_vid : UInt8
  ack_seq : UInt16
  result : UInt8
  reason : UInt8
  deriving DecidableEq

/-- What the local handler is told. -/
structure TopologyTriggerNotification where
  source : MacAddress
  seq : UInt16
  src_role : UInt8
  src_vid : UInt8
  dst_role : UInt8
  dst_vid : UInt8
  direction : UInt8
  delay_ms : UInt16
  hold_ms : UInt16
  deriving DecidableEq

def parseTopologyTriggerPayload : Bytes → Option TopologyTriggerPayload
  | id :: version :: kind :: v0 :: v1 :: v2 :: v3 :: s0 :: s1 :: src_role :: src_vid :: dst_role ::
      dst_vid :: direction :: d0 :: d1 :: h0 :: h1 :: _ =>
    if id ≠ kTopologyProtoId ∨ version ≠ kTopologyProtoVersion ∨ kind ≠ kTopologyMsgTrigger then none
    else some {
      topology_version := readLe32 v0 v1 v2 v3
      seq := readLe16 s0 s1
      src_role := src_role
      src_vid := src_vid
      dst_role := dst_role
      dst_vid := dst_vid
      direction := direction
      delay_ms := readLe16 d0 d1
      hold_ms := readLe16 h0 h1 }
  | _ => none

/-- The items of a batch; too few bytes for the announced number are an error. -/
def parseBatchItems : Nat → Bytes → Option (List TopologyTriggerBatchItem)
  | 0, _ => some []
  | n + 1, dst_vid :: target :: d0 :: d1 :: h0 :: h1 :: rest =>
    (parseBatchItems n rest).map
      (⟨dst_vid, target.toInt8, readLe16 d0 d1, readLe16 h0 h1⟩ :: ·)
  | _ + 1, _ => none

def parseTopologyTriggerBatchPayload : Bytes → Option TopologyTriggerBatchPayload
  | id :: version :: kind :: v0 :: v1 :: v2 :: v3 :: s0 :: s1 :: src_role :: src_vid :: dst_role ::
      direction :: item_count :: rest =>
    if id ≠ kTopologyProtoId ∨ version ≠ kTopologyProtoVersion ∨ kind ≠ kTopologyMsgTriggerBatch then
      none
    else if item_count = 0 then none
    else (parseBatchItems item_count.toNat rest).map fun items => {
      topology_version := readLe32 v0 v1 v2 v3
      seq := readLe16 s0 s1
      src_role := src_role
      src_vid := src_vid
      dst_role := dst_role
      direction := direction
      items := items }
  | _ => none

/-- What the dedup table tells triggers apart by. -/
structure TriggerKey where
  source : MacAddress
  src_role : UInt8
  src_vid : UInt8
  seq : UInt16
  deriving DecidableEq

/-- The part of the manager that receives triggers. The acks are listed with their destination and
correlation id. -/
structure TriggerReceiver where
  local_role : Role
  local_profile_id : ProfileId
  topology_committed : Option TopologySnapshot
  has_hooks : Bool
  current_now_ms : UInt32
  topology_trigger_dedup : List (Seen TriggerKey)
  notified : List TopologyTriggerNotification
  acks : List (MacAddress × UInt32 × TopologyTriggerAckPayload)

namespace TriggerReceiver

def local_code (r : TriggerReceiver) : UInt8 := r.local_profile_id.toUInt8

def findTopologyAuthorizedSourceSlot (r : TriggerReceiver) (sender : MacAddress)
    (src_role src_vid dst_vid : UInt8) : Option TopologySlot :=
  r.topology_committed.bind fun snapshot =>
    snapshot.slots.toList.find? fun slot =>
      slot.enabled && slot.peer == sender && slot.peer_role == src_role &&
        slot.peer_virtual_index == src_vid && slot.local_virtual_index == dst_vid

def isTopologyTriggerDuplicate (r : TriggerReceiver) (key : TriggerKey) : Bool × TriggerReceiver :=
  let (duplicate, table) := DedupWindow.check kTopologyTriggerDedupWindowMs
    kTopologyTriggerDedupMaxEntries r.current_now_ms key r.topology_trigger_dedup
  (duplicate, { r with topology_trigger_dedup := table })

def badIndex (vid : UInt8) : Bool := vid != 0xFF && decide (vid > 0x0F)

/-- The checks of a single trigger before the dedup table: the reason of a refusal. -/
def triggerRefusal (r : TriggerReceiver) (sender : MacAddress) (trigger : TopologyTriggerPayload) :
    Option UInt8 :=
  if r.topology_committed.isNone then some kTopologyTriggerReasonStaleTopology
  else if r.local_profile_id = kProfileUnknown ∨ trigger.dst_role ≠ r.local_code then
    some kTopologyTriggerReasonUnauthorizedPeer
  else if !isTopologyRolePairAllowed r.local_code trigger.src_role then
    some kTopologyTriggerReasonUnauthorizedPeer
  else if badIndex trigger.src_vid || badIndex trigger.dst_vid then
    some kTopologyTriggerReasonBadIndex
  else if trigger.direction ≠ 1 ∧ trigger.direction ≠ 2 then
    some kTopologyTriggerReasonRangeRejected
  else if (r.findTopologyAuthorizedSourceSlot sender trigger.src_role trigger.src_vid
      trigger.dst_vid).isNone then some kTopologyTriggerReasonUnauthorizedPeer
  else none

/-- The checks of a batch before the dedup table. -/
def batchRefusal (r : TriggerReceiver) (trigger : TopologyTriggerBatchPayload) : Option UInt8 :=
  if r.topology_committed.isNone then some kTopologyTriggerReasonStaleTopology
  else if r.local_profile_id = kProfileUnknown ∨ trigger.dst_role ≠ r.local_code then
    some kTopologyTriggerReasonUnauthorizedPeer
  else if !isTopologyRolePairAllowed r.local_code trigger.src_role then
    some kTopologyTriggerReasonUnauthorizedPeer
  else if badIndex trigger.src_vid || trigger.items.isEmpty then some kTopologyTriggerReasonBadIndex
  else if trigger.direction ≠ 1 ∧ trigger.direction ≠ 2 then
    some kTopologyTriggerReasonRangeRejected
  else none

/-- The checks of a batch behind the dedup table: the first item that fails gives the reason. -/
def itemsReason (r : TriggerReceiver) (sender : MacAddress) (src_role src_vid : UInt8) :
    List TopologyTriggerBatchItem → UInt8
  | [] => kTopologyTriggerReasonOk
  | item :: items =>
    if badIndex item.dst_vid || item.target_index == 0 then kTopologyTriggerReasonBadIndex
    else if (r.findTopologyAuthorizedSourceSlot sender src_role src_vid item.dst_vid).isNone then
      kTopologyTriggerReasonUnauthorizedPeer
    else r.itemsReason sender src_role src_vid items

/-- The end of both handlers: the local handler hears of a new accepted trigger, and the sender gets
its ack. -/
def conclude (r : TriggerReceiver) (sender : MacAddress) (corr_id : UInt32)
    (accepted duplicate : Bool) (reason : UInt8) (notes : List TopologyTriggerNotification)
    (ack : TopologyTriggerAckPayload) : TriggerReceiver :=
  { r with
    notified := if accepted && !duplicate && r.has_hooks then r.notified ++ notes else r.notified
    acks := r.acks ++ [(sender, corr_id, { ack with
      result := if accepted then kTopologyTriggerResultAccepted else kTopologyTriggerResultRejected
      reason := if accepted then kTopologyTriggerReasonOk else reason })] }

/-- Both handlers from their first checks on. A single trigger has no check behind the dedup table. -/
def handleTrigger (r : TriggerReceiver) (sender : MacAddress) (corr_id : UInt32)
    (refusal : Option UInt8) (key : TriggerKey) (items_reason : UInt8)
    (notes : List TopologyTriggerNotification) (ack : TopologyTriggerAckPayload) :
    TriggerReceiver :=
  match refusal with
  | some reason => r.conclude sender corr_id false false reason notes ack
  | none =>
    match r.isTopologyTriggerDuplicate key with
    | (true, r) => r.conclude sender corr_id true true kTopologyTriggerReasonOk notes ack
    | (false, r) =>
      r.conclude sender corr_id (items_reason == kTopologyTriggerReasonOk) false items_reason notes
        ack

end TriggerReceiver

namespace TopologyTriggerPayload

def key (t : TopologyTriggerPayload) (sender : MacAddress) : TriggerKey :=
  ⟨sender, t.src_role, t.src_vid, t.seq⟩

def note (t : TopologyTriggerPayload) (sender : MacAddress) : TopologyTriggerNotification where
  source := sender
  seq := t.seq
  src_role := t.src_role
  src_vid := t.src_vid
  dst_role := t.dst_role
  dst_vid := t.dst_vid
  direction := t.direction
  delay_ms := t.delay_ms
  hold_ms := t.hold_ms

def ack (t : TopologyTriggerPayload) (r : TriggerReceiver) : TopologyTriggerAckPayload where
  topology_version := (r.topology_committed.map (·.topology_version)).getD t.topology_version
  seq := t.seq
  src_role := r.local_code
  src_vid := t.dst_vid
  dst_role := t.src_role
  dst_vid := t.src_vid
  ack_seq := t.seq
  result := kTopologyTriggerResultRejected
  reason := kTopologyTriggerReasonOk

end TopologyTriggerPayload

namespace TopologyTriggerBatchPayload

def key (t : TopologyTriggerBatchPayload) (sender : MacAddress) : TriggerKey :=
  ⟨sender, t.src_role, t.src_vid, t.seq⟩

def note (t : TopologyTriggerBatchPayload) (sender : MacAddress) (item : TopologyTriggerBatchItem) :
    TopologyTriggerNotification where
  source := sender
  seq := t.seq
  src_role := t.src_role
  src_vid := t.src_vid
  dst_role := t.dst_role
  dst_vid := item.dst_vid
  direction := t.direction
  delay_ms := item.delay_ms
  hold_ms := item.hold_ms

def ack (t : TopologyTriggerBatchPayload) (r : TriggerReceiver) : TopologyTriggerAckPayload where
  topology_version := (r.topology_committed.map (·.topology_version)).getD t.topology_version
  seq := t.seq
  src_role := r.local_code
  src_vid := 0xFF
  dst_role := t.src_role
  dst_vid := t.src_vid
  ack_seq := t.seq
  result := kTopologyTriggerResultRejected
  reason := kTopologyTriggerReasonOk

end TopologyTriggerBatchPayload

namespace TriggerReceiver

def onRxTopologyTrigger (r : TriggerReceiver) (sender : MacAddress) (corr_id : UInt32)
    (payload : Bytes) : TriggerReceiver :=
  if r.local_role ≠ .Slave then r
  else
    match parseTopologyTriggerPayload payload with
    | none => r
    | some trigger =>
      r.handleTrigger sender corr_id (r.triggerRefusal sender trigger) (trigger.key sender)
        kTopologyTriggerReasonOk [trigger.note sender] (trigger.ack r)

def onRxTopologyTriggerBatch (r : TriggerReceiver) (sender : MacAddress) (corr_id : UInt32)
    (payload : Bytes) : TriggerReceiver :=
  if r.local_role ≠ .Slave then r
  else
    match parseTopologyTriggerBatchPayload payload with
    | none => r
    | some trigger =>
      r.handleTrigger sender corr_id (r.batchRefusal trigger) (trigger.key sender)
        (r.itemsReason sender trigger.src_role trigger.src_vid trigger.items)
        (trigger.items.map (trigger.note sender)) (trigger.ack r)

end TriggerReceiver

end EspNowLink
