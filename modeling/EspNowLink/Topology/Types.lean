import EspNowLink.Core.Types

namespace EspNowLink

abbrev ProfileId := UInt16

def kProfileUnknown : ProfileId := 0
def kProfileRelay : ProfileId := 2
def kProfileSens : ProfileId := 3
def kProfileSemu : ProfileId := 4
def kProfileRemu : ProfileId := 5

def kTopologyMaxSlots : Nat := 13
def kTopologyMaxGroups : Nat := 12

inductive TopologyState where
  | None
  | Staged
  | Committed
  deriving DecidableEq

structure TopologySlot where
  enabled : Bool
  peer : MacAddress
  peer_role : UInt8
  group_id : UInt8
  relative_index : Int8
  local_virtual_index : UInt8
  peer_virtual_index : UInt8
  axis_order : Int8
  delay_ms : UInt16
  hold_ms : UInt16
  deriving DecidableEq

structure TopologyGroupSeed where
  enabled : Bool
  group_id : UInt8
  seed : Vector UInt8 32
  deriving DecidableEq

structure TopologySnapshot where
  schema_version : UInt8
  state : TopologyState
  topology_version : UInt32
  index_neg : UInt8
  index_pos : UInt8
  enabled_slot_count : UInt8
  enabled_group_count : UInt8
  checksum : UInt32
  slots : Vector TopologySlot kTopologyMaxSlots
  groups : Vector TopologyGroupSeed kTopologyMaxGroups
  deriving DecidableEq

def isSensorProfileCode (code : UInt8) : Bool :=
  code == kProfileSens.toUInt8 || code == kProfileSemu.toUInt8

def isRelayProfileCode (code : UInt8) : Bool :=
  code == kProfileRelay.toUInt8 || code == kProfileRemu.toUInt8

/-- Sensors and relays pair with each other, other roles with any. -/
def isTopologyRolePairAllowed (local_code peer_code : UInt8) : Bool :=
  if isSensorProfileCode local_code then isRelayProfileCode peer_code
  else if isRelayProfileCode local_code then isSensorProfileCode peer_code
  else true

end EspNowLink
