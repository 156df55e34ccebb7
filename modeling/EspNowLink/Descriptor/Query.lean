import EspNowLink.Descriptor.Encode
import EspNowLink.Topology.Types

open Framework

namespace EspNowLink

/-- The bytes from 35 on name no query type; `static_cast` keeps them. -/
inductive DescriptorQueryType where
  | Unknown
  | GetDevice
  | GetCapabilities
  | GetTelemetry
  | PullTelemetry
  | GetLiveness
  | GetTime
  | SetTime
  | GetSettings
  | GetNodeBundle
  | GetSetting
  | SetSetting
  | GetLogStatus
  | ReadLogChunk
  | ClearLog
  | SetLogControl
  | GetStorageInfo
  | ListStoragePath
  | StatStoragePath
  | FormatStorage
  | GetOtaStatus
  | GetOtaManifest
  | RebuildOtaManifest
  | ClearOtaScope
  | GetOtaCapacity
  | GetOtaGateInfo
  | ApplyOtaImage
  | TopologyStageClear
  | TopologyStageBegin
  | TopologyStageSlotSet
  | TopologyStageGroupSet
  | TopologyStageFinalize
  | TopologyCommit
  | TopologyStatus
  | TopologyTriggerSend
  | Unnamed (code : { c : UInt8 // 35 ≤ c })
  deriving DecidableEq

namespace DescriptorQueryType

def toByte : DescriptorQueryType → UInt8
  | Unknown => 0
  | GetDevice => 1
  | GetCapabilities => 2
  | GetTelemetry => 3
  | PullTelemetry => 4
  | GetLiveness => 5
  | GetTime => 6
  | SetTime => 7
  | GetSettings => 8
  | GetNodeBundle => 9
  | GetSetting => 10
  | SetSetting => 11
  | GetLogStatus => 12
  | ReadLogChunk => 13
  | ClearLog => 14
  | SetLogControl => 15
  | GetStorageInfo => 16
  | ListStoragePath => 17
  | StatStoragePath => 18
  | FormatStorage => 19
  | GetOtaStatus => 20
  | GetOtaManifest => 21
  | RebuildOtaManifest => 22
  | ClearOtaScope => 23
  | GetOtaCapacity => 24
  | GetOtaGateInfo => 25
  | ApplyOtaImage => 26
  | TopologyStageClear => 27
  | TopologyStageBegin => 28
  | TopologyStageSlotSet => 29
  | TopologyStageGroupSet => 30
  | TopologyStageFinalize => 31
  | TopologyCommit => 32
  | TopologyStatus => 33
  | TopologyTriggerSend => 34
  | Unnamed c => c.1

def ofByte (c : UInt8) : DescriptorQueryType :=
  if h : 35 ≤ c then Unnamed ⟨c, h⟩
  else match c.toNat with
    | 0 => Unknown
    | 1 => GetDevice
    | 2 => GetCapabilities
    | 3 => GetTelemetry
    | 4 => PullTelemetry
    | 5 => GetLiveness
    | 6 => GetTime
    | 7 => SetTime
    | 8 => GetSettings
    | 9 => GetNodeBundle
    | 10 => GetSetting
    | 11 => SetSetting
    | 12 => GetLogStatus
    | 13 => ReadLogChunk
    | 14 => ClearLog
    | 15 => SetLogControl
    | 16 => GetStorageInfo
    | 17 => ListStoragePath
    | 18 => StatStoragePath
    | 19 => FormatStorage
    | 20 => GetOtaStatus
    | 21 => GetOtaManifest
    | 22 => RebuildOtaManifest
    | 23 => ClearOtaScope
    | 24 => GetOtaCapacity
    | 25 => GetOtaGateInfo
    | 26 => ApplyOtaImage
    | 27 => TopologyStageClear
    | 28 => TopologyStageBegin
    | 29 => TopologyStageSlotSet
    | 30 => TopologyStageGroupSet
    | 31 => TopologyStageFinalize
    | 32 => TopologyCommit
    | 33 => TopologyStatus
    | _ => TopologyTriggerSend

@[simp] theorem ofByte_toByte (t : DescriptorQueryType) : ofByte t.toByte = t := by
  cases t with
  | Unnamed c => simp [toByte, ofByte, c.2]
  | _ => rfl

end DescriptorQueryType

/-- The bundle, log, storage and OTA fields of a `DescriptorQuery`. -/
structure MaintenanceQuery where
  bundle_mask : UInt8 := kNodeBundleMaskAll
  log_offset : UInt32 := 0
  log_max_bytes : UInt16 := 0
  has_log_enable : Bool := false
  log_enable : Bool := false
  storage_path : Bytes := []
  ota_scope : Bytes := []
  ota_target : Bytes := []
  deriving DecidableEq

/-- The topology fields of a `DescriptorQuery`. -/
structure TopologyQuery where
  topology_schema_version : UInt8 := 1
  topology_version : UInt32 := 0
  topology_index_neg : UInt8 := 0
  topology_index_pos : UInt8 := 0
  topology_slot_index : UInt8 := 0
  topology_slot_enabled : Bool := false
  topology_peer : MacAddress := zeroMac
  topology_peer_role : UInt8 := 0
  topology_group_id : UInt8 := 0
  topology_relative_index : Int8 := 0
  topology_local_virtual_index : UInt8 := 0xFF
  topology_peer_virtual_index : UInt8 := 0xFF
  topology_axis_order : Int8 := 0
  topology_delay_ms : UInt16 := 0
  topology_hold_ms : UInt16 := 0
  topology_group_slot : UInt8 := 0
  topology_group_enabled : Bool := false
  topology_group_seed : Vector UInt8 32 := Vector.replicate 32 0
  topology_target_index : Int8 := 0
  topology_trigger_direction : UInt8 := 0
  topology_source_virtual_index : UInt8 := 0xFF
  deriving DecidableEq

structure DescriptorQuery extends MaintenanceQuery, TopologyQuery where
  type : DescriptorQueryType := .Unknown
  key : Bytes := []
  has_setting_id : Bool := false
  setting_id : UInt16 := 0
  value : Bytes := []
  time_epoch_s : UInt64 := 0
  paged : Bool := false
  cursor : UInt16 := 0
  page_size : UInt8 := 0
  deriving DecidableEq

def supportsPaging : DescriptorQueryType → Bool
  | .GetCapabilities | .GetTelemetry | .PullTelemetry | .GetNodeBundle | .GetSettings
  | .GetOtaManifest => true
  | _ => false

/-- The queries that name one setting. -/
def selectsSetting : DescriptorQueryType → Bool
  | .GetSetting | .SetSetting => true
  | _ => false

/-- A setting is named by its id or by its key, not by both. -/
def namesOneSetting (query : DescriptorQuery) : Bool :=
  !selectsSetting query.type || query.has_setting_id != !query.key.isEmpty

def bytesField (tag : UInt8) (v : Bytes) : Tlv := ⟨tag, 0x08, v⟩

/-- A text that is sent only when there is one. -/
def textUnlessEmpty (tag : UInt8) (v : Bytes) : List Tlv := if v.isEmpty then [] else [utf8Field tag v]

def selectorFields (query : DescriptorQuery) : List Tlv :=
  if !selectsSetting query.type then []
  else if query.has_setting_id then [u16Field 0x14 query.setting_id]
  else [utf8Field 0x11 query.key]

/-- The fields that only one type of query has. -/
def argumentFields (query : DescriptorQuery) : List Tlv :=
  match query.type with
  | .SetSetting => [utf8Field 0x12 query.value]
  | .SetTime => [u32Field 0x13 query.time_epoch_s.toUInt32]
  | .GetNodeBundle => [u8Field 0x59 (effectiveMask query.bundle_mask)]
  | .ReadLogChunk => [u32Field 0x30 query.log_offset, u16Field 0x31 query.log_max_bytes]
  | .SetLogControl => [boolField 0x32 query.log_enable]
  | .ListStoragePath | .StatStoragePath => textUnlessEmpty 0x33 query.storage_path
  | .ClearOtaScope => textUnlessEmpty 0x34 query.ota_scope
  | .ApplyOtaImage => textUnlessEmpty 0x35 query.ota_target
  | .TopologyStageBegin =>
    [u8Field 0x40 query.topology_schema_version, u32Field 0x41 query.topology_version,
      u8Field 0x42 query.topology_index_neg, u8Field 0x43 query.topology_index_pos]
  | .TopologyStageSlotSet =>
    [u8Field 0x44 query.topology_slot_index, boolField 0x45 query.topology_slot_enabled,
      bytesField 0x46 query.topology_peer.toList, u8Field 0x47 query.topology_peer_role,
      u8Field 0x48 query.topology_group_id, u8Field 0x49 query.topology_relative_index.toUInt8,
      u8Field 0x4A query.topology_local_virtual_index, u8Field 0x4B query.topology_peer_virtual_index,
      u8Field 0x4C query.topology_axis_order.toUInt8, u16Field 0x4D query.topology_delay_ms,
      u16Field 0x4E query.topology_hold_ms]
  | .TopologyStageGroupSet =>
    [u8Field 0x50 query.topology_group_slot, boolField 0x51 query.topology_group_enabled,
      u8Field 0x52 query.topology_group_id] ++
    if query.topology_group_enabled then [bytesField 0x53 query.topology_group_seed.toList] else []
  | .TopologyTriggerSend =>
    [u8Field 0x54 query.topology_target_index.toUInt8, u8Field 0x55 query.topology_trigger_direction,
      u16Field 0x56 query.topology_delay_ms, u16Field 0x57 query.topology_hold_ms,
      u8Field 0x58 query.topology_source_virtual_index]
  | _ => []

def pagingFields (query : DescriptorQuery) : List Tlv :=
  if query.paged && supportsPaging query.type then
    [boolField 0x15 true, u16Field 0x16 query.cursor, u8Field 0x17 query.page_size]
  else []

def queryFields (query : DescriptorQuery) : List Tlv :=
  [u8Field 0x01 kSchemaVersion, u8Field 0x10 query.type.toByte] ++ selectorFields query ++
    argumentFields query ++ pagingFields query

/-- A text of more than 65535 bytes is refused; the length of the payload is not looked at. -/
def encodeDescriptorQuery (query : DescriptorQuery) : Option Bytes :=
  if namesOneSetting query && (queryFields query).all (fun f => f.value.length ≤ 65535) then
    some (Tlv.encode (queryFields query))
  else none

/-- A field of another type or length is skipped. -/
def textOf (f : Tlv) (query : DescriptorQuery) (k : Bytes → DescriptorQuery) : DescriptorQuery :=
  if f.type = 0x09 then k f.value else query

def u8Of (f : Tlv) (query : DescriptorQuery) (k : UInt8 → DescriptorQuery) : DescriptorQuery :=
  match f.type, f.value with
  | 0x01, [v] => k v
  | _, _ => query

def boolOf (f : Tlv) (query : DescriptorQuery) (k : Bool → DescriptorQuery) : DescriptorQuery :=
  match f.type, f.value with
  | 0x06, [v] => k (v ≠ 0)
  | _, _ => query

def u16Of (f : Tlv) (query : DescriptorQuery) (k : UInt16 → DescriptorQuery) : DescriptorQuery :=
  match f.type, f.value with
  | 0x02, [b0, b1] => k (readLe16 b0 b1)
  | _, _ => query

def u32Of (f : Tlv) (query : DescriptorQuery) (k : UInt32 → DescriptorQuery) : DescriptorQuery :=
  match f.type, f.value with
  | 0x03, [b0, b1, b2, b3] => k (readLe32 b0 b1 b2 b3)
  | _, _ => query

def bytesOf {n : Nat} (f : Tlv) (query : DescriptorQuery) (k : Vector UInt8 n → DescriptorQuery) :
    DescriptorQuery :=
  if h : f.type = 0x08 ∧ f.value.length = n then k ⟨f.value.toArray, h.2⟩ else query

/-- The branches of the parser's loop, by the high digit of the tag. -/
def readHeadField (q : DescriptorQuery) (f : Tlv) : DescriptorQuery :=
  match f.tag.toNat with
  | 0x10 => u8Of f q fun v => { q with type := .ofByte v }
  | 0x11 => textOf f q fun v => { q with key := v }
  | 0x12 => textOf f q fun v => { q with value := v }
  | 0x13 => u32Of f q fun v => { q with time_epoch_s := v.toUInt64 }
  | 0x14 => u16Of f q fun v => { q with setting_id := v, has_setting_id := true }
  | 0x15 => boolOf f q fun v => { q with paged := v }
  | 0x16 => u16Of f q fun v => { q with cursor := v }
  | 0x17 => u8Of f q fun v => { q with page_size := v }
  | _ => q

def readMaintenanceField (q : DescriptorQuery) (f : Tlv) : DescriptorQuery :=
  match f.tag.toNat with
  | 0x30 => u32Of f q fun v => { q with log_offset := v }
  | 0x31 => u16Of f q fun v => { q with log_max_bytes := v }
  | 0x32 => boolOf f q fun v => { q with has_log_enable := true, log_enable := v }
  | 0x33 => textOf f q fun v => { q with storage_path := v }
  | 0x34 => textOf f q fun v => { q with ota_scope := v }
  | 0x35 => textOf f q fun v => { q with ota_target := v }
  | _ => q

def readSlotField (q : DescriptorQuery) (f : Tlv) : DescriptorQuery :=
  match f.tag.toNat with
  | 0x40 => u8Of f q fun v => { q with topology_schema_version := v }
  | 0x41 => u32Of f q fun v => { q with topology_version := v }
  | 0x42 => u8Of f q fun v => { q with topology_index_neg := v }
  | 0x43 => u8Of f q fun v => { q with topology_index_pos := v }
  | 0x44 => u8Of f q fun v => { q with topology_slot_index := v }
  | 0x45 => boolOf f q fun v => { q with topology_slot_enabled := v }
  | 0x46 => bytesOf f q fun v => { q with topology_peer := v }
  | 0x47 => u8Of f q fun v => { q with topology_peer_role := v }
  | 0x48 => u8Of f q fun v => { q with topology_group_id := v }
  | 0x49 => u8Of f q fun v => { q with topology_relative_index := v.toInt8 }
  | 0x4A => u8Of f q fun v => { q with topology_local_virtual_index := v }
  | 0x4B => u8Of f q fun v => { q with topology_peer_virtual_index := v }
  | 0x4C => u8Of f q fun v => { q with topology_axis_order := v.toInt8 }
  | 0x4D => u16Of f q fun v => { q with topology_delay_ms := v }
  | 0x4E => u16Of f q fun v => { q with topology_hold_ms := v }
  | _ => q

def readGroupField (q : DescriptorQuery) (f : Tlv) : DescriptorQuery :=
  match f.tag.toNat with
  | 0x50 => u8Of f q fun v => { q with topology_group_slot := v }
  | 0x51 => boolOf f q fun v => { q with topology_group_enabled := v }
  | 0x52 => u8Of f q fun v => { q with topology_group_id := v }
  | 0x53 => bytesOf f q fun v => { q with topology_group_seed := v }
  | 0x54 => u8Of f q fun v => { q with topology_target_index := v.toInt8 }
  | 0x55 => u8Of f q fun v => { q with topology_trigger_direction := v }
  | 0x56 => u16Of f q fun v => { q with topology_delay_ms := v }
  | 0x57 => u16Of f q fun v => { q with topology_hold_ms := v }
  | 0x58 => u8Of f q fun v => { q with topology_source_virtual_index := v }
  | 0x59 => u8Of f q fun v => { q with bundle_mask := v }
  | _ => q

def readQueryField (q : DescriptorQuery) (f : Tlv) : DescriptorQuery :=
  match f.tag.toNat / 16 with
  | 1 => readHeadField q f
  | 3 => readMaintenanceField q f
  | 4 => readSlotField q f
  | 5 => readGroupField q f
  | _ => q

def readQueryFields (fs : List Tlv) : DescriptorQuery := fs.foldl readQueryField {}

/-- The field that sets `have_type`. -/
def namesType (f : Tlv) : Bool := f.tag = 0x10 && f.type = 0x01 && f.value.length = 1

/-- The arguments that a type of query must have. -/
def argumentsValid (out : DescriptorQuery) : Bool :=
  match out.type with
  | .SetSetting => !out.value.isEmpty
  | .SetTime => out.time_epoch_s ≠ 0
  | .ReadLogChunk => out.log_max_bytes ≠ 0
  | .SetLogControl => out.has_log_enable
  | .ClearOtaScope => !out.ota_scope.isEmpty
  | .ApplyOtaImage => !out.ota_target.isEmpty
  | .TopologyStageBegin => out.topology_version ≠ 0
  | .TopologyStageSlotSet =>
    out.topology_slot_index.toNat < kTopologyMaxSlots &&
      (!out.topology_slot_enabled ||
        (out.topology_peer_role ≠ 0 && out.topology_relative_index ≠ 0 && out.topology_group_id ≠ 0))
  | .TopologyStageGroupSet =>
    out.topology_group_slot.toNat < kTopologyMaxGroups &&
      (!out.topology_group_enabled || out.topology_group_id ≠ 0)
  | .TopologyTriggerSend =>
    out.topology_target_index ≠ 0 && out.topology_target_index.toInt.natAbs ≤ kTopologyMaxSlots &&
      (out.topology_trigger_direction = 1 || out.topology_trigger_direction = 2) &&
      (out.topology_source_virtual_index = 0xFF || out.topology_source_virtual_index ≤ 0x0F)
  | _ => true

/-- The mask of a bundle query is never left empty. -/
def withKnownMask (out : DescriptorQuery) : DescriptorQuery :=
  if out.type = .GetNodeBundle then
    { out with bundle_mask := effectiveMask (out.bundle_mask &&& kNodeBundleMaskAll) }
  else out

def parseDescriptorQuery (payload : Bytes) : Option DescriptorQuery :=
  if payload.length < 8 then none
  else
    (Tlv.decode payload).bind fun fs =>
      let out := readQueryFields fs
      if !fs.any namesType || !namesOneSetting out || !argumentsValid out || out.type = .Unknown then none
      else some (withKnownMask out)

end EspNowLink
