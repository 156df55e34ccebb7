import EspNowLink.Core.Types

namespace EspNowLink

/-- A 32-bit IEEE float as its bits. -/
abbrev Float32Bits := UInt32

/-- The float is `0.0f` or `-0.0f`. -/
def Float32Bits.isZero (v : Float32Bits) : Bool := v &&& 0x7FFFFFFF = 0

def ascii (s : String) : Bytes := s.toList.map fun c => UInt8.ofNat c.toNat

structure DeviceDescriptor where
  device_type : Bytes := []
  device_id : Bytes := []
  device_name : Bytes := []
  hw_version : Bytes := []
  sw_version : Bytes := []
  build_id : Bytes := []
  deriving DecidableEq

structure CapabilityDescriptor where
  key : Bytes := []
  description : Bytes := []
  deriving DecidableEq

structure TelemetryDescriptor where
  metric_id : UInt16 := 0
  key : Bytes := []
  unit : Bytes := []
  min_value : Float32Bits := 0
  max_value : Float32Bits := 0
  description : Bytes := []
  deriving DecidableEq

structure TelemetrySample where
  metric_id : UInt16 := 0
  key : Bytes := []
  value : Bytes := []
  unit : Bytes := []
  deriving DecidableEq

structure LivenessStatus where
  online : Bool := true
  uptime_ms : UInt32 := 0
  state : Bytes := []
  deriving DecidableEq

structure TimeStatus where
  epoch_s : UInt64 := 0
  uptime_ms : UInt32 := 0
  deriving DecidableEq

/-- The bytes from 4 on name no value type; `static_cast` keeps them. -/
inductive SettingValueType where
  | String
  | Int
  | Float
  | Bool
  | Unnamed (code : { c : UInt8 // 4 ≤ c })
  deriving DecidableEq

structure SettingDescriptor where
  setting_id : UInt16 := 0
  key : Bytes := []
  value_type : SettingValueType := .String
  writable : Bool := false
  nvs_key : Bytes := []
  current_value : Bytes := []
  default_value : Bytes := []
  description : Bytes := []
  deriving DecidableEq

/-- The bytes from 4 on name no backend mode; `static_cast` keeps them. -/
inductive StorageBackendMode where
  | Unknown
  | Disabled
  | Sd
  | Spiffs
  | Unnamed (code : { c : UInt8 // 4 ≤ c })
  deriving DecidableEq

structure StorageInfo where
  mode : StorageBackendMode := .Unknown
  available : Bool := false
  mounted : Bool := false
  total_bytes : UInt32 := 0
  used_bytes : UInt32 := 0
  free_bytes : UInt32 := 0
  root_path : Bytes := ascii "/"
  cwd : Bytes := ascii "/"
  deriving DecidableEq

structure StorageEntry where
  name : Bytes := []
  is_dir : Bool := false
  size_bytes : UInt32 := 0
  deriving DecidableEq

structure StorageStat where
  path : Bytes := []
  exists_ : Bool := false
  is_dir : Bool := false
  size_bytes : UInt32 := 0
  deriving DecidableEq

structure OtaManifestEntry where
  file_id : UInt32 := 0
  file_name : Bytes := []
  size_bytes : UInt32 := 0
  crc32 : UInt32 := 0
  version : Bytes := []
  build_id : Bytes := []
  created_epoch_s : UInt32 := 0
  state : Bytes := []
  required_app_bytes : UInt32 := 0
  deriving DecidableEq

structure OtaStatusInfo where
  transfer_state : UInt8 := 0
  status_code : UInt16 := 0
  expected_size : UInt32 := 0
  received_size : UInt32 := 0
  expected_crc32 : UInt32 := 0
  actual_crc32 : UInt32 := 0
  temp_path : Bytes := []
  image_path : Bytes := []
  persistent_state : Bytes := []
  persistent_epoch_s : UInt32 := 0
  confirmed_sw_version : Bytes := []
  confirmed_build_id : Bytes := []
  deriving DecidableEq

structure OtaCapacityInfo where
  max_fw_bytes : UInt32 := 0
  last_checked_image_bytes : UInt32 := 0
  last_fit : Bool := true
  deriving DecidableEq

structure OtaGateInfo where
  decision : UInt8 := 0
  detail : Bytes := []
  deriving DecidableEq

/-- The bytes from 21 on name no response type; `static_cast` keeps them. -/
inductive DescriptorResponseType where
  | Unknown
  | Device
  | Capabilities
  | Telemetry
  | TelemetrySnapshot
  | Liveness
  | Time
  | NodeBundle
  | Settings
  | Setting
  | LogStatus
  | LogChunk
  | StorageInfo
  | StorageList
  | StorageStat
  | Ack
  | Error
  | OtaStatus
  | OtaManifest
  | OtaCapacity
  | OtaGateInfo
  | Unnamed (code : { c : UInt8 // 21 ≤ c })
  deriving DecidableEq

def kNodeBundleMaskDevice : UInt8 := 0x01
def kNodeBundleMaskLiveness : UInt8 := 0x02
def kNodeBundleMaskTime : UInt8 := 0x04
def kNodeBundleMaskSettings : UInt8 := 0x08
def kNodeBundleMaskTelemetry : UInt8 := 0x10
def kNodeBundleMaskAll : UInt8 := kNodeBundleMaskDevice ||| kNodeBundleMaskLiveness |||
  kNodeBundleMaskTime ||| kNodeBundleMaskSettings ||| kNodeBundleMaskTelemetry

/-- The page metadata of a `DescriptorResponse`. -/
structure PageMeta where
  is_paged : Bool := false
  snapshot_id : UInt32 := 0
  total_count : UInt16 := 0
  cursor : UInt16 := 0
  returned_count : UInt16 := 0
  next_cursor : UInt16 := 0
  done : Bool := false
  deriving DecidableEq

/-- The logger fields of a `DescriptorResponse`. -/
structure LogReport where
  logger_available : Bool := false
  logger_enabled : Bool := false
  logger_min_level : UInt8 := 0
  log_bytes_used : UInt32 := 0
  log_bytes_dropped : UInt32 := 0
  log_records_appended : UInt32 := 0
  log_rotations : UInt32 := 0
  log_total_size : UInt32 := 0
  log_chunk_offset : UInt32 := 0
  log_chunk : Bytes := []
  deriving DecidableEq

structure DescriptorResponse extends PageMeta, LogReport where
  type : DescriptorResponseType := .Unknown
  message : Bytes := []
  bundle_mask : UInt8 := 0
  device : DeviceDescriptor := {}
  capabilities : List CapabilityDescriptor := []
  telemetry : List TelemetryDescriptor := []
  telemetry_samples : List TelemetrySample := []
  liveness : LivenessStatus := {}
  time : TimeStatus := {}
  settings : List SettingDescriptor := []
  setting : SettingDescriptor := {}
  storage_info : StorageInfo := {}
  storage_path : Bytes := []
  storage_parent_path : Bytes := []
  storage_entries : List StorageEntry := []
  storage_stat : StorageStat := {}
  ota_status : OtaStatusInfo := {}
  ota_manifest : List OtaManifestEntry := []
  ota_capacity : OtaCapacityInfo := {}
  ota_gate : OtaGateInfo := {}
  deriving DecidableEq

def SettingValueType.toByte : SettingValueType → UInt8
  | .String => 0
  | .Int => 1
  | .Float => 2
  | .Bool => 3
  | .Unnamed c => c.1

def SettingValueType.ofByte (c : UInt8) : SettingValueType :=
  if h : 4 ≤ c then .Unnamed ⟨c, h⟩
  else match c.toNat with
    | 0 => .String
    | 1 => .Int
    | 2 => .Float
    | _ => .Bool

def StorageBackendMode.toByte : StorageBackendMode → UInt8
  | .Unknown => 0
  | .Disabled => 1
  | .Sd => 2
  | .Spiffs => 3
  | .Unnamed c => c.1

def StorageBackendMode.ofByte (c : UInt8) : StorageBackendMode :=
  if h : 4 ≤ c then .Unnamed ⟨c, h⟩
  else match c.toNat with
    | 0 => .Unknown
    | 1 => .Disabled
    | 2 => .Sd
    | _ => .Spiffs

namespace DescriptorResponseType

def toByte : DescriptorResponseType → UInt8
  | Unknown => 0
  | Device => 1
  | Capabilities => 2
  | Telemetry => 3
  | TelemetrySnapshot => 4
  | Liveness => 5
  | Time => 6
  | NodeBundle => 7
  | Settings => 8
  | Setting => 9
  | LogStatus => 10
  | LogChunk => 11
  | StorageInfo => 12
  | StorageList => 13
  | StorageStat => 14
  | Ack => 15
  | Error => 16
  | OtaStatus => 17
  | OtaManifest => 18
  | OtaCapacity => 19
  | OtaGateInfo => 20
  | Unnamed c => c.1

def ofByte (c : UInt8) : DescriptorResponseType :=
  if h : 21 ≤ c then Unnamed ⟨c, h⟩
  else match c.toNat with
    | 0 => Unknown
    | 1 => Device
    | 2 => Capabilities
    | 3 => Telemetry
    | 4 => TelemetrySnapshot
    | 5 => Liveness
    | 6 => Time
    | 7 => NodeBundle
    | 8 => Settings
    | 9 => Setting
    | 10 => LogStatus
    | 11 => LogChunk
    | 12 => StorageInfo
    | 13 => StorageList
    | 14 => StorageStat
    | 15 => Ack
    | 16 => Error
    | 17 => OtaStatus
    | 18 => OtaManifest
    | 19 => OtaCapacity
    | _ => OtaGateInfo

end DescriptorResponseType

@[simp] theorem SettingValueType.ofByte_toByte (t : SettingValueType) : ofByte t.toByte = t := by
  cases t with
  | Unnamed c => simp [toByte, ofByte, c.2]
  | _ => rfl

@[simp] theorem StorageBackendMode.ofByte_toByte (m : StorageBackendMode) : ofByte m.toByte = m := by
  cases m with
  | Unnamed c => simp [toByte, ofByte, c.2]
  | _ => rfl

@[simp] theorem DescriptorResponseType.ofByte_toByte (t : DescriptorResponseType) :
    ofByte t.toByte = t := by
  cases t with
  | Unnamed c => simp [toByte, ofByte, c.2]
  | _ => rfl

end EspNowLink
