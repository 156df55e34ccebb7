import EspNowLink.Descriptor.Types
import EspNowLink.Framework.Tlv

open Framework

namespace EspNowLink

/-- A list that the decoder fills, with its current entry and the entry's stage: an entry of stage 0
has not begun. -/
structure Entries (α : Type) [Inhabited α] where
  done : List α := []
  cur : α := default
  stage : Nat := 0

namespace Entries

variable {α : Type} [Inhabited α]

def flush (e : Entries α) : Entries α := if 0 < e.stage then { done := e.done ++ [e.cur] } else e

/-- A field that leaves the stage alone. -/
def set (g : α → α) (e : Entries α) : Entries α := { e with cur := g e.cur }

/-- The field that begins an entry. -/
def start (g : α → α) (e : Entries α) : Entries α := { (e.flush.set g) with stage := 1 }

def reach (n : Nat) (g : α → α) (e : Entries α) : Entries α :=
  { e.set g with stage := max n e.stage }

/-- The field that ends an entry. -/
def finish (g : α → α) (e : Entries α) : Entries α := (e.set g).flush

end Entries

instance : Inhabited CapabilityDescriptor := ⟨{}⟩
instance : Inhabited TelemetryDescriptor := ⟨{}⟩
instance : Inhabited TelemetrySample := ⟨{}⟩
instance : Inhabited SettingDescriptor := ⟨{}⟩
instance : Inhabited StorageEntry := ⟨{}⟩
instance : Inhabited OtaManifestEntry := ⟨{}⟩

/-- The locals of the decoder's loop; the lists go into the response at the end. -/
structure DecodeState where
  out : DescriptorResponse := {}
  caps : Entries CapabilityDescriptor := {}
  telem : Entries TelemetryDescriptor := {}
  samples : Entries TelemetrySample := {}
  settings : Entries SettingDescriptor := {}
  storage : Entries StorageEntry := {}
  ota : Entries OtaManifestEntry := {}

abbrev Reader := Tlv → DecodeState → DecodeState

/-- A field of another type or length is skipped. -/
def onBytes (type : UInt8) (k : Bytes → DecodeState → DecodeState) : Reader := fun f s =>
  if f.type = type then k f.value s else s

def onText (k : Bytes → DecodeState → DecodeState) : Reader := onBytes 0x09 k

def onU8 (k : UInt8 → DecodeState → DecodeState) : Reader :=
  onBytes 0x01 fun
    | [v], s => k v s
    | _, s => s

def onFlag (k : UInt8 → DecodeState → DecodeState) : Reader :=
  onBytes 0x06 fun
    | [v], s => k v s
    | _, s => s

def onBool (k : Bool → DecodeState → DecodeState) : Reader := onFlag fun v => k (v ≠ 0)

/-- `online` and `writable` are set by the byte 1 only. -/
def onBoolOne (k : Bool → DecodeState → DecodeState) : Reader := onFlag fun v => k (v = 1)

def onU16 (k : UInt16 → DecodeState → DecodeState) : Reader :=
  onBytes 0x02 fun
    | [b0, b1], s => k (readLe16 b0 b1) s
    | _, s => s

def onU32 (k : UInt32 → DecodeState → DecodeState) : Reader :=
  onBytes 0x03 fun
    | [b0, b1, b2, b3], s => k (readLe32 b0 b1 b2 b3) s
    | _, s => s

/-- `readF32` leaves the value as it is when the length is not four. -/
def onF32 (k : (Float32Bits → Float32Bits) → DecodeState → DecodeState) : Reader :=
  onBytes 0x07 fun
    | [b0, b1, b2, b3], s => k (fun _ => readLe32 b0 b1 b2 b3) s
    | _, s => k id s

namespace DecodeState

variable (s : DecodeState)

def mapOut (g : DescriptorResponse → DescriptorResponse) : DecodeState := { s with out := g s.out }
def mapPage (g : PageMeta → PageMeta) : DecodeState :=
  s.mapOut fun o => { o with toPageMeta := g o.toPageMeta }
def mapLog (g : LogReport → LogReport) : DecodeState :=
  s.mapOut fun o => { o with toLogReport := g o.toLogReport }
def mapDevice (g : DeviceDescriptor → DeviceDescriptor) : DecodeState :=
  s.mapOut fun o => { o with device := g o.device }
def mapLiveness (g : LivenessStatus → LivenessStatus) : DecodeState :=
  s.mapOut fun o => { o with liveness := g o.liveness }
def mapTime (g : TimeStatus → TimeStatus) : DecodeState :=
  s.mapOut fun o => { o with time := g o.time }
def mapStorageInfo (g : StorageInfo → StorageInfo) : DecodeState :=
  s.mapOut fun o => { o with storage_info := g o.storage_info }
def mapStorageStat (g : StorageStat → StorageStat) : DecodeState :=
  s.mapOut fun o => { o with storage_stat := g o.storage_stat }
def mapOtaStatus (g : OtaStatusInfo → OtaStatusInfo) : DecodeState :=
  s.mapOut fun o => { o with ota_status := g o.ota_status }
def mapOtaCapacity (g : OtaCapacityInfo → OtaCapacityInfo) : DecodeState :=
  s.mapOut fun o => { o with ota_capacity := g o.ota_capacity }
def mapOtaGate (g : OtaGateInfo → OtaGateInfo) : DecodeState :=
  s.mapOut fun o => { o with ota_gate := g o.ota_gate }
def mapCaps (g : Entries CapabilityDescriptor → Entries CapabilityDescriptor) : DecodeState :=
  { s with caps := g s.caps }
def mapTelem (g : Entries TelemetryDescriptor → Entries TelemetryDescriptor) : DecodeState :=
  { s with telem := g s.telem }
def mapSamples (g : Entries TelemetrySample → Entries TelemetrySample) : DecodeState :=
  { s with samples := g s.samples }
def mapSettings (g : Entries SettingDescriptor → Entries SettingDescriptor) : DecodeState :=
  { s with settings := g s.settings }
def mapStorage (g : Entries StorageEntry → Entries StorageEntry) : DecodeState :=
  { s with storage := g s.storage }
def mapOta (g : Entries OtaManifestEntry → Entries OtaManifestEntry) : DecodeState :=
  { s with ota := g s.ota }

end DecodeState

def skip : Reader := fun _ s => s

/-- The branches of the decoder's loop, by the high digit of the tag. -/
def headerReader (tag : UInt8) : Reader :=
  match tag.toNat with
  | 0x10 => onU8 fun v s => s.mapOut fun o => { o with type := .ofByte v }
  | 0x11 => onText fun v s => s.mapOut fun o => { o with message := v }
  | 0x18 => onBool fun v s => s.mapPage fun p => { p with is_paged := v }
  | 0x19 => onU32 fun v s => s.mapPage fun p => { p with snapshot_id := v }
  | 0x1A => onU16 fun v s => s.mapPage fun p => { p with total_count := v }
  | 0x1B => onU16 fun v s => s.mapPage fun p => { p with cursor := v }
  | 0x1C => onU16 fun v s => s.mapPage fun p => { p with returned_count := v }
  | 0x1D => onU16 fun v s => s.mapPage fun p => { p with next_cursor := v }
  | 0x1E => onBool fun v s => s.mapPage fun p => { p with done := v }
  | _ => skip

def deviceReader (tag : UInt8) : Reader :=
  match tag.toNat with
  | 0x20 => onText fun v s => s.mapDevice fun d => { d with device_type := v }
  | 0x21 => onText fun v s => s.mapDevice fun d => { d with device_id := v }
  | 0x22 => onText fun v s => s.mapDevice fun d => { d with device_name := v }
  | 0x23 => onText fun v s => s.mapDevice fun d => { d with hw_version := v }
  | 0x24 => onText fun v s => s.mapDevice fun d => { d with sw_version := v }
  | 0x25 => onText fun v s => s.mapDevice fun d => { d with build_id := v }
  | _ => skip

def capabilityReader (tag : UInt8) : Reader :=
  match tag.toNat with
  | 0x30 => onText fun v s => s.mapCaps (.start fun c => { c with key := v })
  | 0x31 => onText fun v s => s.mapCaps (.finish fun c => { c with description := v })
  | 0x3F => onU16 fun v s => s.mapTelem (.set fun t => { t with metric_id := v })
  | _ => skip

def telemetryReader (tag : UInt8) : Reader :=
  match tag.toNat with
  | 0x40 => onText fun v s => s.mapTelem (.start fun t => { t with key := v })
  | 0x41 => onText fun v s => s.mapTelem (.reach 2 fun t => { t with unit := v })
  | 0x42 => onF32 fun v s => s.mapTelem (.reach 3 fun t => { t with min_value := v t.min_value })
  | 0x43 => onF32 fun v s => s.mapTelem (.reach 4 fun t => { t with max_value := v t.max_value })
  | 0x44 => onText fun v s => s.mapTelem (.finish fun t => { t with description := v })
  | 0x4F => onU16 fun v s => s.mapSamples (.set fun t => { t with metric_id := v })
  | _ => skip

def sampleReader (tag : UInt8) : Reader :=
  match tag.toNat with
  | 0x59 => onU8 fun v s => s.mapOut fun o => { o with bundle_mask := v }
  | 0x50 => onText fun v s => s.mapSamples (.start fun t => { t with key := v })
  | 0x51 => onText fun v s => s.mapSamples (.reach 2 fun t => { t with value := v })
  | 0x52 => onText fun v s => s.mapSamples (.finish fun t => { t with unit := v })
  | _ => skip

def livenessReader (tag : UInt8) : Reader :=
  match tag.toNat with
  | 0x60 => onBoolOne fun v s => s.mapLiveness fun l => { l with online := v }
  | 0x61 => onU32 fun v s => s.mapLiveness fun l => { l with uptime_ms := v }
  | 0x62 => onText fun v s => s.mapLiveness fun l => { l with state := v }
  | _ => skip

def timeReader (tag : UInt8) : Reader :=
  match tag.toNat with
  | 0x70 => onU32 fun v s => s.mapTime fun t => { t with epoch_s := v.toUInt64 }
  | 0x71 => onU32 fun v s => s.mapTime fun t => { t with uptime_ms := v }
  | 0x7F => onU16 fun v s => s.mapSettings (.set fun st => { st with setting_id := v })
  | _ => skip

def settingReader (tag : UInt8) : Reader :=
  match tag.toNat with
  | 0x80 => onText fun v s => s.mapSettings (.start fun st => { st with key := v })
  | 0x81 => onU8 fun v s => s.mapSettings (.reach 2 fun st => { st with value_type := .ofByte v })
  | 0x82 => onBoolOne fun v s => s.mapSettings (.reach 3 fun st => { st with writable := v })
  | 0x83 => onText fun v s => s.mapSettings (.reach 4 fun st => { st with nvs_key := v })
  | 0x84 => onText fun v s => s.mapSettings (.reach 5 fun st => { st with current_value := v })
  | 0x85 => onText fun v s => s.mapSettings (.reach 6 fun st => { st with default_value := v })
  | 0x86 => onText fun v s => s.mapSettings (.finish fun st => { st with description := v })
  | _ => skip

def logStatusReader (tag : UInt8) : Reader :=
  match tag.toNat with
  | 0x90 => onBool fun v s => s.mapLog fun l => { l with logger_available := v }
  | 0x91 => onBool fun v s => s.mapLog fun l => { l with logger_enabled := v }
  | 0x92 => onU8 fun v s => s.mapLog fun l => { l with logger_min_level := v }
  | 0x93 => onU32 fun v s => s.mapLog fun l => { l with log_bytes_used := v }
  | 0x94 => onU32 fun v s => s.mapLog fun l => { l with log_bytes_dropped := v }
  | 0x95 => onU32 fun v s => s.mapLog fun l => { l with log_records_appended := v }
  | 0x96 => onU32 fun v s => s.mapLog fun l => { l with log_rotations := v }
  | 0x97 => onU32 fun v s => s.mapLog fun l => { l with log_total_size := v }
  | _ => skip

def logChunkReader (tag : UInt8) : Reader :=
  match tag.toNat with
  | 0xA0 => onU32 fun v s => s.mapLog fun l => { l with log_chunk_offset := v }
  | 0xA1 => onU32 fun v s => s.mapLog fun l => { l with log_total_size := v }
  | 0xA2 => onBytes 0x08 fun v s => s.mapLog fun l => { l with log_chunk := v }
  | _ => skip

def storageReader (tag : UInt8) : Reader :=
  match tag.toNat with
  | 0xB0 => onU8 fun v s => s.mapStorageInfo fun i => { i with mode := .ofByte v }
  | 0xB1 => onBool fun v s => s.mapStorageInfo fun i => { i with available := v }
  | 0xB2 => onBool fun v s => s.mapStorageInfo fun i => { i with mounted := v }
  | 0xB3 => onU32 fun v s => s.mapStorageInfo fun i => { i with total_bytes := v }
  | 0xB4 => onU32 fun v s => s.mapStorageInfo fun i => { i with used_bytes := v }
  | 0xB5 => onU32 fun v s => s.mapStorageInfo fun i => { i with free_bytes := v }
  | 0xB6 => onText fun v s => s.mapStorageInfo fun i => { i with root_path := v }
  | 0xB7 => onText fun v s => s.mapStorageInfo fun i => { i with cwd := v }
  | 0xB8 => onText fun v s => s.mapOut fun o => { o with storage_path := v }
  | 0xB9 => onText fun v s => s.mapOut fun o => { o with storage_parent_path := v }
  | 0xBA => onText fun v s => s.mapStorage (.start fun e => { e with name := v })
  | 0xBB => onBool fun v s => s.mapStorage (.reach 2 fun e => { e with is_dir := v })
  | 0xBC => onU32 fun v s => s.mapStorage (.reach 3 fun e => { e with size_bytes := v })
  | _ => skip

def storageStatReader (tag : UInt8) : Reader :=
  match tag.toNat with
  | 0xC0 => onText fun v s => s.mapStorageStat fun t => { t with path := v }
  | 0xC1 => onBool fun v s => s.mapStorageStat fun t => { t with exists_ := v }
  | 0xC2 => onBool fun v s => s.mapStorageStat fun t => { t with is_dir := v }
  | 0xC3 => onU32 fun v s => s.mapStorageStat fun t => { t with size_bytes := v }
  | _ => skip

def otaStatusReader (tag : UInt8) : Reader :=
  match tag.toNat with
  | 0xD0 => onU8 fun v s => s.mapOtaStatus fun o => { o with transfer_state := v }
  | 0xD1 => onU16 fun v s => s.mapOtaStatus fun o => { o with status_code := v }
  | 0xD2 => onU32 fun v s => s.mapOtaStatus fun o => { o with expected_size := v }
  | 0xD3 => onU32 fun v s => s.mapOtaStatus fun o => { o with received_size := v }
  | 0xD4 => onU32 fun v s => s.mapOtaStatus fun o => { o with expected_crc32 := v }
  | 0xD5 => onU32 fun v s => s.mapOtaStatus fun o => { o with actual_crc32 := v }
  | 0xD6 => onText fun v s => s.mapOtaStatus fun o => { o with temp_path := v }
  | 0xD7 => onText fun v s => s.mapOtaStatus fun o => { o with image_path := v }
  | 0xD8 => onText fun v s => s.mapOtaStatus fun o => { o with persistent_state := v }
  | 0xD9 => onU32 fun v s => s.mapOtaStatus fun o => { o with persistent_epoch_s := v }
  | 0xDA => onText fun v s => s.mapOtaStatus fun o => { o with confirmed_sw_version := v }
  | 0xDB => onText fun v s => s.mapOtaStatus fun o => { o with confirmed_build_id := v }
  | _ => skip

def otaEntryReader (tag : UInt8) : Reader :=
  match tag.toNat with
  | 0xE0 => onU32 fun v s => s.mapOta (.set fun e => { e with file_id := v })
  | 0xE1 => onText fun v s => s.mapOta (.start fun e => { e with file_name := v })
  | 0xE2 => onU32 fun v s => s.mapOta (.reach 2 fun e => { e with size_bytes := v })
  | 0xE3 => onU32 fun v s => s.mapOta (.reach 3 fun e => { e with crc32 := v })
  | 0xE4 => onText fun v s => s.mapOta (.reach 4 fun e => { e with version := v })
  | 0xE5 => onText fun v s => s.mapOta (.reach 5 fun e => { e with build_id := v })
  | 0xE6 => onU32 fun v s => s.mapOta (.reach 6 fun e => { e with created_epoch_s := v })
  | 0xE7 => onText fun v s => s.mapOta (.reach 7 fun e => { e with state := v })
  | 0xE8 => onU32 fun v s => s.mapOta (.reach 8 fun e => { e with required_app_bytes := v })
  | _ => skip

def otaCapacityReader (tag : UInt8) : Reader :=
  match tag.toNat with
  | 0xF0 => onU32 fun v s => s.mapOtaCapacity fun c => { c with max_fw_bytes := v }
  | 0xF1 => onU32 fun v s => s.mapOtaCapacity fun c => { c with last_checked_image_bytes := v }
  | 0xF2 => onBool fun v s => s.mapOtaCapacity fun c => { c with last_fit := v }
  | 0xF3 => onU8 fun v s => s.mapOtaGate fun g => { g with decision := v }
  | 0xF4 => onText fun v s => s.mapOtaGate fun g => { g with detail := v }
  | _ => skip

def reader (tag : UInt8) : Reader :=
  match tag.toNat / 16 with
  | 1 => headerReader tag
  | 2 => deviceReader tag
  | 3 => capabilityReader tag
  | 4 => telemetryReader tag
  | 5 => sampleReader tag
  | 6 => livenessReader tag
  | 7 => timeReader tag
  | 8 => settingReader tag
  | 9 => logStatusReader tag
  | 10 => logChunkReader tag
  | 11 => storageReader tag
  | 12 => storageStatReader tag
  | 13 => otaStatusReader tag
  | 14 => otaEntryReader tag
  | 15 => otaCapacityReader tag
  | _ => skip

def readFields (s : DecodeState) (fs : List Tlv) : DecodeState :=
  fs.foldl (fun s f => reader f.tag f s) s

/-- After the loop: every open entry is flushed. -/
def flushAll (s : DecodeState) : DescriptorResponse :=
  { s.out with
    capabilities := s.caps.flush.done
    telemetry := s.telem.flush.done
    telemetry_samples := s.samples.flush.done
    settings := s.settings.flush.done
    storage_entries := s.storage.flush.done
    ota_manifest := s.ota.flush.done }

/-- A `Setting` response takes its setting out of the list. -/
def takeSetting (out : DescriptorResponse) : DescriptorResponse :=
  match out.type, out.settings with
  | .Setting, st :: _ => { out with setting := st, settings := [] }
  | _, _ => out

def decodeDescriptorResponse (payload : Bytes) : Option DescriptorResponse :=
  if payload.length < 8 then none
  else
    (Tlv.decode payload).bind fun fs =>
      let out := takeSetting (flushAll (readFields {} fs))
      if out.type = .Unknown then none else some out

end EspNowLink
