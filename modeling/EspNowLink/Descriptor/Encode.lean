import EspNowLink.Descriptor.Types
import EspNowLink.Framework.Tlv

open Framework

namespace EspNowLink

def kSchemaVersion : UInt8 := 1
def kPagedMetaReserveBytes : Nat := 42

def u8Field (tag v : UInt8) : Tlv := ⟨tag, 0x01, [v]⟩
def boolField (tag : UInt8) (v : Bool) : Tlv := ⟨tag, 0x06, [if v then 1 else 0]⟩
def u16Field (tag : UInt8) (v : UInt16) : Tlv := ⟨tag, 0x02, le16 v⟩
def u32Field (tag : UInt8) (v : UInt32) : Tlv := ⟨tag, 0x03, le32 v⟩
def f32Field (tag : UInt8) (v : Float32Bits) : Tlv := ⟨tag, 0x07, le32 v⟩
def utf8Field (tag : UInt8) (s : Bytes) : Tlv := ⟨tag, 0x09, s⟩

def canFit (reserve_paged_meta : Bool) (out : Bytes) (bytes : Nat) : Bool :=
  out.length + bytes + (if reserve_paged_meta then kPagedMetaReserveBytes else 0) ≤ kMaxPayload

/-- `tryAppendU8`, `tryAppendBool`, `tryAppendU32` and `tryAppendUtf8`: a field that fits is
appended. -/
def tryAppend (reserve : Bool) (out : Bytes) (f : Tlv) : Option Bytes :=
  if canFit reserve out f.size then some (out ++ f.bytes) else none

def tryAppendAll (reserve : Bool) (out : Bytes) (fs : List Tlv) : Option Bytes :=
  fs.foldlM (tryAppend reserve) out

/-- What a section of the response adds: the bytes so far, whether something was left out, and how
many items were counted. -/
structure Section where
  out : Bytes
  truncated : Bool
  emitted : UInt16

/-- The optional parts of an item: each is appended if it fits and left out if it does not. -/
def appendExtras (reserve : Bool) : Bytes → List (List Tlv) → Bytes × Bool
  | out, [] => (out, false)
  | out, part :: parts =>
    if canFit reserve out (Tlv.sizes part) then appendExtras reserve (out ++ Tlv.encode part) parts
    else
      let (out, _) := appendExtras reserve out parts
      (out, true)

/-- The loop over a list of items: it stops at the first item whose fields do not fit. -/
def appendItems {α : Type} (reserve : Bool) (fields : α → List Tlv) (extras : α → List (List Tlv)) :
    Bytes → List α → Section
  | out, [] => ⟨out, false, 0⟩
  | out, x :: xs =>
    if !canFit reserve out (Tlv.sizes (fields x)) then ⟨out, true, 0⟩
    else
      let (out, cut) := appendExtras reserve (out ++ Tlv.encode (fields x)) (extras x)
      let rest := appendItems reserve fields extras out xs
      ⟨rest.out, cut || rest.truncated, rest.emitted + 1⟩

def noExtras {α : Type} (_ : α) : List (List Tlv) := []

def deviceFields (d : DeviceDescriptor) : List Tlv :=
  [utf8Field 0x20 d.device_type, utf8Field 0x21 d.device_id, utf8Field 0x22 d.device_name,
    utf8Field 0x23 d.hw_version, utf8Field 0x24 d.sw_version, utf8Field 0x25 d.build_id]

def capabilityFields (c : CapabilityDescriptor) : List Tlv :=
  [utf8Field 0x30 c.key, utf8Field 0x31 c.description]

def telemetryFields (t : TelemetryDescriptor) : List Tlv :=
  [u16Field 0x3F t.metric_id, utf8Field 0x40 t.key, utf8Field 0x41 t.unit]

def hasMinmax (t : TelemetryDescriptor) : Bool := !(t.min_value.isZero && t.max_value.isZero)

def telemetryExtras (t : TelemetryDescriptor) : List (List Tlv) :=
  (if hasMinmax t then [[f32Field 0x42 t.min_value, f32Field 0x43 t.max_value]] else []) ++
    if t.description.isEmpty then [] else [[utf8Field 0x44 t.description]]

def sampleFields (t : TelemetrySample) : List Tlv :=
  [u16Field 0x4F t.metric_id, utf8Field 0x50 t.key, utf8Field 0x51 t.value, utf8Field 0x52 t.unit]

def livenessFields (l : LivenessStatus) : List Tlv :=
  [boolField 0x60 l.online, u32Field 0x61 l.uptime_ms, utf8Field 0x62 l.state]

def timeFields (t : TimeStatus) : List Tlv :=
  [u32Field 0x70 t.epoch_s.toUInt32, u32Field 0x71 t.uptime_ms]

def settingFields (st : SettingDescriptor) : List Tlv :=
  [u16Field 0x7F st.setting_id, utf8Field 0x80 st.key, u8Field 0x81 st.value_type.toByte,
    boolField 0x82 st.writable, utf8Field 0x83 st.nvs_key, utf8Field 0x84 st.current_value,
    utf8Field 0x85 st.default_value, utf8Field 0x86 st.description]

def logStatusFields (l : LogReport) : List Tlv :=
  [boolField 0x90 l.logger_available, boolField 0x91 l.logger_enabled,
    u8Field 0x92 l.logger_min_level, u32Field 0x93 l.log_bytes_used,
    u32Field 0x94 l.log_bytes_dropped, u32Field 0x95 l.log_records_appended,
    u32Field 0x96 l.log_rotations, u32Field 0x97 l.log_total_size]

def logChunkHeader (l : LogReport) : List Tlv :=
  [u32Field 0xA0 l.log_chunk_offset, u32Field 0xA1 l.log_total_size]

def storageInfoFields (i : StorageInfo) : List Tlv :=
  [u8Field 0xB0 i.mode.toByte, boolField 0xB1 i.available, boolField 0xB2 i.mounted,
    u32Field 0xB3 i.total_bytes, u32Field 0xB4 i.used_bytes, u32Field 0xB5 i.free_bytes,
    utf8Field 0xB6 i.root_path, utf8Field 0xB7 i.cwd]

def storageEntryFields (e : StorageEntry) : List Tlv :=
  [utf8Field 0xBA e.name, boolField 0xBB e.is_dir, u32Field 0xBC e.size_bytes]

def statPath (r : DescriptorResponse) : Bytes :=
  if r.storage_stat.path.isEmpty then r.storage_path else r.storage_stat.path

def storageStatFields (r : DescriptorResponse) : List Tlv :=
  [utf8Field 0xC0 (statPath r), boolField 0xC1 r.storage_stat.exists_,
    boolField 0xC2 r.storage_stat.is_dir, u32Field 0xC3 r.storage_stat.size_bytes]

def otaStatusFields (o : OtaStatusInfo) : List Tlv :=
  [u8Field 0xD0 o.transfer_state, u16Field 0xD1 o.status_code, u32Field 0xD2 o.expected_size,
    u32Field 0xD3 o.received_size, u32Field 0xD4 o.expected_crc32, u32Field 0xD5 o.actual_crc32,
    utf8Field 0xD6 o.temp_path, utf8Field 0xD7 o.image_path, utf8Field 0xD8 o.persistent_state,
    u32Field 0xD9 o.persistent_epoch_s, utf8Field 0xDA o.confirmed_sw_version,
    utf8Field 0xDB o.confirmed_build_id]

def otaEntryFields (e : OtaManifestEntry) : List Tlv :=
  [u32Field 0xE0 e.file_id, utf8Field 0xE1 e.file_name, u32Field 0xE2 e.size_bytes,
    u32Field 0xE3 e.crc32, utf8Field 0xE4 e.version, utf8Field 0xE5 e.build_id,
    u32Field 0xE6 e.created_epoch_s, utf8Field 0xE7 e.state, u32Field 0xE8 e.required_app_bytes]

def otaCapacityFields (c : OtaCapacityInfo) : List Tlv :=
  [u32Field 0xF0 c.max_fw_bytes, u32Field 0xF1 c.last_checked_image_bytes, boolField 0xF2 c.last_fit]

def otaGateFields (g : OtaGateInfo) : List Tlv :=
  [u8Field 0xF3 g.decision, utf8Field 0xF4 g.detail]

/-- A section of fixed fields: it is written whole or the encoder fails. -/
def fixedSection (reserve : Bool) (out : Bytes) (fs : List Tlv) : Option Section :=
  (tryAppendAll reserve out fs).map fun out => ⟨out, false, 0⟩

/-- The log bytes that fit; the field may eat into the room kept for the page metadata. -/
def logChunkSection (l : LogReport) (reserve : Bool) (out : Bytes) : Option Section :=
  if !canFit reserve out (Tlv.sizes (logChunkHeader l)) then none
  else
    let out := out ++ Tlv.encode (logChunkHeader l)
    let emit := min l.log_chunk.length (kMaxPayload - out.length - 4)
    some ⟨out ++ Tlv.bytes ⟨0xA2, 0x08, l.log_chunk.take emit⟩, emit ≠ l.log_chunk.length, 0⟩

def effectiveMask (mask : UInt8) : UInt8 := if mask = 0 then kNodeBundleMaskAll else mask

/-- The fixed sections of a bundle. -/
def bundleFields (r : DescriptorResponse) : List Tlv :=
  let bundle_mask := effectiveMask r.bundle_mask
  (if bundle_mask &&& kNodeBundleMaskDevice ≠ 0 then deviceFields r.device else []) ++
  (if bundle_mask &&& kNodeBundleMaskLiveness ≠ 0 then livenessFields r.liveness else []) ++
  (if bundle_mask &&& kNodeBundleMaskTime ≠ 0 then timeFields r.time else [])

def bundleSamples (r : DescriptorResponse) : List TelemetrySample :=
  if effectiveMask r.bundle_mask &&& kNodeBundleMaskTelemetry ≠ 0 then r.telemetry_samples else []

def bundleSettings (r : DescriptorResponse) : List SettingDescriptor :=
  if effectiveMask r.bundle_mask &&& kNodeBundleMaskSettings ≠ 0 then r.settings else []

/-- A bundle counts its settings only. -/
def bundleSection (r : DescriptorResponse) (reserve : Bool) (out : Bytes) : Option Section :=
  (tryAppendAll reserve out (bundleFields r)).map fun out =>
    let samples := appendItems reserve sampleFields noExtras out (bundleSamples r)
    let settings := appendItems reserve settingFields noExtras samples.out (bundleSettings r)
    ⟨settings.out, samples.truncated || settings.truncated, settings.emitted⟩

def storageListSection (r : DescriptorResponse) (reserve : Bool) (out : Bytes) : Option Section :=
  (tryAppendAll reserve out [utf8Field 0xB8 r.storage_path, utf8Field 0xB9 r.storage_parent_path]).map
    fun out =>
      let entries := appendItems reserve storageEntryFields noExtras out r.storage_entries
      ⟨entries.out, entries.truncated, 0⟩

/-- The part of the response that its type selects. -/
def encodeBody (r : DescriptorResponse) (out : Bytes) : Option Section :=
  let reserve := r.is_paged
  match r.type with
  | .Device => fixedSection reserve out (deviceFields r.device)
  | .Capabilities => some (appendItems reserve capabilityFields noExtras out r.capabilities)
  | .Telemetry => some (appendItems reserve telemetryFields telemetryExtras out r.telemetry)
  | .TelemetrySnapshot => some (appendItems reserve sampleFields noExtras out r.telemetry_samples)
  | .Liveness => fixedSection reserve out (livenessFields r.liveness)
  | .Time => fixedSection reserve out (timeFields r.time)
  | .NodeBundle => bundleSection r reserve out
  | .Settings => some (appendItems reserve settingFields noExtras out r.settings)
  | .Setting => fixedSection reserve out (settingFields r.setting)
  | .LogStatus => fixedSection reserve out (logStatusFields r.toLogReport)
  | .LogChunk => logChunkSection r.toLogReport reserve out
  | .StorageInfo => fixedSection reserve out (storageInfoFields r.storage_info)
  | .StorageList => storageListSection r reserve out
  | .StorageStat => fixedSection reserve out (storageStatFields r)
  | .OtaStatus => fixedSection reserve out (otaStatusFields r.ota_status)
  | .OtaManifest => some (appendItems reserve otaEntryFields noExtras out r.ota_manifest)
  | .OtaCapacity => fixedSection reserve out (otaCapacityFields r.ota_capacity)
  | .OtaGateInfo => fixedSection reserve out (otaGateFields r.ota_gate)
  | _ => some ⟨out, false, 0⟩

/-- The response types whose page metadata follows what was emitted. -/
def countsItems : DescriptorResponseType → Bool
  | .Capabilities | .Telemetry | .TelemetrySnapshot | .NodeBundle | .Settings | .OtaManifest => true
  | _ => false

/-- The page metadata as it goes on the wire after `emitted` items. -/
def patchPageMeta (type : DescriptorResponseType) (page : PageMeta) (emitted : UInt16) : PageMeta :=
  if countsItems type && emitted ≠ page.returned_count then
    let next := page.cursor.toUInt32 + emitted.toUInt32
    let next_cursor := (min next page.total_count.toUInt32).toUInt16
    { page with
      returned_count := emitted
      next_cursor := next_cursor
      done := next_cursor ≥ page.total_count }
  else page

def pageFields (page : PageMeta) : List Tlv :=
  [boolField 0x18 true, u32Field 0x19 page.snapshot_id, u16Field 0x1A page.total_count,
    u16Field 0x1B page.cursor, u16Field 0x1C page.returned_count, u16Field 0x1D page.next_cursor,
    boolField 0x1E page.done]

/-- The page metadata at the end of a paged response. -/
def encodePage (r : DescriptorResponse) (s : Section) : Option Section :=
  if !r.is_paged then some s
  else
    (tryAppendAll false s.out (pageFields (patchPageMeta r.type r.toPageMeta s.emitted))).map fun out =>
      ⟨out, s.truncated || (countsItems r.type && s.emitted ≠ r.returned_count), s.emitted⟩

def headerFields (r : DescriptorResponse) : List Tlv :=
  [u8Field 0x01 kSchemaVersion, u8Field 0x10 r.type.toByte] ++
  (if r.message.isEmpty then [] else [utf8Field 0x11 r.message]) ++
  if r.type = .NodeBundle ∨ r.bundle_mask ≠ 0 then [u8Field 0x59 (effectiveMask r.bundle_mask)] else []

/-- What `encodeDescriptorResponse` produces, with its local flag `truncated` and whether the marker is
set. -/
structure EncodedResponse where
  payload : Bytes
  truncated : Bool
  marked : Bool
  deriving DecidableEq

def markTruncated (s : Section) : EncodedResponse :=
  let marker := utf8Field 0x11 (ascii "truncated")
  if s.truncated && canFit false s.out marker.size then ⟨s.out ++ marker.bytes, true, true⟩
  else ⟨s.out, s.truncated, false⟩

def encodeDescriptorResponse (r : DescriptorResponse) : Option EncodedResponse :=
  ((tryAppendAll r.is_paged [] (headerFields r)).bind (encodeBody r)).bind (encodePage r)
    |>.map markTruncated

end EspNowLink
