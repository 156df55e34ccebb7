import EspNowLink.Descriptor.DeviceLists
import EspNowLink.Framework.PagedReading

open Framework

namespace EspNowLink

def kDefaultPage : Nat := 6
def kMaxPage : Nat := 16

/-- Zero for a query that is not answered page by page. -/
def effectivePageSize (query : DescriptorQuery) : Nat :=
  if query.paged = false ∨ supportsPaging query.type = false then 0
  else min (if query.page_size = 0 then kDefaultPage else query.page_size.toNat) kMaxPage

def fnv1aInit : UInt32 := 2166136261

def fnv1aMixByte (h : UInt32) (b : UInt8) : UInt32 := (h ^^^ b.toUInt32) * 16777619

def fnv1aMixU16 (h : UInt32) (v : UInt16) : UInt32 := (le16 v).foldl fnv1aMixByte h
def fnv1aMixU32 (h : UInt32) (v : UInt32) : UInt32 := (le32 v).foldl fnv1aMixByte h
def fnv1aMixStr (h : UInt32) (s : Bytes) : UInt32 := fnv1aMixByte (s.foldl fnv1aMixByte h) 0

def mixCapability (h : UInt32) (item : CapabilityDescriptor) : UInt32 :=
  fnv1aMixStr (fnv1aMixStr h item.key) item.description

def mixTelemetry (h : UInt32) (item : TelemetryDescriptor) : UInt32 :=
  let h := fnv1aMixStr (fnv1aMixU16 h item.metric_id) item.key
  fnv1aMixStr (fnv1aMixStr h item.unit) item.description

def mixSetting (h : UInt32) (item : SettingDescriptor) : UInt32 :=
  let h := fnv1aMixStr (fnv1aMixU16 h item.setting_id) item.key
  let h := fnv1aMixByte (fnv1aMixByte h item.value_type.toByte) (if item.writable then 1 else 0)
  fnv1aMixStr (fnv1aMixStr (fnv1aMixStr h item.current_value) item.default_value) item.description

def mixOtaEntry (h : UInt32) (item : OtaManifestEntry) : UInt32 :=
  let h := fnv1aMixStr (fnv1aMixU32 h item.file_id) item.file_name
  let h := fnv1aMixU32 (fnv1aMixU32 h item.size_bytes) item.crc32
  let h := fnv1aMixStr (fnv1aMixStr h item.version) item.build_id
  fnv1aMixU32 (fnv1aMixStr (fnv1aMixU32 h item.created_epoch_s) item.state) item.required_app_bytes

def clipForPage (v : Bytes) (max_len : Nat) : Bytes := v.take max_len

/-- The items from `start` to before `last`. -/
def slicePage {α : Type} (list : List α) (start last : Nat) : List α :=
  let safe_start := min start list.length
  let safe_end := min (max safe_start last) list.length
  (list.drop safe_start).take (safe_end - safe_start)

theorem slicePage_eq {α : Type} {list : List α} {c : Nat} (hc : c ≤ list.length) (n : Nat) :
    slicePage list c (min list.length (c + n)) = (list.drop c).take n := by
  have hstart : min c list.length = c := Nat.min_eq_left hc
  have hlen : min (max c (min list.length (c + n))) list.length - c = min n (list.length - c) := by omega
  rw [slicePage, hstart, hlen, List.take_eq_take_iff, List.length_drop]
  omega

def finalizePageMeta (query : DescriptorQuery) (total_count returned_count : Nat) (snapshot_id : UInt32) :
    PageMeta :=
  let start := min query.cursor.toNat total_count
  let next := start + returned_count
  { is_paged := true
    snapshot_id := snapshot_id
    total_count := UInt16.ofNat (min total_count 0xFFFF)
    cursor := UInt16.ofNat (min start 0xFFFF)
    returned_count := UInt16.ofNat (min returned_count 0xFFFF)
    next_cursor := UInt16.ofNat (min next total_count)
    done := total_count ≤ next }

namespace DeviceListKind

def mix : (kind : DeviceListKind) → UInt32 → kind.Item → UInt32
  | Capabilities => mixCapability
  | Telemetry => mixTelemetry
  | Settings => mixSetting
  | OtaManifest => mixOtaEntry

/-- `snapshotCapabilities` and the others. -/
def snapshot (kind : DeviceListKind) (list : List kind.Item) (message : Bytes) : UInt32 :=
  list.foldl kind.mix (fnv1aMixStr (fnv1aMixByte fnv1aInit kind.response.toByte) message)

/-- What a page keeps of the texts of an item. -/
def clip : (kind : DeviceListKind) → kind.Item → kind.Item
  | Capabilities, (cap : CapabilityDescriptor) =>
    { cap with key := clipForPage cap.key 32, description := clipForPage cap.description 56 }
  | Telemetry, (t : TelemetryDescriptor) =>
    { t with
      key := clipForPage t.key 32
      unit := clipForPage t.unit 8
      description := clipForPage t.description 56 }
  | Settings, (st : SettingDescriptor) =>
    { st with
      key := clipForPage st.key 32
      nvs_key := clipForPage st.nvs_key 20
      current_value := clipForPage st.current_value 40
      default_value := clipForPage st.default_value 40
      description := clipForPage st.description 56 }
  | OtaManifest, (e : OtaManifestEntry) => e

/-- The page of a list that a query asks for. -/
def page (kind : DeviceListKind) (query : DescriptorQuery) (full : List kind.Item) (message : Bytes) :
    DescriptorResponse :=
  let page_size := effectivePageSize query
  let out : DescriptorResponse := { type := kind.response, message := message }
  if page_size = 0 then kind.withItems full out
  else
    let total := full.length
    let start := min query.cursor.toNat total
    let last := min total (start + page_size)
    let items := (slicePage full start last).map kind.clip
    { kind.withItems items out with
      toPageMeta := finalizePageMeta query total (last - start) (kind.snapshot full message) }

/-- The answer of `handleDescriptorQuery` to a query for the list. -/
def answer (kind : DeviceListKind) (device : DescriptorDevice) (query : DescriptorQuery) :
    DescriptorResponse :=
  match kind.list device with
  | .ok (full, message) => kind.page query full message
  | .error message => { type := .Error, message := message }

end DeviceListKind

/-- The cases of `handleDescriptorQuery` that answer with a list of the device. -/
def handleListQuery (device : DescriptorDevice) (query : DescriptorQuery) : Option DescriptorResponse :=
  match query.type with
  | .GetCapabilities => some (DeviceListKind.Capabilities.answer device query)
  | .GetTelemetry => some (DeviceListKind.Telemetry.answer device query)
  | .GetSettings => some (DeviceListKind.Settings.answer device query)
  | .GetOtaManifest => some (DeviceListKind.OtaManifest.answer device query)
  | _ => none

end EspNowLink
