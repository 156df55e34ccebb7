import EspNowLink.Descriptor.Decode
import EspNowLink.Descriptor.Layout
import EspNowLink.Framework.OpenRecords

open Framework

namespace EspNowLink

section Readers

variable (s : DecodeState) (tag : UInt8)

@[simp] theorem readFields_nil : readFields s [] = s := rfl

@[simp] theorem readFields_cons (f : Tlv) (fs : List Tlv) :
    readFields s (f :: fs) = readFields (reader f.tag f s) fs := rfl

@[simp] theorem readFields_append (fs gs : List Tlv) :
    readFields s (fs ++ gs) = readFields (readFields s fs) gs := List.foldl_append ..

@[simp] theorem u8Field_tag (v : UInt8) : (u8Field tag v).tag = tag := rfl
@[simp] theorem boolField_tag (v : Bool) : (boolField tag v).tag = tag := rfl
@[simp] theorem u16Field_tag (v : UInt16) : (u16Field tag v).tag = tag := rfl
@[simp] theorem u32Field_tag (v : UInt32) : (u32Field tag v).tag = tag := rfl
@[simp] theorem f32Field_tag (v : Float32Bits) : (f32Field tag v).tag = tag := rfl
@[simp] theorem utf8Field_tag (v : Bytes) : (utf8Field tag v).tag = tag := rfl

@[simp] theorem onText_utf8Field (k) (v : Bytes) : onText k (utf8Field tag v) s = k v s := rfl

@[simp] theorem onU8_u8Field (k) (v : UInt8) : onU8 k (u8Field tag v) s = k v s := rfl

@[simp] theorem onBool_boolField (k) (v : Bool) : onBool k (boolField tag v) s = k v s := by
  cases v <;> rfl

@[simp] theorem onBoolOne_boolField (k) (v : Bool) : onBoolOne k (boolField tag v) s = k v s := by
  cases v <;> rfl

@[simp] theorem onU16_u16Field (k) (v : UInt16) : onU16 k (u16Field tag v) s = k v s := by
  change k (readLe16 _ _) s = _
  rw [readLe16_le16]

@[simp] theorem onU32_u32Field (k) (v : UInt32) : onU32 k (u32Field tag v) s = k v s := by
  change k (readLe32 _ _ _ _) s = _
  rw [readLe32_le32]

@[simp] theorem onF32_f32Field (k) (v : Float32Bits) :
    onF32 k (f32Field tag v) s = k (fun _ => v) s := by
  change k (fun _ => readLe32 _ _ _ _) s = _
  rw [readLe32_le32]

end Readers

namespace DecodeState

variable (s : DecodeState)

@[simp] theorem mapOut_mapOut (g h) : (s.mapOut g).mapOut h = s.mapOut fun x => h (g x) := rfl
@[simp] theorem mapPage_mapPage (g h) : (s.mapPage g).mapPage h = s.mapPage fun x => h (g x) := rfl
@[simp] theorem mapLog_mapLog (g h) : (s.mapLog g).mapLog h = s.mapLog fun x => h (g x) := rfl
@[simp] theorem mapDevice_mapDevice (g h) :
    (s.mapDevice g).mapDevice h = s.mapDevice fun x => h (g x) := rfl
@[simp] theorem mapLiveness_mapLiveness (g h) :
    (s.mapLiveness g).mapLiveness h = s.mapLiveness fun x => h (g x) := rfl
@[simp] theorem mapTime_mapTime (g h) : (s.mapTime g).mapTime h = s.mapTime fun x => h (g x) := rfl
@[simp] theorem mapStorageInfo_mapStorageInfo (g h) :
    (s.mapStorageInfo g).mapStorageInfo h = s.mapStorageInfo fun x => h (g x) := rfl
@[simp] theorem mapStorageStat_mapStorageStat (g h) :
    (s.mapStorageStat g).mapStorageStat h = s.mapStorageStat fun x => h (g x) := rfl
@[simp] theorem mapOtaStatus_mapOtaStatus (g h) :
    (s.mapOtaStatus g).mapOtaStatus h = s.mapOtaStatus fun x => h (g x) := rfl
@[simp] theorem mapOtaCapacity_mapOtaCapacity (g h) :
    (s.mapOtaCapacity g).mapOtaCapacity h = s.mapOtaCapacity fun x => h (g x) := rfl
@[simp] theorem mapOtaGate_mapOtaGate (g h) :
    (s.mapOtaGate g).mapOtaGate h = s.mapOtaGate fun x => h (g x) := rfl
@[simp] theorem mapCaps_mapCaps (g h) : (s.mapCaps g).mapCaps h = s.mapCaps fun x => h (g x) := rfl
@[simp] theorem mapTelem_mapTelem (g h) : (s.mapTelem g).mapTelem h = s.mapTelem fun x => h (g x) := rfl
@[simp] theorem mapSamples_mapSamples (g h) :
    (s.mapSamples g).mapSamples h = s.mapSamples fun x => h (g x) := rfl
@[simp] theorem mapSettings_mapSettings (g h) :
    (s.mapSettings g).mapSettings h = s.mapSettings fun x => h (g x) := rfl
@[simp] theorem mapStorage_mapStorage (g h) :
    (s.mapStorage g).mapStorage h = s.mapStorage fun x => h (g x) := rfl
@[simp] theorem mapOta_mapOta (g h) : (s.mapOta g).mapOta h = s.mapOta fun x => h (g x) := rfl

variable {s}

theorem mapCaps_of_eq {e} (h : s.caps = e) : (s.mapCaps fun _ => e) = s := by
  subst h
  rfl

theorem mapTelem_of_eq {e} (h : s.telem = e) : (s.mapTelem fun _ => e) = s := by
  subst h
  rfl

theorem mapSamples_of_eq {e} (h : s.samples = e) : (s.mapSamples fun _ => e) = s := by
  subst h
  rfl

theorem mapSettings_of_eq {e} (h : s.settings = e) : (s.mapSettings fun _ => e) = s := by
  subst h
  rfl

theorem mapStorage_of_eq {e} (h : s.storage = e) : (s.mapStorage fun _ => e) = s := by
  subst h
  rfl

theorem mapOta_of_eq {e} (h : s.ota = e) : (s.mapOta fun _ => e) = s := by
  subst h
  rfl

end DecodeState

section Sections

variable (s : DecodeState)

theorem readFields_deviceFields (d : DeviceDescriptor) :
    readFields s (deviceFields d) = s.mapDevice fun _ => d := by
  simp [deviceFields, reader, deviceReader]

/-- A field of another section leaves the device as it is. -/
example : (readFields {} (deviceFields { device_id := [0x41], hw_version := [0x32] } ++ [u8Field 0x60 1])).out.device =
    { device_id := [0x41], hw_version := [0x32] } := by
  decide +kernel

theorem readFields_livenessFields (l : LivenessStatus) :
    readFields s (livenessFields l) = s.mapLiveness fun _ => l := by
  simp [livenessFields, reader, livenessReader]

theorem readFields_timeFields {t : TimeStatus} (ht : t.epoch_s.toUInt32.toUInt64 = t.epoch_s) :
    readFields s (timeFields t) = s.mapTime fun _ => t := by
  simp [timeFields, reader, timeReader, ht]

theorem readFields_logStatusFields (l : LogReport) :
    readFields s (logStatusFields l) =
      s.mapLog fun x => { l with log_chunk_offset := x.log_chunk_offset, log_chunk := x.log_chunk } := by
  simp [logStatusFields, reader, logStatusReader]

theorem readFields_storageInfoFields (i : StorageInfo) :
    readFields s (storageInfoFields i) = s.mapStorageInfo fun _ => i := by
  simp [storageInfoFields, reader, storageReader]

theorem readFields_storageStatFields (r : DescriptorResponse) :
    readFields s (storageStatFields r) =
      s.mapStorageStat fun _ => { r.storage_stat with path := statPath r } := by
  simp [storageStatFields, reader, storageStatReader]

theorem readFields_otaStatusFields (o : OtaStatusInfo) :
    readFields s (otaStatusFields o) = s.mapOtaStatus fun _ => o := by
  simp [otaStatusFields, reader, otaStatusReader]

theorem readFields_otaCapacityFields (c : OtaCapacityInfo) :
    readFields s (otaCapacityFields c) = s.mapOtaCapacity fun _ => c := by
  simp [otaCapacityFields, reader, otaCapacityReader]

theorem readFields_otaGateFields (g : OtaGateInfo) :
    readFields s (otaGateFields g) = s.mapOtaGate fun _ => g := by
  simp [otaGateFields, reader, otaCapacityReader]

theorem readFields_pageFields {p : PageMeta} (hp : p.is_paged = true) :
    readFields s (pageFields p) = s.mapPage fun _ => p := by
  simp only [pageFields, ← hp]
  simp [reader, headerReader]

theorem readFields_capabilityFields (done : List CapabilityDescriptor) (c : CapabilityDescriptor) :
    readFields (s.mapCaps fun _ => { done := done }) (capabilityFields c) =
      s.mapCaps fun _ => { done := done ++ [c] } := by
  simp [capabilityFields, reader, capabilityReader, Entries.start, Entries.finish, Entries.set,
    Entries.flush]

theorem readFields_sampleFields (done : List TelemetrySample) (t : TelemetrySample) :
    readFields (s.mapSamples fun _ => { done := done }) (sampleFields t) =
      s.mapSamples fun _ => { done := done ++ [t] } := by
  simp [sampleFields, reader, telemetryReader, sampleReader, Entries.start, Entries.reach,
    Entries.finish, Entries.set, Entries.flush]

theorem readFields_settingFields (done : List SettingDescriptor) (st : SettingDescriptor) :
    readFields (s.mapSettings fun _ => { done := done }) (settingFields st) =
      s.mapSettings fun _ => { done := done ++ [st] } := by
  simp [settingFields, reader, timeReader, settingReader, Entries.start, Entries.reach,
    Entries.finish, Entries.set, Entries.flush]

theorem readFields_storageEntryFields (es : Entries StorageEntry) (e : StorageEntry) :
    readFields (s.mapStorage fun _ => es) (storageEntryFields e) =
      s.mapStorage fun _ => { done := es.flush.done, cur := e, stage := 3 } := by
  simp [storageEntryFields, reader, storageReader, Entries.start, Entries.reach, Entries.set]

theorem readFields_logChunkFields (l : LogReport) :
    readFields s (logChunkHeader l ++ [⟨0xA2, 0x08, l.log_chunk⟩]) =
      s.mapLog fun x =>
        { x with
          log_chunk_offset := l.log_chunk_offset
          log_total_size := l.log_total_size
          log_chunk := l.log_chunk } := by
  simp [logChunkHeader, reader, logChunkReader, onBytes]

theorem readFields_headerFields (r : DescriptorResponse) :
    readFields s (headerFields r) = s.mapOut fun o =>
      { o with
        type := r.type
        message := if r.message.isEmpty then o.message else r.message
        bundle_mask := if r.type = .NodeBundle ∨ r.bundle_mask ≠ 0 then effectiveMask r.bundle_mask
          else o.bundle_mask } := by
  by_cases hmessage : r.message.isEmpty <;> by_cases hmask : r.type = .NodeBundle ∨ r.bundle_mask ≠ 0 <;>
    simp [headerFields, hmessage, hmask, reader, headerReader, sampleReader, skip]

theorem readFields_capabilities (done xs : List CapabilityDescriptor) :
    readFields (s.mapCaps fun _ => { done := done }) (xs.flatMap capabilityFields) =
      s.mapCaps fun _ => { done := done ++ xs } := by
  induction xs generalizing done with
  | nil => simp
  | cons x xs ih => simp [readFields_capabilityFields, ih]

theorem readFields_samples (done xs : List TelemetrySample) :
    readFields (s.mapSamples fun _ => { done := done }) (xs.flatMap sampleFields) =
      s.mapSamples fun _ => { done := done ++ xs } := by
  induction xs generalizing done with
  | nil => simp
  | cons x xs ih => simp [readFields_sampleFields, ih]

theorem readFields_settings (done xs : List SettingDescriptor) :
    readFields (s.mapSettings fun _ => { done := done }) (xs.flatMap settingFields) =
      s.mapSettings fun _ => { done := done ++ xs } := by
  induction xs generalizing done with
  | nil => simp
  | cons x xs ih => simp [readFields_settingFields, ih]

theorem readFields_storageEntries (es : Entries StorageEntry) (xs : List StorageEntry) :
    ∃ es', readFields (s.mapStorage fun _ => es) (xs.flatMap storageEntryFields) =
        s.mapStorage (fun _ => es') ∧ es'.flush.done = es.flush.done ++ xs := by
  induction xs generalizing es with
  | nil => exact ⟨es, rfl, by simp⟩
  | cons x xs ih =>
    obtain ⟨es', hes', hdone⟩ := ih { done := es.flush.done, cur := x, stage := 3 }
    refine ⟨es', by simp [readFields_storageEntryFields, hes'], ?_⟩
    rw [hdone]
    simp [Entries.flush]

end Sections

namespace Entries

variable {α : Type} [Inhabited α]

/-- The entries as a reading of open records. -/
def reading (es : Entries α) : Reading α :=
  { done := es.done, current := if 0 < es.stage then some es.cur else none }

/-- An entry that has not begun is empty. -/
def Clean (es : Entries α) : Prop := es.stage = 0 → es.cur = default

theorem flush_done (es : Entries α) : es.flush.done = es.reading.close := by
  unfold flush reading Reading.close
  split <;> simp

end Entries

/-- The bounds that are read back: none are written when both are zero. -/
def writtenBounds (t : TelemetryDescriptor) : TelemetryDescriptor :=
  if hasMinmax t then t else { t with min_value := 0, max_value := 0 }

@[simp] theorem writtenBounds_description (t : TelemetryDescriptor) :
    (writtenBounds t).description = t.description := by
  unfold writtenBounds
  split <;> rfl

@[simp] theorem writtenBounds_metric_id (t : TelemetryDescriptor) :
    (writtenBounds t).metric_id = t.metric_id := by
  unfold writtenBounds
  split <;> rfl

def TelemetryDescriptor.setId (t : TelemetryDescriptor) (i : UInt16) : TelemetryDescriptor :=
  { t with metric_id := i }
def OtaManifestEntry.setId (e : OtaManifestEntry) (i : UInt32) : OtaManifestEntry :=
  { e with file_id := i }

/-- A description ends its metric; nothing ends an archive entry. -/
def endsMetric (t : TelemetryDescriptor) : Bool := !t.description.isEmpty
def endsOtaEntry (_ : OtaManifestEntry) : Bool := false

def feedMetric : Reading TelemetryDescriptor → TelemetryDescriptor → Reading TelemetryDescriptor :=
  Reading.feed endsMetric (·.metric_id) .setId

def feedOtaEntry : Reading OtaManifestEntry → OtaManifestEntry → Reading OtaManifestEntry :=
  Reading.feed endsOtaEntry (·.file_id) .setId

section OpenMetric

variable (es : Entries TelemetryDescriptor) (t : TelemetryDescriptor)

/-- The finished metrics once the id and the key of the next one are read. -/
def metricsBefore : List TelemetryDescriptor :=
  es.done ++ if 0 < es.stage then [{ es.cur with metric_id := t.metric_id }] else []

/-- What is read of a metric: its id went to the metric that was open. -/
def metricRead : TelemetryDescriptor :=
  if 0 < es.stage then { writtenBounds t with metric_id := 0 } else writtenBounds t

variable {es t}

theorem readFields_telemetryFields_open (s : DecodeState) (hes : es.Clean) (hd : t.description = []) :
    readFields (s.mapTelem fun _ => es) (itemFields telemetryFields telemetryExtras t) =
      s.mapTelem fun _ =>
        { done := metricsBefore es t, cur := metricRead es t, stage := if hasMinmax t then 4 else 2 } := by
  have hdefault : (default : TelemetryDescriptor) = {} := rfl
  have hcur : ¬ 0 < es.stage → es.cur = {} := fun h => hes (by omega)
  obtain ⟨id, key, unit, min, max, description⟩ := t
  obtain rfl : description = [] := hd
  by_cases hstage : 0 < es.stage <;> by_cases hm : hasMinmax ⟨id, key, unit, min, max, []⟩ <;>
    simp [itemFields, telemetryFields, telemetryExtras, reader, capabilityReader, telemetryReader, hm,
      hstage, Entries.start, Entries.reach, Entries.set, Entries.flush, metricsBefore, metricRead,
      writtenBounds, hdefault, hcur]

theorem readFields_telemetryFields_closed (s : DecodeState) (hes : es.Clean) (hd : t.description ≠ []) :
    readFields (s.mapTelem fun _ => es) (itemFields telemetryFields telemetryExtras t) =
      s.mapTelem fun _ => { done := metricsBefore es t ++ [metricRead es t] } := by
  have hdefault : (default : TelemetryDescriptor) = {} := rfl
  have hcur : ¬ 0 < es.stage → es.cur = {} := fun h => hes (by omega)
  by_cases hstage : 0 < es.stage <;> by_cases hm : hasMinmax t <;>
    simp [itemFields, telemetryFields, telemetryExtras, reader, capabilityReader, telemetryReader, hm, hd,
      hstage, Entries.start, Entries.reach, Entries.finish, Entries.set, Entries.flush, metricsBefore,
      metricRead, writtenBounds, hdefault, hcur]

theorem readFields_telemetryFields (s : DecodeState) (hes : es.Clean) (t : TelemetryDescriptor) :
    ∃ es', readFields (s.mapTelem fun _ => es) (itemFields telemetryFields telemetryExtras t) =
        s.mapTelem (fun _ => es') ∧ es'.Clean ∧ es'.reading = feedMetric es.reading (writtenBounds t) := by
  by_cases hd : t.description = []
  · refine ⟨_, readFields_telemetryFields_open s hes hd, ?_, ?_⟩
    · intro hstage
      dsimp only at hstage
      split at hstage <;> cases hstage
    · have hpos : 0 < if hasMinmax t then 4 else 2 := by split <;> decide
      by_cases hstage : 0 < es.stage <;>
        simp [Entries.reading, feedMetric, endsMetric, TelemetryDescriptor.setId, Reading.feed, metricsBefore,
          metricRead, hpos, hstage, hd]
  · refine ⟨_, readFields_telemetryFields_closed s hes hd, fun _ => rfl, ?_⟩
    by_cases hstage : 0 < es.stage <;>
      simp [Entries.reading, feedMetric, endsMetric, TelemetryDescriptor.setId, Reading.feed, metricsBefore,
        metricRead, hstage, hd]

end OpenMetric

theorem readFields_telemetry (s : DecodeState) {es : Entries TelemetryDescriptor} (hes : es.Clean)
    (xs : List TelemetryDescriptor) :
    ∃ es', readFields (s.mapTelem fun _ => es) (xs.flatMap (itemFields telemetryFields telemetryExtras)) =
        s.mapTelem (fun _ => es') ∧ es'.reading = (xs.map writtenBounds).foldl feedMetric es.reading := by
  induction xs generalizing es with
  | nil => exact ⟨es, rfl, rfl⟩
  | cons x xs ih =>
    obtain ⟨es₁, hread, hclean, hreading⟩ := readFields_telemetryFields s hes x
    obtain ⟨es', hread', hreading'⟩ := ih hclean
    refine ⟨es', ?_, ?_⟩
    · rw [List.flatMap_cons, readFields_append, hread, hread']
    · rw [hreading', hreading]
      rfl

theorem readFields_otaEntryFields (s : DecodeState) {es : Entries OtaManifestEntry} (hes : es.Clean)
    (e : OtaManifestEntry) :
    ∃ es', readFields (s.mapOta fun _ => es) (otaEntryFields e) =
        s.mapOta (fun _ => es') ∧ es'.Clean ∧ es'.reading = feedOtaEntry es.reading e := by
  have hdefault : (default : OtaManifestEntry) = {} := rfl
  have hcur : ¬ 0 < es.stage → es.cur = {} := fun h => hes (by omega)
  refine ⟨⟨es.done ++ if 0 < es.stage then [{ es.cur with file_id := e.file_id }] else [],
    if 0 < es.stage then { e with file_id := 0 } else e, 8⟩, ?_, ?_, ?_⟩
  · by_cases hstage : 0 < es.stage <;>
      simp [otaEntryFields, reader, otaEntryReader, hstage, Entries.start, Entries.reach, Entries.set,
        Entries.flush, hdefault, hcur]
  · intro hstage
    cases hstage
  · by_cases hstage : 0 < es.stage <;>
      simp [Entries.reading, feedOtaEntry, endsOtaEntry, OtaManifestEntry.setId, Reading.feed, hstage]

theorem readFields_otaManifest (s : DecodeState) {es : Entries OtaManifestEntry} (hes : es.Clean)
    (xs : List OtaManifestEntry) :
    ∃ es', readFields (s.mapOta fun _ => es) (xs.flatMap otaEntryFields) = s.mapOta (fun _ => es') ∧
      es'.reading = xs.foldl feedOtaEntry es.reading := by
  induction xs generalizing es with
  | nil => exact ⟨es, rfl, rfl⟩
  | cons x xs ih =>
    obtain ⟨es₁, hread, hclean, hreading⟩ := readFields_otaEntryFields s hes x
    obtain ⟨es', hread', hreading'⟩ := ih hclean
    refine ⟨es', ?_, ?_⟩
    · rw [List.flatMap_cons, readFields_append, hread, hread']
    · rw [hreading', hreading]
      rfl

end EspNowLink
