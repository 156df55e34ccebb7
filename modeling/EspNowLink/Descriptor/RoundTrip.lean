import EspNowLink.Descriptor.ReadFields

open Framework

namespace EspNowLink

/-- The part of the response that its type selects, put into `o`. -/
def carriedBody (r o : DescriptorResponse) : DescriptorResponse :=
  match r.type with
  | .Device => { o with device := r.device }
  | .Capabilities => { o with capabilities := r.capabilities }
  | .Telemetry => { o with telemetry := r.telemetry.map writtenBounds }
  | .TelemetrySnapshot => { o with telemetry_samples := r.telemetry_samples }
  | .Liveness => { o with liveness := r.liveness }
  | .Time => { o with time := r.time }
  | .NodeBundle =>
    let bundle_mask := effectiveMask r.bundle_mask
    { o with
      device := if bundle_mask &&& kNodeBundleMaskDevice ≠ 0 then r.device else {}
      liveness := if bundle_mask &&& kNodeBundleMaskLiveness ≠ 0 then r.liveness else {}
      time := if bundle_mask &&& kNodeBundleMaskTime ≠ 0 then r.time else {}
      telemetry_samples := bundleSamples r
      settings := bundleSettings r }
  | .Settings => { o with settings := r.settings }
  | .Setting => { o with setting := r.setting }
  | .LogStatus =>
    { o with toLogReport := { r.toLogReport with log_chunk_offset := 0, log_chunk := [] } }
  | .LogChunk =>
    { o with
      log_chunk_offset := r.log_chunk_offset
      log_total_size := r.log_total_size
      log_chunk := r.log_chunk }
  | .StorageInfo => { o with storage_info := r.storage_info }
  | .StorageList =>
    { o with
      storage_path := r.storage_path
      storage_parent_path := r.storage_parent_path
      storage_entries := r.storage_entries }
  | .StorageStat => { o with storage_stat := r.storage_stat }
  | .OtaStatus => { o with ota_status := r.ota_status }
  | .OtaManifest => { o with ota_manifest := r.ota_manifest }
  | .OtaCapacity => { o with ota_capacity := r.ota_capacity }
  | .OtaGateInfo => { o with ota_gate := r.ota_gate }
  | _ => o

/-- The mask that goes on the wire. -/
def carriedMask (r : DescriptorResponse) : UInt8 :=
  if r.type = .NodeBundle ∨ r.bundle_mask ≠ 0 then effectiveMask r.bundle_mask else 0

/-- What a response says: its type, its page metadata and the part that its type selects, with bounds
that are both `-0.0` or `0.0` as `0.0`. -/
def carried (r : DescriptorResponse) : DescriptorResponse :=
  carriedBody r
    { type := r.type
      message := r.message
      bundle_mask := carriedMask r
      toPageMeta := if r.is_paged then r.toPageMeta else {} }

def readMetrics (xs : List TelemetryDescriptor) : List TelemetryDescriptor :=
  readBack endsMetric (·.metric_id) TelemetryDescriptor.setId false xs
def readOtaEntries (xs : List OtaManifestEntry) : List OtaManifestEntry :=
  readBack endsOtaEntry (·.file_id) OtaManifestEntry.setId false xs

/-- What is read back. -/
def received (r : DescriptorResponse) : DescriptorResponse :=
  match r.type with
  | .Telemetry => { carried r with telemetry := readMetrics (r.telemetry.map writtenBounds) }
  | .OtaManifest => { carried r with ota_manifest := readOtaEntries r.ota_manifest }
  | .StorageStat => { carried r with storage_stat := { r.storage_stat with path := statPath r } }
  | _ => carried r

/-- Every entry keeps its own id, and a file status its own path. -/
def IdsInPlace (r : DescriptorResponse) : Prop :=
  match r.type with
  | .Telemetry => Unshifted endsMetric (·.metric_id) r.telemetry
  | .OtaManifest => Unshifted endsOtaEntry (·.file_id) r.ota_manifest
  | .StorageStat => r.storage_stat.path = [] → r.storage_path = []
  | _ => True

theorem readMetrics_eq_iff (xs : List TelemetryDescriptor) :
    readMetrics xs = xs ↔ Unshifted endsMetric (·.metric_id) xs := by
  have hget : ∀ t i, (TelemetryDescriptor.setId t i).metric_id = i := fun _ _ => rfl
  simpa [readMetrics] using readBack_eq_iff endsMetric hget (fun _ => rfl) false xs

theorem readOtaEntries_eq_iff (xs : List OtaManifestEntry) :
    readOtaEntries xs = xs ↔ Unshifted endsOtaEntry (·.file_id) xs := by
  have hget : ∀ e i, (OtaManifestEntry.setId e i).file_id = i := fun _ _ => rfl
  simpa [readOtaEntries] using readBack_eq_iff endsOtaEntry hget (fun _ => rfl) false xs

theorem close_feedMetric (xs : List TelemetryDescriptor) :
    (xs.foldl feedMetric {}).close = readMetrics xs :=
  have hset : ∀ t, TelemetryDescriptor.setId t t.metric_id = t := fun _ => rfl
  close_foldl_feed_nil hset (fun _ _ _ => rfl) xs

theorem close_feedOtaEntry (xs : List OtaManifestEntry) :
    (xs.foldl feedOtaEntry {}).close = readOtaEntries xs :=
  have hset : ∀ e, OtaManifestEntry.setId e e.file_id = e := fun _ => rfl
  close_foldl_feed_nil hset (fun _ _ _ => rfl) xs

/-- The decoder's state after the header. -/
def headed (r : DescriptorResponse) : DecodeState :=
  { out := { type := r.type, message := r.message, bundle_mask := carriedMask r } }

theorem readFields_header (r : DescriptorResponse) : readFields {} (headerFields r) = headed r := by
  have hmessage : (if r.message.isEmpty then [] else r.message) = r.message := by
    by_cases hm : r.message = [] <;> simp [hm]
  rw [readFields_headerFields, headed, carriedMask, DecodeState.mapOut]
  simp only [hmessage]

theorem readFields_pagePart (s : DecodeState) (r : DescriptorResponse) :
    readFields s (pagePart r) = s.mapPage fun p => if r.is_paged then r.toPageMeta else p := by
  unfold pagePart
  by_cases hp : r.is_paged
  · simp [hp, readFields_pageFields]
  · simp only [hp]
    rfl

/-- What the decoder returns once it has read the body into `s`. -/
def readPage (r : DescriptorResponse) (s : DecodeState) : DescriptorResponse :=
  takeSetting (flushAll (s.mapPage fun p => if r.is_paged then r.toPageMeta else p))

/-- The decoder's state after the fixed sections of a bundle. -/
def bundleState (r : DescriptorResponse) (s : DecodeState) : DecodeState :=
  let bundle_mask := effectiveMask r.bundle_mask
  ((s.mapDevice fun d => if bundle_mask &&& kNodeBundleMaskDevice ≠ 0 then r.device else d).mapLiveness
    fun l => if bundle_mask &&& kNodeBundleMaskLiveness ≠ 0 then r.liveness else l).mapTime
    fun t => if bundle_mask &&& kNodeBundleMaskTime ≠ 0 then r.time else t

theorem readFields_bundleFields {r : DescriptorResponse} (s : DecodeState)
    (htime : r.time.epoch_s.toUInt32.toUInt64 = r.time.epoch_s) :
    readFields s (bundleFields r) = bundleState r s := by
  have hdevice : ∀ s, readFields s (if effectiveMask r.bundle_mask &&& kNodeBundleMaskDevice ≠ 0 then
      deviceFields r.device else []) =
      s.mapDevice fun d => if effectiveMask r.bundle_mask &&& kNodeBundleMaskDevice ≠ 0 then r.device
        else d := by
    intro s
    split
    · exact readFields_deviceFields s r.device
    · rfl
  have hliveness : ∀ s, readFields s (if effectiveMask r.bundle_mask &&& kNodeBundleMaskLiveness ≠ 0 then
      livenessFields r.liveness else []) =
      s.mapLiveness fun l => if effectiveMask r.bundle_mask &&& kNodeBundleMaskLiveness ≠ 0 then
        r.liveness else l := by
    intro s
    split
    · exact readFields_livenessFields s r.liveness
    · rfl
  have htimes : ∀ s, readFields s (if effectiveMask r.bundle_mask &&& kNodeBundleMaskTime ≠ 0 then
      timeFields r.time else []) =
      s.mapTime fun t => if effectiveMask r.bundle_mask &&& kNodeBundleMaskTime ≠ 0 then r.time
        else t := by
    intro s
    split
    · exact readFields_timeFields s htime
    · rfl
  simp only [bundleFields, readFields_append, hdevice, hliveness, htimes]
  rfl

theorem readFields_storagePaths (s : DecodeState) (path parent : Bytes) :
    readFields s [utf8Field 0xB8 path, utf8Field 0xB9 parent] =
      s.mapOut fun o => { o with storage_path := path, storage_parent_path := parent } := by
  simp [reader, storageReader]

theorem readPage_body {r : DescriptorResponse} (htime : r.time.epoch_s.toUInt32.toUInt64 = r.time.epoch_s) :
    readPage r (readFields (headed r) (bodyFields r)) = received r := by
  unfold bodyFields received
  cases htype : r.type with
  | Device =>
    simp only [readFields_deviceFields, carried, carriedBody, headed, htype]
    rfl
  | Capabilities =>
    have h := readFields_capabilities (headed r) [] r.capabilities
    rw [DecodeState.mapCaps_of_eq (e := {}) rfl] at h
    rw [h]
    simp only [carried, carriedBody, headed, htype]
    rfl
  | Telemetry =>
    have hclean : ({} : Entries TelemetryDescriptor).Clean := fun _ => rfl
    obtain ⟨es, hread, hreading⟩ := readFields_telemetry (headed r) hclean r.telemetry
    rw [DecodeState.mapTelem_of_eq (e := {}) rfl] at hread
    have hdone : es.flush.done = readMetrics (r.telemetry.map writtenBounds) := by
      rw [Entries.flush_done, hreading, ← close_feedMetric]
      rfl
    rw [hread, ← hdone]
    simp only [carried, carriedBody, headed, htype]
    rfl
  | TelemetrySnapshot =>
    have h := readFields_samples (headed r) [] r.telemetry_samples
    rw [DecodeState.mapSamples_of_eq (e := {}) rfl] at h
    rw [h]
    simp only [carried, carriedBody, headed, htype]
    rfl
  | Liveness =>
    simp only [readFields_livenessFields, carried, carriedBody, headed, htype]
    rfl
  | Time =>
    simp only [readFields_timeFields _ htime, carried, carriedBody, headed, htype]
    rfl
  | NodeBundle =>
    dsimp only
    rw [readFields_append, readFields_append, readFields_bundleFields _ htime]
    have hsamples := readFields_samples (bundleState r (headed r)) [] (bundleSamples r)
    rw [DecodeState.mapSamples_of_eq (e := {}) rfl] at hsamples
    rw [hsamples]
    have hsettings := readFields_settings
      ((bundleState r (headed r)).mapSamples fun _ => { done := [] ++ bundleSamples r }) [] (bundleSettings r)
    rw [DecodeState.mapSettings_of_eq (e := {}) rfl] at hsettings
    rw [hsettings]
    simp only [carried, carriedBody, headed, bundleState, htype]
    rfl
  | Settings =>
    have h := readFields_settings (headed r) [] r.settings
    rw [DecodeState.mapSettings_of_eq (e := {}) rfl] at h
    rw [h]
    simp only [carried, carriedBody, headed, htype]
    rfl
  | Setting =>
    have h := readFields_settingFields (headed r) [] r.setting
    rw [DecodeState.mapSettings_of_eq (e := {}) rfl] at h
    dsimp only
    rw [h]
    simp only [carried, carriedBody, headed, htype]
    rfl
  | LogStatus =>
    simp only [readFields_logStatusFields, carried, carriedBody, headed, htype]
    rfl
  | LogChunk =>
    dsimp only
    rw [readFields_logChunkFields]
    simp only [carried, carriedBody, headed, htype]
    rfl
  | StorageInfo =>
    simp only [readFields_storageInfoFields, carried, carriedBody, headed, htype]
    rfl
  | StorageList =>
    dsimp only
    rw [readFields_append, readFields_storagePaths]
    obtain ⟨es, hread, hdone⟩ :=
      readFields_storageEntries ((headed r).mapOut fun o =>
        { o with storage_path := r.storage_path, storage_parent_path := r.storage_parent_path }) {}
        r.storage_entries
    rw [DecodeState.mapStorage_of_eq (e := {}) rfl] at hread
    have hentries : es.flush.done = r.storage_entries := hdone
    rw [hread]
    simp only [carried, carriedBody, headed, htype, ← hentries]
    rfl
  | StorageStat =>
    simp only [readFields_storageStatFields, carried, carriedBody, headed, htype]
    rfl
  | OtaStatus =>
    simp only [readFields_otaStatusFields, carried, carriedBody, headed, htype]
    rfl
  | OtaManifest =>
    have hclean : ({} : Entries OtaManifestEntry).Clean := fun _ => rfl
    obtain ⟨es, hread, hreading⟩ := readFields_otaManifest (headed r) hclean r.ota_manifest
    rw [DecodeState.mapOta_of_eq (e := {}) rfl] at hread
    have hdone : es.flush.done = readOtaEntries r.ota_manifest := by
      rw [Entries.flush_done, hreading, ← close_feedOtaEntry]
      rfl
    rw [hread, ← hdone]
    simp only [carried, carriedBody, headed, htype]
    rfl
  | OtaCapacity =>
    simp only [readFields_otaCapacityFields, carried, carriedBody, headed, htype]
    rfl
  | OtaGateInfo =>
    simp only [readFields_otaGateFields, carried, carriedBody, headed, htype]
    rfl
  | _ =>
    simp only [readFields_nil, carried, carriedBody, headed, htype]
    rfl

theorem carried_type (r : DescriptorResponse) : (carried r).type = r.type := by
  unfold carried carriedBody
  cases r.type <;> rfl

theorem carried_page (r : DescriptorResponse) :
    (carried r).toPageMeta = if r.is_paged then r.toPageMeta else {} := by
  unfold carried carriedBody
  cases r.type <;> rfl

theorem carried_message (r : DescriptorResponse) : (carried r).message = r.message := by
  unfold carried carriedBody
  cases r.type <;> rfl

theorem carried_bundle_mask (r : DescriptorResponse) : (carried r).bundle_mask = carriedMask r := by
  unfold carried carriedBody
  cases r.type <;> rfl

theorem received_type (r : DescriptorResponse) : (received r).type = r.type := by
  unfold received
  split <;> exact carried_type r

theorem received_eq_iff (r : DescriptorResponse) : received r = carried r ↔ IdsInPlace r := by
  unfold received IdsInPlace
  cases htype : r.type with
  | Telemetry =>
    have hlist : (carried r).telemetry = r.telemetry.map writtenBounds := by
      simp only [carried, carriedBody, htype]
    have hchain : Unshifted endsMetric (·.metric_id) (r.telemetry.map writtenBounds) ↔
        Unshifted endsMetric (·.metric_id) r.telemetry := by
      simp [Unshifted, List.isChain_map, endsMetric]
    dsimp only
    rw [← hchain, ← readMetrics_eq_iff]
    constructor
    · intro h
      exact (congrArg DescriptorResponse.telemetry h).trans hlist
    · intro h
      rw [h, ← hlist]
  | OtaManifest =>
    have hlist : (carried r).ota_manifest = r.ota_manifest := by
      simp only [carried, carriedBody, htype]
    dsimp only
    rw [← readOtaEntries_eq_iff]
    constructor
    · intro h
      exact (congrArg DescriptorResponse.ota_manifest h).trans hlist
    · intro h
      rw [h, ← hlist]
  | StorageStat =>
    have hstat : (carried r).storage_stat = r.storage_stat := by
      simp only [carried, carriedBody, htype]
    dsimp only
    constructor
    · intro h hpath
      have hpath' : statPath r = r.storage_stat.path :=
        congrArg StorageStat.path ((congrArg DescriptorResponse.storage_stat h).trans hstat)
      simpa [statPath, hpath] using hpath'
    · intro h
      have hpath : statPath r = r.storage_stat.path := by
        by_cases hp : r.storage_stat.path = []
        · simp [statPath, hp, h hp]
        · simp [statPath, hp]
      rw [hpath, ← hstat]
  | _ => simp

theorem effectiveMask_carriedMask (r : DescriptorResponse) :
    effectiveMask (carriedMask r) = effectiveMask r.bundle_mask := by
  unfold carriedMask effectiveMask
  by_cases hmask : r.bundle_mask = 0 <;> by_cases htype : r.type = .NodeBundle <;>
    simp [hmask, htype, kNodeBundleMaskAll, kNodeBundleMaskDevice, kNodeBundleMaskLiveness,
      kNodeBundleMaskTime, kNodeBundleMaskSettings, kNodeBundleMaskTelemetry]

theorem headerFields_carried (r : DescriptorResponse) : headerFields (carried r) = headerFields r := by
  have hmask : r.type = .NodeBundle ∨ carriedMask r ≠ 0 ↔ r.type = .NodeBundle ∨ r.bundle_mask ≠ 0 := by
    by_cases htype : r.type = .NodeBundle
    · simp [htype]
    · by_cases hzero : r.bundle_mask = 0 <;> simp [carriedMask, effectiveMask, htype, hzero]
  simp only [headerFields, carried_type, carried_message, carried_bundle_mask, effectiveMask_carriedMask,
    hmask]

theorem sizes_flatMap_readBack {α ι : Type} [Zero ι] {ends : α → Bool} {getId : α → ι} {setId : α → ι → α}
    {fields : α → List Tlv} (h : ∀ x i, Tlv.sizes (fields (setId x i)) = Tlv.sizes (fields x))
    (xs : List α) :
    Tlv.sizes ((readBack ends getId setId false xs).flatMap fields) = Tlv.sizes (xs.flatMap fields) := by
  have hsum : ∀ ys : List α, Tlv.sizes (ys.flatMap fields) = (ys.map fun y => Tlv.sizes (fields y)).sum := by
    intro ys
    induction ys with
    | nil => rfl
    | cons y ys ih => rw [List.flatMap_cons, Tlv.sizes_append, ih, List.map_cons, List.sum_cons]
  rw [hsum, hsum, map_readBack h]

theorem itemFields_writtenBounds (t : TelemetryDescriptor) :
    itemFields telemetryFields telemetryExtras (writtenBounds t) =
      itemFields telemetryFields telemetryExtras t := by
  unfold writtenBounds
  by_cases hm : hasMinmax t
  · rw [if_pos hm]
  · have hzero : hasMinmax { t with min_value := 0, max_value := 0 } = false := by
      simp [hasMinmax, Float32Bits.isZero]
    rw [if_neg hm]
    simp [itemFields, telemetryFields, telemetryExtras, hm, hzero]

section Bundle

variable {r : DescriptorResponse} (h : r.type = .NodeBundle)
include h

theorem bundleFields_carried : bundleFields (carried r) = bundleFields r := by
  have hmask : effectiveMask (carried r).bundle_mask = effectiveMask r.bundle_mask := by
    rw [carried_bundle_mask, effectiveMask_carriedMask]
  unfold bundleFields
  rw [hmask]
  simp only [carried, carriedBody, h]
  congr 1
  · congr 1 <;> (split <;> rfl)
  · split <;> rfl

theorem bundleSamples_carried : bundleSamples (carried r) = bundleSamples r := by
  have hmask : effectiveMask (carried r).bundle_mask = effectiveMask r.bundle_mask := by
    rw [carried_bundle_mask, effectiveMask_carriedMask]
  have hlist : (carried r).telemetry_samples = bundleSamples r := by
    simp only [carried, carriedBody, h]
  rw [bundleSamples, hmask, hlist, bundleSamples]
  split <;> rfl

theorem bundleSettings_carried : bundleSettings (carried r) = bundleSettings r := by
  have hmask : effectiveMask (carried r).bundle_mask = effectiveMask r.bundle_mask := by
    rw [carried_bundle_mask, effectiveMask_carriedMask]
  have hlist : (carried r).settings = bundleSettings r := by
    simp only [carried, carriedBody, h]
  rw [bundleSettings, hmask, hlist, bundleSettings]
  split <;> rfl

end Bundle

/-- What a response says has its fields, but for a file status without a path. -/
theorem bodyFields_carried {r : DescriptorResponse} (htype : r.type ≠ .StorageStat) :
    bodyFields (carried r) = bodyFields r := by
  cases h : r.type with
  | Telemetry =>
    simp only [bodyFields, carried, carriedBody, h, List.flatMap_map, itemFields_writtenBounds]
  | StorageStat => exact absurd h htype
  | NodeBundle =>
    simp only [bodyFields, carried_type, h, bundleFields_carried h, bundleSamples_carried h,
      bundleSettings_carried h]
  | _ => simp only [bodyFields, carried, carriedBody, h, logChunkHeader, logStatusFields]

theorem allFields_carried {r : DescriptorResponse} (htype : r.type ≠ .StorageStat) :
    allFields (carried r) = allFields r := by
  have hpage : pagePart (carried r) = pagePart r := by
    unfold pagePart
    rw [carried_page]
    cases hp : r.is_paged <;> simp [hp]
  rw [allFields, headerFields_carried, bodyFields_carried htype, hpage, allFields]

/-- Shifted ids take as many bytes. -/
theorem sizes_bodyFields_received {r : DescriptorResponse} (htype : r.type ≠ .StorageStat) :
    Tlv.sizes (bodyFields (received r)) = Tlv.sizes (bodyFields r) := by
  rw [← bodyFields_carried htype]
  unfold received
  cases h : r.type with
  | Telemetry =>
    have hid : ∀ t i, Tlv.sizes (itemFields telemetryFields telemetryExtras (TelemetryDescriptor.setId t i)) =
        Tlv.sizes (itemFields telemetryFields telemetryExtras t) := fun _ _ => rfl
    simp only [bodyFields, carried, carriedBody, h]
    rw [readMetrics, sizes_flatMap_readBack hid]
  | OtaManifest =>
    have hid : ∀ e i, Tlv.sizes (otaEntryFields (OtaManifestEntry.setId e i)) =
        Tlv.sizes (otaEntryFields e) := fun _ _ => rfl
    simp only [bodyFields, carried, carriedBody, h]
    rw [readOtaEntries, sizes_flatMap_readBack hid]
  | StorageStat => exact absurd h htype
  | _ => rfl

theorem sizes_allFields_received {r : DescriptorResponse} (htype : r.type ≠ .StorageStat) :
    Tlv.sizes (allFields (received r)) = Tlv.sizes (allFields r) := by
  have hheader : headerFields (received r) = headerFields r := by
    rw [← headerFields_carried r]
    unfold received
    split <;> rfl
  have hpage : (received r).is_paged = r.is_paged := by
    have hmeta : (received r).toPageMeta = (carried r).toPageMeta := by
      unfold received
      split <;> rfl
    rw [hmeta, carried_page]
    cases hp : r.is_paged <;> simp [hp]
  rw [sizes_allFields, sizes_allFields, hheader, sizes_bodyFields_received htype, hpage]

/-- When what is read back of a written response is what `r` says, then `r` fits a payload. -/
theorem fitsPayload_of_received {r r' : DescriptorResponse} (hhead : SameHead r r')
    (hfits : FitsPayload r') (h : received r' = carried r) : FitsPayload r := by
  by_cases hstat : r.type = .StorageStat
  · -- a file status has no list that could be cut
    have hfields : allFields r' = allFields r := by
      have hbody : bodyFields r' = bodyFields r := by
        simp only [bodyFields, hhead.type, hstat, storageStatFields, statPath, hhead.storage_path,
          hhead.storage_stat]
      have hpage : pagePart r' = pagePart r := by simp only [pagePart, hhead.page]
      rw [allFields, allFields, hhead.headerFields_eq, hbody, hpage]
    have hempty : ¬ EmptyChunk r' := by
      rintro ⟨htype, -⟩
      rw [hhead.type, hstat] at htype
      cases htype
    left
    rw [← hfields]
    exact hfits.resolve_right hempty
  · have hstat' : r'.type ≠ .StorageStat := by rwa [hhead.type]
    refine hfits.imp (fun hsizes => ?_) fun hempty => ?_
    · rwa [← allFields_carried hstat, ← h, sizes_allFields_received hstat']
    · have htype : r.type = .LogChunk := by rw [← hhead.type, hempty.1]
      have hchunk := congrArg (fun o => o.log_chunk) h
      simp only [received, carried, carriedBody, hempty.1, htype] at hchunk
      exact ⟨htype, by rw [← hchunk, hempty.2]⟩

/-- The decoder on the fields of a response. -/
theorem decode_allFields {r : DescriptorResponse} (htype : r.type ≠ .Unknown)
    (hepoch : r.time.epoch_s.toNat < 2 ^ 32) (hsizes : Tlv.sizes (allFields r) ≤ kMaxPayload + 4) :
    decodeDescriptorResponse (Tlv.encode (allFields r)) = some (received r) := by
  have htime : r.time.epoch_s.toUInt32.toUInt64 = r.time.epoch_s := by
    apply UInt64.toNat.inj
    simpa using Nat.mod_eq_of_lt hepoch
  have hlength : ¬ (Tlv.encode (allFields r)).length < 8 := by
    rw [Tlv.encode_length, sizes_allFields]
    simp [headerFields, u8Field, Tlv.size]
    omega
  have hfields : Tlv.decode (Tlv.encode (allFields r)) = some (allFields r) := by
    refine Tlv.decode_encode fun f hf => ?_
    have hlen := Tlv.length_lt_of_sizes hf hsizes
    have hmax : kMaxPayload + 4 < 65536 := by decide
    omega
  have hread : takeSetting (flushAll (readFields {} (allFields r))) = received r := by
    rw [allFields, readFields_append, readFields_append, readFields_header, readFields_pagePart]
    exact readPage_body htime
  rw [decodeDescriptorResponse, if_neg hlength, hfields, Option.bind_some]
  simp only [hread]
  rw [if_neg (by rwa [received_type])]

/-- A response whose encoding is neither marked as truncated nor a cut page is decoded to what it says
exactly when it fits the payload and no id is shifted to a neighbour. -/
theorem descriptor_round_trip_iff {r : DescriptorResponse} {e : EncodedResponse} (htype : r.type ≠ .Unknown)
    (hepoch : r.time.epoch_s.toNat < 2 ^ 32) (he : encodeDescriptorResponse r = some e)
    (hmark : e.marked = false) (hpage : ¬ CutsPage r) :
    decodeDescriptorResponse e.payload = some (carried r) ↔ FitsPayload r ∧ IdsInPlace r := by
  obtain ⟨r', hw⟩ := encode_spec he hmark hpage
  have hdecode : decodeDescriptorResponse e.payload = some (received r') := by
    rw [hw.payload_eq]
    exact decode_allFields (by rwa [hw.head.type]) (by rwa [hw.head.time]) hw.bound
  rw [hdecode, Option.some.injEq]
  constructor
  · intro h
    have hfits := fitsPayload_of_received hw.head hw.fits h
    rw [hw.all hfits] at h
    exact ⟨hfits, (received_eq_iff r).mp h⟩
  · rintro ⟨hfits, hplace⟩
    rw [hw.all hfits]
    exact (received_eq_iff r).mpr hplace

/-- Two described metrics. -/
def describedMetrics : DescriptorResponse :=
  { type := .Telemetry
    telemetry := [{ metric_id := 7, key := ascii "temp", unit := ascii "C", description := ascii "air" },
      { metric_id := 9, key := ascii "hum", description := ascii "rel" }] }

theorem describedMetrics_round_trip : ∃ e, encodeDescriptorResponse describedMetrics = some e ∧
    (decodeDescriptorResponse e.payload = some (carried describedMetrics) ↔
      FitsPayload describedMetrics ∧ IdsInPlace describedMetrics) := by
  have hencode : (encodeDescriptorResponse describedMetrics).isSome ∧
      ∀ e ∈ encodeDescriptorResponse describedMetrics, e.marked = false := by decide +kernel
  obtain ⟨e, he⟩ := Option.isSome_iff_exists.mp hencode.1
  exact ⟨e, he, descriptor_round_trip_iff (by decide) (by decide) he (hencode.2 e he) fun h => by cases h.1⟩

/-- An archive of two images, without text fields. -/
def twoImages : DescriptorResponse :=
  { type := .OtaManifest, ota_manifest := [{ file_id := 1 }, { file_id := 2 }] }

/-- The second id goes to the first entry. -/
theorem twoImages_ids_shifted : ∃ e, encodeDescriptorResponse twoImages = some e ∧
    e.truncated = false ∧ e.marked = false ∧
    decodeDescriptorResponse e.payload =
      some { twoImages with ota_manifest := [{ file_id := 2 }, { file_id := 0 }] } ∧
    decodeDescriptorResponse e.payload ≠ some (carried twoImages) := by
  have hencode : (encodeDescriptorResponse twoImages).isSome ∧
      ∀ e ∈ encodeDescriptorResponse twoImages, e.truncated = false ∧ e.marked = false ∧
        decodeDescriptorResponse e.payload =
          some { twoImages with ota_manifest := [{ file_id := 2 }, { file_id := 0 }] } ∧
        decodeDescriptorResponse e.payload ≠ some (carried twoImages) := by decide +kernel
  obtain ⟨e, he⟩ := Option.isSome_iff_exists.mp hencode.1
  exact ⟨e, he, hencode.2 e he⟩

end EspNowLink
