import EspNowLink.Codec.QueryFidelity
import EspNowLink.Core.ProtocolCodec

open Framework

namespace EspNowLink

section OwnFields

/-- The maintenance fields that belong to the type of a query. -/
def ownMaintenance (query : DescriptorQuery) : MaintenanceQuery :=
  match query.type with
  | .GetNodeBundle => { bundle_mask := query.bundle_mask }
  | .ReadLogChunk => { log_offset := query.log_offset, log_max_bytes := query.log_max_bytes }
  | .SetLogControl => { has_log_enable := query.has_log_enable, log_enable := query.log_enable }
  | .ListStoragePath | .StatStoragePath => { storage_path := query.storage_path }
  | .ClearOtaScope => { ota_scope := query.ota_scope }
  | .ApplyOtaImage => { ota_target := query.ota_target }
  | _ => {}

/-- The topology fields that belong to the type of a query. -/
def ownTopology (query : DescriptorQuery) : TopologyQuery :=
  match query.type with
  | .TopologyStageBegin =>
    { topology_schema_version := query.topology_schema_version
      topology_version := query.topology_version
      topology_index_neg := query.topology_index_neg
      topology_index_pos := query.topology_index_pos }
  | .TopologyStageSlotSet =>
    { topology_slot_index := query.topology_slot_index
      topology_slot_enabled := query.topology_slot_enabled
      topology_peer := query.topology_peer
      topology_peer_role := query.topology_peer_role
      topology_group_id := query.topology_group_id
      topology_relative_index := query.topology_relative_index
      topology_local_virtual_index := query.topology_local_virtual_index
      topology_peer_virtual_index := query.topology_peer_virtual_index
      topology_axis_order := query.topology_axis_order
      topology_delay_ms := query.topology_delay_ms
      topology_hold_ms := query.topology_hold_ms }
  | .TopologyStageGroupSet =>
    { topology_group_slot := query.topology_group_slot
      topology_group_enabled := query.topology_group_enabled
      topology_group_id := query.topology_group_id
      topology_group_seed := query.topology_group_seed }
  | .TopologyTriggerSend =>
    { topology_target_index := query.topology_target_index
      topology_trigger_direction := query.topology_trigger_direction
      topology_delay_ms := query.topology_delay_ms
      topology_hold_ms := query.topology_hold_ms
      topology_source_virtual_index := query.topology_source_virtual_index }
  | _ => {}

/-- A query without the fields that do not belong to its type, which are as in a new query. Page
fields belong to a paged query of a type with pages. -/
def ownFields (query : DescriptorQuery) : DescriptorQuery :=
  let selects := selectsSetting query.type
  let paged := query.paged && supportsPaging query.type
  { toMaintenanceQuery := ownMaintenance query
    toTopologyQuery := ownTopology query
    type := query.type
    key := if selects && !query.has_setting_id then query.key else []
    has_setting_id := selects && query.has_setting_id
    setting_id := if selects && query.has_setting_id then query.setting_id else 0
    value := if query.type = .SetSetting then query.value else []
    time_epoch_s := if query.type = .SetTime then query.time_epoch_s else 0
    paged := paged
    cursor := if paged then query.cursor else 0
    page_size := if paged then query.page_size else 0 }

/-- What becomes of a query on its way: a time in 32 bits, no mask without or with unknown sections,
no seed for a group that is off, and a log setting that is there. -/
def asSent (query : DescriptorQuery) : DescriptorQuery :=
  { query with
    time_epoch_s := query.time_epoch_s.toUInt32.toUInt64
    bundle_mask := effectiveMask (effectiveMask query.bundle_mask &&& kNodeBundleMaskAll)
    has_log_enable := true
    topology_group_seed :=
      if query.topology_group_enabled then query.topology_group_seed else Vector.replicate 32 0 }

end OwnFields

section ReadBack

variable {query : DescriptorQuery}

/-- The parser finds the fields that belong to the type, as they were sent. -/
theorem read_queryFields (query : DescriptorQuery) :
    withKnownMask (readQueryFields (queryFields query)) = ownFields (asSent query) := by
  rw [queryFields, readQueryFields_append, readQueryFields_append, readQueryFields_head,
    foldl_pagingFields]
  cases htype : query.type
  case GetCapabilities | GetTelemetry | PullTelemetry | GetSettings | GetOtaManifest =>
    cases hpaged : query.paged <;>
      simp [argumentFields, htype, hpaged, readHead, selectsSetting, supportsPaging, asSent, ownFields,
        ownMaintenance, ownTopology, withKnownMask]
  case GetNodeBundle =>
    cases hpaged : query.paged <;>
      simp [argumentFields, htype, hpaged, readHead, selectsSetting, supportsPaging, asSent, ownFields,
        ownMaintenance, ownTopology, withKnownMask, readQueryField, readGroupField]
  case GetSetting | SetSetting =>
    cases hid : query.has_setting_id <;>
      simp [argumentFields, htype, hid, readHead, selectsSetting, supportsPaging, asSent, ownFields,
        ownMaintenance, ownTopology, withKnownMask, readQueryField, readHeadField]
  case SetTime =>
    simp [argumentFields, htype, readHead, selectsSetting, supportsPaging, asSent, ownFields,
      ownMaintenance, ownTopology, withKnownMask, readQueryField, readHeadField]
  case ReadLogChunk | SetLogControl =>
    simp [argumentFields, htype, readHead, selectsSetting, supportsPaging, asSent, ownFields,
      ownMaintenance, ownTopology, withKnownMask, readQueryField, readMaintenanceField]
  case ListStoragePath | StatStoragePath =>
    cases hpath : query.storage_path <;>
      simp [argumentFields, textUnlessEmpty, htype, hpath, readHead, selectsSetting, supportsPaging,
        asSent, ownFields, ownMaintenance, ownTopology, withKnownMask, readQueryField,
        readMaintenanceField]
  case ClearOtaScope =>
    cases hscope : query.ota_scope <;>
      simp [argumentFields, textUnlessEmpty, htype, hscope, readHead, selectsSetting, supportsPaging,
        asSent, ownFields, ownMaintenance, ownTopology, withKnownMask, readQueryField,
        readMaintenanceField]
  case ApplyOtaImage =>
    cases htarget : query.ota_target <;>
      simp [argumentFields, textUnlessEmpty, htype, htarget, readHead, selectsSetting, supportsPaging,
        asSent, ownFields, ownMaintenance, ownTopology, withKnownMask, readQueryField,
        readMaintenanceField]
  case TopologyStageBegin | TopologyStageSlotSet =>
    simp [argumentFields, htype, readHead, selectsSetting, supportsPaging, asSent, ownFields,
      ownMaintenance, ownTopology, withKnownMask, readQueryField, readSlotField]
  case TopologyStageGroupSet =>
    cases henabled : query.topology_group_enabled <;>
      simp [argumentFields, htype, henabled, readHead, selectsSetting, supportsPaging, asSent, ownFields,
        ownMaintenance, ownTopology, withKnownMask, readQueryField, readGroupField]
  case TopologyTriggerSend =>
    simp [argumentFields, htype, readHead, selectsSetting, supportsPaging, asSent, ownFields,
      ownMaintenance, ownTopology, withKnownMask, readQueryField, readGroupField]
  all_goals
    -- the other types have no fields of their own
    simp [argumentFields, htype, readHead, selectsSetting, supportsPaging, asSent, ownFields,
      ownMaintenance, ownTopology, withKnownMask]

/-- The checks of the parser's end do not look at the mask. -/
theorem checks_withKnownMask (out : DescriptorQuery) :
    (withKnownMask out).type = out.type ∧ namesOneSetting (withKnownMask out) = namesOneSetting out ∧
      argumentsValid (withKnownMask out) = argumentsValid out := by
  unfold withKnownMask
  split
  · exact ⟨rfl, rfl, rfl⟩
  · exact ⟨rfl, rfl, rfl⟩

/-- Nor do they look at a field of another type. -/
theorem argumentsValid_ownFields (query : DescriptorQuery) :
    argumentsValid (ownFields query) = argumentsValid query := by
  cases htype : query.type <;>
    simp [argumentsValid, ownFields, ownMaintenance, ownTopology, htype]

theorem namesOneSetting_ownFields (h : namesOneSetting query = true) :
    namesOneSetting (ownFields query) = true := by
  unfold namesOneSetting at h ⊢
  cases hselect : selectsSetting query.type with
  | false => simp [ownFields, hselect]
  | true =>
    cases hid : query.has_setting_id with
    | true => simp [ownFields, hselect, hid]
    | false => simpa [ownFields, hselect, hid] using h

theorem namesType_queryFields (query : DescriptorQuery) : (queryFields query).any namesType = true := by
  rw [List.any_eq_true]
  exact ⟨u8Field 0x10 query.type.toByte, by simp [queryFields], rfl⟩

/-- What the parser makes of an encoded query. -/
theorem parse_sent {payload : Bytes} (hpayload : encodeDescriptorQuery query = some payload) :
    parseDescriptorQuery payload =
      if query.type ≠ .Unknown ∧ argumentsValid (asSent query) = true then
        some (ownFields (asSent query))
      else none := by
  obtain ⟨hfields, hlen⟩ := parse_encode hpayload
  have hnames : namesOneSetting (asSent query) = true :=
    (Bool.and_eq_true_iff.mp (Option.ite_none_right_eq_some.mp hpayload).1).1
  obtain ⟨htype, hone, harguments⟩ := checks_withKnownMask (readQueryFields (queryFields query))
  rw [read_queryFields] at htype hone harguments
  rw [namesOneSetting_ownFields hnames] at hone
  rw [argumentsValid_ownFields] at harguments
  have htype : (readQueryFields (queryFields query)).type = query.type := htype.symm
  rw [parseDescriptorQuery, if_neg (by omega), hfields, Option.bind_some]
  simp only [read_queryFields, namesType_queryFields, ← hone, ← harguments, htype, Bool.not_true,
    Bool.false_or]
  by_cases hunknown : query.type = .Unknown <;> cases argumentsValid (asSent query) <;> simp [hunknown]

end ReadBack

section Kept

/-- The values that have a form of their own on the wire. -/
structure Kept (query : DescriptorQuery) : Prop where
  time : query.type = .SetTime → query.time_epoch_s.toNat < 2 ^ 32
  mask : query.type = .GetNodeBundle →
    query.bundle_mask ≠ 0 ∧ query.bundle_mask &&& kNodeBundleMaskAll = query.bundle_mask
  log : query.type = .SetLogControl → query.has_log_enable = true
  seed : query.type = .TopologyStageGroupSet →
    query.topology_group_enabled = true ∨ query.topology_group_seed = Vector.replicate 32 0

theorem epoch_kept (epoch : UInt64) : epoch.toUInt32.toUInt64 = epoch ↔ epoch.toNat < 2 ^ 32 := by
  rw [← UInt64.toNat_inj, UInt32.toNat_toUInt64, UInt64.toNat_toUInt32]
  constructor
  · intro h
    rw [← h]
    exact Nat.mod_lt _ (by decide)
  · intro h
    exact Nat.mod_eq_of_lt h

theorem mask_kept (mask : UInt8) : effectiveMask (effectiveMask mask &&& kNodeBundleMaskAll) = mask ↔
    mask ≠ 0 ∧ mask &&& kNodeBundleMaskAll = mask := by
  have hall : ∀ n < 256, effectiveMask (effectiveMask (UInt8.ofNat n) &&& kNodeBundleMaskAll) =
      UInt8.ofNat n ↔ UInt8.ofNat n ≠ 0 ∧ UInt8.ofNat n &&& kNodeBundleMaskAll = UInt8.ofNat n := by
    decide +kernel
  have := hall mask.toNat mask.toNat_lt
  rwa [UInt8.ofNat_toNat] at this

variable {query : DescriptorQuery}

theorem ownFields_time_iff :
    (ownFields (asSent query)).time_epoch_s = (ownFields query).time_epoch_s ↔
      (query.type = .SetTime → query.time_epoch_s.toNat < 2 ^ 32) := by
  have hsent : (ownFields (asSent query)).time_epoch_s =
      if query.type = .SetTime then query.time_epoch_s.toUInt32.toUInt64 else 0 := rfl
  have hown : (ownFields query).time_epoch_s =
      if query.type = .SetTime then query.time_epoch_s else 0 := rfl
  rw [hsent, hown]
  by_cases htype : query.type = .SetTime
  · simp only [htype, if_true, epoch_kept, true_imp_iff]
  · simp only [htype, if_false, false_imp_iff]

theorem ownMaintenance_iff : ownMaintenance (asSent query) = ownMaintenance query ↔
    (query.type = .GetNodeBundle →
      query.bundle_mask ≠ 0 ∧ query.bundle_mask &&& kNodeBundleMaskAll = query.bundle_mask) ∧
    (query.type = .SetLogControl → query.has_log_enable = true) := by
  cases htype : query.type
  case GetNodeBundle => simp [ownMaintenance, asSent, htype, mask_kept]
  case SetLogControl => simp [ownMaintenance, asSent, htype]
  all_goals simp [ownMaintenance, asSent, htype]

theorem ownTopology_iff : ownTopology (asSent query) = ownTopology query ↔
    (query.type = .TopologyStageGroupSet →
      query.topology_group_enabled = true ∨ query.topology_group_seed = Vector.replicate 32 0) := by
  cases htype : query.type
  case TopologyStageGroupSet =>
    cases henabled : query.topology_group_enabled <;>
      simp [ownTopology, asSent, htype, henabled, eq_comm]
  all_goals simp [ownTopology, asSent, htype]

theorem ownFields_asSent_iff : ownFields (asSent query) = ownFields query ↔ Kept query := by
  have hsplit : ownFields (asSent query) = ownFields query ↔
      (ownFields (asSent query)).time_epoch_s = (ownFields query).time_epoch_s ∧
        ownMaintenance (asSent query) = ownMaintenance query ∧
        ownTopology (asSent query) = ownTopology query := by
    constructor
    · intro h
      exact ⟨congrArg _ h, congrArg DescriptorQuery.toMaintenanceQuery h,
        congrArg DescriptorQuery.toTopologyQuery h⟩
    · rintro ⟨htime, hmaintenance, htopology⟩
      unfold ownFields
      rw [hmaintenance, htopology]
      exact congrArg (fun t => ({ ownFields query with time_epoch_s := t } : DescriptorQuery)) htime
  rw [hsplit, ownFields_time_iff, ownMaintenance_iff, ownTopology_iff]
  constructor
  · rintro ⟨htime, ⟨hmask, hlog⟩, hseed⟩
    exact ⟨htime, hmask, hlog, hseed⟩
  · intro h
    exact ⟨h.time, ⟨h.mask, h.log⟩, h.seed⟩

/-- A query that is kept is as valid as the sent one. -/
theorem Kept.argumentsValid (h : Kept query) : argumentsValid (asSent query) = argumentsValid query := by
  rw [← argumentsValid_ownFields, ownFields_asSent_iff.mpr h, argumentsValid_ownFields]

end Kept

/-- The default codec gives a query back, in all fields of its type, exactly when the parser takes its
arguments and each of them has a form of its own on the wire; whatever else it takes, it reads as it
was sent. The encoder does not look at the size of a frame; the frame encoder does. -/
theorem default_query_kept_iff (query : DescriptorQuery) (payload : Bytes)
    (hpayload : encodeDescriptorQuery query = some payload) :
    (parseDescriptorQuery payload = some (ownFields query) ↔
      query.type ≠ .Unknown ∧ argumentsValid query = true ∧ Kept query) ∧
    (∀ out, parseDescriptorQuery payload = some out → out = ownFields (asSent query)) ∧
    (kMaxPayload < payload.length → ∀ header, ProtocolCodec.encode header payload = none) := by
  have hparse := parse_sent hpayload
  refine ⟨?_, ?_, ?_⟩
  · rw [hparse]
    constructor
    · intro h
      obtain ⟨⟨htype, hvalid⟩, hsame⟩ := Option.ite_none_right_eq_some.mp h
      have hkept := ownFields_asSent_iff.mp (Option.some.inj hsame)
      rw [hkept.argumentsValid] at hvalid
      exact ⟨htype, hvalid, hkept⟩
    · rintro ⟨htype, hvalid, hkept⟩
      rw [if_pos ⟨htype, hkept.argumentsValid.trans hvalid⟩, ownFields_asSent_iff.mpr hkept]
  · intro out hout
    rw [hparse] at hout
    exact (Option.some.inj (Option.ite_none_right_eq_some.mp hout).2).symm
  · intro hlong header
    rw [ProtocolCodec.encode, if_pos hlong]

/-- A bundle query with a page is given back. -/
theorem default_query_kept_bundle :
    let query : DescriptorQuery :=
      { type := .GetNodeBundle, bundle_mask := 3, paged := true, cursor := 300, page_size := 4 }
    let payload := (encodeDescriptorQuery query).getD []
    (parseDescriptorQuery payload = some (ownFields query) ↔
      query.type ≠ .Unknown ∧ argumentsValid query = true ∧ Kept query) ∧
    (∀ out, parseDescriptorQuery payload = some out → out = ownFields (asSent query)) ∧
    (kMaxPayload < payload.length → ∀ header, ProtocolCodec.encode header payload = none) :=
  default_query_kept_iff _ _ (by decide +kernel)

/-- A time above 32 bits is cut, an empty value is sent and not read, and a path longer than a frame
is encoded. -/
theorem default_query_not_kept :
    ((encodeDescriptorQuery { type := .SetTime, time_epoch_s := 0x100000007 }).bind
        parseDescriptorQuery = some { type := .SetTime, time_epoch_s := 7 }) ∧
    (∃ payload, encodeDescriptorQuery { type := .SetSetting, key := ascii "k" } = some payload ∧
      parseDescriptorQuery payload = none) ∧
    (∃ payload, encodeDescriptorQuery { type := .StatStoragePath
                                        storage_path := List.replicate 300 0x61 } = some payload ∧
      kMaxPayload < payload.length) := by
  refine ⟨by decide +kernel, ?_, ?_⟩
  · exact ⟨(encodeDescriptorQuery { type := .SetSetting, key := ascii "k" }).getD [], by decide +kernel,
      by decide +kernel⟩
  · exact ⟨(encodeDescriptorQuery { type := .StatStoragePath
                                    storage_path := List.replicate 300 0x61 }).getD [],
      by decide +kernel, by decide +kernel⟩

end EspNowLink
