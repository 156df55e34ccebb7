import EspNowLink.Core.WireReads
import EspNowLink.Ota.FinalizeTruth

namespace EspNowLink

open Framework

/-- The payload that `sendFirmwareBegin` hands to the transport; without one it sends nothing. -/
def sendFirmwareBegin (local_role : Role) (total_size chunk_size image_crc32 : UInt32)
    (metadata : Option FirmwareImageMetadata) : Option Bytes :=
  if local_role ≠ .Master ∨ total_size = 0 ∨ chunk_size = 0 then none
  else
    let metadata := metadata.getD OtaManager.noMetadata
    if metadata.sw_version.length > 63 ∨ metadata.build_id.length > 63 ∨ metadata.target_role.length > 15 then
      none
    else some (beginPayload total_size chunk_size image_crc32 metadata)

/-- `handleFirmwareBegin`'s reading of the metadata; the outer `none` is a read outside the memory. -/
def readFirmwareMetadata (mem : Nat → Option UInt8) (len : Nat) : Option (Option FirmwareImageMetadata) :=
  if len > 12 then
    if len < 16 then some none
    else do
      let magic ← mem 12
      if magic ≠ kFirmwareMetaMagic then some none
      else do
        let meta_version ← mem 13
        let sw_len ← mem 14
        let build_len ← mem 15
        if sw_len > 63 ∨ build_len > 63 then some none
        else if meta_version = kFirmwareMetaVersionV1 then
          if 16 + sw_len.toNat + build_len.toNat ≠ len then some none
          else do
            let sw_version ← Tlv.slice mem sw_len.toNat 16
            let build_id ← Tlv.slice mem build_len.toNat (16 + sw_len.toNat)
            some (some ⟨sw_version, build_id, []⟩)
        else if meta_version = kFirmwareMetaVersionV2 then
          if len < 17 then some none
          else do
            let role_len ← mem 16
            if role_len > 15 then some none
            else if 17 + sw_len.toNat + build_len.toNat + role_len.toNat ≠ len then some none
            else do
              let sw_version ← Tlv.slice mem sw_len.toNat 17
              let build_id ← Tlv.slice mem build_len.toNat (17 + sw_len.toNat)
              let target_role ← Tlv.slice mem role_len.toNat (17 + sw_len.toNat + build_len.toNat)
              some (some ⟨sw_version, build_id, target_role⟩)
        else some none
  else some (some OtaManager.noMetadata)

def readFirmwareBegin (mem : Nat → Option UInt8) (len : Nat) :
    Option (Option (UInt32 × UInt32 × UInt32 × FirmwareImageMetadata)) :=
  if len < 12 then some none
  else do
    let total_size ← readLe32Mem mem 0
    let chunk_size ← readLe32Mem mem 4
    let crc ← readLe32Mem mem 8
    let metadata ← readFirmwareMetadata mem len
    some (metadata.map fun metadata => (total_size, chunk_size, crc, metadata))

/-- The size that a begin payload has by the lengths it declares. -/
def declaredBeginSize (payload : Bytes) : Option Nat :=
  match payload.drop 12 with
  | [] => some 12
  | _ :: meta_version :: sw_len :: build_len :: body =>
    if meta_version = kFirmwareMetaVersionV1 then some (16 + sw_len.toNat + build_len.toNat)
    else if meta_version = kFirmwareMetaVersionV2 then
      body.head?.map fun role_len => 17 + sw_len.toNat + build_len.toNat + role_len.toNat
    else none
  | _ => none

/-- What `handleFirmwareBegin` does with the sizes and the metadata that it has read. -/
def SlaveReception.begins (s : SlaveReception) (sender : MacAddress)
    (corr_id total_size chunk_size crc : UInt32) (metadata : FirmwareImageMetadata) (env : BeginEnvironment) :
    Bool × List FirmwareStatus × SlaveReception :=
  let (ok, sink) := s.sink.beginReceive sender corr_id total_size chunk_size crc metadata env
  (ok, ({ s with sink := sink } : SlaveReception).beginAnswered ok corr_id total_size chunk_size)

section Metadata

variable {metadata : FirmwareImageMetadata}

theorem toUInt8_toNat {n m : Nat} (h : n ≤ m) (hm : m < 256) : n.toUInt8.toNat = n := by
  show n % 256 = n
  exact Nat.mod_eq_of_lt (by omega)

theorem not_longer {n m : Nat} (h : n ≤ m) (hm : m < 256) : ¬ n.toUInt8 > m.toUInt8 := by
  rw [gt_iff_lt, UInt8.lt_iff_toNat_lt, toUInt8_toNat h hm, toUInt8_toNat le_rfl hm]
  omega

/-- The metadata part of a begin payload. -/
def metadataBytes (metadata : FirmwareImageMetadata) : Bytes :=
  if metadata.sw_version.isEmpty && metadata.build_id.isEmpty && metadata.target_role.isEmpty then []
  else if metadata.target_role.isEmpty then
    [kFirmwareMetaMagic, kFirmwareMetaVersionV1, metadata.sw_version.length.toUInt8,
      metadata.build_id.length.toUInt8] ++ metadata.sw_version ++ metadata.build_id
  else
    [kFirmwareMetaMagic, kFirmwareMetaVersionV2, metadata.sw_version.length.toUInt8,
      metadata.build_id.length.toUInt8, metadata.target_role.length.toUInt8] ++
      metadata.sw_version ++ metadata.build_id ++ metadata.target_role

theorem parseFirmwareBegin_beginPayload (total_size chunk_size crc : UInt32) :
    parseFirmwareBegin (beginPayload total_size chunk_size crc metadata) =
      (parseFirmwareMetadata (metadataBytes metadata)).map fun metadata =>
        (total_size, chunk_size, crc, metadata) := by
  have hparts : beginPayload total_size chunk_size crc metadata =
      le32 total_size ++ le32 chunk_size ++ le32 crc ++ metadataBytes metadata := rfl
  rw [hparts]
  simp only [le32, List.cons_append, List.nil_append, parseFirmwareBegin, readLe32_le32]

/-- The receiver reads every metadata within the sender's limits as it was. -/
theorem parseFirmwareMetadata_metadataBytes (hsw : metadata.sw_version.length ≤ 63)
    (hbuild : metadata.build_id.length ≤ 63) (hrole : metadata.target_role.length ≤ 15) :
    parseFirmwareMetadata (metadataBytes metadata) = some metadata := by
  obtain ⟨sw, build, role⟩ := metadata
  dsimp only at hsw hbuild hrole
  have hlimit : ¬ (sw.length.toUInt8 > 63 ∨ build.length.toUInt8 > 63) := by
    rw [not_or]
    exact ⟨not_longer hsw (by decide), not_longer hbuild (by decide)⟩
  have hswlen := toUInt8_toNat hsw (by decide)
  have hbuildlen := toUInt8_toNat hbuild (by decide)
  unfold metadataBytes
  dsimp only
  split
  · rename_i hempty
    simp only [Bool.and_eq_true, List.isEmpty_iff] at hempty
    obtain ⟨⟨rfl, rfl⟩, rfl⟩ := hempty
    rfl
  · split
    · rename_i hnone
      obtain rfl := List.isEmpty_iff.mp hnone
      simp only [List.cons_append, List.nil_append, parseFirmwareMetadata, ne_eq, not_true_eq_false,
        if_false, if_true, hlimit, hswlen, hbuildlen, List.length_append]
      simp
    · have hrolelen := toUInt8_toNat hrole (by decide)
      have hrolelimit : ¬ role.length.toUInt8 > 15 := not_longer hrole (by decide)
      have hversion : kFirmwareMetaVersionV2 ≠ kFirmwareMetaVersionV1 := by decide
      simp only [List.cons_append, List.nil_append, parseFirmwareMetadata, ne_eq, not_true_eq_false,
        if_false, if_true, hlimit, hversion, hrolelimit, hswlen, hbuildlen, hrolelen, List.length_append]
      simp

end Metadata

section Declared

variable {payload : Bytes}

/-- What is read has the size it declares. -/
theorem declaredBeginSize_of_parse {begun : UInt32 × UInt32 × UInt32 × FirmwareImageMetadata}
    (h : parseFirmwareBegin payload = some begun) : declaredBeginSize payload = some payload.length := by
  unfold parseFirmwareBegin at h
  split at h
  · rename_i t0 t1 t2 t3 c0 c1 c2 c3 k0 k1 k2 k3 rest
    obtain ⟨metadata, hmeta, -⟩ := Option.map_eq_some_iff.mp h
    rw [declaredBeginSize]
    simp only [List.drop_succ_cons, List.drop_zero, List.length_cons]
    unfold parseFirmwareMetadata at hmeta
    dsimp only at hmeta
    split at hmeta
    · rfl
    · rename_i magic meta_version sw_len build_len body
      dsimp only
      split at hmeta
      · cases hmeta
      split at hmeta
      · cases hmeta
      split at hmeta
      · rename_i hone
        split at hmeta
        · cases hmeta
        · rename_i hlength
          rw [if_pos hone]
          simp only [List.length_cons, Option.some.injEq]
          omega
      · rename_i hone
        split at hmeta
        · rename_i htwo
          rw [if_neg hone, if_pos htwo]
          split at hmeta
          · cases hmeta
          · split at hmeta
            · cases hmeta
            split at hmeta
            · cases hmeta
            · rename_i hlength
              simp only [List.head?_cons, Option.map_some, List.length_cons, Option.some.injEq]
              omega
        · cases hmeta
    · cases hmeta
  · cases h

end Declared

section Memory

variable {mem : Nat → Option UInt8} {payload : Bytes}

/-- The metadata is read inside the payload, and as the parser on lists has it. -/
theorem readFirmwareMetadata_eq {rest : Bytes} (h : Holds mem 12 rest) :
    readFirmwareMetadata mem (12 + rest.length) = some (parseFirmwareMetadata rest) := by
  rw [readFirmwareMetadata]
  match rest, h with
  | [], _ => rfl
  | [_], _ | [_, _], _ | [_, _, _], _ => rfl
  | magic :: meta_version :: sw_len :: build_len :: body, h =>
    have hbody : Holds mem 16 body := h.drop 4
    have hlength : (magic :: meta_version :: sw_len :: build_len :: body).length = body.length + 4 := rfl
    rw [if_pos (by omega), if_neg (by omega), hlength, h.head, h.tail.head, h.tail.tail.head,
      h.tail.tail.tail.head, parseFirmwareMetadata.eq_def]
    simp only [Option.bind_eq_bind, Option.bind_some]
    by_cases hmagic : magic = kFirmwareMetaMagic
    · rw [if_neg (not_not.mpr hmagic), if_neg (not_not.mpr hmagic)]
      by_cases hlimit : sw_len > 63 ∨ build_len > 63
      · rw [if_pos hlimit, if_pos hlimit]
      rw [if_neg hlimit, if_neg hlimit]
      by_cases hone : meta_version = kFirmwareMetaVersionV1
      · rw [if_pos hone, if_pos hone]
        by_cases hsize : body.length = sw_len.toNat + build_len.toNat
        · rw [if_neg (by omega), if_neg (by omega), hbody.slice (by omega),
            (hbody.drop _).slice (by rw [List.length_drop]; omega)]
          have hrest : (body.drop sw_len.toNat).take build_len.toNat = body.drop sw_len.toNat := by
            refine List.take_of_length_le ?_
            rw [List.length_drop]
            omega
          simp only [Option.bind_some, hrest]
        · rw [if_pos (by omega), if_pos hsize]
      rw [if_neg hone, if_neg hone]
      by_cases htwo : meta_version = kFirmwareMetaVersionV2
      · rw [if_pos htwo, if_pos htwo]
        match body, hbody with
        | [], _ => rfl
        | role_len :: text, hbody =>
          have htext : Holds mem 17 text := hbody.tail
          rw [List.length_cons, if_neg (by omega), hbody.head]
          dsimp only [Option.bind_some]
          by_cases hrole : role_len > 15
          · rw [if_pos hrole, if_pos hrole]
          rw [if_neg hrole, if_neg hrole]
          by_cases hsize : text.length = sw_len.toNat + build_len.toNat + role_len.toNat
          · rw [if_neg (by omega), if_neg (by omega), htext.slice (by omega),
              (htext.drop _).slice (by rw [List.length_drop]; omega), Nat.add_assoc 17,
              (htext.drop _).slice (by rw [List.length_drop]; omega)]
            have hrest : (text.drop (sw_len.toNat + build_len.toNat)).take role_len.toNat =
                text.drop (sw_len.toNat + build_len.toNat) := by
              refine List.take_of_length_le ?_
              rw [List.length_drop]
              omega
            simp only [Option.bind_some, hrest]
          · rw [if_pos (by omega), if_pos hsize]
      · rw [if_neg htwo, if_neg htwo]
    · rw [if_pos hmagic, if_pos hmagic]

theorem readFirmwareBegin_eq (h : Holds mem 0 payload) :
    readFirmwareBegin mem payload.length = some (parseFirmwareBegin payload) := by
  rw [readFirmwareBegin]
  by_cases hshort : payload.length < 12
  · have hnone : parseFirmwareBegin payload = none := by
      unfold parseFirmwareBegin
      split
      · simp only [List.length_cons] at hshort
        omega
      · rfl
    rw [if_pos hshort, hnone]
  · match payload, h with
    | t0 :: t1 :: t2 :: t3 :: c0 :: c1 :: c2 :: c3 :: k0 :: k1 :: k2 :: k3 :: rest, h =>
      have hchunk : Holds mem 4 (c0 :: c1 :: c2 :: c3 :: k0 :: k1 :: k2 :: k3 :: rest) := h.drop 4
      have hcrc : Holds mem 8 (k0 :: k1 :: k2 :: k3 :: rest) := h.drop 8
      have hrest : Holds mem 12 rest := h.drop 12
      have hlength : (t0 :: t1 :: t2 :: t3 :: c0 :: c1 :: c2 :: c3 :: k0 :: k1 :: k2 :: k3 :: rest).length =
          12 + rest.length := by
        simp only [List.length_cons]
        omega
      rw [if_neg hshort, readLe32Mem_eq h, readLe32Mem_eq hchunk, readLe32Mem_eq hcrc, hlength,
        readFirmwareMetadata_eq hrest]
      rfl
    | [], _ | [_], _ | [_, _], _ | [_, _, _], _ | [_, _, _, _], _ | [_, _, _, _, _], _
    | [_, _, _, _, _, _], _ | [_, _, _, _, _, _, _], _ | [_, _, _, _, _, _, _, _], _
    | [_, _, _, _, _, _, _, _, _], _ | [_, _, _, _, _, _, _, _, _, _], _
    | [_, _, _, _, _, _, _, _, _, _, _], _ => exact absurd (by simp) hshort

end Memory

/-- What `sendFirmwareBegin` sends reaches the sink with the same sizes and metadata, a payload whose
lengths do not add up does not reach it, and no payload is read outside its bytes. -/
theorem firmware_begin_round_trip :
    (∀ local_role total_size chunk_size crc metadata payload,
      sendFirmwareBegin local_role total_size chunk_size crc metadata = some payload →
        parseFirmwareBegin payload =
            some (total_size, chunk_size, crc, metadata.getD OtaManager.noMetadata) ∧
          ∀ (s : SlaveReception) sender corr_id env, s.handleFirmwareBegin sender corr_id payload env =
            s.begins sender corr_id total_size chunk_size crc (metadata.getD OtaManager.noMetadata) env) ∧
    (∀ payload, declaredBeginSize payload ≠ some payload.length →
      ∀ (s : SlaveReception) sender corr_id env,
        s.handleFirmwareBegin sender corr_id payload env = (false, [], s)) ∧
    ∀ mem payload, Holds mem 0 payload →
      readFirmwareBegin mem payload.length = some (parseFirmwareBegin payload) := by
  refine ⟨?_, ?_, fun mem payload h => readFirmwareBegin_eq h⟩
  · intro local_role total_size chunk_size crc metadata payload hsend
    unfold sendFirmwareBegin at hsend
    split at hsend
    · cases hsend
    · dsimp only at hsend
      split at hsend
      · cases hsend
      · rename_i hlimits
        simp only [not_or, not_lt, gt_iff_lt] at hlimits
        obtain ⟨hsw, hbuild, hrole⟩ := hlimits
        obtain rfl := Option.some.inj hsend
        have hread : parseFirmwareBegin (beginPayload total_size chunk_size crc
            (metadata.getD OtaManager.noMetadata)) =
              some (total_size, chunk_size, crc, metadata.getD OtaManager.noMetadata) := by
          rw [parseFirmwareBegin_beginPayload, parseFirmwareMetadata_metadataBytes hsw hbuild hrole]
          rfl
        refine ⟨hread, fun s sender corr_id env => ?_⟩
        rw [SlaveReception.handleFirmwareBegin_eq, hread]
        rfl
  · intro payload hsize s sender corr_id env
    rw [SlaveReception.handleFirmwareBegin_eq]
    cases hparse : parseFirmwareBegin payload with
    | none => rfl
    | some begun => exact absurd (declaredBeginSize_of_parse hparse) hsize

/-- The longest texts that are sent are read. -/
example : (sendFirmwareBegin .Master 1000 100 7
    (some ⟨List.replicate 63 49, List.replicate 63 50, List.replicate 15 51⟩)).bind parseFirmwareBegin =
      some (1000, 100, 7, ⟨List.replicate 63 49, List.replicate 63 50, List.replicate 15 51⟩) := by
  decide +kernel

end EspNowLink
