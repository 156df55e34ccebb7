import EspNowLink.Codec.BuiltIn
import EspNowLink.Descriptor.Layout

open Framework

namespace EspNowLink

section Wrapping

variable {size : Format Nat} {magic kind : UInt8} {inner p : Bytes}

theorem wrap_eq_some : wrap size magic kind inner = some p ↔
    ∃ bs, size.put inner.length = some bs ∧ 3 + bs.length + inner.length ≤ kMaxPayload ∧
      p = magic :: kCodecVersion :: kind :: (bs ++ inner) := by
  rw [wrap, appendAll_eq (Nat.zero_le _), append_eq_some]
  cases size.put inner.length with
  | none => simp [joined]
  | some bs =>
    simp [joined]
    omega

/-- The decoder of a wrapping finds the inner payload. -/
theorem unwrap_wrap (h : wrap size magic kind inner = some p) : unwrap size magic kind p = some inner := by
  obtain ⟨bs, hsize, -, rfl⟩ := wrap_eq_some.mp h
  simp [unwrap, size.get_put hsize]

theorem unwrap_of_ne {b : UInt8} (hb : b ≠ magic) (rest : Bytes) :
    unwrap size magic kind (b :: rest) = none := by
  unfold unwrap
  split
  · rename_i m v k bs heq
    have hm : m ≠ magic := by
      cases heq
      exact hb
    rw [if_neg fun h => hm h.1]
  · rfl

variable (magic kind) in
/-- Five bytes go before the inner payload. -/
theorem wrap_count16 (hinner : inner.length ≤ kMaxPayload) :
    (∃ p, wrap count16 magic kind inner = some p) ↔ inner.length + 5 ≤ kMaxPayload := by
  have hput : count16.put inner.length = some (le16 (UInt16.ofNat inner.length)) := by
    have hlen : inner.length ≤ 65535 := Nat.le_trans hinner (by decide)
    simp [count16, hlen, u16Format]
  simp only [wrap_eq_some, hput, Option.some.injEq, exists_eq_left', le16_length]
  constructor
  · rintro ⟨p, hp, -⟩
    omega
  · intro h
    exact ⟨_, by omega, rfl⟩

theorem wrap_length (h : wrap size magic kind inner = some p) : p.length ≤ kMaxPayload := by
  obtain ⟨bs, -, hlen, rfl⟩ := wrap_eq_some.mp h
  simp
  omega

end Wrapping

/-- The codecs that wrap the default one. -/
def wrapsDefault : CodecId → Option UInt8
  | .PackedTlv => some kPackedMagicDesc
  | .CborLite => some kCborLiteMagicDesc
  | .BinaryMap => some kBinaryMapMagicDesc
  | _ => none

theorem find_of_wrapsDefault {id : CodecId} {magic : UInt8} (h : wrapsDefault id = some magic)
    (floats : FloatText) : id.find floats = wrappedProfileCodec magic := by
  cases id <;> cases h <;> rfl

/-- The codec produces a payload for every response whose default payload fits a frame, and reads from
it what the default decoder reads from the default payload. -/
def KeepsResponse (codec : ProfileCodec) (response : DescriptorResponse) : Prop :=
  ∀ payload, encodeResponsePayload response = some payload → payload.length ≤ kMaxPayload →
    ∃ p, codec.encodeDescriptorResponse response = some p ∧ p.length ≤ kMaxPayload ∧
      codec.decodeDescriptorResponse p = decodeDescriptorResponse payload

def KeepsQuery (codec : ProfileCodec) (query : DescriptorQuery) : Prop :=
  ∀ payload, encodeDescriptorQuery query = some payload → payload.length ≤ kMaxPayload →
    ∃ p, codec.encodeDescriptorQuery query = some p ∧ p.length ≤ kMaxPayload ∧
      codec.decodeDescriptorQuery p = parseDescriptorQuery payload

/-- The default payload leaves the five bytes of the wrapping free, or does not fit a frame itself. -/
def LeavesWrapping (payload : Option Bytes) : Prop :=
  ∀ bs ∈ payload, bs.length ≤ kMaxPayload → bs.length + 5 ≤ kMaxPayload

theorem wrapped_keepsResponse_iff (magic : UInt8) (response : DescriptorResponse) :
    KeepsResponse (wrappedProfileCodec magic) response ↔ LeavesWrapping (encodeResponsePayload response) := by
  constructor
  · intro h payload hpayload hfits
    obtain ⟨p, hp, -⟩ := h payload hpayload hfits
    simp only [wrappedProfileCodec, Option.mem_def.mp hpayload, Option.bind_some] at hp
    exact (wrap_count16 magic _ hfits).mp ⟨p, hp⟩
  · intro h payload hpayload hfits
    obtain ⟨p, hp⟩ := (wrap_count16 magic kKindResponse hfits).mpr
      (h payload hpayload hfits)
    refine ⟨p, ?_, wrap_length hp, ?_⟩
    · simp only [wrappedProfileCodec, hpayload, Option.bind_some, hp]
    · simp only [wrappedProfileCodec, unwrap_wrap hp]

theorem wrapped_keepsQuery_iff (magic : UInt8) (query : DescriptorQuery) :
    KeepsQuery (wrappedProfileCodec magic) query ↔ LeavesWrapping (encodeDescriptorQuery query) := by
  constructor
  · intro h payload hpayload hfits
    obtain ⟨p, hp, -⟩ := h payload hpayload hfits
    simp only [wrappedProfileCodec, Option.mem_def.mp hpayload, Option.bind_some] at hp
    exact (wrap_count16 magic _ hfits).mp ⟨p, hp⟩
  · intro h payload hpayload hfits
    obtain ⟨p, hp⟩ := (wrap_count16 magic kKindQuery hfits).mpr
      (h payload hpayload hfits)
    refine ⟨p, ?_, wrap_length hp, ?_⟩
    · simp only [wrappedProfileCodec, hpayload, Option.bind_some, hp]
    · simp only [wrappedProfileCodec, unwrap_wrap hp]

/-- A wrapping codec keeps the capacity of the default codec exactly on the payloads that leave its
five bytes free. -/
theorem wrapped_capacity_iff (id : CodecId) (hid : (wrapsDefault id).isSome) (floats : FloatText) :
    (∀ response, KeepsResponse (id.find floats) response ↔
      LeavesWrapping (encodeResponsePayload response)) ∧
    ∀ query, KeepsQuery (id.find floats) query ↔ LeavesWrapping (encodeDescriptorQuery query) := by
  obtain ⟨magic, hmagic⟩ := Option.isSome_iff_exists.mp hid
  rw [find_of_wrapsDefault hmagic]
  exact ⟨wrapped_keepsResponse_iff magic, wrapped_keepsQuery_iff magic⟩

def noFloats : FloatText := ⟨fun _ => none, fun _ => []⟩

theorem packed_capacity_iff :
    (∀ response, KeepsResponse packedTlvProfileCodec response ↔
      LeavesWrapping (encodeResponsePayload response)) ∧
    ∀ query, KeepsQuery packedTlvProfileCodec query ↔ LeavesWrapping (encodeDescriptorQuery query) :=
  wrapped_capacity_iff .PackedTlv rfl noFloats

/-- An error text and a key that fill a default payload to its last byte. -/
def longError : DescriptorResponse := { type := .Error, message := List.replicate 221 0x61 }
def longKey : DescriptorQuery := { type := .GetSetting, key := List.replicate 221 0x61 }

theorem full_payload_not_kept :
    ¬ KeepsResponse packedTlvProfileCodec longError ∧ ¬ KeepsResponse cborLiteProfileCodec longError ∧
    ¬ KeepsResponse binaryMapProfileCodec longError ∧
    ¬ KeepsQuery packedTlvProfileCodec longKey ∧ ¬ KeepsQuery cborLiteProfileCodec longKey ∧
    ¬ KeepsQuery binaryMapProfileCodec longKey := by
  have hresponse : (encodeResponsePayload longError).map List.length = some 235 ∧
      packedTlvProfileCodec.encodeDescriptorResponse longError = none ∧
      cborLiteProfileCodec.encodeDescriptorResponse longError = none ∧
      binaryMapProfileCodec.encodeDescriptorResponse longError = none := by decide +kernel
  have hquery : (encodeDescriptorQuery longKey).map List.length = some 235 ∧
      packedTlvProfileCodec.encodeDescriptorQuery longKey = none ∧
      cborLiteProfileCodec.encodeDescriptorQuery longKey = none ∧
      binaryMapProfileCodec.encodeDescriptorQuery longKey = none := by decide +kernel
  obtain ⟨payload, hpayload, hlen⟩ := Option.map_eq_some_iff.mp hresponse.1
  obtain ⟨query, hq, hqlen⟩ := Option.map_eq_some_iff.mp hquery.1
  have response_refused : ∀ codec : ProfileCodec, codec.encodeDescriptorResponse longError = none →
      ¬ KeepsResponse codec longError := by
    intro codec hnone h
    obtain ⟨p, hp, -⟩ := h payload hpayload (Nat.le_of_eq hlen)
    rw [hnone] at hp
    cases hp
  have query_refused : ∀ codec : ProfileCodec, codec.encodeDescriptorQuery longKey = none →
      ¬ KeepsQuery codec longKey := by
    intro codec hnone h
    obtain ⟨p, hp, -⟩ := h query hq (Nat.le_of_eq hqlen)
    rw [hnone] at hp
    cases hp
  exact ⟨response_refused _ hresponse.2.1, response_refused _ hresponse.2.2.1,
    response_refused _ hresponse.2.2.2, query_refused _ hquery.2.1, query_refused _ hquery.2.2.1,
    query_refused _ hquery.2.2.2⟩

end EspNowLink
