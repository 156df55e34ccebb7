import EspNowLink.Framework.Tlv
import EspNowLink.Pairing.Engine

namespace EspNowLink

open Framework

/-- `onRx`: the payload behind the time prefix, if the frame has one. -/
def SentFrame.effectivePayload (frame : SentFrame) : Option Bytes :=
  if frame.header.flags &&& kFrameFlagTimeSyncEpoch = 0 then some frame.payload
  else if frame.payload.length < kTimeSyncMetadataSize then none
  else some (frame.payload.drop kTimeSyncMetadataSize)

/-! The fields of the control payloads. -/

def seedField (f : Tlv) : Option PairSeed :=
  if h : f.tag = 0x10 ∧ f.type = 0x08 ∧ f.value.length = 16 then
    some ⟨⟨f.value.toArray, by simp [h.2.2]⟩⟩
  else none

def u32At (tag : UInt8) (f : Tlv) : Option UInt32 :=
  match f.value with
  | [b0, b1, b2, b3] =>
    if f.tag = tag ∧ f.type = 0x03 then some (readLe32 b0 b1 b2 b3) else none
  | _ => none

def u8At (tag : UInt8) (f : Tlv) : Option UInt8 :=
  match f.value with
  | [b] => if f.tag = tag ∧ f.type = 0x01 then some b else none
  | _ => none

/-- A loop that reads every field keeps the last one it knows. -/
def lastField {α : Type} (g : Tlv → Option α) (fs : List Tlv) : Option α := fs.reverse.findSome? g

def parsePairInitPayload (payload : Bytes) : Option (PairSeed × UInt32 × UInt8) := do
  let fs ← Tlv.decode payload
  return (← lastField seedField fs, ← lastField (u32At 0x11) fs, ← lastField (u8At 0x12) fs)

def parseNonceEchoPayload (payload : Bytes) (expected_tag : UInt8) : Option UInt32 :=
  Tlv.first (u32At expected_tag) payload

def parsePairConfirmAckPayload (payload : Bytes) : Option Bool :=
  (Tlv.first (u8At 0x40) payload).map (· == 1)

def parseChannelSwitchPayload (payload : Bytes) : Option ChannelSwitchPayload := do
  let fs ← Tlv.decode payload
  return ⟨← lastField (u8At 0x10) fs, ← lastField (u32At 0x11) fs⟩

/-- `onRxPairInit`: a target profile other than 0 has to be the local one. -/
def profileAccepted (local_profile_id profile : UInt8) : Bool :=
  local_profile_id == 0 || profile == 0 || profile == local_profile_id

/-- `processQueuedControlRx_`: what a received control frame asks of the engine. -/
def controlInput (local_profile_id : UInt8) (sender : MacAddress) (frame : SentFrame) :
    Option PairingInput := do
  let payload ← frame.effectivePayload
  let corr_id := frame.header.correlation_id
  match frame.header.type with
  | .Discovery => some (.discovery sender corr_id)
  | .PairInit =>
    let (seed, nonce, profile) ← parsePairInitPayload payload
    if profileAccepted local_profile_id profile then some (.pairInit sender corr_id seed nonce)
    else none
  | .PairInitAck => (parseNonceEchoPayload payload 0x20).map (.pairInitAck sender corr_id)
  | .PairConfirm => (parseNonceEchoPayload payload 0x30).map (.pairConfirm sender corr_id)
  | .PairConfirmAck => (parsePairConfirmAckPayload payload).map (.pairConfirmAck sender corr_id)
  | .PairBusy => some (.pairBusy sender corr_id)
  | .UnpairRequest => some (.unpairRequest sender corr_id)
  | .UnpairAck => some (.unpairAck sender corr_id)
  | .ChannelSwitchPrepare =>
    (parseChannelSwitchPayload payload).map (.channelSwitchPrepare sender corr_id)
  | .ChannelSwitchAck => some (.channelSwitchAck sender corr_id)
  | .ChannelSwitchCommitAck => some (.channelSwitchCommitAck sender corr_id)
  | _ => none

theorem appendTlv_bytes {tag type : UInt8} {value : Bytes} (h : value.length < 65536) :
    appendTlv tag type value = Tlv.bytes ⟨tag, type, value⟩ := by
  have hlo : value.length.toUInt16.toUInt8 = UInt8.ofNat value.length := by
    apply UInt8.toNat_inj.mp
    simp [Nat.toUInt16]
  have hhi : (value.length.toUInt16 >>> 8).toUInt8 = UInt8.ofNat (value.length / 256) := by
    apply UInt8.toNat_inj.mp
    simp [Nat.toUInt16, Nat.shiftRight_eq_div_pow]
    omega
  simp [appendTlv, Tlv.bytes, le16, hlo, hhi]

/-- A slave reads the seed and the nonce that the master put into its pair init. -/
theorem parsePairInitPayload_pairInitPayload (seed : PairSeed) (nonce : UInt32) (profile : UInt8) :
    parsePairInitPayload (pairInitPayload seed nonce profile) = some (seed, nonce, profile) := by
  have hbytes : pairInitPayload seed nonce profile = Tlv.encode [⟨0x01, 0x01, [1]⟩,
      ⟨0x10, 0x08, seed.bytes.toList⟩, ⟨0x11, 0x03, le32 nonce⟩, ⟨0x12, 0x01, [profile]⟩] := by
    simp only [pairInitPayload, Tlv.encode_cons, Tlv.encode_nil]
    rw [appendTlv_bytes (by simp), appendTlv_bytes (by simp), appendTlv_bytes (by simp),
      appendTlv_bytes (by simp)]
    simp
  have hshort : ∀ f ∈ ([⟨0x01, 0x01, [1]⟩, ⟨0x10, 0x08, seed.bytes.toList⟩, ⟨0x11, 0x03, le32 nonce⟩,
      ⟨0x12, 0x01, [profile]⟩] : List Tlv), f.value.length < 65536 := by simp
  have hdecode := Tlv.decode_encode hshort
  -- the profile field follows the nonce and is not one of its kind
  have hnonce : u32At 0x11 ⟨0x11, 0x03, le32 nonce⟩ = some nonce := by
    simp [u32At, le32, readLe32_le32]
  have hprofile : u32At 0x11 ⟨0x12, 0x01, [profile]⟩ = none := rfl
  rw [hbytes, parsePairInitPayload, hdecode]
  simp [lastField, u8At, hnonce, hprofile, seedField]
  obtain ⟨⟨bytes, hsize⟩⟩ := seed
  rfl

/-- A slave reads the switch that the master put into its prepare. -/
theorem parseChannelSwitchPayload_channelPreparePayload (p : ChannelSwitchPayload) :
    parseChannelSwitchPayload (channelPreparePayload p) = some p := by
  have hbytes : channelPreparePayload p =
      Tlv.encode [⟨0x10, 0x01, [p.new_channel]⟩, ⟨0x11, 0x03, le32 p.effective_at_ms⟩] := by
    simp only [channelPreparePayload, Tlv.encode_cons, Tlv.encode_nil]
    rw [appendTlv_bytes (by simp), appendTlv_bytes (by simp)]
    simp
  have hshort : ∀ f ∈ ([⟨0x10, 0x01, [p.new_channel]⟩, ⟨0x11, 0x03, le32 p.effective_at_ms⟩] :
      List Tlv), f.value.length < 65536 := by simp
  have hdecode := Tlv.decode_encode hshort
  have hnow : u32At 0x11 ⟨0x11, 0x03, le32 p.effective_at_ms⟩ = some p.effective_at_ms := by
    simp [u32At, le32, readLe32_le32]
  -- the time field follows the channel and is not one of its kind
  have hchannel : lastField (u8At 0x10) [⟨0x10, 0x01, [p.new_channel]⟩,
      ⟨0x11, 0x03, le32 p.effective_at_ms⟩] = some p.new_channel := rfl
  have heffective : lastField (u32At 0x11) [⟨0x10, 0x01, [p.new_channel]⟩,
      ⟨0x11, 0x03, le32 p.effective_at_ms⟩] = some p.effective_at_ms := by simp [lastField, hnow]
  rw [hbytes, parseChannelSwitchPayload, hdecode]
  simp only [Option.bind_eq_bind, Option.bind_some, hchannel, heffective]
  rfl

end EspNowLink
