import EspNowLink.Framework.TlvFields
import EspNowLink.Pairing.ControlFrames

namespace EspNowLink

open Framework

/-! The parsers of the control payloads over memory; an outer `none` is a read outside the memory. -/

/-- One turn of `parsePairInitPayload`'s loop: the field that was met replaces the one before it. -/
def pairInitStep (s : Option PairSeed × Option UInt32 × Option UInt8) (f : Tlv) :
    Option PairSeed × Option UInt32 × Option UInt8 :=
  ((seedField f).or s.1, (u32At 0x11 f).or s.2.1, (u8At 0x12 f).or s.2.2)

def readPairInitPayload (mem : Nat → Option UInt8) (len : Nat) : Option (Option (PairSeed × UInt32 × UInt8)) :=
  (Tlv.readFrom (fun s f => some (pairInitStep s f)) mem len 0 (none, none, none)).map fun read => do
    let s ← read
    return (← s.1, ← s.2.1, ← s.2.2)

def readNonceEchoPayload (mem : Nat → Option UInt8) (len : Nat) (expected_tag : UInt8) :
    Option (Option UInt32) :=
  Tlv.firstAt (u32At expected_tag) mem len 0

def readPairConfirmAckPayload (mem : Nat → Option UInt8) (len : Nat) : Option (Option Bool) :=
  (Tlv.firstAt (u8At 0x40) mem len 0).map fun read => read.map (· == 1)

def channelSwitchStep (s : Option UInt8 × Option UInt32) (f : Tlv) : Option UInt8 × Option UInt32 :=
  ((u8At 0x10 f).or s.1, (u32At 0x11 f).or s.2)

def readChannelSwitchPayload (mem : Nat → Option UInt8) (len : Nat) : Option (Option ChannelSwitchPayload) :=
  (Tlv.readFrom (fun s f => some (channelSwitchStep s f)) mem len 0 (none, none)).map fun read => do
    let s ← read
    return ⟨← s.1, ← s.2⟩

section Loops

variable {α : Type} {g : Tlv → Option α}

theorem lastField_cons (f : Tlv) (fs : List Tlv) : lastField g (f :: fs) = (lastField g fs).or (g f) := by
  unfold lastField
  rw [List.reverse_cons, List.findSome?_append]
  cases h : g f with
  | none => simp [h]
  | some a => simp [h]

theorem lastField_none {fs : List Tlv} (h : ∀ f ∈ fs, g f = none) : lastField g fs = none :=
  List.findSome?_eq_none_iff.mpr fun f hf => h f (List.mem_reverse.mp hf)

theorem foldl_pairInitStep (fs : List Tlv) (s : Option PairSeed × Option UInt32 × Option UInt8) :
    fs.foldl pairInitStep s =
      ((lastField seedField fs).or s.1, (lastField (u32At 0x11) fs).or s.2.1,
        (lastField (u8At 0x12) fs).or s.2.2) := by
  induction fs generalizing s with
  | nil => rfl
  | cons f fs ih =>
    rw [List.foldl_cons, ih, lastField_cons, lastField_cons, lastField_cons]
    simp only [pairInitStep, Option.or_assoc]

theorem foldl_channelSwitchStep (fs : List Tlv) (s : Option UInt8 × Option UInt32) :
    fs.foldl channelSwitchStep s =
      ((lastField (u8At 0x10) fs).or s.1, (lastField (u32At 0x11) fs).or s.2) := by
  induction fs generalizing s with
  | nil => rfl
  | cons f fs ih =>
    rw [List.foldl_cons, ih, lastField_cons, lastField_cons]
    simp only [channelSwitchStep, Option.or_assoc]

end Loops

section Memory

variable {mem : Nat → Option UInt8} {payload : Bytes}

/-- A loop whose turns never fail runs through the fields of the stream. -/
theorem readFrom_steps {σ : Type} (step : σ → Tlv → σ) (s : σ) (h : Holds mem 0 payload) :
    Tlv.readFrom (fun s f => some (step s f)) mem payload.length 0 s =
      some ((Tlv.decode payload).map (·.foldl step s)) := by
  have hmem : ∀ i < payload.length, mem i = payload[i]? := by
    intro i hi
    simpa using h i hi
  have hpure : ∀ fs : List Tlv, fs.foldlM (fun s f => some (step s f)) s = some (fs.foldl step s) :=
    fun fs => List.foldlM_pure
  rw [Tlv.readFrom_eq hmem (Nat.zero_le _), List.drop_zero]
  cases Tlv.decode payload with
  | none => rfl
  | some fs => exact congrArg some (hpure fs)

theorem readPairInitPayload_eq (h : Holds mem 0 payload) :
    readPairInitPayload mem payload.length = some (parsePairInitPayload payload) := by
  rw [readPairInitPayload, readFrom_steps pairInitStep _ h, parsePairInitPayload]
  cases Tlv.decode payload with
  | none => rfl
  | some fs =>
    simp only [Option.map_some, foldl_pairInitStep, Option.or_none]
    rfl

theorem readNonceEchoPayload_eq (expected_tag : UInt8) (h : Holds mem 0 payload) :
    readNonceEchoPayload mem payload.length expected_tag =
      some (parseNonceEchoPayload payload expected_tag) :=
  Tlv.firstAt_eq h (Nat.zero_add _)

theorem readPairConfirmAckPayload_eq (h : Holds mem 0 payload) :
    readPairConfirmAckPayload mem payload.length = some (parsePairConfirmAckPayload payload) := by
  rw [readPairConfirmAckPayload, Tlv.firstAt_eq h (Nat.zero_add _)]
  rfl

theorem readChannelSwitchPayload_eq (h : Holds mem 0 payload) :
    readChannelSwitchPayload mem payload.length = some (parseChannelSwitchPayload payload) := by
  rw [readChannelSwitchPayload, readFrom_steps channelSwitchStep _ h, parseChannelSwitchPayload]
  cases Tlv.decode payload with
  | none => rfl
  | some fs =>
    simp only [Option.map_some, foldl_channelSwitchStep, Option.or_none]
    rfl

end Memory

section Missing

variable {payload : Bytes}

/-- No field of the payload is of the kind. -/
def Lacks {α : Type} (g : Tlv → Option α) (payload : Bytes) : Prop := ∀ f ∈ Tlv.fields payload, g f = none

theorem lastField_lacks {α : Type} {g : Tlv → Option α} {fs : List Tlv} (h : Lacks g payload)
    (hdecode : Tlv.decode payload = some fs) : lastField g fs = none :=
  lastField_none (Tlv.fields_of_decode hdecode ▸ h)

theorem parsePairInitPayload_lacks
    (h : Lacks seedField payload ∨ Lacks (u32At 0x11) payload ∨ Lacks (u8At 0x12) payload) :
    parsePairInitPayload payload = none := by
  rw [parsePairInitPayload]
  cases hdecode : Tlv.decode payload with
  | none => rfl
  | some fs =>
    simp only [Option.bind_eq_bind, Option.bind_some]
    rcases h with hseed | hnonce | hprofile
    · rw [lastField_lacks hseed hdecode]
      rfl
    · rw [lastField_lacks hnonce hdecode]
      cases lastField seedField fs <;> rfl
    · rw [lastField_lacks hprofile hdecode]
      cases lastField seedField fs <;> cases lastField (u32At 0x11) fs <;> rfl

theorem parseNonceEchoPayload_lacks {expected_tag : UInt8} (h : Lacks (u32At expected_tag) payload) :
    parseNonceEchoPayload payload expected_tag = none := Tlv.first_none h

theorem parsePairConfirmAckPayload_lacks (h : Lacks (u8At 0x40) payload) :
    parsePairConfirmAckPayload payload = none := by
  rw [parsePairConfirmAckPayload, Tlv.first_none h]
  rfl

theorem parseChannelSwitchPayload_lacks (h : Lacks (u8At 0x10) payload ∨ Lacks (u32At 0x11) payload) :
    parseChannelSwitchPayload payload = none := by
  rw [parseChannelSwitchPayload]
  cases hdecode : Tlv.decode payload with
  | none => rfl
  | some fs =>
    simp only [Option.bind_eq_bind, Option.bind_some]
    rcases h with hchannel | htime
    · rw [lastField_lacks hchannel hdecode]
      rfl
    · rw [lastField_lacks htime hdecode]
      cases lastField (u8At 0x10) fs <;> rfl

end Missing

/-- The peer reads the nonce that was echoed to it. -/
theorem parseNonceEchoPayload_appendTlv (tag : UInt8) (nonce : UInt32) :
    parseNonceEchoPayload (appendTlv tag 0x03 (le32 nonce)) tag = some nonce := by
  have hfield : u32At tag ⟨tag, 0x03, le32 nonce⟩ = some nonce := by
    simp [u32At, le32, readLe32_le32]
  have hread := Tlv.first_bytes (f := ⟨tag, 0x03, le32 nonce⟩) (by simp) hfield []
  rw [parseNonceEchoPayload, appendTlv_bytes (by simp)]
  simpa using hread

end EspNowLink
