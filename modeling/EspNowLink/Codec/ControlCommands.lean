import EspNowLink.Codec.Wrapped
import EspNowLink.Core.PullTraffic

open Framework

namespace EspNowLink

def buildControlCommandPayload (cmd_id : UInt16) : Bytes :=
  Tlv.encode [u8Field 0x01 1, u16Field 0x10 cmd_id]

/-- The control commands of an `IProfileCodec`. -/
structure ControlCodec where
  encodeControlCommand : UInt16 → Option Bytes
  decodeControlCommand : Bytes → Option UInt16

def defaultControlCodec : ControlCodec where
  encodeControlCommand cmd_id := some (buildControlCommandPayload cmd_id)
  decodeControlCommand := parseControlCommandPayload

def kControlMagic : UInt8 := 0xC2
def kKindCommand : UInt8 := 1

def compactControlCodec : ControlCodec where
  encodeControlCommand cmd_id := appendAll [] [some [kControlMagic], some [kKindCommand], u16Format.put cmd_id]
  decodeControlCommand payload :=
    match payload with
    | [magic, kind, lo, hi] =>
      if magic = kControlMagic ∧ kind = kKindCommand then some (readLe16 lo hi)
      else parseControlCommandPayload payload
    | _ => parseControlCommandPayload payload

/-- A codec that wraps its command. What carries no wrapping is left to the default parser. -/
def wrappedControlCodec (size : Format Nat) (magic : UInt8) (write : UInt16 → Option Bytes)
    (read : Bytes → Option UInt16) : ControlCodec where
  encodeControlCommand cmd_id := (write cmd_id).bind (wrap size magic kKindCommand)
  decodeControlCommand payload :=
    match unwrap size magic kKindCommand payload with
    | some inner => read inner
    | none => parseControlCommandPayload payload

/-- A command that is one number, read to the last byte. -/
def readNumber (number : Format UInt16) (inner : Bytes) : Option UInt16 :=
  (number.get inner).bind fun x => if x.2.isEmpty then some x.1 else none

def kPackedMagicCtrl : UInt8 := 0xD2
def kVarintMagicCtrl : UInt8 := 0xE2
def kDeltaMagicCtrl : UInt8 := 0xF2
def kCborLiteMagicCtrl : UInt8 := 0xA2
def kBinaryMapMagicCtrl : UInt8 := 0xB2

/-- The codecs that wrap the default command. -/
def wrappedDefaultControl (magic : UInt8) : ControlCodec :=
  wrappedControlCodec count16 magic (fun cmd_id => some (buildControlCommandPayload cmd_id))
    parseControlCommandPayload

def CodecId.control : CodecId → ControlCodec
  | .Default => defaultControlCodec
  | .CompactIndexed => compactControlCodec
  | .PackedTlv => wrappedDefaultControl kPackedMagicCtrl
  | .VarintTlv => wrappedControlCodec countVar kVarintMagicCtrl varU16Format.put (readNumber varU16Format)
  | .DeltaBinary => wrappedControlCodec count16 kDeltaMagicCtrl u16Format.put (readNumber u16Format)
  | .CborLite => wrappedDefaultControl kCborLiteMagicCtrl
  | .BinaryMap => wrappedDefaultControl kBinaryMapMagicCtrl

section DefaultParser

/-- The parser stops at no field but the one of a command. -/
def carriesCommand (f : Tlv) : Prop := f.tag = 0x10 ∧ f.type = 0x02 ∧ f.value.length = 2

theorem commandIdFrom_bytes {f : Tlv} (hf : f.value.length < 65536) (hplain : ¬ carriesCommand f) (n : Nat)
    (rest : Bytes) : commandIdFrom (n + 1) (f.bytes ++ rest) = commandIdFrom n rest := by
  have hlen : (UInt8.ofNat f.value.length).toNat + 256 * (UInt8.ofNat (f.value.length / 256)).toNat
      = f.value.length := by
    rw [UInt8.toNat_ofNat', UInt8.toNat_ofNat']
    omega
  have hskip : ¬ (f.tag = 0x10 ∧ f.type = 0x02 ∧ f.value.length = 2) := hplain
  simp only [Tlv.bytes, List.cons_append, commandIdFrom, hlen]
  rw [if_neg (by rw [List.length_append]; omega), if_neg hskip, List.drop_left]

theorem commandIdFrom_encode {fs : List Tlv} (hfs : ∀ f ∈ fs, f.value.length < 65536)
    (hplain : ∀ f ∈ fs, ¬ carriesCommand f) (n : Nat) : commandIdFrom n (Tlv.encode fs) = none := by
  induction fs generalizing n with
  | nil => cases n <;> rfl
  | cons f fs ih =>
    cases n with
    | zero => rfl
    | succ n =>
      rw [Tlv.encode_cons, commandIdFrom_bytes (hfs f (by simp)) (hplain f (by simp))]
      exact ih (fun g hg => hfs g (by simp [hg])) (fun g hg => hplain g (by simp [hg])) n

theorem parseControlCommandPayload_overruns {payload : Bytes} (h : Tlv.Overruns payload) :
    parseControlCommandPayload payload = none := by
  match payload with
  | tag :: type :: lo :: hi :: rest =>
    have hlong : rest.length < lo.toNat + 256 * hi.toNat := h
    simp [parseControlCommandPayload, commandIdFrom, hlong]

theorem parse_buildControl (cmd_id : UInt16) :
    parseControlCommandPayload (buildControlCommandPayload cmd_id) = some cmd_id := by
  have hbytes : buildControlCommandPayload cmd_id =
      [0x01, 0x01, 1, 0, 1, 0x10, 0x02, 2, 0, cmd_id.toUInt8, (cmd_id >>> 8).toUInt8] := by
    simp [buildControlCommandPayload, Tlv.bytes, u8Field, u16Field, le16]
  simp [hbytes, parseControlCommandPayload, commandIdFrom, readLe16_le16]

end DefaultParser

theorem readNumber_put {number : Format UInt16} {cmd_id : UInt16} {inner : Bytes}
    (h : number.put cmd_id = some inner) : readNumber number inner = some cmd_id := by
  have hget := number.get_put h []
  rw [List.append_nil] at hget
  rw [readNumber, hget]
  rfl

theorem wrappedControl_decode {size : Format Nat} {magic : UInt8} {write : UInt16 → Option Bytes}
    {read : Bytes → Option UInt16} {cmd_id : UInt16} {p : Bytes}
    (hread : ∀ inner, write cmd_id = some inner → read inner = some cmd_id)
    (hp : (wrappedControlCodec size magic write read).encodeControlCommand cmd_id = some p) :
    (wrappedControlCodec size magic write read).decodeControlCommand p = some cmd_id := by
  obtain ⟨inner, hinner, hwrap⟩ := Option.bind_eq_some_iff.mp hp
  simp only [wrappedControlCodec, unwrap_wrap hwrap]
  exact hread inner hinner

theorem wrappedDefaultControl_decode {magic : UInt8} {cmd_id : UInt16} {p : Bytes}
    (hp : (wrappedDefaultControl magic).encodeControlCommand cmd_id = some p) :
    (wrappedDefaultControl magic).decodeControlCommand p = some cmd_id := by
  refine wrappedControl_decode ?_ hp
  intro inner hinner
  cases hinner
  exact parse_buildControl cmd_id

/-- Every codec reads its own commands. -/
theorem control_decode_encode {id : CodecId} {cmd_id : UInt16} {p : Bytes}
    (hp : id.control.encodeControlCommand cmd_id = some p) : id.control.decodeControlCommand p = some cmd_id := by
  cases id with
  | Default =>
    cases hp
    exact parse_buildControl cmd_id
  | CompactIndexed =>
    cases hp
    have hread : compactControlCodec.decodeControlCommand
        [kControlMagic, kKindCommand, cmd_id.toUInt8, (cmd_id >>> 8).toUInt8] =
        some (readLe16 cmd_id.toUInt8 (cmd_id >>> 8).toUInt8) := rfl
    rw [readLe16_le16] at hread
    exact hread
  | PackedTlv => exact wrappedDefaultControl_decode hp
  | VarintTlv => exact wrappedControl_decode (fun _ => readNumber_put) hp
  | DeltaBinary => exact wrappedControl_decode (fun _ => readNumber_put) hp
  | CborLite => exact wrappedDefaultControl_decode hp
  | BinaryMap => exact wrappedDefaultControl_decode hp

end EspNowLink
