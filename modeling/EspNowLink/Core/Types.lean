import Mathlib.Algebra.Ring.Nat
import Mathlib.Data.UInt
import Mathlib.Data.Vector.Defs
import Mathlib.Logic.Function.Basic

namespace EspNowLink

/-- A run of wire or storage bytes (`std::vector<uint8_t>`, and `std::string` where only bytes
count). -/
abbrev Bytes := List UInt8

abbrev MacAddress := Vector UInt8 6
abbrev LmkKey := Vector UInt8 16

structure PairSeed where
  bytes : Vector UInt8 16
  deriving DecidableEq

inductive Role where
  | Master
  | Slave
  deriving DecidableEq, Repr

/-- The byte an `enum class Role : uint8_t` is stored as. -/
def Role.toByte : Role → UInt8
  | .Master => 1
  | .Slave => 2

inductive LinkState where
  | Unpaired
  | Pairing
  | Secured
  deriving DecidableEq, Repr

inductive MessageType where
  | Discovery
  | PairInit
  | PairInitAck
  | PairConfirm
  | PairConfirmAck
  | PairBusy
  | PullRequest
  | PullResponse
  | ChannelSwitchPrepare
  | ChannelSwitchAck
  | ChannelSwitchCommitAck
  | FirmwareBegin
  | FirmwareChunk
  | FirmwareEnd
  | UnpairRequest
  | UnpairAck
  | EventReport
  | FirmwareStatus
  | TopologyTrigger
  | TopologyTriggerAck
  | TopologyTriggerBatch
  | Error
  deriving DecidableEq, Repr

structure ChannelSwitchPayload where
  new_channel : UInt8
  effective_at_ms : UInt32
  deriving DecidableEq

/-- The fields of a `FrameHeader` that a sender sets; the payload length is that of the payload. -/
structure FrameHeader where
  type : MessageType
  flags : UInt8
  correlation_id : UInt32
  role : Role
  deriving DecidableEq

def kMaxPayload : Nat := 235
def kTimeSyncMetadataSize : Nat := 4
def kProtocolVersion : UInt8 := 2
def kProtocolMagic : UInt8 := 0xE2
def kFrameFlagTimeSyncEpoch : UInt8 := 0x01
def kBroadcastMac : MacAddress := Vector.replicate 6 0xFF
def zeroMac : MacAddress := Vector.replicate 6 0

/-- Little-endian bytes of a 16-bit and of a 32-bit value. -/
def le16 (v : UInt16) : Bytes := [v.toUInt8, (v >>> 8).toUInt8]
def le32 (v : UInt32) : Bytes :=
  [v.toUInt8, (v >>> 8).toUInt8, (v >>> 16).toUInt8, (v >>> 24).toUInt8]

def readLe16 (b0 b1 : UInt8) : UInt16 := b0.toUInt16 ||| (b1.toUInt16 <<< 8)
def readLe32 (b0 b1 b2 b3 : UInt8) : UInt32 :=
  b0.toUInt32 ||| (b1.toUInt32 <<< 8) ||| (b2.toUInt32 <<< 16) ||| (b3.toUInt32 <<< 24)

@[simp] theorem le16_length (v : UInt16) : (le16 v).length = 2 := rfl
@[simp] theorem le32_length (v : UInt32) : (le32 v).length = 4 := rfl

theorem getElem_mod_256 {w : Nat} (hw : 8 < w) (x : BitVec w) (j : Nat) (hj : j < w) :
    (x % 256#w)[j] = (decide (j < 8) && x[j]) := by
  have h : (256#w).toNat = 2 ^ 8 := by
    rw [BitVec.toNat_ofNat]
    exact Nat.mod_eq_of_lt (Nat.pow_lt_pow_right (by decide : 1 < 2) hw)
  rw [← BitVec.getLsbD_eq_getElem, ← BitVec.getLsbD_eq_getElem, BitVec.getLsbD,
    BitVec.toNat_umod, h, Nat.testBit_mod_two_pow, BitVec.getLsbD]

/-- A 16-bit value is read back from its bytes. -/
theorem readLe16_le16 (v : UInt16) : readLe16 v.toUInt8 (v >>> 8).toUInt8 = v := by
  apply UInt16.toBitVec_inj.mp
  unfold readLe16
  apply BitVec.eq_of_getElem_eq
  intro i hi
  by_cases h8 : i < 8
  · simp [getElem_mod_256, h8]
  · simp [getElem_mod_256, h8, show i - 8 < 8 by omega, show 8 + (i - 8) = i by omega,
      BitVec.getLsbD_eq_getElem hi]

/-- A 32-bit value is read back from its bytes. -/
theorem readLe32_le32 (v : UInt32) :
    readLe32 v.toUInt8 (v >>> 8).toUInt8 (v >>> 16).toUInt8 (v >>> 24).toUInt8 = v := by
  apply UInt32.toBitVec_inj.mp
  unfold readLe32
  apply BitVec.eq_of_getElem_eq
  intro i hi
  -- the byte that bit `i` belongs to
  by_cases h8 : i < 8
  · simp [getElem_mod_256, h8, show i < 16 by omega, show i < 24 by omega]
  by_cases h16 : i < 16
  · simp [getElem_mod_256, h8, h16, show i < 24 by omega, show i - 8 < 8 by omega,
      show 8 + (i - 8) = i by omega, BitVec.getLsbD_eq_getElem hi]
  by_cases h24 : i < 24
  · simp [getElem_mod_256, h8, h16, h24, show ¬ i - 8 < 8 by omega, show i - 16 < 8 by omega,
      show 16 + (i - 16) = i by omega, BitVec.getLsbD_eq_getElem hi]
  · simp [getElem_mod_256, h8, h16, h24, show ¬ i - 8 < 8 by omega, show ¬ i - 16 < 8 by omega,
      show i - 24 < 8 by omega, show 24 + (i - 24) = i by omega, BitVec.getLsbD_eq_getElem hi]

theorem getLsbD_byte (b : UInt8) (i : Nat) (hi : 8 ≤ i) : b.toBitVec.getLsbD i = false :=
  BitVec.getLsbD_of_ge _ _ hi

/-- Two bytes are the bytes of the 16-bit value they are read as. -/
theorem le16_readLe16 (b0 b1 : UInt8) : le16 (readLe16 b0 b1) = [b0, b1] := by
  have h0 : (readLe16 b0 b1).toUInt8 = b0 := by
    apply UInt8.toBitVec_inj.mp
    apply BitVec.eq_of_getElem_eq
    intro i hi
    simp [readLe16]
  have h1 : (readLe16 b0 b1 >>> 8).toUInt8 = b1 := by
    apply UInt8.toBitVec_inj.mp
    apply BitVec.eq_of_getElem_eq
    intro i hi
    simp [readLe16, show 8 + i < 16 by omega, show i < 16 by omega, show ¬ 8 + i < 8 by omega,
      BitVec.getLsbD_eq_getElem hi]
  rw [le16, h0, h1]

/-- Four bytes are the bytes of the 32-bit value they are read as. -/
theorem le32_readLe32 (b0 b1 b2 b3 : UInt8) : le32 (readLe32 b0 b1 b2 b3) = [b0, b1, b2, b3] := by
  have h0 : (readLe32 b0 b1 b2 b3).toUInt8 = b0 := by
    apply UInt8.toBitVec_inj.mp
    apply BitVec.eq_of_getElem_eq
    intro i hi
    simp [readLe32]
  have h1 : (readLe32 b0 b1 b2 b3 >>> 8).toUInt8 = b1 := by
    apply UInt8.toBitVec_inj.mp
    apply BitVec.eq_of_getElem_eq
    intro i hi
    simp [readLe32, show 8 + i < 32 by omega, show 8 + i < 16 by omega, show 8 + i < 24 by omega,
      show i < 32 by omega, show ¬ 8 + i < 8 by omega, BitVec.getLsbD_eq_getElem hi]
  have h2 : (readLe32 b0 b1 b2 b3 >>> 16).toUInt8 = b2 := by
    apply UInt8.toBitVec_inj.mp
    apply BitVec.eq_of_getElem_eq
    intro i hi
    have hb0 := getLsbD_byte b0 (16 + i) (by omega)
    have hb1 := getLsbD_byte b1 (16 + i - 8) (by omega)
    simp [readLe32, show 16 + i < 32 by omega, show 16 + i < 24 by omega, show i < 32 by omega,
      show ¬ 16 + i < 16 by omega, hb0, hb1, BitVec.getLsbD_eq_getElem hi]
  have h3 : (readLe32 b0 b1 b2 b3 >>> 24).toUInt8 = b3 := by
    apply UInt8.toBitVec_inj.mp
    apply BitVec.eq_of_getElem_eq
    intro i hi
    have hb0 := getLsbD_byte b0 (24 + i) (by omega)
    have hb1 := getLsbD_byte b1 (24 + i - 8) (by omega)
    have hb2 := getLsbD_byte b2 (24 + i - 16) (by omega)
    simp [readLe32, show 24 + i < 32 by omega, show i < 32 by omega, show ¬ 24 + i < 24 by omega,
      hb0, hb1, hb2, BitVec.getLsbD_eq_getElem hi]
  rw [le32, h0, h1, h2, h3]

end EspNowLink
