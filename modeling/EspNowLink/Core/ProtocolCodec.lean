import EspNowLink.Core.Types

namespace EspNowLink

/-- A `FrameHeader` with the wire bytes. `role` keeps the byte of the `Role` it was cast from or to. -/
structure WireHeader where
  version : UInt8 := kProtocolVersion
  type : MessageType := .Error
  flags : UInt8 := 0
  correlation_id : UInt32 := 0
  role : UInt8 := 2
  wire_msg_type : UInt8 := 0
  wire_service : UInt8 := 0
  wire_op_code : UInt8 := 0
  payload_length : UInt16 := 0
  deriving DecidableEq

/-- What a frame says of its message: the message type, the service and the operation. -/
structure WireForm where
  msg : UInt8
  service : UInt8
  op : UInt8
  deriving DecidableEq

namespace WireMsgType

def Request : UInt8 := 0x01
def ResponseOk : UInt8 := 0x02
def ResponseErr : UInt8 := 0x03
def Event : UInt8 := 0x04
def AckOnly : UInt8 := 0x05

end WireMsgType

namespace WireService

def Pairing : UInt8 := 0x01
def Descriptor : UInt8 := 0x02
def Settings : UInt8 := 0x03
def Telemetry : UInt8 := 0x04
def Liveness : UInt8 := 0x05
def Control : UInt8 := 0x06
def Firmware : UInt8 := 0x07
def Channel : UInt8 := 0x08
def Discovery : UInt8 := 0x09

end WireService

def kControlOpPullRequest : UInt8 := 0x01
def kControlOpPullResponse : UInt8 := 0x02
def kControlOpEventReport : UInt8 := 0x10
def kControlOpTopologyTrigger : UInt8 := 0x11
def kControlOpTopologyTriggerAck : UInt8 := 0x12
def kControlOpTopologyTriggerBatch : UInt8 := 0x13

namespace ProtocolCodec

open WireMsgType

def kMaxFrameBytes : Nat := 250
def kHeaderSize : Nat := 13
def kCrcSize : Nat := 2

def toWire : MessageType → Option WireForm
  | .Discovery => some ⟨Event, WireService.Discovery, 0x01⟩
  | .PairInit => some ⟨Request, WireService.Pairing, 0x01⟩
  | .PairInitAck => some ⟨ResponseOk, WireService.Pairing, 0x02⟩
  | .PairConfirm => some ⟨Request, WireService.Pairing, 0x03⟩
  | .PairConfirmAck => some ⟨ResponseOk, WireService.Pairing, 0x04⟩
  | .PairBusy => some ⟨ResponseErr, WireService.Pairing, 0x07⟩
  | .UnpairRequest => some ⟨Request, WireService.Pairing, 0x05⟩
  | .UnpairAck => some ⟨ResponseOk, WireService.Pairing, 0x06⟩
  | .ChannelSwitchPrepare => some ⟨Request, WireService.Channel, 0x01⟩
  | .ChannelSwitchAck => some ⟨ResponseOk, WireService.Channel, 0x02⟩
  | .ChannelSwitchCommitAck => some ⟨ResponseOk, WireService.Channel, 0x03⟩
  | .FirmwareBegin => some ⟨Request, WireService.Firmware, 0x01⟩
  | .FirmwareChunk => some ⟨Request, WireService.Firmware, 0x02⟩
  | .FirmwareEnd => some ⟨Request, WireService.Firmware, 0x03⟩
  | .FirmwareStatus => some ⟨ResponseOk, WireService.Firmware, 0x04⟩
  | .PullRequest => some ⟨Request, WireService.Control, kControlOpPullRequest⟩
  | .PullResponse => some ⟨ResponseOk, WireService.Control, kControlOpPullResponse⟩
  | .EventReport => some ⟨Event, WireService.Control, kControlOpEventReport⟩
  | .TopologyTrigger => some ⟨Event, WireService.Control, kControlOpTopologyTrigger⟩
  | .TopologyTriggerAck => some ⟨AckOnly, WireService.Control, kControlOpTopologyTriggerAck⟩
  | .TopologyTriggerBatch => some ⟨Event, WireService.Control, kControlOpTopologyTriggerBatch⟩
  | .Error => none

/-- The services whose requests and responses are pulls. -/
def pullService (service : UInt8) : Bool :=
  service = WireService.Descriptor || service = WireService.Settings ||
    service = WireService.Telemetry || service = WireService.Liveness || service = WireService.Control

/-- The forms that `fromWire` compares with one by one, in its order. -/
def namedForms : List (WireForm × MessageType) :=
  [(⟨Event, WireService.Discovery, 0x01⟩, .Discovery),
   (⟨Request, WireService.Pairing, 0x01⟩, .PairInit),
   (⟨ResponseOk, WireService.Pairing, 0x02⟩, .PairInitAck),
   (⟨Request, WireService.Pairing, 0x03⟩, .PairConfirm),
   (⟨ResponseOk, WireService.Pairing, 0x04⟩, .PairConfirmAck),
   (⟨Request, WireService.Pairing, 0x05⟩, .UnpairRequest),
   (⟨ResponseOk, WireService.Pairing, 0x06⟩, .UnpairAck),
   (⟨ResponseErr, WireService.Pairing, 0x07⟩, .PairBusy),
   (⟨Request, WireService.Channel, 0x01⟩, .ChannelSwitchPrepare),
   (⟨ResponseOk, WireService.Channel, 0x02⟩, .ChannelSwitchAck),
   (⟨ResponseOk, WireService.Channel, 0x03⟩, .ChannelSwitchCommitAck),
   (⟨Request, WireService.Firmware, 0x01⟩, .FirmwareBegin),
   (⟨Request, WireService.Firmware, 0x02⟩, .FirmwareChunk),
   (⟨Request, WireService.Firmware, 0x03⟩, .FirmwareEnd),
   (⟨ResponseOk, WireService.Firmware, 0x04⟩, .FirmwareStatus),
   (⟨Event, WireService.Control, kControlOpEventReport⟩, .EventReport),
   (⟨Event, WireService.Control, kControlOpTopologyTrigger⟩, .TopologyTrigger),
   (⟨Event, WireService.Control, kControlOpTopologyTriggerBatch⟩, .TopologyTriggerBatch),
   (⟨AckOnly, WireService.Control, kControlOpTopologyTriggerAck⟩, .TopologyTriggerAck)]

def fromWire (w : WireForm) : Option MessageType :=
  match namedForms.find? (·.1 = w) with
  | some (_, type) => some type
  | none =>
    if pullService w.service then
      if w.msg = Request ∧ (w.op = 0x01 ∨ w.op = 0x03 ∨ w.op = 0x05) then some .PullRequest
      else if (w.msg = ResponseOk ∨ w.msg = ResponseErr) ∧
          (w.op = 0x02 ∨ w.op = 0x04 ∨ w.op = 0x06) then some .PullResponse
      else none
    else none

/-- One bit of the division by the polynomial `0x1021`. -/
def crcBit (crc : UInt16) : UInt16 :=
  if crc &&& 0x8000 ≠ 0 then (crc <<< 1) ^^^ 0x1021 else crc <<< 1

def crcByte (crc : UInt16) (b : UInt8) : UInt16 := Nat.iterate crcBit 8 (crc ^^^ (b.toUInt16 <<< 8))

def crc16CcittFalse (data : Bytes) : UInt16 := data.foldl crcByte 0xFFFF

/-- The wire form of a header: what its type stands for, unless the header overrides it. -/
def wireForm (h : WireHeader) (w : WireForm) : WireForm where
  msg := if 0x01 ≤ h.wire_msg_type ∧ h.wire_msg_type ≤ 0x05 then h.wire_msg_type else w.msg
  service := if h.wire_service ≠ 0 then h.wire_service else w.service
  op := if h.wire_op_code ≠ 0 then h.wire_op_code else w.op

/-- A frame without its CRC. -/
def frameBody (h : WireHeader) (w : WireForm) (payload : Bytes) : Bytes :=
  [kProtocolMagic, kProtocolVersion, w.msg, h.flags] ++ le32 h.correlation_id ++
    [h.role, w.service, w.op] ++ le16 payload.length.toUInt16 ++ payload

def encode (h : WireHeader) (payload : Bytes) : Option Bytes :=
  if payload.length > kMaxPayload then none
  else (toWire h.type).bind fun w =>
    let body := frameBody h (wireForm h w) payload
    let out := body ++ le16 (crc16CcittFalse body)
    if out.length ≤ kMaxFrameBytes then some out else none

def decode (data : Bytes) : Option (WireHeader × Bytes) :=
  if data.length < kHeaderSize + kCrcSize then none
  else if data.getD 0 0 ≠ kProtocolMagic ∨ data.getD 1 0 ≠ kProtocolVersion then none
  else if readLe16 (data.getD (data.length - 2) 0) (data.getD (data.length - 1) 0) ≠
      crc16CcittFalse (data.take (data.length - 2)) then none
  else
    let wire : WireForm := ⟨data.getD 2 0, data.getD 9 0, data.getD 10 0⟩
    let payload_len := readLe16 (data.getD 11 0) (data.getD 12 0)
    if payload_len.toNat > kMaxPayload then none
    else if data.length ≠ kHeaderSize + payload_len.toNat + kCrcSize then none
    else (fromWire wire).map fun mapped =>
      ({ version := data.getD 1 0
         type := mapped
         flags := data.getD 3 0
         correlation_id := readLe32 (data.getD 4 0) (data.getD 5 0) (data.getD 6 0) (data.getD 7 0)
         role := data.getD 8 0
         wire_msg_type := wire.msg
         wire_service := wire.service
         wire_op_code := wire.op
         payload_length := payload_len },
        (data.drop kHeaderSize).take payload_len.toNat)

/-- All bytes of the form are ones that `encode` takes from a header. -/
def Overriding (w : WireForm) : Prop :=
  (0x01 ≤ w.msg ∧ w.msg ≤ 0x05) ∧ w.service ≠ 0 ∧ w.op ≠ 0

instance (w : WireForm) : Decidable (Overriding w) := inferInstanceAs (Decidable (_ ∧ _))

theorem fromWire_toWire {type : MessageType} {w : WireForm} (h : toWire type = some w) :
    fromWire w = some type := by
  cases type <;> cases h <;> decide

/-- A form that stands for a type sets all its bytes, and the type has a form of its own. -/
theorem fromWire_overriding {w : WireForm} {type : MessageType} (h : fromWire w = some type) :
    Overriding w ∧ (toWire type).isSome := by
  have hnamed : ∀ row ∈ namedForms, Overriding row.1 ∧ (toWire row.2).isSome := by decide
  have hservice : pullService w.service = true → w.service ≠ 0 := by
    intro hs h0
    rw [h0] at hs
    exact absurd hs (by decide)
  unfold fromWire at h
  cases hfind : namedForms.find? (·.1 = w) with
  | some row =>
    rw [hfind] at h
    have hmem := List.mem_of_find?_eq_some hfind
    have hrow : row.1 = w := by simpa using List.find?_some hfind
    obtain rfl := Option.some.inj h
    rw [← hrow]
    exact hnamed row hmem
  | none =>
    rw [hfind] at h
    dsimp only at h
    split at h
    · rename_i hpull
      refine ⟨⟨?_, hservice hpull, ?_⟩, ?_⟩
      · split at h
        · rename_i hreq
          rw [hreq.1]
          decide
        · split at h
          · rename_i hresp
            rcases hresp.1 with hm | hm <;> rw [hm] <;> decide
          · cases h
      · split at h
        · rename_i hreq
          rcases hreq.2 with ho | ho | ho <;> rw [ho] <;> decide
        · split at h
          · rename_i hresp
            rcases hresp.2 with ho | ho | ho <;> rw [ho] <;> decide
          · cases h
      · split at h
        · cases h; rfl
        · split at h
          · cases h; rfl
          · cases h
    · cases h

/-- A frame: its body and the CRC of the body. -/
def sealed (body : Bytes) : Bytes := body ++ le16 (crc16CcittFalse body)

/-- A header as it is read back from the form `w` and a payload. -/
def received (h : WireHeader) (type : MessageType) (w : WireForm) (payload : Bytes) : WireHeader where
  version := kProtocolVersion
  type := type
  flags := h.flags
  correlation_id := h.correlation_id
  role := h.role
  wire_msg_type := w.msg
  wire_service := w.service
  wire_op_code := w.op
  payload_length := payload.length.toUInt16

theorem frameBody_length (h : WireHeader) (w : WireForm) (payload : Bytes) :
    (frameBody h w payload).length = kHeaderSize + payload.length := by
  simp [frameBody, kHeaderSize]
  omega

theorem encode_eq (h : WireHeader) {payload : Bytes} (hlen : payload.length ≤ kMaxPayload) :
    encode h payload = (toWire h.type).map fun w => sealed (frameBody h (wireForm h w) payload) := by
  have hfits (w : WireForm) : (frameBody h (wireForm h w) payload ++
      le16 (crc16CcittFalse (frameBody h (wireForm h w) payload))).length ≤ kMaxFrameBytes := by
    rw [List.length_append, frameBody_length, le16_length]
    simp only [kMaxPayload, kHeaderSize, kMaxFrameBytes] at hlen ⊢
    omega
  rw [encode, if_neg (by omega)]
  cases toWire h.type with
  | none => rfl
  | some w => exact if_pos (hfits w)

theorem sealed_length (body : Bytes) : (sealed body).length = body.length + 2 := by
  rw [sealed, List.length_append, le16_length]

theorem sealed_take (body : Bytes) : (sealed body).take ((sealed body).length - 2) = body := by
  rw [sealed_length, Nat.add_sub_cancel, sealed, List.take_left]

theorem sealed_crc (body : Bytes) :
    readLe16 ((sealed body).getD ((sealed body).length - 2) 0)
      ((sealed body).getD ((sealed body).length - 1) 0) = crc16CcittFalse body := by
  have hlast : (sealed body).length - 1 = body.length + 1 := by
    rw [sealed_length]
    omega
  rw [hlast, sealed_length, Nat.add_sub_cancel, sealed, List.getD_eq_getElem?_getD,
    List.getD_eq_getElem?_getD, List.getElem?_append_right (Nat.le_refl _),
    List.getElem?_append_right (Nat.le_succ _), Nat.sub_self, Nat.succ_sub (Nat.le_refl _),
    Nat.sub_self]
  exact readLe16_le16 _

theorem length_toUInt16 {payload : Bytes} (hlen : payload.length ≤ kMaxPayload) :
    payload.length.toUInt16.toNat = payload.length := by
  rw [kMaxPayload] at hlen
  exact Nat.mod_eq_of_lt (by omega)

/-- A frame is read back as what it was made of, if its form stands for a type. -/
theorem decode_sealed (h : WireHeader) {w : WireForm} {type : MessageType} {payload : Bytes}
    (hw : fromWire w = some type) (hlen : payload.length ≤ kMaxPayload) :
    decode (sealed (frameBody h w payload)) = some (received h type w payload, payload) := by
  have hn := length_toUInt16 hlen
  have hlong : (sealed (frameBody h w payload)).length = kHeaderSize + payload.length + kCrcSize := by
    rw [sealed_length, frameBody_length, kCrcSize]
  have hcrc := sealed_crc (frameBody h w payload)
  have hbody := sealed_take (frameBody h w payload)
  have hdata : sealed (frameBody h w payload) =
      kProtocolMagic :: kProtocolVersion :: w.msg :: h.flags :: h.correlation_id.toUInt8 ::
        (h.correlation_id >>> 8).toUInt8 :: (h.correlation_id >>> 16).toUInt8 ::
        (h.correlation_id >>> 24).toUInt8 :: h.role :: w.service :: w.op ::
        payload.length.toUInt16.toUInt8 :: (payload.length.toUInt16 >>> 8).toUInt8 ::
        (payload ++ le16 (crc16CcittFalse (frameBody h w payload))) := by
    simp [sealed, frameBody, le16, le32]
  rw [decode, hcrc, hbody, hlong, hdata]
  simp only [List.getD_cons_zero, List.getD_cons_succ, readLe16_le16, readLe32_le32, hn, kHeaderSize,
    List.drop_succ_cons, List.drop_zero, List.take_left]
  rw [if_neg (by rw [kCrcSize]; omega), if_neg (by simp), if_neg (by simp), if_neg (by omega),
    if_neg (by simp)]
  exact congrArg _ hw

/-- A form whose bytes all override is taken from the header as it is. -/
theorem wireForm_received {h : WireHeader} {type : MessageType} {w : WireForm} {payload : Bytes}
    (hw : Overriding w) (own : WireForm) : wireForm (received h type w payload) own = w := by
  obtain ⟨hmsg, hservice, hop⟩ := hw
  simp [wireForm, received, hmsg, hservice, hop]

/-- Bytes that end in the CRC of the others are a sealed body. -/
theorem sealed_of_crc {data : Bytes} (hlen : 2 ≤ data.length)
    (hcrc : readLe16 (data.getD (data.length - 2) 0) (data.getD (data.length - 1) 0) =
      crc16CcittFalse (data.take (data.length - 2))) :
    sealed (data.take (data.length - 2)) = data := by
  have hlast : data.drop (data.length - 2) =
      [data.getD (data.length - 2) 0, data.getD (data.length - 1) 0] := by
    rw [List.drop_eq_getElem_cons (by omega), List.drop_eq_getElem_cons (by omega)]
    simp only [List.getD_eq_getElem?_getD, show data.length - 2 + 1 = data.length - 1 by omega,
      show data.length - 1 + 1 = data.length by omega, List.drop_length]
    rw [List.getElem?_eq_getElem (by omega), List.getElem?_eq_getElem (by omega)]
    rfl
  rw [sealed, ← hcrc, le16_readLe16, ← hlast, List.take_append_drop]

theorem take_header {data : Bytes} (hlen : 13 + 2 ≤ data.length) :
    data.take kHeaderSize = (List.range 13).map fun i => data.getD i 0 := by
  apply List.ext_getElem
  · simp [kHeaderSize]
    omega
  · intro i h1 h2
    simp only [List.length_map, List.length_range] at h2
    rw [List.getElem_take, List.getElem_map, List.getElem_range, List.getD_eq_getElem?_getD,
      List.getElem?_eq_getElem (by omega), Option.getD_some]

/-- What is accepted is the frame of what it is read as. -/
theorem decode_sound {data : Bytes} {h : WireHeader} {payload : Bytes}
    (hdecode : decode data = some (h, payload)) :
    ∃ w type, fromWire w = some type ∧ payload.length ≤ kMaxPayload ∧
      h = received h type w payload ∧ data = sealed (frameBody h w payload) := by
  unfold decode at hdecode
  split at hdecode
  · cases hdecode
  split at hdecode
  · cases hdecode
  split at hdecode
  · cases hdecode
  rename_i hshort hmagic hcrc
  dsimp only at hdecode
  split at hdecode
  · cases hdecode
  split at hdecode
  · cases hdecode
  rename_i hmax hexact
  obtain ⟨type, hw, hread⟩ := Option.map_eq_some_iff.mp hdecode
  simp only [kHeaderSize, kCrcSize, not_or, not_not, Nat.not_lt] at hshort hmagic hexact
  have hsealed := sealed_of_crc (show 2 ≤ data.length by omega) (not_not.mp hcrc)
  rw [Prod.mk.injEq] at hread
  obtain ⟨rfl, rfl⟩ := hread
  have hlen : ((data.drop kHeaderSize).take
      (readLe16 (data.getD 11 0) (data.getD 12 0)).toNat).length =
        (readLe16 (data.getD 11 0) (data.getD 12 0)).toNat := by
    rw [List.length_take, List.length_drop, kHeaderSize]
    omega
  refine ⟨_, type, hw, by omega, ?_, ?_⟩
  · rw [received, hmagic.2, hlen, Nat.toUInt16_eq, UInt16.ofNat_toNat]
  · have hbody : data.length - 2 =
        kHeaderSize + (readLe16 (data.getD 11 0) (data.getD 12 0)).toNat := by
      rw [kHeaderSize]
      omega
    rw [hbody, List.take_add, take_header hshort] at hsealed
    rw [frameBody, hlen, Nat.toUInt16_eq, UInt16.ofNat_toNat, le16_readLe16, le32_readLe32,
      ← hmagic.1, ← hmagic.2]
    exact hsealed.symm

/-- A decoded header and payload are encoded as the bytes they were read from. -/
theorem encode_decoded {data : Bytes} {h : WireHeader} {payload : Bytes}
    (hdecode : decode data = some (h, payload)) : encode h payload = some data := by
  obtain ⟨w, type, hw, hlen, hread, hdata⟩ := decode_sound hdecode
  obtain ⟨hoverrides, htype⟩ := fromWire_overriding hw
  obtain ⟨own, hown⟩ := Option.isSome_iff_exists.mp htype
  have hform : wireForm h own = w := by
    rw [hread]
    exact wireForm_received hoverrides own
  have hsame : h.type = type := by rw [hread]; rfl
  rw [encode_eq h hlen, hsame, hown, Option.map_some, hform, ← hdata]

end ProtocolCodec

def isValidPullRequestWire (service op : UInt8) : Bool :=
  let service_ok := service = 0x02 || service = 0x03 || service = 0x04 || service = 0x05 ||
    service = 0x06
  let op_ok := op = 0x01 || op = 0x03 || op = 0x05
  service_ok && op_ok

def isValidPullResponseWire (service op : UInt8) : Bool :=
  let service_ok := service = 0x02 || service = 0x03 || service = 0x04 || service = 0x05 ||
    service = 0x06
  let op_ok := op = 0x02 || op = 0x04 || op = 0x06
  service_ok && op_ok

/-- The wire bytes that the manager's sends set for a type of message; the others set none. -/
inductive ManagerForm : MessageType → WireForm → Prop
  | pullRequest (service op : UInt8) : isValidPullRequestWire service op = true →
    ManagerForm .PullRequest ⟨0x01, service, op⟩
  | pullResponse (service op : UInt8) : isValidPullResponseWire service op = true →
    ManagerForm .PullResponse ⟨0x02, service, op⟩
  | firmwareBegin : ManagerForm .FirmwareBegin ⟨0x01, 0x07, 0x01⟩
  | firmwareChunk : ManagerForm .FirmwareChunk ⟨0x01, 0x07, 0x02⟩
  | firmwareEnd : ManagerForm .FirmwareEnd ⟨0x01, 0x07, 0x03⟩
  | firmwareStatus : ManagerForm .FirmwareStatus ⟨0x02, 0x07, 0x04⟩
  | telemetryPushCommand : ManagerForm .PullRequest ⟨0x01, 0x04, 0x01⟩
  | telemetryPushReport : ManagerForm .PullResponse ⟨0x02, 0x04, 0x04⟩
  | mandatoryEvent : ManagerForm .EventReport ⟨0x04, 0x06, 0x10⟩

namespace ProtocolCodec

/-- What the manager sets stands for the type it is set for. -/
theorem fromWire_managerForm {type : MessageType} {w : WireForm} (h : ManagerForm type w) :
    fromWire w = some type := by
  cases h with
  | pullRequest service op hvalid =>
    simp only [isValidPullRequestWire, Bool.and_eq_true, Bool.or_eq_true, decide_eq_true_eq] at hvalid
    obtain ⟨((((rfl | rfl) | rfl) | rfl) | rfl), ((rfl | rfl) | rfl)⟩ := hvalid <;> decide
  | pullResponse service op hvalid =>
    simp only [isValidPullResponseWire, Bool.and_eq_true, Bool.or_eq_true, decide_eq_true_eq] at hvalid
    obtain ⟨((((rfl | rfl) | rfl) | rfl) | rfl), ((rfl | rfl) | rfl)⟩ := hvalid <;> decide
  | firmwareBegin => decide
  | firmwareChunk => decide
  | firmwareEnd => decide
  | firmwareStatus => decide
  | telemetryPushCommand => decide
  | telemetryPushReport => decide
  | mandatoryEvent => decide

/-- The wire bytes that a header sets. -/
def overridesOf (h : WireHeader) : WireForm := ⟨h.wire_msg_type, h.wire_service, h.wire_op_code⟩

theorem wireForm_none {h : WireHeader} (hzero : overridesOf h = ⟨0, 0, 0⟩) (own : WireForm) :
    wireForm h own = own := by
  obtain ⟨hmsg, hservice, hop⟩ := WireForm.mk.inj hzero
  simp [wireForm, hmsg, hservice, hop]

theorem wireForm_all {h : WireHeader} (hset : Overriding (overridesOf h)) (own : WireForm) :
    wireForm h own = overridesOf h := by
  obtain ⟨hmsg, hservice, hop⟩ := hset
  simp only [overridesOf] at hmsg hservice hop
  simp [wireForm, overridesOf, hmsg, hservice, hop]

/-- Each wire byte is the one that is set, or that of the type. -/
theorem wireForm_eq {h : WireHeader} (own : WireForm)
    (hset : overridesOf h = ⟨0, 0, 0⟩ ∨ ManagerForm h.type (overridesOf h)) :
    wireForm h own =
      ⟨if h.wire_msg_type = 0 then own.msg else h.wire_msg_type,
        if h.wire_service = 0 then own.service else h.wire_service,
        if h.wire_op_code = 0 then own.op else h.wire_op_code⟩ := by
  rcases hset with hzero | hmanager
  · obtain ⟨hmsg, hservice, hop⟩ := WireForm.mk.inj hzero
    rw [wireForm_none hzero, hmsg, hservice, hop]
    rfl
  · have hset := (fromWire_overriding (fromWire_managerForm hmanager)).1
    have hmsg : h.wire_msg_type ≠ 0 := by
      intro h0
      have hle : 0x01 ≤ h.wire_msg_type := hset.1.1
      rw [h0] at hle
      exact absurd hle (by decide)
    have hservice : h.wire_service ≠ 0 := hset.2.1
    have hop : h.wire_op_code ≠ 0 := hset.2.2
    rw [wireForm_all hset, if_neg hmsg, if_neg hservice, if_neg hop]
    rfl

/-- The form of a header without overrides, or with those of the manager, stands for its type. -/
theorem fromWire_wireForm {h : WireHeader} {own : WireForm} (hown : toWire h.type = some own)
    (hset : overridesOf h = ⟨0, 0, 0⟩ ∨ ManagerForm h.type (overridesOf h)) :
    fromWire (wireForm h own) = some h.type := by
  rcases hset with hzero | hmanager
  · rw [wireForm_none hzero]
    exact fromWire_toWire hown
  · have hw := fromWire_managerForm hmanager
    rw [wireForm_all (fromWire_overriding hw).1]
    exact hw

end ProtocolCodec

/-- A frame is read back with its type, flags, correlation id, role, payload and the overrides that
were set; the version, the length and the other overrides are those of the frame. What is accepted
is encoded again to the same bytes. -/
theorem frame_codec_canonical :
    (∀ (h : WireHeader) (payload frame : Bytes), payload.length ≤ kMaxPayload →
      (ProtocolCodec.overridesOf h = ⟨0, 0, 0⟩ ∨ ManagerForm h.type (ProtocolCodec.overridesOf h)) →
      ProtocolCodec.encode h payload = some frame →
      ∃ own, ProtocolCodec.toWire h.type = some own ∧
        ProtocolCodec.decode frame = some ({ h with
          version := kProtocolVersion
          wire_msg_type := if h.wire_msg_type = 0 then own.msg else h.wire_msg_type
          wire_service := if h.wire_service = 0 then own.service else h.wire_service
          wire_op_code := if h.wire_op_code = 0 then own.op else h.wire_op_code
          payload_length := payload.length.toUInt16 }, payload)) ∧
    (∀ (data : Bytes) (h : WireHeader) (payload : Bytes),
      ProtocolCodec.decode data = some (h, payload) → ProtocolCodec.encode h payload = some data) := by
  refine ⟨fun h payload frame hlen hset hframe => ?_, fun data h payload => ProtocolCodec.encode_decoded⟩
  rw [ProtocolCodec.encode_eq h hlen, Option.map_eq_some_iff] at hframe
  obtain ⟨own, hown, rfl⟩ := hframe
  have hw := ProtocolCodec.fromWire_wireForm hown hset
  refine ⟨own, hown, ?_⟩
  rw [ProtocolCodec.decode_sealed h hw hlen, ProtocolCodec.wireForm_eq own hset]
  rfl

/-- A pull request of the manager, and its frame. -/
theorem frame_codec_canonical_pull :
    let h : WireHeader := ⟨2, .PullRequest, 1, 7, 1, 0x01, 0x04, 0x03, 2⟩
    let frame := (ProtocolCodec.encode h [5, 6]).getD []
    ProtocolCodec.decode frame = some (h, [5, 6]) ∧ ProtocolCodec.encode h [5, 6] = some frame := by
  intro h frame
  have hframe : ProtocolCodec.encode h [5, 6] = some frame := by decide +kernel
  obtain ⟨own, -, hread⟩ := frame_codec_canonical.1 h [5, 6] frame (by decide)
    (.inr (.pullRequest 0x04 0x03 (by decide))) hframe
  exact ⟨hread, frame_codec_canonical.2 frame h [5, 6] hread⟩

/-- A header of another version, without overrides and a length, is not read back as it was. -/
theorem frame_header_filled_in :
    let h : WireHeader := { version := 1, type := .PairInit, correlation_id := 7, role := 1 }
    let read : WireHeader := { h with
      version := 2
      wire_msg_type := 1
      wire_service := 1
      wire_op_code := 1
      payload_length := 2 }
    (ProtocolCodec.encode h [5, 6]).bind ProtocolCodec.decode = some (read, [5, 6]) ∧
    (ProtocolCodec.encode h [5, 6]).bind ProtocolCodec.decode ≠ some (h, [5, 6]) := by
  decide +kernel

end EspNowLink
