import EspNowLink.Ota.Receive

namespace EspNowLink

inductive FirmwareStatusKind where
  | ChunkAck
  | ChunkNack
  | FinalizeOk
  | FinalizeFail
  | FinalizeAck
  deriving DecidableEq

structure FirmwareStatus where
  kind : FirmwareStatusKind
  transfer_corr_id : UInt32
  offset_bytes : UInt32
  status_code : OtaStatusCode
  deriving DecidableEq

def kFirmwareMetaMagic : UInt8 := 0xA5
def kFirmwareMetaVersionV1 : UInt8 := 1
def kFirmwareMetaVersionV2 : UInt8 := 2

/-- The slave's side of a firmware transfer: the sink and the `ota_transfer_*` and `ota_finalize_*`
fields of the manager. A slave whose acknowledgement loop does not end is `hung`. -/
structure SlaveReception where
  local_role : Role
  sink : OtaManager
  ota_transfer_corr_id : UInt32
  ota_transfer_expected_size : UInt32
  ota_transfer_last_received_offset : UInt32
  ota_transfer_last_acked_offset : UInt32
  ota_transfer_ack_step_bytes : UInt32
  ota_transfer_next_ack_offset : UInt32
  ota_transfer_last_nack_offset : UInt32
  ota_transfer_last_nack_ms : UInt32
  ota_finalize_pending : Bool
  ota_finalize_corr_id : UInt32
  ota_finalize_offset : UInt32
  ota_finalize_status_code : UInt16
  ota_finalize_kind : UInt8
  ota_finalize_started_ms : UInt32
  ota_finalize_last_tx_ms : UInt32
  hung : Bool

/-- The bytes of `FirmwareBegin` after the three sizes; an image without metadata sends none. -/
def parseFirmwareMetadata (rest : Bytes) : Option FirmwareImageMetadata :=
  match rest with
  | [] => some OtaManager.noMetadata
  | magic :: meta_version :: sw_len :: build_len :: body =>
    let sw := sw_len.toNat
    let build := build_len.toNat
    if magic ≠ kFirmwareMetaMagic then none
    else if sw_len > 63 ∨ build_len > 63 then none
    else if meta_version = kFirmwareMetaVersionV1 then
      if body.length ≠ sw + build then none
      else some ⟨body.take sw, body.drop sw, []⟩
    else if meta_version = kFirmwareMetaVersionV2 then
      match body with
      | [] => none
      | role_len :: text =>
        if role_len > 15 then none
        else if text.length ≠ sw + build + role_len.toNat then none
        else some ⟨text.take sw, (text.drop sw).take build, text.drop (sw + build)⟩
    else none
  | _ => none

/-- `while (step != 0 && next <= offset) next += step;` on 32-bit counters. After 2^32 turns some
value has come back and the loop never ends. -/
def advanceNextAck (step offset : UInt32) : Nat → UInt32 → Option UInt32
  | 0, _ => none
  | n + 1, next =>
    if step ≠ 0 ∧ next ≤ offset then advanceNextAck step offset n (next + step) else some next

def ackTurns : Nat := 4294967297

/-- `static_cast<int32_t>(now - since) >= limit`. -/
def elapsed (now since : UInt32) (limit : Int) : Bool :=
  decide (limit ≤ (now - since).toBitVec.toInt)

namespace SlaveReception

def clearFinalize (s : SlaveReception) : SlaveReception :=
  { s with
    ota_finalize_pending := false
    ota_finalize_corr_id := 0
    ota_finalize_offset := 0
    ota_finalize_status_code := 0
    ota_finalize_kind := 0
    ota_finalize_started_ms := 0
    ota_finalize_last_tx_ms := 0 }

def startTransfer (s : SlaveReception) (corr_id total_size chunk_size : UInt32) : SlaveReception :=
  let step := max 1024 (chunk_size * 16)
  { s with
    ota_transfer_corr_id := corr_id
    ota_transfer_expected_size := total_size
    ota_transfer_last_received_offset := 0
    ota_transfer_last_acked_offset := 0
    ota_transfer_ack_step_bytes := step
    ota_transfer_next_ack_offset := step
    ota_transfer_last_nack_offset := 0
    ota_transfer_last_nack_ms := 0 }

/-- The part of `handleFirmwareBegin` after the sink has answered. -/
def beginAnswered (s : SlaveReception) (ok : Bool) (corr_id total_size chunk_size : UInt32) :
    List FirmwareStatus × SlaveReception :=
  if s.local_role ≠ .Slave then ([], s)
  else
    let s := s.clearFinalize
    if ok then
      ([⟨.ChunkAck, corr_id, 0, .Ok⟩], s.startTransfer corr_id total_size chunk_size)
    else
      ([⟨.ChunkNack, corr_id, 0, .InvalidState⟩],
        { s with ota_transfer_expected_size := 0, ota_transfer_last_acked_offset := 0 })

def handleFirmwareBegin (s : SlaveReception) (sender : MacAddress) (corr_id : UInt32)
    (payload : Bytes) (env : BeginEnvironment) : Bool × List FirmwareStatus × SlaveReception :=
  match payload with
  | t0 :: t1 :: t2 :: t3 :: c0 :: c1 :: c2 :: c3 :: k0 :: k1 :: k2 :: k3 :: rest =>
    let total_size := readLe32 t0 t1 t2 t3
    let chunk_size := readLe32 c0 c1 c2 c3
    let crc := readLe32 k0 k1 k2 k3
    match parseFirmwareMetadata rest with
    | none => (false, [], s)
    | some metadata =>
      let (ok, sink) := s.sink.beginReceive sender corr_id total_size chunk_size crc metadata env
      (ok, ({ s with sink := sink } : SlaveReception).beginAnswered ok corr_id total_size chunk_size)
  | _ => (false, [], s)

def trackedOffset (s : SlaveReception) : UInt32 :=
  if s.sink.contiguousReceiveSize ≥ s.ota_transfer_last_received_offset then
    s.sink.contiguousReceiveSize
  else s.ota_transfer_last_received_offset

/-- `should_ack` for a contiguous size of `expected_offset`. -/
def shouldAck (s : SlaveReception) (expected_offset : UInt32) : Bool :=
  expected_offset ≥ s.ota_transfer_next_ack_offset ||
  (s.ota_transfer_expected_size ≠ 0 && expected_offset = s.ota_transfer_expected_size) ||
  expected_offset = 0

def noteAcked (s : SlaveReception) (expected_offset : UInt32) : SlaveReception :=
  match advanceNextAck s.ota_transfer_ack_step_bytes expected_offset ackTurns
      s.ota_transfer_next_ack_offset with
  | some next =>
    { s with ota_transfer_last_acked_offset := expected_offset, ota_transfer_next_ack_offset := next }
  | none => { s with ota_transfer_last_acked_offset := expected_offset, hung := true }

/-- The branch of an accepted chunk. -/
def chunkAccepted (s : SlaveReception) (corr_id : UInt32) : List FirmwareStatus × SlaveReception :=
  let expected_offset := s.trackedOffset
  let s := { s with ota_transfer_last_received_offset := expected_offset }
  if s.shouldAck expected_offset && expected_offset ≠ s.ota_transfer_last_acked_offset then
    ([⟨.ChunkAck, corr_id, expected_offset, .Ok⟩], s.noteAcked expected_offset)
  else ([], s)

/-- The branch of a refused chunk. -/
def chunkRefused (s : SlaveReception) (corr_id now_ms : UInt32) :
    List FirmwareStatus × SlaveReception :=
  let expected_offset := s.trackedOffset
  let s := { s with ota_transfer_last_received_offset := expected_offset }
  let nack_same_offset : Bool := expected_offset = s.ota_transfer_last_nack_offset
  let nack_recent := nack_same_offset && !elapsed now_ms s.ota_transfer_last_nack_ms 60
  if nack_recent then ([], s)
  else
    ([⟨.ChunkNack, corr_id, expected_offset, .OffsetMismatch⟩],
      { s with ota_transfer_last_nack_offset := expected_offset, ota_transfer_last_nack_ms := now_ms })

/-- `handleFirmwareChunk` on a payload of `offset` followed by `chunk`; `now_s` is the sink's clock. -/
def handleFirmwareChunk (s : SlaveReception) (sender : MacAddress) (corr_id offset : UInt32)
    (chunk : Bytes) (now_s now_ms : UInt32) : Bool × List FirmwareStatus × SlaveReception :=
  if s.hung then (false, [], s)
  else
    let track_ota := s.local_role = .Slave ∧ s.ota_transfer_corr_id = corr_id
    let (ok, sink) := s.sink.writeReceiveChunk sender corr_id offset chunk now_s
    let s := { s with sink := sink }
    if track_ota then
      (ok, if ok then s.chunkAccepted corr_id else s.chunkRefused corr_id now_ms)
    else (ok, [], s)

end SlaveReception

end EspNowLink
