import EspNowLink.Core.Types

namespace EspNowLink

structure FirmwareImageMetadata where
  sw_version : Bytes
  build_id : Bytes
  target_role : Bytes
  deriving DecidableEq

inductive OtaStatusCode where
  | Ok
  | StorageNotReady
  | GateDenied
  | GateBusy
  | GatePrepFailed
  | ImageTooLarge
  | InvalidState
  | InvalidArgument
  | OffsetMismatch
  | SizeMismatch
  | CrcMismatch
  | ApplyRejected
  | ApplyFailed
  | Timeout
  | InternalError
  deriving DecidableEq

def OtaStatusCode.toUInt16 : OtaStatusCode → UInt16
  | .Ok => 0x0000
  | .StorageNotReady => 0x0001
  | .GateDenied => 0x0002
  | .GateBusy => 0x0003
  | .GatePrepFailed => 0x0004
  | .ImageTooLarge => 0x0005
  | .InvalidState => 0x0006
  | .InvalidArgument => 0x0007
  | .OffsetMismatch => 0x0008
  | .SizeMismatch => 0x0009
  | .CrcMismatch => 0x000A
  | .ApplyRejected => 0x000B
  | .ApplyFailed => 0x000C
  | .Timeout => 0x000D
  | .InternalError => 0x00FF

inductive OtaTransferState where
  | Idle
  | Receiving
  | Ready
  | Applying
  | Failed
  deriving DecidableEq

structure OtaRuntimeStatus where
  state : OtaTransferState
  code : OtaStatusCode
  expected_size : UInt32
  received_size : UInt32
  expected_crc32 : UInt32
  actual_crc32 : UInt32
  message : String
  deriving DecidableEq

/-- A reception under way. `received_size` counts the contiguous bytes from offset 0, and the bitmap
holds one bit for each chunk, in whole bytes. -/
structure ReceiveSession where
  active : Bool
  sender : MacAddress
  corr_id : UInt32
  expected_size : UInt32
  expected_crc32 : UInt32
  chunk_size : UInt32
  received_size : UInt32
  unique_received_size : UInt32
  last_activity_epoch_s : UInt32
  chunk_bitmap : List Bool
  chunk_count : UInt32
  deriving DecidableEq

namespace ReceiveSession

def idle : ReceiveSession where
  active := false
  sender := zeroMac
  corr_id := 0
  expected_size := 0
  expected_crc32 := 0
  chunk_size := 0
  received_size := 0
  unique_received_size := 0
  last_activity_epoch_s := 0
  chunk_bitmap := []
  chunk_count := 0

def isChunkReceived (r : ReceiveSession) (chunk_index : UInt32) : Bool :=
  if chunk_index ≥ r.chunk_count then false else r.chunk_bitmap.getD chunk_index.toNat false

def markChunkReceived (r : ReceiveSession) (chunk_index : UInt32) : ReceiveSession :=
  if chunk_index ≥ r.chunk_count then r
  else { r with chunk_bitmap := r.chunk_bitmap.set chunk_index.toNat true }

def chunkSizeAt (r : ReceiveSession) (chunk_index : UInt32) : UInt32 :=
  if chunk_index ≥ r.chunk_count ∨ r.chunk_size = 0 then 0
  else if chunk_index + 1 < r.chunk_count then r.chunk_size
  else r.expected_size - chunk_index * r.chunk_size

/-- The scan of `refreshContiguousReceived_`. It moves on by at least one chunk a turn, so as many
turns as there are chunks are enough. -/
def contiguousFrom (r : ReceiveSession) : Nat → UInt32 → UInt32
  | 0, contiguous => contiguous
  | n + 1, contiguous =>
    if contiguous < r.expected_size then
      let chunk_index := contiguous / r.chunk_size
      if !r.isChunkReceived chunk_index then contiguous
      else if r.chunkSizeAt chunk_index = 0 then contiguous
      else r.contiguousFrom n (contiguous + r.chunkSizeAt chunk_index)
    else contiguous

def refreshContiguousReceived (r : ReceiveSession) : ReceiveSession :=
  if r.chunk_size = 0 then { r with received_size := 0 }
  else { r with received_size := r.contiguousFrom (r.chunk_count.toNat + 1) r.received_size }

end ReceiveSession

structure OtaManagerConfig where
  max_firmware_bytes : UInt32
  receive_timeout_s : UInt32

/-- The receive side of the OTA manager. A null `psram_pool_` is `none`. -/
structure OtaManager where
  config : OtaManagerConfig
  psram_pool : Option Bytes
  psram_pool_size : UInt32
  receive : ReceiveSession
  receive_meta : FirmwareImageMetadata
  status : OtaRuntimeStatus

inductive OtaGateDecision where
  | Ready
  | Denied
  | Busy
  | PrepFailed
  deriving DecidableEq

/-- What `beginReceive` finds outside the manager: the clock, the gate's answer, the storage folders,
the pool it can allocate and the probe of the temporary file. -/
structure BeginEnvironment where
  now_epoch_s : UInt32
  gate : Option (OtaGateDecision × String)
  folders : Bool
  pool : Option Bytes
  temp_file : Bool
  storage_message : String

namespace OtaManager

def contiguousReceiveSize (m : OtaManager) : UInt32 :=
  if m.receive.active then m.receive.received_size else 0

def noMetadata : FirmwareImageMetadata := ⟨[], [], []⟩

def clearReceive (m : OtaManager) : OtaManager :=
  { m with receive := .idle, receive_meta := noMetadata }

def fail (m : OtaManager) (code : OtaStatusCode) (message : String) : OtaManager :=
  { m with status := { m.status with state := .Failed, code := code, message := message } }

def expireReceiveIfStale (m : OtaManager) (now_s : UInt32) : OtaManager :=
  if !m.receive.active then m
  else if m.config.receive_timeout_s = 0 then m
  else if now_s = 0 ∨ m.receive.last_activity_epoch_s = 0 then m
  else
    let elapsed := if now_s ≥ m.receive.last_activity_epoch_s then
      now_s - m.receive.last_activity_epoch_s else 0
    if elapsed < m.config.receive_timeout_s then m
    else m.clearReceive.fail .Timeout "ota transfer timeout"

def abortReceive (m : OtaManager) (sender : MacAddress) (corr_id : UInt32) : OtaManager :=
  if !m.receive.active || m.receive.sender ≠ sender || m.receive.corr_id ≠ corr_id then m
  else m.clearReceive.fail .InvalidState "ota transfer aborted"

def gateCode : OtaGateDecision → OtaStatusCode
  | .Busy => .GateBusy
  | .PrepFailed => .GatePrepFailed
  | _ => .GateDenied

def gateDecisionMessage : OtaGateDecision → String
  | .Ready => "ready"
  | .Denied => "denied"
  | .Busy => "busy"
  | .PrepFailed => "prep_failed"

def ensurePsramPool (m : OtaManager) (pool : Option Bytes) : Bool × OtaManager :=
  if m.config.max_firmware_bytes = 0 then (false, m)
  else if m.psram_pool.isSome && m.psram_pool_size = m.config.max_firmware_bytes then (true, m)
  else
    match pool with
    | none => (false, { m with psram_pool := none, psram_pool_size := 0 })
    | some bytes =>
      (true, { m with psram_pool := some bytes, psram_pool_size := m.config.max_firmware_bytes })

/-- The pool can hold an image of `size` bytes. -/
def hasRoom (m : OtaManager) (size : UInt32) : Bool := m.psram_pool.isSome && size ≤ m.psram_pool_size

def freshSession (sender : MacAddress) (corr_id total_size chunk_size image_crc32 now_s : UInt32) :
    ReceiveSession :=
  let chunk_count := (total_size + chunk_size - 1) / chunk_size
  { ReceiveSession.idle with
    active := true
    sender := sender
    corr_id := corr_id
    expected_size := total_size
    expected_crc32 := image_crc32
    chunk_size := chunk_size
    last_activity_epoch_s := now_s
    chunk_count := chunk_count
    chunk_bitmap := List.replicate (8 * ((chunk_count + 7) / 8).toNat) false }

def orDefault (text default : String) : String := if text.isEmpty then default else text

/-- The part of `beginReceive` after its checks. -/
def openSession (m : OtaManager) (sender : MacAddress)
    (corr_id total_size chunk_size image_crc32 : UInt32) (metadata : FirmwareImageMetadata)
    (env : BeginEnvironment) : Bool × OtaManager :=
  let m := if m.receive.active then m.abortReceive m.receive.sender m.receive.corr_id else m
  if !env.temp_file then
    (false, m.clearReceive.fail .StorageNotReady (orDefault env.storage_message "create temp failed"))
  else
    (true, { m with
      receive := freshSession sender corr_id total_size chunk_size image_crc32 env.now_epoch_s
      receive_meta := metadata
      status := { state := .Receiving, code := .Ok, expected_size := total_size,
                  received_size := 0, expected_crc32 := image_crc32, actual_crc32 := 0,
                  message := "ota receiving" } })

def gateRefusal (gate : Option (OtaGateDecision × String)) : Option (OtaStatusCode × String) :=
  match gate with
  | none => none
  | some (decision, message) =>
    if decision = .Ready then none
    else some (gateCode decision, orDefault message (gateDecisionMessage decision))

def beginReceive (m : OtaManager) (sender : MacAddress)
    (corr_id total_size chunk_size image_crc32 : UInt32) (metadata : FirmwareImageMetadata)
    (env : BeginEnvironment) : Bool × OtaManager :=
  let m := m.expireReceiveIfStale env.now_epoch_s
  if total_size = 0 ∨ chunk_size = 0 then (false, m.fail .InvalidArgument "ota begin invalid size")
  else if m.config.max_firmware_bytes > 0 ∧ total_size > m.config.max_firmware_bytes then
    (false, m.fail .ImageTooLarge "image too large")
  else
    match gateRefusal env.gate with
    | some (code, message) => (false, m.fail code message)
    | none =>
      if !env.folders then
        (false, m.fail .StorageNotReady (orDefault env.storage_message "ota folders unavailable"))
      else
        let (ready, m) := m.ensurePsramPool env.pool
        if !ready then
          (false, m.fail .StorageNotReady (orDefault env.storage_message "ota psram pool unavailable"))
        else if !m.hasRoom total_size then
          (false, m.fail .StorageNotReady "ota psram pool too small")
        else m.openSession sender corr_id total_size chunk_size image_crc32 metadata env

/-- Why `writeReceiveChunk` refuses a chunk of a valid session, in the order of its checks. -/
def chunkRefusal (m : OtaManager) (offset : UInt32) (data : Bytes) :
    Option (OtaStatusCode × String) :=
  let r := m.receive
  if data.isEmpty then some (.InvalidArgument, "ota chunk empty")
  else if !m.hasRoom r.expected_size then
    some (.StorageNotReady, "ota psram pool unavailable")
  else if offset ≥ r.expected_size then some (.SizeMismatch, "ota chunk offset out of range")
  else if offset + data.length.toUInt32 > r.expected_size then
    some (.SizeMismatch, "ota chunk exceeds declared size")
  else if r.chunk_size = 0 ∨ offset % r.chunk_size ≠ 0 then
    some (.InvalidArgument, "ota chunk offset alignment invalid")
  else if offset / r.chunk_size ≥ r.chunk_count then
    some (.InvalidArgument, "ota chunk index out of range")
  else if data.length ≠ (r.chunkSizeAt (offset / r.chunk_size)).toNat then
    some (.SizeMismatch, "ota chunk size mismatch")
  else none

/-- `memcpy(pool + offset, data, len)`. -/
def copyInto (pool : Bytes) (offset : Nat) (data : Bytes) : Bytes :=
  pool.take offset ++ data ++ pool.drop (offset + data.length)

/-- The part of `writeReceiveChunk` after its checks. -/
def acceptChunk (m : OtaManager) (offset : UInt32) (data : Bytes) (now_s : UInt32) : OtaManager :=
  let chunk_index := offset / m.receive.chunk_size
  let already_received := m.receive.isChunkReceived chunk_index
  let marked := if already_received then m.receive else
    { m.receive.markChunkReceived chunk_index with
      unique_received_size := m.receive.unique_received_size + data.length.toUInt32 }
  let receive := { marked.refreshContiguousReceived with last_activity_epoch_s := now_s }
  { m with
    psram_pool := m.psram_pool.map fun pool => copyInto pool offset.toNat data
    receive := receive
    status := { m.status with
      state := .Receiving, code := .Ok, received_size := receive.received_size } }

def validateSession (m : OtaManager) (sender : MacAddress) (corr_id : UInt32) : Bool :=
  m.receive.active && m.receive.corr_id = corr_id && m.receive.sender = sender

def writeReceiveChunk (m : OtaManager) (sender : MacAddress) (corr_id offset : UInt32)
    (data : Bytes) (now_s : UInt32) : Bool × OtaManager :=
  let m := m.expireReceiveIfStale now_s
  if !m.validateSession sender corr_id then (false, m)
  else
    match m.chunkRefusal offset data with
    | some (code, message) => (false, m.fail code message)
    | none => (true, m.acceptChunk offset data now_s)

end OtaManager

end EspNowLink
