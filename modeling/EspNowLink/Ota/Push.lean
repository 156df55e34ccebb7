import EspNowLink.Management.Commands
import EspNowLink.Ota.SlaveReception

namespace EspNowLink

inductive PushPhase where
  | Idle
  | WaitBegin
  | Streaming
  | WaitEnd
  deriving DecidableEq

structure OtaPushLocalSession where
  active : Bool
  peer : MacAddress
  req_id : UInt32
  chunk_bytes : UInt16
  total_size : UInt32
  image_crc32 : UInt32
  phase : PushPhase
  next_offset : UInt32
  pending_end_offset : UInt32
  chunks_sent : UInt16
  waiting_chunk_ack : Bool
  begin_acked : Bool
  retry_count : UInt8
  send_fail_streak : UInt8
  window_size_chunks : UInt8
  started_ms : UInt32
  last_activity_ms : UInt32
  wait_started_ms : UInt32
  last_status_poll_ms : UInt32
  next_send_ms : UInt32
  remote_acked_offset : UInt32
  recovery_until_acked_offset : UInt32
  deriving DecidableEq

/-- What a push session sends to the slave and reports to its owner. -/
inductive PushOutput where
  | begin (total_size chunk_size image_crc32 : UInt32) (metadata : FirmwareImageMetadata)
  | chunk (offset : UInt32) (data : Bytes)
  | endFrame (total_size image_crc32 : UInt32)
  | statusRequest
  | clearScope
  | finalizeAck (offset : UInt32) (status_code : OtaStatusCode)
  | done (success : Bool) (status : ManagementStatus) (ota_status_code : OtaStatusCode)
      (reason : String) (next_offset total_size : UInt32) (chunks_sent : UInt16)
  deriving DecidableEq

/-- What the pump finds outside the session: the pull and storage services, the pair record, whether
the image can be read at an offset, and whether the radio takes a frame. -/
structure PushEnvironment where
  pull : Bool
  storage : Bool
  paired : Bool
  readable : UInt32 → Bool
  chunk_sent : UInt32 → Bool
  end_sent : Bool

def kWaitBeginTimeoutMs : Int := 12000
def kWaitBeginOptimisticStartMs : Int := 900
def kChunkBudgetPerTick : Nat := 8
def kChunkAckTimeoutMs : Int := 1500
def kChunkAckTimeoutRecoveryMs : Int := 450
def kChunkAckMaxRetry : UInt8 := 6
def kChunkAckMaxRetryRecovery : UInt8 := 20
def kWindowRecoveryChunks : UInt8 := 1
def kWaitEndTimeoutMs : Int := 60000
def kStatusPollIntervalMs : Int := 250

namespace OtaPushLocalSession

def idle : OtaPushLocalSession where
  active := false
  peer := zeroMac
  req_id := 0
  chunk_bytes := 0
  total_size := 0
  image_crc32 := 0
  phase := .Idle
  next_offset := 0
  pending_end_offset := 0
  chunks_sent := 0
  waiting_chunk_ack := false
  begin_acked := false
  retry_count := 0
  send_fail_streak := 0
  window_size_chunks := 16
  started_ms := 0
  last_activity_ms := 0
  wait_started_ms := 0
  last_status_poll_ms := 0
  next_send_ms := 0
  remote_acked_offset := 0
  recovery_until_acked_offset := 0

/-- `startOtaPushLocalSession` once the image and its metadata are read and the begin frame is out. -/
def start (peer : MacAddress) (req_id : UInt32) (chunk_bytes : UInt16)
    (size_bytes crc now_ms : UInt32) : OtaPushLocalSession :=
  { idle with
    active := true
    peer := peer
    req_id := req_id
    chunk_bytes := chunk_bytes
    total_size := size_bytes
    image_crc32 := crc
    phase := .WaitBegin
    started_ms := now_ms
    last_activity_ms := now_ms
    next_send_ms := now_ms }

/-- `stopOtaPushLocal`; a paired peer that can be reached is told to drop what it received. -/
def stopOtaPushLocal (m : OtaPushLocalSession) (reachable : Bool) (success : Bool)
    (status : ManagementStatus) (code : OtaStatusCode) (reason : String) :
    List PushOutput × OtaPushLocalSession :=
  if !m.active then ([], m)
  else
    ((if !success && reachable then [.clearScope] else []) ++
      [.done success status code reason m.next_offset m.total_size m.chunks_sent], idle)

def startStreaming (m : OtaPushLocalSession) (now_ms : UInt32) : OtaPushLocalSession :=
  { m with
    begin_acked := true
    phase := .Streaming
    waiting_chunk_ack := false
    retry_count := 0
    next_send_ms := now_ms }

/-- `pumpOtaPushLocal` in the phase `WaitBegin`. -/
def pumpWaitBegin (m : OtaPushLocalSession) (env : PushEnvironment) (now_ms : UInt32) :
    List PushOutput × OtaPushLocalSession :=
  if elapsed now_ms m.last_activity_ms kWaitBeginTimeoutMs then
    m.stopOtaPushLocal env.paired false .Timeout .Timeout "begin status timeout"
  else
    let poll := elapsed now_ms m.last_status_poll_ms kStatusPollIntervalMs
    let m := if poll then { m with last_status_poll_ms := now_ms } else m
    let out := if poll then [PushOutput.statusRequest] else []
    if !m.begin_acked && elapsed now_ms m.started_ms kWaitBeginOptimisticStartMs then
      (out, m.startStreaming now_ms)
    else (out, m)

def ackTimeout (m : OtaPushLocalSession) : Int :=
  if m.window_size_chunks ≤ kWindowRecoveryChunks then kChunkAckTimeoutRecoveryMs
  else kChunkAckTimeoutMs

def retryMax (m : OtaPushLocalSession) : UInt8 :=
  if m.window_size_chunks ≤ kWindowRecoveryChunks then kChunkAckMaxRetryRecovery
  else kChunkAckMaxRetry

/-- The session gives the window up and will send it again from the last acknowledged offset. -/
def rewind (m : OtaPushLocalSession) (now_ms : UInt32) : OtaPushLocalSession :=
  { m with
    retry_count := m.retry_count + 1
    waiting_chunk_ack := false
    pending_end_offset := 0
    next_offset := min m.remote_acked_offset m.total_size
    next_send_ms := now_ms + 12 }

def pumpWaitingAck (m : OtaPushLocalSession) (env : PushEnvironment) (now_ms : UInt32) :
    List PushOutput × OtaPushLocalSession :=
  if m.remote_acked_offset ≥ m.pending_end_offset then
    ([], { m with waiting_chunk_ack := false, retry_count := 0, pending_end_offset := 0 })
  else if elapsed now_ms m.wait_started_ms m.ackTimeout then
    if m.retry_count ≥ m.retryMax then
      m.stopOtaPushLocal env.paired false .Timeout .Timeout "window ack timeout"
    else ([], m.rewind now_ms)
  else ([], m)

def windowEnd (m : OtaPushLocalSession) (start : UInt32) : UInt32 :=
  min (start + m.chunk_bytes.toUInt32 * m.window_size_chunks.toUInt32) m.total_size

def openWindow (m : OtaPushLocalSession) : OtaPushLocalSession :=
  if m.pending_end_offset = 0 ∨ m.next_offset ≥ m.pending_end_offset then
    { m with pending_end_offset := m.windowEnd m.next_offset }
  else m

/-- `readAt`: the bytes of the image from `offset`, at most `req` of them. -/
def readAt (image : Bytes) (offset : UInt32) (req : Nat) : Bytes :=
  (image.drop offset.toNat).take req

/-- The chunk of the image that the pump sends at `offset`. -/
def chunkData (m : OtaPushLocalSession) (image : Bytes) (offset : UInt32) : Bytes :=
  let remaining := m.total_size - offset
  let req := min m.chunk_bytes.toNat remaining.toNat
  (readAt image offset req).take remaining.toNat

def noteSent (m : OtaPushLocalSession) (len : Nat) : OtaPushLocalSession :=
  { m with
    send_fail_streak := 0
    next_offset := m.next_offset + len.toUInt32
    chunks_sent := m.chunks_sent + 1 }

def noteSendFailed (m : OtaPushLocalSession) (now_ms : UInt32) : OtaPushLocalSession :=
  { m with
    send_fail_streak := m.send_fail_streak + 1
    next_send_ms := now_ms + min 40 (2 + (m.send_fail_streak + 1).toUInt32 * 2) }

/-- The send loop of the pump. The flag tells whether it ran to its end or the pump returned in it. -/
def sendChunks (image : Bytes) (env : PushEnvironment) (now_ms : UInt32) :
    Nat → OtaPushLocalSession → Bool × List PushOutput × OtaPushLocalSession
  | 0, m => (true, [], m)
  | budget + 1, m =>
    if m.next_offset < m.total_size ∧ m.next_offset < m.pending_end_offset then
      let data := m.chunkData image m.next_offset
      if !env.readable m.next_offset || data.isEmpty then
        (false, m.stopOtaPushLocal env.paired false .InternalError .StorageNotReady
          "chunk read failed")
      else if !env.chunk_sent m.next_offset then
        if m.send_fail_streak + 1 ≥ 24 then
          (false, ({ m with send_fail_streak := m.send_fail_streak + 1 } :
            OtaPushLocalSession).stopOtaPushLocal env.paired false .InternalError .InternalError
              "chunk send failed")
        else (false, [], m.noteSendFailed now_ms)
      else
        let (ran, out, n) := sendChunks image env now_ms budget (m.noteSent data.length)
        (ran, .chunk m.next_offset data :: out, n)
    else (true, [], m)

/-- The end of the pump after its send loop. -/
def closeWindow (m : OtaPushLocalSession) (now_ms : UInt32) : OtaPushLocalSession :=
  if m.next_offset ≥ m.pending_end_offset then
    { m with waiting_chunk_ack := true, wait_started_ms := now_ms, retry_count := 0 }
  else m

def pumpSending (m : OtaPushLocalSession) (image : Bytes) (env : PushEnvironment)
    (now_ms : UInt32) : List PushOutput × OtaPushLocalSession :=
  if m.next_offset ≥ m.total_size then
    if !env.end_sent then
      m.stopOtaPushLocal env.paired false .InternalError .InternalError "end send failed"
    else
      ([.endFrame m.total_size m.image_crc32],
        { m with phase := .WaitEnd, last_activity_ms := now_ms })
  else if !elapsed now_ms m.next_send_ms 0 then ([], m)
  else
    let (ran, out, n) := sendChunks image env now_ms kChunkBudgetPerTick m.openWindow
    (out, if ran then n.closeWindow now_ms else n)

def noteBegun (m : OtaPushLocalSession) (now_ms : UInt32) : OtaPushLocalSession :=
  if m.begin_acked then m else { m with begin_acked := true, next_send_ms := now_ms }

def pumpStreaming (m : OtaPushLocalSession) (image : Bytes) (env : PushEnvironment)
    (now_ms : UInt32) : List PushOutput × OtaPushLocalSession :=
  if !m.begin_acked && !elapsed now_ms m.started_ms kWaitBeginOptimisticStartMs then ([], m)
  else
    let m := m.noteBegun now_ms
    if m.waiting_chunk_ack then m.pumpWaitingAck env now_ms
    else m.pumpSending image env now_ms

def pumpOtaPushLocal (m : OtaPushLocalSession) (image : Bytes) (env : PushEnvironment)
    (now_ms : UInt32) : List PushOutput × OtaPushLocalSession :=
  if !m.active then ([], m)
  else if !env.pull || !env.storage then
    m.stopOtaPushLocal (env.pull && env.paired) false .UnsupportedCommand .Ok "local ota push unavailable"
  else if !env.paired then
    m.stopOtaPushLocal env.paired false .NotPaired .Ok "paired peer lost"
  else
    match m.phase with
    | .WaitBegin => m.pumpWaitBegin env now_ms
    | .WaitEnd =>
      if elapsed now_ms m.last_activity_ms kWaitEndTimeoutMs then
        m.stopOtaPushLocal env.paired false .Timeout .Timeout "finalize timeout"
      else ([], m)
    | .Streaming => m.pumpStreaming image env now_ms
    | .Idle => ([], m)

def noteAckedOffset (m : OtaPushLocalSession) (offset : UInt32) : OtaPushLocalSession :=
  if offset > m.remote_acked_offset then { m with remote_acked_offset := offset } else m

/-- The recovery after a nack ends, and with it the window of one chunk. -/
def endRecovery (m : OtaPushLocalSession) : OtaPushLocalSession :=
  if m.recovery_until_acked_offset ≠ 0 ∧ m.remote_acked_offset ≥ m.recovery_until_acked_offset then
    { m with recovery_until_acked_offset := 0, window_size_chunks := 16 }
  else m

/-- `onEvent`, a `ChunkAck` of the running transfer. -/
def onChunkAck (m : OtaPushLocalSession) (offset now_ms : UInt32) : OtaPushLocalSession :=
  let m := (m.noteAckedOffset offset).endRecovery
  if !m.begin_acked && offset = 0 then m.startStreaming now_ms
  else if m.phase = .Streaming ∧ m.waiting_chunk_ack ∧ offset ≥ m.pending_end_offset then
    { m with waiting_chunk_ack := false, retry_count := 0, pending_end_offset := 0 }
  else m

/-- `onEvent`, a `ChunkNack` of the running transfer. -/
def onChunkNack (m : OtaPushLocalSession) (offset now_ms : UInt32) : OtaPushLocalSession :=
  if m.phase ≠ .Streaming then m
  else
    let rewind_offset := max (min (min offset m.total_size) m.next_offset) m.remote_acked_offset
    { m with
      remote_acked_offset := rewind_offset
      waiting_chunk_ack := false
      retry_count := 0
      next_offset := rewind_offset
      pending_end_offset := 0
      window_size_chunks := 1
      recovery_until_acked_offset := min (rewind_offset + m.chunk_bytes.toUInt32) m.total_size
      next_send_ms := now_ms + 20 }

/-- The offset of a status frame as the event carries it: 31 bits of it. -/
def eventOffset (status : FirmwareStatus) : UInt32 := status.offset_bytes &&& 0x7FFFFFFF

/-- What `onEvent` does to the session for an `OtaTransferStatus`. -/
def onTransferStatus (m : OtaPushLocalSession) (reachable : Bool) (status : FirmwareStatus)
    (now_ms : UInt32) : List PushOutput × OtaPushLocalSession :=
  let ack : List PushOutput :=
    if status.kind = .FinalizeOk ∨ status.kind = .FinalizeFail then
      [.finalizeAck (eventOffset status) status.status_code]
    else []
  if !m.active || status.transfer_corr_id ≠ m.req_id then (ack, m)
  else
    let m := { m with last_activity_ms := now_ms }
    match status.kind with
    | .ChunkAck => (ack, m.onChunkAck (eventOffset status) now_ms)
    | .ChunkNack => (ack, m.onChunkNack (eventOffset status) now_ms)
    | .FinalizeOk =>
      if m.phase = .WaitEnd then
        let (out, n) := m.stopOtaPushLocal reachable true .Ok status.status_code
          "local ota push complete"
        (ack ++ out, n)
      else (ack, m)
    | .FinalizeFail =>
      if m.phase = .WaitEnd then
        let (out, n) := m.stopOtaPushLocal reachable false .InternalError status.status_code
          "local ota finalize failed"
        (ack ++ out, n)
      else (ack, m)
    | .FinalizeAck => (ack, m)

end OtaPushLocalSession

/-- The chunks among what the session sent. -/
def chunkFrames (out : List PushOutput) : List (UInt32 × Bytes) :=
  out.filterMap fun
    | .chunk offset data => some (offset, data)
    | _ => none

end EspNowLink
