import EspNowLink.Ota.Push

namespace EspNowLink

open OtaPushLocalSession

/-- The payload that `sendFirmwareBegin` builds. -/
def beginPayload (total_size chunk_size image_crc32 : UInt32) (metadata : FirmwareImageMetadata) :
    Bytes :=
  le32 total_size ++ le32 chunk_size ++ le32 image_crc32 ++
    if metadata.sw_version.isEmpty && metadata.build_id.isEmpty && metadata.target_role.isEmpty then
      []
    else if metadata.target_role.isEmpty then
      [kFirmwareMetaMagic, kFirmwareMetaVersionV1, metadata.sw_version.length.toUInt8,
        metadata.build_id.length.toUInt8] ++ metadata.sw_version ++ metadata.build_id
    else
      [kFirmwareMetaMagic, kFirmwareMetaVersionV2, metadata.sw_version.length.toUInt8,
        metadata.build_id.length.toUInt8, metadata.target_role.length.toUInt8] ++
        metadata.sw_version ++ metadata.build_id ++ metadata.target_role

/-- A push session of the master and the slave's reception of it, with every chunk and every status
that was ever sent: the radio may lose, delay, repeat and reorder them. The begin frame arrives at
most once. The end frame is left out: the session has left `Streaming` for good when it sends it. -/
structure PushLink where
  image : Bytes
  master_mac : MacAddress
  corr_id : UInt32
  begin_payload : Option Bytes
  master : OtaPushLocalSession
  slave : SlaveReception
  chunks : List (UInt32 × Bytes)
  statuses : List FirmwareStatus

inductive PushInput where
  | pump (env : PushEnvironment) (now_ms : UInt32)
  | deliverBegin (env : BeginEnvironment)
  | deliverChunk (index : Nat) (now_s now_ms : UInt32)
  | deliverStatus (index : Nat) (reachable : Bool) (now_ms : UInt32)
  | sinkTick (now_s : UInt32)

namespace PushLink

def step (l : PushLink) : PushInput → PushLink
  | .pump env now_ms =>
    let (out, master) := l.master.pumpOtaPushLocal l.image env now_ms
    { l with master := master, chunks := l.chunks ++ chunkFrames out }
  | .deliverBegin env =>
    match l.begin_payload with
    | none => l
    | some payload =>
      let (_, out, slave) := l.slave.handleFirmwareBegin l.master_mac l.corr_id payload env
      { l with begin_payload := none, slave := slave, statuses := l.statuses ++ out }
  | .deliverChunk index now_s now_ms =>
    match l.chunks[index]? with
    | none => l
    | some (offset, data) =>
      let (_, out, slave) :=
        l.slave.handleFirmwareChunk l.master_mac l.corr_id offset data now_s now_ms
      { l with slave := slave, statuses := l.statuses ++ out }
  | .deliverStatus index reachable now_ms =>
    match l.statuses[index]? with
    | none => l
    | some status =>
      { l with master := (l.master.onTransferStatus reachable status now_ms).2 }
  | .sinkTick now_s =>
    { l with slave := { l.slave with sink := l.slave.sink.expireReceiveIfStale now_s } }

end PushLink

/-- What `startOtaPushLocalSession` is called with and finds, and the slave it talks to. -/
structure PushStart where
  image : Bytes
  metadata : FirmwareImageMetadata
  master_mac : MacAddress
  slave_mac : MacAddress
  corr_id : UInt32
  chunk_bytes : UInt16
  crc : UInt32
  now_ms : UInt32
  slave : SlaveReception

namespace PushStart

/-- The checks of `startOtaPushLocalSession` on the chunk size and the image, and a slave that is
not receiving anything. -/
structure Admitted (p : PushStart) : Prop where
  chunk : 32 ≤ p.chunk_bytes ∧ p.chunk_bytes ≤ 220
  size : 0 < p.image.length ∧ p.image.length < 2 ^ 32
  role : p.slave.local_role = .Slave
  inactive : p.slave.sink.receive.active = false

def link (p : PushStart) : PushLink where
  image := p.image
  master_mac := p.master_mac
  corr_id := p.corr_id
  begin_payload := some (beginPayload p.image.length.toUInt32 p.chunk_bytes.toUInt32 p.crc p.metadata)
  master := .start p.slave_mac p.corr_id p.chunk_bytes p.image.length.toUInt32 p.crc p.now_ms
  slave := p.slave
  chunks := []
  statuses := []

end PushStart

namespace OtaPushLocalSession

/-- The chunks from `offset` up to `stop`, as the send loop of the pump cuts them; `n` bounds their
number. -/
def windowChunks (m : OtaPushLocalSession) (image : Bytes) (stop : UInt32) :
    Nat → UInt32 → List (UInt32 × Bytes)
  | 0, _ => []
  | n + 1, offset =>
    if offset < m.total_size ∧ offset < stop then
      let data := m.chunkData image offset
      (offset, data) :: m.windowChunks image stop n (offset + data.length.toUInt32)
    else []

/-- One full retransmission of a session that waits: the window from the last acknowledged offset. -/
def retransmission (m : OtaPushLocalSession) (image : Bytes) : List (UInt32 × Bytes) :=
  m.windowChunks image (m.windowEnd m.remote_acked_offset) m.window_size_chunks.toNat
    m.remote_acked_offset

/-- The session waits for an acknowledgement of `pending_end`. -/
structure AwaitsAck (m : OtaPushLocalSession) (pending_end : UInt32) : Prop where
  active : m.active = true
  streaming : m.phase = .Streaming
  waiting : m.waiting_chunk_ack = true
  pending : m.pending_end_offset = pending_end
  unacked : m.remote_acked_offset < pending_end

end OtaPushLocalSession

/-- A chunk frame and the clocks of the sink and of the slave when it arrives. -/
structure ChunkArrival where
  offset : UInt32
  data : Bytes
  now_s : UInt32
  now_ms : UInt32

namespace SlaveReception

/-- The slave takes chunk frames one after the other. -/
def deliverChunks (s : SlaveReception) (sender : MacAddress) (corr_id : UInt32) :
    List ChunkArrival → List FirmwareStatus × SlaveReception
  | [] => ([], s)
  | a :: rest =>
    let (_, out, s) := s.handleFirmwareChunk sender corr_id a.offset a.data a.now_s a.now_ms
    let (later, s) := s.deliverChunks sender corr_id rest
    (out ++ later, s)

end SlaveReception

/-- The sink's session never goes stale while the chunks arrive. -/
inductive OtaManager.StaysLive (sender : MacAddress) (corr_id : UInt32) :
    OtaManager → List ChunkArrival → Prop
  | nil (m : OtaManager) : StaysLive sender corr_id m []
  | cons {m : OtaManager} {a : ChunkArrival} {rest : List ChunkArrival} :
    m.expireReceiveIfStale a.now_s = m →
    StaysLive sender corr_id (m.writeReceiveChunk sender corr_id a.offset a.data a.now_s).2 rest →
    StaysLive sender corr_id m (a :: rest)

end EspNowLink
