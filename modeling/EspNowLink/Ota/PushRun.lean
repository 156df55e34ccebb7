import EspNowLink.Ota.PushWindow
import EspNowLink.Ota.ReceiveEnd

namespace EspNowLink

open OtaPushLocalSession

def FirmwareStatusKind.toUInt8 : FirmwareStatusKind → UInt8
  | .ChunkAck => 0x01
  | .ChunkNack => 0x02
  | .FinalizeOk => 0x03
  | .FinalizeFail => 0x04
  | .FinalizeAck => 0x05

namespace SlaveReception

def startFinalize (s : SlaveReception) (kind : FirmwareStatusKind) (corr_id offset : UInt32)
    (code : OtaStatusCode) (now_ms : UInt32) : SlaveReception :=
  { s with
    ota_finalize_pending := true
    ota_finalize_corr_id := corr_id
    ota_finalize_offset := offset
    ota_finalize_status_code := code.toUInt16
    ota_finalize_kind := kind.toUInt8
    ota_finalize_started_ms := now_ms
    ota_finalize_last_tx_ms := now_ms }

def clearTransfer (s : SlaveReception) : SlaveReception :=
  { s with
    ota_transfer_corr_id := 0
    ota_transfer_last_received_offset := 0
    ota_transfer_expected_size := 0
    ota_transfer_last_acked_offset := 0
    ota_transfer_ack_step_bytes := 0
    ota_transfer_next_ack_offset := 0
    ota_transfer_last_nack_offset := 0
    ota_transfer_last_nack_ms := 0 }

/-- The part of `handleFirmwareEnd` after the sink has answered. -/
def endAnswered (s : SlaveReception) (ok : Bool) (corr_id total_size now_ms : UInt32) :
    List FirmwareStatus × SlaveReception :=
  if s.local_role ≠ .Slave then ([], s)
  else
    let kind : FirmwareStatusKind := if ok then .FinalizeOk else .FinalizeFail
    let offset := if ok then total_size else s.ota_transfer_last_received_offset
    let code : OtaStatusCode :=
      if ok then .Ok else if s.sink.status.code = .Ok then .InvalidState else s.sink.status.code
    let s := s.startFinalize kind corr_id offset code now_ms
    ([⟨kind, corr_id, offset, code⟩],
      if s.ota_transfer_corr_id = corr_id then s.clearTransfer else s)

variable {Files : Type} (b : OtaStorageBackend Files) (d : OtaFolders)

def handleFirmwareEnd (s : SlaveReception) (sender : MacAddress)
    (corr_id total_size crc now_s now_ms : UInt32) (manifest : Option Bytes) (files : Files) :
    Bool × List FirmwareStatus × SlaveReception × Files :=
  if s.hung then (false, [], s, files)
  else
    let (path, sink, files) :=
      s.sink.endReceive b d sender corr_id total_size crc now_s manifest files
    let (out, s) :=
      ({ s with sink := sink } : SlaveReception).endAnswered path.isSome corr_id total_size now_ms
    (path.isSome, out, s, files)

end SlaveReception

/-- A push session with everything that reaches it. The peer's frames are those it sent, and they may
be lost, delayed, repeated and reordered; other devices send what they like. `finalized` says that the
peer has stored the image, `succeeded` that the session was reported successful. -/
structure PushRun (Files : Type) where
  link : PushLink
  peer : MacAddress
  files : Files
  ends : List (UInt32 × UInt32)
  finalized : Bool
  succeeded : Bool

inductive PushRunInput where
  | link (i : PushInput)
  | deliverEnd (index : Nat) (now_s now_ms : UInt32) (manifest : Option Bytes)
  | foreignStatus (sender : MacAddress) (status : FirmwareStatus) (reachable : Bool) (now_ms : UInt32)
  | mandatoryEvent (sender : MacAddress) (event_id : UInt16) (correlation_id : UInt32)
      (reachable : Bool)

def endFrames (out : List PushOutput) : List (UInt32 × UInt32) :=
  out.filterMap fun
    | .endFrame total_size crc => some (total_size, crc)
    | _ => none

/-- What the master sends and reports in a step of the link. -/
def PushLink.masterOutput (l : PushLink) : PushInput → List PushOutput
  | .pump env now_ms => (l.master.pumpOtaPushLocal l.image env now_ms).1
  | .deliverStatus index reachable now_ms =>
    match l.statuses[index]? with
    | none => []
    | some status => (l.master.onTransferStatus reachable status now_ms).1
  | _ => []

namespace PushRun

variable {Files : Type} (b : OtaStorageBackend Files) (d : OtaFolders)

/-- The master's session is `n` after it sent and reported `out`. -/
def note (r : PushRun Files) (out : List PushOutput) (l : PushLink) : PushRun Files :=
  { r with
    link := l
    ends := r.ends ++ endFrames out
    succeeded := r.succeeded || out.any (·.isSuccess) }

def step (r : PushRun Files) : PushRunInput → PushRun Files
  | .link i => r.note (r.link.masterOutput i) (r.link.step i)
  | .deliverEnd index now_s now_ms manifest =>
    match r.ends[index]? with
    | none => r
    | some (total_size, crc) =>
      let (ok, out, slave, files) := r.link.slave.handleFirmwareEnd b d r.link.master_mac
        r.link.corr_id total_size crc now_s now_ms manifest r.files
      { r with
        link := { r.link with slave := slave, statuses := r.link.statuses ++ out }
        files := files
        finalized := r.finalized || ok }
  | .foreignStatus sender status reachable now_ms =>
    if sender = r.peer then r
    else
      let (out, master) := r.link.master.onTransferStatus reachable status now_ms
      r.note out { r.link with master := master }
  | .mandatoryEvent sender event_id correlation_id reachable =>
    let (out, master) := r.link.master.onMandatoryEvent reachable sender event_id correlation_id
    r.note out { r.link with master := master }

/-- The bytes of the image that the peer holds from its start on. -/
def held (r : PushRun Files) : UInt32 :=
  if r.finalized then r.link.image.length.toUInt32 else r.link.slave.sink.contiguousReceiveSize

def AllSent (r : PushRun Files) : Prop :=
  ∀ x < r.link.image.length, ∃ c ∈ r.link.chunks, c.1.toNat ≤ x ∧ x < c.1.toNat + c.2.length

/-- The peer has reported the whole image as received. -/
def AllAcked (r : PushRun Files) : Prop :=
  ∃ a ∈ r.link.statuses, (a.kind = .ChunkAck ∨ a.kind = .ChunkNack) ∧
    r.link.image.length ≤ a.offset_bytes.toNat

/-- What a push session promises in every state. -/
structure Safe (r : PushRun Files) : Prop where
  acked_total : r.link.master.active = true →
    r.link.master.remote_acked_offset ≤ r.link.master.total_size
  acked_held : r.link.master.active = true → r.link.master.remote_acked_offset ≤ r.held
  ended : r.ends ≠ [] → r.AllSent ∧ r.AllAcked
  success : r.succeeded = true → r.finalized = true ∧
    ∃ a ∈ r.link.statuses, a.kind = .FinalizeOk ∧ a.transfer_corr_id = r.link.corr_id

/-- A status frame of a device that is not the peer changes nothing in the session. -/
def IgnoresForeign (r : PushRun Files) : PushRunInput → Prop
  | .foreignStatus sender status reachable now_ms =>
    (r.step b d (.foreignStatus sender status reachable now_ms)).link.master = r.link.master
  | _ => True

/-- No other device uses the session's correlation id, no ready event of another transfer carries it as
its own number, and the peer drops nothing of what it has. -/
def Confined (r : PushRun Files) : PushRunInput → Prop
  | .link (.deliverChunk _ now_s _) => r.link.slave.sink.expireReceiveIfStale now_s = r.link.slave.sink
  | .link (.sinkTick now_s) => r.link.slave.sink.expireReceiveIfStale now_s = r.link.slave.sink
  | .link _ => True
  | .deliverEnd index now_s _ manifest =>
    ∀ total_size crc, r.ends[index]? = some (total_size, crc) →
      r.link.slave.sink.receive.active = true →
      (r.link.slave.sink.endReceive b d r.link.master_mac r.link.corr_id total_size crc now_s manifest
        r.files).1.isSome = true
  | .foreignStatus sender status _ _ => sender ≠ r.peer → status.transfer_corr_id ≠ r.link.corr_id
  | .mandatoryEvent sender event_id correlation_id _ =>
    event_id = kOtaTransferReadyEventId → sender = r.link.master.peer →
      correlation_id = r.link.corr_id → r.finalized = true

end PushRun

namespace PushStart

/-- Nothing was sent yet, and the peer's files are `files`. -/
def run {Files : Type} (p : PushStart) (files : Files) : PushRun Files where
  link := p.link
  peer := p.slave_mac
  files := files
  ends := []
  finalized := false
  succeeded := false

/-- The slave keeps no received offset of an earlier transfer of the same id. -/
def Clean (p : PushStart) : Prop :=
  p.slave.ota_transfer_last_received_offset = 0 ∨ p.slave.ota_transfer_corr_id ≠ p.corr_id

end PushStart

end EspNowLink
