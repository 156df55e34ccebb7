import EspNowLink.Ota.PushRun
import EspNowLink.Ota.StatusTruth

namespace EspNowLink

def kFinalizeStatusRetryIntervalMs : Int := 400
def kFinalizeStatusRetryWindowMs : Int := 12000

/-- A status frame handed to the transport. -/
structure StatusFrame where
  dest : MacAddress
  kind : UInt8
  transfer_corr_id : UInt32
  offset_bytes : UInt32
  status_code : UInt16
  deriving DecidableEq

def FirmwareStatus.frame (a : FirmwareStatus) (dest : MacAddress) : StatusFrame :=
  ⟨dest, a.kind.toUInt8, a.transfer_corr_id, a.offset_bytes, a.status_code.toUInt16⟩

/-- The kind, transfer id, offset and code of a status frame. -/
def parseFirmwareStatusPayload (payload : Bytes) : Option (UInt8 × UInt32 × UInt32 × UInt16) :=
  match payload with
  | kind :: t0 :: t1 :: t2 :: t3 :: o0 :: o1 :: o2 :: o3 :: c0 :: c1 :: _ =>
    some (kind, readLe32 t0 t1 t2 t3, readLe32 o0 o1 o2 o3, readLe16 c0 c1)
  | _ => none

/-- The sizes, CRC and metadata of a begin frame. -/
def parseFirmwareBegin (payload : Bytes) :
    Option (UInt32 × UInt32 × UInt32 × FirmwareImageMetadata) :=
  match payload with
  | t0 :: t1 :: t2 :: t3 :: c0 :: c1 :: c2 :: c3 :: k0 :: k1 :: k2 :: k3 :: rest =>
    (parseFirmwareMetadata rest).map fun metadata =>
      (readLe32 t0 t1 t2 t3, readLe32 c0 c1 c2 c3, readLe32 k0 k1 k2 k3, metadata)
  | _ => none

namespace SlaveReception

/-- The `ota_transfer_*` fields. -/
def tracking (s : SlaveReception) :
    UInt32 × UInt32 × UInt32 × UInt32 × UInt32 × UInt32 × UInt32 × UInt32 :=
  (s.ota_transfer_corr_id, s.ota_transfer_expected_size, s.ota_transfer_last_received_offset,
    s.ota_transfer_last_acked_offset, s.ota_transfer_ack_step_bytes, s.ota_transfer_next_ack_offset,
    s.ota_transfer_last_nack_offset, s.ota_transfer_last_nack_ms)

/-- The `ota_finalize_*` fields. -/
def report (s : SlaveReception) : Bool × UInt32 × UInt32 × UInt16 × UInt8 × UInt32 × UInt32 :=
  (s.ota_finalize_pending, s.ota_finalize_corr_id, s.ota_finalize_offset,
    s.ota_finalize_status_code, s.ota_finalize_kind, s.ota_finalize_started_ms,
    s.ota_finalize_last_tx_ms)

end SlaveReception

/-- The slave's side of a transfer with the peer its finalize report is for, and its files. -/
structure SlaveManager (Files : Type) extends SlaveReception where
  ota_finalize_peer : MacAddress
  files : Files

/-- A frame that the slave takes from its queues, or a turn of its `tick`. `sent` says whether the
transport takes the finalize report. -/
inductive SlaveInput where
  | firmwareBegin (sender : MacAddress) (corr_id : UInt32) (payload : Bytes) (env : BeginEnvironment)
  | firmwareChunk (sender : MacAddress) (corr_id offset : UInt32) (chunk : Bytes)
      (now_s now_ms : UInt32)
  | firmwareEnd (sender : MacAddress) (corr_id total_size crc now_s now_ms : UInt32)
      (manifest : Option Bytes) (sent : Bool)
  | firmwareStatus (sender : MacAddress) (payload : Bytes)
  | finalizeTick (now_ms : UInt32) (paired sent : Bool)
  | sinkTick (now_s : UInt32)

namespace SlaveManager

variable {Files : Type} (b : OtaStorageBackend Files) (d : OtaFolders)

def handleFirmwareEnd (s : SlaveManager Files) (sender : MacAddress)
    (corr_id total_size crc now_s now_ms : UInt32) (manifest : Option Bytes) (sent : Bool) :
    Bool × List FirmwareStatus × SlaveManager Files :=
  let (ok, out, r, files) := s.toSlaveReception.handleFirmwareEnd b d sender corr_id total_size crc
    now_s now_ms manifest s.files
  if s.local_role ≠ .Slave then (ok, out, ⟨r, s.ota_finalize_peer, files⟩)
  else
    (ok, out, ⟨if sent then r else { r with ota_finalize_last_tx_ms := 0 }, sender, files⟩)

def handleFirmwareStatus (s : SlaveManager Files) (sender : MacAddress) (payload : Bytes) :
    SlaveManager Files :=
  match parseFirmwareStatusPayload payload with
  | none => s
  | some (kind, transfer_corr_id, _, _) =>
    if s.local_role = .Slave ∧ kind = FirmwareStatusKind.FinalizeAck.toUInt8 ∧
        s.ota_finalize_pending = true ∧ s.ota_finalize_corr_id = transfer_corr_id ∧
        s.ota_finalize_peer = sender then
      { s with toSlaveReception := s.clearFinalize }
    else s

def tickOtaFinalizeStatusRetry (s : SlaveManager Files) (now_ms : UInt32) (paired sent : Bool) :
    List StatusFrame × SlaveManager Files :=
  if s.local_role ≠ .Slave ∨ s.ota_finalize_pending = false then ([], s)
  else if !paired then ([], s)
  else if elapsed now_ms s.ota_finalize_started_ms kFinalizeStatusRetryWindowMs then
    ([], { s with toSlaveReception := s.clearFinalize })
  else if !elapsed now_ms s.ota_finalize_last_tx_ms kFinalizeStatusRetryIntervalMs then ([], s)
  else
    ([⟨s.ota_finalize_peer, s.ota_finalize_kind, s.ota_finalize_corr_id, s.ota_finalize_offset,
        s.ota_finalize_status_code⟩],
      if sent then { s with ota_finalize_last_tx_ms := now_ms } else s)

/-- What the slave sends, and the state it is left in. One whose acknowledgement loop hangs does
nothing more. -/
def step (s : SlaveManager Files) (i : SlaveInput) : List StatusFrame × SlaveManager Files :=
  if s.hung then ([], s)
  else
    match i with
    | .firmwareBegin sender corr_id payload env =>
      let (_, out, r) := s.toSlaveReception.handleFirmwareBegin sender corr_id payload env
      (out.map (·.frame sender), { s with toSlaveReception := r })
    | .firmwareChunk sender corr_id offset chunk now_s now_ms =>
      let (_, out, r) :=
        s.toSlaveReception.handleFirmwareChunk sender corr_id offset chunk now_s now_ms
      (out.map (·.frame sender), { s with toSlaveReception := r })
    | .firmwareEnd sender corr_id total_size crc now_s now_ms manifest sent =>
      let (_, out, s) :=
        s.handleFirmwareEnd b d sender corr_id total_size crc now_s now_ms manifest sent
      (out.map (·.frame sender), s)
    | .firmwareStatus sender payload => ([], s.handleFirmwareStatus sender payload)
    | .finalizeTick now_ms paired sent => s.tickOtaFinalizeStatusRetry now_ms paired sent
    | .sinkTick now_s => ([], { s with sink := s.sink.expireReceiveIfStale now_s })

end SlaveManager

/-- The report that is due to a peer whose image was stored. -/
structure OwedReport where
  peer : MacAddress
  corr_id : UInt32
  total_size : UInt32
  since_ms : UInt32
  sent_ms : Option UInt32
  deriving DecidableEq

namespace OwedReport

def frame (o : OwedReport) : StatusFrame :=
  ⟨o.peer, FirmwareStatusKind.FinalizeOk.toUInt8, o.corr_id, o.total_size, OtaStatusCode.Ok.toUInt16⟩

def windowOver (o : OwedReport) (now_ms : UInt32) : Bool :=
  elapsed now_ms o.since_ms kFinalizeStatusRetryWindowMs

def due (o : OwedReport) (now_ms : UInt32) : Bool :=
  match o.sent_ms with
  | none => true
  | some sent_ms => elapsed now_ms sent_ms kFinalizeStatusRetryIntervalMs

def ackedBy (o : OwedReport) (sender : MacAddress) (payload : Bytes) : Bool :=
  match parseFirmwareStatusPayload payload with
  | none => false
  | some (kind, transfer_corr_id, _, _) =>
    kind = FirmwareStatusKind.FinalizeAck.toUInt8 && o.corr_id = transfer_corr_id && o.peer = sender

end OwedReport

/-- A slave with the history of its reports: the transfers whose image the sink accepted, and the
reports that are neither acknowledged nor past their window. -/
structure FinalizeRun (Files : Type) where
  slave : SlaveManager Files
  accepted : List UInt32
  owed : List OwedReport

namespace FinalizeRun

variable {Files : Type} (b : OtaStorageBackend Files) (d : OtaFolders)

def start (s : SlaveManager Files) : FinalizeRun Files := ⟨s, [], []⟩

/-- Note which of the owed reports went out. -/
def noteSent (out : List StatusFrame) (now_ms : UInt32) (sent : Bool) (o : OwedReport) : OwedReport :=
  if sent ∧ o.frame ∈ out then { o with sent_ms := some now_ms } else o

def step (r : FinalizeRun Files) (i : SlaveInput) : FinalizeRun Files :=
  let out := (r.slave.step b d i).1
  let slave := (r.slave.step b d i).2
  match i with
  | .firmwareEnd sender corr_id total_size crc now_s now_ms manifest sent =>
    if (r.slave.handleFirmwareEnd b d sender corr_id total_size crc now_s now_ms manifest sent).1 then
      ⟨slave, corr_id :: r.accepted,
        ⟨sender, corr_id, total_size, now_ms, if sent then some now_ms else none⟩ :: r.owed⟩
    else { r with slave := slave }
  | .firmwareStatus sender payload =>
    { r with slave := slave, owed := r.owed.filter fun o => !o.ackedBy sender payload }
  | .finalizeTick now_ms _ sent =>
    let open_ := r.owed.filter fun o => !o.windowOver now_ms
    { r with slave := slave, owed := open_.map (noteSent out now_ms sent) }
  | _ => { r with slave := slave }

/-- A turn of the retry sends every report that is owed and due. -/
def Resends (r : FinalizeRun Files) : SlaveInput → Prop
  | .finalizeTick now_ms paired sent => ∀ o ∈ r.owed, o.windowOver now_ms = false →
    o.due now_ms = true → o.frame ∈ (r.slave.step b d (.finalizeTick now_ms paired sent)).1
  | _ => True

/-- A begin frame that is not accepted leaves what the slave knows of its transfer and its report. -/
def KeepsOnRefusal (r : FinalizeRun Files) : SlaveInput → Prop
  | .firmwareBegin sender corr_id payload env =>
    (r.slave.toSlaveReception.handleFirmwareBegin sender corr_id payload env).1 = false →
      (r.slave.step b d (.firmwareBegin sender corr_id payload env)).2.tracking = r.slave.tracking ∧
      (r.slave.step b d (.firmwareBegin sender corr_id payload env)).2.report = r.slave.report
  | _ => True

/-- What the slave promises about the transfers it has stored. -/
structure Truthful (r : FinalizeRun Files) (i : SlaveInput) : Prop where
  no_fail : ∀ f ∈ (r.slave.step b d i).1, f.kind = FirmwareStatusKind.FinalizeFail.toUInt8 →
    f.transfer_corr_id ∉ r.accepted
  resends : r.Resends b d i
  refusal : r.KeepsOnRefusal b d i

end FinalizeRun

namespace OtaManager

variable {Files : Type} (b : OtaStorageBackend Files) (d : OtaFolders)

/-- The sink starts the transfer: its checks pass and the temporary file can be written. -/
def BeginStarts (m : OtaManager) (total_size chunk_size : UInt32) (env : BeginEnvironment) : Prop :=
  (m.expireReceiveIfStale env.now_epoch_s).BeginAccepted total_size chunk_size env ∧
    env.temp_file = true

/-- The storage takes the image: the temporary file, its blocks and the final name. -/
def StorageTakes (pool : Bytes) (expected_size : Nat) (files : Files) : Prop :=
  let truncated := b.truncateFile d.temp_path (removeOldImage b d files)
  let flushed := b.flushFrom d.temp_path pool expected_size expected_size 0 truncated.2
  truncated.1.ok = true ∧ flushed.1.ok = true ∧
    (b.renamePath d.temp_path d.final_path flushed.2).1.ok = true

/-- The session holds a whole image that passes its CRC, and the storage takes it. -/
structure EndStores (m : OtaManager) (sender : MacAddress) (corr_id total_size image_crc32 : UInt32)
    (files : Files) : Prop where
  session : m.validateSession sender corr_id = true
  accepted : m.EndAccepted total_size image_crc32
  crc : crc32 ((m.psram_pool.getD []).take m.receive.expected_size.toNat) = m.receive.expected_crc32
  storage : StorageTakes b d (m.psram_pool.getD []) m.receive.expected_size.toNat files

end OtaManager

namespace FinalizeRun

variable {Files : Type} (b : OtaStorageBackend Files) (d : OtaFolders)

/-- The inputs that do not reach the places where a begin or an end frame overwrites the report. -/
def Orderly (r : FinalizeRun Files) : SlaveInput → Prop
  | .firmwareBegin _ _ payload env =>
    ∀ total_size chunk_size crc metadata,
      parseFirmwareBegin payload = some (total_size, chunk_size, crc, metadata) →
      (r.slave.sink.BeginStarts total_size chunk_size env → r.owed = []) ∧
      (¬ r.slave.sink.BeginStarts total_size chunk_size env →
        r.slave.clearFinalize = r.slave.toSlaveReception ∧
          r.slave.ota_transfer_expected_size = 0 ∧ r.slave.ota_transfer_last_acked_offset = 0)
  | .firmwareEnd sender corr_id total_size crc now_s _ _ _ =>
    r.owed = [] ∧ (corr_id ∈ r.accepted →
      (r.slave.sink.expireReceiveIfStale now_s).EndStores b d sender corr_id total_size crc
        r.slave.files)
  | .finalizeTick now_ms paired _ => ∀ o ∈ r.owed, o.windowOver now_ms = false →
    o.due now_ms = true →
      paired = true ∧ (o.sent_ms = none → elapsed now_ms 0 kFinalizeStatusRetryIntervalMs = true)
  | _ => True

end FinalizeRun

end EspNowLink
