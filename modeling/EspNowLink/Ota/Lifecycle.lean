import EspNowLink.Framework.Runs
import EspNowLink.Ota.ReceiveEnd

namespace EspNowLink

structure PersistentStatusRecord where
  state : Bytes
  epoch_s : UInt32
  boot_report_pending : Bool
  image_path : Bytes
  image_size : UInt32
  image_crc32 : UInt32
  confirmed_sw_version : Bytes
  confirmed_build_id : Bytes
  deriving DecidableEq

def kPendingBoot : Bytes := ascii "pending_boot"
def kBootOk : Bytes := ascii "boot_ok"

/-- What an apply executor does with a request. When it restarts the device the call is its last. -/
inductive ApplyOutcome where
  | failed (message : String)
  | accepted (message : String)
  | restarts
  deriving DecidableEq

/-- What `applyImage` finds outside the manager; no executor is `none`. -/
structure ApplyEnvironment where
  now_epoch_s : UInt32
  gate : Option (OtaGateDecision × String)
  executor : Option ApplyOutcome
  saved : StorageResult

/-- What `markBootSuccessful` finds outside the manager. `storage` answers for the start of the
storage and its folders, `record` for the stored status record. -/
structure BootEnvironment where
  now_epoch_s : UInt32
  storage : StorageResult
  record : Except String PersistentStatusRecord
  gate : Option (OtaGateDecision × String)
  saved : StorageResult

/-- What `begin` finds outside the manager. `refusal` is the message of the first step that fails among the start
of the storage, its folders and the directories that it clears. -/
structure StartEnvironment where
  refusal : Option String
  pool : Option Bytes
  pool_message : String
  record : Except String PersistentStatusRecord

/-- The manager with the rest of its published status and the files it works on. -/
structure OtaUpdater (Files : Type) where
  manager : OtaManager
  image_path : Bytes
  persistent_state : Bytes
  persistent_epoch_s : UInt32
  boot_report_pending : Bool
  confirmed_sw_version : Bytes
  confirmed_build_id : Bytes
  files : Files

inductive OtaCall where
  | beginReceive (sender : MacAddress) (corr_id total_size chunk_size image_crc32 : UInt32)
      (metadata : FirmwareImageMetadata) (env : BeginEnvironment)
  | writeReceiveChunk (sender : MacAddress) (corr_id offset : UInt32) (data : Bytes)
      (now_s : UInt32)
  | endReceive (sender : MacAddress) (corr_id total_size image_crc32 now_s : UInt32)
      (manifest : Option Bytes)
  | abortReceive (sender : MacAddress) (corr_id : UInt32)
  | abortActiveReceive
  | tick (now_s : UInt32)
  | applyImage (image_path : Bytes) (image_size image_crc32 : UInt32) (env : ApplyEnvironment)
  | rollback (executor : Option ApplyOutcome)
  | markBootSuccessful (sw_version build_id : Bytes) (env : BootEnvironment)

namespace OtaManager

def setOk (m : OtaManager) (message : String) : OtaManager :=
  { m with status := { m.status with code := .Ok, message := message } }

def setState (m : OtaManager) (state : OtaTransferState) : OtaManager :=
  { m with status := { m.status with state := state } }

def abortActiveReceive (m : OtaManager) : OtaManager :=
  if !m.receive.active then m else m.clearReceive.fail .InvalidState "ota transfer aborted"

/-- The manager as its constructor leaves it. -/
def constructed (config : OtaManagerConfig) : OtaManager where
  config := config
  psram_pool := none
  psram_pool_size := 0
  receive := .idle
  receive_meta := noMetadata
  status := { state := .Idle, code := .Ok, expected_size := 0, received_size := 0,
              expected_crc32 := 0, actual_crc32 := 0, message := "" }

def applyStatusRecord (m : OtaManager) (record : PersistentStatusRecord) : OtaManager :=
  let sized := if record.image_size = 0 then m.status else
    { m.status with
      expected_size := record.image_size
      received_size :=
        if m.status.received_size = 0 then record.image_size else m.status.received_size }
  { m with status := if record.image_crc32 = 0 then sized else
      { sized with
        expected_crc32 := record.image_crc32
        actual_crc32 :=
          if sized.actual_crc32 = 0 then record.image_crc32 else sized.actual_crc32 } }

def startMessage (record : PersistentStatusRecord) : String :=
  if record.state = kPendingBoot then "ota ready (pending boot confirmation)"
  else if record.state = kBootOk ∧ record.confirmed_sw_version ≠ [] then "ota ready (last update confirmed)"
  else "ota ready"

def begin (m : OtaManager) (env : StartEnvironment) : Bool × OtaManager :=
  match env.refusal with
  | some message => (false, m.fail .StorageNotReady message)
  | none =>
    let (ready, m) := m.ensurePsramPool env.pool
    if !ready then
      (false, m.fail .StorageNotReady (orDefault env.pool_message "ota psram pool unavailable"))
    else
      match env.record with
      | .error message =>
        (false, m.fail .StorageNotReady (orDefault message "ota status record read failed"))
      | .ok record => (true, (m.applyStatusRecord record).setOk (startMessage record))

end OtaManager

namespace OtaUpdater

open OtaManager (orDefault gateRefusal)

variable {Files : Type} (b : OtaStorageBackend Files) (d : OtaFolders)

def applyStatusRecordToRuntime (u : OtaUpdater Files) (record : PersistentStatusRecord) :
    OtaUpdater Files :=
  { u with
    manager := u.manager.applyStatusRecord record
    persistent_state := record.state
    persistent_epoch_s := record.epoch_s
    boot_report_pending := record.boot_report_pending
    confirmed_sw_version := record.confirmed_sw_version
    confirmed_build_id := record.confirmed_build_id
    image_path :=
      if (record.state = kPendingBoot ∨ record.state = kBootOk) ∧ record.image_path ≠ []
      then record.image_path else u.image_path }

def fail (u : OtaUpdater Files) (code : OtaStatusCode) (message : String) :
    Bool × OtaUpdater Files :=
  (false, { u with manager := u.manager.fail code message })

def beginReceive (u : OtaUpdater Files) (sender : MacAddress)
    (corr_id total_size chunk_size image_crc32 : UInt32) (metadata : FirmwareImageMetadata)
    (env : BeginEnvironment) : Bool × OtaUpdater Files :=
  let (accepted, m) :=
    u.manager.beginReceive sender corr_id total_size chunk_size image_crc32 metadata env
  (accepted, { u with manager := m, image_path := if accepted then [] else u.image_path })

def writeReceiveChunk (u : OtaUpdater Files) (sender : MacAddress) (corr_id offset : UInt32)
    (data : Bytes) (now_s : UInt32) : Bool × OtaUpdater Files :=
  let (accepted, m) := u.manager.writeReceiveChunk sender corr_id offset data now_s
  (accepted, { u with manager := m })

def endReceive (u : OtaUpdater Files) (sender : MacAddress)
    (corr_id total_size image_crc32 now_s : UInt32) (manifest : Option Bytes) :
    Bool × OtaUpdater Files :=
  let (path, m, files) :=
    u.manager.endReceive b d sender corr_id total_size image_crc32 now_s manifest u.files
  (path.isSome, { u with manager := m, image_path := path.getD u.image_path, files := files })

def persistPendingApply (u : OtaUpdater Files) (image_path : Bytes)
    (image_size image_crc32 : UInt32) (env : ApplyEnvironment) : OtaUpdater Files :=
  if !env.saved.ok then u
  else u.applyStatusRecordToRuntime
    { state := kPendingBoot, epoch_s := env.now_epoch_s, boot_report_pending := false,
      image_path := image_path, image_size := image_size, image_crc32 := image_crc32,
      confirmed_sw_version := [], confirmed_build_id := [] }

def appliedMessage (message : String) (saved : StorageResult) : String :=
  orDefault message "ota apply accepted" ++
    if saved.ok then "" else
      " (status persist failed: " ++ orDefault saved.message "write failed" ++ ")"

/-- The status while the executor works on the image. -/
def applying (u : OtaUpdater Files) (image_path : Bytes) (image_size image_crc32 : UInt32) :
    OtaUpdater Files :=
  { u with
    manager := { u.manager with status := { u.manager.status with
      state := .Applying, code := .Ok, expected_size := image_size, expected_crc32 := image_crc32,
      message := "ota applying" } }
    image_path := image_path }

def constructed (config : OtaManagerConfig) (files : Files) : OtaUpdater Files where
  manager := .constructed config
  image_path := []
  persistent_state := ascii "none"
  persistent_epoch_s := 0
  boot_report_pending := false
  confirmed_sw_version := []
  confirmed_build_id := []
  files := files

/-- The device after a restart: a new manager over the same files. -/
def restarted (u : OtaUpdater Files) : OtaUpdater Files := constructed u.manager.config u.files

def applyImage (u : OtaUpdater Files) (image_path : Bytes) (image_size image_crc32 : UInt32)
    (env : ApplyEnvironment) : Bool × OtaUpdater Files :=
  let m := u.manager.expireReceiveIfStale env.now_epoch_s
  let u := { u with manager := m }
  if image_path = [] ∨ image_size = 0 then u.fail .InvalidArgument "ota apply invalid image"
  else if m.config.max_firmware_bytes > 0 ∧ image_size > m.config.max_firmware_bytes then
    u.fail .ImageTooLarge "image too large"
  else
    match gateRefusal env.gate with
    | some (code, message) => u.fail code message
    | none =>
      match env.executor with
      | none => u.fail .ApplyRejected "apply executor unavailable"
      | some outcome =>
        let u := u.applying image_path image_size image_crc32
        match outcome with
        | .failed message => u.fail .ApplyFailed (orDefault message "ota apply failed")
        | .accepted message =>
          let u := { u with manager := u.manager.setState .Ready }
          let u := u.persistPendingApply image_path image_size image_crc32 env
          (true, { u with manager := u.manager.setOk (appliedMessage message env.saved) })
        | .restarts => (true, u.restarted)

def rollback (u : OtaUpdater Files) (executor : Option ApplyOutcome) : Bool × OtaUpdater Files :=
  match executor with
  | none => u.fail .ApplyRejected "rollback executor unavailable"
  | some outcome =>
    let requested := (u.manager.setState .Applying).setOk "ota rollback requested"
    let u := { u with manager := requested }
    match outcome with
    | .failed message => u.fail .ApplyFailed (orDefault message "ota rollback failed")
    | .accepted message =>
      (true, { u with manager := u.manager.setOk (orDefault message "ota rollback accepted") })
    | .restarts => (true, u.restarted)

def confirmedRecord (record : PersistentStatusRecord) (sw_version build_id : Bytes)
    (now_s : UInt32) : PersistentStatusRecord :=
  { record with
    state := kBootOk
    epoch_s := now_s
    boot_report_pending := true
    confirmed_sw_version := sw_version
    confirmed_build_id := build_id }

def bytesText (bytes : Bytes) : String := String.ofList (bytes.map fun c => Char.ofNat c.toNat)

def bootMessage (record : PersistentStatusRecord) : String :=
  "updated correctly" ++
    (if record.confirmed_sw_version = [] then "" else
      " sw=" ++ bytesText record.confirmed_sw_version) ++
    if record.confirmed_build_id = [] then "" else
      " build=" ++ bytesText record.confirmed_build_id

def markBootSuccessful (u : OtaUpdater Files) (sw_version build_id : Bytes)
    (env : BootEnvironment) : Bool × OtaUpdater Files :=
  if !env.storage.ok then (false, u)
  else
    match env.record with
    | .error _ => (false, u)
    | .ok record =>
      if record.state ≠ kPendingBoot then (true, u)
      else
        match gateRefusal env.gate with
        | some (code, message) =>
          let pending := { u with persistent_state := kPendingBoot }
          pending.fail code message
        | none =>
          let record := confirmedRecord record sw_version build_id env.now_epoch_s
          if !env.saved.ok then (false, u)
          else
            let u := u.applyStatusRecordToRuntime record
            (true, { u with manager := { u.manager with
              status := { u.manager.status with message := bootMessage record } } })

/-- What a call returns, and the state it leaves. -/
def call (u : OtaUpdater Files) : OtaCall → Bool × OtaUpdater Files
  | .beginReceive sender corr_id total_size chunk_size image_crc32 metadata env =>
    u.beginReceive sender corr_id total_size chunk_size image_crc32 metadata env
  | .writeReceiveChunk sender corr_id offset data now_s =>
    u.writeReceiveChunk sender corr_id offset data now_s
  | .endReceive sender corr_id total_size image_crc32 now_s manifest =>
    u.endReceive b d sender corr_id total_size image_crc32 now_s manifest
  | .abortReceive sender corr_id =>
    (true, { u with manager := u.manager.abortReceive sender corr_id })
  | .abortActiveReceive => (true, { u with manager := u.manager.abortActiveReceive })
  | .tick now_s => (true, { u with manager := u.manager.expireReceiveIfStale now_s })
  | .applyImage image_path image_size image_crc32 env =>
    u.applyImage image_path image_size image_crc32 env
  | .rollback executor => u.rollback executor
  | .markBootSuccessful sw_version build_id env => u.markBootSuccessful sw_version build_id env

def after (u : OtaUpdater Files) (c : OtaCall) : OtaUpdater Files := (u.call b d c).2

end OtaUpdater

end EspNowLink
