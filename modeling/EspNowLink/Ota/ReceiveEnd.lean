import EspNowLink.Descriptor.Types
import EspNowLink.Ota.Receive
import Mathlib.Logic.Function.Iterate

namespace EspNowLink

def kCrc32Poly : UInt32 := 0xEDB88320

def crc32Bit (crc : UInt32) : UInt32 :=
  (crc >>> 1) ^^^ (kCrc32Poly &&& if crc &&& 1 = 0 then 0 else 0xFFFFFFFF)

def crc32Byte (crc : UInt32) (byte : UInt8) : UInt32 := crc32Bit^[8] (crc ^^^ byte.toUInt32)

def crc32Update (running_crc : UInt32) (data : Bytes) : UInt32 := data.foldl crc32Byte running_crc

def crc32Finalize (running_crc : UInt32) : UInt32 := ~~~running_crc

/-- The CRC-32 of an image. -/
def crc32 (data : Bytes) : UInt32 := crc32Finalize (crc32Update 0xFFFFFFFF data)

def hashFileId (name : Bytes) : UInt32 :=
  name.foldl (fun h c => (h ^^^ c.toUInt32) * 16777619) 2166136261

def joinPath (base name : Bytes) : Bytes :=
  if base.isEmpty || base = ascii "/" then ascii "/" ++ name else base ++ ascii "/" ++ name

/-- The part after the last `/`; the path itself when there is none, or nothing after it. -/
def fileNameFromPath (path : Bytes) : Bytes :=
  let name := (path.reverse.takeWhile (· ≠ 0x2F)).reverse
  if name.isEmpty then path else name

/-- `"m%lX"` of the file's id. -/
def manifestNameForImage (file_name : Bytes) : Bytes :=
  ascii "m" ++
    (Nat.toDigits 16 (hashFileId file_name).toNat).map fun c => UInt8.ofNat c.toUpper.toNat

/-- The answer of a storage operation. -/
structure StorageResult where
  ok : Bool
  message : String

/-- The storage backend the application provides. -/
structure OtaStorageBackend (Files : Type) where
  ensureDir : Bytes → Files → StorageResult × Files
  truncateFile : Bytes → Files → StorageResult × Files
  removePath : Bytes → Files → StorageResult × Files
  renamePath : Bytes → Bytes → Files → StorageResult × Files
  writeAt : Bytes → UInt32 → Bytes → Files → StorageResult × Files

structure OtaFolders where
  in_dir : Bytes
  img_dir : Bytes
  man_dir : Bytes

namespace OtaFolders

def temp_path (d : OtaFolders) : Bytes := joinPath d.in_dir (ascii "u.tmp")
def final_path (d : OtaFolders) : Bytes := joinPath d.img_dir (ascii "u.bin")
def manifest_path (d : OtaFolders) : Bytes :=
  joinPath d.man_dir (manifestNameForImage (fileNameFromPath d.final_path))

end OtaFolders

namespace OtaStorageBackend

variable {Files : Type} (b : OtaStorageBackend Files)

def kFlushBlockBytes : Nat := 4096

/-- The flush loop of `endReceive`; every turn writes at least one byte. -/
def flushFrom (path pool : Bytes) (expected_size : Nat) : Nat → Nat → Files → StorageResult × Files
  | 0, _, files => (⟨true, "ok"⟩, files)
  | turns + 1, written, files =>
    if written < expected_size then
      let n := min kFlushBlockBytes (expected_size - written)
      let (result, files) := b.writeAt path written.toUInt32 ((pool.drop written).take n) files
      if !result.ok then (result, files)
      else flushFrom path pool expected_size turns (written + n) files
    else (⟨true, "ok"⟩, files)

/-- `manifest` is the text that `snprintf` formats, if it fits the buffer. -/
def writeReadyManifest (d : OtaFolders) (manifest : Option Bytes) (files : Files) :
    StorageResult × Files :=
  let (result, files) := b.ensureDir d.man_dir files
  if !result.ok then
    (⟨false, OtaManager.orDefault result.message "manifest dir unavailable"⟩, files)
  else
    match manifest with
    | none => (⟨false, "manifest format failed"⟩, files)
    | some body =>
      let (result, files) := b.truncateFile d.manifest_path files
      if !result.ok then
        (⟨false, OtaManager.orDefault result.message "manifest truncate failed"⟩, files)
      else
        let (result, files) := b.writeAt d.manifest_path 0 body files
        if !result.ok then
          (⟨false, OtaManager.orDefault result.message "manifest write failed"⟩, files)
        else (⟨true, "ok"⟩, files)

end OtaStorageBackend

namespace OtaManager

variable {Files : Type} (b : OtaStorageBackend Files) (d : OtaFolders)

/-- The files after the old image, its manifest and the temporary file are removed. -/
def removeOldImage (files : Files) : Files :=
  let files := (b.removePath d.final_path files).2
  let files := (b.removePath d.manifest_path files).2
  (b.removePath d.temp_path files).2

def readyMessage (manifest : StorageResult) : String :=
  if manifest.ok then "ota image ready"
  else "ota image ready (manifest pending: " ++ orDefault manifest.message "write failed" ++ ")"

/-- The part of `endReceive` after the image has passed its checks. -/
def storeImage (m : OtaManager) (pool : Bytes) (total_size : UInt32) (manifest : Option Bytes)
    (files : Files) : Option Bytes × OtaManager × Files :=
  let expected_size := m.receive.expected_size.toNat
  let files := removeOldImage b d files
  let (truncated, files) := b.truncateFile d.temp_path files
  if !truncated.ok then
    (none, m.clearReceive.fail .StorageNotReady (orDefault truncated.message "create temp failed"),
      files)
  else
    let (flushed, files) := b.flushFrom d.temp_path pool expected_size expected_size 0 files
    if !flushed.ok then
      (none, m.clearReceive.fail .StorageNotReady (orDefault flushed.message "ota flush failed"), files)
    else
      let (renamed, files) := b.renamePath d.temp_path d.final_path files
      if !renamed.ok then
        (none, m.clearReceive.fail .StorageNotReady (orDefault renamed.message "ota promote failed"),
          files)
      else
        let (manifested, files) := b.writeReadyManifest d manifest files
        (some d.final_path,
          { m.clearReceive with
            status := { m.status with
              state := .Ready, code := .Ok, received_size := total_size,
              message := readyMessage manifested } },
          files)

/-- `endReceive` returns the path of the image when it succeeds. -/
def endReceive (m : OtaManager) (sender : MacAddress) (corr_id total_size image_crc32 now_s : UInt32)
    (manifest : Option Bytes) (files : Files) : Option Bytes × OtaManager × Files :=
  let m := m.expireReceiveIfStale now_s
  if !m.validateSession sender corr_id then (none, m, files)
  else if total_size ≠ m.receive.expected_size ∨ image_crc32 ≠ m.receive.expected_crc32 then
    (none, m.fail .SizeMismatch "ota end metadata mismatch", files)
  else if !m.hasRoom m.receive.expected_size then
    (none, m.fail .StorageNotReady "ota psram pool unavailable", files)
  else if m.receive.received_size ≠ m.receive.expected_size ∨
      m.receive.unique_received_size ≠ m.receive.expected_size then
    (none, m.fail .SizeMismatch "ota total size mismatch", files)
  else
    let pool := m.psram_pool.getD []
    let crc := crc32 (pool.take m.receive.expected_size.toNat)
    let m := { m with status := { m.status with actual_crc32 := crc } }
    if crc ≠ m.receive.expected_crc32 then
      (none, m.clearReceive.fail .CrcMismatch "ota crc mismatch", (b.removePath d.temp_path files).2)
    else m.storeImage b d pool total_size manifest files

def releasePsramPool (m : OtaManager) : OtaManager :=
  { m with psram_pool := none, psram_pool_size := 0 }

def setMaxFirmwareBytes (m : OtaManager) (max_bytes : UInt32) : OtaManager :=
  let m := if m.config.max_firmware_bytes ≠ max_bytes then m.releasePsramPool else m
  { m with config := { m.config with max_firmware_bytes := max_bytes } }

end OtaManager

end EspNowLink
