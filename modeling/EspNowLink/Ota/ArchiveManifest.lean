import EspNowLink.Framework.LooseObjects
import EspNowLink.Ota.StatusRecord

open Framework

namespace EspNowLink

/-- `OtaArchiveEntry`. -/
structure OtaArchiveEntry where
  id : Bytes
  bin_name : Bytes
  meta_name : Bytes
  size_bytes : UInt32
  crc32 : UInt32
  sw_version : Bytes
  build_id : Bytes
  target_role : Bytes
  source : Bytes
  created_epoch_s : UInt32
  deriving DecidableEq

/-- Who keeps an archive: the management service, or the descriptor adapter of a slave. -/
inductive ArchiveHost where
  | service (local_role : Role)
  | adapter

namespace OtaArchive

def toupper (c : UInt8) : UInt8 := if 0x61 ≤ c && c ≤ 0x7A then c - 0x20 else c

def roleChar : Role → UInt8
  | .Master => 0x6D
  | .Slave => 0x73

def roleName : Role → Bytes
  | .Master => ascii "master"
  | .Slave => ascii "slave"

/-- The role that a text is taken for once it is known to be one of the two. -/
def roleOf (target_role : Bytes) : Role := if target_role = ascii "slave" then .Slave else .Master

/-- `snprintf` with `%06lX` of the low 24 bits. -/
def archiveFormatId (seed : UInt32) : Bytes := zeroPadded 16 OtaManager.hexByte 6 (seed &&& 0xFFFFFF).toNat

def normalizeArchiveId (raw : Bytes) : Bytes :=
  let out := (raw.filter isxdigit).map toupper
  out.drop (out.length - 6)

section Fields

/-- A text is returned if it is not empty. -/
def filled (value : Bytes) : Option Bytes := if value = [] then none else some value

/-- The value of a key without the blanks in front. -/
def keyedValue (key json : Bytes) : Option Bytes := (keyedText key json).map (·.dropWhile isspace)

def rawEnd (c : UInt8) : Bool := c = 0x2C || c = 0x7D

/-- `extractJsonStringField`, which takes a value without quotes as well, and
`extractJsonStringFieldLoose`, which does not. -/
def extractJsonStringField (host : ArchiveHost) (key json : Bytes) : Option Bytes :=
  match keyedValue key json, host with
  | none, _ => none
  | some [], _ => none
  | some (c :: rest), .service _ =>
    if c = 0x22 then (unquote rest).bind fun value => filled (OtaManager.trim value)
    else filled (OtaManager.trim ((c :: rest).takeWhile fun d => !(rawEnd d || d = 0x0A || d = 0x0D)))
  | some (c :: rest), .adapter =>
    if c = 0x22 then (unquote rest).bind fun value => filled (OtaManager.trim value) else none

/-- What stands behind the key up to a comma, a brace or a blank. -/
def rawField (key json : Bytes) : Option Bytes :=
  (keyedValue key json).bind fun value =>
    filled (OtaManager.trim (value.takeWhile fun d => !(rawEnd d || isspace d)))

def extractJsonU32Field (host : ArchiveHost) (key json : Bytes) : Option UInt32 :=
  let text := (extractJsonStringField host key json).or (rawField key json)
  text.bind OtaManager.parseU32

end Fields

section Manifest

def quoted (key : String) (value : Bytes) : LooseMember := (ascii key, .text value)

def bare (key : String) (value : UInt32) : LooseMember := (ascii key, .number (OtaManager.printDecimal value))

def entryMembers (e : OtaArchiveEntry) : List LooseMember :=
  [quoted "id" e.id, quoted "bin" e.bin_name, quoted "meta" e.meta_name, quoted "sw" e.sw_version,
    quoted "build" e.build_id, quoted "target" e.target_role, quoted "source" e.source,
    bare "size" e.size_bytes, quoted "crc" (OtaManager.printHex e.crc32), bare "ts" e.created_epoch_s]

def entryJson (e : OtaArchiveEntry) : Bytes := objectText (entryMembers e)

def manifestHead (role : Role) : Bytes :=
  0x7B :: (ascii "\"ver\":1,\"role\":\"" ++ [roleChar role] ++ ascii "\",\"entries\":[")

def manifestEnd : Bytes := [0x5D, 0x7D, 0x0A]

def manifestJson (role : Role) (entries : List OtaArchiveEntry) : Bytes :=
  manifestHead role ++ List.intercalate [0x2C] (entries.map entryJson) ++ manifestEnd

/-- How an entry of the manifest starts. -/
def entryStart : Bytes := 0x7B :: ascii "\"id\":\""

/-- The objects that the loop over the text finds: each from the next start of an entry to the first
closing brace behind it. -/
def archiveObjects : ℕ → Bytes → List Bytes
  | 0, _ => []
  | n + 1, text =>
    match afterFirst entryStart text with
    | none => []
    | some rest =>
      if 0x7D ∈ rest then
        (entryStart ++ rest.takeWhile (· ≠ 0x7D) ++ [0x7D]) :: archiveObjects n (rest.dropWhile (· ≠ 0x7D)).tail
      else []

/-- The word in front of the errors of an adapter. -/
def errorText (host : ArchiveHost) (text : String) : Bytes :=
  match host with
  | .service _ => ascii text
  | .adapter => ascii "archive " ++ ascii text

def normalizeArchiveTargetRole (host : ArchiveHost) (target : Bytes) : Bytes :=
  match host with
  | .service _ => (OtaManager.trim target).map tolower
  | .adapter => target.map tolower

def entryFields (host : ArchiveHost) (obj : Bytes) : Option OtaArchiveEntry := do
  let id ← extractJsonStringField host (ascii "id") obj
  let bin_name ← extractJsonStringField host (ascii "bin") obj
  let meta_name ← extractJsonStringField host (ascii "meta") obj
  let sw_version ← extractJsonStringField host (ascii "sw") obj
  let build_id ← extractJsonStringField host (ascii "build") obj
  let target_role ← extractJsonStringField host (ascii "target") obj
  let source ← extractJsonStringField host (ascii "source") obj
  let size_bytes ← extractJsonU32Field host (ascii "size") obj
  let crc32 ← extractJsonU32Field host (ascii "crc") obj
  let created_epoch_s ← extractJsonU32Field host (ascii "ts") obj
  return { id, bin_name, meta_name, size_bytes, crc32, sw_version, build_id, target_role, source, created_epoch_s }

/-- The adapter asks for entries of the archive's own role as well. -/
def roleMatches (host : ArchiveHost) (role : Role) (target_role : Bytes) : Bool :=
  match host with
  | .service _ => true
  | .adapter => roleOf target_role = role

def parseEntry (host : ArchiveHost) (role : Role) (obj : Bytes) : Except Bytes OtaArchiveEntry :=
  match entryFields host obj with
  | none => .error (errorText host "manifest entry missing required fields")
  | some e =>
    if e.id = [] ∨ e.bin_name = [] ∨ e.meta_name = [] ∨ e.sw_version = [] ∨ e.build_id = [] ∨
        e.target_role = [] ∨ e.source = [] then
      .error (errorText host "manifest entry has empty required fields")
    else if e.size_bytes = 0 then .error (errorText host "manifest entry invalid size")
    else
      let target_role := normalizeArchiveTargetRole host e.target_role
      if target_role ≠ ascii "master" ∧ target_role ≠ ascii "slave" then
        .error (errorText host "manifest entry invalid target role")
      else if !roleMatches host role target_role then .error (errorText host "manifest entry role mismatch")
      else .ok { e with target_role := target_role }

def parseManifest (host : ArchiveHost) (role : Role) (text : Bytes) : Except Bytes (List OtaArchiveEntry) :=
  (archiveObjects text.length text).mapM (parseEntry host role)

/-- The largest manifest that is read. -/
def readLimit : ArchiveHost → ℕ
  | .service _ => 4096
  | .adapter => 16384

end Manifest

section Storage

/-- What the storage answers to one command: to the calls on the manifest one by one, to the others
with what they come to or the text that is reported. A write that fails leaves the first `kept` bytes. -/
structure ArchiveCalls where
  begun : Except Bytes Unit
  stat : StorageResult
  restat : StorageResult
  read : StorageResult
  dumped : Except Bytes (UInt32 × UInt32)
  staged : Except Bytes { size : UInt32 // size ≠ 0 }
  sidecar : Except Bytes Bytes
  crc : Except Bytes UInt32
  copied : Except Bytes Unit
  removed : Except Bytes Unit
  now : UInt32
  created_epoch_s : UInt32
  ensured : StorageResult
  truncated : StorageResult
  written : StorageResult
  kept : ℕ

def called (host : ArchiveHost) (result : StorageResult) (default : String) : Except Bytes Unit :=
  if result.ok then .ok ()
  else .error (if result.message.isEmpty then errorText host default else ascii result.message)

/-- The text of the manifest; nothing where there is no file. -/
def manifestText (host : ArchiveHost) (calls : ArchiveCalls) (file : Option Bytes) : Except Bytes Bytes := do
  called host calls.stat "manifest stat failed"
  let text := file.getD []
  if text = [] then return []
  match host with
  | .service _ =>
    called host calls.restat "stat failed"
    if text.length > readLimit host then throw (ascii "file too large")
    called host calls.read "read failed"
  | .adapter =>
    if text.length > readLimit host then throw (ascii "archive manifest too large")
    called host calls.read "manifest read failed"
  return text

def loadArchiveManifest (host : ArchiveHost) (role : Role) (calls : ArchiveCalls) (file : Option Bytes) :
    Except Bytes (List OtaArchiveEntry) :=
  (manifestText host calls file).bind (parseManifest host role)

/-- The texts for the state directory, the truncation and the write. -/
def saveErrors : ArchiveHost → Bytes × Bytes × Bytes
  | .service _ => (ascii "mkdir failed", ascii "truncate failed", ascii "write failed")
  | .adapter => (ascii "state dir unavailable", ascii "archive manifest truncate failed",
      ascii "archive manifest write failed")

def failure (result : StorageResult) (default : Bytes) : Bytes :=
  if result.message.isEmpty then default else ascii result.message

def saveArchiveManifest (host : ArchiveHost) (role : Role) (entries : List OtaArchiveEntry)
    (calls : ArchiveCalls) (file : Option Bytes) : Except Bytes Unit × Option Bytes :=
  let json := manifestJson role entries
  let (unavailable, notTruncated, notWritten) := saveErrors host
  if !calls.ensured.ok then (.error (failure calls.ensured unavailable), file)
  else if !calls.truncated.ok then (.error (failure calls.truncated notTruncated), file)
  else if !calls.written.ok then (.error (failure calls.written notWritten), some (json.take calls.kept))
  else (.ok (), some json)

end Storage

end OtaArchive

end EspNowLink
