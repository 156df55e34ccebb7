import EspNowLink.Ota.ArchiveManifest

open Framework

namespace EspNowLink

inductive ArchiveCommand where
  | saveRunning (role : Role)
  | saveStaged (role : Role)
  | restore (role : Role) (id : Bytes)
  | delete (role : Role) (id : Bytes)
  | clear (role : Role)

inductive ArchiveRefusal where
  | badPayload
  | denied (message : Bytes)
  | failed (message : Bytes)
  deriving DecidableEq

namespace OtaArchive

def refuse {α : Type} (result : Except Bytes α) : Except ArchiveRefusal α := result.mapError .failed

section Entries

def firstSeed (now : UInt32) (entries : List OtaArchiveEntry) : UInt32 :=
  now ^^^ UInt32.ofNat (entries.length * 2654435761)

/-- The loop of `assignUniqueId`: the next seed while the id is taken, `n` times at most. -/
def uniqueId (entries : List OtaArchiveEntry) : ℕ → UInt32 → Bytes
  | 0, seed => archiveFormatId seed
  | n + 1, seed =>
    if entries.any (·.id = archiveFormatId seed) then uniqueId entries n (seed + 1) else archiveFormatId seed

def assignUniqueId (calls : ArchiveCalls) (entries : List OtaArchiveEntry) : Bytes :=
  uniqueId entries 1024 (firstSeed calls.now entries)

def newEntry (calls : ArchiveCalls) (entries : List OtaArchiveEntry) (metadata : FirmwareImageMetadata)
    (source : Bytes) (size_bytes crc32 : UInt32) : OtaArchiveEntry where
  id := assignUniqueId calls entries
  bin_name := assignUniqueId calls entries ++ ascii ".bin"
  meta_name := assignUniqueId calls entries ++ ascii ".jsn"
  size_bytes := size_bytes
  crc32 := crc32
  sw_version := metadata.sw_version
  build_id := metadata.build_id
  target_role := metadata.target_role
  source := source
  created_epoch_s := calls.created_epoch_s

def runningMetadata (role : Role) : FirmwareImageMetadata where
  sw_version := ascii "running"
  build_id := ascii "na"
  target_role := roleName role

/-- `loadFirmwareMetadataFromSidecar` on the text of the sidecar; the adapter has its own copy, without
the bounds on the lengths. -/
def loadFirmwareMetadata (host : ArchiveHost) (json : Bytes) : Except Bytes FirmwareImageMetadata :=
  let version := (extractJsonStringField host (ascii "sw_version") json).getD []
  let build := (extractJsonStringField host (ascii "build_id") json).getD []
  let target := normalizeArchiveTargetRole host ((extractJsonStringField host (ascii "target_role") json).getD [])
  let metadata : FirmwareImageMetadata := ⟨version, build, target⟩
  match host with
  | .service _ =>
    if version = [] then .error (ascii "staged metadata invalid: missing sw_version")
    else if build = [] then .error (ascii "staged metadata invalid: missing build_id")
    else if target ≠ ascii "master" ∧ target ≠ ascii "slave" then
      .error (ascii "staged metadata invalid: missing/invalid target_role (master|slave)")
    else if version.length > 63 ∨ build.length > 63 ∨ target.length > 15 then
      .error (ascii "staged metadata invalid: metadata field too long")
    else .ok metadata
  | .adapter =>
    if version = [] then .error (ascii "archive save failed: metadata missing sw_version")
    else if build = [] then .error (ascii "archive save failed: metadata missing build_id")
    else if target ≠ ascii "master" ∧ target ≠ ascii "slave" then
      .error (ascii "archive save failed: metadata missing/invalid target_role")
    else .ok metadata

end Entries

section Plans

def loadEntries (host : ArchiveHost) (role : Role) (calls : ArchiveCalls) (manifest : Role → Option Bytes) :
    Except ArchiveRefusal (List OtaArchiveEntry) :=
  let loadError := fun message =>
    match host with
    | .service _ => ascii "manifest load failed: " ++ message
    | .adapter => message
  refuse ((loadArchiveManifest host role calls (manifest role)).mapError loadError)

def admitRunning (host : ArchiveHost) (role : Role) : Except ArchiveRefusal Unit :=
  match host with
  | .service local_role =>
    if role = local_role then .ok ()
    else .error (.denied (ascii "save running denied: role must match local running firmware"))
  | .adapter =>
    if role = .Slave then .ok () else .error (.failed (ascii "running save requires role=slave"))

def saveRunning (host : ArchiveHost) (role : Role) (calls : ArchiveCalls) (manifest : Role → Option Bytes) :
    Except ArchiveRefusal (List OtaArchiveEntry) := do
  admitRunning host role
  let entries ← loadEntries host role calls manifest
  let (size_bytes, crc32) ← refuse calls.dumped
  refuse calls.copied
  return entries ++ [newEntry calls entries (runningMetadata role) (ascii "running") size_bytes crc32]

/-- The service saves to the archive of the role that the metadata names, the adapter to the one it was
asked for if that is the same. -/
def saveStaged (host : ArchiveHost) (role : Role) (calls : ArchiveCalls) (manifest : Role → Option Bytes) :
    Except ArchiveRefusal (Role × List OtaArchiveEntry) :=
  match host with
  | .service _ => do
    let size ← refuse calls.staged
    let json ← refuse calls.sidecar
    let metadata ← refuse (loadFirmwareMetadata host json)
    let meta_role := roleOf metadata.target_role
    let entries ← loadEntries host meta_role calls manifest
    let crc32 ← refuse calls.crc
    refuse calls.copied
    return (meta_role, entries ++ [newEntry calls entries metadata (ascii "staged") size crc32])
  | .adapter => do
    let size ← refuse calls.staged
    let crc32 ← refuse calls.crc
    let json ← refuse calls.sidecar
    let metadata ← refuse (loadFirmwareMetadata host json)
    if roleOf metadata.target_role ≠ role then throw (.failed (ascii "archive save failed: role mismatch"))
    let entries ← loadEntries host role calls manifest
    refuse calls.copied
    return (role, entries ++ [newEntry calls entries metadata (ascii "staged") size crc32])

/-- What restore and delete do first: the entries, once the one with the id is found. -/
def findEntry (host : ArchiveHost) (command : String) (role : Role) (id : Bytes) (calls : ArchiveCalls)
    (manifest : Role → Option Bytes) : Except ArchiveRefusal (List OtaArchiveEntry) :=
  match host with
  | .service _ => do
    if id = [] then throw .badPayload
    let entries ← loadEntries host role calls manifest
    match entries.find? (·.id = id) with
    | none => throw (.failed (ascii command ++ ascii " failed: id not found (" ++ id ++ ascii ")"))
    | some _ => return entries
  | .adapter => do
    if id = [] then throw (.failed (ascii "invalid archive id"))
    let entries ← loadEntries host role calls manifest
    match entries.find? (·.id = id) with
    | none => throw (.failed (ascii "archive id not found"))
    | some entry =>
      if roleOf entry.target_role ≠ role then throw (.failed (ascii "archive role mismatch"))
      return entries

def begin (host : ArchiveHost) (calls : ArchiveCalls) : Except ArchiveRefusal Unit :=
  match host with
  | .service _ => refuse calls.begun
  | .adapter => .ok ()

/-- The manifest that a command saves; a restore saves none. -/
def planCommand (host : ArchiveHost) (command : ArchiveCommand) (calls : ArchiveCalls)
    (manifest : Role → Option Bytes) : Except ArchiveRefusal (Option (Role × List OtaArchiveEntry)) := do
  begin host calls
  match command with
  | .saveRunning role =>
    let entries ← saveRunning host role calls manifest
    return some (role, entries)
  | .saveStaged role =>
    let plan ← saveStaged host role calls manifest
    return some plan
  | .restore role id =>
    let _ ← findEntry host "restore" role (normalizeArchiveId id) calls manifest
    refuse calls.copied
    return none
  | .delete role id =>
    let entries ← findEntry host "delete" role (normalizeArchiveId id) calls manifest
    refuse calls.removed
    return some (role, entries.eraseP (·.id = normalizeArchiveId id))
  | .clear role =>
    let _ ← loadEntries host role calls manifest
    refuse calls.removed
    return some (role, [])

def saveError (host : ArchiveHost) (message : Bytes) : ArchiveRefusal :=
  match host with
  | .service _ => .failed (ascii "manifest save failed: " ++ message)
  | .adapter => .failed message

def runCommand (host : ArchiveHost) (command : ArchiveCommand) (calls : ArchiveCalls)
    (manifest : Role → Option Bytes) : Except ArchiveRefusal Unit × (Role → Option Bytes) :=
  match planCommand host command calls manifest with
  | .error refusal => (.error refusal, manifest)
  | .ok none => (.ok (), manifest)
  | .ok (some (role, entries)) =>
    let (result, file) := saveArchiveManifest host role entries calls (manifest role)
    (result.mapError (saveError host), Function.update manifest role file)

end Plans

end OtaArchive

end EspNowLink
