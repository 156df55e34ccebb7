import EspNowLink.Core.ProtocolCodec
import EspNowLink.Framework.SizedRecords

open Framework

namespace EspNowLink

section Records

inductive LibraryLogLevel where
  | Error
  | Warn
  | Info
  | Debug
  deriving DecidableEq

def LibraryLogLevel.code : LibraryLogLevel → UInt8
  | Error => 0
  | Warn => 1
  | Info => 2
  | Debug => 3

structure LibraryLogRecord where
  level : LibraryLogLevel
  source_id : UInt16
  event_id : UInt16
  epoch_s : UInt32
  uptime_ms : UInt32
  p0 : Int32
  p1 : Int32
  p2 : Int32
  ext : Bytes
  deriving DecidableEq

namespace LibraryLogger

def kLogMagic : UInt16 := 0x454C
def kLogVersion : UInt8 := 1

/-- The record up to its extension. -/
def fixedPart (record : LibraryLogRecord) (seq : UInt32) : Bytes :=
  le16 kLogMagic ++ [kLogVersion, record.level.code] ++ le16 record.source_id ++ le16 record.event_id ++
    le32 seq ++ le32 record.epoch_s ++ le32 record.uptime_ms ++ le32 record.p0.toUInt32 ++
    le32 record.p1.toUInt32 ++ le32 record.p2.toUInt32

def crc16Ccitt (data : Bytes) : UInt16 := data.foldl ProtocolCodec.crcByte 0xFFFF

def encodeRecord (record : LibraryLogRecord) (seq : UInt32) : Bytes :=
  let ext_len := min record.ext.length 255
  let out := fixedPart record seq ++ [UInt8.ofNat ext_len] ++ record.ext.take ext_len
  out ++ le16 (crc16Ccitt out)

/-- The length of the record at the front, once its length byte is there. -/
def recordSize (bs : Bytes) : Option ℕ := bs[32]?.map fun ext_len => 35 + ext_len.toNat

def sequenceOf (bs : Bytes) : UInt32 := readLe32 (bs.getD 8 0) (bs.getD 9 0) (bs.getD 10 0) (bs.getD 11 0)

/-- The numbers of the whole records of a log. -/
def sequences (file : Bytes) : List UInt32 := (SizedRecords.cut recordSize file).1.map sequenceOf

end LibraryLogger

end Records

section Store

structure LogStorageStats where
  available : Bool := false
  bytes_used : UInt32 := 0
  bytes_dropped : UInt32 := 0
  records_appended : UInt32 := 0
  rotations : UInt32 := 0
  deriving DecidableEq

/-- A store with its file. -/
structure EspLogStore where
  max_bytes : UInt32
  file : Bytes
  stats : LogStorageStats
  deriving DecidableEq

/-- How the backend's `truncate` ends: one that fails may have emptied the file all the same. -/
inductive Truncation where
  | done
  | failed (emptied : Bool)
  deriving DecidableEq

/-- How the backend's `append` ends: one that fails may have written some of the bytes. -/
inductive Appending where
  | done
  | failed (written : ℕ)
  deriving DecidableEq

def Truncation.left (t : Truncation) (file : Bytes) : Bytes :=
  match t with
  | done => []
  | failed emptied => if emptied then [] else file

def Appending.bytes (a : Appending) (data : Bytes) : Bytes :=
  match a with
  | done => data
  | failed written => data.take written

/-- The answers of the backend during an append to the log. -/
structure LogAnswers where
  size_ok : Bool
  truncated : Truncation
  appended : Appending
  deriving DecidableEq

namespace EspLogStore

def size (s : EspLogStore) (ok : Bool) : Option UInt32 := if ok then some (UInt32.ofNat s.file.length) else none

def refreshSize (s : EspLogStore) (size_ok : Bool) : EspLogStore :=
  { s with stats := { s.stats with bytes_used := (s.size size_ok).getD 0 } }

def beginStore (s : EspLogStore) (begun size_ok : Bool) : EspLogStore :=
  let s := { s with stats := { available := begun } }
  if begun then s.refreshSize size_ok else s

/-- The end of `append`, with `current` bytes in the file. -/
def appendTo (s : EspLogStore) (a : Appending) (current : UInt32) (data : Bytes) : Bool × EspLogStore :=
  let s := { s with file := s.file ++ a.bytes data }
  match a with
  | .failed _ => (false, s)
  | .done =>
    (true, { s with stats := { s.stats with
      records_appended := s.stats.records_appended + 1
      bytes_used := min s.max_bytes (current + UInt32.ofNat data.length) } })

/-- The sum of the lengths passes the limit. -/
def rotates (s : EspLogStore) (data : Bytes) : Bool :=
  s.max_bytes < UInt32.ofNat s.file.length + UInt32.ofNat data.length

def append (s : EspLogStore) (a : LogAnswers) (data : Bytes) : Bool × EspLogStore :=
  if !s.stats.available || data.isEmpty then (false, s)
  else if s.max_bytes.toNat < data.length then (false, s)
  else
    match s.size a.size_ok with
    | none => (false, s)
    | some current =>
      if s.rotates data then
        let emptied := { s with file := a.truncated.left s.file }
        match a.truncated with
        | .failed _ => (false, emptied)
        | .done =>
          appendTo { emptied with stats := { s.stats with
            bytes_dropped := s.stats.bytes_dropped + current
            rotations := s.stats.rotations + 1 } } a.appended 0 data
      else s.appendTo a.appended current data

/-- What is read and the size of the file. -/
def readChunk (s : EspLogStore) (offset : UInt32) (max_len : ℕ) (size_ok read_ok : Bool) :
    Option (Bytes × UInt32) :=
  if !s.stats.available || max_len = 0 then none
  else (s.size size_ok).bind fun size =>
    if offset ≥ size then some ([], size)
    else if read_ok then some ((s.file.drop offset.toNat).take max_len, size) else none

def clear (s : EspLogStore) (t : Truncation) : Bool × EspLogStore :=
  if !s.stats.available then (false, s)
  else
    let s := { s with file := t.left s.file }
    match t with
    | .failed _ => (false, s)
    | .done => (true, { s with stats := { s.stats with bytes_used := 0 } })

/-- Chunk after chunk, each behind the bytes read so far. -/
def readAll (s : EspLogStore) : UInt32 → List ℕ → Option Bytes
  | _, [] => some []
  | offset, max_len :: chunks => do
    let (bs, _) ← s.readChunk offset max_len true true
    let rest ← s.readAll (offset + UInt32.ofNat bs.length) chunks
    return bs ++ rest

end EspLogStore

end Store

section Logger

/-- A logger with its store, when one is attached. -/
structure LibraryLogger where
  store : EspLogStore
  attached : Bool
  enabled : Bool := true
  min_level : LibraryLogLevel := .Info
  last_sequence : UInt32 := 0
  deriving DecidableEq

namespace LibraryLogger

def shouldStore (l : LibraryLogger) (level : LibraryLogLevel) : Bool := level.code ≤ l.min_level.code

def log (l : LibraryLogger) (record : LibraryLogRecord) (a : LogAnswers) : Bool × LibraryLogger :=
  if !l.enabled then (true, l)
  else if !l.shouldStore record.level then (true, l)
  else if !l.attached then (false, l)
  else
    let seq := l.last_sequence + 1
    let appended := l.store.append a (encodeRecord record seq)
    if appended.1 then (true, { l with store := appended.2, last_sequence := seq })
    else (false, { l with store := appended.2 })

def clear (l : LibraryLogger) (t : Truncation) : Bool × LibraryLogger :=
  if !l.attached then (false, l)
  else
    let cleared := l.store.clear t
    (cleared.1, { l with store := cleared.2, last_sequence := 0 })

/-- A reboot keeps the file and what the build sets. -/
def reboot (l : LibraryLogger) (begun size_ok : Bool) : LibraryLogger :=
  { store := l.store.beginStore begun size_ok, attached := l.attached }

/-- What is done to the log, with the backend's answers. -/
inductive Op where
  | log (record : LibraryLogRecord) (a : LogAnswers)
  | clear (t : Truncation)
  | reboot (begun size_ok : Bool)
  | setEnabled (enabled : Bool)
  | setMinLevel (level : LibraryLogLevel)
  deriving DecidableEq

def step (l : LibraryLogger) : Op → LibraryLogger
  | .log record a => (l.log record a).2
  | .clear t => (l.clear t).2
  | .reboot begun size_ok => l.reboot begun size_ok
  | .setEnabled enabled => { l with enabled := enabled }
  | .setMinLevel level => { l with min_level := level }

/-- A node before its first boot. -/
def fresh (max_bytes : UInt32) (attached : Bool) : LibraryLogger where
  store := ⟨max_bytes, [], {}⟩
  attached := attached

end LibraryLogger

end Logger

end EspNowLink
