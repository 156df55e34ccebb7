import EspNowLink.Framework.TextLines
import EspNowLink.Ota.Lifecycle
import EspNowLink.Codec.FloatTexts

open Framework

namespace EspNowLink

/-- `OtaStorageStat`. -/
structure OtaStorageStat where
  exists_ : Bool
  is_dir : Bool
  size_bytes : UInt32
  deriving DecidableEq

/-- The storage backend with the operations that read. -/
structure OtaReadableStorage (Files : Type) extends OtaStorageBackend Files where
  stat : Bytes → Files → Except String OtaStorageStat
  readAt : Bytes → UInt32 → Nat → Files → Except String Bytes

namespace OtaManager

section Texts

def trim (value : Bytes) : Bytes := ((value.dropWhile isspace).reverse.dropWhile isspace).reverse

def isoctal (c : UInt8) : Bool := 0x30 ≤ c && c ≤ 0x37

/-- The digits of `strtoul` with base 0: behind `0x` hexadecimal, behind a zero octal. -/
def unsignedDigits (s : Bytes) : Option ℕ :=
  if (s.take 2).map tolower = ascii "0x" ∧ s.drop 2 ≠ [] ∧ (s.drop 2).all isxdigit then
    some (numberOf xdigitValue 16 (s.drop 2))
  else if s.head? = some 0x30 then if s.all isoctal then some (numberOf digitValue 8 s) else none
  else if s ≠ [] ∧ s.all isdigit then some (numberOf digitValue 10 s)
  else none

/-- `strtoul` on 32 bits: too large a number is the largest one, a minus is taken modulo `2 ^ 32`. -/
def unsignedLong (negative : Bool) (n : ℕ) : UInt32 :=
  if 2 ^ 32 ≤ n then UInt32.ofNat (2 ^ 32 - 1)
  else if negative then UInt32.ofNat (2 ^ 32 - n) else UInt32.ofNat n

/-- A text that `strtoul` reads to its end. Where it reads nothing the end is the start. -/
def parseU32 (value : Bytes) : Option UInt32 :=
  if value = [] then none
  else
    let text := cString value
    if text = [] then some 0
    else
      let (negative, digits) := decimalForm.sign (text.dropWhile isspace)
      (unsignedDigits digits).map (unsignedLong negative)

/-- `snprintf` with `%lu` and with `0x%08lX`. -/
def printDecimal (n : UInt32) : Bytes := spelling 10 digitByte n.toNat

def hexByte (d : ℕ) : UInt8 := if d < 10 then digitByte d else UInt8.ofNat (0x37 + d)

def printHex (n : UInt32) : Bytes := ascii "0x" ++ zeroPadded 16 hexByte 8 n.toNat

end Texts

section Parsing

/-- `PersistentStatusRecord{}`. -/
def noRecord : PersistentStatusRecord where
  state := ascii "none"
  epoch_s := 0
  boot_report_pending := false
  image_path := []
  image_size := 0
  image_crc32 := 0
  confirmed_sw_version := []
  confirmed_build_id := []

def orNone (state : Bytes) : Bytes := if state = [] then ascii "none" else state

def readStatusField (record : PersistentStatusRecord) (key value : Bytes) : PersistentStatusRecord :=
  if key = ascii "state" then { record with state := orNone value }
  else if key = ascii "epoch_s" then { record with epoch_s := (parseU32 value).getD record.epoch_s }
  else if key = ascii "boot_report_pending" then
    { record with boot_report_pending := ((parseU32 value).map (· != 0)).getD record.boot_report_pending }
  else if key = ascii "image_path" then { record with image_path := value }
  else if key = ascii "image_size" then { record with image_size := (parseU32 value).getD record.image_size }
  else if key = ascii "image_crc32" then { record with image_crc32 := (parseU32 value).getD record.image_crc32 }
  else if key = ascii "confirmed_sw" then { record with confirmed_sw_version := value }
  else if key = ascii "confirmed_build" then { record with confirmed_build_id := value }
  else record

def dropReturn (line : Bytes) : Bytes := if line.getLast? = some 0x0D then line.dropLast else line

def readStatusLine (record : PersistentStatusRecord) (line : Bytes) : PersistentStatusRecord :=
  let line := dropReturn (trim line)
  let key := line.takeWhile (· ≠ 0x3D)
  if key = [] ∨ key = line then record
  else readStatusField record (trim key) (trim (line.drop (key.length + 1)))

def parseStatus (text : Bytes) : PersistentStatusRecord :=
  let record := (text.splitOn 0x0A).foldl readStatusLine noRecord
  { record with state := orNone record.state }

def statusField (key : String) (value : Bytes) : Bytes := ascii key ++ 0x3D :: value

def statusLines (record : PersistentStatusRecord) : List Bytes :=
  [statusField "state" record.state,
    statusField "epoch_s" (printDecimal record.epoch_s),
    statusField "boot_report_pending" (ascii (if record.boot_report_pending then "1" else "0")),
    statusField "image_path" record.image_path,
    statusField "image_size" (printDecimal record.image_size),
    statusField "image_crc32" (printHex record.image_crc32),
    statusField "confirmed_sw" record.confirmed_sw_version,
    statusField "confirmed_build" record.confirmed_build_id]

def statusBody (record : PersistentStatusRecord) : Bytes := (statusLines record).flatMap fun line => line ++ [0x0A]

end Parsing

section Storage

variable {Files : Type} (b : OtaReadableStorage Files) (st_dir : Bytes)

def statusRecordPath : Bytes := joinPath st_dir (ascii "os.m")

def loadStatusRecord (files : Files) : Except String PersistentStatusRecord :=
  match b.stat (statusRecordPath st_dir) files with
  | .error message => .error (orDefault message "status stat failed")
  | .ok st =>
    if !st.exists_ ∨ st.is_dir ∨ st.size_bytes = 0 then .ok noRecord
    else if st.size_bytes > 2048 then .error "status record too large"
    else
      match b.readAt (statusRecordPath st_dir) 0 st.size_bytes.toNat files with
      | .error message => .error (orDefault message "status read failed")
      | .ok data => if data = [] then .ok noRecord else .ok (parseStatus data)

def saveStatusRecord (record : PersistentStatusRecord) (files : Files) : StorageResult × Files :=
  let (result, files) := b.ensureDir st_dir files
  if !result.ok then (⟨false, orDefault result.message "status dir unavailable"⟩, files)
  else
    let (result, files) := b.truncateFile (statusRecordPath st_dir) files
    if !result.ok then (⟨false, orDefault result.message "status truncate failed"⟩, files)
    else
      let (result, files) := b.writeAt (statusRecordPath st_dir) 0 (statusBody record) files
      if !result.ok then (⟨false, orDefault result.message "status write failed"⟩, files)
      else (⟨true, "ok"⟩, files)

end Storage

end OtaManager

end EspNowLink
