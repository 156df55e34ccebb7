import EspNowLink.Core.Types
import Mathlib.Data.List.AList
import Mathlib.Data.Set.Function

namespace EspNowLink

inductive RecordKind where
  | Pair
  | Channel
  | Meta
  deriving DecidableEq

def RecordKind.toByte : RecordKind → UInt8
  | .Pair => 1
  | .Channel => 2
  | .Meta => 3

/-- A stored link. `local_role` keeps the byte of the `Role` it was cast from or to. -/
structure PairRecord where
  valid : Bool
  local_role : UInt8
  local_mac : MacAddress
  peer_mac : MacAddress
  lmk : LmkKey
  channel : UInt8
  deriving DecidableEq

structure PairIndexEntry where
  peer_mac : MacAddress
  pair_seq : UInt32
  valid : Bool
  deriving DecidableEq

/-- A backend key: the kind letter and the 24 bits of the hash that `%c%06X` prints. -/
structure BlobKey where
  kind : Char
  hash : UInt32
  deriving DecidableEq

/-- The storage backend. Its `n`-th call succeeds when `fate n` does; a call that fails has no
effect, a read that fails finds nothing. -/
structure Backend where
  blobs : BlobKey → Option Bytes
  fate : Nat → Bool
  calls : Nat

namespace Backend

def putBlob (b : Backend) (key : BlobKey) (data : Bytes) : Bool × Backend :=
  if b.fate b.calls then
    (true, { b with blobs := Function.update b.blobs key (some data), calls := b.calls + 1 })
  else (false, { b with calls := b.calls + 1 })

def getBlob (b : Backend) (key : BlobKey) : Option Bytes × Backend :=
  (if b.fate b.calls then b.blobs key else none, { b with calls := b.calls + 1 })

def eraseKey (b : Backend) (key : BlobKey) : Bool × Backend :=
  if b.fate b.calls then
    (true, { b with blobs := Function.update b.blobs key none, calls := b.calls + 1 })
  else (false, { b with calls := b.calls + 1 })

end Backend

structure PersistenceConfig where
  enabled : Bool
  schema_version : UInt8

structure BlobCacheEntry where
  known : Bool
  existing : Bool
  value : Bytes
  last_used : UInt32
  deriving DecidableEq

abbrev BlobCache := AList (fun _ : BlobKey => BlobCacheEntry)

structure PairingStore where
  config : PersistenceConfig
  has_backend : Bool
  backend : Backend
  blob_cache : BlobCache
  blob_cache_access_seq : UInt32

def kBlobCacheMaxEntries : Nat := 256
def kFnvOffset : UInt32 := 2166136261
def kFnvPrime : UInt32 := 16777619
def kKeySaltPairIndex : UInt8 := 0xA2
def kKeySaltPairSeqCounter : UInt8 := 0xA3
def kPairIndexSchemaVersion : UInt8 := 1
def kPairSeqSchemaVersion : UInt8 := 1
def kPairIndexHeaderBytes : Nat := 4
def kPairIndexEntryBytes : Nat := 11
def kPairSeqBlobBytes : Nat := 5

def hashByte (h : UInt32) (b : UInt8) : UInt32 := (h ^^^ b.toUInt32) * kFnvPrime
def hashMac (h : UInt32) (mac : MacAddress) : UInt32 := mac.toList.foldl hashByte h

def hashKeyMaterial (kind : RecordKind) (localMac peer : MacAddress) (schema_version salt : UInt8) :
    UInt32 :=
  hashMac (hashMac (hashByte (hashByte (hashByte kFnvOffset kind.toByte) schema_version) salt)
    localMac) peer

/-- The bytes `blob[off] .. blob[off + n - 1]`. -/
def bytesAt (blob : Bytes) (off n : Nat) : Vector UInt8 n :=
  Vector.ofFn fun i => blob.getD (off + i) 0

def readLe32At (blob : Bytes) (off : Nat) : UInt32 :=
  readLe32 (blob.getD off 0) (blob.getD (off + 1) 0) (blob.getD (off + 2) 0) (blob.getD (off + 3) 0)

/-- The blob `savePair` writes. -/
def pairBlob (record : PairRecord) : Bytes :=
  [record.local_role] ++ record.local_mac.toList ++ record.peer_mac.toList ++ record.lmk.toList ++
    [record.channel, if record.valid then 1 else 0]

/-- What `loadPair` reads back from a blob. -/
def pairOfBlob (blob : Bytes) : Option PairRecord :=
  if blob.length ≠ 31 then none
  else some {
    local_role := blob.getD 0 0
    local_mac := bytesAt blob 1 6
    peer_mac := bytesAt blob 7 6
    lmk := bytesAt blob 13 16
    channel := blob.getD 29 0
    valid := blob.getD 30 0 != 0 }

def pairIndexEntryBlob (e : PairIndexEntry) : Bytes :=
  e.peer_mac.toList ++ le32 e.pair_seq ++ [if e.valid then 1 else 0]

def pairIndexBlob (entries : List PairIndexEntry) : Bytes :=
  [kPairIndexSchemaVersion, 0] ++ le16 entries.length.toUInt16 ++ entries.flatMap pairIndexEntryBlob

def pairIndexEntryAt (blob : Bytes) (off : Nat) : PairIndexEntry where
  peer_mac := bytesAt blob off 6
  pair_seq := readLe32At blob (off + 6)
  valid := blob.getD (off + 10) 0 != 0

def pairIndexOfBlob (blob : Bytes) : Option (List PairIndexEntry) :=
  if blob.length < kPairIndexHeaderBytes then none
  else if blob.getD 0 0 ≠ kPairIndexSchemaVersion then none
  else
    let count := (readLe16 (blob.getD 2 0) (blob.getD 3 0)).toNat
    if blob.length ≠ kPairIndexHeaderBytes + count * kPairIndexEntryBytes then none
    else some ((List.range count).map fun i =>
      pairIndexEntryAt blob (kPairIndexHeaderBytes + i * kPairIndexEntryBytes))

def pairSeqBlob (counter : UInt32) : Bytes := kPairSeqSchemaVersion :: le32 counter

def pairSeqOfBlob (blob : Bytes) : Option UInt32 :=
  if blob.length ≠ kPairSeqBlobBytes ∨ blob.getD 0 0 ≠ kPairSeqSchemaVersion then none
  else some (readLe32At blob 1)

namespace PairingStore

def enabled (s : PairingStore) : Bool := s.config.enabled && s.has_backend

def blobKey (kind : Char) (h : UInt32) : BlobKey := ⟨kind, h &&& 0xFFFFFF⟩

def makeKey (s : PairingStore) (kind : RecordKind) (localMac peer : MacAddress) : BlobKey :=
  let kindChar := match kind with
    | .Pair => 'p'
    | .Channel => 'c'
    | .Meta => 'm'
  blobKey kindChar (hashKeyMaterial kind localMac peer s.config.schema_version 0)

def makeMetaKey (s : PairingStore) (localMac peer : MacAddress) (slot : UInt8) : BlobKey :=
  blobKey 'm' (hashKeyMaterial .Meta localMac peer s.config.schema_version slot)

def makeLocalMetaKey (s : PairingStore) (localMac : MacAddress) (kind : Char) (salt : UInt8) :
    BlobKey :=
  blobKey kind (hashKeyMaterial .Meta localMac zeroMac s.config.schema_version salt)

def pairIndexKey (s : PairingStore) (localMac : MacAddress) : BlobKey :=
  s.makeLocalMetaKey localMac 'i' kKeySaltPairIndex

def pairSeqCounterKey (s : PairingStore) (localMac : MacAddress) : BlobKey :=
  s.makeLocalMetaKey localMac 'q' kKeySaltPairSeqCounter

def clearLastUsed (cache : BlobCache) : BlobCache where
  entries := cache.entries.map (.map id fun _ e => { e with last_used := 0 })
  nodupKeys := cache.nodupKeys.map₂ _ _

/-- `markBlobCacheEntryUsed_` on the entry of `key`, which holds `entry` before the call. -/
def markBlobCacheEntryUsed (s : PairingStore) (key : BlobKey) (entry : BlobCacheEntry) :
    PairingStore :=
  let wrapped := s.blob_cache_access_seq + 1 = 0
  let seq := if wrapped then 1 else s.blob_cache_access_seq + 1
  let cache := if wrapped then clearLastUsed s.blob_cache else s.blob_cache
  { s with
    blob_cache_access_seq := seq
    blob_cache := cache.insert key { entry with last_used := seq } }

/-- The entry the eviction loop picks: the first of the least recently used ones but `preserve`. -/
def oldestKey (preserve : BlobKey) : List (Sigma fun _ : BlobKey => BlobCacheEntry) → Option BlobKey
  | es => (es.foldl (fun (best : Option (BlobKey × UInt32)) e =>
      if e.1 = preserve then best
      else match best with
        | none => some (e.1, e.2.last_used)
        | some b => if e.2.last_used < b.2 then some (e.1, e.2.last_used) else some b) none).map (·.1)

def evictLoop (preserve : BlobKey) : Nat → BlobCache → BlobCache
  | 0, cache => cache
  | n + 1, cache =>
    if cache.entries.length > kBlobCacheMaxEntries then
      match oldestKey preserve cache.entries with
      | none => cache
      | some key => evictLoop preserve n (cache.erase key)
    else cache

/-- The loop erases one entry a turn, so it never takes more turns than there are entries. -/
def enforceBlobCacheLimit (s : PairingStore) (preserve : BlobKey) : PairingStore :=
  { s with blob_cache := evictLoop preserve s.blob_cache.entries.length s.blob_cache }

/-- The common tail of the cached operations: record what the backend holds under `key`. -/
def rememberBlob (s : PairingStore) (key : BlobKey) (value : Option Bytes) : PairingStore :=
  (s.markBlobCacheEntryUsed key
    { known := true, existing := value.isSome, value := value.getD [],
      last_used := 0 }).enforceBlobCacheLimit key

/-- `blob_cache_.find(key)` with `known`, as the value the cache knows for the key. -/
def cachedBlob (s : PairingStore) (key : BlobKey) : Option BlobCacheEntry :=
  (s.blob_cache.lookup key).filter (·.known)

def storeBlob (s : PairingStore) (key : BlobKey) (data : Bytes) : Bool × PairingStore :=
  match s.backend.putBlob key data with
  | (false, backend) => (false, { s with backend := backend })
  | (true, backend) => (true, ({ s with backend := backend }).rememberBlob key (some data))

def putBlobIfChanged (s : PairingStore) (key : BlobKey) (data : Bytes) : Bool × PairingStore :=
  if !s.enabled || data.isEmpty then (false, s)
  else match (s.cachedBlob key).filter (·.existing) with
    | some entry =>
      let s := s.markBlobCacheEntryUsed key entry
      if entry.value = data then (true, s) else s.storeBlob key data
    | none =>
      let (found, backend) := s.backend.getBlob key
      let s := ({ s with backend := backend }).rememberBlob key found
      if found = some data then (true, s) else s.storeBlob key data

def getBlobCached (s : PairingStore) (key : BlobKey) : Option Bytes × PairingStore :=
  if !s.enabled then (none, s)
  else match s.cachedBlob key with
    | some entry =>
      let s := s.markBlobCacheEntryUsed key entry
      (if entry.existing then some entry.value else none, s)
    | none =>
      let (found, backend) := s.backend.getBlob key
      (found, ({ s with backend := backend }).rememberBlob key found)

def eraseKnownBlob (s : PairingStore) (key : BlobKey) : Bool × PairingStore :=
  match s.backend.eraseKey key with
  | (false, backend) => (false, { s with backend := backend })
  | (true, backend) => (true, ({ s with backend := backend }).rememberBlob key none)

def eraseBlobIfExists (s : PairingStore) (key : BlobKey) : Bool × PairingStore :=
  if !s.enabled then (false, s)
  else match s.cachedBlob key with
    | some entry =>
      if entry.existing then s.eraseKnownBlob key
      else (true, s.markBlobCacheEntryUsed key entry)
    | none =>
      let (found, backend) := s.backend.getBlob key
      let s := { s with backend := backend }
      if found.isNone then (true, s.rememberBlob key none) else s.eraseKnownBlob key

def savePairIndex (s : PairingStore) (localMac : MacAddress) (entries : List PairIndexEntry) :
    Bool × PairingStore :=
  if !s.enabled then (false, s)
  else if entries.isEmpty then s.eraseBlobIfExists (s.pairIndexKey localMac)
  else if entries.length > 65535 then (false, s)
  else s.putBlobIfChanged (s.pairIndexKey localMac) (pairIndexBlob entries)

def loadPairIndex (s : PairingStore) (localMac : MacAddress) :
    Option (List PairIndexEntry) × PairingStore :=
  if !s.enabled then (none, s)
  else
    let (blob, s) := s.getBlobCached (s.pairIndexKey localMac)
    (blob.bind pairIndexOfBlob, s)

/-- The first entry of the peer gets the sequence number and is made valid; a new peer is
appended. -/
def upsertEntry (peer : MacAddress) (pair_seq : UInt32) : List PairIndexEntry → List PairIndexEntry
  | [] => [{ peer_mac := peer, pair_seq := pair_seq, valid := true }]
  | e :: es =>
    if e.peer_mac = peer then { e with pair_seq := pair_seq, valid := true } :: es
    else e :: upsertEntry peer pair_seq es

def upsertPairIndexEntry (s : PairingStore) (localMac peer : MacAddress) (pair_seq : UInt32) :
    Bool × PairingStore :=
  if !s.enabled then (false, s)
  else
    let (loaded, s) := s.loadPairIndex localMac
    s.savePairIndex localMac (upsertEntry peer pair_seq (loaded.getD []))

def removePairIndexEntry (s : PairingStore) (localMac peer : MacAddress) : Bool × PairingStore :=
  if !s.enabled then (false, s)
  else
    match s.loadPairIndex localMac with
    | (none, s) => (true, s)
    | (some entries, s) => s.savePairIndex localMac (entries.filter (·.peer_mac ≠ peer))

def savePairSeqCounter (s : PairingStore) (localMac : MacAddress) (counter : UInt32) :
    Bool × PairingStore :=
  if !s.enabled then (false, s)
  else s.putBlobIfChanged (s.pairSeqCounterKey localMac) (pairSeqBlob counter)

def loadPairSeqCounter (s : PairingStore) (localMac : MacAddress) : Option UInt32 × PairingStore :=
  if !s.enabled then (none, s)
  else
    let (blob, s) := s.getBlobCached (s.pairSeqCounterKey localMac)
    (blob.bind pairSeqOfBlob, s)

def clearPairSeqCounter (s : PairingStore) (localMac : MacAddress) : Bool × PairingStore :=
  if !s.enabled then (false, s) else s.eraseBlobIfExists (s.pairSeqCounterKey localMac)

/-- A fresh sequence number from the counter, which is stored advanced; `none` when it is not. -/
def assignPairSeq (s : PairingStore) (localMac : MacAddress) : Option UInt32 × PairingStore :=
  let (loaded, s) := s.loadPairSeqCounter localMac
  let next_pair_seq := match loaded with
    | some 0 => 1
    | some n => n
    | none => 1
  let stored_next := if next_pair_seq = 0xFFFFFFFF then 1 else next_pair_seq + 1
  let (saved, s) := s.savePairSeqCounter localMac stored_next
  (if saved then some next_pair_seq else none, s)

/-- The part of `savePair` after the record is written: the peer keeps the sequence number of its
valid index entry or gets a fresh one, and the index is saved. -/
def indexPair (s : PairingStore) (localMac peer : MacAddress) : Bool × PairingStore :=
  let (index, s) := s.loadPairIndex localMac
  match (index.getD []).find? fun e => e.peer_mac = peer && e.valid && e.pair_seq != 0 with
  | some e => s.upsertPairIndexEntry localMac peer e.pair_seq
  | none =>
    match s.assignPairSeq localMac with
    | (none, s) => (false, s)
    | (some seq, s) => s.upsertPairIndexEntry localMac peer seq

def savePair (s : PairingStore) (record : PairRecord) : Bool × PairingStore :=
  if !s.enabled then (false, s)
  else
    match s.putBlobIfChanged (s.makeKey .Pair record.local_mac record.peer_mac)
      (pairBlob record) with
    | (false, s) => (false, s)
    | (true, s) => s.indexPair record.local_mac record.peer_mac

def loadPair (s : PairingStore) (localMac peer : MacAddress) : Option PairRecord × PairingStore :=
  if !s.enabled then (none, s)
  else
    let (blob, s) := s.getBlobCached (s.makeKey .Pair localMac peer)
    (blob.bind pairOfBlob, s)

def erasePair (s : PairingStore) (localMac peer : MacAddress) : Bool × PairingStore :=
  if !s.enabled then (false, s)
  else
    let (erased_pair, s) := s.eraseBlobIfExists (s.makeKey .Pair localMac peer)
    let (erased_index, s) := s.removePairIndexEntry localMac peer
    (erased_pair && erased_index, s)

def saveChannel (s : PairingStore) (localMac peer : MacAddress) (channel : UInt8) :
    Bool × PairingStore :=
  if !s.enabled then (false, s)
  else s.putBlobIfChanged (s.makeKey .Channel localMac peer) [channel]

def loadChannel (s : PairingStore) (localMac peer : MacAddress) : Option UInt8 × PairingStore :=
  if !s.enabled then (none, s)
  else
    let (blob, s) := s.getBlobCached (s.makeKey .Channel localMac peer)
    (blob.bind fun b => if b.length ≠ 1 then none else b[0]?, s)

def eraseChannel (s : PairingStore) (localMac peer : MacAddress) : Bool × PairingStore :=
  if !s.enabled then (false, s) else s.eraseBlobIfExists (s.makeKey .Channel localMac peer)

def saveMetaBlob (s : PairingStore) (localMac peer : MacAddress) (slot : UInt8) (data : Bytes) :
    Bool × PairingStore :=
  if !s.enabled || data.isEmpty then (false, s)
  else s.putBlobIfChanged (s.makeMetaKey localMac peer slot) data

def loadMetaBlob (s : PairingStore) (localMac peer : MacAddress) (slot : UInt8) :
    Option Bytes × PairingStore :=
  if !s.enabled then (none, s) else s.getBlobCached (s.makeMetaKey localMac peer slot)

def eraseMetaBlob (s : PairingStore) (localMac peer : MacAddress) (slot : UInt8) :
    Bool × PairingStore :=
  if !s.enabled then (false, s) else s.eraseBlobIfExists (s.makeMetaKey localMac peer slot)

end PairingStore

end EspNowLink
