import EspNowLink.Framework.Programs
import EspNowLink.Platform.StoreFrame

namespace EspNowLink

open Framework

/-- The accesses to single blobs that the operations of a store are made of. -/
inductive BlobCall where
  | get (key : BlobKey)
  | put (key : BlobKey) (data : Bytes)
  | erase (key : BlobKey)

abbrev BlobCall.Answer : BlobCall → Type
  | .get _ => Option Bytes
  | .put _ _ => Bool
  | .erase _ => Bool

abbrev StoreProgram (α : Type) := Program BlobCall.Answer α

inductive StoreOp where
  | savePair (record : PairRecord)
  | loadPair (localMac peer : MacAddress)
  | erasePair (localMac peer : MacAddress)
  | saveChannel (localMac peer : MacAddress) (channel : UInt8)
  | loadChannel (localMac peer : MacAddress)
  | eraseChannel (localMac peer : MacAddress)
  | saveMetaBlob (localMac peer : MacAddress) (slot : UInt8) (data : Bytes)
  | loadMetaBlob (localMac peer : MacAddress) (slot : UInt8)
  | eraseMetaBlob (localMac peer : MacAddress) (slot : UInt8)
  | savePairIndex (localMac : MacAddress) (entries : List PairIndexEntry)
  | loadPairIndex (localMac : MacAddress)
  | upsertPairIndexEntry (localMac peer : MacAddress) (pair_seq : UInt32)
  | removePairIndexEntry (localMac peer : MacAddress)
  | savePairSeqCounter (localMac : MacAddress) (counter : UInt32)
  | loadPairSeqCounter (localMac : MacAddress)
  | clearPairSeqCounter (localMac : MacAddress)

inductive StoreResult where
  | done (ok : Bool)
  | pair (record : Option PairRecord)
  | channel (channel : Option UInt8)
  | blob (data : Option Bytes)
  | index (entries : Option (List PairIndexEntry))
  | counter (counter : Option UInt32)

namespace PairingStore

/-- An operation of the store, as it is carried out through the cache. -/
def perform (s : PairingStore) : StoreOp → StoreResult × PairingStore
  | .savePair record => (s.savePair record).map .done id
  | .loadPair localMac peer => (s.loadPair localMac peer).map .pair id
  | .erasePair localMac peer => (s.erasePair localMac peer).map .done id
  | .saveChannel localMac peer channel => (s.saveChannel localMac peer channel).map .done id
  | .loadChannel localMac peer => (s.loadChannel localMac peer).map .channel id
  | .eraseChannel localMac peer => (s.eraseChannel localMac peer).map .done id
  | .saveMetaBlob localMac peer slot data => (s.saveMetaBlob localMac peer slot data).map .done id
  | .loadMetaBlob localMac peer slot => (s.loadMetaBlob localMac peer slot).map .blob id
  | .eraseMetaBlob localMac peer slot => (s.eraseMetaBlob localMac peer slot).map .done id
  | .savePairIndex localMac entries => (s.savePairIndex localMac entries).map .done id
  | .loadPairIndex localMac => (s.loadPairIndex localMac).map .index id
  | .upsertPairIndexEntry localMac peer pair_seq =>
    (s.upsertPairIndexEntry localMac peer pair_seq).map .done id
  | .removePairIndexEntry localMac peer => (s.removePairIndexEntry localMac peer).map .done id
  | .savePairSeqCounter localMac counter => (s.savePairSeqCounter localMac counter).map .done id
  | .loadPairSeqCounter localMac => (s.loadPairSeqCounter localMac).map .counter id
  | .clearPairSeqCounter localMac => (s.clearPairSeqCounter localMac).map .done id

def performAll : PairingStore → List StoreOp → List StoreResult × PairingStore
  | s, [] => ([], s)
  | s, op :: ops =>
    let (result, s) := s.perform op
    (performAll s ops).map (result :: ·) id

/-- A blob access, as it is carried out through the cache. -/
def blobStep : (c : BlobCall) → PairingStore → c.Answer × PairingStore
  | .get key, s => s.getBlobCached key
  | .put key data, s => s.putBlobIfChanged key data
  | .erase key, s => s.eraseBlobIfExists key

end PairingStore

/-! The operations as programs over blob accesses. Of `s` they use what the keys are made of. -/

namespace StoreProgram

def getBlob (key : BlobKey) : StoreProgram (Option Bytes) := Program.ask (BlobCall.get key)
def putBlob (key : BlobKey) (data : Bytes) : StoreProgram Bool := Program.ask (BlobCall.put key data)
def eraseBlob (key : BlobKey) : StoreProgram Bool := Program.ask (BlobCall.erase key)

variable (s : PairingStore)

/-- The blob of one key, parsed. -/
def load {α : Type} (key : BlobKey) (parse : Bytes → Option α) : StoreProgram (Option α) :=
  if !s.enabled then pure none
  else do
    let blob ← getBlob key
    pure (blob.bind parse)

def put (key : BlobKey) (data : Bytes) : StoreProgram Bool :=
  if !s.enabled then pure false else putBlob key data

def erase (key : BlobKey) : StoreProgram Bool :=
  if !s.enabled then pure false else eraseBlob key

def savePairIndex (localMac : MacAddress) (entries : List PairIndexEntry) : StoreProgram Bool :=
  if entries.isEmpty then erase s (s.pairIndexKey localMac)
  else if entries.length > 65535 then pure false
  else put s (s.pairIndexKey localMac) (pairIndexBlob entries)

def loadPairIndex (localMac : MacAddress) : StoreProgram (Option (List PairIndexEntry)) :=
  load s (s.pairIndexKey localMac) pairIndexOfBlob

def upsertPairIndexEntry (localMac peer : MacAddress) (pair_seq : UInt32) : StoreProgram Bool := do
  let loaded ← loadPairIndex s localMac
  savePairIndex s localMac (PairingStore.upsertEntry peer pair_seq (loaded.getD []))

def removePairIndexEntry (localMac peer : MacAddress) : StoreProgram Bool :=
  if !s.enabled then pure false
  else do
    match ← loadPairIndex s localMac with
    | none => pure true
    | some entries => savePairIndex s localMac (entries.filter (·.peer_mac ≠ peer))

def assignPairSeq (localMac : MacAddress) : StoreProgram (Option UInt32) := do
  let loaded ← load s (s.pairSeqCounterKey localMac) pairSeqOfBlob
  let next_pair_seq := match loaded with
    | some 0 => 1
    | some n => n
    | none => 1
  let stored_next := if next_pair_seq = 0xFFFFFFFF then 1 else next_pair_seq + 1
  let saved ← put s (s.pairSeqCounterKey localMac) (pairSeqBlob stored_next)
  pure (if saved then some next_pair_seq else none)

def indexPair (localMac peer : MacAddress) : StoreProgram Bool := do
  let index ← loadPairIndex s localMac
  match (index.getD []).find? fun e => e.peer_mac = peer && e.valid && e.pair_seq != 0 with
  | some e => upsertPairIndexEntry s localMac peer e.pair_seq
  | none =>
    match ← assignPairSeq s localMac with
    | none => pure false
    | some seq => upsertPairIndexEntry s localMac peer seq

def savePair (record : PairRecord) : StoreProgram Bool := do
  match ← put s (s.makeKey .Pair record.local_mac record.peer_mac) (pairBlob record) with
  | false => pure false
  | true => indexPair s record.local_mac record.peer_mac

def erasePair (localMac peer : MacAddress) : StoreProgram Bool := do
  let erased_pair ← erase s (s.makeKey .Pair localMac peer)
  let erased_index ← removePairIndexEntry s localMac peer
  pure (erased_pair && erased_index)

/-- An operation as a program over blob accesses. -/
def ofOp : StoreOp → StoreProgram StoreResult
  | .savePair record => return .done (← savePair s record)
  | .loadPair localMac peer =>
    return .pair (← load s (s.makeKey .Pair localMac peer) pairOfBlob)
  | .erasePair localMac peer => return .done (← erasePair s localMac peer)
  | .saveChannel localMac peer channel =>
    return .done (← put s (s.makeKey .Channel localMac peer) [channel])
  | .loadChannel localMac peer =>
    return .channel (← load s (s.makeKey .Channel localMac peer) fun b =>
      if b.length ≠ 1 then none else b[0]?)
  | .eraseChannel localMac peer => return .done (← erase s (s.makeKey .Channel localMac peer))
  | .saveMetaBlob localMac peer slot data =>
    return .done (← put s (s.makeMetaKey localMac peer slot) data)
  | .loadMetaBlob localMac peer slot =>
    return .blob (← load s (s.makeMetaKey localMac peer slot) some)
  | .eraseMetaBlob localMac peer slot =>
    return .done (← erase s (s.makeMetaKey localMac peer slot))
  | .savePairIndex localMac entries => return .done (← savePairIndex s localMac entries)
  | .loadPairIndex localMac => return .index (← loadPairIndex s localMac)
  | .upsertPairIndexEntry localMac peer pair_seq =>
    return .done (← upsertPairIndexEntry s localMac peer pair_seq)
  | .removePairIndexEntry localMac peer => return .done (← removePairIndexEntry s localMac peer)
  | .savePairSeqCounter localMac counter =>
    return .done (← put s (s.pairSeqCounterKey localMac) (pairSeqBlob counter))
  | .loadPairSeqCounter localMac =>
    return .counter (← load s (s.pairSeqCounterKey localMac) pairSeqOfBlob)
  | .clearPairSeqCounter localMac => return .done (← erase s (s.pairSeqCounterKey localMac))

def ofOps (ops : List StoreOp) : StoreProgram (List StoreResult) :=
  match ops with
  | [] => pure []
  | op :: ops => do
    let result ← ofOp s op
    let results ← ofOps ops
    pure (result :: results)

end StoreProgram

namespace PairingStore

/-- `t` has the configuration of `s`, and so its keys. -/
structure SameKeys (s t : PairingStore) : Prop where
  config : t.config = s.config
  has_backend : t.has_backend = s.has_backend

namespace SameKeys

variable {s t u : PairingStore}

protected theorem refl (s : PairingStore) : SameKeys s s := ⟨rfl, rfl⟩

theorem frame {K : Set BlobKey} (h : SameKeys s t) (hframe : StoreFrame K t u) : SameKeys s u :=
  ⟨hframe.config.trans h.config, hframe.has_backend.trans h.has_backend⟩

theorem enabled (h : SameKeys s t) : t.enabled = s.enabled := by
  simp [PairingStore.enabled, h.config, h.has_backend]

theorem makeKey (h : SameKeys s t) (kind : RecordKind) (localMac peer : MacAddress) :
    t.makeKey kind localMac peer = s.makeKey kind localMac peer := by
  simp [PairingStore.makeKey, h.config]

theorem makeMetaKey (h : SameKeys s t) (localMac peer : MacAddress) (slot : UInt8) :
    t.makeMetaKey localMac peer slot = s.makeMetaKey localMac peer slot := by
  simp [PairingStore.makeMetaKey, h.config]

theorem pairIndexKey (h : SameKeys s t) (localMac : MacAddress) :
    t.pairIndexKey localMac = s.pairIndexKey localMac := by
  simp [PairingStore.pairIndexKey, makeLocalMetaKey, h.config]

theorem pairSeqCounterKey (h : SameKeys s t) (localMac : MacAddress) :
    t.pairSeqCounterKey localMac = s.pairSeqCounterKey localMac := by
  simp [PairingStore.pairSeqCounterKey, makeLocalMetaKey, h.config]

end SameKeys

section Programs

variable {s t : PairingStore}

theorem put_run (h : SameKeys s t) (key : BlobKey) (data : Bytes) :
    (StoreProgram.put s key data).run blobStep t =
      if !t.enabled then (false, t) else t.putBlobIfChanged key data := by
  rw [h.enabled]
  exact Program.run_ite _ _ _ t

theorem erase_run (h : SameKeys s t) (key : BlobKey) :
    (StoreProgram.erase s key).run blobStep t =
      if !t.enabled then (false, t) else t.eraseBlobIfExists key := by
  rw [h.enabled]
  exact Program.run_ite _ _ _ t

theorem load_run {α : Type} (h : SameKeys s t) (key : BlobKey) (parse : Bytes → Option α) :
    (StoreProgram.load s key parse).run blobStep t =
      if !t.enabled then (none, t) else ((t.getBlobCached key).1.bind parse, (t.getBlobCached key).2) := by
  rw [h.enabled]
  exact Program.run_ite _ _ _ t

theorem savePairIndex_run (h : SameKeys s t) (localMac : MacAddress) (entries : List PairIndexEntry) :
    (StoreProgram.savePairIndex s localMac entries).run blobStep t =
      t.savePairIndex localMac entries := by
  simp only [StoreProgram.savePairIndex, Program.run_ite, erase_run h, put_run h, ← h.pairIndexKey,
    Program.run_pure, savePairIndex]
  cases t.enabled <;> simp

theorem loadPairIndex_run (h : SameKeys s t) (localMac : MacAddress) :
    (StoreProgram.loadPairIndex s localMac).run blobStep t = t.loadPairIndex localMac := by
  rw [StoreProgram.loadPairIndex, load_run h, ← h.pairIndexKey]
  rfl

theorem upsertPairIndexEntry_run (h : SameKeys s t) (localMac peer : MacAddress) (seq : UInt32) :
    (StoreProgram.upsertPairIndexEntry s localMac peer seq).run blobStep t =
      t.upsertPairIndexEntry localMac peer seq := by
  rw [StoreProgram.upsertPairIndexEntry, Program.run_bind, loadPairIndex_run h,
    savePairIndex_run (h.frame (loadPairIndex_frame t localMac))]
  unfold upsertPairIndexEntry
  split
  · rename_i hoff
    simp [loadPairIndex, savePairIndex, hoff]
  · rfl

theorem removePairIndexEntry_run (h : SameKeys s t) (localMac peer : MacAddress) :
    (StoreProgram.removePairIndexEntry s localMac peer).run blobStep t =
      t.removePairIndexEntry localMac peer := by
  have hload := loadPairIndex_frame t localMac
  unfold StoreProgram.removePairIndexEntry removePairIndexEntry
  rw [Program.run_ite, h.enabled]
  split
  · rfl
  · rw [Program.run_bind, loadPairIndex_run h]
    rcases ht : t.loadPairIndex localMac with ⟨loaded, u⟩
    rw [ht] at hload
    cases loaded with
    | none => rfl
    | some entries => exact savePairIndex_run (h.frame hload) _ _

theorem assignPairSeq_run (h : SameKeys s t) (localMac : MacAddress) :
    (StoreProgram.assignPairSeq s localMac).run blobStep t = t.assignPairSeq localMac := by
  have hload := loadPairSeqCounter_frame t localMac
  have hrun : (StoreProgram.load s (s.pairSeqCounterKey localMac) pairSeqOfBlob).run blobStep t =
      t.loadPairSeqCounter localMac := by
    rw [load_run h, ← h.pairSeqCounterKey]
    rfl
  have hkeys := h.frame hload
  unfold StoreProgram.assignPairSeq assignPairSeq
  rw [Program.run_bind, hrun]
  rcases ht : t.loadPairSeqCounter localMac with ⟨loaded, u⟩
  rw [ht] at hkeys
  dsimp only
  rw [Program.run_bind, put_run hkeys, ← hkeys.pairSeqCounterKey]
  rfl

theorem indexPair_run (h : SameKeys s t) (localMac peer : MacAddress) :
    (StoreProgram.indexPair s localMac peer).run blobStep t = t.indexPair localMac peer := by
  have hload := loadPairIndex_frame t localMac
  unfold StoreProgram.indexPair indexPair
  rw [Program.run_bind, loadPairIndex_run h]
  rcases ht : t.loadPairIndex localMac with ⟨index, u⟩
  rw [ht] at hload
  have hkeys := h.frame hload
  dsimp only
  cases (index.getD []).find? fun e => e.peer_mac = peer && e.valid && e.pair_seq != 0 with
  | some e => exact upsertPairIndexEntry_run hkeys _ _ _
  | none =>
    have hassign := assignPairSeq_frame u localMac
    dsimp only
    rw [Program.run_bind, assignPairSeq_run hkeys]
    rcases hu : u.assignPairSeq localMac with ⟨assigned, v⟩
    rw [hu] at hassign
    cases assigned with
    | none => rfl
    | some seq => exact upsertPairIndexEntry_run (hkeys.frame hassign) _ _ _

theorem savePair_run (h : SameKeys s t) (record : PairRecord) :
    (StoreProgram.savePair s record).run blobStep t = t.savePair record := by
  have hput := (putBlobIfChanged_frame t (t.makeKey .Pair record.local_mac record.peer_mac)
    (pairBlob record)).1
  unfold StoreProgram.savePair savePair
  rw [Program.run_bind, put_run h, ← h.makeKey]
  cases t.enabled with
  | false => rfl
  | true =>
    simp only [Bool.not_true, Bool.false_eq_true, if_false]
    rcases ht : t.putBlobIfChanged (t.makeKey .Pair record.local_mac record.peer_mac)
      (pairBlob record) with ⟨ok, u⟩
    rw [ht] at hput
    cases ok with
    | false => rfl
    | true => exact indexPair_run (h.frame hput) _ _

theorem erasePair_run (h : SameKeys s t) (localMac peer : MacAddress) :
    (StoreProgram.erasePair s localMac peer).run blobStep t = t.erasePair localMac peer := by
  have herase := eraseBlobIfExists_frame t (t.makeKey .Pair localMac peer)
  unfold StoreProgram.erasePair erasePair
  rw [Program.run_bind, erase_run h, ← h.makeKey]
  split
  · rename_i hoff
    rw [Program.run_bind, removePairIndexEntry_run h]
    simp [removePairIndexEntry, hoff]
  · rw [Program.run_bind, removePairIndexEntry_run (h.frame herase)]
    rfl

/-- An empty blob is refused by the write as well. -/
theorem saveMetaBlob_eq (t : PairingStore) (localMac peer : MacAddress) (slot : UInt8) (data : Bytes) :
    t.saveMetaBlob localMac peer slot data =
      if !t.enabled then (false, t)
      else t.putBlobIfChanged (t.makeMetaKey localMac peer slot) data := by
  unfold saveMetaBlob
  cases hon : t.enabled with
  | false => rfl
  | true =>
    cases hdata : data.isEmpty with
    | false => rfl
    | true => simp [putBlobIfChanged, hdata]

/-- Every operation is its program. -/
theorem ofOp_run (h : SameKeys s t) (op : StoreOp) :
    (StoreProgram.ofOp s op).run blobStep t = t.perform op := by
  cases op with
  | savePair record => rw [StoreProgram.ofOp, Program.run_bind, savePair_run h]; rfl
  | loadPair localMac peer =>
    rw [StoreProgram.ofOp, Program.run_bind, load_run h, ← h.makeKey]
    rfl
  | erasePair localMac peer => rw [StoreProgram.ofOp, Program.run_bind, erasePair_run h]; rfl
  | saveChannel localMac peer channel =>
    rw [StoreProgram.ofOp, Program.run_bind, put_run h, ← h.makeKey]
    rfl
  | loadChannel localMac peer =>
    rw [StoreProgram.ofOp, Program.run_bind, load_run h, ← h.makeKey]
    rfl
  | eraseChannel localMac peer =>
    rw [StoreProgram.ofOp, Program.run_bind, erase_run h, ← h.makeKey]
    rfl
  | saveMetaBlob localMac peer slot data =>
    rw [StoreProgram.ofOp, Program.run_bind, put_run h, ← h.makeMetaKey, ← saveMetaBlob_eq]
    rfl
  | loadMetaBlob localMac peer slot =>
    rw [StoreProgram.ofOp, Program.run_bind, load_run h, ← h.makeMetaKey]
    unfold perform loadMetaBlob
    cases t.enabled with
    | false => rfl
    | true =>
      simp only [Bool.not_true, Bool.false_eq_true, if_false, Option.bind_fun_some]
      rfl
  | eraseMetaBlob localMac peer slot =>
    rw [StoreProgram.ofOp, Program.run_bind, erase_run h, ← h.makeMetaKey]
    rfl
  | savePairIndex localMac entries =>
    rw [StoreProgram.ofOp, Program.run_bind, savePairIndex_run h]
    rfl
  | loadPairIndex localMac => rw [StoreProgram.ofOp, Program.run_bind, loadPairIndex_run h]; rfl
  | upsertPairIndexEntry localMac peer pair_seq =>
    rw [StoreProgram.ofOp, Program.run_bind, upsertPairIndexEntry_run h]
    rfl
  | removePairIndexEntry localMac peer =>
    rw [StoreProgram.ofOp, Program.run_bind, removePairIndexEntry_run h]
    rfl
  | savePairSeqCounter localMac counter =>
    rw [StoreProgram.ofOp, Program.run_bind, put_run h, ← h.pairSeqCounterKey]
    rfl
  | loadPairSeqCounter localMac =>
    rw [StoreProgram.ofOp, Program.run_bind, load_run h, ← h.pairSeqCounterKey]
    rfl
  | clearPairSeqCounter localMac =>
    rw [StoreProgram.ofOp, Program.run_bind, erase_run h, ← h.pairSeqCounterKey]
    rfl

theorem blobStep_keys (c : BlobCall) (t : PairingStore) (h : SameKeys s t) :
    SameKeys s (blobStep c t).2 := by
  cases c with
  | get key => exact h.frame (getBlobCached_frame t key).1
  | put key data => exact h.frame (putBlobIfChanged_frame t key data).1
  | erase key => exact h.frame (eraseBlobIfExists_frame t key)

theorem perform_keys (h : SameKeys s t) (op : StoreOp) : SameKeys s (t.perform op).2 := by
  rw [← ofOp_run h]
  exact Program.run_invariant blobStep_keys _ h

theorem ofOps_run (h : SameKeys s t) (ops : List StoreOp) :
    (StoreProgram.ofOps s ops).run blobStep t = t.performAll ops := by
  induction ops generalizing t with
  | nil => rfl
  | cons op ops ih =>
    rw [StoreProgram.ofOps, Program.run_bind, ofOp_run h, Program.run_bind, ih (perform_keys h op)]
    rfl

end Programs

end PairingStore

end EspNowLink
