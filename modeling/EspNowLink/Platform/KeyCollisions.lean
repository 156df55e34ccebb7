import EspNowLink.Platform.WriteOutcomes

namespace EspNowLink

open Framework

def BlobCall.key : BlobCall → BlobKey
  | .get key => key
  | .put key _ => key
  | .erase key => key

namespace PairingStore

/-- Under `key`, `t` holds and remembers what `s` does, unless it has forgotten it. -/
structure Untouched (key : BlobKey) (s t : PairingStore) : Prop where
  blobs : t.backend.blobs key = s.backend.blobs key
  cache : ∀ e, t.blob_cache.lookup key = some e →
    ∃ old n, s.blob_cache.lookup key = some old ∧ e = { old with last_used := n }

namespace Untouched

variable {key k : BlobKey} {s t u : PairingStore}

protected theorem refl (key : BlobKey) (s : PairingStore) : Untouched key s s :=
  ⟨rfl, fun e he => ⟨e, e.last_used, he, rfl⟩⟩

protected theorem trans (hst : Untouched key s t) (htu : Untouched key t u) : Untouched key s u where
  blobs := htu.blobs.trans hst.blobs
  cache := by
    intro e he
    obtain ⟨mid, n, hmid, rfl⟩ := htu.cache e he
    obtain ⟨old, m, hold, rfl⟩ := hst.cache mid hmid
    exact ⟨old, n, hold, rfl⟩

theorem mark (hk : key ≠ k) (s : PairingStore) (entry : BlobCacheEntry) :
    Untouched key s (s.markBlobCacheEntryUsed k entry) where
  blobs := by rw [markUsed_backend]
  cache := by
    intro e he
    rcases markUsed_entry he with ⟨hsame, -⟩ | ⟨-, hold⟩
    · exact absurd hsame hk
    · exact hold

theorem remember (hk : key ≠ k) (s : PairingStore) (value : Option Bytes) :
    Untouched key s (s.rememberBlob k value) where
  blobs := by rw [rememberBlob_backend]
  cache := by
    intro e he
    exact (mark hk s _).cache e (evictLoop_lookup _ _ _ _ he)

theorem backend {b : Backend} (h : b.blobs key = s.backend.blobs key) :
    Untouched key s { s with backend := b } :=
  ⟨h, (Untouched.refl key s).cache⟩

theorem write (hk : key ≠ k) (s : PairingStore) (value : Option Bytes) :
    Untouched key s (s.writeThrough k value).2 := by
  unfold writeThrough
  split
  · refine Untouched.trans (backend ?_) (remember hk _ value)
    exact Function.update_of_ne hk _ _
  · exact backend rfl

/-- An access leaves every other key untouched. -/
theorem blobStep (c : BlobCall) (s : PairingStore) (hk : key ≠ c.key) :
    Untouched key s (blobStep c s).2 := by
  have hread (k : BlobKey) (hk : key ≠ k) :
      Untouched key s (({ s with backend := (s.backend.getBlob k).2 }).rememberBlob k
        (s.backend.getBlob k).1) := by
    have hgot : Untouched key s { s with backend := (s.backend.getBlob k).2 } := backend rfl
    exact hgot.trans (remember hk _ _)
  cases c with
  | get k =>
    change Untouched key s (s.getBlobCached k).2
    unfold getBlobCached
    split
    · exact .refl key s
    · cases s.cachedBlob k with
      | some e => exact mark hk s e
      | none => exact hread k hk
  | put k data =>
    change Untouched key s (s.putBlobIfChanged k data).2
    unfold putBlobIfChanged
    split
    · exact .refl key s
    · cases (s.cachedBlob k).filter (·.existing) with
      | some e =>
        dsimp only
        split
        · exact mark hk s e
        · rw [storeBlob_eq]
          exact (mark hk s e).trans (write hk _ _)
      | none =>
        dsimp only
        split
        · exact hread k hk
        · rw [storeBlob_eq]
          exact (hread k hk).trans (write hk _ _)
  | erase k =>
    change Untouched key s (s.eraseBlobIfExists k).2
    unfold eraseBlobIfExists
    split
    · exact .refl key s
    · cases s.cachedBlob k with
      | some e =>
        dsimp only
        split
        · rw [eraseKnownBlob_eq]
          exact write hk s _
        · exact mark hk s e
      | none =>
        have hskipped : Untouched key s { s with backend := (s.backend.getBlob k).2 } := backend rfl
        dsimp only
        split
        · exact hskipped.trans (remember hk _ _)
        · rw [eraseKnownBlob_eq]
          exact hskipped.trans (write hk _ _)

end Untouched

theorem writeThrough_fate (s : PairingStore) (key : BlobKey) (value : Option Bytes) :
    (s.writeThrough key value).2.backend.fate = s.backend.fate := by
  unfold writeThrough
  split
  · rw [rememberBlob_backend]
  · rfl

/-- Which calls of the backend succeed does not depend on what they are. -/
theorem blobStep_fate (c : BlobCall) (s : PairingStore) :
    (blobStep c s).2.backend.fate = s.backend.fate := by
  cases c with
  | get k =>
    change (s.getBlobCached k).2.backend.fate = _
    unfold getBlobCached
    split
    · rfl
    · cases s.cachedBlob k <;> rfl
  | put k data =>
    change (s.putBlobIfChanged k data).2.backend.fate = _
    unfold putBlobIfChanged
    split
    · rfl
    · cases (s.cachedBlob k).filter (·.existing) with
      | some e =>
        dsimp only
        split
        · rfl
        · rw [storeBlob_eq, writeThrough_fate, markUsed_backend]
      | none =>
        dsimp only
        split
        · rfl
        · rw [storeBlob_eq, writeThrough_fate]
          rfl
  | erase k =>
    change (s.eraseBlobIfExists k).2.backend.fate = _
    unfold eraseBlobIfExists
    split
    · rfl
    · cases s.cachedBlob k with
      | some e =>
        dsimp only
        split
        · rw [eraseKnownBlob_eq, writeThrough_fate]
        · rfl
      | none =>
        dsimp only
        split
        · rfl
        · rw [eraseKnownBlob_eq, writeThrough_fate]
          rfl

/-- What the store knows of the key, in its cache or its backend, is `value`. -/
structure KnownAs (key : BlobKey) (value : Option Bytes) (s : PairingStore) : Prop where
  blobs : s.backend.blobs key = value
  cache : ∀ e, s.blob_cache.lookup key = some e → e.known = true → e.content = value

namespace KnownAs

variable {key : BlobKey} {value : Option Bytes} {s t : PairingStore}

theorem of_exact (h : s.CacheExact) (key : BlobKey) : KnownAs key (s.backend.blobs key) s :=
  ⟨rfl, fun e he hknown => (h key e he hknown).symm⟩

theorem of_blobs (h : s.CacheExact) (hvalue : s.backend.blobs key = value) : KnownAs key value s := by
  subst hvalue
  exact of_exact h key

theorem untouched (h : KnownAs key value s) (hst : Untouched key s t) : KnownAs key value t where
  blobs := hst.blobs.trans h.blobs
  cache := by
    intro e he hknown
    obtain ⟨old, n, hold, rfl⟩ := hst.cache e he
    exact h.cache old hold hknown

/-- A read that reaches the store finds what it knows. -/
theorem getBlobCached (h : KnownAs key value s) (hread : ReadSucceeds (.get key) s) :
    (s.getBlobCached key).1 = if s.enabled then value else none := by
  unfold PairingStore.getBlobCached
  cases hon : s.enabled with
  | false => rfl
  | true =>
    cases hc : s.cachedBlob key with
    | some e =>
      obtain ⟨hlookup, hknown⟩ := cachedBlob_lookup hc
      exact h.cache e hlookup hknown
    | none =>
      have hfate : s.backend.fate s.backend.calls = true := hread (by simp [readsBackend, hon, hc])
      have hfound : (s.backend.getBlob key).1 = s.backend.blobs key := if_pos hfate
      exact hfound.trans h.blobs

end KnownAs

end PairingStore

namespace StoreProgram

variable {P : BlobCall → Prop} (s : PairingStore)

theorem put_calls {key : BlobKey} {data : Bytes} (h : P (.put key data)) :
    (put s key data).Calls P := by
  unfold put
  split
  · exact .pure _
  · exact .ask h

theorem erase_calls {key : BlobKey} (h : P (.erase key)) : (erase s key).Calls P := by
  unfold erase
  split
  · exact .pure _
  · exact .ask h

theorem load_calls {α : Type} {key : BlobKey} {parse : Bytes → Option α} (h : P (.get key)) :
    (load s key parse).Calls P := by
  unfold load
  split
  · exact .pure _
  · exact .bind (.ask h) fun _ => .pure _

variable {s} {localMac : MacAddress}

theorem savePairIndex_calls (h : ∀ c : BlobCall, c.key = s.pairIndexKey localMac → P c)
    (entries : List PairIndexEntry) : (savePairIndex s localMac entries).Calls P := by
  unfold savePairIndex
  split
  · exact erase_calls s (h _ rfl)
  split
  · exact .pure _
  · exact put_calls s (h _ rfl)

theorem upsertPairIndexEntry_calls (h : ∀ c : BlobCall, c.key = s.pairIndexKey localMac → P c)
    (peer : MacAddress) (seq : UInt32) : (upsertPairIndexEntry s localMac peer seq).Calls P :=
  .bind (load_calls s (h _ rfl)) fun _ => savePairIndex_calls h _

theorem removePairIndexEntry_calls (h : ∀ c : BlobCall, c.key = s.pairIndexKey localMac → P c)
    (peer : MacAddress) : (removePairIndexEntry s localMac peer).Calls P := by
  unfold removePairIndexEntry
  split
  · exact .pure _
  · refine .bind (load_calls s (h _ rfl)) fun loaded => ?_
    cases loaded with
    | none => exact .pure _
    | some entries => exact savePairIndex_calls h _

theorem assignPairSeq_calls (h : ∀ c : BlobCall, c.key = s.pairSeqCounterKey localMac → P c) :
    (assignPairSeq s localMac).Calls P := by
  refine .bind (load_calls s (h _ rfl)) fun _ => ?_
  exact .bind (put_calls s (h _ rfl)) fun _ => .pure _

theorem indexPair_calls (hindex : ∀ c : BlobCall, c.key = s.pairIndexKey localMac → P c)
    (hseq : ∀ c : BlobCall, c.key = s.pairSeqCounterKey localMac → P c) (peer : MacAddress) :
    (indexPair s localMac peer).Calls P := by
  refine .bind (load_calls s (hindex _ rfl)) fun index => ?_
  cases (index.getD []).find? fun e => e.peer_mac = peer && e.valid && e.pair_seq != 0 with
  | some e => exact upsertPairIndexEntry_calls hindex _ _
  | none =>
    refine .bind (assignPairSeq_calls hseq) fun assigned => ?_
    cases assigned with
    | none => exact .pure _
    | some seq => exact upsertPairIndexEntry_calls hindex _ _

/-- The accesses of `savePair`: the record is put, the rest is the index and the counter. -/
theorem savePair_calls {record : PairRecord}
    (hput : P (.put (s.makeKey .Pair record.local_mac record.peer_mac) (pairBlob record)))
    (hindex : ∀ c : BlobCall, c.key = s.pairIndexKey record.local_mac → P c)
    (hseq : ∀ c : BlobCall, c.key = s.pairSeqCounterKey record.local_mac → P c) :
    (savePair s record).Calls P := by
  refine .bind (put_calls s hput) fun ok => ?_
  cases ok with
  | false => exact .pure _
  | true => exact indexPair_calls hindex hseq _

theorem erasePair_calls {peer : MacAddress} (herase : P (.erase (s.makeKey .Pair localMac peer)))
    (hindex : ∀ c : BlobCall, c.key = s.pairIndexKey localMac → P c) :
    (erasePair s localMac peer).Calls P := by
  refine .bind (erase_calls s herase) fun _ => ?_
  exact .bind (removePairIndexEntry_calls hindex _) fun _ => .pure _

end StoreProgram

/-- The operations that save, erase or update what is stored for one peer. -/
inductive WritesPeer (localMac peer : MacAddress) : StoreOp → Prop
  | savePair {record : PairRecord} : record.local_mac = localMac → record.peer_mac = peer →
    WritesPeer localMac peer (.savePair record)
  | erasePair : WritesPeer localMac peer (.erasePair localMac peer)
  | saveChannel (channel : UInt8) : WritesPeer localMac peer (.saveChannel localMac peer channel)
  | eraseChannel : WritesPeer localMac peer (.eraseChannel localMac peer)
  | saveMetaBlob (slot : UInt8) (data : Bytes) :
    WritesPeer localMac peer (.saveMetaBlob localMac peer slot data)
  | eraseMetaBlob (slot : UInt8) : WritesPeer localMac peer (.eraseMetaBlob localMac peer slot)

inductive ReadsPeer (localMac peer : MacAddress) : StoreOp → Prop
  | loadPair : ReadsPeer localMac peer (.loadPair localMac peer)
  | loadChannel : ReadsPeer localMac peer (.loadChannel localMac peer)
  | loadMetaBlob (slot : UInt8) : ReadsPeer localMac peer (.loadMetaBlob localMac peer slot)

/-- The 24 bits of the hash that are the key of a peer, but for its letter. -/
def keyHash (version : UInt8) (kind : RecordKind) (localMac peer : MacAddress) (salt : UInt8) :
    UInt32 :=
  hashKeyMaterial kind localMac peer version salt &&& 0xFFFFFF

/-- No record of the two peers has the key of one of the other's. -/
structure KeysApart (version : UInt8) (localMac peer other : MacAddress) : Prop where
  pair : keyHash version .Pair localMac peer 0 ≠ keyHash version .Pair localMac other 0
  channel : keyHash version .Channel localMac peer 0 ≠ keyHash version .Channel localMac other 0
  slots : ∀ i j, keyHash version .Meta localMac peer i ≠ keyHash version .Meta localMac other j

namespace PairingStore

/-- The keys of what is stored for one peer. -/
inductive PeerKey (s : PairingStore) (localMac peer : MacAddress) : BlobKey → Prop
  | pair : PeerKey s localMac peer (s.makeKey .Pair localMac peer)
  | channel : PeerKey s localMac peer (s.makeKey .Channel localMac peer)
  | slot (slot : UInt8) : PeerKey s localMac peer (s.makeMetaKey localMac peer slot)

/-- The keys that an operation on one peer reads or writes. -/
def OperationKey (s : PairingStore) (localMac peer : MacAddress) (key : BlobKey) : Prop :=
  s.PeerKey localMac peer key ∨ key = s.pairIndexKey localMac ∨ key = s.pairSeqCounterKey localMac

variable {s t : PairingStore} {localMac peer other : MacAddress} {op : StoreOp}

theorem peerKey_ne (h : KeysApart s.config.schema_version localMac peer other) {k k' : BlobKey}
    (hk : s.PeerKey localMac peer k) (hk' : s.OperationKey localMac other k') : k ≠ k' := by
  have hpair := h.pair
  have hchannel := h.channel
  have hslots := h.slots
  simp only [keyHash] at hpair hchannel hslots
  rcases hk' with hk' | rfl | rfl
  · cases hk <;> cases hk' <;>
      simp_all [PairingStore.makeKey, PairingStore.makeMetaKey, blobKey]
  · cases hk <;> simp [PairingStore.makeKey, PairingStore.makeMetaKey, PairingStore.pairIndexKey,
      makeLocalMetaKey, blobKey]
  · cases hk <;> simp [PairingStore.makeKey, PairingStore.makeMetaKey,
      PairingStore.pairSeqCounterKey, makeLocalMetaKey, blobKey]

theorem writesPeer_calls (s : PairingStore) (h : WritesPeer localMac peer op) :
    (StoreProgram.ofOp s op).Calls fun c => s.OperationKey localMac peer c.key := by
  have hindex : ∀ c : BlobCall, c.key = s.pairIndexKey localMac →
      s.OperationKey localMac peer c.key := fun c hc => .inr (.inl hc)
  have hseq : ∀ c : BlobCall, c.key = s.pairSeqCounterKey localMac →
      s.OperationKey localMac peer c.key := fun c hc => .inr (.inr hc)
  cases h with
  | @savePair record hlocal hpeer =>
    subst hlocal hpeer
    exact .bind (StoreProgram.savePair_calls (.inl .pair) hindex hseq) fun _ => .pure _
  | erasePair =>
    exact .bind (StoreProgram.erasePair_calls (.inl .pair) hindex) fun _ => .pure _
  | saveChannel channel => exact .bind (StoreProgram.put_calls s (.inl .channel)) fun _ => .pure _
  | eraseChannel => exact .bind (StoreProgram.erase_calls s (.inl .channel)) fun _ => .pure _
  | saveMetaBlob slot data =>
    exact .bind (StoreProgram.put_calls s (.inl (.slot slot))) fun _ => .pure _
  | eraseMetaBlob slot =>
    exact .bind (StoreProgram.erase_calls s (.inl (.slot slot))) fun _ => .pure _

/-- An operation on one peer leaves the keys of another untouched, if these are apart. -/
theorem perform_untouched (h : KeysApart s.config.schema_version localMac peer other)
    (hop : WritesPeer localMac other op) {key : BlobKey} (hkey : s.PeerKey localMac peer key) :
    Untouched key s (s.perform op).2 := by
  rw [← ofOp_run (.refl s)]
  refine (writesPeer_calls s hop).run_invariant (fun c t hc ht => ?_) (.refl key s)
  exact ht.trans (.blobStep c t (peerKey_ne h hkey hc))

/-- A read of one peer gives what the store knows of a key of that peer. -/
theorem readsPeer_known (s : PairingStore) {read : StoreOp} (hread : ReadsPeer localMac peer read) :
    ∃ key, s.PeerKey localMac peer key ∧ ∃ result : Option Bytes → StoreResult,
      ∀ t value, SameKeys s t → KnownAs key value t → t.OnlyWritesFail [read] →
        (t.perform read).1 = result (if s.enabled then value else none) := by
  have hblob : ∀ {t : PairingStore} {key value}, SameKeys s t → KnownAs key value t →
      (t.enabled = true → ReadSucceeds (.get key) t) →
      (t.getBlobCached key).1 = if s.enabled then value else none := by
    intro t key value hkeys hknown hreach
    rw [← hkeys.enabled]
    cases hon : t.enabled with
    | false => simp [getBlobCached, hon]
    | true => rw [hknown.getBlobCached (hreach hon), hon]
  cases hread with
  | loadPair =>
    refine ⟨_, .pair, fun blob => .pair (blob.bind pairOfBlob), fun t value hkeys hknown hok => ?_⟩
    rw [← hkeys.makeKey] at hknown
    have hreach : t.enabled = true → ReadSucceeds (.get (t.makeKey .Pair localMac peer)) t := by
      intro hon
      rw [OnlyWritesFail, StoreProgram.ofOps, StoreProgram.ofOp, StoreProgram.load, hon] at hok
      exact hok.1
    rw [← hblob hkeys hknown hreach, perform, PairingStore.loadPair]
    cases hon : t.enabled <;> simp [getBlobCached, hon]
  | loadChannel =>
    refine ⟨_, .channel,
      fun blob => .channel (blob.bind fun b => if b.length ≠ 1 then none else b[0]?),
      fun t value hkeys hknown hok => ?_⟩
    rw [← hkeys.makeKey] at hknown
    have hreach : t.enabled = true → ReadSucceeds (.get (t.makeKey .Channel localMac peer)) t := by
      intro hon
      rw [OnlyWritesFail, StoreProgram.ofOps, StoreProgram.ofOp, StoreProgram.load, hon] at hok
      exact hok.1
    rw [← hblob hkeys hknown hreach, perform, PairingStore.loadChannel]
    cases hon : t.enabled <;> simp [getBlobCached, hon]
  | loadMetaBlob slot =>
    refine ⟨_, .slot slot, .blob, fun t value hkeys hknown hok => ?_⟩
    rw [← hkeys.makeMetaKey] at hknown
    have hreach : t.enabled = true → ReadSucceeds (.get (t.makeMetaKey localMac peer slot)) t := by
      intro hon
      rw [OnlyWritesFail, StoreProgram.ofOps, StoreProgram.ofOp, StoreProgram.load, hon] at hok
      exact hok.1
    rw [← hblob hkeys hknown hreach, perform, PairingStore.loadMetaBlob]
    cases hon : t.enabled <;> simp [getBlobCached, hon]

/-- Whatever is done for the other peer, a read of this one gives what it gave before. -/
def KeepsReads (version : UInt8) (localMac peer other : MacAddress) : Prop :=
  ∀ s : PairingStore, s.config.schema_version = version → s.CacheExact →
    ∀ write, WritesPeer localMac other write → ∀ read, ReadsPeer localMac peer read →
      s.OnlyWritesFail [read] → (s.perform write).2.OnlyWritesFail [read] →
        ((s.perform write).2.perform read).1 = (s.perform read).1

theorem keepsReads_of_apart {version : UInt8} (h : KeysApart version localMac peer other) :
    KeepsReads version localMac peer other := by
  intro s hversion hexact write hwrite read hread hbefore hafter
  subst hversion
  obtain ⟨key, hkey, result, hresult⟩ := readsPeer_known s hread
  have hknown : KnownAs key (s.backend.blobs key) s := .of_exact hexact key
  have hkept := hknown.untouched (perform_untouched h hwrite hkey)
  have hfirst := hresult s _ (.refl s) hknown hbefore
  have hsecond := hresult _ _ (perform_keys (.refl s) write) hkept hafter
  rw [hsecond, hfirst]

section Working

/-- The backend carries out every call. -/
def Works (s : PairingStore) : Prop := s.enabled = true ∧ ∀ n, s.backend.fate n = true

theorem Works.blobStep (h : s.Works) (c : BlobCall) : (blobStep c s).2.Works := by
  refine ⟨?_, ?_⟩
  · rw [(blobStep_keys c s (.refl s)).enabled]
    exact h.1
  · rw [blobStep_fate]
    exact h.2

theorem Works.perform (h : s.Works) (op : StoreOp) : (s.perform op).2.Works := by
  rw [← ofOp_run (.refl s)]
  exact Program.run_invariant (fun c t ht => ht.blobStep c) _ h

theorem Works.onlyWritesFail (h : s.Works) (ops : List StoreOp) : s.OnlyWritesFail ops := by
  unfold OnlyWritesFail
  suffices hall : ∀ {α : Type} (p : StoreProgram α) (t : PairingStore), t.Works →
      p.Along PairingStore.blobStep ReadSucceeds t from hall _ s h
  intro α p
  induction p with
  | done a => exact fun _ _ => trivial
  | call c next ih => exact fun t ht => ⟨fun _ => ht.2 _, ih _ _ (ht.blobStep c)⟩

theorem KnownAs.loads {key : BlobKey} {value : Option Bytes} (h : KnownAs key value s)
    (hworks : s.Works) : (s.getBlobCached key).1 = value := by
  rw [h.getBlobCached fun _ => hworks.2 _, hworks.1, if_pos rfl]

theorem writeThrough_known (hexact : s.CacheExact) (hworks : ∀ n, s.backend.fate n = true)
    (key : BlobKey) (value : Option Bytes) : KnownAs key value (s.writeThrough key value).2 := by
  refine .of_blobs (writeThrough_exact key hexact value) ?_
  rw [(s.writeThrough_blobs key value).2, if_pos (hworks _), Function.update_self]

/-- A store after its start, with a backend that works and holds `blobs`. -/
def working (version : UInt8) (blobs : BlobKey → Option Bytes) : PairingStore :=
  fresh ⟨true, version⟩ true ⟨blobs, fun _ => true, 0⟩

variable (version : UInt8) (blobs : BlobKey → Option Bytes)

theorem working_works : (working version blobs).Works := ⟨rfl, fun _ => rfl⟩

theorem working_exact : (working version blobs).CacheExact := by
  intro key e he
  rw [show (working version blobs).blob_cache = ∅ from rfl, AList.lookup_empty] at he
  cases he

theorem working_known (key : BlobKey) : KnownAs key (blobs key) (working version blobs) :=
  .of_exact (working_exact version blobs) key

/-- The store once it has read the backend. -/
private def workingRead : PairingStore :=
  { working version blobs with backend := ⟨blobs, fun _ => true, 1⟩ }

theorem working_erases (key : BlobKey) :
    KnownAs key none ((working version blobs).eraseBlobIfExists key).2 := by
  have hread : (working version blobs).eraseBlobIfExists key =
      if (blobs key).isNone then (true, (workingRead version blobs).rememberBlob key none)
      else (workingRead version blobs).eraseKnownBlob key := rfl
  have hexact : (workingRead version blobs).CacheExact := working_exact version blobs
  rw [hread]
  split
  · rename_i hnone
    have hb : blobs key = none := by simpa using hnone
    exact .of_blobs (rememberBlob_exact (fun k e _ => hexact k e) hb) hb
  · rw [eraseKnownBlob_eq]
    exact writeThrough_known hexact (fun _ => rfl) key none

theorem working_puts (key : BlobKey) {data : Bytes} (hdata : data ≠ []) :
    KnownAs key (some data) ((working version blobs).putBlobIfChanged key data).2 := by
  have hread : (working version blobs).putBlobIfChanged key data =
      if data.isEmpty then (false, working version blobs)
      else if blobs key = some data then
        (true, (workingRead version blobs).rememberBlob key (blobs key))
      else ((workingRead version blobs).rememberBlob key (blobs key)).storeBlob key data := rfl
  rw [hread, if_neg (by simpa using hdata)]
  have hremembered : ((workingRead version blobs).rememberBlob key (blobs key)).CacheExact :=
    (readBlob_exact key (working_exact version blobs) rfl).2
  split
  · rename_i hsame
    exact .of_blobs hremembered hsame
  · rw [storeBlob_eq]
    exact writeThrough_known hremembered (fun _ => rfl) key (some data)

/-- A store that holds one blob. -/
def holding (version : UInt8) (key : BlobKey) (blob : Bytes) : PairingStore :=
  working version (Function.update (fun _ => none) key (some blob))

theorem holding_known (version : UInt8) (key : BlobKey) (blob : Bytes) :
    KnownAs key (some blob) (holding version key blob) := by
  have h := working_known version (Function.update (fun _ => none) key (some blob)) key
  rwa [Function.update_self] at h

end Working

/-- What the erase of the other peer takes away. -/
theorem KeepsReads.not_erased {version : UInt8} (h : KeepsReads version localMac peer other)
    {write read : StoreOp} (hwrite : WritesPeer localMac other write)
    (hread : ReadsPeer localMac peer read) (key : BlobKey) (blob : Bytes)
    (result : Option Bytes → StoreResult)
    (hresult : ∀ t value, SameKeys (holding version key blob) t → t.Works → KnownAs key value t →
      (t.perform read).1 = result value)
    (herased : KnownAs key none ((holding version key blob).perform write).2) :
    result none = result (some blob) := by
  have hworks : (holding version key blob).Works := working_works version _
  have hworks' := hworks.perform write
  have hbefore := hresult _ _ (.refl _) hworks (holding_known version key blob)
  have hafter := hresult _ _ (perform_keys (.refl _) write) hworks' herased
  rw [← hbefore, ← hafter]
  exact h (holding version key blob) rfl (working_exact version _) write hwrite read hread
    (hworks.onlyWritesFail _) (hworks'.onlyWritesFail _)

theorem pairKey_ne_index (s : PairingStore) (localMac : MacAddress) (h : UInt32) :
    blobKey 'p' h ≠ s.pairIndexKey localMac := by
  simp [PairingStore.pairIndexKey, makeLocalMetaKey, blobKey]

theorem pairKey_ne_seq (s : PairingStore) (localMac : MacAddress) (h : UInt32) :
    blobKey 'p' h ≠ s.pairSeqCounterKey localMac := by
  simp [PairingStore.pairSeqCounterKey, makeLocalMetaKey, blobKey]

theorem removePairIndexEntry_untouched (s : PairingStore) {key : BlobKey}
    (hkey : key ≠ s.pairIndexKey localMac) :
    Untouched key s (s.removePairIndexEntry localMac peer).2 := by
  rw [← removePairIndexEntry_run (.refl s)]
  have hcalls : (StoreProgram.removePairIndexEntry s localMac peer).Calls fun c =>
      c.key = s.pairIndexKey localMac :=
    StoreProgram.removePairIndexEntry_calls (fun c hc => hc) peer
  exact hcalls.run_invariant (fun c t hc ht => ht.trans (.blobStep c t (hc ▸ hkey))) (.refl key s)

theorem indexPair_untouched (s : PairingStore) {key : BlobKey}
    (hindex : key ≠ s.pairIndexKey localMac) (hseq : key ≠ s.pairSeqCounterKey localMac) :
    Untouched key s (s.indexPair localMac peer).2 := by
  rw [← indexPair_run (.refl s)]
  have hcalls : (StoreProgram.indexPair s localMac peer).Calls fun c => key ≠ c.key :=
    StoreProgram.indexPair_calls (fun c hc => hc ▸ hindex) (fun c hc => hc ▸ hseq) peer
  exact hcalls.run_invariant (fun c t hc ht => ht.trans (.blobStep c t hc)) (.refl key s)

theorem apart_of_keepsReads {version : UInt8} (h : KeepsReads version localMac peer other) :
    KeysApart version localMac peer other where
  pair := by
    intro hcollide
    let key := blobKey 'p' (hashKeyMaterial .Pair localMac peer version 0)
    let record : PairRecord := ⟨true, 0, localMac, peer, Vector.replicate 16 0, 0⟩
    have hkey : (holding version key (pairBlob record)).makeKey .Pair localMac other = key :=
      congrArg (BlobKey.mk 'p') hcollide.symm
    have hsame := h.not_erased .erasePair .loadPair key (pairBlob record)
      (fun blob => .pair (blob.bind pairOfBlob)) ?_ ?_
    · simp [pairOfBlob_pairBlob] at hsame
    · intro t value hkeys hworks hknown
      have hload := hknown.loads hworks
      have hat : t.makeKey .Pair localMac peer = key := hkeys.makeKey _ _ _
      simp [perform, PairingStore.loadPair, hworks.1, hat, hload]
    · have herased := working_erases version
        (Function.update (fun _ => none) key (some (pairBlob record))) key
      let t := ((holding version key (pairBlob record)).eraseBlobIfExists key).2
      have hindex : Untouched key t (t.removePairIndexEntry localMac other).2 :=
        removePairIndexEntry_untouched t (pairKey_ne_index t localMac _)
      change KnownAs key none (((holding version key (pairBlob record)).eraseBlobIfExists
        ((holding version key (pairBlob record)).makeKey .Pair localMac other)).2.removePairIndexEntry
          localMac other).2
      rw [hkey]
      exact herased.untouched hindex
  channel := by
    intro hcollide
    let key := blobKey 'c' (hashKeyMaterial .Channel localMac peer version 0)
    have hkey : (holding version key [0]).makeKey .Channel localMac other = key :=
      congrArg (BlobKey.mk 'c') hcollide.symm
    have hsame := h.not_erased .eraseChannel .loadChannel key [0]
      (fun blob => .channel (blob.bind fun b => if b.length ≠ 1 then none else b[0]?)) ?_ ?_
    · simp at hsame
    · intro t value hkeys hworks hknown
      have hload := hknown.loads hworks
      have hat : t.makeKey .Channel localMac peer = key := hkeys.makeKey _ _ _
      simp [perform, PairingStore.loadChannel, hworks.1, hat, hload]
    · have herased := working_erases version (Function.update (fun _ => none) key (some [0])) key
      change KnownAs key none ((holding version key [0]).eraseBlobIfExists
        ((holding version key [0]).makeKey .Channel localMac other)).2
      rwa [hkey]
  slots := by
    intro i j hcollide
    let key := blobKey 'm' (hashKeyMaterial .Meta localMac peer version i)
    have hkey : (holding version key [0]).makeMetaKey localMac other j = key :=
      congrArg (BlobKey.mk 'm') hcollide.symm
    have hsame := h.not_erased (.eraseMetaBlob j) (.loadMetaBlob i) key [0] .blob ?_ ?_
    · simp at hsame
    · intro t value hkeys hworks hknown
      have hload := hknown.loads hworks
      have hat : t.makeMetaKey localMac peer i = key := hkeys.makeMetaKey _ _ _
      simp [perform, PairingStore.loadMetaBlob, hworks.1, hat, hload]
    · have herased := working_erases version (Function.update (fun _ => none) key (some [0])) key
      change KnownAs key none ((holding version key [0]).eraseBlobIfExists
        ((holding version key [0]).makeMetaKey localMac other j)).2
      rwa [hkey]

end PairingStore

/-- What happens to a store: an operation, or a start on the backend as it is. -/
inductive StoreEvent where
  | perform (op : StoreOp)
  | reboot

namespace PairingStore

def after (s : PairingStore) : StoreEvent → PairingStore
  | .perform op => (s.perform op).2
  | .reboot => fresh s.config s.has_backend s.backend

def afterAll (s : PairingStore) (events : List StoreEvent) : PairingStore := events.foldl after s

theorem afterAll_save (s : PairingStore) (record : PairRecord) :
    s.afterAll [.perform (.savePair record)] = (s.savePair record).2 := rfl

/-- Under a key of a pair record stands, if anything, a record that was saved under it. -/
structure HoldsSaved (saved : PairRecord → Prop) (key : BlobKey) (s : PairingStore) : Prop where
  sound : s.CacheSound
  blobs : ∀ blob, s.backend.blobs key = some blob → ∃ record, saved record ∧ blob = pairBlob record

variable {saved : PairRecord → Prop} {key : BlobKey} {s : PairingStore}

/-- An access keeps what stands under the key, unless it puts something else there. -/
theorem HoldsSaved.blobStep (h : HoldsSaved saved key s) (c : BlobCall)
    (hput : ∀ data, c = .put key data → ∃ record, saved record ∧ data = pairBlob record) :
    HoldsSaved saved key (blobStep c s).2 := by
  by_cases hkey : key = c.key
  · cases c with
    | get k =>
      have hframe := (getBlobCached_frame s k).1
      refine ⟨hframe.sound h.sound, fun blob hblob => h.blobs blob ?_⟩
      exact (hframe.blobs (Set.notMem_empty key)).symm.trans hblob
    | put k data =>
      obtain rfl : key = k := hkey
      refine ⟨(putBlobIfChanged_frame s key data).1.sound h.sound, fun blob hblob => ?_⟩
      rcases s.putBlobIfChanged_blobs key data with hsame | hdata
      · exact h.blobs blob ((congrFun hsame key).symm.trans hblob)
      · obtain ⟨record, hrecord, rfl⟩ := hput data rfl
        change (s.putBlobIfChanged key (pairBlob record)).2.backend.blobs key = some blob at hblob
        rw [hdata, Function.update_self] at hblob
        exact ⟨record, hrecord, (Option.some.inj hblob).symm⟩
    | erase k =>
      obtain rfl : key = k := hkey
      refine ⟨(eraseBlobIfExists_frame s key).sound h.sound, fun blob hblob => ?_⟩
      rcases s.eraseBlobIfExists_blobs key with hsame | herased
      · exact h.blobs blob ((congrFun hsame key).symm.trans hblob)
      · change (s.eraseBlobIfExists key).2.backend.blobs key = some blob at hblob
        rw [herased, Function.update_self] at hblob
        cases hblob
  · have huntouched := Untouched.blobStep c s hkey
    refine ⟨?_, fun blob hblob => h.blobs blob (huntouched.blobs.symm.trans hblob)⟩
    cases c with
    | get k => exact (getBlobCached_frame s k).1.sound h.sound
    | put k data => exact (putBlobIfChanged_frame s k data).1.sound h.sound
    | erase k => exact (eraseBlobIfExists_frame s k).sound h.sound

/-- Only `savePair` puts anything under the key of a pair record. -/
theorem ofOp_calls (s : PairingStore) (op : StoreOp) {key : BlobKey} (hkind : key.kind = 'p') :
    (StoreProgram.ofOp s op).Calls fun c => ∀ data, c = .put key data →
      ∃ record, op = .savePair record ∧
        s.makeKey .Pair record.local_mac record.peer_mac = key ∧ data = pairBlob record := by
  have hindex (localMac : MacAddress) (Q : Bytes → Prop) (c : BlobCall)
      (hc : c.key = s.pairIndexKey localMac) (data : Bytes) (hput : c = .put key data) : Q data := by
    subst hput
    rw [show key = s.pairIndexKey localMac from hc] at hkind
    simp [PairingStore.pairIndexKey, makeLocalMetaKey, blobKey] at hkind
  have hseq (localMac : MacAddress) (Q : Bytes → Prop) (c : BlobCall)
      (hc : c.key = s.pairSeqCounterKey localMac) (data : Bytes) (hput : c = .put key data) :
      Q data := by
    subst hput
    rw [show key = s.pairSeqCounterKey localMac from hc] at hkind
    simp [PairingStore.pairSeqCounterKey, makeLocalMetaKey, blobKey] at hkind
  have hletter (k : BlobKey) (data : Bytes) (Q : Bytes → Prop) (hk : k.kind ≠ 'p') :
      ∀ data', BlobCall.put k data = .put key data' → Q data' := by
    intro data' hput
    simp only [BlobCall.put.injEq] at hput
    exact absurd (hput.1 ▸ hkind) hk
  cases op with
  | savePair record =>
    refine .bind (StoreProgram.savePair_calls ?_ (hindex _ _) (hseq _ _)) fun _ => .pure _
    intro data hput
    simp only [BlobCall.put.injEq] at hput
    exact ⟨record, rfl, hput.1, hput.2.symm⟩
  | loadPair localMac peer =>
    exact .bind (StoreProgram.load_calls s (by simp)) fun _ => .pure _
  | erasePair localMac peer =>
    exact .bind (StoreProgram.erasePair_calls (by simp) (hindex _ _)) fun _ => .pure _
  | saveChannel localMac peer channel =>
    exact .bind (StoreProgram.put_calls s (hletter _ _ _ (by simp [PairingStore.makeKey, blobKey])))
      fun _ => .pure _
  | loadChannel localMac peer =>
    exact .bind (StoreProgram.load_calls s (by simp)) fun _ => .pure _
  | eraseChannel localMac peer =>
    exact .bind (StoreProgram.erase_calls s (by simp)) fun _ => .pure _
  | saveMetaBlob localMac peer slot data =>
    exact .bind (StoreProgram.put_calls s
      (hletter _ _ _ (by simp [PairingStore.makeMetaKey, blobKey]))) fun _ => .pure _
  | loadMetaBlob localMac peer slot =>
    exact .bind (StoreProgram.load_calls s (by simp)) fun _ => .pure _
  | eraseMetaBlob localMac peer slot =>
    exact .bind (StoreProgram.erase_calls s (by simp)) fun _ => .pure _
  | savePairIndex localMac entries =>
    exact .bind (StoreProgram.savePairIndex_calls (hindex _ _) _) fun _ => .pure _
  | loadPairIndex localMac =>
    exact .bind (StoreProgram.load_calls s (by simp)) fun _ => .pure _
  | upsertPairIndexEntry localMac peer pair_seq =>
    exact .bind (StoreProgram.upsertPairIndexEntry_calls (hindex _ _) _ _) fun _ => .pure _
  | removePairIndexEntry localMac peer =>
    exact .bind (StoreProgram.removePairIndexEntry_calls (hindex _ _) _) fun _ => .pure _
  | savePairSeqCounter localMac counter =>
    exact .bind (StoreProgram.put_calls s (hseq _ _ _ rfl)) fun _ => .pure _
  | loadPairSeqCounter localMac =>
    exact .bind (StoreProgram.load_calls s (by simp)) fun _ => .pure _
  | clearPairSeqCounter localMac =>
    exact .bind (StoreProgram.erase_calls s (by simp)) fun _ => .pure _

theorem after_keys (s : PairingStore) (event : StoreEvent) : SameKeys s (s.after event) := by
  cases event with
  | perform op => exact perform_keys (.refl s) op
  | reboot => exact ⟨rfl, rfl⟩

/-- The record is saved by one of the events, under the key with this hash. -/
def SavedAs (version : UInt8) (events : List StoreEvent) (hash : UInt32) (record : PairRecord) : Prop :=
  .perform (.savePair record) ∈ events ∧
    keyHash version .Pair record.local_mac record.peer_mac 0 = hash

variable {localMac peer : MacAddress} {version : UInt8} {events : List StoreEvent}

theorem HoldsSaved.after {event : StoreEvent} (hversion : s.config.schema_version = version)
    (hkind : key.kind = 'p') (hevent : event ∈ events)
    (hs : HoldsSaved (SavedAs version events key.hash) key s) :
    HoldsSaved (SavedAs version events key.hash) key (s.after event) := by
  subst hversion
  cases event with
  | perform op =>
    change HoldsSaved _ _ (s.perform op).2
    rw [← ofOp_run (.refl s)]
    refine (ofOp_calls s op hkind).run_invariant (fun c t hc ht => ?_) hs
    refine ht.blobStep c fun data hput => ?_
    obtain ⟨record, rfl, hat, hdata⟩ := hc data hput
    exact ⟨record, ⟨hevent, congrArg BlobKey.hash hat⟩, hdata⟩
  | reboot =>
    refine ⟨fun k e he => ?_, hs.blobs⟩
    rw [show (s.after .reboot).blob_cache = ∅ from rfl, AList.lookup_empty] at he
    cases he

theorem HoldsSaved.afterAll (hversion : s.config.schema_version = version) (hkind : key.kind = 'p')
    (done : List StoreEvent) (hdone : ∀ event ∈ done, event ∈ events)
    (hs : HoldsSaved (SavedAs version events key.hash) key s) :
    HoldsSaved (SavedAs version events key.hash) key (s.afterAll done) := by
  induction done generalizing s with
  | nil => exact hs
  | cons event done ih =>
    have hkeys := (after_keys s event).config
    have hstep := hs.after hversion hkind (hdone event List.mem_cons_self)
    have hrest : ∀ e ∈ done, e ∈ events := fun e he => hdone e (List.mem_cons_of_mem _ he)
    rw [← hkeys] at hversion
    exact ih hversion hrest hstep

theorem afterAll_keys (s : PairingStore) (events : List StoreEvent) : SameKeys s (s.afterAll events) := by
  induction events generalizing s with
  | nil => exact .refl s
  | cons event events ih =>
    have hfirst := after_keys s event
    have hrest := ih (s.after event)
    exact ⟨hrest.config.trans hfirst.config, hrest.has_backend.trans hfirst.has_backend⟩

/-- A record that is loaded was saved, under the key it is loaded from. -/
theorem loadPair_saved (config : PersistenceConfig) (has_backend : Bool) (fate : Nat → Bool)
    (events : List StoreEvent) {record : PairRecord}
    (hload : (((fresh config has_backend ⟨fun _ => none, fate, 0⟩).afterAll events).loadPair
      localMac peer).1 = some record) :
    SavedAs config.schema_version events (keyHash config.schema_version .Pair localMac peer 0)
      record := by
  generalize hs : fresh config has_backend ⟨fun _ => none, fate, 0⟩ = s at hload
  have hversion : s.config.schema_version = config.schema_version := hs ▸ rfl
  obtain ⟨key, hkey⟩ : ∃ key, s.makeKey .Pair localMac peer = key := ⟨_, rfl⟩
  have hkind : key.kind = 'p' := hkey ▸ rfl
  have hhash : key.hash = keyHash config.schema_version .Pair localMac peer 0 := by
    rw [← hkey, ← hversion]
    rfl
  have hstart : HoldsSaved (SavedAs config.schema_version events key.hash) key s := by
    subst hs
    refine ⟨fun k e he => ?_, fun blob hblob => by cases hblob⟩
    rw [show (fresh config has_backend ⟨fun _ => none, fate, 0⟩).blob_cache = ∅ from rfl,
      AList.lookup_empty] at he
    cases he
  have hend := hstart.afterAll hversion hkind events fun _ he => he
  have hat : (s.afterAll events).makeKey .Pair localMac peer = key :=
    ((afterAll_keys s events).makeKey _ _ _).trans hkey
  unfold PairingStore.loadPair at hload
  split at hload
  · cases hload
  · rw [hat] at hload
    obtain ⟨blob, hblob, hparsed⟩ := Option.bind_eq_some_iff.mp hload
    have hbackend := (getBlobCached_frame (s.afterAll events) key).2 hend.sound blob hblob
    obtain ⟨saved, hsaved, rfl⟩ := hend.blobs blob hbackend
    rw [pairOfBlob_pairBlob] at hparsed
    rw [← Option.some.inj hparsed, ← hhash]
    exact hsaved

/-- In every run in which only the records of these links are saved, from an empty backend, the
load of one link gives only a record that was saved for it. -/
def LoadsOwnPairs (version : UInt8) (links : Set (MacAddress × MacAddress))
    (localMac peer : MacAddress) : Prop :=
  ∀ config has_backend fate events, config.schema_version = version →
    (∀ record, .perform (.savePair record) ∈ events → (record.local_mac, record.peer_mac) ∈ links) →
    ∀ record, (((fresh config has_backend ⟨fun _ => none, fate, 0⟩).afterAll events).loadPair
        localMac peer).1 = some record →
      .perform (.savePair record) ∈ events ∧ record.local_mac = localMac ∧ record.peer_mac = peer

/-- A save on an empty store that works is loaded from its key. -/
theorem working_saves (version : UInt8) (record : PairRecord)
    (h : keyHash version .Pair record.local_mac record.peer_mac 0 =
      keyHash version .Pair localMac peer 0) :
    (((working version fun _ => none).savePair record).2.loadPair localMac peer).1 = some record := by
  have hworks := working_works version fun _ => none
  have hkeys : (working version fun _ => none).makeKey .Pair record.local_mac record.peer_mac =
      (working version fun _ => none).makeKey .Pair localMac peer := congrArg (BlobKey.mk 'p') h
  have hput (key : BlobKey) := working_puts version (fun _ => none) key
    (show pairBlob record ≠ [] by simp [pairBlob])
  generalize working version (fun _ => none) = s at *
  obtain ⟨key, hkey⟩ : ∃ key, s.makeKey .Pair localMac peer = key := ⟨_, rfl⟩
  have hsaved : KnownAs key (some (pairBlob record)) (s.savePair record).2 := by
    have hput := hput key
    unfold PairingStore.savePair
    rw [hworks.1, hkeys, hkey]
    cases hp : s.putBlobIfChanged key (pairBlob record) with
    | mk ok t =>
      rw [hp] at hput
      subst hkey
      cases ok with
      | false => exact hput
      | true =>
        exact hput.untouched (indexPair_untouched t (pairKey_ne_index t _ _) (pairKey_ne_seq t _ _))
  have hworks' : (s.savePair record).2.Works := hworks.perform (.savePair record)
  have hat : (s.savePair record).2.makeKey .Pair localMac peer = key :=
    (SameKeys.makeKey (perform_keys (.refl s) (.savePair record)) _ _ _).trans hkey
  rw [PairingStore.loadPair, hworks'.1, hat]
  simp [hsaved.loads hworks', pairOfBlob_pairBlob]

end PairingStore

/-- What is done for one peer leaves the reads of another as they are exactly when no two of their
keys share the 24 bits of hash; a load gives only records of its own link exactly when no other link
whose records are saved shares its key. -/
theorem peer_records_apart_iff (version : UInt8) (localMac peer other : MacAddress)
    (links : Set (MacAddress × MacAddress)) :
    (PairingStore.KeepsReads version localMac peer other ↔ KeysApart version localMac peer other) ∧
    (PairingStore.LoadsOwnPairs version links localMac peer ↔
      ∀ link ∈ links, link ≠ (localMac, peer) →
        keyHash version .Pair link.1 link.2 0 ≠ keyHash version .Pair localMac peer 0) := by
  refine ⟨⟨PairingStore.apart_of_keepsReads, PairingStore.keepsReads_of_apart⟩, ?_, ?_⟩
  · intro h link hlink hother hcollide
    let record : PairRecord := ⟨true, 0, link.1, link.2, Vector.replicate 16 0, 0⟩
    have hload := PairingStore.working_saves version record hcollide
    rw [← PairingStore.afterAll_save] at hload
    obtain ⟨-, hlocal, hpeer⟩ := h ⟨true, version⟩ true (fun _ => true)
      [.perform (.savePair record)] rfl (by simp [record, hlink]) record hload
    exact hother (Prod.ext hlocal hpeer)
  · intro h config has_backend fate events hversion hlinks record hload
    subst hversion
    obtain ⟨hsaved, hhash⟩ := PairingStore.loadPair_saved config has_backend fate events hload
    by_cases hown : (record.local_mac, record.peer_mac) = (localMac, peer)
    · rw [Prod.mk.injEq] at hown
      exact ⟨hsaved, hown⟩
    · exact absurd hhash (h _ (hlinks record hsaved) hown)

/-- Two peers of one vendor: the record of the second is loaded for the first, and its erase takes
the record of the first away. -/
theorem colliding_peers :
    let localMac : MacAddress := ⟨#[2, 0, 0, 0, 0, 1], rfl⟩
    let peer : MacAddress := ⟨#[0x24, 0x6F, 0x28, 0x27, 0x86, 0xCD], rfl⟩
    let other : MacAddress := ⟨#[0x24, 0x6F, 0x28, 0x40, 0x00, 0x00], rfl⟩
    let record (mac : MacAddress) : PairRecord := ⟨true, 1, localMac, mac, Vector.replicate 16 7, 6⟩
    let s := PairingStore.working 1 fun _ => none
    peer ≠ other ∧
    ((s.savePair (record other)).2.loadPair localMac peer).1 = some (record other) ∧
    ((s.savePair (record peer)).2.loadPair localMac peer).1 = some (record peer) ∧
    (((s.savePair (record peer)).2.erasePair localMac other).2.loadPair localMac peer).1 = none := by
  decide +kernel

end EspNowLink
