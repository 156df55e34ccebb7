import EspNowLink.Platform.WriteOutcomes

namespace EspNowLink

open Framework

@[simp] theorem pairIndexEntryBlob_length (e : PairIndexEntry) :
    (pairIndexEntryBlob e).length = kPairIndexEntryBytes := by
  simp [pairIndexEntryBlob, kPairIndexEntryBytes]

/-- An entry is read back from where it was written. -/
theorem pairIndexEntryAt_append (pre post : Bytes) (e : PairIndexEntry) :
    pairIndexEntryAt (pre ++ pairIndexEntryBlob e ++ post) pre.length = e := by
  obtain ⟨peer, seq, valid⟩ := e
  have hpeer : bytesAt (pre ++ pairIndexEntryBlob ⟨peer, seq, valid⟩ ++ post) pre.length 6 = peer := by
    have h := bytesAt_append pre (le32 seq ++ [if valid then 1 else 0] ++ post) peer
    simpa [pairIndexEntryBlob] using h
  have hafter (k : Nat) :
      (pre ++ pairIndexEntryBlob ⟨peer, seq, valid⟩ ++ post).getD (pre.length + 6 + k) 0 =
        (le32 seq ++ [if valid then 1 else 0] ++ post).getD k 0 := by
    have hsplit : pre ++ pairIndexEntryBlob ⟨peer, seq, valid⟩ ++ post =
        (pre ++ peer.toList) ++ (le32 seq ++ [if valid then 1 else 0] ++ post) := by
      simp [pairIndexEntryBlob]
    have hat : pre.length + 6 + k = (pre ++ peer.toList).length + k := by simp
    rw [hsplit, hat, List.getD_eq_getElem?_getD, List.getElem?_append_right (Nat.le_add_right _ _),
      Nat.add_sub_cancel_left, ← List.getD_eq_getElem?_getD]
  have hseq : readLe32At (pre ++ pairIndexEntryBlob ⟨peer, seq, valid⟩ ++ post) (pre.length + 6) =
      seq := by
    unfold readLe32At
    rw [hafter 1, hafter 2, hafter 3, show pre.length + 6 = pre.length + 6 + 0 from rfl, hafter 0]
    exact readLe32_le32 seq
  have hvalid := hafter 4
  unfold pairIndexEntryAt
  rw [hpeer, hseq, show pre.length + 10 = pre.length + 6 + 4 from rfl, hvalid]
  cases valid <;> rfl

theorem flatMap_entries_length (xs : List PairIndexEntry) :
    (xs.flatMap pairIndexEntryBlob).length = xs.length * kPairIndexEntryBytes := by
  induction xs with
  | nil => simp
  | cons x xs ih =>
    rw [List.flatMap_cons, List.length_append, ih, pairIndexEntryBlob_length, List.length_cons,
      Nat.succ_mul, Nat.add_comm]

theorem map_entryAt_flatMap (pre : Bytes) (xs : List PairIndexEntry) :
    ((List.range xs.length).map fun i =>
      pairIndexEntryAt (pre ++ xs.flatMap pairIndexEntryBlob)
        (pre.length + i * kPairIndexEntryBytes)) = xs := by
  induction xs generalizing pre with
  | nil => rfl
  | cons x xs ih =>
    rw [List.length_cons, List.range_succ_eq_map, List.map_cons, List.map_map]
    have hhead : pairIndexEntryAt (pre ++ (x :: xs).flatMap pairIndexEntryBlob)
        (pre.length + 0 * kPairIndexEntryBytes) = x := by
      rw [List.flatMap_cons, ← List.append_assoc, Nat.zero_mul, Nat.add_zero]
      exact pairIndexEntryAt_append pre _ x
    have htail : ((List.range xs.length).map ((fun i => pairIndexEntryAt
        (pre ++ (x :: xs).flatMap pairIndexEntryBlob) (pre.length + i * kPairIndexEntryBytes)) ∘
          Nat.succ)) = xs := by
      have hrest := ih (pre ++ pairIndexEntryBlob x)
      rw [List.length_append, pairIndexEntryBlob_length] at hrest
      refine Eq.trans (List.map_congr_left fun i _ => ?_) hrest
      have hat : pre.length + (i + 1) * kPairIndexEntryBytes =
          pre.length + kPairIndexEntryBytes + i * kPairIndexEntryBytes := by
        rw [Nat.succ_mul]
        omega
      rw [Function.comp_apply, Nat.succ_eq_add_one, hat, List.flatMap_cons, List.append_assoc]
    rw [hhead, htail]

/-- The pair index is read back as it was saved. -/
theorem pairIndexOfBlob_pairIndexBlob (xs : List PairIndexEntry) (h : xs.length ≤ 65535) :
    pairIndexOfBlob (pairIndexBlob xs) = some xs := by
  have hlen : (pairIndexBlob xs).length = kPairIndexHeaderBytes + xs.length * kPairIndexEntryBytes := by
    unfold pairIndexBlob
    rw [List.length_append, flatMap_entries_length]
    rfl
  have hcount : (readLe16 ((pairIndexBlob xs).getD 2 0) ((pairIndexBlob xs).getD 3 0)).toNat =
      xs.length := by
    have hread : readLe16 ((pairIndexBlob xs).getD 2 0) ((pairIndexBlob xs).getD 3 0) =
        xs.length.toUInt16 := readLe16_le16 _
    rw [hread]
    exact UInt16.toNat_ofNat_of_lt' (by change xs.length < 65536; omega)
  have hentries := map_entryAt_flatMap ([kPairIndexSchemaVersion, 0] ++ le16 xs.length.toUInt16) xs
  unfold pairIndexOfBlob
  rw [if_neg (by rw [hlen]; omega), if_neg (by simp [pairIndexBlob, List.getD_eq_getElem?_getD])]
  dsimp only
  rw [hcount, if_neg (by rw [hlen]; simp)]
  exact congrArg some hentries

namespace PairingStore

/-- The pair record that the backend holds for a peer. -/
def storedPair (s : PairingStore) (localMac peer : MacAddress) : Option PairRecord :=
  (s.backend.blobs (s.makeKey .Pair localMac peer)).bind pairOfBlob

/-- The entries of the pair index that the backend holds. -/
def storedIndex (s : PairingStore) (localMac : MacAddress) : List PairIndexEntry :=
  ((s.backend.blobs (s.pairIndexKey localMac)).bind pairIndexOfBlob).getD []

section Effects

variable {s t : PairingStore}

theorem getBlobCached_blobs (s : PairingStore) (key : BlobKey) :
    (s.getBlobCached key).2.backend.blobs = s.backend.blobs :=
  funext fun _ => (s.getBlobCached_frame key).1.blobs (Set.notMem_empty _)

theorem loadPairIndex_blobs (s : PairingStore) (localMac : MacAddress) :
    (s.loadPairIndex localMac).2.backend.blobs = s.backend.blobs :=
  funext fun _ => (s.loadPairIndex_frame localMac).blobs (Set.notMem_empty _)

/-- A write through the cache that the backend refuses leaves its blobs as they were. -/
theorem writeThrough_refused {key : BlobKey} {value : Option Bytes}
    (h : s.backend.fate s.backend.calls ≠ true) :
    (s.writeThrough key value).2.backend.blobs = s.backend.blobs := by
  rw [(s.writeThrough_blobs key value).2, if_neg h]

/-- An access changes no blob when the backend refuses what it writes. -/
theorem blobStep_refused (c : BlobCall) (s : PairingStore) (h : ∀ ok ∈ writeFate c s, ok = false) :
    (blobStep c s).2.backend.blobs = s.backend.blobs := by
  have hfate : writesBackend c s = true →
      s.backend.fate (s.backend.calls + (readsBackend c s).toNat) ≠ true := by
    intro hwrites
    unfold writeFate at h
    rw [if_pos hwrites] at h
    simp [h _ (List.mem_singleton_self _)]
  cases c with
  | get key => exact s.getBlobCached_blobs key
  | put key data =>
    change (s.putBlobIfChanged key data).2.backend.blobs = _
    by_cases hon : s.enabled = true ∧ data.isEmpty = false
    · obtain ⟨hon, hdata⟩ := hon
      have hwrites : writesBackend (.put key data) s = (s.blobToReplace key != some data) := by
        simp [writesBackend, hon, hdata]
      rw [hwrites] at hfate
      unfold putBlobIfChanged
      rw [if_neg (by simp [hon, hdata])]
      cases hc : (s.cachedBlob key).filter (·.existing) with
      | some e =>
        have hreplace : s.blobToReplace key = some e.value := by rw [blobToReplace, hc]
        have hreads : readsBackend (.put key data) s = false := by simp [readsBackend, hc]
        rw [hreplace, hreads] at hfate
        dsimp only
        split
        · rfl
        · rename_i hdiffers
          rw [storeBlob_eq]
          exact writeThrough_refused (s := s.markBlobCacheEntryUsed key e)
            (hfate (by simpa using hdiffers))
      | none =>
        have hreplace : s.blobToReplace key = (s.backend.getBlob key).1 := by rw [blobToReplace, hc]
        have hreads : readsBackend (.put key data) s = true := by simp [readsBackend, hon, hdata, hc]
        rw [hreplace, hreads] at hfate
        dsimp only
        split
        · rfl
        · rename_i hdiffers
          rw [storeBlob_eq]
          exact writeThrough_refused (s := ({ s with backend := (s.backend.getBlob key).2 }).rememberBlob
            key (s.backend.getBlob key).1) (hfate (by simpa using hdiffers))
    · unfold putBlobIfChanged
      rw [if_pos]
      simp only [Bool.or_eq_true, Bool.not_eq_true']
      by_contra hno
      push Not at hno
      exact hon ⟨by simpa using hno.1, by simpa using hno.2⟩
  | erase key =>
    change (s.eraseBlobIfExists key).2.backend.blobs = _
    unfold eraseBlobIfExists
    split
    · rfl
    rename_i hon
    have hwrites : writesBackend (.erase key) s = (s.blobToErase key).isSome := by
      simp_all [writesBackend]
    rw [hwrites] at hfate
    cases hc : s.cachedBlob key with
    | some e =>
      have herase : s.blobToErase key = e.content := by rw [blobToErase, hc]
      have hreads : readsBackend (.erase key) s = false := by simp [readsBackend, hc]
      rw [herase, hreads] at hfate
      dsimp only
      split
      · rename_i hexisting
        rw [eraseKnownBlob_eq]
        exact writeThrough_refused (hfate (by simp [BlobCacheEntry.content, hexisting]))
      · rfl
    | none =>
      have herase : s.blobToErase key = (s.backend.getBlob key).1 := by rw [blobToErase, hc]
      have hreads : readsBackend (.erase key) s = true := by simp_all [readsBackend]
      rw [herase, hreads] at hfate
      dsimp only
      split
      · rfl
      · rename_i hfound
        rw [eraseKnownBlob_eq]
        exact writeThrough_refused (s := { s with backend := (s.backend.getBlob key).2 })
          (hfate (by simpa [Option.isSome_iff_ne_none] using hfound))

/-- What a read of the index returns is what the backend holds. -/
theorem loadPairIndex_stored (hs : s.CacheSound) {localMac : MacAddress} {xs : List PairIndexEntry}
    (h : (s.loadPairIndex localMac).1 = some xs) : s.storedIndex localMac = xs := by
  unfold loadPairIndex at h
  split at h
  · cases h
  · obtain ⟨blob, hblob, hparse⟩ := Option.bind_eq_some_iff.mp h
    unfold storedIndex
    rw [(s.getBlobCached_frame _).2 hs blob hblob, Option.bind_some, hparse, Option.getD_some]

theorem storedIndex_congr (hconfig : t.config = s.config) (hblobs : t.backend.blobs = s.backend.blobs)
    (localMac : MacAddress) : t.storedIndex localMac = s.storedIndex localMac := by
  simp only [storedIndex, pairIndexKey, makeLocalMetaKey, hconfig, hblobs]

theorem storedPair_congr (hconfig : t.config = s.config) (hblobs : t.backend.blobs = s.backend.blobs)
    (localMac peer : MacAddress) : t.storedPair localMac peer = s.storedPair localMac peer := by
  simp only [storedPair, makeKey, hconfig, hblobs]

/-- Saving the index leaves the old one or the new one. -/
theorem savePairIndex_stored (s : PairingStore) (localMac : MacAddress) (xs : List PairIndexEntry) :
    (s.savePairIndex localMac xs).2.storedIndex localMac = s.storedIndex localMac ∨
      (s.savePairIndex localMac xs).2.storedIndex localMac = xs := by
  have hconfig := (s.savePairIndex_frame localMac xs).config
  have hkey := (s.savePairIndex_frame localMac xs).pairIndexKey localMac
  have hnew {value : Option Bytes} (hblobs : (s.savePairIndex localMac xs).2.backend.blobs =
      Function.update s.backend.blobs (s.pairIndexKey localMac) value)
      (hvalue : (value.bind pairIndexOfBlob).getD [] = xs) :
      (s.savePairIndex localMac xs).2.storedIndex localMac = xs := by
    unfold storedIndex
    rw [hkey, hblobs, Function.update_self, hvalue]
  have hold (hblobs : (s.savePairIndex localMac xs).2.backend.blobs = s.backend.blobs) :=
    storedIndex_congr hconfig hblobs localMac
  unfold savePairIndex at hnew hold ⊢
  split
  · exact .inl rfl
  rename_i hon
  simp only [hon, if_false, Bool.false_eq_true] at hnew hold
  split
  · rename_i hempty
    simp only [hempty, if_true] at hnew hold
    rcases s.eraseBlobIfExists_blobs (s.pairIndexKey localMac) with hsame | herased
    · exact .inl (hold hsame)
    · exact .inr (hnew herased (List.isEmpty_iff.mp hempty).symm)
  rename_i hempty
  simp only [hempty, if_false, Bool.false_eq_true] at hnew hold
  split
  · exact .inl rfl
  rename_i hfits
  simp only [hfits, if_false] at hnew hold
  rcases s.putBlobIfChanged_blobs (s.pairIndexKey localMac) (pairIndexBlob xs) with hsame | hput
  · exact .inl (hold hsame)
  · refine .inr (hnew hput ?_)
    rw [Option.bind_some, pairIndexOfBlob_pairIndexBlob xs (by omega), Option.getD_some]

/-- Taking a peer out of the index takes out its entries or leaves them all. -/
theorem removePairIndexEntry_stored (hs : s.CacheSound) (localMac peer : MacAddress) :
    (s.removePairIndexEntry localMac peer).2.storedIndex localMac = s.storedIndex localMac ∨
      (s.removePairIndexEntry localMac peer).2.storedIndex localMac =
        (s.storedIndex localMac).filter (·.peer_mac ≠ peer) := by
  have hconfig := (s.loadPairIndex_frame localMac).config
  have hblobs := s.loadPairIndex_blobs localMac
  have hloaded (xs : List PairIndexEntry) (h : (s.loadPairIndex localMac).1 = some xs) :=
    loadPairIndex_stored hs h
  unfold removePairIndexEntry
  split
  · exact .inl rfl
  generalize s.loadPairIndex localMac = answer at hconfig hblobs hloaded ⊢
  obtain ⟨loaded, t⟩ := answer
  have hsame := storedIndex_congr hconfig hblobs localMac
  cases loaded with
  | none => exact .inl hsame
  | some xs =>
    rcases t.savePairIndex_stored localMac (xs.filter (·.peer_mac ≠ peer)) with hkept | hfiltered
    · exact .inl (hkept.trans hsame)
    · rw [hloaded xs rfl]
      exact .inr hfiltered

end Effects

/-- `t` stores nothing of a peer, no record and no index entry, that `s` does not store. -/
structure NoNewPair (localMac peer : MacAddress) (s t : PairingStore) : Prop where
  config : t.config = s.config
  record : ∀ r, t.storedPair localMac peer = some r → s.storedPair localMac peer = some r
  index : ∀ x ∈ t.storedIndex localMac, x.peer_mac = peer → x ∈ s.storedIndex localMac

namespace NoNewPair

variable {localMac peer : MacAddress} {s t u : PairingStore}

protected theorem refl (s : PairingStore) : NoNewPair localMac peer s s :=
  ⟨rfl, fun _ => id, fun _ hx _ => hx⟩

protected theorem trans (hst : NoNewPair localMac peer s t) (htu : NoNewPair localMac peer t u) :
    NoNewPair localMac peer s u :=
  ⟨htu.config.trans hst.config, fun r hr => hst.record r (htu.record r hr),
    fun x hx hpeer => hst.index x (htu.index x hx hpeer) hpeer⟩

theorem of_blobs (hconfig : t.config = s.config) (hblobs : t.backend.blobs = s.backend.blobs) :
    NoNewPair localMac peer s t := by
  refine ⟨hconfig, fun r hr => ?_, fun x hx _ => ?_⟩
  · rwa [storedPair_congr hconfig hblobs] at hr
  · rwa [storedIndex_congr hconfig hblobs] at hx

/-- An operation that writes neither under the peer's key nor under the key of the index. -/
theorem of_frame {K : Set BlobKey} (h : StoreFrame K s t) (hpair : s.makeKey .Pair localMac peer ∉ K)
    (hindex : s.pairIndexKey localMac ∉ K) : NoNewPair localMac peer s t := by
  refine ⟨h.config, fun r hr => ?_, fun x hx _ => ?_⟩
  · unfold storedPair at hr ⊢
    rwa [h.makeKey, h.blobs hpair] at hr
  · unfold storedIndex at hx ⊢
    rwa [h.pairIndexKey, h.blobs hindex] at hx

theorem saveChannel (s : PairingStore) (other : MacAddress) (channel : UInt8) :
    NoNewPair localMac peer s (s.saveChannel localMac other channel).2 :=
  .of_frame (s.saveChannel_frame localMac other channel) (by simp [makeKey, blobKey])
    (by simp [makeKey, pairIndexKey, makeLocalMetaKey, blobKey])

theorem eraseChannel (s : PairingStore) (other : MacAddress) :
    NoNewPair localMac peer s (s.eraseChannel localMac other).2 :=
  .of_frame (s.eraseChannel_frame localMac other) (by simp [makeKey, blobKey])
    (by simp [makeKey, pairIndexKey, makeLocalMetaKey, blobKey])

theorem removePairIndexEntry (hs : s.CacheSound) (other : MacAddress) :
    NoNewPair localMac peer s (s.removePairIndexEntry localMac other).2 := by
  have hframe := s.removePairIndexEntry_frame localMac other
  have hkey : s.makeKey .Pair localMac peer ∉ ({s.pairIndexKey localMac} : Set BlobKey) := by
    simp [makeKey, pairIndexKey, makeLocalMetaKey, blobKey]
  refine ⟨hframe.config, fun r hr => ?_, fun x hx _ => ?_⟩
  · unfold storedPair at hr ⊢
    rwa [hframe.makeKey, hframe.blobs hkey] at hr
  · rcases removePairIndexEntry_stored hs localMac other with hsame | hfiltered
    · rwa [hsame] at hx
    · rw [hfiltered] at hx
      exact (List.mem_filter.mp hx).1

/-- Erasing a pair record can only take records away. -/
theorem eraseRecord (s : PairingStore) (other : MacAddress) :
    NoNewPair localMac peer s (s.eraseBlobIfExists (s.makeKey .Pair localMac other)).2 := by
  have hframe := s.eraseBlobIfExists_frame (s.makeKey .Pair localMac other)
  rcases s.eraseBlobIfExists_blobs (s.makeKey .Pair localMac other) with hsame | herased
  · exact .of_blobs hframe.config hsame
  · have hkey : s.pairIndexKey localMac ∉ ({s.makeKey .Pair localMac other} : Set BlobKey) := by
      simp [makeKey, pairIndexKey, makeLocalMetaKey, blobKey]
    refine ⟨hframe.config, fun r hr => ?_, fun x hx _ => ?_⟩
    · unfold storedPair at hr ⊢
      rw [hframe.makeKey, herased] at hr
      by_cases hsame : s.makeKey .Pair localMac peer = s.makeKey .Pair localMac other
      · rw [hsame, Function.update_self] at hr
        cases hr
      · rwa [Function.update_of_ne hsame] at hr
    · unfold storedIndex at hx ⊢
      rwa [hframe.pairIndexKey, hframe.blobs hkey] at hx

theorem erasePair (hs : s.CacheSound) (other : MacAddress) :
    NoNewPair localMac peer s (s.erasePair localMac other).2 := by
  unfold PairingStore.erasePair
  split
  · exact .refl s
  · have hsound := (s.eraseBlobIfExists_frame (s.makeKey .Pair localMac other)).sound hs
    exact (eraseRecord s other).trans (.removePairIndexEntry hsound other)

/-- What a pairing that ends erases of its peer. -/
theorem forgetPeer (hs : s.CacheSound) (other : MacAddress) :
    NoNewPair localMac peer s ((s.erasePair localMac other).2.eraseChannel localMac other).2 :=
  (NoNewPair.erasePair hs other).trans (.eraseChannel _ other)

end NoNewPair

section PairWrites

variable {s : PairingStore}

/-- How the backend answers the writes that `savePair` makes. -/
def pairWrites (s : PairingStore) (record : PairRecord) : List Bool :=
  (StoreProgram.savePair s record).trace blobStep writeFate s

/-- How the backend answers the write that `saveChannel` makes. -/
def channelWrites (s : PairingStore) (localMac peer : MacAddress) (channel : UInt8) : List Bool :=
  writeFate (.put (s.makeKey .Channel localMac peer) [channel]) s

/-- The index can take an entry of the peer. -/
def IndexRoom (s : PairingStore) (localMac peer : MacAddress) : Prop :=
  (upsertEntry peer 0 (s.storedIndex localMac)).length ≤ 65535

/-- A save none of whose writes takes effect changes nothing. -/
theorem savePair_refused (record : PairRecord) (h : ∀ ok ∈ s.pairWrites record, ok = false) :
    (s.savePair record).2.backend.blobs = s.backend.blobs := by
  have hstep (c : BlobCall) (t : PairingStore) (hfates : ∀ ok ∈ writeFate c t, ok = false)
      (ht : t.backend.blobs = s.backend.blobs) : (blobStep c t).2.backend.blobs = s.backend.blobs :=
    (blobStep_refused c t hfates).trans ht
  have hrun := Program.trace_invariant hstep _ h rfl
  rwa [savePair_run (.refl s)] at hrun

theorem upsertEntry_length (peer : MacAddress) (seq seq' : UInt32) (xs : List PairIndexEntry) :
    (upsertEntry peer seq xs).length = (upsertEntry peer seq' xs).length := by
  induction xs with
  | nil => rfl
  | cons x xs ih =>
    unfold upsertEntry
    split
    · rfl
    · simp only [List.length_cons, ih]

theorem upsertEntry_ne_nil (peer : MacAddress) (seq : UInt32) (xs : List PairIndexEntry) :
    upsertEntry peer seq xs ≠ [] := by
  cases xs with
  | nil => simp [upsertEntry]
  | cons x xs =>
    unfold upsertEntry
    split <;> simp

/-- A put succeeds when the write that it makes does. -/
theorem put_carried {t : PairingStore} {key : BlobKey} {data : Bytes} (hon : t.enabled = true)
    (hdata : data.isEmpty = false) (h : ∀ ok ∈ writeFate (.put key data) t, ok = true) :
    (t.putBlobIfChanged key data).1 = true := by
  refine (putBlobIfChanged_outcome key hon hdata).1.mpr fun hwrites => ?_
  unfold writeFate at h
  rw [if_pos hwrites] at h
  exact h _ (List.mem_singleton_self _)

variable {t : PairingStore} {localMac peer : MacAddress}

theorem load_trace {α : Type} (key : BlobKey) (parse : Bytes → Option α) :
    (StoreProgram.load s key parse).trace blobStep writeFate t = [] := by
  unfold StoreProgram.load
  rw [Program.trace_ite, Program.trace_bind]
  split
  · rfl
  · have hget : writeFate (.get key) t = [] := if_neg Bool.false_ne_true
    exact (List.append_nil _).trans ((Program.trace_ask _ t).trans hget)

theorem put_trace (hkeys : SameKeys s t) (hon : t.enabled = true) (key : BlobKey) (data : Bytes) :
    (StoreProgram.put s key data).trace blobStep writeFate t = writeFate (.put key data) t := by
  unfold StoreProgram.put
  rw [Program.trace_ite, if_neg (by rw [← hkeys.enabled, hon]; simp)]
  exact Program.trace_ask _ t

theorem IndexRoom.of_loaded (hroom : t.IndexRoom localMac peer) (hs : t.CacheSound) (seq : UInt32) :
    (upsertEntry peer seq ((t.loadPairIndex localMac).1.getD [])).length ≤ 65535 := by
  cases hloaded : (t.loadPairIndex localMac).1 with
  | none => simp [upsertEntry]
  | some xs =>
    unfold IndexRoom at hroom
    rwa [loadPairIndex_stored hs hloaded, upsertEntry_length peer 0 seq] at hroom

theorem upsertPairIndexEntry_carried (hkeys : SameKeys s t) (hon : t.enabled = true)
    (hs : t.CacheSound) (hroom : t.IndexRoom localMac peer) (seq : UInt32)
    (h : ∀ ok ∈ (StoreProgram.upsertPairIndexEntry s localMac peer seq).trace blobStep writeFate t,
      ok = true) : (t.upsertPairIndexEntry localMac peer seq).1 = true := by
  have hfits := hroom.of_loaded hs seq
  have hload := t.loadPairIndex_frame localMac
  unfold StoreProgram.upsertPairIndexEntry StoreProgram.loadPairIndex at h
  rw [Program.trace_bind, load_trace, List.nil_append, ← StoreProgram.loadPairIndex,
    loadPairIndex_run hkeys] at h
  unfold upsertPairIndexEntry
  rw [if_neg (by simp [hon])]
  generalize t.loadPairIndex localMac = answer at hfits hload h ⊢
  obtain ⟨loaded, u⟩ := answer
  dsimp only at hfits hload h ⊢
  have hukeys := hkeys.frame hload
  have huon : u.enabled = true := by rw [hload.enabled, hon]
  have hempty : ¬ (upsertEntry peer seq (loaded.getD [])).isEmpty = true := by
    simp [upsertEntry_ne_nil]
  unfold StoreProgram.savePairIndex at h
  rw [if_neg hempty, if_neg (by omega), put_trace hukeys huon, ← hukeys.pairIndexKey] at h
  unfold savePairIndex
  rw [if_neg (by simp [huon]), if_neg hempty, if_neg (by omega)]
  exact put_carried huon rfl h

theorem assignPairSeq_carried (hkeys : SameKeys s t) (hon : t.enabled = true)
    (h : ∀ ok ∈ (StoreProgram.assignPairSeq s localMac).trace blobStep writeFate t, ok = true) :
    ∃ seq, (t.assignPairSeq localMac).1 = some seq := by
  have hload := t.loadPairSeqCounter_frame localMac
  have hrun : (StoreProgram.load s (s.pairSeqCounterKey localMac) pairSeqOfBlob).run blobStep t =
      t.loadPairSeqCounter localMac := by
    rw [load_run hkeys, ← hkeys.pairSeqCounterKey]
    rfl
  unfold StoreProgram.assignPairSeq at h
  rw [Program.trace_bind, load_trace, List.nil_append, hrun] at h
  unfold assignPairSeq
  generalize t.loadPairSeqCounter localMac = answer at hload h ⊢
  obtain ⟨loaded, u⟩ := answer
  dsimp only at hload h ⊢
  have hukeys := hkeys.frame hload
  have huon : u.enabled = true := by rw [hload.enabled, hon]
  rw [Program.trace_bind, put_trace hukeys huon, ← hukeys.pairSeqCounterKey] at h
  have hsaved (next : UInt32) (hnext : ∀ ok ∈ writeFate (.put (u.pairSeqCounterKey localMac)
      (pairSeqBlob next)) u, ok = true) : (u.savePairSeqCounter localMac next).1 = true := by
    unfold savePairSeqCounter
    rw [if_neg (by simp [huon])]
    exact put_carried huon rfl hnext
  exact ⟨_, if_pos (hsaved _ (List.forall_mem_append.mp h).1)⟩

theorem indexPair_carried (hkeys : SameKeys s t) (hon : t.enabled = true) (hs : t.CacheSound)
    (hroom : t.IndexRoom localMac peer)
    (h : ∀ ok ∈ (StoreProgram.indexPair s localMac peer).trace blobStep writeFate t, ok = true) :
    (t.indexPair localMac peer).1 = true := by
  have hload := t.loadPairIndex_frame localMac
  have hroomLoaded : (t.loadPairIndex localMac).2.IndexRoom localMac peer := by
    unfold IndexRoom
    rwa [storedIndex_congr hload.config (t.loadPairIndex_blobs localMac)]
  unfold StoreProgram.indexPair StoreProgram.loadPairIndex at h
  rw [Program.trace_bind, load_trace, List.nil_append, ← StoreProgram.loadPairIndex,
    loadPairIndex_run hkeys] at h
  unfold indexPair
  generalize t.loadPairIndex localMac = answer at hload hroomLoaded h ⊢
  obtain ⟨index, u⟩ := answer
  dsimp only at hload hroomLoaded h ⊢
  have hukeys := hkeys.frame hload
  have huon : u.enabled = true := by rw [hload.enabled, hon]
  have husound := hload.sound hs
  cases hfind : (index.getD []).find? fun e => e.peer_mac = peer && e.valid && e.pair_seq != 0 with
  | some e =>
    rw [hfind] at h
    exact upsertPairIndexEntry_carried hukeys huon husound hroomLoaded e.pair_seq h
  | none =>
    rw [hfind] at h
    have hassign := u.assignPairSeq_frame localMac
    have hindex : (u.assignPairSeq localMac).2.storedIndex localMac = u.storedIndex localMac := by
      have hkey : u.pairIndexKey localMac ∉ ({u.pairSeqCounterKey localMac} : Set BlobKey) := by
        simp [pairIndexKey, pairSeqCounterKey, makeLocalMetaKey, blobKey]
      unfold storedIndex
      rw [hassign.pairIndexKey, hassign.blobs hkey]
    have hroomAssigned : (u.assignPairSeq localMac).2.IndexRoom localMac peer := by
      unfold IndexRoom
      rwa [hindex]
    dsimp only at h ⊢
    rw [Program.trace_bind, assignPairSeq_run hukeys] at h
    obtain ⟨hassigned, hrest⟩ := List.forall_mem_append.mp h
    obtain ⟨seq, hseq⟩ := assignPairSeq_carried hukeys huon hassigned
    generalize u.assignPairSeq localMac = answer at hassign hroomAssigned hrest hseq ⊢
    obtain ⟨assigned, v⟩ := answer
    dsimp only at hassign hroomAssigned hrest hseq ⊢
    subst hseq
    exact upsertPairIndexEntry_carried (hukeys.frame hassign) (by rw [hassign.enabled, huon])
      (hassign.sound husound) hroomAssigned seq hrest

/-- A save all of whose writes are carried out succeeds when the index has room. -/
theorem savePair_carried (record : PairRecord) (hon : s.enabled = true) (hs : s.CacheSound)
    (hroom : s.IndexRoom record.local_mac record.peer_mac)
    (h : ∀ ok ∈ s.pairWrites record, ok = true) : (s.savePair record).1 = true := by
  have hframe := (s.putBlobIfChanged_frame (s.makeKey .Pair record.local_mac record.peer_mac)
    (pairBlob record)).1
  unfold pairWrites StoreProgram.savePair at h
  rw [Program.trace_bind, put_trace (.refl s) hon, put_run (.refl s), if_neg (by simp [hon])] at h
  obtain ⟨hrecord, hrest⟩ := List.forall_mem_append.mp h
  have hput := put_carried hon rfl hrecord
  unfold savePair
  rw [if_neg (by simp [hon])]
  generalize s.putBlobIfChanged (s.makeKey .Pair record.local_mac record.peer_mac) (pairBlob record)
    = answer at hframe hrest hput ⊢
  obtain ⟨ok, t⟩ := answer
  dsimp only at hframe hrest hput ⊢
  subst hput
  have hroomSaved : t.IndexRoom record.local_mac record.peer_mac := by
    have hkey : s.pairIndexKey record.local_mac ∉
        ({s.makeKey .Pair record.local_mac record.peer_mac} : Set BlobKey) := by
      simp [makeKey, pairIndexKey, makeLocalMetaKey, blobKey]
    unfold IndexRoom storedIndex at hroom ⊢
    rwa [hframe.pairIndexKey, hframe.blobs hkey]
  exact indexPair_carried ((SameKeys.refl s).frame hframe) (by rw [hframe.enabled, hon])
    (hframe.sound hs) hroomSaved hrest

end PairWrites

end PairingStore

end EspNowLink
