import EspNowLink.Platform.Persistence

namespace EspNowLink

theorem bytesAt_append {n : Nat} (pre post : Bytes) (v : Vector UInt8 n) :
    bytesAt (pre ++ v.toList ++ post) pre.length n = v := by
  ext i hi
  have hget : (v.toList ++ post)[i]? = some v[i] := by
    rw [List.getElem?_append_left (by simpa using hi)]
    simp [hi]
  simp [bytesAt, List.getD_eq_getElem?_getD, List.getElem?_append_right, hget]

/-- A pair record is read back as it was saved. -/
theorem pairOfBlob_pairBlob (record : PairRecord) : pairOfBlob (pairBlob record) = some record := by
  obtain ⟨valid, role, loc, peer, lmk, channel⟩ := record
  have hlen : (pairBlob ⟨valid, role, loc, peer, lmk, channel⟩).length = 31 := by
    simp [pairBlob]
  have hloc : bytesAt (pairBlob ⟨valid, role, loc, peer, lmk, channel⟩) 1 6 = loc := by
    simpa [pairBlob] using bytesAt_append [role] (peer.toList ++ lmk.toList ++
      [channel, if valid then 1 else 0]) loc
  have hpeer : bytesAt (pairBlob ⟨valid, role, loc, peer, lmk, channel⟩) 7 6 = peer := by
    simpa [pairBlob] using bytesAt_append ([role] ++ loc.toList) (lmk.toList ++
      [channel, if valid then 1 else 0]) peer
  have hlmk : bytesAt (pairBlob ⟨valid, role, loc, peer, lmk, channel⟩) 13 16 = lmk := by
    simpa [pairBlob] using bytesAt_append ([role] ++ loc.toList ++ peer.toList)
      [channel, if valid then 1 else 0] lmk
  simp only [pairOfBlob, hlen, hloc, hpeer, hlmk]
  cases valid <;> simp [pairBlob, List.getD_eq_getElem?_getD]

namespace PairingStore

/-- What the cache says is stored is what the backend holds. -/
def CacheSound (s : PairingStore) : Prop :=
  ∀ key e, s.blob_cache.lookup key = some e → e.known = true → e.existing = true →
    s.backend.blobs key = some e.value

/-- `t` follows `s` and differs from it in the backend only under the keys of `K`. -/
structure StoreFrame (K : Set BlobKey) (s t : PairingStore) : Prop where
  config : t.config = s.config
  has_backend : t.has_backend = s.has_backend
  blobs : Set.EqOn t.backend.blobs s.backend.blobs (Set.compl K)
  sound : s.CacheSound → t.CacheSound

namespace StoreFrame

variable {K L : Set BlobKey} {s t u : PairingStore}

protected theorem refl (s : PairingStore) : StoreFrame K s s :=
  ⟨rfl, rfl, fun _ _ => rfl, id⟩

protected theorem trans (hst : StoreFrame K s t) (htu : StoreFrame K t u) : StoreFrame K s u :=
  ⟨htu.config.trans hst.config, htu.has_backend.trans hst.has_backend,
    fun _ hk => (htu.blobs hk).trans (hst.blobs hk), htu.sound ∘ hst.sound⟩

theorem mono (h : StoreFrame K s t) (hKL : K ⊆ L) : StoreFrame L s t :=
  ⟨h.config, h.has_backend, h.blobs.mono (Set.compl_subset_compl.mpr hKL), h.sound⟩

theorem enabled (h : StoreFrame K s t) : t.enabled = s.enabled := by
  simp [PairingStore.enabled, h.config, h.has_backend]

theorem makeKey (h : StoreFrame K s t) (kind : RecordKind) (localMac peer : MacAddress) :
    t.makeKey kind localMac peer = s.makeKey kind localMac peer := by
  simp [PairingStore.makeKey, h.config]

theorem makeMetaKey (h : StoreFrame K s t) (localMac peer : MacAddress) (slot : UInt8) :
    t.makeMetaKey localMac peer slot = s.makeMetaKey localMac peer slot := by
  simp [PairingStore.makeMetaKey, h.config]

end StoreFrame

theorem clearLastUsed_lookup (cache : BlobCache) (key : BlobKey) :
    (clearLastUsed cache).lookup key =
      (cache.lookup key).map fun e => { e with last_used := 0 } :=
  List.dlookup_map₂ key

/-- After a use mark an entry is the marked one or an old one, up to its `last_used`. -/
theorem markUsed_entry {s : PairingStore} {key k : BlobKey} {entry e : BlobCacheEntry}
    (h : (s.markBlobCacheEntryUsed key entry).blob_cache.lookup k = some e) :
    (k = key ∧ ∃ n, e = { entry with last_used := n }) ∨
      (k ≠ key ∧ ∃ old n, s.blob_cache.lookup k = some old ∧ e = { old with last_used := n }) := by
  by_cases hk : k = key
  · subst k
    simp only [markBlobCacheEntryUsed, AList.lookup_insert, Option.some.injEq] at h
    exact .inl ⟨rfl, _, h.symm⟩
  · simp only [markBlobCacheEntryUsed, AList.lookup_insert_ne hk] at h
    refine .inr ⟨hk, ?_⟩
    split at h
    · rw [clearLastUsed_lookup, Option.map_eq_some_iff] at h
      obtain ⟨old, hold, rfl⟩ := h
      exact ⟨old, 0, hold, rfl⟩
    · exact ⟨e, e.last_used, h, rfl⟩

@[simp] theorem markUsed_backend (s : PairingStore) (key : BlobKey) (entry : BlobCacheEntry) :
    (s.markBlobCacheEntryUsed key entry).backend = s.backend := rfl

@[simp] theorem markUsed_config (s : PairingStore) (key : BlobKey) (entry : BlobCacheEntry) :
    (s.markBlobCacheEntryUsed key entry).config = s.config := rfl

@[simp] theorem markUsed_has_backend (s : PairingStore) (key : BlobKey) (entry : BlobCacheEntry) :
    (s.markBlobCacheEntryUsed key entry).has_backend = s.has_backend := rfl

theorem evictLoop_lookup (preserve key : BlobKey) (n : Nat) (cache : BlobCache)
    {e : BlobCacheEntry} (h : (evictLoop preserve n cache).lookup key = some e) :
    cache.lookup key = some e := by
  induction n generalizing cache with
  | zero => exact h
  | succ n ih =>
    unfold evictLoop at h
    split at h
    · cases ho : oldestKey preserve cache.entries with
      | none => simpa [ho] using h
      | some old =>
        rw [ho] at h
        have he := ih _ h
        by_cases hk : key = old
        · subst old; simp at he
        · rwa [AList.lookup_erase_ne hk] at he
    · exact h

/-- Remembering what the backend holds under a key keeps the cache sound. -/
theorem rememberBlob_sound {s : PairingStore} {key : BlobKey} {value : Option Bytes}
    (hother : ∀ k e, k ≠ key → s.blob_cache.lookup k = some e → e.known = true →
      e.existing = true → s.backend.blobs k = some e.value)
    (hvalue : ∀ v, value = some v → s.backend.blobs key = some v) :
    (s.rememberBlob key value).CacheSound := by
  intro k e hk hknown hexisting
  have hk' := evictLoop_lookup _ _ _ _ hk
  have hb : (s.rememberBlob key value).backend = s.backend := by
    simp [rememberBlob, enforceBlobCacheLimit]
  rw [hb]
  rcases markUsed_entry hk' with ⟨rfl, n, rfl⟩ | ⟨hne, old, n, hold, rfl⟩
  · cases value with
    | none => simp at hexisting
    | some v => exact hvalue v rfl
  · exact hother k old hne hold hknown hexisting

theorem rememberBlob_frame {s : PairingStore} {key : BlobKey} {value : Option Bytes}
    (hvalue : ∀ v, value = some v → s.backend.blobs key = some v) :
    StoreFrame ∅ s (s.rememberBlob key value) where
  config := by simp [rememberBlob, enforceBlobCacheLimit]
  has_backend := by simp [rememberBlob, enforceBlobCacheLimit]
  blobs := fun _ _ => by simp [rememberBlob, enforceBlobCacheLimit]
  sound := fun hs => rememberBlob_sound (fun k e _ => hs k e) hvalue

theorem markUsed_frame {s : PairingStore} {key : BlobKey} {entry : BlobCacheEntry}
    (h : s.blob_cache.lookup key = some entry) :
    StoreFrame ∅ s (s.markBlobCacheEntryUsed key entry) where
  config := by simp
  has_backend := by simp
  blobs := fun _ _ => by simp
  sound := by
    intro hs k e hk hknown hexisting
    rw [markUsed_backend]
    rcases markUsed_entry hk with ⟨rfl, n, rfl⟩ | ⟨hne, old, n, hold, rfl⟩
    · exact hs k entry h hknown hexisting
    · exact hs k old hold hknown hexisting

theorem backend_frame {K : Set BlobKey} {s : PairingStore} {b : Backend}
    (h : b.blobs = s.backend.blobs) : StoreFrame K s { s with backend := b } where
  config := rfl
  has_backend := rfl
  blobs := fun _ _ => congrFun h _
  sound := by
    intro hs k e hk hknown hexisting
    change b.blobs k = _
    rw [h]
    exact hs k e hk hknown hexisting

/-- Writing one key and remembering it touches only that key. -/
private theorem write_frame {s : PairingStore} {b : Backend} {key : BlobKey} {value : Option Bytes}
    (h : b.blobs = Function.update s.backend.blobs key value) :
    StoreFrame {key} s (({ s with backend := b }).rememberBlob key value) where
  config := by simp [rememberBlob, enforceBlobCacheLimit]
  has_backend := by simp [rememberBlob, enforceBlobCacheLimit]
  blobs := by
    intro k hk
    have hne : k ≠ key := hk
    simp [rememberBlob, enforceBlobCacheLimit, h, Function.update_of_ne hne]
  sound := by
    intro hs
    refine rememberBlob_sound ?_ ?_
    · intro k e hne hk hknown hexisting
      change b.blobs k = _
      rw [h, Function.update_of_ne hne]
      exact hs k e hk hknown hexisting
    · intro v hv
      change b.blobs key = _
      rw [h, Function.update_self, hv]

theorem storeBlob_frame (s : PairingStore) (key : BlobKey) (data : Bytes) :
    StoreFrame {key} s (s.storeBlob key data).2 ∧
      ((s.storeBlob key data).1 = true →
        (s.storeBlob key data).2.backend.blobs key = some data) := by
  unfold storeBlob Backend.putBlob
  by_cases hf : s.backend.fate s.backend.calls = true
  · simp only [hf, if_true]
    refine ⟨write_frame rfl, fun _ => ?_⟩
    simp [rememberBlob, enforceBlobCacheLimit]
  · simp only [hf, if_false, Bool.false_eq_true]
    exact ⟨backend_frame rfl, by simp⟩

theorem cachedBlob_lookup {s : PairingStore} {key : BlobKey} {e : BlobCacheEntry}
    (h : s.cachedBlob key = some e) : s.blob_cache.lookup key = some e ∧ e.known = true := by
  simpa [cachedBlob, Option.filter_eq_some_iff] using h

private theorem readBlob_frame (s : PairingStore) (key : BlobKey) :
    StoreFrame ∅ s (({ s with backend := (s.backend.getBlob key).2 }).rememberBlob key
      (s.backend.getBlob key).1) := by
  refine (backend_frame (s := s) (b := (s.backend.getBlob key).2) rfl).trans
    (rememberBlob_frame ?_)
  intro v hv
  simp only [Backend.getBlob] at hv ⊢
  split at hv
  · exact hv
  · simp at hv

/-- `putBlobIfChanged` touches its own key only, and reports success only when the backend holds
the data. -/
theorem putBlobIfChanged_frame (s : PairingStore) (key : BlobKey) (data : Bytes) :
    StoreFrame {key} s (s.putBlobIfChanged key data).2 ∧
      (s.CacheSound → (s.putBlobIfChanged key data).1 = true →
        (s.putBlobIfChanged key data).2.backend.blobs key = some data) := by
  unfold putBlobIfChanged
  split
  · exact ⟨.refl s, by simp⟩
  · cases hc : (s.cachedBlob key).filter (·.existing) with
    | some entry =>
      obtain ⟨hcached, hexisting⟩ := Option.filter_eq_some_iff.mp hc
      obtain ⟨hlookup, hknown⟩ := cachedBlob_lookup hcached
      have hmark := (markUsed_frame hlookup).mono (Set.empty_subset {key})
      dsimp only
      split
      · refine ⟨hmark, fun hs _ => ?_⟩
        rw [markUsed_backend, hs key entry hlookup hknown hexisting]
        simp_all
      · obtain ⟨hframe, hput⟩ := storeBlob_frame (s.markBlobCacheEntryUsed key entry) key data
        exact ⟨hmark.trans hframe, fun _ => hput⟩
    | none =>
      have hread := (readBlob_frame s key).mono (Set.empty_subset {key})
      dsimp only
      split
      · rename_i hfound
        refine ⟨hread, fun _ _ => ?_⟩
        simp only [rememberBlob, enforceBlobCacheLimit, markUsed_backend, Backend.getBlob] at hfound ⊢
        split at hfound
        · exact hfound
        · simp at hfound
      · obtain ⟨hframe, hput⟩ := storeBlob_frame
          (({ s with backend := (s.backend.getBlob key).2 }).rememberBlob key
            (s.backend.getBlob key).1) key data
        exact ⟨hread.trans hframe, fun _ => hput⟩

/-- A cached read leaves the backend's blobs as they are and returns only what they hold. -/
theorem getBlobCached_frame (s : PairingStore) (key : BlobKey) :
    StoreFrame ∅ s (s.getBlobCached key).2 ∧
      (s.CacheSound → ∀ v, (s.getBlobCached key).1 = some v → s.backend.blobs key = some v) := by
  unfold getBlobCached
  split
  · exact ⟨.refl s, by simp⟩
  · cases hc : s.cachedBlob key with
    | some entry =>
      obtain ⟨hlookup, hknown⟩ := cachedBlob_lookup hc
      refine ⟨markUsed_frame hlookup, ?_⟩
      intro hs v hv
      cases he : entry.existing with
      | false => simp [he] at hv
      | true =>
        simp only [he, if_true, Option.some.injEq] at hv
        rw [hs key entry hlookup hknown he, hv]
    | none =>
      refine ⟨readBlob_frame s key, ?_⟩
      intro _ v hv
      simp only [Backend.getBlob] at hv
      split at hv
      · exact hv
      · simp at hv

private theorem eraseKnownBlob_frame (s : PairingStore) (key : BlobKey) :
    StoreFrame {key} s (s.eraseKnownBlob key).2 := by
  unfold eraseKnownBlob Backend.eraseKey
  by_cases hf : s.backend.fate s.backend.calls = true
  · simp only [hf, if_true]
    exact write_frame rfl
  · simp only [hf, if_false, Bool.false_eq_true]
    exact backend_frame rfl

theorem eraseBlobIfExists_frame (s : PairingStore) (key : BlobKey) :
    StoreFrame {key} s (s.eraseBlobIfExists key).2 := by
  unfold eraseBlobIfExists
  split
  · exact .refl s
  · cases hc : s.cachedBlob key with
    | some entry =>
      dsimp only
      split
      · exact eraseKnownBlob_frame s key
      · exact (markUsed_frame (cachedBlob_lookup hc).1).mono (Set.empty_subset _)
    | none =>
      have hget : StoreFrame ∅ s { s with backend := (s.backend.getBlob key).2 } :=
        backend_frame rfl
      dsimp only
      split
      · exact (hget.trans (rememberBlob_frame (by simp))).mono (Set.empty_subset _)
      · exact (hget.mono (Set.empty_subset _)).trans (eraseKnownBlob_frame _ key)

/-- The calls of `eraseBlobIfExists` that take a blob away: it is there, the cache does not deny it,
and the backend carries out the erase, after the read when the cache knows nothing. -/
def ErasesBlob (s : PairingStore) (key : BlobKey) : Prop :=
  s.enabled = true ∧ s.backend.blobs key ≠ none ∧
    match s.cachedBlob key with
    | some entry => entry.existing = true ∧ s.backend.fate s.backend.calls = true
    | none => s.backend.fate s.backend.calls = true ∧ s.backend.fate (s.backend.calls + 1) = true

@[simp] theorem rememberBlob_backend (s : PairingStore) (key : BlobKey) (value : Option Bytes) :
    (s.rememberBlob key value).backend = s.backend := rfl

private theorem eraseKnownBlob_blobs (s : PairingStore) (key : BlobKey) :
    (s.eraseKnownBlob key).2.backend.blobs key =
      if s.backend.fate s.backend.calls then none else s.backend.blobs key := by
  unfold eraseKnownBlob Backend.eraseKey
  by_cases hf : s.backend.fate s.backend.calls = true
  · simp [hf]
  · simp [hf]

theorem eraseBlobIfExists_same_iff (s : PairingStore) (key : BlobKey) :
    (s.eraseBlobIfExists key).2.backend.blobs key = s.backend.blobs key ↔ ¬ s.ErasesBlob key := by
  unfold eraseBlobIfExists ErasesBlob
  by_cases hen : s.enabled = true
  · simp only [hen, Bool.not_true, Bool.false_eq_true, if_false, true_and]
    cases hc : s.cachedBlob key with
    | some entry =>
      dsimp only
      by_cases hex : entry.existing = true
      · rw [if_pos hex, eraseKnownBlob_blobs]
        by_cases hf : s.backend.fate s.backend.calls = true
        · simp [hf, hex, eq_comm]
        · simp [hf]
      · rw [if_neg hex]
        simp [hex]
    | none =>
      dsimp only
      by_cases hf : s.backend.fate s.backend.calls = true
      · cases hb : s.backend.blobs key with
        | none => simp [Backend.getBlob, hf, hb]
        | some data =>
          have herase := eraseKnownBlob_blobs { s with backend := (s.backend.getBlob key).2 } key
          simp only [Backend.getBlob, hf, hb, if_true, Option.isNone_some, Bool.false_eq_true,
            if_false] at herase ⊢
          rw [herase]
          by_cases hf' : s.backend.fate (s.backend.calls + 1) = true <;> simp [hf']
      · simp [Backend.getBlob, hf]
  · simp [hen]

theorem loadPairIndex_frame (s : PairingStore) (localMac : MacAddress) :
    StoreFrame ∅ s (s.loadPairIndex localMac).2 := by
  unfold loadPairIndex
  split
  · exact .refl s
  · exact (getBlobCached_frame s _).1

theorem savePairIndex_frame (s : PairingStore) (localMac : MacAddress)
    (entries : List PairIndexEntry) :
    StoreFrame {s.pairIndexKey localMac} s (s.savePairIndex localMac entries).2 := by
  unfold savePairIndex
  split
  · exact .refl s
  split
  · exact eraseBlobIfExists_frame s _
  split
  · exact .refl s
  · exact (putBlobIfChanged_frame s _ _).1

theorem StoreFrame.pairIndexKey {K : Set BlobKey} {s t : PairingStore} (h : StoreFrame K s t)
    (localMac : MacAddress) : t.pairIndexKey localMac = s.pairIndexKey localMac := by
  simp [PairingStore.pairIndexKey, makeLocalMetaKey, h.config]

theorem StoreFrame.pairSeqCounterKey {K : Set BlobKey} {s t : PairingStore}
    (h : StoreFrame K s t) (localMac : MacAddress) :
    t.pairSeqCounterKey localMac = s.pairSeqCounterKey localMac := by
  simp [PairingStore.pairSeqCounterKey, makeLocalMetaKey, h.config]

theorem upsertPairIndexEntry_frame (s : PairingStore) (localMac peer : MacAddress) (seq : UInt32) :
    StoreFrame {s.pairIndexKey localMac} s (s.upsertPairIndexEntry localMac peer seq).2 := by
  unfold upsertPairIndexEntry
  split
  · exact .refl s
  · have hload := loadPairIndex_frame s localMac
    have hsave := savePairIndex_frame (s.loadPairIndex localMac).2 localMac
      (upsertEntry peer seq ((s.loadPairIndex localMac).1.getD []))
    rw [hload.pairIndexKey] at hsave
    exact (hload.mono (Set.empty_subset _)).trans hsave

theorem removePairIndexEntry_frame (s : PairingStore) (localMac peer : MacAddress) :
    StoreFrame {s.pairIndexKey localMac} s (s.removePairIndexEntry localMac peer).2 := by
  unfold removePairIndexEntry
  split
  · exact .refl s
  · have hload := loadPairIndex_frame s localMac
    cases h : s.loadPairIndex localMac with
    | mk loaded t =>
      rw [h] at hload
      cases loaded with
      | none => exact hload.mono (Set.empty_subset _)
      | some entries =>
        have hsave := savePairIndex_frame t localMac (entries.filter (·.peer_mac ≠ peer))
        rw [hload.pairIndexKey] at hsave
        exact (hload.mono (Set.empty_subset _)).trans hsave

theorem loadPairSeqCounter_frame (s : PairingStore) (localMac : MacAddress) :
    StoreFrame ∅ s (s.loadPairSeqCounter localMac).2 := by
  unfold loadPairSeqCounter
  split
  · exact .refl s
  · exact (getBlobCached_frame s _).1

theorem assignPairSeq_frame (s : PairingStore) (localMac : MacAddress) :
    StoreFrame {s.pairSeqCounterKey localMac} s (s.assignPairSeq localMac).2 := by
  have hload := loadPairSeqCounter_frame s localMac
  unfold assignPairSeq savePairSeqCounter
  dsimp only
  split
  · exact hload.mono (Set.empty_subset _)
  · refine (hload.mono (Set.empty_subset _)).trans ?_
    rw [← hload.pairSeqCounterKey]
    exact (putBlobIfChanged_frame _ _ _).1

theorem indexPair_frame (s : PairingStore) (localMac peer : MacAddress) :
    StoreFrame {s.pairIndexKey localMac, s.pairSeqCounterKey localMac} s
      (s.indexPair localMac peer).2 := by
  have hload := loadPairIndex_frame s localMac
  have hstep (t : PairingStore) (seq : UInt32)
      (ht : StoreFrame {s.pairIndexKey localMac, s.pairSeqCounterKey localMac} s t) :
      StoreFrame {s.pairIndexKey localMac, s.pairSeqCounterKey localMac} s
        (t.upsertPairIndexEntry localMac peer seq).2 := by
    refine ht.trans ((upsertPairIndexEntry_frame t localMac peer seq).mono ?_)
    rw [ht.pairIndexKey]
    simp
  unfold indexPair
  dsimp only
  split
  · exact hstep _ _ (hload.mono (Set.empty_subset _))
  · have hassign := assignPairSeq_frame (s.loadPairIndex localMac).2 localMac
    rw [hload.pairSeqCounterKey] at hassign
    have hboth : StoreFrame {s.pairIndexKey localMac, s.pairSeqCounterKey localMac} s
        ((s.loadPairIndex localMac).2.assignPairSeq localMac).2 :=
      (hload.mono (Set.empty_subset _)).trans (hassign.mono (by simp))
    cases h : (s.loadPairIndex localMac).2.assignPairSeq localMac with
    | mk seq t =>
      rw [h] at hboth
      cases seq with
      | none => exact hboth
      | some seq => exact hstep _ _ hboth

/-- The three keys `savePair` writes under. -/
def pairKeys (s : PairingStore) (localMac peer : MacAddress) : Set BlobKey :=
  {s.makeKey .Pair localMac peer, s.pairIndexKey localMac, s.pairSeqCounterKey localMac}

/-- `savePair` touches the record, the index and the counter only, and a success leaves the record
in the backend. -/
theorem savePair_frame (s : PairingStore) (record : PairRecord) :
    StoreFrame (s.pairKeys record.local_mac record.peer_mac) s (s.savePair record).2 ∧
      (s.CacheSound → (s.savePair record).1 = true →
        (s.savePair record).2.backend.blobs
          (s.makeKey .Pair record.local_mac record.peer_mac) = some (pairBlob record)) := by
  unfold savePair
  split
  · exact ⟨.refl s, by simp⟩
  · obtain ⟨hput, hdata⟩ := putBlobIfChanged_frame s
      (s.makeKey .Pair record.local_mac record.peer_mac) (pairBlob record)
    cases hp : s.putBlobIfChanged (s.makeKey .Pair record.local_mac record.peer_mac)
      (pairBlob record) with
    | mk ok t =>
      rw [hp] at hput hdata
      have hputK : StoreFrame (s.pairKeys record.local_mac record.peer_mac) s t :=
        hput.mono (by simp [pairKeys])
      cases ok with
      | false => exact ⟨hputK, by simp⟩
      | true =>
        have hindex := indexPair_frame t record.local_mac record.peer_mac
        rw [hput.pairIndexKey, hput.pairSeqCounterKey] at hindex
        refine ⟨hputK.trans (hindex.mono (by simp [pairKeys])), fun hs _ => ?_⟩
        refine (hindex.blobs ?_).trans (hdata hs rfl)
        rintro (hk | hk) <;> simp [PairingStore.makeKey, PairingStore.pairIndexKey,
          PairingStore.pairSeqCounterKey, makeLocalMetaKey, blobKey] at hk

theorem erasePair_frame (s : PairingStore) (localMac peer : MacAddress) :
    StoreFrame {s.makeKey .Pair localMac peer, s.pairIndexKey localMac} s
      (s.erasePair localMac peer).2 := by
  unfold erasePair
  split
  · exact .refl s
  · have hpair := eraseBlobIfExists_frame s (s.makeKey .Pair localMac peer)
    have hindex := removePairIndexEntry_frame
      (s.eraseBlobIfExists (s.makeKey .Pair localMac peer)).2 localMac peer
    rw [hpair.pairIndexKey] at hindex
    exact (hpair.mono (by simp)).trans (hindex.mono (by simp))

theorem saveChannel_frame (s : PairingStore) (localMac peer : MacAddress) (channel : UInt8) :
    StoreFrame {s.makeKey .Channel localMac peer} s (s.saveChannel localMac peer channel).2 := by
  unfold saveChannel
  split
  · exact .refl s
  · exact (putBlobIfChanged_frame s _ _).1

theorem eraseChannel_frame (s : PairingStore) (localMac peer : MacAddress) :
    StoreFrame {s.makeKey .Channel localMac peer} s (s.eraseChannel localMac peer).2 := by
  unfold eraseChannel
  split
  · exact .refl s
  · exact eraseBlobIfExists_frame s _

theorem saveMetaBlob_frame (s : PairingStore) (localMac peer : MacAddress) (slot : UInt8)
    (data : Bytes) :
    StoreFrame {s.makeMetaKey localMac peer slot} s (s.saveMetaBlob localMac peer slot data).2 ∧
      (s.CacheSound → (s.saveMetaBlob localMac peer slot data).1 = true →
        (s.saveMetaBlob localMac peer slot data).2.backend.blobs (s.makeMetaKey localMac peer slot)
          = some data) := by
  unfold saveMetaBlob
  split
  · exact ⟨.refl s, fun _ h => by cases h⟩
  · exact s.putBlobIfChanged_frame _ data

theorem loadMetaBlob_frame (s : PairingStore) (localMac peer : MacAddress) (slot : UInt8) :
    StoreFrame ∅ s (s.loadMetaBlob localMac peer slot).2 ∧
      (s.CacheSound → ∀ v, (s.loadMetaBlob localMac peer slot).1 = some v →
        s.backend.blobs (s.makeMetaKey localMac peer slot) = some v) := by
  unfold loadMetaBlob
  split
  · exact ⟨.refl s, fun _ v h => by cases h⟩
  · exact s.getBlobCached_frame _

theorem eraseMetaBlob_frame (s : PairingStore) (localMac peer : MacAddress) (slot : UInt8) :
    StoreFrame {s.makeMetaKey localMac peer slot} s (s.eraseMetaBlob localMac peer slot).2 := by
  unfold eraseMetaBlob
  split
  · exact .refl s
  · exact s.eraseBlobIfExists_frame _

theorem eraseMetaBlob_same_iff (s : PairingStore) (localMac peer : MacAddress) (slot : UInt8) :
    (s.eraseMetaBlob localMac peer slot).2.backend.blobs (s.makeMetaKey localMac peer slot) =
        s.backend.blobs (s.makeMetaKey localMac peer slot) ↔
      ¬ s.ErasesBlob (s.makeMetaKey localMac peer slot) := by
  unfold eraseMetaBlob
  by_cases hon : s.enabled = true
  · rw [if_neg (by simp [hon])]
    exact s.eraseBlobIfExists_same_iff _
  · rw [if_pos (by simpa using hon)]
    exact iff_of_true rfl fun h => hon h.1

end PairingStore

end EspNowLink
