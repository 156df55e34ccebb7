import EspNowLink.Platform.KeyCollisions
import EspNowLink.Platform.PairIndex

namespace EspNowLink

namespace PairingStore

/-- A read of the key does not see what the backend holds: the cache denies the blob, or the cache does
not know it and the backend's read fails. -/
def Misses (s : PairingStore) (key : BlobKey) : Prop :=
  match s.cachedBlob key with
  | some entry => entry.existing = false
  | none => s.backend.fate s.backend.calls = false

instance (s : PairingStore) (key : BlobKey) : Decidable (s.Misses key) := by
  unfold Misses
  split <;> infer_instance

/-- The entries of the other peers in the stored index. -/
def otherEntries (s : PairingStore) (localMac peer : MacAddress) : List PairIndexEntry :=
  (s.storedIndex localMac).filter (·.peer_mac ≠ peer)

/-- What a read of the index gives. -/
def seenIndex (s : PairingStore) (localMac : MacAddress) : List PairIndexEntry :=
  if s.Misses (s.pairIndexKey localMac) then [] else s.storedIndex localMac

/-- The number that a counter stands for: 1 when there is none, or when it is 0. -/
def counterNumber (counter : Option UInt32) : UInt32 :=
  match counter with
  | none => 1
  | some n => if n = 0 then 1 else n

def storedNumber (s : PairingStore) (localMac : MacAddress) : UInt32 :=
  counterNumber ((s.backend.blobs (s.pairSeqCounterKey localMac)).bind pairSeqOfBlob)

/-- The number that a read of the counter gives. -/
def seenNumber (s : PairingStore) (localMac : MacAddress) : UInt32 :=
  if s.Misses (s.pairSeqCounterKey localMac) then 1 else s.storedNumber localMac

def followingNumber (seq : UInt32) : UInt32 := if seq = 0xFFFFFFFF then 1 else seq + 1

/-- The store in which `savePair` asks for the index, after the record. -/
def recorded (s : PairingStore) (record : PairRecord) : PairingStore :=
  (s.putBlobIfChanged (s.makeKey .Pair record.local_mac record.peer_mac) (pairBlob record)).2

/-- The store in which it asks for the counter. -/
def listed (s : PairingStore) (record : PairRecord) : PairingStore :=
  ((s.recorded record).loadPairIndex record.local_mac).2

/-- The store in which it asks for the index again, to enter the number. -/
def numbered (s : PairingStore) (record : PairRecord) : PairingStore :=
  ((s.listed record).assignPairSeq record.local_mac).2

/-- A save assigns a number: the record is stored, the peer is seen to have none in the index, the number is
what the read of the counter gives, and the counter is stored advanced. -/
structure AssignsNumber (s : PairingStore) (record : PairRecord) (seq : UInt32) : Prop where
  enabled : s.enabled = true
  recorded : WriteSucceeds (.put (s.makeKey .Pair record.local_mac record.peer_mac) (pairBlob record)) s
  unnumbered : (s.recorded record).Misses (s.pairIndexKey record.local_mac) ∨
    ∀ e ∈ s.storedIndex record.local_mac, ¬ (e.peer_mac = record.peer_mac ∧ e.valid = true ∧ e.pair_seq ≠ 0)
  number : seq = if (s.listed record).Misses (s.pairSeqCounterKey record.local_mac) then 1
    else s.storedNumber record.local_mac
  counted : WriteSucceeds (.put (s.pairSeqCounterKey record.local_mac) (pairSeqBlob (followingNumber seq)))
    ((s.listed record).loadPairSeqCounter record.local_mac).2

/-- The write of the updated index is made, and the backend carries it out. -/
def IndexWritten (s : PairingStore) (localMac peer : MacAddress) (seq : UInt32) : Prop :=
  let entries := upsertEntry peer seq (s.seenIndex localMac)
  entries.length ≤ 65535 ∧
    WriteSucceeds (.put (s.pairIndexKey localMac) (pairIndexBlob entries)) (s.loadPairIndex localMac).2

/-- A number can be entered without harm: there are no other entries, or the index is found in `t` and the number is
not one of theirs. -/
def EntersSafely (s t : PairingStore) (localMac peer : MacAddress) (seq : UInt32) : Prop :=
  s.otherEntries localMac peer = [] ∨
    (¬ t.Misses (s.pairIndexKey localMac) ∧
      (⟨peer, seq, true⟩ ∈ s.storedIndex localMac ∨
        ∀ a ∈ s.otherEntries localMac peer, a.pair_seq ≠ seq))

/-- A save that assigns a number enters it without harm, or does not come to enter it. -/
def UpdatesSafely (s : PairingStore) (record : PairRecord) : Prop :=
  ∀ seq, s.AssignsNumber record seq →
    (s.numbered record).IndexWritten record.local_mac record.peer_mac seq →
    s.EntersSafely (s.numbered record) record.local_mac record.peer_mac seq

/-- From `s` to `t` the index keeps the entries of the peers other than this one, and what it newly says of
this one has a number of its own. -/
structure IndexKept (localMac peer : MacAddress) (s t : PairingStore) : Prop where
  others : t.otherEntries localMac peer = s.otherEntries localMac peer
  number : ∀ e ∈ t.storedIndex localMac, e.peer_mac = peer → e ∉ s.storedIndex localMac →
    ∀ a ∈ s.otherEntries localMac peer, a.pair_seq ≠ e.pair_seq

section Entries

variable {peer : MacAddress} {seq : UInt32} {xs : List PairIndexEntry}

theorem upsertEntry_others (peer : MacAddress) (seq : UInt32) (xs : List PairIndexEntry) :
    (upsertEntry peer seq xs).filter (·.peer_mac ≠ peer) = xs.filter (·.peer_mac ≠ peer) := by
  induction xs with
  | nil => simp [upsertEntry]
  | cons x xs ih =>
    unfold upsertEntry
    by_cases hpeer : x.peer_mac = peer
    · rw [if_pos hpeer]
      simp [hpeer]
    · rw [if_neg hpeer, List.filter_cons_of_pos (by simpa using hpeer),
        List.filter_cons_of_pos (by simpa using hpeer), ih]

theorem mem_upsertEntry {x : PairIndexEntry} (h : x ∈ upsertEntry peer seq xs) :
    x ∈ xs ∨ x = ⟨peer, seq, true⟩ := by
  induction xs with
  | nil => exact .inr (List.mem_singleton.mp h)
  | cons y ys ih =>
    unfold upsertEntry at h
    by_cases hpeer : y.peer_mac = peer
    · rw [if_pos hpeer] at h
      rcases List.mem_cons.mp h with rfl | h
      · exact .inr (by rw [hpeer])
      · exact .inl (List.mem_cons_of_mem _ h)
    · rw [if_neg hpeer] at h
      rcases List.mem_cons.mp h with rfl | h
      · exact .inl List.mem_cons_self
      · exact (ih h).imp (List.mem_cons_of_mem _) id

theorem entered_mem (peer : MacAddress) (seq : UInt32) (xs : List PairIndexEntry) :
    ⟨peer, seq, true⟩ ∈ upsertEntry peer seq xs := by
  induction xs with
  | nil => exact List.mem_singleton_self _
  | cons y ys ih =>
    unfold upsertEntry
    by_cases hpeer : y.peer_mac = peer
    · rw [if_pos hpeer, hpeer]
      exact List.mem_cons_self
    · rw [if_neg hpeer]
      exact List.mem_cons_of_mem _ ih

end Entries

section Reads

variable {s : PairingStore} {localMac : MacAddress}

theorem getBlobCached_missed {key : BlobKey} (h : s.Misses key) : (s.getBlobCached key).1 = none := by
  unfold Misses at h
  unfold getBlobCached
  split
  · rfl
  · cases hc : s.cachedBlob key with
    | some entry =>
      rw [hc] at h
      exact if_neg (by rw [h]; exact Bool.false_ne_true)
    | none =>
      rw [hc] at h
      exact if_neg (by rw [h]; exact Bool.false_ne_true)

theorem getBlobCached_found {key : BlobKey} (hon : s.enabled = true) (hs : s.CacheSound)
    (h : ¬ s.Misses key) : (s.getBlobCached key).1 = s.backend.blobs key := by
  unfold Misses at h
  unfold getBlobCached
  rw [if_neg (by simp [hon])]
  cases hc : s.cachedBlob key with
  | some entry =>
    rw [hc] at h
    have hexisting : entry.existing = true := Bool.not_eq_false _ ▸ h
    obtain ⟨hlookup, hknown⟩ := cachedBlob_lookup hc
    rw [hs key entry hlookup hknown hexisting]
    exact if_pos hexisting
  | none =>
    rw [hc] at h
    exact if_pos (Bool.not_eq_false _ ▸ h)

/-- A blob that was read is known to the cache from then on. -/
theorem getBlobCached_known {key : BlobKey} {data : Bytes} (h : (s.getBlobCached key).1 = some data) :
    ¬ (s.getBlobCached key).2.Misses key := by
  unfold getBlobCached at h ⊢
  split at h
  · cases h
  · rename_i hon
    rw [if_neg hon]
    cases hc : s.cachedBlob key with
    | some entry =>
      rw [hc] at h
      obtain ⟨n, hmarked⟩ := s.markUsed_cachedBlob key (cachedBlob_lookup hc).2
      have hexisting : entry.existing = true := by
        by_contra hno
        exact nomatch (if_neg hno).symm.trans h
      unfold Misses
      rw [hmarked]
      exact fun hno => Bool.false_ne_true (hno.symm.trans hexisting)
    | none =>
      rw [hc] at h
      obtain ⟨entry, hcached, hcontent⟩ := ({ s with backend := (s.backend.getBlob key).2 }).rememberBlob_cachedBlob
        key (s.backend.getBlob key).1
      have hexisting : entry.existing = true := by
        by_contra hno
        have hnone : entry.content = none := if_neg hno
        rw [hnone] at hcontent
        exact nomatch hcontent.trans h
      unfold Misses
      rw [hcached]
      exact fun hno => Bool.false_ne_true (hno.symm.trans hexisting)

theorem loadPairIndex_missed (h : s.Misses (s.pairIndexKey localMac)) : (s.loadPairIndex localMac).1 = none := by
  unfold loadPairIndex
  split
  · rfl
  · show (s.getBlobCached _).1.bind pairIndexOfBlob = none
    rw [getBlobCached_missed h]
    rfl

theorem loadPairIndex_found (hon : s.enabled = true) (hs : s.CacheSound)
    (h : ¬ s.Misses (s.pairIndexKey localMac)) : (s.loadPairIndex localMac).1.getD [] = s.storedIndex localMac := by
  unfold loadPairIndex
  rw [if_neg (by simp [hon])]
  show ((s.getBlobCached _).1.bind pairIndexOfBlob).getD [] = _
  rw [getBlobCached_found hon hs h]
  rfl

theorem mem_of_seen {e : PairIndexEntry} (h : e ∈ s.seenIndex localMac) : e ∈ s.storedIndex localMac := by
  unfold seenIndex at h
  split at h
  · cases h
  · exact h

theorem loadPairIndex_seen (hon : s.enabled = true) (hs : s.CacheSound) (localMac : MacAddress) :
    (s.loadPairIndex localMac).1.getD [] = s.seenIndex localMac := by
  unfold seenIndex
  split
  · rename_i hmiss
    rw [loadPairIndex_missed hmiss]
    rfl
  · rename_i hfound
    exact loadPairIndex_found hon hs hfound

theorem loadPairSeqCounter_seen (hon : s.enabled = true) (hs : s.CacheSound) (localMac : MacAddress) :
    counterNumber (s.loadPairSeqCounter localMac).1 = s.seenNumber localMac := by
  unfold loadPairSeqCounter seenNumber storedNumber
  rw [if_neg (by simp [hon])]
  dsimp only
  by_cases hmiss : s.Misses (s.pairSeqCounterKey localMac)
  · rw [if_pos hmiss, getBlobCached_missed hmiss]
    rfl
  · rw [if_neg hmiss, getBlobCached_found hon hs hmiss]

theorem assignPairSeq_eq (s : PairingStore) (localMac : MacAddress) :
    s.assignPairSeq localMac =
      let read := s.loadPairSeqCounter localMac
      let seq := counterNumber read.1
      let saved := read.2.savePairSeqCounter localMac (followingNumber seq)
      (if saved.1 then some seq else none, saved.2) := by
  unfold assignPairSeq
  generalize s.loadPairSeqCounter localMac = read
  obtain ⟨_ | n, t⟩ := read
  · rfl
  · by_cases hzero : n = 0
    · subst hzero
      rfl
    · simp only [counterNumber, if_neg hzero, followingNumber]

/-- The number that is assigned is the one that the read of the counter gives, if the counter is stored. -/
theorem assignPairSeq_seen (hon : s.enabled = true) (hs : s.CacheSound) (localMac : MacAddress) (seq : UInt32) :
    (s.assignPairSeq localMac).1 = some seq ↔ seq = s.seenNumber localMac ∧
      WriteSucceeds (.put (s.pairSeqCounterKey localMac) (pairSeqBlob (followingNumber seq)))
        (s.loadPairSeqCounter localMac).2 := by
  have hload := s.loadPairSeqCounter_frame localMac
  rw [assignPairSeq_eq, ← loadPairSeqCounter_seen hon hs localMac]
  dsimp only
  generalize counterNumber (s.loadPairSeqCounter localMac).1 = number
  have hsaved : ((s.loadPairSeqCounter localMac).2.savePairSeqCounter localMac (followingNumber number)).1 = true ↔
      WriteSucceeds (.put (s.pairSeqCounterKey localMac) (pairSeqBlob (followingNumber number)))
        (s.loadPairSeqCounter localMac).2 := by
    unfold savePairSeqCounter
    rw [if_neg (by simp [hload.enabled, hon]), hload.pairSeqCounterKey]
    exact (putBlobIfChanged_outcome _ (by rw [hload.enabled, hon]) rfl).1
  by_cases hok : ((s.loadPairSeqCounter localMac).2.savePairSeqCounter localMac (followingNumber number)).1 = true
  · rw [if_pos hok, Option.some.injEq]
    constructor
    · rintro rfl
      exact ⟨rfl, hsaved.mp hok⟩
    · exact fun h => h.1.symm
  · rw [if_neg hok]
    constructor
    · nofun
    · rintro ⟨rfl, hwrites⟩
      exact absurd (hsaved.mpr hwrites) hok

theorem loadPairIndex_known {xs : List PairIndexEntry} (h : (s.loadPairIndex localMac).1 = some xs) :
    ¬ (s.loadPairIndex localMac).2.Misses (s.pairIndexKey localMac) := by
  unfold loadPairIndex at h ⊢
  split at h
  · cases h
  · rename_i hon
    rw [if_neg hon]
    obtain ⟨blob, hblob, -⟩ := Option.bind_eq_some_iff.mp h
    exact getBlobCached_known hblob

end Reads

section Updates

variable {s t : PairingStore} {localMac peer : MacAddress} {seq : UInt32}

theorem otherEntries_congr (h : t.storedIndex localMac = s.storedIndex localMac) :
    t.otherEntries localMac peer = s.otherEntries localMac peer := by
  unfold otherEntries
  rw [h]

theorem IndexKept.of_same (h : t.storedIndex localMac = s.storedIndex localMac) : IndexKept localMac peer s t :=
  ⟨otherEntries_congr h, fun _ he _ hnew => absurd (h ▸ he) hnew⟩

theorem IndexKept.of_index {u : PairingStore} (h : IndexKept localMac peer t u)
    (hsame : t.storedIndex localMac = s.storedIndex localMac) : IndexKept localMac peer s u :=
  ⟨h.others.trans (otherEntries_congr hsame), fun e he hpeer hnew =>
    otherEntries_congr hsame ▸ h.number e he hpeer (hsame ▸ hnew)⟩

/-- An operation under other keys leaves the index as it is. -/
theorem storedIndex_frame {K : Set BlobKey} (h : StoreFrame K s t) (localMac : MacAddress)
    (hkey : s.pairIndexKey localMac ∉ K) :
    t.storedIndex localMac = s.storedIndex localMac := by
  unfold storedIndex
  rw [h.pairIndexKey, h.blobs hkey]

/-- What the update of the index stores. -/
theorem upsertPairIndexEntry_stored (hon : s.enabled = true) (hs : s.CacheSound)
    (localMac peer : MacAddress) (seq : UInt32) :
    (s.IndexWritten localMac peer seq → (s.upsertPairIndexEntry localMac peer seq).2.storedIndex localMac =
      upsertEntry peer seq (s.seenIndex localMac)) ∧
    (¬ s.IndexWritten localMac peer seq →
      (s.upsertPairIndexEntry localMac peer seq).2.storedIndex localMac = s.storedIndex localMac) := by
  have hload := s.loadPairIndex_frame localMac
  have hblobs := s.loadPairIndex_blobs localMac
  have hseen := loadPairIndex_seen hon hs localMac
  unfold upsertPairIndexEntry IndexWritten
  rw [if_neg (by simp [hon]), ← hseen]
  generalize s.loadPairIndex localMac = index at hload hblobs ⊢
  obtain ⟨loaded, u⟩ := index
  dsimp only at hload hblobs ⊢
  have huon : u.enabled = true := by rw [hload.enabled, hon]
  have hsame := storedIndex_congr hload.config hblobs localMac
  have hempty : ¬ (upsertEntry peer seq (loaded.getD [])).isEmpty = true := by simp [upsertEntry_ne_nil]
  unfold savePairIndex
  rw [if_neg (by simp [huon]), if_neg hempty, ← hload.pairIndexKey localMac]
  generalize hentries : upsertEntry peer seq (loaded.getD []) = entries
  by_cases hfits : entries.length > 65535
  · rw [if_pos hfits]
    exact ⟨fun h => absurd h.1 (by omega), fun _ => hsame⟩
  · rw [if_neg hfits]
    have hdata : (pairIndexBlob entries).isEmpty = false := rfl
    obtain ⟨hok, hrefused⟩ := putBlobIfChanged_outcome (u.pairIndexKey localMac) huon hdata
    obtain ⟨hput, hstored⟩ := u.putBlobIfChanged_frame (u.pairIndexKey localMac) (pairIndexBlob entries)
    constructor
    · rintro ⟨-, hwrites⟩
      have hnew := hstored (hload.sound hs) (hok.mpr hwrites)
      unfold storedIndex
      rw [hput.pairIndexKey, hnew, Option.bind_some, pairIndexOfBlob_pairIndexBlob entries (by omega),
        Option.getD_some]
    · intro hnot
      have hfailed : (u.putBlobIfChanged (u.pairIndexKey localMac) (pairIndexBlob entries)).1 = false := by
        refine Bool.eq_false_iff.mpr fun h => hnot ⟨by omega, hok.mp h⟩
      exact (storedIndex_congr hput.config (hrefused hfailed) localMac).trans hsame

/-- Entering a number that is the peer's already changes nothing of the others. -/
theorem upsertPairIndexEntry_again (hon : s.enabled = true) (hs : s.CacheSound)
    (hfound : ¬ s.Misses (s.pairIndexKey localMac)) (hmem : ⟨peer, seq, true⟩ ∈ s.storedIndex localMac) :
    IndexKept localMac peer s (s.upsertPairIndexEntry localMac peer seq).2 := by
  obtain ⟨hwritten, hkept⟩ := upsertPairIndexEntry_stored hon hs localMac peer seq
  by_cases hw : s.IndexWritten localMac peer seq
  · have hstored := hwritten hw
    rw [seenIndex, if_neg hfound] at hstored
    refine ⟨?_, fun e he _ hnew => ?_⟩
    · unfold otherEntries
      rw [hstored, upsertEntry_others]
    · rw [hstored] at he
      rcases mem_upsertEntry he with hold | rfl
      · exact absurd hold hnew
      · exact absurd hmem hnew
  · exact .of_same (hkept hw)

/-- The update that enters a new number is harmless where it does not come about or is safe. -/
theorem upsertPairIndexEntry_kept_iff (hon : s.enabled = true) (hs : s.CacheSound)
    (localMac peer : MacAddress) (seq : UInt32) :
    IndexKept localMac peer s (s.upsertPairIndexEntry localMac peer seq).2 ↔
      (s.IndexWritten localMac peer seq → s.EntersSafely s localMac peer seq) := by
  obtain ⟨hwritten, hkept⟩ := upsertPairIndexEntry_stored hon hs localMac peer seq
  by_cases hw : s.IndexWritten localMac peer seq
  · have hstored := hwritten hw
    simp only [hw, forall_const]
    unfold EntersSafely
    by_cases hmiss : s.Misses (s.pairIndexKey localMac)
    · rw [seenIndex, if_pos hmiss] at hstored
      have hnone : (s.upsertPairIndexEntry localMac peer seq).2.otherEntries localMac peer = [] := by
        unfold otherEntries
        rw [hstored, upsertEntry_others]
        rfl
      constructor
      · intro h
        exact .inl (h.others.symm.trans hnone)
      · rintro (hempty | ⟨hfound, -⟩)
        · refine ⟨hnone.trans hempty.symm, fun e _ _ _ a ha => ?_⟩
          rw [hempty] at ha
          cases ha
        · exact absurd hmiss hfound
    · rw [seenIndex, if_neg hmiss] at hstored
      have hothers : (s.upsertPairIndexEntry localMac peer seq).2.otherEntries localMac peer =
          s.otherEntries localMac peer := by
        unfold otherEntries
        rw [hstored, upsertEntry_others]
      constructor
      · intro h
        refine .inr ⟨hmiss, ?_⟩
        by_cases hmem : ⟨peer, seq, true⟩ ∈ s.storedIndex localMac
        · exact .inl hmem
        · refine .inr (h.number ⟨peer, seq, true⟩ ?_ rfl hmem)
          rw [hstored]
          exact entered_mem peer seq _
      · intro hsafe
        refine ⟨hothers, fun e he _ hnew a ha => ?_⟩
        rw [hstored] at he
        rcases mem_upsertEntry he with hold | rfl
        · exact absurd hold hnew
        · rcases hsafe with hempty | ⟨-, hmem | hunused⟩
          · rw [hempty] at ha
            cases ha
          · exact absurd hmem hnew
          · exact hunused a ha
  · simp only [hw, false_implies, iff_true]
    exact .of_same (hkept hw)

end Updates

section Saves

variable {s t : PairingStore} {record : PairRecord} {seq : UInt32}

theorem indexKey_not_pair (s : PairingStore) (localMac other peer : MacAddress) :
    s.pairIndexKey localMac ∉ ({s.makeKey .Pair other peer} : Set BlobKey) := by
  simp [makeKey, pairIndexKey, makeLocalMetaKey, blobKey]

theorem counterKey_not_pair (s : PairingStore) (localMac other peer : MacAddress) :
    s.pairSeqCounterKey localMac ∉ ({s.makeKey .Pair other peer} : Set BlobKey) := by
  simp [makeKey, pairSeqCounterKey, makeLocalMetaKey, blobKey]

theorem indexKey_not_counter (s : PairingStore) (localMac other : MacAddress) :
    s.pairIndexKey localMac ∉ ({s.pairSeqCounterKey other} : Set BlobKey) := by
  simp [pairSeqCounterKey, pairIndexKey, makeLocalMetaKey, blobKey]

/-- The stores in which a save asks have the index and the counter of the store before. -/
structure SameNumbers (localMac : MacAddress) (s t : PairingStore) : Prop where
  enabled : t.enabled = s.enabled
  index_key : t.pairIndexKey localMac = s.pairIndexKey localMac
  counter_key : t.pairSeqCounterKey localMac = s.pairSeqCounterKey localMac
  sound : s.CacheSound → t.CacheSound
  index : t.storedIndex localMac = s.storedIndex localMac

theorem SameNumbers.of_frame {K : Set BlobKey} {localMac : MacAddress} (h : StoreFrame K s t)
    (hkey : s.pairIndexKey localMac ∉ K) : SameNumbers localMac s t :=
  ⟨h.enabled, h.pairIndexKey localMac, h.pairSeqCounterKey localMac, h.sound, storedIndex_frame h localMac hkey⟩

theorem SameNumbers.trans {localMac : MacAddress} {u : PairingStore} (h : SameNumbers localMac s t)
    (h' : SameNumbers localMac t u) : SameNumbers localMac s u :=
  ⟨h'.enabled.trans h.enabled, h'.index_key.trans h.index_key, h'.counter_key.trans h.counter_key,
    h'.sound ∘ h.sound, h'.index.trans h.index⟩

theorem recorded_same (s : PairingStore) (record : PairRecord) :
    SameNumbers record.local_mac s (s.recorded record) :=
  .of_frame (putBlobIfChanged_frame _ _ _).1 (s.indexKey_not_pair _ _ _)

theorem listed_same (s : PairingStore) (record : PairRecord) : SameNumbers record.local_mac s (s.listed record) :=
  (s.recorded_same record).trans (.of_frame (loadPairIndex_frame _ _) (Set.notMem_empty _))

theorem numbered_same (s : PairingStore) (record : PairRecord) :
    SameNumbers record.local_mac s (s.numbered record) :=
  (s.listed_same record).trans (.of_frame (assignPairSeq_frame _ _) (indexKey_not_counter _ _ _))

theorem listed_storedNumber (s : PairingStore) (record : PairRecord) :
    (s.listed record).storedNumber record.local_mac = s.storedNumber record.local_mac := by
  have hput := (s.putBlobIfChanged_frame (s.makeKey .Pair record.local_mac record.peer_mac) (pairBlob record)).1
  have hload := (s.recorded record).loadPairIndex_frame record.local_mac
  have hframe := hput.trans (hload.mono (Set.empty_subset _))
  unfold storedNumber
  rw [(s.listed_same record).counter_key]
  exact congrArg (fun blob => counterNumber (blob.bind pairSeqOfBlob))
    (hframe.blobs (s.counterKey_not_pair record.local_mac _ _))

/-- The peer is seen to have no number in the index. -/
theorem unnumbered_iff (hon : s.enabled = true) (hs : s.CacheSound) :
    (((s.recorded record).loadPairIndex record.local_mac).1.getD []).find?
        (fun e => e.peer_mac = record.peer_mac && e.valid && e.pair_seq != 0) = none ↔
      (s.recorded record).Misses (s.pairIndexKey record.local_mac) ∨
        ∀ e ∈ s.storedIndex record.local_mac,
          ¬ (e.peer_mac = record.peer_mac ∧ e.valid = true ∧ e.pair_seq ≠ 0) := by
  have hsame := s.recorded_same record
  rw [loadPairIndex_seen (hsame.enabled.trans hon) (hsame.sound hs), seenIndex, hsame.index_key, hsame.index,
    List.find?_eq_none]
  by_cases hmiss : (s.recorded record).Misses (s.pairIndexKey record.local_mac)
  · simp [hmiss]
  · rw [if_neg hmiss, or_iff_right hmiss]
    simp [and_assoc]

theorem savePair_eq (hon : s.enabled = true) :
    s.savePair record =
      if WriteSucceeds (.put (s.makeKey .Pair record.local_mac record.peer_mac) (pairBlob record)) s then
        (s.recorded record).indexPair record.local_mac record.peer_mac
      else (false, s.recorded record) := by
  have hnonempty : (pairBlob record).isEmpty = false := rfl
  have hiff := (putBlobIfChanged_outcome (s.makeKey .Pair record.local_mac record.peer_mac) hon hnonempty).1
  unfold savePair recorded
  rw [if_neg (by simp [hon])]
  generalize s.putBlobIfChanged (s.makeKey .Pair record.local_mac record.peer_mac) (pairBlob record) = written
    at hiff ⊢
  obtain ⟨_ | _, t⟩ := written
  · rw [if_neg fun h => Bool.false_ne_true (hiff.mpr h)]
  · rw [if_pos (hiff.mp rfl)]

/-- A save that assigns a number ends with the update of the index. -/
theorem savePair_assigned (hs : s.CacheSound) (h : s.AssignsNumber record seq) :
    s.savePair record = (s.numbered record).upsertPairIndexEntry record.local_mac record.peer_mac seq := by
  have hlisted := s.listed_same record
  have hassign : ((s.listed record).assignPairSeq record.local_mac).1 = some seq := by
    rw [assignPairSeq_seen (hlisted.enabled.trans h.enabled) (hlisted.sound hs), seenNumber, hlisted.counter_key,
      listed_storedNumber]
    exact ⟨h.number, h.counted⟩
  have hfind := (unnumbered_iff h.enabled hs).mpr h.unnumbered
  rw [savePair_eq h.enabled, if_pos h.recorded]
  unfold indexPair numbered listed at *
  generalize (s.recorded record).loadPairIndex record.local_mac = index at hfind hassign ⊢
  obtain ⟨loaded, t⟩ := index
  dsimp only at hfind hassign ⊢
  rw [hfind]
  generalize t.assignPairSeq record.local_mac = assigned at hassign ⊢
  obtain ⟨number, u⟩ := assigned
  obtain rfl : number = some seq := hassign
  rfl

/-- A save that assigns no number keeps the index. -/
theorem savePair_unassigned (hs : s.CacheSound) (h : ∀ seq, ¬ s.AssignsNumber record seq) :
    IndexKept record.local_mac record.peer_mac s (s.savePair record).2 := by
  have hrecorded := s.recorded_same record
  have hlisted := s.listed_same record
  by_cases hon : s.enabled = true
  swap
  · unfold savePair
    rw [if_pos (by simpa using hon)]
    exact .of_same rfl
  rw [savePair_eq hon]
  split
  swap
  · exact .of_same hrecorded.index
  rename_i hwrites
  cases hfind : (((s.recorded record).loadPairIndex record.local_mac).1.getD []).find?
      fun e => e.peer_mac = record.peer_mac && e.valid && e.pair_seq != 0 with
  | none =>
    have hnone : ((s.listed record).assignPairSeq record.local_mac).1 = none := by
      cases hassign : ((s.listed record).assignPairSeq record.local_mac).1 with
      | none => rfl
      | some seq =>
        rw [assignPairSeq_seen (hlisted.enabled.trans hon) (hlisted.sound hs), seenNumber, hlisted.counter_key,
          listed_storedNumber] at hassign
        exact absurd ⟨hon, hwrites, (unnumbered_iff hon hs).mp hfind, hassign.1, hassign.2⟩ (h seq)
    have hindex : ((s.recorded record).indexPair record.local_mac record.peer_mac).2 = s.numbered record := by
      unfold indexPair numbered listed at *
      generalize (s.recorded record).loadPairIndex record.local_mac = index at hfind hnone ⊢
      obtain ⟨loaded, t⟩ := index
      dsimp only at hfind hnone ⊢
      rw [hfind]
      generalize t.assignPairSeq record.local_mac = assigned at hnone ⊢
      obtain ⟨number, u⟩ := assigned
      obtain rfl : number = none := hnone
      rfl
    rw [hindex]
    exact .of_same (s.numbered_same record).index
  | some e =>
    have hindex : (s.recorded record).indexPair record.local_mac record.peer_mac =
        (s.listed record).upsertPairIndexEntry record.local_mac record.peer_mac e.pair_seq := by
      unfold indexPair listed
      generalize (s.recorded record).loadPairIndex record.local_mac = index at hfind ⊢
      obtain ⟨loaded, t⟩ := index
      dsimp only at hfind ⊢
      rw [hfind]
    have hmem := List.mem_of_find?_eq_some hfind
    have hfound : ¬ (s.listed record).Misses ((s.listed record).pairIndexKey record.local_mac) := by
      rw [hlisted.index_key, ← hrecorded.index_key]
      cases hloaded : ((s.recorded record).loadPairIndex record.local_mac).1 with
      | none =>
        rw [hloaded] at hmem
        cases hmem
      | some xs => exact loadPairIndex_known hloaded
    have hentry : ⟨record.peer_mac, e.pair_seq, true⟩ ∈ (s.listed record).storedIndex record.local_mac := by
      rw [loadPairIndex_seen (hrecorded.enabled.trans hon) (hrecorded.sound hs)] at hmem
      have hvalid := List.find?_some hfind
      obtain ⟨mac, number, valid⟩ := e
      simp only [Bool.and_eq_true, decide_eq_true_eq] at hvalid
      obtain ⟨⟨rfl, rfl⟩, -⟩ := hvalid
      rw [hlisted.index, ← hrecorded.index]
      exact mem_of_seen hmem
    rw [hindex]
    exact (upsertPairIndexEntry_again (hlisted.enabled.trans hon) (hlisted.sound hs) hfound hentry).of_index
      hlisted.index

theorem savePair_kept_iff (hs : s.CacheSound) :
    IndexKept record.local_mac record.peer_mac s (s.savePair record).2 ↔ s.UpdatesSafely record := by
  by_cases hassigns : ∃ seq, s.AssignsNumber record seq
  · obtain ⟨seq, hseq⟩ := hassigns
    have hsame := s.numbered_same record
    have hsafe : (s.numbered record).EntersSafely (s.numbered record) record.local_mac record.peer_mac seq ↔
        s.EntersSafely (s.numbered record) record.local_mac record.peer_mac seq := by
      unfold EntersSafely
      rw [otherEntries_congr hsame.index, hsame.index, hsame.index_key]
    have hback : IndexKept record.local_mac record.peer_mac s (s.savePair record).2 ↔
        IndexKept record.local_mac record.peer_mac (s.numbered record) (s.savePair record).2 :=
      ⟨fun hkept => hkept.of_index hsame.index.symm, fun hkept => hkept.of_index hsame.index⟩
    rw [hback, savePair_assigned hs hseq,
      upsertPairIndexEntry_kept_iff (hsame.enabled.trans hseq.enabled) (hsame.sound hs), hsafe]
    constructor
    · intro h number hnumber
      obtain rfl : number = seq := hnumber.number.trans hseq.number.symm
      exact h
    · exact fun h => h seq hseq
  · rw [not_exists] at hassigns
    exact iff_of_true (savePair_unassigned hs hassigns) fun seq h => absurd h (hassigns seq)

end Saves

section Erasures

variable {s : PairingStore}

/-- Erasing a pair takes the peer's entries out of the index, or leaves them. -/
theorem erasePair_others (hs : s.CacheSound) (localMac peer : MacAddress) :
    (s.erasePair localMac peer).2.otherEntries localMac peer = s.otherEntries localMac peer := by
  unfold erasePair
  split
  · rfl
  · have herase := s.eraseBlobIfExists_frame (s.makeKey .Pair localMac peer)
    have hindex := storedIndex_frame herase localMac (s.indexKey_not_pair localMac _ _)
    refine Eq.trans ?_ (otherEntries_congr hindex)
    rcases removePairIndexEntry_stored (herase.sound hs) localMac peer with hsame | hfiltered
    · exact otherEntries_congr hsame
    · unfold otherEntries
      rw [hfiltered, List.filter_filter]
      simp

theorem after_sound (event : StoreEvent) (hs : s.CacheSound) : (s.after event).CacheSound := by
  cases event with
  | perform op =>
    change (s.perform op).2.CacheSound
    rw [← ofOp_run (.refl s)]
    refine Framework.Program.run_invariant (fun c t ht => ?_) _ hs
    cases c with
    | get key => exact (getBlobCached_frame t key).1.sound ht
    | put key data => exact (putBlobIfChanged_frame t key data).1.sound ht
    | erase key => exact (eraseBlobIfExists_frame t key).sound ht
  | reboot =>
    intro k e he
    rw [show (s.after .reboot).blob_cache = ∅ from rfl, AList.lookup_empty] at he
    cases he

theorem afterAll_sound (events : List StoreEvent) (hs : s.CacheSound) : (s.afterAll events).CacheSound := by
  induction events generalizing s with
  | nil => exact hs
  | cons event events ih => exact ih (after_sound event hs)

theorem fresh_sound (config : PersistenceConfig) (has_backend : Bool) (backend : Backend) :
    (fresh config has_backend backend).CacheSound := by
  intro k e he
  rw [show (fresh config has_backend backend).blob_cache = ∅ from rfl, AList.lookup_empty] at he
  cases he

end Erasures

end PairingStore

/-- In every store that operations and restarts lead to, whatever its backend holds and whichever of its
calls fail, erasing a pair keeps the index entries of the other peers, and saving one keeps them and gives
no number twice exactly when the update of the index is safe. -/
theorem index_updates_keep_others_iff (config : PersistenceConfig) (has_backend : Bool) (backend : Backend)
    (events : List StoreEvent) :
    let s := (PairingStore.fresh config has_backend backend).afterAll events
    (∀ localMac peer,
      (s.erasePair localMac peer).2.otherEntries localMac peer = s.otherEntries localMac peer) ∧
    ∀ record, PairingStore.IndexKept record.local_mac record.peer_mac s (s.savePair record).2 ↔
      s.UpdatesSafely record := by
  intro s
  have hs : s.CacheSound := PairingStore.afterAll_sound events (PairingStore.fresh_sound _ _ _)
  exact ⟨PairingStore.erasePair_others hs, fun record => PairingStore.savePair_kept_iff hs⟩

/-- A store after its start whose backend holds one peer in the index. -/
def onePeer (fate : Nat → Bool) : PairingStore :=
  let s := PairingStore.fresh ⟨true, 1⟩ true ⟨fun _ => none, fate, 0⟩
  PairingStore.fresh ⟨true, 1⟩ true ⟨Function.update (Function.update (fun _ => none)
    (s.pairIndexKey zeroMac) (some (pairIndexBlob [⟨Vector.replicate 6 1, 1, true⟩])))
    (s.pairSeqCounterKey zeroMac) (some (pairSeqBlob 2)), fate, 0⟩

def secondPair : PairRecord := ⟨true, 1, zeroMac, Vector.replicate 6 2, Vector.replicate 16 7, 3⟩

/-- One read that fails while another peer is paired: of the index, and the first peer is gone from it; of
the counter, and both peers have one number. -/
theorem failed_read_loses_peer :
    ((onePeer fun n => n != 2).storedIndex zeroMac = [⟨Vector.replicate 6 1, 1, true⟩] ∧
      ((onePeer fun n => n != 2).savePair secondPair).2.storedIndex zeroMac =
        [⟨Vector.replicate 6 2, 2, true⟩] ∧
      ¬ PairingStore.IndexKept zeroMac secondPair.peer_mac (onePeer fun n => n != 2)
        ((onePeer fun n => n != 2).savePair secondPair).2) ∧
    (((onePeer fun n => n != 3).savePair secondPair).2.storedIndex zeroMac =
        [⟨Vector.replicate 6 1, 1, true⟩, ⟨Vector.replicate 6 2, 1, true⟩] ∧
      ¬ PairingStore.IndexKept zeroMac secondPair.peer_mac (onePeer fun n => n != 3)
        ((onePeer fun n => n != 3).savePair secondPair).2) := by
  refine ⟨⟨by decide +kernel, by decide +kernel, fun h => ?_⟩, by decide +kernel, fun h => ?_⟩
  · have hlost : ((onePeer fun n => n != 2).savePair secondPair).2.otherEntries zeroMac secondPair.peer_mac ≠
        (onePeer fun n => n != 2).otherEntries zeroMac secondPair.peer_mac := by decide +kernel
    exact hlost h.others
  · exact h.number ⟨Vector.replicate 6 2, 1, true⟩ (by decide +kernel) rfl (by decide +kernel)
      ⟨Vector.replicate 6 1, 1, true⟩ (by decide +kernel) rfl

end EspNowLink
