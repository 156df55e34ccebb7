import EspNowLink.Platform.CacheRefinement

namespace EspNowLink

namespace PairingStore

section Eviction

theorem oldestKey_ne {preserve key : BlobKey} {es : List (Sigma fun _ : BlobKey => BlobCacheEntry)}
    (h : oldestKey preserve es = some key) : key ≠ preserve := by
  unfold oldestKey at h
  obtain ⟨b, hb, rfl⟩ := Option.map_eq_some_iff.mp h
  -- the loop only ever holds entries of other keys
  refine List.foldlRecOn (motive := fun best : Option (BlobKey × UInt32) =>
    ∀ b, best = some b → b.1 ≠ preserve) es _ (fun b h => by cases h) ?_ b hb
  intro best hbest e _ b hb
  split at hb
  · exact hbest b hb
  · rename_i hne
    cases best with
    | none =>
      obtain rfl := Option.some.inj hb
      exact hne
    | some old =>
      dsimp only at hb
      split at hb
      · obtain rfl := Option.some.inj hb
        exact hne
      · exact hbest b hb

/-- The eviction keeps the entry that was just used. -/
theorem evictLoop_keeps (preserve : BlobKey) (n : Nat) (cache : BlobCache) :
    (evictLoop preserve n cache).lookup preserve = cache.lookup preserve := by
  induction n generalizing cache with
  | zero => rfl
  | succ n ih =>
    unfold evictLoop
    split
    · cases hold : oldestKey preserve cache.entries with
      | none => rfl
      | some old =>
        dsimp only
        rw [ih, AList.lookup_erase_ne (oldestKey_ne hold).symm]
    · rfl

end Eviction

/-- The put or erase that the access makes of the backend, if it makes one, succeeds. -/
def WriteSucceeds (c : BlobCall) (s : PairingStore) : Prop :=
  writesBackend c s = true →
    s.backend.fate (s.backend.calls + (readsBackend c s).toNat) = true

instance (c : BlobCall) (s : PairingStore) : Decidable (WriteSucceeds c s) :=
  inferInstanceAs (Decidable (_ → _))

section Outcomes

variable {s : PairingStore} {key : BlobKey}

theorem markUsed_cachedBlob (s : PairingStore) (key : BlobKey) {e : BlobCacheEntry} (h : e.known = true) :
    ∃ n, (s.markBlobCacheEntryUsed key e).cachedBlob key = some { e with last_used := n } := by
  refine ⟨(s.markBlobCacheEntryUsed key e).blob_cache_access_seq, ?_⟩
  simp [cachedBlob, markBlobCacheEntryUsed, h]

theorem rememberBlob_cachedBlob (s : PairingStore) (key : BlobKey) (value : Option Bytes) :
    ∃ e, (s.rememberBlob key value).cachedBlob key = some e ∧ e.content = value := by
  let e : BlobCacheEntry :=
    { known := true, existing := value.isSome, value := value.getD [], last_used := 0 }
  obtain ⟨n, hcached⟩ := s.markUsed_cachedBlob key (e := e) rfl
  refine ⟨{ e with last_used := n }, ?_, ?_⟩
  · rw [← hcached]
    unfold rememberBlob enforceBlobCacheLimit cachedBlob
    exact congrArg (Option.filter _) (evictLoop_keeps key _ _)
  · cases value <;> rfl

theorem writeThrough_failed {value : Option Bytes} (h : (s.writeThrough key value).1 = false) :
    (s.writeThrough key value).2.backend.blobs = s.backend.blobs := by
  obtain ⟨hok, hblobs⟩ := s.writeThrough_blobs key value
  rw [hok] at h
  rw [hblobs, h, if_neg Bool.false_ne_true]

variable (key) in
/-- A put reports success where the write that it makes succeeds; one that fails changes no blob. -/
theorem putBlobIfChanged_outcome {data : Bytes} (hon : s.enabled = true) (hdata : data.isEmpty = false) :
    ((s.putBlobIfChanged key data).1 = true ↔ WriteSucceeds (.put key data) s) ∧
      ((s.putBlobIfChanged key data).1 = false →
        (s.putBlobIfChanged key data).2.backend.blobs = s.backend.blobs) := by
  unfold putBlobIfChanged WriteSucceeds
  have hwrites : writesBackend (.put key data) s = (s.blobToReplace key != some data) := by
    simp [writesBackend, hon, hdata]
  rw [if_neg (by simp [hon, hdata]), hwrites]
  cases hc : (s.cachedBlob key).filter (·.existing) with
  | some e =>
    have hreplace : s.blobToReplace key = some e.value := by rw [blobToReplace, hc]
    have hreads : readsBackend (.put key data) s = false := by simp [readsBackend, hc]
    rw [hreplace, hreads]
    dsimp only
    by_cases hsame : e.value = data
    · simp [hsame]
    · rw [if_neg hsame, storeBlob_eq]
      obtain ⟨hok, -⟩ := (s.markBlobCacheEntryUsed key e).writeThrough_blobs key (some data)
      refine ⟨?_, writeThrough_failed⟩
      rw [hok]
      simp [hsame]
  | none =>
    have hreplace : s.blobToReplace key = (s.backend.getBlob key).1 := by rw [blobToReplace, hc]
    have hreads : readsBackend (.put key data) s = true := by simp [readsBackend, hon, hdata, hc]
    rw [hreplace, hreads]
    dsimp only
    by_cases hsame : (s.backend.getBlob key).1 = some data
    · simp [hsame]
    · rw [if_neg hsame, storeBlob_eq]
      obtain ⟨hok, -⟩ := (({ s with backend := (s.backend.getBlob key).2 }).rememberBlob key
        (s.backend.getBlob key).1).writeThrough_blobs key (some data)
      have hnew : ((s.backend.getBlob key).1 != some data) = true := by simpa using hsame
      refine ⟨?_, writeThrough_failed⟩
      rw [hok]
      exact ⟨fun h _ => h, fun h => h hnew⟩

/-- A blob is read, and erased if the read finds it. -/
def eraseFound (s : PairingStore) (key : BlobKey) : Bool × PairingStore :=
  let (existing, s) := s.getBlobCached key
  if existing.isSome then s.eraseBlobIfExists key else (true, s)

/-- What a read found is erased from the entry that it left in the cache. -/
theorem eraseBlobIfExists_cached {e : BlobCacheEntry} (hon : s.enabled = true)
    (hc : s.cachedBlob key = some e) (hfound : e.content.isSome) :
    s.eraseBlobIfExists key = s.writeThrough key none := by
  have hexisting : e.existing = true := by
    unfold BlobCacheEntry.content at hfound
    split at hfound
    · assumption
    · cases hfound
  unfold eraseBlobIfExists
  rw [hon, hc, ← eraseKnownBlob_eq]
  simp [hexisting]

variable (key) in
theorem eraseFound_outcome (hon : s.enabled = true) :
    ((s.eraseFound key).1 = true ↔ WriteSucceeds (.erase key) s) ∧
      ((s.eraseFound key).1 = false → (s.eraseFound key).2.backend.blobs = s.backend.blobs) := by
  unfold eraseFound WriteSucceeds
  have hwrites : writesBackend (.erase key) s = (s.blobToErase key).isSome := by
    simp [writesBackend, hon]
  rw [hwrites]
  unfold getBlobCached
  rw [if_neg (by simp [hon])]
  cases hc : s.cachedBlob key with
  | some e =>
    have herase : s.blobToErase key = e.content := by rw [blobToErase, hc]
    have hreads : readsBackend (.erase key) s = false := by simp [readsBackend, hc]
    have hfound : (if e.existing then some e.value else none) = e.content := rfl
    rw [herase, hreads]
    dsimp only
    rw [hfound]
    cases hcontent : e.content.isSome with
    | false => simp
    | true =>
      obtain ⟨n, hmarked⟩ := s.markUsed_cachedBlob key (cachedBlob_lookup hc).2
      rw [if_pos rfl, eraseBlobIfExists_cached (s := s.markBlobCacheEntryUsed key e) hon hmarked hcontent]
      obtain ⟨hok, -⟩ := (s.markBlobCacheEntryUsed key e).writeThrough_blobs key none
      refine ⟨?_, writeThrough_failed⟩
      rw [hok]
      simp
  | none =>
    have herase : s.blobToErase key = (s.backend.getBlob key).1 := by rw [blobToErase, hc]
    have hreads : readsBackend (.erase key) s = true := by simp [readsBackend, hon, hc]
    rw [herase, hreads]
    dsimp only
    cases hfound : (s.backend.getBlob key).1 with
    | none => simp
    | some data =>
      obtain ⟨e, hcached, hcontent⟩ :=
        ({ s with backend := (s.backend.getBlob key).2 }).rememberBlob_cachedBlob key (some data)
      have hsome : e.content.isSome := by rw [hcontent]; rfl
      rw [Option.isSome_some, if_pos rfl, eraseBlobIfExists_cached (by exact hon) hcached hsome]
      obtain ⟨hok, -⟩ := (({ s with backend := (s.backend.getBlob key).2 }).rememberBlob key
        (some data)).writeThrough_blobs key none
      refine ⟨?_, writeThrough_failed⟩
      rw [hok]
      exact ⟨fun h _ => h, fun h => h rfl⟩

end Outcomes

/-- An erasure leaves everything as it was, or takes its key away. -/
theorem eraseBlobIfExists_blobs (s : PairingStore) (key : BlobKey) :
    (s.eraseBlobIfExists key).2.backend.blobs = s.backend.blobs ∨
      (s.eraseBlobIfExists key).2.backend.blobs = Function.update s.backend.blobs key none := by
  have hwrite (u : PairingStore) (hu : u.backend.blobs = s.backend.blobs) :
      (u.eraseKnownBlob key).2.backend.blobs = s.backend.blobs ∨
        (u.eraseKnownBlob key).2.backend.blobs = Function.update s.backend.blobs key none := by
    rw [eraseKnownBlob_eq, (u.writeThrough_blobs key none).2, hu]
    split
    · exact .inr rfl
    · exact .inl rfl
  unfold eraseBlobIfExists
  split
  · exact .inl rfl
  cases s.cachedBlob key with
  | some entry =>
    dsimp only
    split
    · exact hwrite s rfl
    · exact .inl rfl
  | none =>
    dsimp only
    split
    · exact .inl rfl
    · exact hwrite _ rfl

/-- A put leaves everything as it was, or puts its data under its key. -/
theorem putBlobIfChanged_blobs (s : PairingStore) (key : BlobKey) (data : Bytes) :
    (s.putBlobIfChanged key data).2.backend.blobs = s.backend.blobs ∨
      (s.putBlobIfChanged key data).2.backend.blobs =
        Function.update s.backend.blobs key (some data) := by
  have hwrite (u : PairingStore) (hu : u.backend.blobs = s.backend.blobs) :
      (u.storeBlob key data).2.backend.blobs = s.backend.blobs ∨
        (u.storeBlob key data).2.backend.blobs = Function.update s.backend.blobs key (some data) := by
    rw [storeBlob_eq, (u.writeThrough_blobs key (some data)).2, hu]
    split
    · exact .inr rfl
    · exact .inl rfl
  unfold putBlobIfChanged
  split
  · exact .inl rfl
  cases (s.cachedBlob key).filter (·.existing) with
  | some entry =>
    dsimp only
    split
    · exact .inl rfl
    · exact hwrite _ rfl
  | none =>
    dsimp only
    split
    · exact .inl rfl
    · exact hwrite _ rfl

end PairingStore

end EspNowLink
