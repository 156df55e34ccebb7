import EspNowLink.Platform.StorePrograms

namespace EspNowLink

open Framework

/-- What an entry says that the backend holds. -/
def BlobCacheEntry.content (e : BlobCacheEntry) : Option Bytes :=
  if e.existing then some e.value else none

namespace PairingStore

/-- What the cache knows of a key, a value or its absence, is what the backend holds. -/
def CacheExact (s : PairingStore) : Prop :=
  ∀ key e, s.blob_cache.lookup key = some e → e.known = true → s.backend.blobs key = e.content

/-- What `putBlobIfChanged` compares its data with. -/
def blobToReplace (s : PairingStore) (key : BlobKey) : Option Bytes :=
  match (s.cachedBlob key).filter (·.existing) with
  | some entry => some entry.value
  | none => (s.backend.getBlob key).1

/-- What `eraseBlobIfExists` takes the key to hold. -/
def blobToErase (s : PairingStore) (key : BlobKey) : Option Bytes :=
  match s.cachedBlob key with
  | some entry => entry.content
  | none => (s.backend.getBlob key).1

/-- The access reads the backend, which it does first. -/
def readsBackend : BlobCall → PairingStore → Bool
  | .get key, s => s.enabled && (s.cachedBlob key).isNone
  | .put key data, s =>
    s.enabled && !data.isEmpty && ((s.cachedBlob key).filter (·.existing)).isNone
  | .erase key, s => s.enabled && (s.cachedBlob key).isNone

/-- The access puts or erases a blob of the backend. -/
def writesBackend : BlobCall → PairingStore → Bool
  | .get _, _ => false
  | .put key data, s => s.enabled && !data.isEmpty && s.blobToReplace key != some data
  | .erase key, s => s.enabled && (s.blobToErase key).isSome

def ReadSucceeds (c : BlobCall) (s : PairingStore) : Prop :=
  readsBackend c s = true → s.backend.fate s.backend.calls = true

instance (c : BlobCall) (s : PairingStore) : Decidable (ReadSucceeds c s) :=
  inferInstanceAs (Decidable (_ → _))

/-- Whether the put or erase of the access succeeds, if it makes one. -/
def writeFate (c : BlobCall) (s : PairingStore) : List Bool :=
  if writesBackend c s then [s.backend.fate (s.backend.calls + (readsBackend c s).toNat)] else []

/-- The backend's put or erase, and the mark it leaves when it succeeds. -/
def writeThrough (s : PairingStore) (key : BlobKey) (value : Option Bytes) : Bool × PairingStore :=
  if s.backend.fate s.backend.calls then
    (true, ({ s with backend := { s.backend with
      blobs := Function.update s.backend.blobs key value
      calls := s.backend.calls + 1 } }).rememberBlob key value)
  else (false, { s with backend := { s.backend with calls := s.backend.calls + 1 } })

theorem storeBlob_eq (s : PairingStore) (key : BlobKey) (data : Bytes) :
    s.storeBlob key data = s.writeThrough key (some data) := by
  unfold storeBlob writeThrough Backend.putBlob
  by_cases hok : s.backend.fate s.backend.calls = true
  · simp only [hok, if_true]
  · simp only [hok, if_false, Bool.false_eq_true]

theorem eraseKnownBlob_eq (s : PairingStore) (key : BlobKey) :
    s.eraseKnownBlob key = s.writeThrough key none := by
  unfold eraseKnownBlob writeThrough Backend.eraseKey
  by_cases hok : s.backend.fate s.backend.calls = true
  · simp only [hok, if_true]
  · simp only [hok, if_false, Bool.false_eq_true]

section Exact

variable {s : PairingStore} {key : BlobKey}

theorem CacheExact.cached (h : s.CacheExact) {e : BlobCacheEntry} (hc : s.cachedBlob key = some e) :
    s.backend.blobs key = e.content := by
  obtain ⟨hlookup, hknown⟩ := cachedBlob_lookup hc
  exact h key e hlookup hknown

theorem rememberBlob_exact {value : Option Bytes}
    (hother : ∀ k e, k ≠ key → s.blob_cache.lookup k = some e → e.known = true →
      s.backend.blobs k = e.content)
    (hvalue : s.backend.blobs key = value) : (s.rememberBlob key value).CacheExact := by
  intro k e hk hknown
  have hk' := evictLoop_lookup _ _ _ _ hk
  rw [rememberBlob_backend]
  rcases markUsed_entry hk' with ⟨rfl, n, rfl⟩ | ⟨hne, old, n, hold, rfl⟩
  · rw [hvalue]
    cases value <;> rfl
  · exact hother k old hne hold hknown

theorem markUsed_exact (h : s.CacheExact) {e : BlobCacheEntry} (hc : s.cachedBlob key = some e) :
    (s.markBlobCacheEntryUsed key e).CacheExact := by
  intro k e' hk hknown
  rw [markUsed_backend]
  rcases markUsed_entry hk with ⟨rfl, n, rfl⟩ | ⟨hne, old, n, hold, rfl⟩
  · have hblob := h.cached hc
    exact hblob
  · exact h k old hold hknown

variable (key) in
/-- A read that succeeds, remembered. -/
theorem readBlob_exact (h : s.CacheExact) (hread : s.backend.fate s.backend.calls = true) :
    (s.backend.getBlob key).1 = s.backend.blobs key ∧
      (({ s with backend := (s.backend.getBlob key).2 }).rememberBlob key
        (s.backend.getBlob key).1).CacheExact := by
  have hfound : (s.backend.getBlob key).1 = s.backend.blobs key := if_pos hread
  refine ⟨hfound, rememberBlob_exact (fun k e _ => h k e) ?_⟩
  exact hfound.symm

variable (key) in
/-- A write leaves the cache exact whether it succeeds or not. -/
theorem writeThrough_exact (h : s.CacheExact) (value : Option Bytes) :
    (s.writeThrough key value).2.CacheExact := by
  unfold writeThrough
  split
  · refine rememberBlob_exact (fun k e hne hk hknown => ?_) (Function.update_self ..)
    change Function.update s.backend.blobs key value k = e.content
    rw [Function.update_of_ne hne]
    exact h k e hk hknown
  · exact h

theorem writeThrough_blobs (s : PairingStore) (key : BlobKey) (value : Option Bytes) :
    (s.writeThrough key value).1 = s.backend.fate s.backend.calls ∧
      (s.writeThrough key value).2.backend.blobs = if s.backend.fate s.backend.calls then
        Function.update s.backend.blobs key value else s.backend.blobs := by
  unfold writeThrough
  split
  · rename_i hok
    exact ⟨hok.symm, rfl⟩
  · rename_i hfail
    exact ⟨(Bool.not_eq_true _ ▸ hfail).symm, rfl⟩

theorem writeThrough_enabled (s : PairingStore) (key : BlobKey) (value : Option Bytes) :
    (s.writeThrough key value).2.enabled = s.enabled := by
  unfold writeThrough
  split <;> rfl

end Exact

end PairingStore

/-- The backend by itself. -/
structure PlainStore where
  enabled : Bool
  blobs : BlobKey → Option Bytes

namespace PlainStore

/-- A put or erase of the backend, which succeeds or fails as the list says. -/
def write (p : PlainStore) (key : BlobKey) (value : Option Bytes) :
    List Bool → Bool × (PlainStore × List Bool)
  | true :: fates => (true, ({ p with blobs := Function.update p.blobs key value }, fates))
  | false :: fates => (false, (p, fates))
  | [] => (false, (p, []))

/-- A blob access, carried out on the backend. -/
def blobStep : (c : BlobCall) → PlainStore × List Bool → c.Answer × (PlainStore × List Bool)
  | .get key, (p, fates) => (if p.enabled then p.blobs key else none, (p, fates))
  | .put key data, (p, fates) =>
    if !p.enabled || data.isEmpty then (false, (p, fates))
    else if p.blobs key = some data then (true, (p, fates))
    else p.write key (some data) fates
  | .erase key, (p, fates) =>
    if !p.enabled then (false, (p, fates))
    else if p.blobs key = none then (true, (p, fates))
    else p.write key none fates

end PlainStore

/-- The plain store holds what the backend of the cached one holds, which its cache knows. -/
structure PairingStore.Mirrors (s : PairingStore) (p : PlainStore) : Prop where
  enabled : p.enabled = s.enabled
  blobs : p.blobs = s.backend.blobs
  exact : s.CacheExact

namespace PairingStore

variable {s : PairingStore} {p : PlainStore} {key : BlobKey}

theorem Mirrors.write (h : s.Mirrors p) (key : BlobKey) (value : Option Bytes) (rest : List Bool) :
    ∃ p', p.write key value (s.backend.fate s.backend.calls :: rest) =
      ((s.writeThrough key value).1, (p', rest)) ∧ (s.writeThrough key value).2.Mirrors p' := by
  obtain ⟨hok, hblobs⟩ := s.writeThrough_blobs key value
  have hexact := writeThrough_exact key h.exact value
  have henabled := h.enabled.trans (s.writeThrough_enabled key value).symm
  rw [hok]
  cases hfate : s.backend.fate s.backend.calls with
  | true =>
    rw [hfate, if_pos rfl, ← h.blobs] at hblobs
    exact ⟨_, rfl, henabled, hblobs.symm, hexact⟩
  | false =>
    rw [hfate, if_neg Bool.false_ne_true, ← h.blobs] at hblobs
    exact ⟨_, rfl, henabled, hblobs.symm, hexact⟩

variable (key) in
theorem Mirrors.read (h : s.Mirrors p) (hread : s.backend.fate s.backend.calls = true) :
    (s.backend.getBlob key).1 = p.blobs key ∧
      (({ s with backend := (s.backend.getBlob key).2 }).rememberBlob key
        (s.backend.getBlob key).1).Mirrors p := by
  obtain ⟨hfound, hexact⟩ := readBlob_exact key h.exact hread
  exact ⟨hfound.trans (congrFun h.blobs key).symm, h.enabled, h.blobs, hexact⟩

theorem Mirrors.mark (h : s.Mirrors p) {e : BlobCacheEntry} (hc : s.cachedBlob key = some e) :
    p.blobs key = e.content ∧ (s.markBlobCacheEntryUsed key e).Mirrors p := by
  refine ⟨?_, h.enabled, h.blobs, markUsed_exact h.exact hc⟩
  rw [h.blobs]
  exact h.exact.cached hc

theorem getBlobCached_replays (h : s.Mirrors p) (hread : ReadSucceeds (.get key) s) :
    (s.getBlobCached key).1 = (if p.enabled then p.blobs key else none) ∧
      (s.getBlobCached key).2.Mirrors p := by
  unfold getBlobCached
  rw [h.enabled]
  cases hon : s.enabled with
  | false => exact ⟨rfl, h⟩
  | true =>
    simp only [Bool.not_true, Bool.false_eq_true, if_false, if_true]
    cases hc : s.cachedBlob key with
    | some e =>
      obtain ⟨hblob, hmark⟩ := h.mark hc
      exact ⟨hblob.symm, hmark⟩
    | none =>
      have hfate : s.backend.fate s.backend.calls = true := hread (by simp [readsBackend, hon, hc])
      exact h.read key hfate

theorem putBlobIfChanged_replays {data : Bytes} (h : s.Mirrors p)
    (hread : ReadSucceeds (.put key data) s) (rest : List Bool) :
    ∃ p', PlainStore.blobStep (.put key data) (p, writeFate (.put key data) s ++ rest) =
      ((s.putBlobIfChanged key data).1, (p', rest)) ∧ (s.putBlobIfChanged key data).2.Mirrors p' := by
  unfold putBlobIfChanged
  by_cases hskip : (!s.enabled || data.isEmpty) = true
  · have hfate : writeFate (.put key data) s = [] := by
      rcases Bool.or_eq_true_iff.mp hskip with hoff | hempty
      · simp_all [writeFate, writesBackend]
      · simp_all [writeFate, writesBackend]
    refine ⟨p, ?_, by rw [if_pos hskip]; exact h⟩
    rw [PlainStore.blobStep, hfate, h.enabled, if_pos hskip, if_pos hskip]
    rfl
  · have hon : s.enabled = true ∧ data.isEmpty = false := by simpa using hskip
    rw [if_neg hskip, PlainStore.blobStep, h.enabled, if_neg hskip]
    cases hc : (s.cachedBlob key).filter (·.existing) with
    | some e =>
      obtain ⟨hcached, hexisting⟩ := Option.filter_eq_some_iff.mp hc
      obtain ⟨hblob, hmark⟩ := h.mark hcached
      have hcontent : e.content = some e.value := if_pos hexisting
      have hreplace : s.blobToReplace key = some e.value := by
        rw [blobToReplace, hc]
      rw [hblob, hcontent]
      dsimp only
      by_cases hsame : e.value = data
      · have hfate : writeFate (.put key data) s = [] := by
          simp [writeFate, writesBackend, hreplace, hsame]
        rw [if_pos hsame, if_pos (congrArg some hsame), hfate]
        exact ⟨p, rfl, hmark⟩
      · have hfate : writeFate (.put key data) s = [s.backend.fate s.backend.calls] := by
          simp [writeFate, writesBackend, readsBackend, hreplace, hsame, hon, hc]
        rw [if_neg hsame, if_neg (fun heq => hsame (Option.some.inj heq)), hfate, storeBlob_eq]
        exact hmark.write key (some data) rest
    | none =>
      have hreads : readsBackend (.put key data) s = true := by simp [readsBackend, hon, hc]
      obtain ⟨hfound, hknown⟩ := h.read key (hread hreads)
      have hreplace : s.blobToReplace key = p.blobs key := by
        rw [blobToReplace, hc, ← hfound]
      dsimp only
      rw [hfound] at hknown ⊢
      by_cases hsame : p.blobs key = some data
      · have hfate : writeFate (.put key data) s = [] := by
          simp [writeFate, writesBackend, hreplace, hsame]
        rw [if_pos hsame, if_pos hsame, hfate]
        exact ⟨p, rfl, hknown⟩
      · have hfate : writeFate (.put key data) s = [s.backend.fate (s.backend.calls + 1)] := by
          simp [writeFate, writesBackend, hreads, hreplace, hsame, hon]
        rw [if_neg hsame, if_neg hsame, hfate, storeBlob_eq]
        exact hknown.write key (some data) rest

theorem eraseBlobIfExists_replays (h : s.Mirrors p) (hread : ReadSucceeds (.erase key) s)
    (rest : List Bool) :
    ∃ p', PlainStore.blobStep (.erase key) (p, writeFate (.erase key) s ++ rest) =
      ((s.eraseBlobIfExists key).1, (p', rest)) ∧ (s.eraseBlobIfExists key).2.Mirrors p' := by
  unfold eraseBlobIfExists
  rw [PlainStore.blobStep, h.enabled]
  cases hon : s.enabled with
  | false =>
    have hfate : writeFate (.erase key) s = [] := by simp [writeFate, writesBackend, hon]
    rw [hfate]
    exact ⟨p, rfl, h⟩
  | true =>
    simp only [Bool.not_true, Bool.false_eq_true, if_false]
    cases hc : s.cachedBlob key with
    | some e =>
      obtain ⟨hblob, hmark⟩ := h.mark hc
      have herase : s.blobToErase key = e.content := by rw [blobToErase, hc]
      rw [hblob]
      dsimp only
      cases he : e.existing with
      | true =>
        have hcontent : e.content = some e.value := if_pos he
        have hfate : writeFate (.erase key) s = [s.backend.fate s.backend.calls] := by
          simp [writeFate, writesBackend, readsBackend, herase, hcontent, hon, hc]
        rw [if_pos rfl, hfate, eraseKnownBlob_eq, hcontent, if_neg (by simp)]
        exact h.write key none rest
      | false =>
        have hcontent : e.content = none := if_neg (by simp [he])
        have hfate : writeFate (.erase key) s = [] := by
          simp [writeFate, writesBackend, herase, hcontent]
        rw [hfate, hcontent, if_pos rfl, if_neg Bool.false_ne_true]
        exact ⟨p, rfl, hmark⟩
    | none =>
      have hreads : readsBackend (.erase key) s = true := by simp [readsBackend, hon, hc]
      obtain ⟨hfound, hknown⟩ := h.read key (hread hreads)
      have herase : s.blobToErase key = p.blobs key := by rw [blobToErase, hc, ← hfound]
      have hskipped : ({ s with backend := (s.backend.getBlob key).2 } : PairingStore).Mirrors p :=
        ⟨h.enabled, h.blobs, h.exact⟩
      dsimp only
      rw [hfound] at hknown ⊢
      cases hblob : p.blobs key with
      | none =>
        have hfate : writeFate (.erase key) s = [] := by
          simp [writeFate, writesBackend, herase, hblob]
        rw [hblob] at hknown
        rw [hfate, if_pos rfl]
        exact ⟨p, rfl, hknown⟩
      | some data =>
        have hfate : writeFate (.erase key) s = [s.backend.fate (s.backend.calls + 1)] := by
          simp [writeFate, writesBackend, hreads, herase, hblob, hon]
        rw [hfate, if_neg (by simp), if_neg (by simp), eraseKnownBlob_eq]
        exact hskipped.write key none rest

/-- One access through the cache is the access of the backend. -/
theorem blobStep_replays (c : BlobCall) (s : PairingStore) (p : PlainStore) (rest : List Bool)
    (h : s.Mirrors p) (hread : ReadSucceeds c s) :
    ∃ p', PlainStore.blobStep c (p, writeFate c s ++ rest) = ((blobStep c s).1, (p', rest)) ∧
      (blobStep c s).2.Mirrors p' := by
  cases c with
  | get key =>
    obtain ⟨hvalue, hmirrors⟩ := getBlobCached_replays h hread
    refine ⟨p, ?_, hmirrors⟩
    rw [blobStep, hvalue]
    rfl
  | put key data => exact putBlobIfChanged_replays h hread rest
  | erase key => exact eraseBlobIfExists_replays h hread rest

/-- A store as its constructor makes it. -/
def fresh (config : PersistenceConfig) (has_backend : Bool) (backend : Backend) : PairingStore where
  config := config
  has_backend := has_backend
  backend := backend
  blob_cache := ∅
  blob_cache_access_seq := 0

/-- Along the operations only puts and erases of the backend fail. -/
def OnlyWritesFail (s : PairingStore) (ops : List StoreOp) : Prop :=
  (StoreProgram.ofOps s ops).Along blobStep ReadSucceeds s

instance (s : PairingStore) (ops : List StoreOp) : Decidable (s.OnlyWritesFail ops) :=
  inferInstanceAs (Decidable (Program.Along _ _ _ _))

/-- Which puts and erases of the backend succeed, in the order in which the operations make them. -/
def writeFates (s : PairingStore) (ops : List StoreOp) : List Bool :=
  (StoreProgram.ofOps s ops).trace blobStep writeFate s

end PairingStore

/-- Through the cache every operation gives what it gives on the backend, whichever puts and erases
fail, and after any of them the cache knows of a key only what the backend holds. -/
theorem cache_refines_backend (config : PersistenceConfig) (has_backend : Bool) (backend : Backend)
    (ops : List StoreOp) (hreads : (PairingStore.fresh config has_backend backend).OnlyWritesFail ops) :
    let s := PairingStore.fresh config has_backend backend
    (StoreProgram.ofOps s ops).run PlainStore.blobStep
        (⟨s.enabled, backend.blobs⟩, s.writeFates ops) =
      ((s.performAll ops).1,
        (⟨(s.performAll ops).2.enabled, (s.performAll ops).2.backend.blobs⟩, [])) ∧
    (s.performAll ops).2.CacheExact := by
  intro s
  have hstart : s.Mirrors ⟨s.enabled, backend.blobs⟩ := by
    refine ⟨rfl, rfl, fun key e he => ?_⟩
    rw [show s.blob_cache = ∅ from rfl, AList.lookup_empty] at he
    cases he
  obtain ⟨p, hrun, hmirrors⟩ := Program.run_replays PairingStore.blobStep_replays
    (StoreProgram.ofOps s ops) [] hstart hreads
  rw [PairingStore.ofOps_run (.refl s), List.append_nil] at hrun
  rw [PairingStore.ofOps_run (.refl s)] at hmirrors
  refine ⟨?_, hmirrors.exact⟩
  rw [← hmirrors.enabled, ← hmirrors.blobs]
  exact hrun

/-- The record of a pair is saved, its index is not, and the record is erased again. -/
theorem cache_refines_backend_failed_index :
    let backend : Backend := ⟨fun _ => none, fun n => n != 7, 0⟩
    let s := PairingStore.fresh ⟨true, 1⟩ true backend
    let peer : MacAddress := Vector.replicate 6 1
    let ops := [StoreOp.savePair ⟨true, 1, zeroMac, peer, Vector.replicate 16 7, 3⟩,
      .loadPair zeroMac peer, .erasePair zeroMac peer]
    s.writeFates ops = [true, true, false, true] ∧
    (StoreProgram.ofOps s ops).run PlainStore.blobStep
        (⟨s.enabled, backend.blobs⟩, s.writeFates ops) =
      ((s.performAll ops).1,
        (⟨(s.performAll ops).2.enabled, (s.performAll ops).2.backend.blobs⟩, [])) ∧
    (s.performAll ops).2.CacheExact :=
  ⟨by decide +kernel, cache_refines_backend _ _ _ _ (by decide +kernel)⟩

end EspNowLink
