import EspNowLink.Platform.KeyCollisions
import EspNowLink.Platform.PairIndex

open Framework

namespace EspNowLink

/-- What a backend holds, by itself. -/
abbrev BlobMap := BlobKey → Option Bytes

namespace BlobMap

/-- A blob access where every call of the backend succeeds and nothing is cached. -/
def step : (c : BlobCall) → BlobMap → c.Answer × BlobMap
  | .get key, m => (m key, m)
  | .put key data, m => if data.isEmpty then (false, m) else (true, Function.update m key (some data))
  | .erase key, m => (true, Function.update m key none)

end BlobMap

namespace PairingStore

/-- The store has the keys of `base` and works on a backend that holds `m`, and its cache knows nothing
else. -/
structure Serves (base s : PairingStore) (m : BlobMap) : Prop where
  keys : SameKeys base s
  works : s.Works
  exact : s.CacheExact
  blobs : s.backend.blobs = m

section Steps

variable {base s : PairingStore} {m : BlobMap}

theorem writeFate_works (hs : s.Works) (c : BlobCall) : ∀ ok ∈ writeFate c s, ok = true := by
  intro ok hok
  unfold writeFate at hok
  split at hok
  · rw [List.mem_singleton.mp hok]
    exact hs.2 _
  · cases hok

theorem putBlobIfChanged_works (hs : s.Works) (key : BlobKey) {data : Bytes} (hdata : data.isEmpty = false) :
    (s.putBlobIfChanged key data).1 = true :=
  (putBlobIfChanged_outcome key hs.1 hdata).1.mpr fun _ => hs.2 _

theorem blobToErase_works (hs : s.Works) (hexact : s.CacheExact) (key : BlobKey) :
    s.blobToErase key = s.backend.blobs key := by
  unfold blobToErase
  cases hc : s.cachedBlob key with
  | some entry => exact (hexact.cached hc).symm
  | none =>
    unfold Backend.getBlob
    rw [if_pos (hs.2 _)]

theorem writeFate_erase (hs : s.Works) (hexact : s.CacheExact) {key : BlobKey}
    (hheld : s.backend.blobs key ≠ none) : writeFate (.erase key) s = [true] := by
  have hwrites : writesBackend (.erase key) s = true := by
    rw [writesBackend, hs.1, blobToErase_works hs hexact, Bool.true_and]
    exact Option.isSome_iff_ne_none.mpr hheld
  rw [writeFate, if_pos hwrites, hs.2]

/-- A write that the list lets through. -/
theorem write_true {p t : PlainStore} {key : BlobKey} {value : Option Bytes} {fates rest : List Bool} {ok : Bool}
    (hfates : ∀ fate ∈ fates, fate = true) (hok : ok = true)
    (h : p.write key value fates = (ok, (t, rest))) : t.blobs = Function.update p.blobs key value := by
  cases fates with
  | nil =>
    cases h
    cases hok
  | cons fate fates =>
    obtain rfl := hfates fate (List.mem_cons_self ..)
    cases h
    rfl

/-- An access of a store that works is the access of what its backend holds. -/
theorem Serves.step (c : BlobCall) (s : PairingStore) (m : BlobMap) (h : base.Serves s m) :
    (blobStep c s).1 = (BlobMap.step c m).1 ∧ base.Serves (blobStep c s).2 (BlobMap.step c m).2 := by
  obtain ⟨hkeys, hworks, hexact, rfl⟩ := h
  have hmirrors : s.Mirrors ⟨true, s.backend.blobs⟩ := ⟨hworks.1.symm, rfl, hexact⟩
  obtain ⟨p, hrun, hp⟩ := blobStep_replays c s _ [] hmirrors fun _ => hworks.2 _
  rw [List.append_nil] at hrun
  have hfates := writeFate_works hworks c
  suffices hsuff : (blobStep c s).1 = (BlobMap.step c s.backend.blobs).1 ∧
      p.blobs = (BlobMap.step c s.backend.blobs).2 from
    ⟨hsuff.1, blobStep_keys c s hkeys, hworks.blobStep c, hp.exact, hp.blobs.symm.trans hsuff.2⟩
  cases c with
  | get key =>
    obtain ⟨-, hrest⟩ := Prod.mk.inj hrun
    exact ⟨(KnownAs.of_exact hexact key).loads hworks, congrArg PlainStore.blobs (Prod.mk.inj hrest).1.symm⟩
  | put key data =>
    rw [PlainStore.blobStep] at hrun
    rw [BlobMap.step]
    cases hdata : data.isEmpty with
    | true =>
      rw [if_pos (by simp [hdata])] at hrun
      obtain ⟨hok, hrest⟩ := Prod.mk.inj hrun
      exact ⟨hok.symm, congrArg PlainStore.blobs (Prod.mk.inj hrest).1.symm⟩
    | false =>
      have hok : (blobStep (.put key data) s).1 = true := putBlobIfChanged_works hworks key hdata
      rw [if_neg (by simp [hdata])] at hrun
      refine ⟨hok, ?_⟩
      split at hrun
      · rename_i hsame
        obtain ⟨-, hrest⟩ := Prod.mk.inj hrun
        rw [← (Prod.mk.inj hrest).1]
        exact (Function.update_eq_self_iff.mpr hsame.symm).symm
      · exact write_true hfates hok hrun
  | erase key =>
    rw [PlainStore.blobStep, if_neg (by simp)] at hrun
    split at hrun
    · rename_i hnone
      obtain ⟨hok, hrest⟩ := Prod.mk.inj hrun
      refine ⟨hok.symm, ?_⟩
      rw [← (Prod.mk.inj hrest).1]
      exact (Function.update_eq_self_iff.mpr hnone.symm).symm
    · rename_i hheld
      rw [writeFate_erase hworks hexact hheld] at hrun
      obtain ⟨hok, hrest⟩ := Prod.mk.inj hrun
      refine ⟨hok.symm, ?_⟩
      rw [← (Prod.mk.inj hrest).1]
      rfl

/-- A program over blob accesses gives on the store what it gives on what the backend holds. -/
theorem Serves.run {α : Type} (h : base.Serves s m) (p : StoreProgram α) :
    (p.run PairingStore.blobStep s).1 = (p.run BlobMap.step m).1 ∧
      base.Serves (p.run PairingStore.blobStep s).2 (p.run BlobMap.step m).2 :=
  Program.run_tracks Serves.step p h

/-- A store that is started on what the backend holds. -/
theorem Serves.fresh (h : base.Serves s m) : base.Serves (fresh s.config s.has_backend s.backend) m := by
  refine ⟨⟨h.keys.config, h.keys.has_backend⟩, h.works, ?_, h.blobs⟩
  intro key e he
  rw [show (PairingStore.fresh s.config s.has_backend s.backend).blob_cache = ∅ from rfl, AList.lookup_empty] at he
  cases he

end Steps

end PairingStore

namespace StoreProgram

variable {s : PairingStore} {m : BlobMap}

theorem load_map {α : Type} (hon : s.enabled = true) (key : BlobKey) (parse : Bytes → Option α) :
    (load s key parse).run BlobMap.step m = ((m key).bind parse, m) := by
  rw [load, Program.run_ite, if_neg (by simp [hon])]
  rfl

theorem put_map (hon : s.enabled = true) (key : BlobKey) {data : Bytes} (hdata : data.isEmpty = false) :
    (put s key data).run BlobMap.step m = (true, Function.update m key (some data)) := by
  rw [put, Program.run_ite, if_neg (by simp [hon]), putBlob, Program.run_ask, BlobMap.step, hdata]
  rfl

theorem erase_map (hon : s.enabled = true) (key : BlobKey) :
    (erase s key).run BlobMap.step m = (true, Function.update m key none) := by
  rw [erase, Program.run_ite, if_neg (by simp [hon])]
  rfl

/-- What a saved index leaves under its key. -/
def indexBlob (entries : List PairIndexEntry) : Option Bytes :=
  if entries.isEmpty then none else some (pairIndexBlob entries)

theorem indexBlob_read {entries : List PairIndexEntry} (h : entries.length ≤ 65535) :
    ((indexBlob entries).bind pairIndexOfBlob).getD [] = entries := by
  unfold indexBlob
  cases entries with
  | nil => rfl
  | cons entry entries =>
    rw [if_neg (by simp), Option.bind_some, pairIndexOfBlob_pairIndexBlob _ h]
    rfl

theorem savePairIndex_map (hon : s.enabled = true) (localMac : MacAddress) {entries : List PairIndexEntry}
    (h : entries.length ≤ 65535) :
    (savePairIndex s localMac entries).run BlobMap.step m =
      (true, Function.update m (s.pairIndexKey localMac) (indexBlob entries)) := by
  unfold savePairIndex indexBlob
  rw [Program.run_ite, Program.run_ite, erase_map hon, put_map hon _ rfl, if_neg (Nat.not_lt.mpr h)]
  split <;> rfl

theorem loadPairIndex_map (hon : s.enabled = true) (localMac : MacAddress) :
    (loadPairIndex s localMac).run BlobMap.step m =
      ((m (s.pairIndexKey localMac)).bind pairIndexOfBlob, m) :=
  load_map hon _ _

theorem upsertPairIndexEntry_map (hon : s.enabled = true) (localMac peer : MacAddress) (seq : UInt32)
    {entries : List PairIndexEntry}
    (hentries : ((m (s.pairIndexKey localMac)).bind pairIndexOfBlob).getD [] = entries)
    (hroom : (PairingStore.upsertEntry peer seq entries).length ≤ 65535) :
    (upsertPairIndexEntry s localMac peer seq).run BlobMap.step m =
      (true, Function.update m (s.pairIndexKey localMac)
        (indexBlob (PairingStore.upsertEntry peer seq entries))) := by
  subst hentries
  rw [upsertPairIndexEntry, Program.run_bind, loadPairIndex_map hon]
  exact savePairIndex_map hon localMac hroom

theorem removePairIndexEntry_map (hon : s.enabled = true) (localMac peer : MacAddress)
    {entries : List PairIndexEntry} (hroom : entries.length ≤ 65535)
    (hentries : m (s.pairIndexKey localMac) = indexBlob entries) :
    (removePairIndexEntry s localMac peer).run BlobMap.step m =
      (true, Function.update m (s.pairIndexKey localMac)
        (indexBlob (entries.filter (·.peer_mac ≠ peer)))) := by
  rw [removePairIndexEntry, Program.run_ite, if_neg (by simp [hon]), Program.run_bind, loadPairIndex_map hon,
    hentries]
  unfold indexBlob
  cases entries with
  | nil =>
    have hnone : m (s.pairIndexKey localMac) = none := hentries
    exact Prod.ext rfl (Function.update_eq_self_iff.mpr hnone.symm).symm
  | cons entry entries =>
    rw [if_neg (by simp), Option.bind_some, pairIndexOfBlob_pairIndexBlob _ hroom]
    exact savePairIndex_map hon localMac ((List.length_filter_le _ _).trans hroom)

/-- The number that `assignPairSeq` hands out for what it read of the counter. -/
def nextPairSeq : Option UInt32 → UInt32
  | some 0 => 1
  | some n => n
  | none => 1

theorem pairSeqOfBlob_pairSeqBlob (counter : UInt32) : pairSeqOfBlob (pairSeqBlob counter) = some counter := by
  have hread : readLe32At (pairSeqBlob counter) 1 = counter := readLe32_le32 counter
  unfold pairSeqOfBlob
  have hform : ¬((pairSeqBlob counter).length ≠ kPairSeqBlobBytes ∨
      (pairSeqBlob counter).getD 0 0 ≠ kPairSeqSchemaVersion) := by
    rintro (h | h)
    · exact h rfl
    · exact h rfl
  rw [if_neg hform, hread]

theorem assignPairSeq_map (hon : s.enabled = true) (localMac : MacAddress) {next : UInt32}
    (hnext : nextPairSeq ((m (s.pairSeqCounterKey localMac)).bind pairSeqOfBlob) = next) :
    (assignPairSeq s localMac).run BlobMap.step m =
      (some next, Function.update m (s.pairSeqCounterKey localMac)
        (some (pairSeqBlob (if next = 0xFFFFFFFF then 1 else next + 1)))) := by
  subst hnext
  rw [assignPairSeq, Program.run_bind, load_map hon, Program.run_bind]
  dsimp only
  rw [put_map hon _ rfl]
  rfl

end StoreProgram

end EspNowLink
