import EspNowLink.Platform.WorkingStore

namespace EspNowLink

open Framework

/-- `RestoreCandidate`: a stored pair with the number that the index gives it. -/
structure RestoreCandidate where
  record : PairRecord
  pair_seq : UInt32
  deriving DecidableEq

namespace RestoreCandidate

def peer (c : RestoreCandidate) : MacAddress := c.record.peer_mac

/-- The index entry of a candidate. -/
def entry (c : RestoreCandidate) : PairIndexEntry := ⟨c.record.peer_mac, c.pair_seq, true⟩

end RestoreCandidate

/-- What the storage of pairs is for: the pairs of a node in the order in which they were first made, and the
number that the next one gets. -/
structure PairDirectory where
  links : List RestoreCandidate
  next : UInt32

namespace PairDirectory

def entries (d : PairDirectory) : List PairIndexEntry := d.links.map (·.entry)

def peers (d : PairDirectory) : List MacAddress := d.links.map (·.peer)

def find (d : PairDirectory) (peer : MacAddress) : Option RestoreCandidate :=
  d.links.find? fun c => c.peer = peer

/-- The links with the record in the place of its peer's. -/
def renewed (d : PairDirectory) (record : PairRecord) : List RestoreCandidate :=
  d.links.map fun c => if c.peer = record.peer_mac then ⟨record, c.pair_seq⟩ else c

/-- A peer that is paired again keeps its place, a new one gets the last. -/
def save (d : PairDirectory) (record : PairRecord) : PairDirectory :=
  if (d.find record.peer_mac).isSome then { d with links := d.renewed record }
  else ⟨d.links ++ [⟨record, d.next⟩], d.next + 1⟩

def erase (d : PairDirectory) (peer : MacAddress) : PairDirectory :=
  { d with links := d.links.filter fun c => c.peer ≠ peer }

/-- The numbers follow the order of the links and are below the next one, and each peer has one link. -/
structure WellFormed (d : PairDirectory) : Prop where
  ordered : d.links.Pairwise fun a b => a.pair_seq < b.pair_seq
  numbered : ∀ c ∈ d.links, c.pair_seq ≠ 0 ∧ c.pair_seq < d.next
  distinct : d.peers.Nodup
  next : d.next ≠ 0

section Operations

variable {d : PairDirectory} {record : PairRecord} {peer : MacAddress} {c : RestoreCandidate}

theorem find_mem (h : d.find peer = some c) : c ∈ d.links ∧ c.peer = peer := by
  refine ⟨List.mem_of_find?_eq_some h, ?_⟩
  simpa using List.find?_some h

theorem find_of_mem (hd : d.WellFormed) (h : c ∈ d.links) : d.find c.peer = some c := by
  cases hfind : d.find c.peer with
  | none =>
    have hnone := List.find?_eq_none.mp hfind c h
    simp at hnone
  | some found =>
    obtain ⟨hmem, hpeer⟩ := find_mem hfind
    exact congrArg some (List.inj_on_of_nodup_map hd.distinct hmem h hpeer)

theorem find_none_iff : d.find peer = none ↔ peer ∉ d.peers := by
  rw [find, List.find?_eq_none, peers, List.mem_map]
  constructor
  · rintro h ⟨c, hc, rfl⟩
    have hne := h c hc
    simp at hne
  · intro h c hc
    have hne : ¬ c.peer = peer := fun heq => h ⟨c, hc, heq⟩
    simpa using hne

theorem entries_save (d : PairDirectory) (record : PairRecord) :
    (d.save record).entries =
      if (d.find record.peer_mac).isSome then d.entries else d.entries ++ [⟨record.peer_mac, d.next, true⟩] := by
  unfold save entries
  split
  · rw [renewed, List.map_map]
    refine List.map_congr_left fun c _ => ?_
    rw [Function.comp_apply]
    split
    · rename_i hpeer
      exact congrArg (fun peer => (⟨peer, c.pair_seq, true⟩ : PairIndexEntry)) hpeer.symm
    · rfl
  · rw [List.map_append]
    rfl

theorem find_renewed (d : PairDirectory) (record : PairRecord) (peer : MacAddress) :
    (d.renewed record).find? (fun c => c.peer = peer) =
      if peer = record.peer_mac then (d.find peer).map fun c => ⟨record, c.pair_seq⟩ else d.find peer := by
  unfold renewed find
  induction d.links with
  | nil => split <;> rfl
  | cons c links ih =>
    rw [List.map_cons, List.find?_cons, List.find?_cons, ih]
    by_cases hpeer : c.peer = record.peer_mac
    · have hrenewed : (⟨record, c.pair_seq⟩ : RestoreCandidate).peer = record.peer_mac := rfl
      rw [if_pos hpeer, hrenewed, hpeer]
      by_cases hsame : peer = record.peer_mac
      · simp [hsame]
      · simp [hsame, Ne.symm hsame]
    · rw [if_neg hpeer]
      by_cases hsame : c.peer = peer
      · have hother : ¬ peer = record.peer_mac := fun h => hpeer (hsame.trans h)
        simp [hsame, hother]
      · simp [hsame]

/-- What is found after a save. -/
theorem find_save (d : PairDirectory) (record : PairRecord) (peer : MacAddress) :
    ((d.save record).find peer).map (·.record) =
      if peer = record.peer_mac then some record else (d.find peer).map (·.record) := by
  unfold save
  split
  · rename_i hknown
    rw [find, find_renewed]
    split
    · rename_i hsame
      obtain ⟨c, hc⟩ := Option.isSome_iff_exists.mp hknown
      rw [hsame, hc]
      rfl
    · rfl
  · rename_i hnew
    have hnone : d.find record.peer_mac = none := by simpa using hnew
    rw [find, List.find?_append]
    split
    · rename_i hsame
      rw [hsame, ← find, hnone, Option.none_or, List.find?_singleton, if_pos (by simp [RestoreCandidate.peer])]
      rfl
    · rename_i hother
      rw [List.find?_singleton, if_neg (by simp [RestoreCandidate.peer, Ne.symm hother]), Option.or_none]
      rfl

theorem find_erase (d : PairDirectory) (erased peer : MacAddress) :
    (d.erase erased).find peer = if peer = erased then none else d.find peer := by
  unfold erase find
  rw [List.find?_filter]
  split
  · rename_i hsame
    rw [List.find?_eq_none]
    intro c _
    simp [hsame]
  · rename_i hother
    congr 1
    funext c
    by_cases hpeer : c.peer = peer
    · simp [hpeer, hother]
    · simp [hpeer]

theorem entries_erase (d : PairDirectory) (peer : MacAddress) :
    (d.erase peer).entries = d.entries.filter (·.peer_mac ≠ peer) := by
  rw [entries, entries, List.filter_map]
  rfl

theorem renewed_map {β : Type} (d : PairDirectory) (record : PairRecord) {f : RestoreCandidate → β}
    (hf : ∀ c, c.peer = record.peer_mac → f ⟨record, c.pair_seq⟩ = f c) :
    (d.renewed record).map f = d.links.map f := by
  rw [renewed, List.map_map]
  refine List.map_congr_left fun c _ => ?_
  rw [Function.comp_apply]
  split
  · rename_i hpeer
    exact hf c hpeer
  · rfl

theorem WellFormed.numbers (hd : d.WellFormed) : (d.links.map (·.pair_seq)).Pairwise (· < ·) :=
  List.pairwise_map.mpr hd.ordered

theorem number_succ {n : UInt32} (h : n < 0xFFFFFFFF) : n < n + 1 ∧ n + 1 ≠ 0 := by
  have hbound : n.toNat < 0xFFFFFFFF := UInt32.lt_iff_toNat_lt.mp h
  have hone : (1 : UInt32).toNat = 1 := rfl
  have hzero : (0 : UInt32).toNat = 0 := rfl
  rw [UInt32.lt_iff_toNat_lt, ne_eq, ← UInt32.toNat_inj, UInt32.toNat_add]
  omega

theorem WellFormed.save (hd : d.WellFormed) (hnext : d.next < 0xFFFFFFFF) (record : PairRecord) :
    (d.save record).WellFormed := by
  have hstep := number_succ hnext
  unfold PairDirectory.save
  split
  · have hnumbers : (d.renewed record).map (·.pair_seq) = d.links.map (·.pair_seq) :=
      d.renewed_map record fun _ _ => rfl
    refine ⟨?_, ?_, ?_, hd.next⟩
    · refine List.pairwise_map.mp ?_
      rw [hnumbers]
      exact hd.numbers
    · intro c hc
      have hmem : c.pair_seq ∈ d.links.map (·.pair_seq) := by
        rw [← hnumbers]
        exact List.mem_map.mpr ⟨c, hc, rfl⟩
      obtain ⟨old, hold, hseq⟩ := List.mem_map.mp hmem
      rw [← hseq]
      exact hd.numbered old hold
    · have hpeers : (d.renewed record).map (·.peer) = d.links.map (·.peer) :=
        d.renewed_map record fun _ h => h.symm
      rw [PairDirectory.peers, hpeers]
      exact hd.distinct
  · rename_i hnew
    have hfresh : record.peer_mac ∉ d.peers := find_none_iff.mp (by simpa using hnew)
    refine ⟨?_, ?_, ?_, hstep.2⟩
    · refine List.pairwise_append.mpr ⟨hd.ordered, List.pairwise_singleton .., ?_⟩
      intro a ha b hb
      rw [List.mem_singleton.mp hb]
      exact (hd.numbered a ha).2
    · intro c hc
      rcases List.mem_append.mp hc with hc | hc
      · exact ⟨(hd.numbered c hc).1, UInt32.lt_trans (hd.numbered c hc).2 hstep.1⟩
      · rw [List.mem_singleton.mp hc]
        exact ⟨hd.next, hstep.1⟩
    · rw [PairDirectory.peers, List.map_append]
      refine List.nodup_append.mpr ⟨hd.distinct, List.nodup_singleton _, ?_⟩
      rintro peer hold other hother rfl
      rw [List.mem_singleton.mp hother] at hold
      exact hfresh hold

/-- Links that are taken out leave a directory. -/
theorem WellFormed.sublist (hd : d.WellFormed) {links : List RestoreCandidate} (h : links.Sublist d.links) :
    WellFormed { d with links := links } :=
  ⟨hd.ordered.sublist h, fun c hc => hd.numbered c (h.subset hc), hd.distinct.sublist (h.map _), hd.next⟩

theorem WellFormed.erase (hd : d.WellFormed) (peer : MacAddress) : (d.erase peer).WellFormed :=
  hd.sublist List.filter_sublist

/-! What the functions of the index make of the entries. -/

theorem upsertEntry_listed (hd : d.WellFormed) (h : d.find peer = some c) :
    PairingStore.upsertEntry peer c.pair_seq d.entries = d.entries := by
  obtain ⟨hmem, hpeer⟩ := find_mem h
  have hsame : ∀ other ∈ d.links, other.peer = peer → other.pair_seq = c.pair_seq := by
    intro other hother heq
    have hfind := find_of_mem hd hother
    rw [heq, h] at hfind
    exact congrArg RestoreCandidate.pair_seq (Option.some.inj hfind).symm
  have hlisted : ∃ other ∈ d.links, other.peer = peer := ⟨c, hmem, hpeer⟩
  unfold entries
  clear h hmem hpeer hd
  revert hsame hlisted
  induction d.links with
  | nil =>
    rintro - ⟨x, hx, -⟩
    cases hx
  | cons other links ih =>
    intro hsame hlisted
    rw [List.map_cons, PairingStore.upsertEntry]
    by_cases heq : other.peer = peer
    · have hentry : other.entry.peer_mac = peer := heq
      have hseq := hsame other (List.mem_cons_self ..) heq
      rw [if_pos hentry, ← hseq]
      rfl
    · have hentry : ¬ other.entry.peer_mac = peer := heq
      rw [if_neg hentry]
      refine congrArg _ (ih (fun x hx => hsame x (List.mem_cons_of_mem _ hx)) ?_)
      obtain ⟨x, hx, hxpeer⟩ := hlisted
      rcases List.mem_cons.mp hx with rfl | hx
      · exact absurd hxpeer heq
      · exact ⟨x, hx, hxpeer⟩

theorem upsertEntry_new (h : d.find peer = none) (seq : UInt32) :
    PairingStore.upsertEntry peer seq d.entries = d.entries ++ [⟨peer, seq, true⟩] := by
  have hfresh := find_none_iff.mp h
  unfold entries
  unfold peers at hfresh
  clear h
  revert hfresh
  induction d.links with
  | nil => exact fun _ => rfl
  | cons other links ih =>
    intro hfresh
    rw [List.map_cons, List.mem_cons, not_or] at hfresh
    have hentry : ¬ other.entry.peer_mac = peer := Ne.symm hfresh.1
    rw [List.map_cons, PairingStore.upsertEntry, if_neg hentry, ih hfresh.2, List.cons_append]

/-- The entry that a save looks for. -/
theorem find_entry (hd : d.WellFormed) (peer : MacAddress) :
    d.entries.find? (fun e => e.peer_mac = peer && e.valid && e.pair_seq != 0) =
      (d.find peer).map (·.entry) := by
  have hnumbered : ∀ c ∈ d.links, c.pair_seq ≠ 0 := fun c hc => (hd.numbered c hc).1
  unfold entries find
  clear hd
  revert hnumbered
  induction d.links with
  | nil => exact fun _ => rfl
  | cons c links ih =>
    intro hnumbered
    have hseq := hnumbered c (List.mem_cons_self ..)
    have hmatches : (decide (c.entry.peer_mac = peer) && c.entry.valid && c.entry.pair_seq != 0) =
        decide (c.peer = peer) := by
      have hnonzero : (c.pair_seq != 0) = true := bne_iff_ne.mpr hseq
      change (decide (c.peer = peer) && true && (c.pair_seq != 0)) = decide (c.peer = peer)
      rw [hnonzero, Bool.and_true, Bool.and_true]
    rw [List.map_cons, List.find?_cons, List.find?_cons, hmatches,
      ih fun x hx => hnumbered x (List.mem_cons_of_mem _ hx)]
    split <;> rfl

end Operations

section Storage

/-- A backend with the keys of `base` holds the directory of a node, as far as the peers of `P` go. -/
structure Holds (base : PairingStore) (localMac : MacAddress) (P : Set MacAddress) (d : PairDirectory)
    (m : BlobMap) : Prop where
  index : m (base.pairIndexKey localMac) = StoreProgram.indexBlob d.entries
  counter : StoreProgram.nextPairSeq ((m (base.pairSeqCounterKey localMac)).bind pairSeqOfBlob) = d.next
  records : ∀ peer ∈ P,
    m (base.makeKey .Pair localMac peer) = ((d.find peer).map (·.record)).map pairBlob

variable {base : PairingStore} {localMac peer : MacAddress} {P : Set MacAddress} {d : PairDirectory} {m : BlobMap}

theorem indexKey_ne_pair : base.pairIndexKey localMac ≠ base.makeKey .Pair localMac peer :=
  (base.pairKey_ne_index localMac _).symm

theorem counterKey_ne_pair : base.pairSeqCounterKey localMac ≠ base.makeKey .Pair localMac peer :=
  (base.pairKey_ne_seq localMac _).symm

theorem counterKey_ne_index : base.pairSeqCounterKey localMac ≠ base.pairIndexKey localMac := by
  simp [PairingStore.pairSeqCounterKey, PairingStore.pairIndexKey, PairingStore.makeLocalMetaKey,
    PairingStore.blobKey]

/-- What is written under another kind of key leaves the directory. -/
theorem Holds.update_channel (h : Holds base localMac P d m) (other : MacAddress) (value : Option Bytes) :
    Holds base localMac P d (Function.update m (base.makeKey .Channel localMac other) value) := by
  have hindex : base.pairIndexKey localMac ≠ base.makeKey .Channel localMac other := by
    simp [PairingStore.pairIndexKey, PairingStore.makeLocalMetaKey, PairingStore.makeKey, PairingStore.blobKey]
  have hcounter : base.pairSeqCounterKey localMac ≠ base.makeKey .Channel localMac other := by
    simp [PairingStore.pairSeqCounterKey, PairingStore.makeLocalMetaKey, PairingStore.makeKey, PairingStore.blobKey]
  have hrecord : ∀ peer, base.makeKey .Pair localMac peer ≠ base.makeKey .Channel localMac other := by
    simp [PairingStore.makeKey, PairingStore.blobKey]
  refine ⟨?_, ?_, fun peer hpeer => ?_⟩
  · rw [Function.update_of_ne hindex, h.index]
  · rw [Function.update_of_ne hcounter, h.counter]
  · rw [Function.update_of_ne (hrecord peer), h.records peer hpeer]

theorem entries_length (d : PairDirectory) : d.entries.length = d.links.length := List.length_map _

theorem Holds.entries_read (h : Holds base localMac P d m) (hroom : d.links.length ≤ 65535) :
    ((m (base.pairIndexKey localMac)).bind pairIndexOfBlob).getD [] = d.entries := by
  rw [h.index]
  exact StoreProgram.indexBlob_read (d.entries_length.trans_le hroom)

/-- The blobs of a directory after a record is put. -/
theorem Holds.put_record (h : Holds base localMac P d m)
    (hkeys : Set.InjOn (base.makeKey .Pair localMac) P) {record : PairRecord} (hpeer : record.peer_mac ∈ P)
    {peer : MacAddress} (hmem : peer ∈ P) :
    Function.update m (base.makeKey .Pair localMac record.peer_mac) (some (pairBlob record))
        (base.makeKey .Pair localMac peer) =
      (((d.save record).find peer).map (·.record)).map pairBlob := by
  rw [find_save]
  by_cases hsame : peer = record.peer_mac
  · rw [if_pos hsame, hsame, Function.update_self]
    rfl
  · have hne : base.makeKey .Pair localMac peer ≠ base.makeKey .Pair localMac record.peer_mac :=
      fun heq => hsame (hkeys hmem hpeer heq)
    rw [if_neg hsame, Function.update_of_ne hne, h.records peer hmem]

/-- A counter that is stored is handed out. -/
theorem nextPairSeq_stored {n : UInt32} (h : n ≠ 0) : StoreProgram.nextPairSeq (some n) = n := by
  unfold StoreProgram.nextPairSeq
  split
  · rename_i hzero
    exact absurd (Option.some.inj hzero) h
  · rename_i heq
    exact (Option.some.inj heq).symm
  · rename_i hnone
    cases hnone

/-- A pair that is saved enters the directory. -/
theorem Holds.savePair (h : Holds base localMac P d m) (hd : d.WellFormed) (hon : base.enabled = true)
    (hkeys : Set.InjOn (base.makeKey .Pair localMac) P) (hroom : d.links.length < 65535)
    (hnext : d.next < 0xFFFFFFFF) {record : PairRecord} (hlocal : record.local_mac = localMac)
    (hpeer : record.peer_mac ∈ P) :
    ((StoreProgram.savePair base record).run BlobMap.step m).1 = true ∧
      Holds base localMac P (d.save record) ((StoreProgram.savePair base record).run BlobMap.step m).2 := by
  subst hlocal
  have hput : (StoreProgram.put base (base.makeKey .Pair record.local_mac record.peer_mac)
      (pairBlob record)).run BlobMap.step m = _ := StoreProgram.put_map hon _ rfl
  have hafter : ((Function.update m (base.makeKey .Pair record.local_mac record.peer_mac)
      (some (pairBlob record)) (base.pairIndexKey record.local_mac)).bind pairIndexOfBlob).getD [] = d.entries := by
    rw [Function.update_of_ne indexKey_ne_pair]
    exact h.entries_read hroom.le
  have hlength : ∀ seq, (PairingStore.upsertEntry record.peer_mac seq d.entries).length ≤ 65535 := by
    intro seq
    cases hfind : d.find record.peer_mac with
    | some c =>
      rw [PairingStore.upsertEntry_length _ seq c.pair_seq, upsertEntry_listed hd hfind, entries_length]
      exact hroom.le
    | none =>
      rw [upsertEntry_new hfind, List.length_append, entries_length]
      exact hroom
  rw [StoreProgram.savePair, Program.run_bind, hput]
  dsimp only
  rw [StoreProgram.indexPair, Program.run_bind, StoreProgram.loadPairIndex_map hon]
  dsimp only
  rw [hafter, find_entry hd]
  cases hfind : d.find record.peer_mac with
  | some c =>
    have hsaved : (d.save record).entries = d.entries ∧ (d.save record).next = d.next := by
      rw [entries_save, PairDirectory.save, hfind]
      exact ⟨rfl, rfl⟩
    have hupsert := StoreProgram.upsertPairIndexEntry_map hon record.local_mac record.peer_mac c.pair_seq hafter
      (hlength _)
    rw [Option.map_some]
    dsimp only [RestoreCandidate.entry]
    rw [hupsert, upsertEntry_listed hd hfind]
    refine ⟨rfl, ?_⟩
    dsimp only
    refine ⟨?_, ?_, fun peer hmem => ?_⟩
    · rw [Function.update_self, hsaved.1]
    · rw [Function.update_of_ne counterKey_ne_index, Function.update_of_ne counterKey_ne_pair, h.counter, hsaved.2]
    · rw [Function.update_of_ne indexKey_ne_pair.symm]
      exact h.put_record hkeys hpeer hmem
  | none =>
    have hsaved : (d.save record).entries = d.entries ++ [⟨record.peer_mac, d.next, true⟩] ∧
        (d.save record).next = d.next + 1 := by
      rw [entries_save, PairDirectory.save, hfind]
      exact ⟨rfl, rfl⟩
    have hcounter : StoreProgram.nextPairSeq ((Function.update m
        (base.makeKey .Pair record.local_mac record.peer_mac) (some (pairBlob record))
        (base.pairSeqCounterKey record.local_mac)).bind pairSeqOfBlob) = d.next := by
      rw [Function.update_of_ne counterKey_ne_pair]
      exact h.counter
    have hstep := nextPairSeq_stored (number_succ hnext).2
    rw [Option.map_none]
    dsimp only
    rw [Program.run_bind, StoreProgram.assignPairSeq_map hon record.local_mac hcounter,
      if_neg (UInt32.ne_of_lt hnext)]
    dsimp only
    rw [StoreProgram.upsertPairIndexEntry_map hon record.local_mac record.peer_mac d.next
      (by rw [Function.update_of_ne counterKey_ne_index.symm]; exact hafter) (hlength _), upsertEntry_new hfind]
    refine ⟨rfl, ?_⟩
    dsimp only
    refine ⟨?_, ?_, fun peer hmem => ?_⟩
    · rw [Function.update_self, hsaved.1]
    · rw [Function.update_of_ne counterKey_ne_index, Function.update_self, Option.bind_some,
        StoreProgram.pairSeqOfBlob_pairSeqBlob, hstep, hsaved.2]
    · rw [Function.update_of_ne indexKey_ne_pair.symm, Function.update_of_ne counterKey_ne_pair.symm]
      exact h.put_record hkeys hpeer hmem

/-- A pair that is erased leaves the directory. -/
theorem Holds.erasePair (h : Holds base localMac P d m) (hon : base.enabled = true)
    (hkeys : Set.InjOn (base.makeKey .Pair localMac) P) (hroom : d.links.length ≤ 65535) {erased : MacAddress}
    (hpeer : erased ∈ P) :
    Holds base localMac P (d.erase erased) ((StoreProgram.erasePair base localMac erased).run BlobMap.step m).2 := by
  have hafter : Function.update m (base.makeKey .Pair localMac erased) none (base.pairIndexKey localMac) =
      StoreProgram.indexBlob d.entries := by
    rw [Function.update_of_ne indexKey_ne_pair]
    exact h.index
  rw [StoreProgram.erasePair, Program.run_bind, StoreProgram.erase_map hon]
  dsimp only
  rw [Program.run_bind, StoreProgram.removePairIndexEntry_map hon localMac erased
    (d.entries_length.trans_le hroom) hafter, Program.run_pure]
  dsimp only
  refine ⟨?_, ?_, fun peer hmem => ?_⟩
  · rw [Function.update_self, entries_erase]
  · rw [Function.update_of_ne counterKey_ne_index, Function.update_of_ne counterKey_ne_pair, h.counter]
    rfl
  · rw [Function.update_of_ne indexKey_ne_pair.symm, find_erase]
    by_cases hsame : peer = erased
    · rw [if_pos hsame, hsame, Function.update_self]
      rfl
    · have hne : base.makeKey .Pair localMac peer ≠ base.makeKey .Pair localMac erased :=
        fun heq => hsame (hkeys hmem hpeer heq)
      rw [if_neg hsame, Function.update_of_ne hne, h.records peer hmem]

end Storage

/-- A store that works holds the directory of a node. -/
def StoredBy (base : PairingStore) (localMac : MacAddress) (P : Set MacAddress) (d : PairDirectory)
    (s : PairingStore) : Prop :=
  ∃ m, base.Serves s m ∧ Holds base localMac P d m

section Stores

variable {base s : PairingStore} {localMac peer : MacAddress} {P : Set MacAddress} {d : PairDirectory}

theorem StoredBy.enabled (h : StoredBy base localMac P d s) : s.enabled = true ∧ base.enabled = true := by
  obtain ⟨m, hs, -⟩ := h
  exact ⟨hs.works.1, hs.keys.enabled.symm.trans hs.works.1⟩

theorem StoredBy.fresh (h : StoredBy base localMac P d s) :
    StoredBy base localMac P d (PairingStore.fresh s.config s.has_backend s.backend) := by
  obtain ⟨m, hs, hm⟩ := h
  exact ⟨m, hs.fresh, hm⟩

theorem StoredBy.loadPair (h : StoredBy base localMac P d s) (hpeer : peer ∈ P) :
    (s.loadPair localMac peer).1 = (d.find peer).map (·.record) ∧
      StoredBy base localMac P d (s.loadPair localMac peer).2 := by
  have hon := h.enabled
  obtain ⟨m, hs, hm⟩ := h
  obtain ⟨hanswer, hnext⟩ := hs.run (StoreProgram.load base (base.makeKey .Pair localMac peer) pairOfBlob)
  have hrun : (StoreProgram.load base (base.makeKey .Pair localMac peer) pairOfBlob).run
      PairingStore.blobStep s = s.loadPair localMac peer := by
    rw [PairingStore.load_run hs.keys, ← hs.keys.makeKey]
    rfl
  rw [hrun, StoreProgram.load_map hon.2] at hanswer hnext
  refine ⟨?_, m, hnext, hm⟩
  rw [hanswer, hm.records peer hpeer, Option.bind_map]
  cases d.find peer with
  | none => rfl
  | some c => exact pairOfBlob_pairBlob c.record

theorem StoredBy.loadPairIndex (h : StoredBy base localMac P d s) (hroom : d.links.length ≤ 65535) :
    (s.loadPairIndex localMac).1 = (if d.links = [] then none else some d.entries) ∧
      StoredBy base localMac P d (s.loadPairIndex localMac).2 := by
  have hon := h.enabled
  obtain ⟨m, hs, hm⟩ := h
  obtain ⟨hanswer, hnext⟩ := hs.run (StoreProgram.loadPairIndex base localMac)
  rw [PairingStore.loadPairIndex_run hs.keys, StoreProgram.loadPairIndex_map hon.2] at hanswer hnext
  refine ⟨?_, m, hnext, hm⟩
  rw [hanswer, hm.index]
  unfold StoreProgram.indexBlob
  cases hlinks : d.links with
  | nil =>
    rw [entries, hlinks]
    rfl
  | cons c links =>
    have hlength := d.entries_length.trans_le hroom
    have hsome : d.entries.isEmpty = false := by
      rw [entries, hlinks]
      rfl
    rw [hsome, if_neg (by simp), if_neg (by simp), Option.bind_some, pairIndexOfBlob_pairIndexBlob _ hlength]

theorem StoredBy.savePair (h : StoredBy base localMac P d s) (hd : d.WellFormed)
    (hkeys : Set.InjOn (base.makeKey .Pair localMac) P) (hroom : d.links.length < 65535)
    (hnext : d.next < 0xFFFFFFFF) {record : PairRecord} (hlocal : record.local_mac = localMac)
    (hpeer : record.peer_mac ∈ P) :
    (s.savePair record).1 = true ∧ StoredBy base localMac P (d.save record) (s.savePair record).2 := by
  have hon := h.enabled
  obtain ⟨m, hs, hm⟩ := h
  obtain ⟨hanswer, hnew⟩ := hs.run (StoreProgram.savePair base record)
  obtain ⟨hok, hm⟩ := hm.savePair hd hon.2 hkeys hroom hnext hlocal hpeer
  rw [PairingStore.savePair_run hs.keys] at hanswer hnew
  exact ⟨hanswer.trans hok, _, hnew, hm⟩

theorem StoredBy.saveChannel (h : StoredBy base localMac P d s) (other : MacAddress) (channel : UInt8) :
    (s.saveChannel localMac other channel).1 = true ∧
      StoredBy base localMac P d (s.saveChannel localMac other channel).2 := by
  have hon := h.enabled
  obtain ⟨m, hs, hm⟩ := h
  obtain ⟨hanswer, hnew⟩ := hs.run (StoreProgram.put base (base.makeKey .Channel localMac other) [channel])
  have hrun : (StoreProgram.put base (base.makeKey .Channel localMac other) [channel]).run
      PairingStore.blobStep s = s.saveChannel localMac other channel := by
    rw [PairingStore.put_run hs.keys, ← hs.keys.makeKey]
    rfl
  rw [hrun, StoreProgram.put_map hon.2 _ rfl] at hanswer hnew
  exact ⟨hanswer, _, hnew, hm.update_channel other _⟩

/-- The index of the directory may be saved once more. -/
theorem StoredBy.savePairIndex (h : StoredBy base localMac P d s) (hroom : d.links.length ≤ 65535) :
    StoredBy base localMac P d (s.savePairIndex localMac d.entries).2 := by
  have hon := h.enabled
  obtain ⟨m, hs, hm⟩ := h
  obtain ⟨-, hnew⟩ := hs.run (StoreProgram.savePairIndex base localMac d.entries)
  rw [PairingStore.savePairIndex_run hs.keys,
    StoreProgram.savePairIndex_map hon.2 localMac (d.entries_length.trans_le hroom), ← hm.index,
    Function.update_eq_self] at hnew
  exact ⟨m, hnew, hm⟩

/-- A peer whose record and channel are erased leaves the directory. -/
theorem StoredBy.forget (h : StoredBy base localMac P d s)
    (hkeys : Set.InjOn (base.makeKey .Pair localMac) P) (hroom : d.links.length ≤ 65535) (hpeer : peer ∈ P) :
    StoredBy base localMac P (d.erase peer)
      ((s.erasePair localMac peer).2.eraseChannel localMac peer).2 := by
  have hon := h.enabled
  obtain ⟨m, hs, hm⟩ := h
  obtain ⟨-, herased⟩ := hs.run (StoreProgram.erasePair base localMac peer)
  rw [PairingStore.erasePair_run hs.keys] at herased
  obtain ⟨-, hnew⟩ := herased.run (StoreProgram.erase base (base.makeKey .Channel localMac peer))
  have hrun : (StoreProgram.erase base (base.makeKey .Channel localMac peer)).run PairingStore.blobStep
      (s.erasePair localMac peer).2 = (s.erasePair localMac peer).2.eraseChannel localMac peer := by
    rw [PairingStore.erase_run herased.keys, ← herased.keys.makeKey]
    rfl
  rw [hrun, StoreProgram.erase_map hon.2] at hnew
  exact ⟨_, hnew, (hm.erasePair hon.2 hkeys hroom hpeer).update_channel peer none⟩

end Stores

end PairDirectory

end EspNowLink
