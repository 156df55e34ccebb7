import EspNowLink.Core.PairRestore
import EspNowLink.Pairing.EngineSteps

namespace EspNowLink

open Framework

/-- What happens to the stored pairs of a master: a pairing that a `PairRequest` or a discovery frame starts and
that completes, an unpairing, and a restart. -/
inductive PairCommand where
  | pairRequest (peer : MacAddress) (lmk : LmkKey)
  | discovered (peer : MacAddress) (lmk : LmkKey)
  | unpair (peer : MacAddress)
  | restart (platform : Platform)

/-- The command is about peers of `P`, and the radio of a restart starts with an empty table. -/
def PairCommand.Within (P : Set MacAddress) : PairCommand → Prop
  | .pairRequest peer _ => peer ∈ P
  | .discovered peer _ => peer ∈ P
  | .unpair peer => peer ∈ P
  | .restart platform => ∀ peer, platform.attached peer = none

namespace EspNowManager

/-- The end of a handshake. -/
def completePairing (e : PairingEngine) (peer : MacAddress) (lmk : LmkKey) : PairingEngine :=
  (({ e with peer_mac := peer, current_lmk := lmk } : PairingEngine).enterSecured).persistPair.2

def reboot (e : PairingEngine) (platform : Platform) : PairingEngine :=
  .boot e.config e.crypto platform (e.store.map fun s => .fresh s.config s.has_backend s.backend) e.has_hooks
    e.has_time_source e.local_mac e.local_profile_id

/-- Above the limit a request is answered with `CapacityLimitReached`, and a discovery frame is dropped. -/
def step (e : PairingEngine) : PairCommand → PairingEngine
  | .pairRequest peer lmk =>
    let (known, e) := hasPersistedPair e peer
    if known then e
    else
      let (count, e) := persistedPairCount e
      if count ≥ kMaxPairedSlaves then e else completePairing e peer lmk
  | .discovered peer lmk =>
    let (count, e) := persistedPairCount e
    if count ≥ kMaxPairedSlaves then e else completePairing e peer lmk
  | .unpair peer => (e.removePeer peer true).2
  | .restart platform => (restore (reboot e platform)).2

end EspNowManager

/-- What a user of the master takes its pairs to be: each peer with its key, in the order of the pairings. -/
abbrev PairBook := List (MacAddress × LmkKey)

namespace PairBook

def peers (book : PairBook) : List MacAddress := book.map Prod.fst

def known (book : PairBook) (peer : MacAddress) : Bool := book.any fun link => link.1 = peer

theorem known_iff {book : PairBook} {peer : MacAddress} : book.known peer = true ↔ peer ∈ book.peers := by
  simp [known, peers]

def enter (book : PairBook) (peer : MacAddress) (lmk : LmkKey) : PairBook :=
  if book.known peer then book.map fun link => if link.1 = peer then (peer, lmk) else link
  else book ++ [(peer, lmk)]

/-- The links that the radio takes: for each it is asked to change the channel and to add the peer. -/
def taken (answer : Nat → Answer) : Nat → PairBook → PairBook
  | _, [] => []
  | n, link :: rest =>
    if (answer n).ok then
      if (answer (n + 1)).ok then link :: taken answer (n + 2) rest else taken answer (n + 2) rest
    else taken answer (n + 1) rest

/-- A radio that takes every call takes every link. -/
theorem taken_all {answer : Nat → Answer} (h : ∀ n, (answer n).ok = true) (book : PairBook) :
    ∀ n, taken answer n book = book := by
  induction book with
  | nil => exact fun _ => rfl
  | cons link book ih =>
    intro n
    rw [taken, if_pos (h n), if_pos (h (n + 1)), ih]

def after (book : PairBook) : PairCommand → PairBook
  | .pairRequest peer lmk =>
    if book.known peer ∨ book.length ≥ kMaxPairedSlaves then book else book.enter peer lmk
  | .discovered peer lmk => if book.length ≥ kMaxPairedSlaves then book else book.enter peer lmk
  | .unpair peer => book.filter fun link => link.1 ≠ peer
  | .restart platform => taken platform.answer platform.calls (book.take kRestorePairLimit)

end PairBook

namespace PairDirectory

/-- The book that a directory amounts to. -/
def book (d : PairDirectory) : PairBook := d.links.map fun c => (c.peer, c.record.lmk)

section Book

variable {d : PairDirectory} {record : PairRecord} {peer : MacAddress}

theorem book_peers (d : PairDirectory) : d.book.peers = d.peers := by
  rw [book, PairBook.peers, List.map_map]
  rfl

theorem book_length (d : PairDirectory) : d.book.length = d.links.length := List.length_map _

theorem book_known : d.book.known peer = true ↔ peer ∈ d.peers := by
  rw [PairBook.known_iff, book_peers]

theorem find_isSome : (d.find peer).isSome ↔ peer ∈ d.peers := by
  rw [Option.isSome_iff_ne_none, ne_eq, find_none_iff, not_not]

theorem book_save (d : PairDirectory) (record : PairRecord) :
    (d.save record).book = d.book.enter record.peer_mac record.lmk := by
  unfold save PairBook.enter
  by_cases hknown : record.peer_mac ∈ d.peers
  · rw [if_pos (find_isSome.mpr hknown), if_pos (book_known.mpr hknown), book, book, renewed, List.map_map, List.map_map]
    refine List.map_congr_left fun c _ => ?_
    rw [Function.comp_apply, Function.comp_apply]
    split <;> rfl
  · have hnew : ¬ (d.find record.peer_mac).isSome = true := fun h => hknown (find_isSome.mp h)
    rw [if_neg hnew, if_neg (mt book_known.mp hknown), book, List.map_append]
    rfl

theorem book_erase (d : PairDirectory) (peer : MacAddress) :
    (d.erase peer).book = d.book.filter fun link => link.1 ≠ peer := by
  rw [book, book, erase, List.filter_map]
  rfl

end Book

end PairDirectory

namespace EspNowManager

open PairOrder

/-- The master has the address `localMac` and stores the directory, whose records are its own. -/
structure Tracks (base : PairingStore) (localMac : MacAddress) (P : Set MacAddress) (d : PairDirectory)
    (e : PairingEngine) : Prop where
  mac : e.local_mac = localMac
  store : ∃ s, e.store = some s ∧ d.StoredBy base localMac P s
  wellFormed : d.WellFormed
  own : ∀ c ∈ d.links, isOwnRecord e c.record = true
  listed : ∀ c ∈ d.links, c.peer ∈ P
  room : d.links.length ≤ kMaxPairedSlaves

section Reads

variable {base s : PairingStore} {localMac peer : MacAddress} {P : Set MacAddress} {d : PairDirectory}
  {e : PairingEngine}

theorem Tracks.pairStore (h : Tracks base localMac P d e) :
    ∃ s, EspNowManager.pairStore e = some s ∧ d.StoredBy base localMac P s := by
  obtain ⟨s, hs, hstored⟩ := h.store
  refine ⟨s, ?_, hstored⟩
  rw [EspNowManager.pairStore, hs, Option.filter_some, if_pos hstored.enabled.1]

/-- The same directory in another store of the engine. -/
theorem Tracks.withPairStore (h : Tracks base localMac P d e) (hs : d.StoredBy base localMac P s) :
    Tracks base localMac P d (withPairStore e s) :=
  ⟨h.mac, ⟨s, rfl, hs⟩, h.wellFormed, h.own, h.listed, h.room⟩

theorem Tracks.small (h : Tracks base localMac P d e) : d.links.length ≤ 65535 :=
  h.room.trans (by decide)

theorem hasPersistedPair_tracks (h : Tracks base localMac P d e) (hpeer : peer ∈ P) :
    ((hasPersistedPair e peer).1 = true ↔ peer ∈ d.peers) ∧
      ∃ s, (hasPersistedPair e peer).2 = withPairStore e s ∧ d.StoredBy base localMac P s := by
  obtain ⟨s, hs, hstored⟩ := h.pairStore
  obtain ⟨hloaded, hnext⟩ := hstored.loadPair hpeer
  unfold hasPersistedPair
  rw [hs, h.mac]
  dsimp only
  refine ⟨?_, _, rfl, hnext⟩
  rw [hloaded]
  cases hfind : d.find peer with
  | none =>
    have hnot := PairDirectory.find_none_iff.mp hfind
    simp [hnot]
  | some c =>
    obtain ⟨hmem, hcpeer⟩ := PairDirectory.find_mem hfind
    have hin : peer ∈ d.peers := List.mem_map.mpr ⟨c, hmem, hcpeer⟩
    simp [h.own c hmem, hin]

/-- The loop finds the entries of the links that it is given. -/
theorem indexedPeers_tracks (h : Tracks base localMac P d e) (links : List RestoreCandidate) :
    ∀ (ordered : List PairIndexEntry) (s : PairingStore), d.StoredBy base localMac P s →
      (∀ c ∈ links, c ∈ d.links) → ((ordered ++ links.map (·.entry)).map (·.peer_mac)).Nodup →
      (indexedPeers e (links.map (·.entry)) ordered s).1 = ordered ++ links.map (·.entry) ∧
        d.StoredBy base localMac P (indexedPeers e (links.map (·.entry)) ordered s).2 := by
  induction links with
  | nil =>
    intro ordered s hs _ _
    exact ⟨(List.append_nil ordered).symm, hs⟩
  | cons c links ih =>
    intro ordered s hs hlinks hnodup
    have hc := hlinks c (List.mem_cons_self ..)
    obtain ⟨hloaded, hnext⟩ := hs.loadPair (h.listed c hc)
    have hfind : d.find c.peer = some c := PairDirectory.find_of_mem h.wellFormed hc
    have hseq : c.pair_seq ≠ 0 := (h.wellFormed.numbered c hc).1
    have hload : (s.loadPair e.local_mac c.entry.peer_mac).1 = some c.record := by
      rw [h.mac]
      rw [hfind] at hloaded
      exact hloaded
    have hfresh : (ordered.any fun existing => existing.peer_mac = c.entry.peer_mac) = false := by
      rw [List.any_eq_false]
      intro existing hexisting heq
      rw [List.map_append, List.nodup_append] at hnodup
      exact hnodup.2.2 _ (List.mem_map.mpr ⟨existing, hexisting, rfl⟩) _ (List.mem_cons_self ..) (by simpa using heq)
    have hrest := ih (ordered ++ [c.entry]) (s.loadPair e.local_mac c.entry.peer_mac).2
      (by rw [h.mac]; exact hnext) (fun x hx => hlinks x (List.mem_cons_of_mem _ hx))
      (by rwa [List.append_assoc, List.singleton_append])
    have hvalid : ¬(!c.entry.valid || decide (c.entry.pair_seq = 0)) = true := by
      simp [hseq, RestoreCandidate.entry]
    have htaken : ((some c.record).any (isOwnRecord e) && !false) = true := by
      rw [Option.any_some, h.own c hc]
      rfl
    rw [List.map_cons, indexedPeers, if_neg hvalid, hload, hfresh, if_pos htaken]
    rw [List.append_assoc, List.singleton_append] at hrest
    exact hrest

theorem getPersistedPeers_tracks (h : Tracks base localMac P d e) :
    (getPersistedPeers e).1 = d.peers ∧
      ∃ s, (getPersistedPeers e).2 = withPairStore e s ∧ d.StoredBy base localMac P s := by
  obtain ⟨s, hs, hstored⟩ := h.pairStore
  obtain ⟨hloaded, hnext⟩ := hstored.loadPairIndex h.small
  unfold getPersistedPeers
  rw [hs, h.mac]
  dsimp only
  rcases hload : s.loadPairIndex localMac with ⟨index, t⟩
  rw [hload] at hloaded hnext
  dsimp only at hloaded hnext
  by_cases hempty : d.links = []
  · rw [if_pos hempty] at hloaded
    subst hloaded
    refine ⟨?_, t, rfl, hnext⟩
    rw [PairDirectory.peers, hempty]
    rfl
  · rw [if_neg hempty] at hloaded
    subst hloaded
    have hpeers : d.entries.map (·.peer_mac) = d.peers := by
      rw [PairDirectory.entries, List.map_map]
      rfl
    have hloop := indexedPeers_tracks h d.links [] t hnext (fun _ hc => hc)
      (by rw [List.nil_append]; exact hpeers ▸ h.wellFormed.distinct)
    rw [List.nil_append] at hloop
    have hsorted : sorted (fun entry : PairIndexEntry => (entry.pair_seq, entry.peer_mac)) d.entries = d.entries :=
      sorted_ordered _ (List.pairwise_map.mpr h.wellFormed.ordered)
    dsimp only
    refine ⟨?_, _, rfl, hloop.2⟩
    change ((sorted _ (indexedPeers e (d.links.map (·.entry)) [] t).1).map (·.peer_mac)) = _
    rw [hloop.1]
    change ((sorted _ d.entries).map (·.peer_mac)) = _
    rw [hsorted, hpeers]

theorem persistedPairCount_tracks (h : Tracks base localMac P d e) :
    (persistedPairCount e).1 = d.links.length ∧
      ∃ s, (persistedPairCount e).2 = withPairStore e s ∧ d.StoredBy base localMac P s := by
  obtain ⟨hpeers, hnext⟩ := getPersistedPeers_tracks h
  refine ⟨?_, hnext⟩
  rw [persistedPairCount, hpeers]
  exact List.length_map _

end Reads

section Writes

variable {base s : PairingStore} {localMac peer : MacAddress} {P : Set MacAddress} {d : PairDirectory}
  {e : PairingEngine}

/-- The directory of an engine that differs in its state, its radio and its log. -/
theorem Tracks.of_same {t : PairingEngine} (h : Tracks base localMac P d e) (hmac : t.local_mac = e.local_mac)
    (hconfig : t.config = e.config) (hstore : t.store = e.store) : Tracks base localMac P d t := by
  refine ⟨hmac.trans h.mac, hstore ▸ h.store, h.wellFormed, fun c hc => ?_, h.listed, h.room⟩
  have hown := h.own c hc
  unfold isOwnRecord at hown ⊢
  rwa [hmac, hconfig]

/-- A linked engine saves the pair and its channel. -/
theorem persistPair_secured (hs : e.store = some s) (hon : s.enabled = true) (hstate : e.state = .Secured) :
    e.persistPair.2 = withPairStore e
      ((s.savePair e.pairRecord).2.saveChannel e.local_mac e.peer_mac e.platform.channel).2 := by
  unfold PairingEngine.persistPair
  rw [hs]
  dsimp only
  rw [if_neg (by simp [hon, hstate])]
  rfl

/-- A pairing that completes enters the directory. -/
theorem completePairing_tracks (h : Tracks base localMac P d e)
    (hkeys : Set.InjOn (base.makeKey .Pair localMac) P) (hroom : d.links.length < kMaxPairedSlaves)
    (hnext : d.next < 0xFFFFFFFF) (hpeer : peer ∈ P) (lmk : LmkKey) :
    ∃ record : PairRecord, record.peer_mac = peer ∧ record.lmk = lmk ∧
      Tracks base localMac P (d.save record) (completePairing e peer lmk) := by
  obtain ⟨s, hs, hstored⟩ := h.store
  let linked := ({ e with peer_mac := peer, current_lmk := lmk } : PairingEngine).enterSecured
  have hsmall : d.links.length < 65535 := hroom.trans (by decide)
  obtain ⟨-, hsaved⟩ := hstored.savePair h.wellFormed hkeys hsmall hnext
    (show linked.pairRecord.local_mac = localMac from h.mac) hpeer
  obtain ⟨-, hchannel⟩ := hsaved.saveChannel peer e.platform.channel
  have hrun : completePairing e peer lmk = _ := persistPair_secured (e := linked) hs hstored.enabled.1 rfl
  have hown : isOwnRecord e linked.pairRecord = true := by
    simp [isOwnRecord, PairingEngine.pairRecord, linked, PairingEngine.enterSecured]
  refine ⟨linked.pairRecord, rfl, rfl, ?_⟩
  rw [hrun]
  have hmembers : ∀ c ∈ (d.save linked.pairRecord).links, c.record = linked.pairRecord ∨ c ∈ d.links := by
    intro c hc
    unfold PairDirectory.save PairDirectory.renewed at hc
    split at hc
    · obtain ⟨old, hold, rfl⟩ := List.mem_map.mp hc
      split
      · exact .inl rfl
      · exact .inr hold
    · rcases List.mem_append.mp hc with hc | hc
      · exact .inr hc
      · rw [List.mem_singleton.mp hc]
        exact .inl rfl
  refine ⟨h.mac, ⟨_, rfl, ?_⟩, h.wellFormed.save hnext _, ?_, ?_, ?_⟩
  · have hmac : linked.local_mac = localMac := h.mac
    rw [hmac]
    exact hchannel
  · intro c hc
    rcases hmembers c hc with hnew | hold
    · rw [hnew]
      exact hown
    · exact h.own c hold
  · intro c hc
    rcases hmembers c hc with hnew | hold
    · rw [RestoreCandidate.peer, hnew]
      exact hpeer
    · exact h.listed c hold
  · have hlength : (d.save linked.pairRecord).links.length ≤ d.links.length + 1 := by
      unfold PairDirectory.save PairDirectory.renewed
      split
      · rw [List.length_map]
        exact Nat.le_succ _
      · rw [List.length_append]
        rfl
    exact hlength.trans hroom

/-- A peer that is forgotten leaves the directory. -/
theorem forgetPeer_tracks (h : Tracks base localMac P d e)
    (hkeys : Set.InjOn (base.makeKey .Pair localMac) P) (hpeer : peer ∈ P) :
    Tracks base localMac P (d.erase peer) (e.forgetPeer peer) := by
  obtain ⟨s, hs, hstored⟩ := h.store
  have hforgot := hstored.forget hkeys h.small hpeer
  have hsub : (d.erase peer).links.Sublist d.links := List.filter_sublist
  refine ⟨h.mac, ⟨_, congrArg (Option.map _) hs, ?_⟩, h.wellFormed.erase peer, fun c hc => h.own c (hsub.subset hc),
    fun c hc => h.listed c (hsub.subset hc), hsub.length_le.trans h.room⟩
  rw [h.mac]
  exact hforgot

theorem removePeer_tracks (h : Tracks base localMac P d e)
    (hkeys : Set.InjOn (base.makeKey .Pair localMac) P) (hpeer : peer ∈ P) :
    Tracks base localMac P (d.erase peer) (e.removePeer peer true).2 := by
  obtain ⟨ok, platform, hevict, -⟩ := e.evictPeer_cases peer
  have hevicted : Tracks base localMac P d (e.evictPeer peer).2 := by
    rw [hevict]
    exact h.of_same rfl rfl rfl
  have hforgot := forgetPeer_tracks hevicted hkeys hpeer
  unfold PairingEngine.removePeer PairingEngine.dropPeer
  rw [if_pos rfl]
  dsimp only
  split
  · exact hforgot.of_same rfl rfl rfl
  · exact hforgot.of_same rfl rfl rfl

end Writes

section Restore

variable {base s : PairingStore} {localMac peer : MacAddress} {P : Set MacAddress} {d : PairDirectory}
  {e t u : PairingEngine}

/-- The first loop reads the links back. -/
theorem restoreCandidates_tracks (h : Tracks base localMac P d e) (links : List RestoreCandidate) :
    ∀ s : PairingStore, d.StoredBy base localMac P s → (∀ c ∈ links, c ∈ d.links) →
      (restoreCandidates localMac (links.map (·.entry)) s).1 = links ∧
        (restoreCandidates localMac (links.map (·.entry)) s).2.1 = false ∧
        d.StoredBy base localMac P (restoreCandidates localMac (links.map (·.entry)) s).2.2 := by
  induction links with
  | nil => exact fun s hs _ => ⟨rfl, rfl, hs⟩
  | cons c links ih =>
    intro s hs hlinks
    have hc := hlinks c (List.mem_cons_self ..)
    obtain ⟨hloaded, hnext⟩ := hs.loadPair (h.listed c hc)
    rw [PairDirectory.find_of_mem h.wellFormed hc] at hloaded
    have hseq : c.pair_seq ≠ 0 := (h.wellFormed.numbered c hc).1
    have hvalid : ¬(!c.entry.valid || decide (c.entry.pair_seq = 0)) = true := by
      simp [hseq, RestoreCandidate.entry]
    have hrecord : (s.loadPair localMac c.entry.peer_mac).1.filter (·.valid) = some c.record := by
      have hown := h.own c hc
      rw [isOwnRecord, Bool.and_eq_true, Bool.and_eq_true] at hown
      change (s.loadPair localMac c.peer).1.filter (·.valid) = some c.record
      rw [hloaded, Option.map_some, Option.filter_some, if_pos hown.1.1]
    obtain ⟨hlinks', hmutated, hstored⟩ := ih _ hnext fun x hx => hlinks x (List.mem_cons_of_mem _ hx)
    rw [List.map_cons, restoreCandidates, if_neg hvalid, hrecord]
    exact ⟨congrArg (c :: ·) hlinks', hmutated, hstored⟩

/-- From `e` to `t` the storage, the identity and the answers of the radio stay. -/
structure SameDevice (e t : PairingEngine) : Prop where
  mac : t.local_mac = e.local_mac
  config : t.config = e.config
  store : t.store = e.store
  answer : t.platform.answer = e.platform.answer

/-- How the radio meets the link of a record: it takes the channel and the peer, or refuses one of them. -/
inductive LinkOutcome (e : PairingEngine) (record : PairRecord) (t : PairingEngine) : Bool → Prop
  | taken : (e.platform.answer e.platform.calls).ok = true →
      (e.platform.answer (e.platform.calls + 1)).ok = true → t.platform.calls = e.platform.calls + 2 →
      t.platform.attached = Function.update e.platform.attached record.peer_mac (some ⟨true, some record.lmk⟩) →
      t.getPairedPeer = some record.peer_mac → LinkOutcome e record t true
  | notAdded : (e.platform.answer e.platform.calls).ok = true →
      (e.platform.answer (e.platform.calls + 1)).ok = false → t.platform.calls = e.platform.calls + 2 →
      (t.platform.attached = e.platform.attached ∨
        t.platform.attached = Function.update e.platform.attached record.peer_mac none) →
      t.getPairedPeer = e.getPairedPeer → LinkOutcome e record t false
  | noChannel : (e.platform.answer e.platform.calls).ok = false → t.platform.calls = e.platform.calls + 1 →
      t.platform.attached = e.platform.attached → t.getPairedPeer = e.getPairedPeer → LinkOutcome e record t false

theorem restorePairedLink_own {record : PairRecord} (hown : isOwnRecord e record = true) :
    ∃ ok t, e.restorePairedLink record = (ok, t) ∧ SameDevice e t ∧ LinkOutcome e record t ok := by
  simp only [isOwnRecord, Bool.and_eq_true, beq_iff_eq] at hown
  have hguard : ¬(!record.valid || decide (record.local_role ≠ e.config.local_role.toByte) ||
      decide (record.local_mac ≠ e.local_mac)) = true := by
    simp [hown.1.1, hown.1.2, hown.2]
  unfold PairingEngine.restorePairedLink Platform.setChannel
  rw [if_neg hguard]
  cases hchannel : (e.platform.answer e.platform.calls).ok with
  | false =>
    exact ⟨false, e.withPlatform e.platform.next, rfl, ⟨rfl, rfl, rfl, rfl⟩, .noChannel hchannel rfl rfl rfl⟩
  | true =>
    have hcalls : ∀ channel, (e.withPlatform { e.platform.next with channel := channel }).platform.answer
        (e.withPlatform { e.platform.next with channel := channel }).platform.calls =
          e.platform.answer (e.platform.calls + 1) := fun _ => rfl
    unfold PairingEngine.attachPeer Platform.addPeer
    simp only [if_true]
    rw [hcalls]
    cases hadd : (e.platform.answer (e.platform.calls + 1)).ok with
    | true =>
      simp only [if_true]
      exact ⟨true, _, rfl, ⟨rfl, rfl, rfl, rfl⟩, .taken hchannel hadd rfl rfl rfl⟩
    | false =>
      cases (e.platform.answer (e.platform.calls + 1)).drops with
      | true =>
        simp only [Bool.false_eq_true, if_false, if_true]
        exact ⟨false, _, rfl, ⟨rfl, rfl, rfl, rfl⟩, .notAdded hchannel hadd rfl (.inr rfl) rfl⟩
      | false =>
        simp only [Bool.false_eq_true, if_false]
        exact ⟨false, _, rfl, ⟨rfl, rfl, rfl, rfl⟩, .notAdded hchannel hadd rfl (.inl rfl) rfl⟩

/-- The entry of the radio's table that a link asks for. -/
def attachment (links : List RestoreCandidate) (peer : MacAddress) : Option Attachment :=
  (links.find? fun c => c.peer = peer).map fun c => ⟨true, some c.record.lmk⟩

/-- What the last loop makes of the links `rest`, which stand behind those it is done with: the ones the radio
takes stay stored and are in its table, the others are forgotten. -/
structure LinksRestored (base : PairingStore) (localMac : MacAddress) (P : Set MacAddress) (next : UInt32)
    (done rest : List RestoreCandidate) (e : PairingEngine) (r : List RestoreCandidate × PairingEngine) : Prop where
  tracks : Tracks base localMac P ⟨done ++ r.1, next⟩ r.2
  sublist : r.1.Sublist rest
  taken : PairDirectory.book ⟨r.1, next⟩ =
    PairBook.taken e.platform.answer e.platform.calls (PairDirectory.book ⟨rest, next⟩)
  attached : ∀ peer, r.2.platform.attached peer = (attachment r.1 peer).or (e.platform.attached peer)
  paired : r.2.getPairedPeer = (r.1.getLast?.map (·.peer)).or e.getPairedPeer

theorem erase_middle {next : UInt32} {done rest : List RestoreCandidate} {c : RestoreCandidate}
    (h : PairDirectory.WellFormed ⟨done ++ c :: rest, next⟩) :
    PairDirectory.erase ⟨done ++ c :: rest, next⟩ c.peer = ⟨done ++ rest, next⟩ := by
  have hdistinct : (done.map (·.peer) ++ c.peer :: rest.map (·.peer)).Nodup := by
    have hnodup := h.distinct
    rwa [PairDirectory.peers, List.map_append, List.map_cons] at hnodup
  obtain ⟨-, hrest, hacross⟩ := List.nodup_append.mp hdistinct
  have hdone : ∀ x ∈ done, decide (x.peer ≠ c.peer) = true := by
    intro x hx
    exact decide_eq_true (hacross _ (List.mem_map.mpr ⟨x, hx, rfl⟩) _ (List.mem_cons_self ..))
  have hbehind : ∀ x ∈ rest, decide (x.peer ≠ c.peer) = true := by
    intro x hx
    refine decide_eq_true fun heq => (List.nodup_cons.mp hrest).1 ?_
    exact heq ▸ List.mem_map.mpr ⟨x, hx, rfl⟩
  unfold PairDirectory.erase
  rw [List.filter_append, List.filter_cons_of_neg (by simp), List.filter_eq_self.mpr hdone,
    List.filter_eq_self.mpr hbehind]

theorem attachment_cons {links : List RestoreCandidate} {c : RestoreCandidate} (hc : c.peer ∉ links.map (·.peer))
    {attached : MacAddress → Option Attachment} (peer : MacAddress) :
    (attachment links peer).or
        (Function.update attached c.peer (some ⟨true, some c.record.lmk⟩) peer) =
      (attachment (c :: links) peer).or (attached peer) := by
  by_cases heq : c.peer = peer
  · have hnone : links.find? (fun x => x.peer = peer) = none := by
      rw [List.find?_eq_none]
      intro x hx hpeer
      refine hc (List.mem_map.mpr ⟨x, hx, ?_⟩)
      rw [heq]
      simpa using hpeer
    rw [attachment, attachment, hnone, List.find?_cons_of_pos (by simpa using heq), ← heq, Function.update_self]
    rfl
  · rw [attachment, attachment, List.find?_cons_of_neg (by simpa using heq),
      Function.update_of_ne (Ne.symm heq)]

theorem restoreLinks_tracks (hkeys : Set.InjOn (base.makeKey .Pair localMac) P) (next : UInt32)
    (rest : List RestoreCandidate) : ∀ (done : List RestoreCandidate) (e : PairingEngine),
      Tracks base localMac P ⟨done ++ rest, next⟩ e → (∀ c ∈ rest, e.platform.attached c.peer = none) →
      LinksRestored base localMac P next done rest e (restoreLinks rest e) := by
  induction rest with
  | nil =>
    intro done e h _
    exact ⟨h, .refl _, rfl, fun _ => rfl, rfl⟩
  | cons c rest ih =>
    intro done e h hempty
    have hmem : c ∈ done ++ c :: rest := List.mem_append_right _ (List.mem_cons_self ..)
    have hdistinct : c.peer ∉ rest.map (·.peer) := by
      have hnodup := h.wellFormed.distinct
      rw [PairDirectory.peers, List.map_append, List.map_cons] at hnodup
      exact (List.nodup_cons.mp (List.nodup_append.mp hnodup).2.1).1
    obtain ⟨ok, t, hlink, hsame, houtcome⟩ := restorePairedLink_own (h.own c hmem)
    have htracks := h.of_same hsame.mac hsame.config hsame.store
    have hforgot : Tracks base localMac P ⟨done ++ rest, next⟩ (t.forgetPeer c.peer) := by
      have hforget := forgetPeer_tracks htracks hkeys (h.listed c hmem)
      rwa [erase_middle h.wellFormed] at hforget
    have hrestEmpty : ∀ x ∈ rest, x.peer ≠ c.peer ∧ e.platform.attached x.peer = none := by
      intro x hx
      refine ⟨fun heq => hdistinct (heq ▸ List.mem_map.mpr ⟨x, hx, rfl⟩), ?_⟩
      exact hempty x (List.mem_cons_of_mem _ hx)
    have hunchanged : ∀ {attached : MacAddress → Option Attachment}, attached = e.platform.attached ∨
        attached = Function.update e.platform.attached c.peer none → attached = e.platform.attached := by
      rintro attached (heq | heq)
      · exact heq
      · rw [heq]
        exact Function.update_eq_self_iff.mpr (hempty c (List.mem_cons_self ..)).symm
    -- A link that the radio refuses leaves its table as it was.
    have hrefused : ∀ calls, t.platform.calls = calls → t.platform.attached = e.platform.attached →
        t.getPairedPeer = e.getPairedPeer →
        PairBook.taken e.platform.answer e.platform.calls (PairDirectory.book ⟨c :: rest, next⟩) =
          PairBook.taken e.platform.answer calls (PairDirectory.book ⟨rest, next⟩) →
        LinksRestored base localMac P next done (c :: rest) e (restoreLinks rest (t.forgetPeer c.peer)) := by
      rintro calls rfl hattached hpaired htaken
      have hnext := ih done (t.forgetPeer c.peer) hforgot
        (fun x hx => (congrFun hattached _).trans (hrestEmpty x hx).2)
      refine ⟨hnext.tracks, hnext.sublist.cons c, ?_, fun peer => ?_, ?_⟩
      · rw [htaken, ← hsame.answer]
        exact hnext.taken
      · rw [hnext.attached peer, ← hattached]
        rfl
      · rw [hnext.paired, ← hpaired]
        rfl
    rw [restoreLinks, hlink]
    cases houtcome with
    | taken hchannel hadd hcalls hattached hpaired =>
      have hnext := ih (done ++ [c]) t (by rwa [List.append_assoc, List.singleton_append]) fun x hx => by
        rw [hattached]
        exact (Function.update_of_ne (hrestEmpty x hx).1 _ _).trans (hrestEmpty x hx).2
      have htracks := hnext.tracks
      rw [List.append_assoc, List.singleton_append] at htracks
      refine ⟨htracks, hnext.sublist.cons_cons c, ?_, fun peer => ?_, ?_⟩
      · have hrest := hnext.taken
        rw [hcalls, hsame.answer] at hrest
        rw [PairDirectory.book, List.map_cons, PairDirectory.book, List.map_cons, PairBook.taken, if_pos hchannel,
          if_pos hadd]
        exact congrArg _ hrest
      · rw [hnext.attached peer, hattached]
        exact attachment_cons (fun hin => hdistinct ((hnext.sublist.map _).subset hin)) peer
      · rw [hnext.paired, hpaired, List.getLast?_cons]
        cases (restoreLinks rest t).1.getLast? <;> rfl
    | notAdded hchannel hadd hcalls hattached hpaired =>
      refine hrefused _ hcalls (hunchanged hattached) hpaired ?_
      rw [PairDirectory.book, List.map_cons, PairBook.taken, if_pos hchannel, if_neg (by simp [hadd])]
      rfl
    | noChannel hchannel hcalls hattached hpaired =>
      refine hrefused _ hcalls hattached hpaired ?_
      rw [PairDirectory.book, List.map_cons, PairBook.taken, if_neg (by simp [hchannel])]
      rfl

/-- The links beyond the limit are forgotten. -/
theorem forgetDropped_tracks (hkeys : Set.InjOn (base.makeKey .Pair localMac) P) (next : UInt32)
    (kept dropped : List RestoreCandidate) : ∀ e : PairingEngine, Tracks base localMac P ⟨kept ++ dropped, next⟩ e →
      let t := dropped.foldl (fun e candidate => e.forgetPeer candidate.record.peer_mac) e
      Tracks base localMac P ⟨kept, next⟩ t ∧ t.platform = e.platform ∧ t.getPairedPeer = e.getPairedPeer := by
  induction dropped with
  | nil =>
    intro e h
    rw [List.append_nil] at h
    exact ⟨h, rfl, rfl⟩
  | cons c dropped ih =>
    intro e h
    have hforget := forgetPeer_tracks h hkeys
      (h.listed c (List.mem_append_right _ (List.mem_cons_self ..)))
    rw [erase_middle h.wellFormed] at hforget
    exact ih (e.forgetPeer c.peer) hforget

theorem saveIndex_tracks (h : Tracks base localMac P d e) {entries : List PairIndexEntry}
    (hentries : entries = d.entries) :
    Tracks base localMac P d (saveIndex e entries) := by
  subst hentries
  obtain ⟨s, hs, hstored⟩ := h.store
  have hsaved := hstored.savePairIndex h.small
  refine ⟨h.mac, ⟨_, congrArg (Option.map _) hs, ?_⟩, h.wellFormed, h.own, h.listed, h.room⟩
  rw [h.mac]
  exact hsaved

/-- What a restart makes of a directory: the links that stay, what the radio holds, and the link that is up. -/
structure Restored (base : PairingStore) (localMac : MacAddress) (P : Set MacAddress) (d : PairDirectory)
    (e : PairingEngine) (r : Bool × PairingEngine) (links : List RestoreCandidate) : Prop where
  tracks : Tracks base localMac P ⟨links, d.next⟩ r.2
  taken : PairDirectory.book ⟨links, d.next⟩ =
    PairBook.taken e.platform.answer e.platform.calls (d.book.take kRestorePairLimit)
  success : r.1 = !links.isEmpty
  attached : ∀ peer, r.2.platform.attached peer = (attachment links peer).or (e.platform.attached peer)
  paired : r.2.getPairedPeer = (links.getLast?.map (·.peer)).or e.getPairedPeer

theorem restoreFrom_tracks (h : Tracks base localMac P d e) (hkeys : Set.InjOn (base.makeKey .Pair localMac) P)
    (hlinks : d.links ≠ []) (hempty : ∀ peer, e.platform.attached peer = none) :
    ∃ links, Restored base localMac P d e (restoreFrom e d.links false) links := by
  have hunique : firstOfEach RestoreCandidate.peer
      (sorted (fun c : RestoreCandidate => (c.pair_seq, c.peer)) d.links) = d.links := by
    rw [sorted_ordered _ h.wellFormed.ordered]
    exact firstOfEach_distinct _ h.wellFormed.distinct
  have hkept : d.links.take kRestorePairLimit ≠ [] := by
    rw [ne_eq, List.take_eq_nil_iff, not_or]
    exact ⟨by decide, hlinks⟩
  have hkeptEmpty : ¬(d.links.take kRestorePairLimit).isEmpty = true := by rwa [List.isEmpty_iff]
  have hdropped := forgetDropped_tracks hkeys d.next (d.links.take kRestorePairLimit)
    (d.links.drop kRestorePairLimit) e (by rw [List.take_append_drop]; exact h)
  unfold restoreFrom
  rw [hunique]
  dsimp only at hdropped ⊢
  rw [if_neg hkeptEmpty]
  generalize (d.links.drop kRestorePairLimit).foldl
    (fun (e : PairingEngine) candidate => e.forgetPeer candidate.record.peer_mac) e = forgotten at hdropped ⊢
  obtain ⟨hforgotten, hplatform, hpaired⟩ := hdropped
  have hrun := restoreLinks_tracks hkeys d.next (d.links.take kRestorePairLimit) [] forgotten hforgotten
    fun c _ => by rw [hplatform]; exact hempty c.peer
  generalize restoreLinks (d.links.take kRestorePairLimit) forgotten = outcome at hrun ⊢
  obtain ⟨restored, t⟩ := outcome
  have htaken := hrun.taken
  have hattached := hrun.attached
  have hlink := hrun.paired
  rw [hplatform] at htaken
  rw [hpaired] at hlink
  simp only [hplatform] at hattached
  have htake : PairDirectory.book ⟨d.links.take kRestorePairLimit, d.next⟩ = d.book.take kRestorePairLimit :=
    List.map_take
  rw [htake] at htaken
  refine ⟨restored, ?_⟩
  dsimp only
  split
  · rename_i hnone
    have hnil : restored = [] := List.isEmpty_iff.mp hnone
    subst hnil
    exact ⟨saveIndex_tracks hrun.tracks rfl, htaken, rfl, hattached, hlink⟩
  · rename_i hsome
    have hsuccess : true = !restored.isEmpty := by simpa using hsome
    refine ⟨?_, htaken, hsuccess, fun peer => ?_, ?_⟩
    · dsimp only
      split
      · exact saveIndex_tracks hrun.tracks rfl
      · exact hrun.tracks
    · dsimp only
      split
      · exact hattached peer
      · exact hattached peer
    · dsimp only
      split
      · exact hlink
      · exact hlink

theorem restore_tracks (h : Tracks base localMac P d e) (hkeys : Set.InjOn (base.makeKey .Pair localMac) P)
    (hempty : ∀ peer, e.platform.attached peer = none) :
    ∃ links, Restored base localMac P d e (restore e) links := by
  obtain rfl := h.mac
  obtain ⟨s, hs, hstored⟩ := h.pairStore
  obtain ⟨hloaded, hnext⟩ := hstored.loadPairIndex h.small
  unfold restore
  rw [hs]
  dsimp only
  rcases hload : s.loadPairIndex e.local_mac with ⟨index, t⟩
  rw [hload] at hloaded hnext
  dsimp only at hloaded hnext
  by_cases hlinks : d.links = []
  · rw [if_pos hlinks] at hloaded
    subst hloaded
    refine ⟨[], ?_, ?_, rfl, fun _ => rfl, rfl⟩
    · have htracks := h.withPairStore hnext
      rw [show d = ⟨[], d.next⟩ from congrArg (fun links => PairDirectory.mk links d.next) hlinks] at htracks
      exact htracks
    · rw [PairDirectory.book, PairDirectory.book, hlinks]
      rfl
  · rw [if_neg hlinks] at hloaded
    subst hloaded
    obtain ⟨hread, hmutated, hstored⟩ := restoreCandidates_tracks h d.links t hnext fun _ hc => hc
    have hfrom := restoreFrom_tracks (h.withPairStore hstored) hkeys hlinks hempty
    obtain ⟨c, links, hcons⟩ := List.exists_cons_of_ne_nil hlinks
    have hentries : d.entries = c.entry :: links.map (·.entry) := by
      rw [PairDirectory.entries, hcons]
      rfl
    rw [show d.links.map (·.entry) = c.entry :: links.map (·.entry) from hentries] at hread hmutated hfrom
    rw [hentries]
    dsimp only
    rw [hread, hmutated]
    obtain ⟨kept, hkept⟩ := hfrom
    exact ⟨kept, hkept.tracks, hkept.taken, hkept.success, hkept.attached, hkept.paired⟩

end Restore

section Runs

variable {base : PairingStore} {localMac : MacAddress} {P : Set MacAddress} {d : PairDirectory} {e : PairingEngine}

theorem reboot_tracks (h : Tracks base localMac P d e) (platform : Platform) :
    Tracks base localMac P d (reboot e platform) := by
  obtain ⟨s, hs, hstored⟩ := h.store
  exact ⟨h.mac, ⟨_, congrArg (Option.map _) hs, hstored.fresh⟩, h.wellFormed, h.own, h.listed, h.room⟩

theorem enter_tracks (h : Tracks base localMac P d e) (hkeys : Set.InjOn (base.makeKey .Pair localMac) P)
    (hnext : d.next < 0xFFFFFFFF) (hroom : d.links.length < kMaxPairedSlaves) {peer : MacAddress} (hpeer : peer ∈ P)
    (lmk : LmkKey) :
    ∃ d' : PairDirectory, Tracks base localMac P d' (completePairing e peer lmk) ∧
      d'.book = d.book.enter peer lmk ∧ d'.next.toNat ≤ d.next.toNat + 1 := by
  obtain ⟨record, rfl, rfl, hsaved⟩ := completePairing_tracks h hkeys hroom hnext hpeer lmk
  refine ⟨d.save record, hsaved, d.book_save record, ?_⟩
  unfold PairDirectory.save
  split
  · exact Nat.le_succ _
  · rw [UInt32.toNat_add]
    exact Nat.mod_le _ _

/-- A command does to the directory what it does to the book. -/
theorem step_tracks (h : Tracks base localMac P d e) (hkeys : Set.InjOn (base.makeKey .Pair localMac) P)
    (hnext : d.next < 0xFFFFFFFF) {c : PairCommand} (hc : c.Within P) :
    ∃ d' : PairDirectory, Tracks base localMac P d' (step e c) ∧ d'.book = d.book.after c ∧
      d'.next.toNat ≤ d.next.toNat + 1 := by
  cases c with
  | pairRequest peer lmk =>
    obtain ⟨hknown, s, hafter, hstored⟩ := hasPersistedPair_tracks h hc
    have hread := h.withPairStore hstored
    obtain ⟨hcount, u, hcounted, hstored'⟩ := persistedPairCount_tracks hread
    have hopen := hread.withPairStore hstored'
    unfold step PairBook.after
    dsimp only
    rw [PairDirectory.book_length, hafter, hcount, hcounted]
    by_cases hin : peer ∈ d.peers
    · rw [if_pos (hknown.mpr hin), if_pos (.inl (PairDirectory.book_known.mpr hin))]
      exact ⟨d, hread, rfl, Nat.le_succ _⟩
    · rw [if_neg (fun hyes => hin (hknown.mp hyes))]
      by_cases hfull : d.links.length ≥ kMaxPairedSlaves
      · rw [if_pos hfull, if_pos (.inr hfull)]
        exact ⟨d, hopen, rfl, Nat.le_succ _⟩
      · rw [if_neg hfull, if_neg (not_or.mpr ⟨mt PairDirectory.book_known.mp hin, hfull⟩)]
        exact enter_tracks hopen hkeys hnext (Nat.lt_of_not_ge hfull) hc lmk
  | discovered peer lmk =>
    obtain ⟨hcount, u, hcounted, hstored⟩ := persistedPairCount_tracks h
    have hopen := h.withPairStore hstored
    unfold step PairBook.after
    dsimp only
    rw [PairDirectory.book_length, hcount, hcounted]
    by_cases hfull : d.links.length ≥ kMaxPairedSlaves
    · rw [if_pos hfull, if_pos hfull]
      exact ⟨d, hopen, rfl, Nat.le_succ _⟩
    · rw [if_neg hfull, if_neg hfull]
      exact enter_tracks hopen hkeys hnext (Nat.lt_of_not_ge hfull) hc lmk
  | unpair peer =>
    exact ⟨d.erase peer, removePeer_tracks h hkeys hc, d.book_erase peer, Nat.le_succ _⟩
  | restart platform =>
    obtain ⟨links, hrestored⟩ := restore_tracks (reboot_tracks h platform) hkeys hc
    exact ⟨⟨links, d.next⟩, hrestored.tracks, hrestored.taken, Nat.le_succ _⟩

/-- A run does to the directory what it does to the book. -/
theorem run_tracks (hkeys : Set.InjOn (base.makeKey .Pair localMac) P) (commands : List PairCommand) :
    ∀ {d : PairDirectory} {e : PairingEngine}, Tracks base localMac P d e → (∀ c ∈ commands, c.Within P) →
      d.next.toNat + commands.length ≤ 0xFFFFFFFF →
      ∃ d' : PairDirectory, Tracks base localMac P d' (commands.foldl step e) ∧
        d'.book = commands.foldl PairBook.after d.book := by
  induction commands with
  | nil => exact fun {d} {e} h _ _ => ⟨d, h, rfl⟩
  | cons c commands ih =>
    intro d e h hwithin hcount
    rw [List.length_cons] at hcount
    have hnext : d.next < 0xFFFFFFFF := by
      rw [UInt32.lt_iff_toNat_lt, show (0xFFFFFFFF : UInt32).toNat = 0xFFFFFFFF from rfl]
      omega
    obtain ⟨d', h', hbook, hgrown⟩ := step_tracks h hkeys hnext (hwithin c (List.mem_cons_self ..))
    obtain ⟨d'', h'', hbook'⟩ := ih h' (fun x hx => hwithin x (List.mem_cons_of_mem _ hx)) (by omega)
    refine ⟨d'', h'', ?_⟩
    rw [hbook', hbook]
    rfl

/-- A master at its first start, on storage that works and holds nothing. -/
def firstStart (config : ManagerConfig) (crypto : Crypto) (platform : Platform) (version : UInt8)
    (has_hooks has_time_source : Bool) (localMac : MacAddress) (profile_id : UInt8) : PairingEngine :=
  .boot config crypto platform (some (.working version fun _ => none)) has_hooks has_time_source localMac profile_id

variable (config : ManagerConfig) (crypto : Crypto) (platform : Platform) (version : UInt8)
  (has_hooks has_time_source : Bool) (profile_id : UInt8)

theorem firstStart_tracks (localMac : MacAddress) (P : Set MacAddress) :
    Tracks (.working version fun _ => none) localMac P ⟨[], 1⟩
      (firstStart config crypto platform version has_hooks has_time_source localMac profile_id) := by
  refine ⟨rfl, ⟨_, rfl, fun _ => none, ?_, ⟨rfl, rfl, fun _ _ => rfl⟩⟩, ?_, ?_, ?_, Nat.zero_le _⟩
  · exact ⟨.refl _, PairingStore.working_works .., PairingStore.working_exact version _, rfl⟩
  · refine ⟨List.Pairwise.nil, ?_, List.nodup_nil, by decide⟩
    intro c hc
    cases hc
  · intro c hc
    cases hc
  · intro c hc
    cases hc

/-- What a run leaves behind is the directory of its book. -/
theorem firstStart_run {localMac : MacAddress} {P : Set MacAddress}
    (hkeys : Set.InjOn ((PairingStore.working version fun _ => none).makeKey .Pair localMac) P)
    (commands : List PairCommand) (hwithin : ∀ c ∈ commands, c.Within P) (hcount : commands.length < 0xFFFFFFFF) :
    ∃ d : PairDirectory, d.book = commands.foldl PairBook.after [] ∧
      Tracks (.working version fun _ => none) localMac P d (commands.foldl step
        (firstStart config crypto platform version has_hooks has_time_source localMac profile_id)) := by
  have hstart := firstStart_tracks config crypto platform version has_hooks has_time_source profile_id localMac P
  have hone : (1 : UInt32).toNat = 1 := rfl
  obtain ⟨d, h, hbook⟩ := run_tracks hkeys commands hstart hwithin (by dsimp only; omega)
  exact ⟨d, hbook, h⟩

/-- A configuration with the role of a master: a slave restores more than its links. -/
def asMaster (config : ManagerConfig) : ManagerConfig := { config with local_role := .Master }

/-- In every run of a master on storage that works, of pairings, unpairings and restarts with whatever radio, the pairs that
are stored are those of the book, in the order of their pairing, each with its own record and key, as long as no
two of the peers share the storage key of their records. -/
theorem stored_pairs_follow_book {localMac : MacAddress} {P : Set MacAddress}
    (hkeys : Set.InjOn ((PairingStore.working version fun _ => none).makeKey .Pair localMac) P)
    (commands : List PairCommand) (hwithin : ∀ c ∈ commands, c.Within P) (hcount : commands.length < 0xFFFFFFFF) :
    let e := commands.foldl step
      (firstStart (asMaster config) crypto platform version has_hooks has_time_source localMac profile_id)
    let book := commands.foldl PairBook.after []
    (getPersistedPeers e).1 = book.peers ∧ book.peers.Nodup ∧ book.length ≤ kMaxPairedSlaves ∧
      ∀ link ∈ book, ∃ s record, e.store = some s ∧ (s.loadPair localMac link.1).1 = some record ∧
        isOwnRecord e record = true ∧ record.lmk = link.2 := by
  intro e book
  obtain ⟨d, hbook, h⟩ := firstStart_run (asMaster config) crypto platform version has_hooks has_time_source profile_id hkeys
    commands hwithin hcount
  have hbook : d.book = book := hbook
  rw [← hbook, d.book_peers, d.book_length]
  refine ⟨(getPersistedPeers_tracks h).1, h.wellFormed.distinct, h.room, ?_⟩
  intro link hlink
  obtain ⟨c, hc, rfl⟩ := List.mem_map.mp hlink
  obtain ⟨s, hs, hstored⟩ := h.store
  obtain ⟨hloaded, -⟩ := hstored.loadPair (h.listed c hc)
  rw [PairDirectory.find_of_mem h.wellFormed hc] at hloaded
  exact ⟨s, c.record, hs, hloaded, h.own c hc, rfl⟩

/-- After every such run a restart brings back the links of the oldest fourteen pairs that its radio takes: these
stay stored, they alone are in the table of the radio, encrypted with their keys, and the newest of them is up. It
loses the other pairs, of fifteen the newest always. -/
theorem restart_restores_book {localMac : MacAddress} {P : Set MacAddress}
    (hkeys : Set.InjOn ((PairingStore.working version fun _ => none).makeKey .Pair localMac) P)
    (commands : List PairCommand) (hwithin : ∀ c ∈ commands, c.Within P) (hcount : commands.length < 0xFFFFFFFF)
    (radio : Platform) (hempty : ∀ peer, radio.attached peer = none) :
    let e := commands.foldl step
      (firstStart (asMaster config) crypto platform version has_hooks has_time_source localMac profile_id)
    let t := restore (reboot e radio)
    let book := commands.foldl PairBook.after []
    let kept := PairBook.taken radio.answer radio.calls (book.take kRestorePairLimit)
    (getPersistedPeers t.2).1 = kept.peers ∧ t.1 = !kept.isEmpty ∧
      (∀ peer, t.2.platform.attached peer =
        (kept.find? fun link => link.1 = peer).map fun link => ⟨true, some link.2⟩) ∧
      t.2.getPairedPeer = kept.peers.getLast? ∧
      ((∀ n, (radio.answer n).ok = true) → kept = book.take kRestorePairLimit) := by
  intro e t book kept
  obtain ⟨d, hbook, h⟩ := firstStart_run (asMaster config) crypto platform version has_hooks has_time_source profile_id hkeys
    commands hwithin hcount
  obtain ⟨links, hrestored⟩ := restore_tracks (reboot_tracks h radio) hkeys hempty
  have hkept : PairDirectory.book ⟨links, d.next⟩ = kept := by
    rw [hrestored.taken, hbook]
    rfl
  rw [← hkept, PairDirectory.book_peers]
  refine ⟨(getPersistedPeers_tracks hrestored.tracks).1, ?_, fun peer => ?_, ?_, fun hwilling => ?_⟩
  · have hsuccess : t.1 = !links.isEmpty := hrestored.success
    rw [hsuccess, PairDirectory.book, List.isEmpty_map]
  · have hattached : t.2.platform.attached peer = (attachment links peer).or (radio.attached peer) :=
      hrestored.attached peer
    rw [hattached, hempty peer, Option.or_none, attachment, PairDirectory.book, List.find?_map, Option.map_map]
    rfl
  · have hpaired : t.2.getPairedPeer = (links.getLast?.map (·.peer)).or none := hrestored.paired
    rw [hpaired, Option.or_none, PairDirectory.peers, List.getLast?_map]
  · rw [hkept]
    exact PairBook.taken_all hwilling _ _

end Runs

/-! A master that is asked for fifteen pairs, which is what it admits. -/

def fifteenPeers : List MacAddress := (List.range 15).map fun n => PairingExample.mac (n.toUInt8 + 2)

def fifteenRequests : List PairCommand := fifteenPeers.map fun peer => .pairRequest peer (Vector.replicate 16 5)

theorem fifteenPeers_keys :
    Set.InjOn ((PairingStore.working 1 fun _ => none).makeKey .Pair (PairingExample.mac 1)) {p | p ∈ fifteenPeers} := by
  have hnodup : (fifteenPeers.map
      ((PairingStore.working 1 fun _ => none).makeKey .Pair (PairingExample.mac 1))).Nodup := by
    decide +kernel
  exact fun _ hp _ hq heq => List.inj_on_of_nodup_map hnodup hp hq heq

theorem fifteenRequests_within : ∀ c ∈ fifteenRequests, c.Within {p | p ∈ fifteenPeers} := by
  intro c hc
  obtain ⟨peer, hpeer, rfl⟩ := List.mem_map.mp hc
  exact hpeer

/-- All fifteen are stored. -/
theorem fifteen_pairs_stored :
    (getPersistedPeers (fifteenRequests.foldl step (firstStart (PairingExample.config .Master) ⟨fun _ _ => none, []⟩
      PairingExample.alwaysOk 1 false false (PairingExample.mac 1) 1))).1 = fifteenPeers := by
  have hrun := stored_pairs_follow_book (PairingExample.config .Master) ⟨fun _ _ => none, []⟩ PairingExample.alwaysOk 1
    false false 1 fifteenPeers_keys fifteenRequests fifteenRequests_within (by decide)
  have hbook : (fifteenRequests.foldl PairBook.after []).peers = fifteenPeers := by decide +kernel
  exact hrun.1.trans hbook

/-- A restart on a radio that takes every call loses the last of them. -/
theorem fifteenth_pair_lost :
    (getPersistedPeers (restore (reboot (fifteenRequests.foldl step (firstStart (PairingExample.config .Master)
      ⟨fun _ _ => none, []⟩ PairingExample.alwaysOk 1 false false (PairingExample.mac 1) 1))
      PairingExample.alwaysOk)).2).1 = fifteenPeers.take 14 := by
  have hrun := restart_restores_book (PairingExample.config .Master) ⟨fun _ _ => none, []⟩ PairingExample.alwaysOk 1
    false false 1 fifteenPeers_keys fifteenRequests fifteenRequests_within (by decide) PairingExample.alwaysOk
    fun _ => rfl
  have hbook : PairBook.peers ((fifteenRequests.foldl PairBook.after []).take kRestorePairLimit) =
      fifteenPeers.take 14 := by
    decide +kernel
  obtain ⟨hpeers, -, -, -, hall⟩ := hrun
  refine hpeers.trans ?_
  rw [hall fun _ => rfl]
  exact hbook

end EspNowManager

end EspNowLink
