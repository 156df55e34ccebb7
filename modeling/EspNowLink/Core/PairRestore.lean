import EspNowLink.Platform.PairDirectory
import EspNowLink.Topology.Manager
import Mathlib.Data.List.Sort

namespace EspNowLink

def kRestorePairLimit : Nat := 14
def kMaxPairedSlaves : Nat := 15

namespace PairOrder

/-- The comparison of the sorts: by number, then by address. -/
def before (a b : UInt32 × MacAddress) : Bool :=
  if a.1 ≠ b.1 then a.1 < b.1 else compareMac a.2 b.2 = .lt

variable {α : Type} (rank : α → UInt32 × MacAddress)

def NotAfter (a b : α) : Prop := before (rank b) (rank a) = false

instance : DecidableRel (NotAfter rank) := fun a b => inferInstanceAs (Decidable (before (rank b) (rank a) = false))

def sorted (l : List α) : List α := l.insertionSort (NotAfter rank)

/-- The loop that keeps the first of each peer. -/
def firstOfEach (peer : α → MacAddress) (l : List α) : List α :=
  l.foldl (fun kept a => if kept.any fun b => peer b = peer a then kept else kept ++ [a]) []

/-- What is in the order of its numbers stays as it is. -/
theorem sorted_ordered {l : List α} (h : l.Pairwise fun a b => (rank a).1 < (rank b).1) : sorted rank l = l := by
  refine List.Pairwise.insertionSort_eq (h.imp fun {a b} hlt => ?_)
  have hne : (rank b).1 ≠ (rank a).1 := (UInt32.ne_of_lt hlt).symm
  have hge : ¬ (rank b).1 < (rank a).1 := UInt32.not_lt.mpr (UInt32.le_of_lt hlt)
  rw [NotAfter, before, if_pos hne]
  exact decide_eq_false hge

/-- Where each peer comes once, all are kept. -/
theorem firstOfEach_distinct (peer : α → MacAddress) {l : List α} (h : (l.map peer).Nodup) :
    firstOfEach peer l = l := by
  have hfold : ∀ (rest kept : List α), ((kept ++ rest).map peer).Nodup →
      rest.foldl (fun kept a => if kept.any fun b => peer b = peer a then kept else kept ++ [a]) kept =
        kept ++ rest := by
    intro rest
    induction rest with
    | nil => exact fun kept _ => (List.append_nil kept).symm
    | cons a rest ih =>
      intro kept hnodup
      have hfresh : ¬ (kept.any fun b => peer b = peer a) = true := by
        rw [List.any_eq_true]
        rintro ⟨b, hb, heq⟩
        rw [List.map_append, List.nodup_append] at hnodup
        exact hnodup.2.2 (peer b) (List.mem_map.mpr ⟨b, hb, rfl⟩) (peer a) (List.mem_cons_self ..) (by simpa using heq)
      rw [List.foldl_cons, if_neg hfresh, ih (kept ++ [a]) (by rwa [List.append_assoc, List.singleton_append]),
        List.append_assoc, List.singleton_append]
  exact hfold l [] h

end PairOrder

/-! The functions of a manager over the engine that it owns. -/

namespace EspNowManager

open PairOrder

def withPairStore (e : PairingEngine) (s : PairingStore) : PairingEngine := { e with store := some s }

/-- The store, if it is there and enabled. -/
def pairStore (e : PairingEngine) : Option PairingStore := e.store.filter (·.enabled)

def isOwnRecord (e : PairingEngine) (record : PairRecord) : Bool :=
  record.valid && record.local_role == e.config.local_role.toByte && record.local_mac == e.local_mac

def hasPersistedPair (e : PairingEngine) (peer : MacAddress) : Bool × PairingEngine :=
  match pairStore e with
  | none => (e.getPairedPeer == some peer, e)
  | some s => ((s.loadPair e.local_mac peer).1.any (isOwnRecord e), withPairStore e (s.loadPair e.local_mac peer).2)

/-- The loop of `getPersistedPeers` over the index. -/
def indexedPeers (e : PairingEngine) : List PairIndexEntry → List PairIndexEntry → PairingStore →
    List PairIndexEntry × PairingStore
  | [], ordered, s => (ordered, s)
  | entry :: rest, ordered, s =>
    if !entry.valid || entry.pair_seq = 0 then indexedPeers e rest ordered s
    else if (s.loadPair e.local_mac entry.peer_mac).1.any (isOwnRecord e) &&
        !ordered.any fun existing => existing.peer_mac = entry.peer_mac then
      indexedPeers e rest (ordered ++ [entry]) (s.loadPair e.local_mac entry.peer_mac).2
    else indexedPeers e rest ordered (s.loadPair e.local_mac entry.peer_mac).2

def getPersistedPeers (e : PairingEngine) : List MacAddress × PairingEngine :=
  match pairStore e with
  | none => (e.getPairedPeer.toList, e)
  | some s =>
    match s.loadPairIndex e.local_mac with
    | (none, s) => ([], withPairStore e s)
    | (some entries, s) =>
      let (ordered, s) := indexedPeers e entries [] s
      ((sorted (fun entry => (entry.pair_seq, entry.peer_mac)) ordered).map (·.peer_mac), withPairStore e s)

def persistedPairCount (e : PairingEngine) : Nat × PairingEngine :=
  ((getPersistedPeers e).1.length, (getPersistedPeers e).2)

/-- The first loop of `restore`: the records of the entries, and whether the index has to change. -/
def restoreCandidates (localMac : MacAddress) : List PairIndexEntry → PairingStore →
    List RestoreCandidate × Bool × PairingStore
  | [], s => ([], false, s)
  | entry :: rest, s =>
    if !entry.valid || entry.pair_seq = 0 then
      ((restoreCandidates localMac rest s).1, true, (restoreCandidates localMac rest s).2.2)
    else
      match (s.loadPair localMac entry.peer_mac).1.filter (·.valid), (s.loadPair localMac entry.peer_mac).2 with
      | some record, s =>
        let (candidates, mutated, s) := restoreCandidates localMac rest s
        (⟨record, entry.pair_seq⟩ :: candidates, mutated, s)
      | none, s =>
        let (candidates, _, s) := restoreCandidates localMac rest
          ((s.erasePair localMac entry.peer_mac).2.eraseChannel localMac entry.peer_mac).2
        (candidates, true, s)

/-- The last loop of `restore`: a link that cannot be restored is forgotten. -/
def restoreLinks : List RestoreCandidate → PairingEngine → List RestoreCandidate × PairingEngine
  | [], e => ([], e)
  | candidate :: rest, e =>
    match e.restorePairedLink candidate.record with
    | (true, e) => ((candidate :: (restoreLinks rest e).1), (restoreLinks rest e).2)
    | (false, e) => restoreLinks rest (e.forgetPeer candidate.record.peer_mac)

def saveIndex (e : PairingEngine) (entries : List PairIndexEntry) : PairingEngine :=
  e.withStore fun s => (s.savePairIndex e.local_mac entries).2

/-- `restore` of a master, from the records that were read. Of a link that it restores, a slave also restores
its telemetry push and its topology. -/
def restoreFrom (e : PairingEngine) (candidates : List RestoreCandidate) (mutated : Bool) : Bool × PairingEngine :=
  let unique := firstOfEach RestoreCandidate.peer (sorted (fun c => (c.pair_seq, c.peer)) candidates)
  let kept := unique.take kRestorePairLimit
  let dropped := unique.drop kRestorePairLimit
  let mutated := mutated || unique.length != candidates.length || !dropped.isEmpty
  let e := dropped.foldl (fun e candidate => e.forgetPeer candidate.record.peer_mac) e
  if kept.isEmpty then (false, if mutated then saveIndex e [] else e)
  else
    let (restored, e) := restoreLinks kept e
    if restored.isEmpty then (false, saveIndex e [])
    else
      (true, if mutated || restored.length != kept.length then saveIndex e (restored.map (·.entry)) else e)

def restore (e : PairingEngine) : Bool × PairingEngine :=
  match pairStore e with
  | none => (false, e)
  | some s =>
    match s.loadPairIndex e.local_mac with
    | (none, s) => (false, withPairStore e s)
    | (some [], s) => (false, withPairStore e s)
    | (some entries, s) =>
      let (candidates, mutated, s) := restoreCandidates e.local_mac entries s
      restoreFrom (withPairStore e s) candidates mutated

end EspNowManager

end EspNowLink
