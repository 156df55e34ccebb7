import EspNowLink.Pairing.Engine
import EspNowLink.Topology.Blobs

namespace EspNowLink

def kTopologyMetaSlotStaged : UInt8 := 0x32
def kTopologyMetaSlotCommitted : UInt8 := 0x33
def kTopologyMetaSlotLmk : UInt8 := 0x34

/-- The bytes of `L2L-v1`. -/
def kTopologyDeriveTag : Bytes := [0x4C, 0x32, 0x4C, 0x2D, 0x76, 0x31]

/-- A `std::map` over peers, walked in the order of the addresses. -/
abbrev PeerMap (β : Type) := Std.TreeMap MacAddress β

def compareMac (lhs rhs : MacAddress) : Ordering := compare lhs rhs

def deriveLmkFromTopologySeed (crypto : Crypto) (group_seed : Vector UInt8 32)
    (icm_mac peer_a peer_b : MacAddress) (group_id : UInt8) : Option LmkKey :=
  let a := if compareMac peer_a peer_b = .gt then peer_b else peer_a
  let b := if compareMac peer_a peer_b = .gt then peer_a else peer_b
  (crypto.hmac group_seed.toList (kTopologyDeriveTag ++ icm_mac.toList ++ a.toList ++ b.toList ++
    [group_id])).map fun digest => Vector.ofFn fun i => digest.get (i.castLE (by decide))

def findTopologyGroupSeed (snapshot : TopologySnapshot) (group_id : UInt8) :
    Option (Vector UInt8 32) :=
  if group_id = 0 then none
  else (snapshot.groups.toList.find? fun g => g.enabled && g.group_id == group_id).map (·.seed)

def findSlotLmkFromNvs (slot : TopologySlot) (saved : TopologyPersistedLmkMeta) : Option LmkKey :=
  (saved.entries.find? (·.peer == slot.peer)).map (·.lmk)

/-- The loop of `buildDesiredTopologyPeersFromNvs_`. -/
def desiredFromNvs (saved : TopologyPersistedLmkMeta) :
    List TopologySlot → PeerMap LmkKey → Except String (PeerMap LmkKey)
  | [], desired => .ok desired
  | slot :: rest, desired =>
    if !slot.enabled then desiredFromNvs saved rest desired
    else match findSlotLmkFromNvs slot saved with
      | none => .error "topology_lmk_missing"
      | some lmk => match desired[slot.peer]? with
        | none => desiredFromNvs saved rest (desired.insert slot.peer lmk)
        | some old =>
          if old ≠ lmk then .error "topology_lmk_conflict" else desiredFromNvs saved rest desired

def buildDesiredTopologyPeersFromNvs (snapshot : TopologySnapshot)
    (saved : TopologyPersistedLmkMeta) : Except String (PeerMap LmkKey) :=
  desiredFromNvs saved snapshot.slots.toList ∅

namespace Platform

/-- One `requestAttach` after the other, up to the first that fails. -/
def attachAll : Platform → List (MacAddress × LmkKey) → Bool × Platform
  | p, [] => (true, p)
  | p, (mac, lmk) :: rest =>
    match p.addPeer mac true (some lmk) with
    | (false, p) => (false, p)
    | (true, p) => p.attachAll rest

/-- One `requestEvict` after the other, up to the first that fails. -/
def evictAll : Platform → List MacAddress → Bool × Platform
  | p, [] => (true, p)
  | p, mac :: rest =>
    match p.removePeer mac with
    | (false, p) => (false, p)
    | (true, p) => p.evictAll rest

end Platform

/-- The part of the manager that holds the topology, with the pairing, radio and storage state its
topology functions use. `paired_peer` is what `pairing_.getPairedPeer` finds. -/
structure TopologyManager where
  local_role : Role
  local_profile_id : ProfileId
  local_mac : MacAddress
  crypto : Crypto
  paired_peer : Option MacAddress
  has_peer_window : Bool
  platform : Platform
  store : Option PairingStore
  topology_staged : Option TopologySnapshot
  topology_committed : Option TopologySnapshot
  topology_attached_peers : List MacAddress

namespace TopologyManager

def withPlatform (m : TopologyManager) (platform : Platform) : TopologyManager :=
  { m with platform := platform }

def withStore (m : TopologyManager) (store : PairingStore) : TopologyManager :=
  { m with store := some store }

def withAttached (m : TopologyManager) (peers : List MacAddress) : TopologyManager :=
  { m with topology_attached_peers := peers }

def withStaged (m : TopologyManager) (staged : Option TopologySnapshot) : TopologyManager :=
  { m with topology_staged := staged }

def withCommitted (m : TopologyManager) (committed : Option TopologySnapshot) : TopologyManager :=
  { m with topology_committed := committed }

def withPaired (m : TopologyManager) (peer : Option MacAddress) : TopologyManager :=
  { m with paired_peer := peer }

def storeEnabled (m : TopologyManager) : Bool := m.store.any (·.enabled)

def saveLocalMetaBlob (m : TopologyManager) (slot : UInt8) (data : Bytes) : Bool × TopologyManager :=
  match m.store with
  | none => (false, m)
  | some s =>
    let (saved, s) := s.saveMetaBlob m.local_mac zeroMac slot data
    (saved, m.withStore s)

def loadLocalMetaBlob (m : TopologyManager) (slot : UInt8) : Option Bytes × TopologyManager :=
  match m.store with
  | none => (none, m)
  | some s =>
    let (blob, s) := s.loadMetaBlob m.local_mac zeroMac slot
    (blob, m.withStore s)

def eraseLocalMetaBlob (m : TopologyManager) (slot : UInt8) : Bool × TopologyManager :=
  match m.store with
  | none => (false, m)
  | some s =>
    let (erased, s) := s.eraseMetaBlob m.local_mac zeroMac slot
    (erased, m.withStore s)

def saveTopologySnapshotMeta (m : TopologyManager) (slot : UInt8) (snapshot : TopologySnapshot) :
    Bool × TopologyManager :=
  if !m.storeEnabled then (true, m) else m.saveLocalMetaBlob slot (topologySnapshotBlob snapshot)

def loadTopologySnapshotMeta (m : TopologyManager) (slot : UInt8) :
    Option TopologySnapshot × TopologyManager :=
  if !m.storeEnabled then (none, m)
  else
    let (blob, m) := m.loadLocalMetaBlob slot
    (blob.bind topologySnapshotOfBlob, m)

def eraseTopologySnapshotMeta (m : TopologyManager) (slot : UInt8) : Bool × TopologyManager :=
  if !m.storeEnabled then (true, m) else m.eraseLocalMetaBlob slot

def deriveTopologySlotLmk (m : TopologyManager) (snapshot : TopologySnapshot) (slot : TopologySlot) :
    Except String LmkKey :=
  if !slot.enabled then .error "topology_slot_disabled"
  else if slot.peer = m.local_mac then .error "topology_slot_self_peer"
  else match findTopologyGroupSeed snapshot slot.group_id with
    | none => .error "topology_group_seed_missing"
    | some group_seed => match m.paired_peer with
      | none => .error "topology_master_missing"
      | some master_mac =>
        match deriveLmkFromTopologySeed m.crypto group_seed master_mac m.local_mac slot.peer
          slot.group_id with
        | none => .error "topology_lmk_derive_failed"
        | some lmk => .ok lmk

/-- A slot's key enters the choice of its peer: the key of the smallest group stays. -/
def choosePeerLmk (choice : PeerMap (LmkKey × UInt8)) (slot : TopologySlot) (slot_lmk : LmkKey) :
    Except String (PeerMap (LmkKey × UInt8)) :=
  match choice[slot.peer]? with
  | none => .ok (choice.insert slot.peer (slot_lmk, slot.group_id))
  | some (lmk, group_id) =>
    if slot.group_id < group_id then .ok (choice.insert slot.peer (slot_lmk, slot.group_id))
    else if slot.group_id = group_id ∧ lmk ≠ slot_lmk then .error "topology_lmk_conflict"
    else .ok choice

/-- The loop that `materializeTopologyPeers_` and `saveTopologyLmkMeta_` share. -/
def choosePeerLmks (m : TopologyManager) (snapshot : TopologySnapshot) :
    List TopologySlot → PeerMap (LmkKey × UInt8) → Except String (PeerMap (LmkKey × UInt8))
  | [], choice => .ok choice
  | slot :: rest, choice =>
    if !slot.enabled then m.choosePeerLmks snapshot rest choice
    else match m.deriveTopologySlotLmk snapshot slot with
      | .error error => .error error
      | .ok slot_lmk => match choosePeerLmk choice slot slot_lmk with
        | .error error => .error error
        | .ok choice => m.choosePeerLmks snapshot rest choice

def peerChoice (m : TopologyManager) (snapshot : TopologySnapshot) :
    Except String (PeerMap (LmkKey × UInt8)) :=
  m.choosePeerLmks snapshot snapshot.slots.toList ∅

def applyTopologyDesiredPeers (m : TopologyManager) (desired : PeerMap LmkKey) :
    Except String Unit × TopologyManager :=
  if m.local_role ≠ .Slave then (.ok (), m)
  else if !m.has_peer_window then (.error "topology_peer_window_missing", m)
  else
    let next := desired.toList.filter fun kv => m.paired_peer ≠ some kv.1
    let gone := m.topology_attached_peers.filter fun old =>
      m.paired_peer ≠ some old && !desired.contains old
    match m.platform.attachAll next with
    | (false, p) => (.error "topology_attach_failed", m.withPlatform p)
    | (true, p) => match p.evictAll gone with
      | (false, p) => (.error "topology_evict_failed", m.withPlatform p)
      | (true, p) => (.ok (), (m.withPlatform p).withAttached (next.map (·.1)))

def materializeTopologyPeers (m : TopologyManager) (snapshot : TopologySnapshot) :
    Except String Unit × TopologyManager :=
  if m.local_role ≠ .Slave then (.ok (), m)
  else match m.peerChoice snapshot with
    | .error error => (.error error, m)
    | .ok choice => m.applyTopologyDesiredPeers (choice.map fun _ kv => kv.1)

/-- The key metadata of a snapshot under a master. -/
def lmkMeta (m : TopologyManager) (snapshot : TopologySnapshot) (paired_master : MacAddress)
    (choice : PeerMap (LmkKey × UInt8)) : TopologyPersistedLmkMeta where
  topology_version := snapshot.topology_version
  topology_checksum := snapshot.checksum
  master_mac := paired_master
  local_mac := m.local_mac
  local_profile := m.local_profile_id.toUInt8
  entries := choice.toList.map fun kv => ⟨kv.1, kv.2.1, kv.2.2⟩

def saveTopologyLmkMeta (m : TopologyManager) (snapshot : TopologySnapshot) : Bool × TopologyManager :=
  if !m.storeEnabled then (true, m)
  else match m.paired_peer with
    | none => (false, m)
    | some paired_master =>
      if m.local_profile_id.toUInt8 = 0 then (false, m)
      else match m.peerChoice snapshot with
        | .error _ => (false, m)
        | .ok choice =>
          if choice.isEmpty then m.eraseLocalMetaBlob kTopologyMetaSlotLmk
          else if choice.size > 255 then (false, m)
          else m.saveLocalMetaBlob kTopologyMetaSlotLmk
            (lmkMetaBlob (m.lmkMeta snapshot paired_master choice))

/-- A blob that cannot be read is erased. -/
def loadTopologyLmkMeta (m : TopologyManager) :
    Except String TopologyPersistedLmkMeta × TopologyManager :=
  if !m.storeEnabled then (.error "topology_lmk_nvs_disabled", m)
  else match m.loadLocalMetaBlob kTopologyMetaSlotLmk with
    | (none, m) => (.error "topology_lmk_nvs_miss", m)
    | (some blob, m) => match lmkMetaOfBlob blob with
      | .error error => (.error error, (m.eraseLocalMetaBlob kTopologyMetaSlotLmk).2)
      | .ok saved => (.ok saved, m)

def validateTopologyLmkMeta (m : TopologyManager) (saved : TopologyPersistedLmkMeta)
    (snapshot : TopologySnapshot) (paired_master : MacAddress) : Except String Unit :=
  if saved.entries.isEmpty then .error "topology_lmk_nvs_empty"
  else if saved.topology_version ≠ snapshot.topology_version then
    .error "topology_lmk_nvs_version_mismatch"
  else if saved.topology_checksum ≠ snapshot.checksum then .error "topology_lmk_nvs_checksum_mismatch"
  else if saved.master_mac ≠ paired_master then .error "topology_lmk_nvs_master_mismatch"
  else if saved.local_mac ≠ m.local_mac then .error "topology_lmk_nvs_local_mismatch"
  else if saved.local_profile = 0 ∨ saved.local_profile ≠ m.local_profile_id.toUInt8 then
    .error "topology_lmk_nvs_profile_mismatch"
  else .ok ()

/-- The slot's key in the stored metadata, when that is valid for the committed snapshot. -/
def slotLmkFromMeta (m : TopologyManager) (committed : TopologySnapshot) (paired_master : MacAddress)
    (slot : TopologySlot) : Option LmkKey × TopologyManager :=
  match m.loadTopologyLmkMeta with
  | (.error _, m) => (none, m)
  | (.ok saved, m) => match m.validateTopologyLmkMeta saved committed paired_master with
    | .error _ => (none, m)
    | .ok _ => (findSlotLmkFromNvs slot saved, m)

def ensureTopologyPeerReadyForSlot (m : TopologyManager) (slot : TopologySlot) :
    Except String Unit × TopologyManager :=
  if m.local_role ≠ .Slave then (.ok (), m)
  else if !slot.enabled then (.error "index_unmapped", m)
  else if !m.has_peer_window then (.error "peer_not_ready", m)
  else match m.paired_peer with
    | none => (.error "pair_missing", m)
    | some paired_master =>
      if paired_master = slot.peer then (.ok (), m)
      else match m.topology_committed with
        | none => (.error "topology_missing", m)
        | some committed =>
          match m.slotLmkFromMeta committed paired_master slot with
          | (some lmk, m) => match m.platform.addPeer slot.peer true (some lmk) with
            | (false, p) => (.error "peer_attach_failed", m.withPlatform p)
            | (true, p) => (.ok (), m.withPlatform p)
          | (none, m) => match m.deriveTopologySlotLmk committed slot with
            | .error error => (.error error, m)
            | .ok lmk => match m.platform.addPeer slot.peer true (some lmk) with
              | (false, p) => (.error "peer_attach_failed", m.withPlatform p)
              | (true, p) => (.ok (), ((m.withPlatform p).saveTopologyLmkMeta committed).2)

def differs (old : Option TopologySnapshot) (normalized : TopologySnapshot) : Bool :=
  old.all fun s =>
    s.topology_version != normalized.topology_version || s.checksum != normalized.checksum

def stageTopology (m : TopologyManager) (snapshot : TopologySnapshot) :
    Except String Unit × TopologyManager :=
  match validateTopologySnapshot m.local_profile_id (snapshot.withState .Staged) with
  | .error error => (.error error, m)
  | .ok normalized =>
    let old_staged := m.topology_staged
    let m := if m.local_role = .Slave ∧ m.storeEnabled ∧
        (differs m.topology_staged normalized ∨ differs m.topology_committed normalized) then
      (m.eraseLocalMetaBlob kTopologyMetaSlotLmk).2 else m
    match (m.withStaged (some normalized)).saveTopologySnapshotMeta kTopologyMetaSlotStaged
      normalized with
    | (false, m) => (.error "topology_persist_failed", m.withStaged old_staged)
    | (true, m) => (.ok (), m)

/-- The key metadata before a commit, which a failed commit writes back. -/
def oldLmkBlob (m : TopologyManager) : Option Bytes × TopologyManager :=
  if m.local_role = .Slave ∧ m.storeEnabled then m.loadLocalMetaBlob kTopologyMetaSlotLmk
  else (none, m)

def restoreOldLmkMeta (m : TopologyManager) (old_lmk_blob : Option Bytes) : TopologyManager :=
  if m.local_role ≠ .Slave ∨ !m.storeEnabled then m
  else match old_lmk_blob with
    | some (b :: bs) => (m.saveLocalMetaBlob kTopologyMetaSlotLmk (b :: bs)).2
    | _ => (m.eraseLocalMetaBlob kTopologyMetaSlotLmk).2

/-- The best-effort way back to the peers and the metadata from before the commit. -/
def rollbackCommit (m : TopologyManager) (old_committed : Option TopologySnapshot)
    (old_attached : List MacAddress) (old_lmk_blob : Option Bytes) : TopologyManager :=
  let m := m.withAttached old_attached
  let m := match old_committed with
    | none => m
    | some old => (m.materializeTopologyPeers old).2
  m.restoreOldLmkMeta old_lmk_blob

/-- `commitStagedTopology` from the point where the peers are attached. -/
def persistCommit (m : TopologyManager) (normalized : TopologySnapshot)
    (old_attached : List MacAddress) (old_lmk_blob : Option Bytes) :
    Except String Unit × TopologyManager :=
  let old_committed := m.topology_committed
  match (m.withCommitted (some normalized)).saveTopologySnapshotMeta kTopologyMetaSlotCommitted
    normalized with
  | (false, m) =>
    let m := m.withCommitted old_committed
    (.error "topology_persist_failed",
      if m.local_role = .Slave then m.rollbackCommit old_committed old_attached old_lmk_blob else m)
  | (true, m) => (.ok (), ((m.withStaged none).eraseTopologySnapshotMeta kTopologyMetaSlotStaged).2)

def commitStagedTopology (m : TopologyManager) : Except String Unit × TopologyManager :=
  match m.topology_staged with
  | none =>
    if m.topology_committed.isSome then (.ok (), m) else (.error "topology_not_staged", m)
  | some staged =>
    match validateTopologySnapshot m.local_profile_id
      ((staged.withState .Committed).withChecksum 0) with
    | .error error => (.error error, m)
    | .ok normalized =>
      let old_attached := m.topology_attached_peers
      match m.oldLmkBlob with
      | (old_lmk_blob, m) =>
        if m.local_role ≠ .Slave then m.persistCommit normalized old_attached old_lmk_blob
        else match m.materializeTopologyPeers normalized with
          | (.error _, m) => (.error "topology_apply_failed", m.withAttached old_attached)
          | (.ok _, m) => match m.saveTopologyLmkMeta normalized with
            | (false, m) =>
              (.error "topology_persist_failed",
                m.rollbackCommit m.topology_committed old_attached old_lmk_blob)
            | (true, m) => m.persistCommit normalized old_attached old_lmk_blob

def clearStagedTopology (m : TopologyManager) : Bool × TopologyManager :=
  (m.withStaged none).eraseTopologySnapshotMeta kTopologyMetaSlotStaged

/-- One of the two snapshots of `restoreTopologySnapshots_`; one that does not pass is erased. -/
def restoreSnapshot (m : TopologyManager) (slot : UInt8) (state : TopologyState) :
    Option TopologySnapshot × TopologyManager :=
  match m.loadTopologySnapshotMeta slot with
  | (none, m) => (none, m)
  | (some stored, m) =>
    match validateTopologySnapshot m.local_profile_id (stored.withState state) with
    | .ok snapshot => (some snapshot, m)
    | .error _ => (none, (m.eraseTopologySnapshotMeta slot).2)

def restoreTopologySnapshots (m : TopologyManager) : TopologyManager :=
  let m := ((m.withStaged none).withCommitted none).withAttached []
  let (committed, m) := m.restoreSnapshot kTopologyMetaSlotCommitted .Committed
  let m := m.withCommitted committed
  let (staged, m) := m.restoreSnapshot kTopologyMetaSlotStaged .Staged
  m.withStaged staged

/-- The desired peers from the stored metadata, when that is valid for the committed snapshot. -/
def desiredFromMeta (m : TopologyManager) (committed : TopologySnapshot) (paired_master : MacAddress) :
    Option (PeerMap LmkKey) × TopologyManager :=
  match m.loadTopologyLmkMeta with
  | (.error _, m) => (none, m)
  | (.ok saved, m) => match m.validateTopologyLmkMeta saved committed paired_master with
    | .error _ => (none, m)
    | .ok _ => match buildDesiredTopologyPeersFromNvs committed saved with
      | .error _ => (none, m)
      | .ok desired => (some desired, m)

/-- The topology part of `restorePairedLink`, after the link to `paired_master` is restored. -/
def restoreTopologyPeers (m : TopologyManager) (paired_master : MacAddress) : TopologyManager :=
  let m := m.withPaired (some paired_master)
  match m.topology_committed with
  | none => m
  | some committed =>
    let derive (m : TopologyManager) : TopologyManager :=
      match m.materializeTopologyPeers committed with
      | (.error _, m) => m
      | (.ok _, m) => (m.saveTopologyLmkMeta committed).2
    match m.desiredFromMeta committed paired_master with
    | (none, m) => derive m
    | (some desired, m) => match m.applyTopologyDesiredPeers desired with
      | (.error _, m) => derive m
      | (.ok _, m) => m

end TopologyManager

end EspNowLink
