import EspNowLink.Platform.StoreFrame
import EspNowLink.Topology.Validation

namespace EspNowLink

def kTopologyBlobVersion : UInt8 := 1
def kTopologySlotBlobSize : Nat := 17
def kTopologyGroupBlobSize : Nat := 34
def kTopologyHeaderBlobSize : Nat := 16
def kTopologyBlobSize : Nat :=
  kTopologyHeaderBlobSize + kTopologyMaxSlots * kTopologySlotBlobSize +
    kTopologyMaxGroups * kTopologyGroupBlobSize
def kTopologyLmkBlobVersionV2 : UInt8 := 2
def kTopologyLmkBlobEntrySize : Nat := 23
def kTopologyLmkBlobHeaderSizeV2 : Nat := 23

def topologySnapshotHeader (s : TopologySnapshot) : Bytes :=
  [kTopologyBlobVersion, s.schema_version, s.state.toByte, 0] ++ le32 s.topology_version ++
    [s.index_neg, s.index_pos, s.enabled_slot_count, s.enabled_group_count] ++ le32 s.checksum

/-- `serializeTopologySnapshotBlob`. A slot and a group are written as the checksum mixes them. -/
def topologySnapshotBlob (s : TopologySnapshot) : Bytes :=
  topologySnapshotHeader s ++ s.slots.toList.flatMap slotChecksumBytes ++
    s.groups.toList.flatMap groupChecksumBytes

/-- `readTopologySlotBlob` on the first bytes of `b`. -/
def topologySlotOfBlob (b : Bytes) : TopologySlot where
  enabled := b.getD 0 0 != 0
  peer := bytesAt b 1 6
  peer_role := b.getD 7 0
  group_id := b.getD 8 0
  relative_index := (b.getD 9 0).toInt8
  local_virtual_index := b.getD 10 0
  peer_virtual_index := b.getD 11 0
  axis_order := (b.getD 12 0).toInt8
  delay_ms := readLe16 (b.getD 13 0) (b.getD 14 0)
  hold_ms := readLe16 (b.getD 15 0) (b.getD 16 0)

/-- `readTopologyGroupBlob` on the first bytes of `b`. -/
def topologyGroupOfBlob (b : Bytes) : TopologyGroupSeed where
  enabled := b.getD 0 0 != 0
  group_id := b.getD 1 0
  seed := bytesAt b 2 32

/-- A state byte; the callers overwrite the state that they read. -/
def TopologyState.ofByte (b : UInt8) : TopologyState :=
  if b = 1 then .Staged else if b = 2 then .Committed else .None

/-- `deserializeTopologySnapshotBlob`. -/
def topologySnapshotOfBlob (blob : Bytes) : Option TopologySnapshot :=
  if blob.length ≠ kTopologyBlobSize then none
  else if blob.getD 0 0 ≠ kTopologyBlobVersion then none
  else
    let groups_off := kTopologyHeaderBlobSize + kTopologyMaxSlots * kTopologySlotBlobSize
    some {
      schema_version := blob.getD 1 0
      state := .ofByte (blob.getD 2 0)
      topology_version := readLe32At blob 4
      index_neg := blob.getD 8 0
      index_pos := blob.getD 9 0
      enabled_slot_count := blob.getD 10 0
      enabled_group_count := blob.getD 11 0
      checksum := readLe32At blob 12
      slots := Vector.ofFn fun i =>
        topologySlotOfBlob (blob.drop (kTopologyHeaderBlobSize + i * kTopologySlotBlobSize))
      groups := Vector.ofFn fun i =>
        topologyGroupOfBlob (blob.drop (groups_off + i * kTopologyGroupBlobSize)) }

structure TopologyPersistedLmkEntry where
  peer : MacAddress
  lmk : LmkKey
  group_id : UInt8
  deriving DecidableEq

structure TopologyPersistedLmkMeta where
  topology_version : UInt32
  topology_checksum : UInt32
  master_mac : MacAddress
  local_mac : MacAddress
  local_profile : UInt8
  entries : List TopologyPersistedLmkEntry
  deriving DecidableEq

def lmkEntryBlob (e : TopologyPersistedLmkEntry) : Bytes :=
  e.peer.toList ++ e.lmk.toList ++ [e.group_id]

/-- The blob `saveTopologyLmkMeta_` writes. -/
def lmkMetaBlob (record : TopologyPersistedLmkMeta) : Bytes :=
  [kTopologyLmkBlobVersionV2, record.entries.length.toUInt8] ++ le32 record.topology_version ++
    le32 record.topology_checksum ++ record.master_mac.toList ++ record.local_mac.toList ++
    [record.local_profile] ++ record.entries.flatMap lmkEntryBlob

def lmkEntryOfBlob (b : Bytes) : TopologyPersistedLmkEntry where
  peer := bytesAt b 0 6
  lmk := bytesAt b 6 16
  group_id := b.getD 22 0

/-- What `loadTopologyLmkMeta_` reads from a blob. -/
def lmkMetaOfBlob (blob : Bytes) : Except String TopologyPersistedLmkMeta :=
  if blob.length < 2 then .error "topology_lmk_nvs_invalid"
  else if blob.getD 0 0 ≠ kTopologyLmkBlobVersionV2 then .error "topology_lmk_nvs_version_invalid"
  else
    let count := (blob.getD 1 0).toNat
    if blob.length ≠ kTopologyLmkBlobHeaderSizeV2 + count * kTopologyLmkBlobEntrySize then
      .error "topology_lmk_nvs_invalid"
    else .ok {
      topology_version := readLe32At blob 2
      topology_checksum := readLe32At blob 6
      master_mac := bytesAt blob 10 6
      local_mac := bytesAt blob 16 6
      local_profile := blob.getD 22 0
      entries := (List.range count).map fun i =>
        lmkEntryOfBlob (blob.drop (kTopologyLmkBlobHeaderSizeV2 + i * kTopologyLmkBlobEntrySize)) }

/-- The `i`-th of a run of records of one size starts at `i` times that size. -/
theorem drop_records {α : Type*} {write : α → Bytes} {size : Nat}
    (hsize : ∀ x, (write x).length = size) (xs : List α) (post : Bytes) {i : Nat}
    (hi : i < xs.length) :
    (xs.flatMap write ++ post).drop (i * size) =
      write xs[i] ++ ((xs.drop (i + 1)).flatMap write ++ post) := by
  induction xs generalizing i with
  | nil => simp at hi
  | cons x xs ih =>
    cases i with
    | zero => simp
    | succ i =>
      have hlt : i < xs.length := by simpa using hi
      have hcut : (i + 1) * size = (write x).length + i * size := by
        rw [hsize, Nat.succ_mul, Nat.add_comm]
      rw [hcut, List.flatMap_cons, List.append_assoc, List.drop_append]
      simp [ih hlt]

@[simp] theorem slotChecksumBytes_length (slot : TopologySlot) :
    (slotChecksumBytes slot).length = kTopologySlotBlobSize := by
  simp [slotChecksumBytes, kTopologySlotBlobSize]

@[simp] theorem groupChecksumBytes_length (group : TopologyGroupSeed) :
    (groupChecksumBytes group).length = kTopologyGroupBlobSize := by
  simp [groupChecksumBytes, kTopologyGroupBlobSize]

@[simp] theorem lmkEntryBlob_length (e : TopologyPersistedLmkEntry) :
    (lmkEntryBlob e).length = kTopologyLmkBlobEntrySize := by
  simp [lmkEntryBlob, kTopologyLmkBlobEntrySize]

@[simp] theorem topologySnapshotHeader_length (s : TopologySnapshot) :
    (topologySnapshotHeader s).length = kTopologyHeaderBlobSize := by
  simp [topologySnapshotHeader, kTopologyHeaderBlobSize]

theorem topologySlotOfBlob_write (slot : TopologySlot) (post : Bytes) :
    topologySlotOfBlob (slotChecksumBytes slot ++ post) = slot := by
  obtain ⟨enabled, peer, role, group, relative, lvi, pvi, axis, delay, hold⟩ := slot
  have hpeer : bytesAt (slotChecksumBytes
      ⟨enabled, peer, role, group, relative, lvi, pvi, axis, delay, hold⟩ ++ post) 1 6 = peer := by
    simpa [slotChecksumBytes] using bytesAt_append [if enabled then 1 else 0]
      ([role, group, relative.toUInt8, lvi, pvi, axis.toUInt8] ++ le16 delay ++ le16 hold ++ post) peer
  unfold topologySlotOfBlob
  rw [hpeer]
  cases enabled <;>
    simp [slotChecksumBytes, List.getD_eq_getElem?_getD, List.getElem?_append, le16, readLe16_le16]

theorem topologyGroupOfBlob_write (group : TopologyGroupSeed) (post : Bytes) :
    topologyGroupOfBlob (groupChecksumBytes group ++ post) = group := by
  obtain ⟨enabled, id, seed⟩ := group
  have hseed : bytesAt (groupChecksumBytes ⟨enabled, id, seed⟩ ++ post) 2 32 = seed := by
    simpa [groupChecksumBytes] using bytesAt_append [if enabled then 1 else 0, id] post seed
  unfold topologyGroupOfBlob
  rw [hseed]
  cases enabled <;> simp [groupChecksumBytes, List.getD_eq_getElem?_getD]

theorem lmkEntryOfBlob_write (e : TopologyPersistedLmkEntry) (post : Bytes) :
    lmkEntryOfBlob (lmkEntryBlob e ++ post) = e := by
  obtain ⟨peer, lmk, group⟩ := e
  have hpeer : bytesAt (lmkEntryBlob ⟨peer, lmk, group⟩ ++ post) 0 6 = peer := by
    simpa [lmkEntryBlob] using bytesAt_append [] (lmk.toList ++ [group] ++ post) peer
  have hlmk : bytesAt (lmkEntryBlob ⟨peer, lmk, group⟩ ++ post) 6 16 = lmk := by
    simpa [lmkEntryBlob] using bytesAt_append peer.toList ([group] ++ post) lmk
  unfold lmkEntryOfBlob
  rw [hpeer, hlmk]
  simp [lmkEntryBlob, List.getD_eq_getElem?_getD, List.getElem?_append]

theorem readLe32At_append (pre post : Bytes) (v : UInt32) :
    readLe32At (pre ++ le32 v ++ post) pre.length = v := by
  simp [readLe32At, List.getD_eq_getElem?_getD, le32, readLe32_le32]

/-- A snapshot is read back as it was written. -/
theorem topologySnapshotOfBlob_write (s : TopologySnapshot) :
    topologySnapshotOfBlob (topologySnapshotBlob s) = some s := by
  have hlen : (topologySnapshotBlob s).length = kTopologyBlobSize := by
    simp [topologySnapshotBlob, kTopologyBlobSize, List.length_flatMap, Nat.add_assoc]
  have hslots : Vector.ofFn (fun i : Fin kTopologyMaxSlots => topologySlotOfBlob
      ((topologySnapshotBlob s).drop (kTopologyHeaderBlobSize + i * kTopologySlotBlobSize)))
      = s.slots := by
    ext i hi : 1
    have hlt : i < s.slots.toList.length := by simpa using hi
    have hcut := drop_records slotChecksumBytes_length s.slots.toList
      (s.groups.toList.flatMap groupChecksumBytes) hlt
    rw [Vector.getElem_ofFn, topologySnapshotBlob, List.append_assoc,
      ← topologySnapshotHeader_length s, List.drop_length_add_append, hcut, topologySlotOfBlob_write]
    simp
  have hgroups : Vector.ofFn (fun i : Fin kTopologyMaxGroups => topologyGroupOfBlob
      ((topologySnapshotBlob s).drop (kTopologyHeaderBlobSize +
        kTopologyMaxSlots * kTopologySlotBlobSize + i * kTopologyGroupBlobSize))) = s.groups := by
    ext i hi : 1
    have hlt : i < s.groups.toList.length := by simpa using hi
    have hcut := drop_records groupChecksumBytes_length s.groups.toList [] hlt
    have hbefore : (topologySnapshotHeader s ++ s.slots.toList.flatMap slotChecksumBytes).length =
        kTopologyHeaderBlobSize + kTopologyMaxSlots * kTopologySlotBlobSize := by
      simp [List.length_flatMap]
    rw [List.append_nil] at hcut
    rw [Vector.getElem_ofFn, topologySnapshotBlob, ← hbefore, List.drop_length_add_append, hcut,
      topologyGroupOfBlob_write]
    simp
  have hversion : readLe32At (topologySnapshotBlob s) 4 = s.topology_version := by
    simpa [topologySnapshotBlob, topologySnapshotHeader] using
      readLe32At_append [kTopologyBlobVersion, s.schema_version, s.state.toByte, 0]
        ([s.index_neg, s.index_pos, s.enabled_slot_count, s.enabled_group_count] ++ le32 s.checksum ++
          s.slots.toList.flatMap slotChecksumBytes ++ s.groups.toList.flatMap groupChecksumBytes)
        s.topology_version
  have hchecksum : readLe32At (topologySnapshotBlob s) 12 = s.checksum := by
    simpa [topologySnapshotBlob, topologySnapshotHeader] using
      readLe32At_append ([kTopologyBlobVersion, s.schema_version, s.state.toByte, 0] ++
          le32 s.topology_version ++
          [s.index_neg, s.index_pos, s.enabled_slot_count, s.enabled_group_count])
        (s.slots.toList.flatMap slotChecksumBytes ++ s.groups.toList.flatMap groupChecksumBytes)
        s.checksum
  have hstate : TopologyState.ofByte s.state.toByte = s.state := by
    cases s.state <;> rfl
  unfold topologySnapshotOfBlob
  dsimp only
  rw [if_neg (not_not.mpr hlen), hslots, hgroups, hversion, hchecksum]
  simp [topologySnapshotBlob, topologySnapshotHeader, List.getD_eq_getElem?_getD, le32, hstate]

theorem readLe32At_lmkMeta (record : TopologyPersistedLmkMeta) :
    readLe32At (lmkMetaBlob record) 2 = record.topology_version ∧
      readLe32At (lmkMetaBlob record) 6 = record.topology_checksum := by
  constructor
  · simpa [lmkMetaBlob] using readLe32At_append
      [kTopologyLmkBlobVersionV2, record.entries.length.toUInt8]
      (le32 record.topology_checksum ++ record.master_mac.toList ++ record.local_mac.toList ++
        [record.local_profile] ++ record.entries.flatMap lmkEntryBlob) record.topology_version
  · simpa [lmkMetaBlob] using readLe32At_append
      ([kTopologyLmkBlobVersionV2, record.entries.length.toUInt8] ++ le32 record.topology_version)
      (record.master_mac.toList ++ record.local_mac.toList ++
        [record.local_profile] ++ record.entries.flatMap lmkEntryBlob) record.topology_checksum

/-- Key metadata of at most 255 peers is read back as it was written. -/
theorem lmkMetaOfBlob_write {record : TopologyPersistedLmkMeta} (h : record.entries.length ≤ 255) :
    lmkMetaOfBlob (lmkMetaBlob record) = .ok record := by
  have hcount : record.entries.length.toUInt8.toNat = record.entries.length := by
    rw [Nat.toUInt8, UInt8.toNat_ofNat']
    exact Nat.mod_eq_of_lt (by omega)
  have hlen : (lmkMetaBlob record).length =
      kTopologyLmkBlobHeaderSizeV2 + record.entries.length * kTopologyLmkBlobEntrySize := by
    simp [lmkMetaBlob, kTopologyLmkBlobHeaderSizeV2, List.length_flatMap]
    omega
  have hentries : ((List.range record.entries.length).map fun i => lmkEntryOfBlob
      ((lmkMetaBlob record).drop (kTopologyLmkBlobHeaderSizeV2 + i * kTopologyLmkBlobEntrySize)))
      = record.entries := by
    apply List.ext_getElem
    · simp
    · intro i hi hlt
      have hcut := drop_records lmkEntryBlob_length record.entries [] hlt
      have hbefore : ([kTopologyLmkBlobVersionV2, record.entries.length.toUInt8] ++
          le32 record.topology_version ++ le32 record.topology_checksum ++ record.master_mac.toList ++
          record.local_mac.toList ++ [record.local_profile]).length = kTopologyLmkBlobHeaderSizeV2 := by
        simp [kTopologyLmkBlobHeaderSizeV2]
      rw [List.append_nil] at hcut
      rw [List.getElem_map, List.getElem_range, lmkMetaBlob, ← hbefore, List.drop_length_add_append,
        hcut, lmkEntryOfBlob_write]
  have hmaster : bytesAt (lmkMetaBlob record) 10 6 = record.master_mac := by
    simpa [lmkMetaBlob] using bytesAt_append ([kTopologyLmkBlobVersionV2,
      record.entries.length.toUInt8] ++ le32 record.topology_version ++ le32 record.topology_checksum)
      (record.local_mac.toList ++ [record.local_profile] ++ record.entries.flatMap lmkEntryBlob)
      record.master_mac
  have hlocal : bytesAt (lmkMetaBlob record) 16 6 = record.local_mac := by
    simpa [lmkMetaBlob] using bytesAt_append ([kTopologyLmkBlobVersionV2,
      record.entries.length.toUInt8] ++ le32 record.topology_version ++ le32 record.topology_checksum ++
      record.master_mac.toList) ([record.local_profile] ++ record.entries.flatMap lmkEntryBlob)
      record.local_mac
  have hbytes : (lmkMetaBlob record).getD 0 0 = kTopologyLmkBlobVersionV2 ∧
      (lmkMetaBlob record).getD 1 0 = record.entries.length.toUInt8 ∧
      (lmkMetaBlob record).getD 22 0 = record.local_profile := by
    simp [lmkMetaBlob, List.getD_eq_getElem?_getD, List.getElem?_append, le32]
  obtain ⟨hversion, hsum⟩ := readLe32At_lmkMeta record
  obtain ⟨hkind, hnum, hprofile⟩ := hbytes
  unfold lmkMetaOfBlob
  dsimp only
  rw [hkind, hnum, hprofile, hversion, hsum, hmaster, hlocal, hcount, hentries,
    if_neg (by rw [hlen, kTopologyLmkBlobHeaderSizeV2]; omega), if_neg (not_not.mpr rfl),
    if_neg (not_not.mpr hlen)]

end EspNowLink
