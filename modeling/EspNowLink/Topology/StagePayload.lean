import EspNowLink.Core.WireReads
import EspNowLink.Framework.Records
import EspNowLink.Topology.TargetIndex

namespace EspNowLink

open Framework Records

def kManagementTopologyMaxSlots : UInt8 := 13
def kManagementTopologyMaxGroups : UInt8 := 12

structure ManagementTopologySlotPayload extends TopologySlot where
  slot_index : UInt8
  deriving DecidableEq

structure ManagementTopologyGroupSeedPayload extends TopologyGroupSeed where
  group_slot : UInt8
  deriving DecidableEq

structure ManagementTopologySnapshotPayload where
  schema_version : UInt8
  topology_version : UInt32
  index_neg : UInt8
  index_pos : UInt8
  slots : List ManagementTopologySlotPayload
  groups : List ManagementTopologyGroupSeedPayload
  deriving DecidableEq

def zeroSeed : Vector UInt8 32 := Vector.replicate 32 0

/-- The 18 bytes of a slot, in a stage payload and in a slots payload. -/
def slotPayloadBytes (slot : ManagementTopologySlotPayload) : Bytes :=
  [slot.slot_index, if slot.enabled then 1 else 0] ++ slot.peer.toList ++
    [slot.peer_role, slot.group_id, slot.relative_index.toUInt8, slot.local_virtual_index,
      slot.peer_virtual_index, slot.axis_order.toUInt8] ++ le16 slot.delay_ms ++ le16 slot.hold_ms

def groupPayloadBytes (group : ManagementTopologyGroupSeedPayload) : Bytes :=
  [group.group_slot, if group.enabled then 1 else 0, group.group_id, if group.enabled then 32 else 0] ++
    if group.enabled then group.seed.toList else []

def buildTopologyStagePayload (snapshot : ManagementTopologySnapshotPayload) : Bytes :=
  let slots := snapshot.slots.take kManagementTopologyMaxSlots.toNat
  let groups := snapshot.groups.take kManagementTopologyMaxGroups.toNat
  [snapshot.schema_version, 0] ++ le32 snapshot.topology_version ++
    [snapshot.index_neg, snapshot.index_pos, slots.length.toUInt8, groups.length.toUInt8] ++
    slots.flatMap slotPayloadBytes ++ groups.flatMap groupPayloadBytes

def slotOfPayload (raw : Bytes) : ManagementTopologySlotPayload where
  slot_index := raw.getD 0 0
  enabled := raw.getD 1 0 != 0
  peer := bytesAt raw 2 6
  peer_role := raw.getD 8 0
  group_id := raw.getD 9 0
  relative_index := (raw.getD 10 0).toInt8
  local_virtual_index := raw.getD 11 0
  peer_virtual_index := raw.getD 12 0
  axis_order := (raw.getD 13 0).toInt8
  delay_ms := readLe16 (raw.getD 14 0) (raw.getD 15 0)
  hold_ms := readLe16 (raw.getD 16 0) (raw.getD 17 0)

/-- `seen_slots` and `seen_groups`: a key below the bound that no record before it has. -/
def unseen {α : Type} (key : α → UInt8) (bound : UInt8) (before : List α) (a : α) : Bool :=
  decide (key a < bound) && !(before.map key).contains (key a)

/-! The parsers over memory; an outer `none` is a read outside the memory. -/

def readSlotAt (mem : Nat → Option UInt8) (len off : Nat) :
    Option (Option (ManagementTopologySlotPayload × Nat)) :=
  if len < off + 18 then some none
  else do
    let raw ← Tlv.slice mem 18 off
    return some (slotOfPayload raw, off + 18)

def readGroupAt (mem : Nat → Option UInt8) (len off : Nat) :
    Option (Option (ManagementTopologyGroupSeedPayload × Nat)) :=
  if len < off + 4 then some none
  else do
    let group_slot ← mem off
    let enabled ← mem (off + 1)
    let group_id ← mem (off + 2)
    let seed_len ← mem (off + 3)
    if enabled = 0 ∧ seed_len ≠ 0 then return none
    else if enabled ≠ 0 ∧ seed_len ≠ 32 then return none
    else if len < off + 4 + seed_len.toNat then return none
    else
      let seed ← Tlv.slice mem seed_len.toNat (off + 4)
      let seed := if seed_len = 32 then bytesAt seed 0 32 else zeroSeed
      return some (⟨⟨enabled != 0, group_id, seed⟩, group_slot⟩, off + 4 + seed_len.toNat)

def parseTopologyStagePayload (mem : Nat → Option UInt8) (len : Nat) :
    Option (Option ManagementTopologySnapshotPayload) :=
  if len < 10 then some none
  else do
    let schema_version ← mem 0
    let topology_version ← readLe32Mem mem 2
    let index_neg ← mem 6
    let index_pos ← mem 7
    let slot_n ← mem 8
    let group_n ← mem 9
    if slot_n > kManagementTopologyMaxSlots ∨ group_n > kManagementTopologyMaxGroups then return none
    else
      match ← readManyAt (unseen (·.slot_index) kManagementTopologyMaxSlots) (readSlotAt mem len)
          slot_n.toNat [] 10 with
      | none => return none
      | some slots =>
        match ← readManyAt (unseen (·.group_slot) kManagementTopologyMaxGroups) (readGroupAt mem len)
            group_n.toNat [] slots.2 with
        | none => return none
        | some groups =>
          return if groups.2 = len then
            some ⟨schema_version, topology_version, index_neg, index_pos, slots.1, groups.1⟩
          else none

def parseTopologySlotsPayload (mem : Nat → Option UInt8) (len : Nat) :
    Option (Option (UInt8 × List ManagementTopologySlotPayload)) :=
  if len < 3 then some none
  else do
    let state ← mem 1
    let slot_n ← mem 2
    if slot_n > kManagementTopologyMaxSlots then return none
    else
      match ← readManyAt (fun _ _ => true) (readSlotAt mem len) slot_n.toNat [] 3 with
      | none => return none
      | some slots => return if slots.2 = len then some (state, slots.1) else none

/-- The slots of a snapshot, each with its place. -/
def TopologySnapshot.placedSlots (s : TopologySnapshot) : List ManagementTopologySlotPayload :=
  s.slots.toList.mapIdx fun i slot => ⟨slot, i.toUInt8⟩

def TopologyManager.buildTopologySlotsPayload (m : TopologyManager) (committed : Bool) : Option Bytes :=
  (m.getTopologySnapshot (if committed then .Committed else .Staged)).map fun snapshot =>
    [snapshot.schema_version, snapshot.state.toByte, kTopologyMaxSlots.toUInt8] ++
      snapshot.placedSlots.flatMap slotPayloadBytes

/-! What the parsers read, as functions of the bytes alone. -/

def readSlot (bytes : Bytes) : Option (ManagementTopologySlotPayload × Bytes) :=
  if bytes.length < 18 then none else some (slotOfPayload (bytes.take 18), bytes.drop 18)

def readGroup : Bytes → Option (ManagementTopologyGroupSeedPayload × Bytes)
  | group_slot :: enabled :: group_id :: seed_len :: rest =>
    if enabled = 0 ∧ seed_len ≠ 0 then none
    else if enabled ≠ 0 ∧ seed_len ≠ 32 then none
    else if rest.length < seed_len.toNat then none
    else
      let seed := if seed_len = 32 then bytesAt (rest.take seed_len.toNat) 0 32 else zeroSeed
      some (⟨⟨enabled != 0, group_id, seed⟩, group_slot⟩, rest.drop seed_len.toNat)
  | _ => none

def readStageBody (slot_n group_n : UInt8) (body : Bytes) :
    Option (List ManagementTopologySlotPayload × List ManagementTopologyGroupSeedPayload) := do
  if slot_n > kManagementTopologyMaxSlots ∨ group_n > kManagementTopologyMaxGroups then none
  else
    let slots ← readMany (unseen (·.slot_index) kManagementTopologyMaxSlots) readSlot slot_n.toNat [] body
    let groups ← readMany (unseen (·.group_slot) kManagementTopologyMaxGroups) readGroup group_n.toNat []
      slots.2
    if groups.2 = [] then some (slots.1, groups.1) else none

def readStage : Bytes → Option ManagementTopologySnapshotPayload
  | schema_version :: _ :: v0 :: v1 :: v2 :: v3 :: index_neg :: index_pos :: slot_n :: group_n :: body =>
    (readStageBody slot_n group_n body).map fun r =>
      ⟨schema_version, readLe32 v0 v1 v2 v3, index_neg, index_pos, r.1, r.2⟩
  | _ => none

def readSlots : Bytes → Option (UInt8 × List ManagementTopologySlotPayload)
  | _ :: state :: slot_n :: body => do
    if slot_n > kManagementTopologyMaxSlots then none
    else
      let slots ← readMany (fun _ _ => true) readSlot slot_n.toNat [] body
      if slots.2 = [] then some (state, slots.1) else none
  | _ => none

section Memory

variable {mem : Nat → Option UInt8} {payload : Bytes} {len : Nat}

theorem readSlotAt_reads (mem : Nat → Option UInt8) (len : Nat) :
    ReadsAt mem len (readSlotAt mem len) readSlot := by
  intro off bytes hmem hlen
  unfold readSlotAt readSlot
  by_cases hshort : bytes.length < 18
  · rw [if_pos (by omega), if_pos hshort]
    exact ⟨rfl, fun r hr => nomatch hr⟩
  · have hdrop : (bytes.drop 18).length = bytes.length - 18 := List.length_drop
    rw [if_neg (by omega), if_neg hshort, hmem.slice (by omega)]
    refine ⟨?_, fun r hr => ?_⟩
    · have hoff : off + 18 = len - (bytes.drop 18).length := by omega
      rw [hoff]
      rfl
    · obtain rfl := Option.some.inj hr
      exact List.drop_suffix 18 bytes

theorem readGroupAt_reads (mem : Nat → Option UInt8) (len : Nat) :
    ReadsAt mem len (readGroupAt mem len) readGroup := by
  intro off bytes hmem hlen
  match bytes, hmem with
  | [], _ | [_], _ | [_, _], _ | [_, _, _], _ =>
    have hshort : len < off + 4 := by
      simp only [List.length_cons, List.length_nil] at hlen
      omega
    unfold readGroupAt
    rw [if_pos hshort]
    exact ⟨rfl, fun r hr => nomatch hr⟩
  | group_slot :: enabled :: group_id :: seed_len :: rest, hmem =>
    have hrest : Holds mem (off + 4) rest := hmem.drop 4
    have hdrop : (rest.drop seed_len.toNat).length = rest.length - seed_len.toNat := List.length_drop
    simp only [List.length_cons] at hlen
    unfold readGroupAt readGroup
    rw [if_neg (by omega), hmem.head, hmem.tail.head, hmem.tail.tail.head, hmem.tail.tail.tail.head]
    simp only [Option.bind_eq_bind, Option.bind_some, Option.pure_def]
    by_cases hoff : enabled = 0 ∧ seed_len ≠ 0
    · rw [if_pos hoff, if_pos hoff]
      exact ⟨rfl, fun r hr => nomatch hr⟩
    rw [if_neg hoff, if_neg hoff]
    by_cases hon : enabled ≠ 0 ∧ seed_len ≠ 32
    · rw [if_pos hon, if_pos hon]
      exact ⟨rfl, fun r hr => nomatch hr⟩
    rw [if_neg hon, if_neg hon]
    by_cases hshort : rest.length < seed_len.toNat
    · rw [if_pos (by omega), if_pos hshort]
      exact ⟨rfl, fun r hr => nomatch hr⟩
    · rw [if_neg (by omega), if_neg hshort, hrest.slice (by omega)]
      refine ⟨?_, fun r hr => ?_⟩
      · have hend : off + 4 + seed_len.toNat = len - (rest.drop seed_len.toNat).length := by omega
        rw [hend]
        rfl
      · obtain rfl := Option.some.inj hr
        exact (List.drop_suffix _ rest).trans ⟨[group_slot, enabled, group_id, seed_len], rfl⟩

/-- Reading ends at the end of the payload when nothing is left. -/
theorem ends_iff {body rest : Bytes} {off : Nat} (hlen : off + body.length = len) (hoff : 0 < off)
    (hrest : rest <:+ body) : len - rest.length = len ↔ rest = [] := by
  have hle := hrest.length_le
  rw [← List.length_eq_zero_iff]
  omega

theorem parseTopologyStagePayload_eq (h : Holds mem 0 payload) :
    parseTopologyStagePayload mem payload.length = some (readStage payload) := by
  unfold parseTopologyStagePayload
  match payload, h with
  | [], _ | [_], _ | [_, _], _ | [_, _, _], _ | [_, _, _, _], _ | [_, _, _, _, _], _
  | [_, _, _, _, _, _], _ | [_, _, _, _, _, _, _], _ | [_, _, _, _, _, _, _, _], _
  | [_, _, _, _, _, _, _, _, _], _ => rfl
  | schema_version :: reserved :: v0 :: v1 :: v2 :: v3 :: index_neg :: index_pos :: slot_n :: group_n ::
      body, h =>
    have hversion : Holds mem 2 (v0 :: v1 :: v2 :: v3 :: index_neg :: index_pos :: slot_n :: group_n :: body) :=
      h.drop 2
    have hwindow : Holds mem 6 (index_neg :: index_pos :: slot_n :: group_n :: body) := h.drop 6
    have hbody : Holds mem 10 body := h.drop 10
    generalize hlength : (schema_version :: reserved :: v0 :: v1 :: v2 :: v3 :: index_neg :: index_pos ::
      slot_n :: group_n :: body).length = len
    have hlen : 10 + body.length = len := by
      rw [← hlength]
      simp only [List.length_cons]
      omega
    rw [if_neg (by omega), h.head, readLe32Mem_eq hversion, hwindow.head, hwindow.tail.head,
      hwindow.tail.tail.head, hwindow.tail.tail.tail.head]
    simp only [Option.bind_eq_bind, Option.bind_some, Option.pure_def, readStage, readStageBody]
    by_cases hcounts : slot_n > kManagementTopologyMaxSlots ∨ group_n > kManagementTopologyMaxGroups
    · rw [if_pos hcounts, if_pos hcounts]
      rfl
    rw [if_neg hcounts, if_neg hcounts]
    obtain ⟨hslots, hslotsRest⟩ := (readSlotAt_reads mem len).many
      (unseen (·.slot_index) kManagementTopologyMaxSlots) slot_n.toNat [] 10 body hbody hlen
    rw [hslots]
    cases hread : readMany (unseen (·.slot_index) kManagementTopologyMaxSlots) readSlot slot_n.toNat []
        body with
    | none => rfl
    | some slots =>
      have hsuffix := hslotsRest slots hread
      have hrest := hbody.suffix hsuffix
      rw [hlen] at hrest
      have hle := hsuffix.length_le
      obtain ⟨hgroups, hgroupsRest⟩ := (readGroupAt_reads mem len).many
        (unseen (·.group_slot) kManagementTopologyMaxGroups) group_n.toNat [] _ slots.2 hrest (by omega)
      simp only [Option.map_some, Option.bind_some]
      rw [hgroups]
      cases hgroup : readMany (unseen (·.group_slot) kManagementTopologyMaxGroups) readGroup group_n.toNat []
          slots.2 with
      | none => rfl
      | some groups =>
        have hend := ends_iff hlen (by decide) ((hgroupsRest groups hgroup).trans hsuffix)
        simp only [Option.map_some, Option.bind_some]
        by_cases hnil : groups.2 = []
        · rw [if_pos (hend.mpr hnil), if_pos hnil]
          rfl
        · rw [if_neg (fun hat => hnil (hend.mp hat)), if_neg hnil]
          rfl

theorem parseTopologySlotsPayload_eq (h : Holds mem 0 payload) :
    parseTopologySlotsPayload mem payload.length = some (readSlots payload) := by
  unfold parseTopologySlotsPayload
  match payload, h with
  | [], _ | [_], _ | [_, _], _ => rfl
  | schema_version :: state :: slot_n :: body, h =>
    have hbody : Holds mem 3 body := h.drop 3
    generalize hlength : (schema_version :: state :: slot_n :: body).length = len
    have hlen : 3 + body.length = len := by
      rw [← hlength]
      simp only [List.length_cons]
      omega
    rw [if_neg (by omega), h.tail.head, h.tail.tail.head]
    simp only [Option.bind_eq_bind, Option.bind_some, Option.pure_def, readSlots]
    by_cases hcount : slot_n > kManagementTopologyMaxSlots
    · rw [if_pos hcount, if_pos hcount]
    rw [if_neg hcount, if_neg hcount]
    obtain ⟨hslots, hslotsRest⟩ := (readSlotAt_reads mem len).many (fun _ _ => true) slot_n.toNat [] 3
      body hbody hlen
    rw [hslots]
    cases hread : readMany (fun _ _ => true) readSlot slot_n.toNat [] body with
    | none => rfl
    | some slots =>
      have hend := ends_iff hlen (by decide) (hslotsRest slots hread)
      simp only [Option.map_some, Option.bind_some]
      by_cases hnil : slots.2 = []
      · rw [if_pos (hend.mpr hnil), if_pos hnil]
      · rw [if_neg (fun hat => hnil (hend.mp hat)), if_neg hnil]

end Memory

section RoundTrip

variable {rest : Bytes}

theorem slotPayloadBytes_eq (slot : ManagementTopologySlotPayload) :
    slotPayloadBytes slot = slot.slot_index :: slotChecksumBytes slot.toTopologySlot := rfl

theorem slotOfPayload_cons (index : UInt8) (raw : Bytes) :
    slotOfPayload (index :: raw) = ⟨topologySlotOfBlob raw, index⟩ := by
  have hpeer : bytesAt (index :: raw) 2 6 = bytesAt raw 1 6 := by
    ext i hi
    simp [bytesAt, Nat.add_right_comm 1 1]
  unfold slotOfPayload topologySlotOfBlob
  rw [hpeer]
  rfl

theorem readSlot_slotPayloadBytes (slot : ManagementTopologySlotPayload) :
    readSlot (slotPayloadBytes slot ++ rest) = some (slot, rest) := by
  have hlength : (slotPayloadBytes slot).length = 18 := by
    rw [slotPayloadBytes_eq, List.length_cons, slotChecksumBytes_length]
    rfl
  have hshort : ¬ (slotPayloadBytes slot ++ rest).length < 18 := by
    rw [List.length_append]
    omega
  have hback := topologySlotOfBlob_write slot.toTopologySlot []
  rw [List.append_nil] at hback
  unfold readSlot
  rw [if_neg hshort, ← hlength, List.take_left, List.drop_left, slotPayloadBytes_eq, slotOfPayload_cons,
    hback]

theorem readGroup_groupPayloadBytes {group : ManagementTopologyGroupSeedPayload}
    (hseed : group.enabled = false → group.seed = zeroSeed) :
    readGroup (groupPayloadBytes group ++ rest) = some (group, rest) := by
  obtain ⟨⟨enabled, group_id, seed⟩, group_slot⟩ := group
  cases enabled with
  | false =>
    have hzero : seed = zeroSeed := hseed rfl
    rw [hzero]
    simp [groupPayloadBytes, readGroup]
  | true =>
    have hlength : seed.toList.length = 32 := by simp
    have htake : (seed.toList ++ rest).take 32 = seed.toList := List.take_left' hlength
    have hdrop : (seed.toList ++ rest).drop 32 = rest := List.drop_left' hlength
    have hback := bytesAt_append [] [] seed
    simp only [List.nil_append, List.append_nil, List.length_nil] at hback
    simp [groupPayloadBytes, readGroup, htake, hdrop, hback]

theorem unseen_iff {α : Type} {key : α → UInt8} {bound : UInt8} (before : List α) (a : α) :
    unseen key bound before a = true ↔ key a < bound ∧ key a ∉ before.map key := by
  simp [unseen]

end RoundTrip

namespace ManagementTopologySnapshotPayload

/-- The snapshots whose slots and groups all fit a stage payload, under places of their own. -/
structure Fits (s : ManagementTopologySnapshotPayload) : Prop where
  slot_count : s.slots.length ≤ kManagementTopologyMaxSlots.toNat
  group_count : s.groups.length ≤ kManagementTopologyMaxGroups.toNat
  slot_index : ∀ slot ∈ s.slots, slot.slot_index < kManagementTopologyMaxSlots
  slot_once : (s.slots.map (·.slot_index)).Nodup
  group_slot : ∀ group ∈ s.groups, group.group_slot < kManagementTopologyMaxGroups
  group_once : (s.groups.map (·.group_slot)).Nodup
  seed : ∀ group ∈ s.groups, group.enabled = false → group.seed = zeroSeed

/-- What the builder writes of a snapshot: the slots and groups that have room, and no seed of a group
that is disabled. -/
def sent (s : ManagementTopologySnapshotPayload) : ManagementTopologySnapshotPayload :=
  { s with
    slots := s.slots.take kManagementTopologyMaxSlots.toNat
    groups := (s.groups.take kManagementTopologyMaxGroups.toNat).map fun group =>
      if group.enabled then group else ⟨⟨false, group.group_id, zeroSeed⟩, group.group_slot⟩ }

variable {s : ManagementTopologySnapshotPayload}

theorem Fits.sent_eq (h : s.Fits) : s.sent = s := by
  obtain ⟨schema_version, topology_version, index_neg, index_pos, slots, groups⟩ := s
  have hslots : slots.take kManagementTopologyMaxSlots.toNat = slots := List.take_of_length_le h.slot_count
  have hgroups : groups.take kManagementTopologyMaxGroups.toNat = groups :=
    List.take_of_length_le h.group_count
  unfold sent
  simp only [hslots, hgroups, mk.injEq, true_and]
  refine (List.map_congr_left fun group hgroup => ?_).trans (List.map_id groups)
  by_cases hon : group.enabled = true
  · rw [if_pos hon]
    rfl
  · have hoff : group.enabled = false := Bool.eq_false_iff.mpr hon
    have hseed := h.seed group hgroup hoff
    rw [if_neg hon, ← hseed, ← hoff]
    rfl

theorem sent_slot_count (s : ManagementTopologySnapshotPayload) :
    s.sent.slots.length ≤ kManagementTopologyMaxSlots.toNat := List.length_take_le ..

theorem sent_group_count (s : ManagementTopologySnapshotPayload) :
    s.sent.groups.length ≤ kManagementTopologyMaxGroups.toNat := by
  show ((s.groups.take _).map _).length ≤ _
  rw [List.length_map]
  exact List.length_take_le ..

theorem sent_seed (s : ManagementTopologySnapshotPayload) :
    ∀ group ∈ s.sent.groups, group.enabled = false → group.seed = zeroSeed := by
  intro group hgroup hoff
  obtain ⟨before, -, rfl⟩ := List.mem_map.mp hgroup
  by_cases hon : before.enabled = true
  · rw [if_pos hon, hon] at hoff
    cases hoff
  · rw [if_neg hon]

/-- A snapshot and what is written of it have the same payload. -/
theorem build_sent (s : ManagementTopologySnapshotPayload) :
    buildTopologyStagePayload s = [s.schema_version, 0] ++ le32 s.topology_version ++
      [s.index_neg, s.index_pos, s.sent.slots.length.toUInt8, s.sent.groups.length.toUInt8] ++
      s.sent.slots.flatMap slotPayloadBytes ++ s.sent.groups.flatMap groupPayloadBytes := by
  have hgroup : ∀ group : ManagementTopologyGroupSeedPayload,
      groupPayloadBytes (if group.enabled then group
        else ⟨⟨false, group.group_id, zeroSeed⟩, group.group_slot⟩) = groupPayloadBytes group := by
    intro group
    by_cases hon : group.enabled = true
    · rw [if_pos hon]
    · rw [if_neg hon]
      simp [groupPayloadBytes, hon]
  have hgroups : s.sent.groups.flatMap groupPayloadBytes =
      (s.groups.take kManagementTopologyMaxGroups.toNat).flatMap groupPayloadBytes := by
    show ((s.groups.take _).map _).flatMap _ = _
    rw [List.flatMap_map]
    simp only [hgroup]
  have hcount : s.sent.groups.length = (s.groups.take kManagementTopologyMaxGroups.toNat).length :=
    List.length_map ..
  rw [hgroups, hcount]
  rfl

/-- A snapshot's places are its own when its slots and its groups pass the parser's checks. -/
theorem sent_fits_iff (s : ManagementTopologySnapshotPayload) :
    s.sent.Fits ↔
      AdmitsAll (unseen (·.slot_index) kManagementTopologyMaxSlots) [] s.sent.slots ∧
        AdmitsAll (unseen (·.group_slot) kManagementTopologyMaxGroups) [] s.sent.groups := by
  rw [admitsAll_keys unseen_iff, admitsAll_keys unseen_iff]
  simp only [List.map_nil, List.not_mem_nil, not_false_eq_true, and_true]
  constructor
  · intro h
    exact ⟨⟨h.slot_index, h.slot_once⟩, h.group_slot, h.group_once⟩
  · rintro ⟨⟨hslot, hslots⟩, hgroup, hgroups⟩
    exact ⟨s.sent_slot_count, s.sent_group_count, hslot, hslots, hgroup, hgroups, s.sent_seed⟩

theorem readStage_build (s : ManagementTopologySnapshotPayload) :
    readStage (buildTopologyStagePayload s) =
      (readStageBody s.sent.slots.length.toUInt8 s.sent.groups.length.toUInt8
        (s.sent.slots.flatMap slotPayloadBytes ++ s.sent.groups.flatMap groupPayloadBytes)).map fun r =>
          ⟨s.schema_version, s.topology_version, s.index_neg, s.index_pos, r.1, r.2⟩ := by
  rw [build_sent]
  simp only [le32, List.cons_append, List.nil_append, readStage, readLe32_le32]

theorem count_toNat {n : Nat} {bound : UInt8} (h : n ≤ bound.toNat) :
    n.toUInt8.toNat = n ∧ ¬ n.toUInt8 > bound := by
  have hbound := bound.toNat_lt
  have hn : n.toUInt8.toNat = n := by
    show n % 256 = n
    exact Nat.mod_eq_of_lt (by omega)
  refine ⟨hn, ?_⟩
  rw [gt_iff_lt, UInt8.lt_iff_toNat_lt, hn]
  omega

/-- What was sent is read back when its places are its own, and refused otherwise. -/
theorem readStageBody_sent (s : ManagementTopologySnapshotPayload) :
    (s.sent.Fits → readStageBody s.sent.slots.length.toUInt8 s.sent.groups.length.toUInt8
      (s.sent.slots.flatMap slotPayloadBytes ++ s.sent.groups.flatMap groupPayloadBytes) =
        some (s.sent.slots, s.sent.groups)) ∧
    (¬ s.sent.Fits → readStageBody s.sent.slots.length.toUInt8 s.sent.groups.length.toUInt8
      (s.sent.slots.flatMap slotPayloadBytes ++ s.sent.groups.flatMap groupPayloadBytes) = none) := by
  obtain ⟨hslotCount, hslotBound⟩ := count_toNat s.sent_slot_count
  obtain ⟨hgroupCount, hgroupBound⟩ := count_toNat s.sent_group_count
  have hslot : ∀ slot ∈ s.sent.slots, ∀ rest,
      readSlot (slotPayloadBytes slot ++ rest) = some (slot, rest) :=
    fun slot _ rest => readSlot_slotPayloadBytes slot
  have hgroup : ∀ group ∈ s.sent.groups, ∀ rest,
      readGroup (groupPayloadBytes group ++ rest) = some (group, rest) :=
    fun group hgroup rest => readGroup_groupPayloadBytes (s.sent_seed group hgroup)
  have hcounts : ¬ (s.sent.slots.length.toUInt8 > kManagementTopologyMaxSlots ∨
      s.sent.groups.length.toUInt8 > kManagementTopologyMaxGroups) := not_or.mpr ⟨hslotBound, hgroupBound⟩
  rw [sent_fits_iff]
  unfold readStageBody
  rw [if_neg hcounts, hslotCount, hgroupCount]
  have hgroupsRead : AdmitsAll (unseen (·.group_slot) kManagementTopologyMaxGroups) [] s.sent.groups →
      readMany (unseen (·.group_slot) kManagementTopologyMaxGroups) readGroup s.sent.groups.length []
        (s.sent.groups.flatMap groupPayloadBytes) = some (s.sent.groups, []) := by
    intro h
    simpa using readMany_flatMap hgroup h []
  have hgroupsRefused : ¬ AdmitsAll (unseen (·.group_slot) kManagementTopologyMaxGroups) [] s.sent.groups →
      readMany (unseen (·.group_slot) kManagementTopologyMaxGroups) readGroup s.sent.groups.length []
        (s.sent.groups.flatMap groupPayloadBytes) = none := by
    intro h
    simpa using readMany_flatMap_none hgroup h []
  constructor
  · rintro ⟨hslots, hgroups⟩
    simp only [readMany_flatMap hslot hslots, hgroupsRead hgroups, Option.bind_eq_bind, Option.bind_some,
      if_true]
  · intro hnot
    by_cases hslots : AdmitsAll (unseen (·.slot_index) kManagementTopologyMaxSlots) [] s.sent.slots
    · have hgroups : ¬ AdmitsAll (unseen (·.group_slot) kManagementTopologyMaxGroups) [] s.sent.groups :=
        fun h => hnot ⟨hslots, h⟩
      simp only [readMany_flatMap hslot hslots, hgroupsRefused hgroups, Option.bind_eq_bind, Option.bind_some,
        Option.bind_none]
    · simp only [readMany_flatMap_none hslot hslots, Option.bind_eq_bind, Option.bind_none]

end ManagementTopologySnapshotPayload

section Declared

/-- The size of the groups by the seed lengths that they declare. -/
def declaredGroupsSize : Nat → Bytes → Option Nat
  | 0, _ => some 0
  | n + 1, body => do
    let seed_len ← body[3]?
    let others ← declaredGroupsSize n (body.drop (4 + seed_len.toNat))
    return 4 + seed_len.toNat + others

/-- The size that a stage payload has by the counts and seed lengths it declares. -/
def declaredStageSize (payload : Bytes) : Option Nat := do
  let slot_n ← payload[8]?
  let group_n ← payload[9]?
  let groups ← declaredGroupsSize group_n.toNat (payload.drop (10 + 18 * slot_n.toNat))
  return 10 + 18 * slot_n.toNat + groups

def declaredSlotsSize (payload : Bytes) : Option Nat :=
  payload[2]?.map fun slot_n => 3 + 18 * slot_n.toNat

variable {bytes rest : Bytes}

theorem readSlot_size (bytes : Bytes) (r : ManagementTopologySlotPayload × Bytes)
    (h : readSlot bytes = some r) : 18 ≤ bytes.length ∧ r.2 = bytes.drop 18 := by
  unfold readSlot at h
  split at h
  · cases h
  · rename_i hlength
    obtain rfl := Option.some.inj h
    exact ⟨by omega, rfl⟩

theorem readGroup_size {r : ManagementTopologyGroupSeedPayload × Bytes} (h : readGroup bytes = some r) :
    ∃ seed_len : UInt8, bytes[3]? = some seed_len ∧ r.2 = bytes.drop (4 + seed_len.toNat) ∧
      4 + seed_len.toNat ≤ bytes.length := by
  unfold readGroup at h
  split at h
  · rename_i group_slot enabled group_id seed_len body
    split at h
    · cases h
    split at h
    · cases h
    split at h
    · cases h
    · rename_i hlength
      obtain rfl := Option.some.inj h
      refine ⟨seed_len, rfl, ?_, ?_⟩
      · rw [Nat.add_comm]
        rfl
      · simp only [List.length_cons]
        omega
  · cases h

theorem readGroups_size {admits : List ManagementTopologyGroupSeedPayload →
    ManagementTopologyGroupSeedPayload → Bool} {n : Nat} {before groups : List _}
    (h : readMany admits readGroup n before bytes = some (groups, rest)) :
    ∃ size, declaredGroupsSize n bytes = some size ∧ size ≤ bytes.length ∧ rest = bytes.drop size := by
  induction n generalizing before bytes groups with
  | zero =>
    obtain ⟨rfl, rfl⟩ := Prod.mk.inj (Option.some.inj h)
    exact ⟨0, rfl, Nat.zero_le _, rfl⟩
  | succ n ih =>
    obtain ⟨group, more, others, hfirst, -, hothers, rfl⟩ := readMany_cases h
    obtain ⟨seed_len, hseed, hmore, hle⟩ := readGroup_size hfirst
    dsimp only at hmore
    rw [hmore] at hothers
    obtain ⟨size, hsize, hfits, hrest⟩ := ih hothers
    rw [List.length_drop] at hfits
    refine ⟨4 + seed_len.toNat + size, ?_, by omega, ?_⟩
    · rw [declaredGroupsSize, hseed]
      simp only [Option.bind_eq_bind, Option.bind_some, hsize]
      rfl
    · rw [hrest, List.drop_drop]

/-- What is read has the size it declares. -/
theorem declaredStageSize_of_read {payload : Bytes} {s : ManagementTopologySnapshotPayload}
    (h : readStage payload = some s) : declaredStageSize payload = some payload.length := by
  unfold readStage at h
  split at h
  · rename_i schema_version reserved v0 v1 v2 v3 index_neg index_pos slot_n group_n body
    obtain ⟨r, hbody, -⟩ := Option.map_eq_some_iff.mp h
    unfold readStageBody at hbody
    split at hbody
    · cases hbody
    · obtain ⟨slots, hslots, hbody⟩ := Option.bind_eq_some_iff.mp hbody
      obtain ⟨groups, hgroups, hbody⟩ := Option.bind_eq_some_iff.mp hbody
      split at hbody
      · rename_i hnil
        obtain ⟨hle, hrest⟩ := readMany_fixed readSlot_size hslots
        rw [hrest] at hgroups
        obtain ⟨size, hsize, hfits, hend⟩ := readGroups_size hgroups
        rw [hnil] at hend
        have hleft := congrArg List.length hend
        rw [List.length_drop, List.length_drop] at hleft
        rw [List.length_drop] at hfits
        have hbehind : (schema_version :: reserved :: v0 :: v1 :: v2 :: v3 :: index_neg :: index_pos ::
            slot_n :: group_n :: body).drop (10 + 18 * slot_n.toNat) = body.drop (18 * slot_n.toNat) := by
          rw [← List.drop_drop]
          rfl
        have hsum : 10 + 18 * slot_n.toNat + size = body.length + 10 := by
          simp only [List.length_nil] at hleft
          omega
        unfold declaredStageSize
        simp only [List.getElem?_cons_succ, List.getElem?_cons_zero, Option.bind_eq_bind, Option.bind_some,
          hbehind, hsize, List.length_cons]
        exact congrArg some hsum
      · cases hbody
  · cases h

theorem declaredSlotsSize_of_read {payload : Bytes} {r : UInt8 × List ManagementTopologySlotPayload}
    (h : readSlots payload = some r) : declaredSlotsSize payload = some payload.length := by
  unfold readSlots at h
  split at h
  · rename_i schema_version state slot_n body
    split at h
    · cases h
    · obtain ⟨slots, hslots, hend⟩ := Option.bind_eq_some_iff.mp h
      split at hend
      · rename_i hnil
        obtain ⟨hle, hrest⟩ := readMany_fixed readSlot_size hslots
        rw [hnil] at hrest
        have hleft := congrArg List.length hrest
        rw [List.length_drop, List.length_nil] at hleft
        have hsum : 3 + 18 * slot_n.toNat = body.length + 3 := by omega
        unfold declaredSlotsSize
        simp only [List.getElem?_cons_succ, List.getElem?_cons_zero, Option.map_some, List.length_cons, hsum]
      · cases hend
  · cases h

end Declared

section Accepted

theorem readGroup_seed (bytes : Bytes) (r : ManagementTopologyGroupSeedPayload × Bytes)
    (h : readGroup bytes = some r) : r.1.enabled = false → r.1.seed = zeroSeed := by
  unfold readGroup at h
  split at h
  · rename_i group_slot enabled group_id seed_len body
    split at h
    · cases h
    rename_i hoff
    split at h
    · cases h
    split at h
    · cases h
    · obtain rfl := Option.some.inj h
      intro hdisabled
      have henabled : enabled = 0 := by simpa using hdisabled
      have hlen : seed_len = 0 := by
        by_contra hne
        exact hoff ⟨henabled, hne⟩
      rw [hlen]
      rfl
  · cases h

/-- Every snapshot that the parser accepts has its places in range, each taken once. -/
theorem readStage_fits {payload : Bytes} {s : ManagementTopologySnapshotPayload}
    (h : readStage payload = some s) : s.Fits := by
  unfold readStage at h
  split at h
  · rename_i schema_version reserved v0 v1 v2 v3 index_neg index_pos slot_n group_n body
    obtain ⟨r, hbody, rfl⟩ := Option.map_eq_some_iff.mp h
    unfold readStageBody at hbody
    split at hbody
    · cases hbody
    · rename_i hcounts
      obtain ⟨slots, hslots, hbody⟩ := Option.bind_eq_some_iff.mp hbody
      obtain ⟨groups, hgroups, hbody⟩ := Option.bind_eq_some_iff.mp hbody
      split at hbody
      · obtain rfl := Option.some.inj hbody
        obtain ⟨hslotCount, hgroupCount⟩ := not_or.mp hcounts
        have hslotPlaces := (admitsAll_keys unseen_iff).mp (readMany_admits hslots)
        have hgroupPlaces := (admitsAll_keys unseen_iff).mp (readMany_admits hgroups)
        exact {
          slot_count := by
            rw [readMany_length hslots]
            exact UInt8.le_iff_toNat_le.mp (UInt8.not_lt.mp hslotCount)
          group_count := by
            rw [readMany_length hgroups]
            exact UInt8.le_iff_toNat_le.mp (UInt8.not_lt.mp hgroupCount)
          slot_index := fun slot hslot => (hslotPlaces.1 slot hslot).1
          slot_once := hslotPlaces.2
          group_slot := fun group hgroup => (hgroupPlaces.1 group hgroup).1
          group_once := hgroupPlaces.2
          seed := readMany_forall readGroup_seed hgroups }
      · cases hbody
  · cases h

/-- The reply of a manager is read back as the snapshot's slots, in their places. -/
theorem readSlots_build {m : TopologyManager} {committed : Bool} {payload : Bytes}
    (h : m.buildTopologySlotsPayload committed = some payload) :
    ∃ snapshot, m.getTopologySnapshot (if committed then .Committed else .Staged) = some snapshot ∧
      readSlots payload = some (snapshot.state.toByte, snapshot.placedSlots) := by
  obtain ⟨snapshot, hsnapshot, rfl⟩ := Option.map_eq_some_iff.mp h
  have hlength : snapshot.placedSlots.length = kTopologyMaxSlots := by
    unfold TopologySnapshot.placedSlots
    rw [List.length_mapIdx, Vector.length_toList]
  have hcount : kTopologyMaxSlots.toUInt8.toNat = snapshot.placedSlots.length := hlength.symm
  have hslots : ∀ slot ∈ snapshot.placedSlots, ∀ rest,
      readSlot (slotPayloadBytes slot ++ rest) = some (slot, rest) :=
    fun slot _ rest => readSlot_slotPayloadBytes slot
  have hread : readMany (fun _ _ => true) readSlot snapshot.placedSlots.length []
      (snapshot.placedSlots.flatMap slotPayloadBytes) = some (snapshot.placedSlots, []) := by
    simpa using readMany_flatMap hslots (admitsAll_true []) []
  refine ⟨snapshot, hsnapshot, ?_⟩
  have hbound : ¬ kTopologyMaxSlots.toUInt8 > kManagementTopologyMaxSlots := by decide
  simp only [List.cons_append, List.nil_append, readSlots]
  rw [if_neg hbound, hcount, hread]
  rfl

end Accepted

/-- A stage payload is read back as what the builder wrote of the snapshot when every place is in range
and taken once, and refused otherwise; no payload whose counts do not match its length is accepted, and
no parser reads outside a payload. -/
theorem topology_payload_round_trip :
    (∀ s mem, Holds mem 0 (buildTopologyStagePayload s) →
      (s.sent.Fits →
        parseTopologyStagePayload mem (buildTopologyStagePayload s).length = some (some s.sent)) ∧
      (¬ s.sent.Fits → parseTopologyStagePayload mem (buildTopologyStagePayload s).length = some none) ∧
      (parseTopologyStagePayload mem (buildTopologyStagePayload s).length = some (some s) ↔ s.Fits)) ∧
    (∀ mem payload, Holds mem 0 payload →
      (parseTopologyStagePayload mem payload.length).isSome = true ∧
      (parseTopologySlotsPayload mem payload.length).isSome = true ∧
      (declaredStageSize payload ≠ some payload.length →
        parseTopologyStagePayload mem payload.length = some none) ∧
      (declaredSlotsSize payload ≠ some payload.length →
        parseTopologySlotsPayload mem payload.length = some none)) ∧
    ∀ (m : TopologyManager) committed mem payload,
      m.buildTopologySlotsPayload committed = some payload → Holds mem 0 payload →
        ∃ snapshot, m.getTopologySnapshot (if committed then .Committed else .Staged) = some snapshot ∧
          parseTopologySlotsPayload mem payload.length =
            some (some (snapshot.state.toByte, snapshot.placedSlots)) := by
  refine ⟨?_, ?_, ?_⟩
  · intro s mem hmem
    obtain ⟨hfits, hnot⟩ := s.readStageBody_sent
    rw [parseTopologyStagePayload_eq hmem]
    have haccepted : s.sent.Fits → readStage (buildTopologyStagePayload s) = some s.sent := by
      intro h
      rw [s.readStage_build, hfits h]
      rfl
    have hrefused : ¬ s.sent.Fits → readStage (buildTopologyStagePayload s) = none := by
      intro h
      rw [s.readStage_build, hnot h]
      rfl
    refine ⟨fun h => congrArg some (haccepted h), fun h => congrArg some (hrefused h), ?_, ?_⟩
    · intro hback
      exact readStage_fits (Option.some.inj hback)
    · intro h
      have hsent := h.sent_eq
      rw [haccepted (hsent.symm ▸ h), hsent]
  · intro mem payload hmem
    rw [parseTopologyStagePayload_eq hmem, parseTopologySlotsPayload_eq hmem]
    refine ⟨rfl, rfl, fun hsize => ?_, fun hsize => ?_⟩
    · cases hread : readStage payload with
      | none => rfl
      | some s => exact absurd (declaredStageSize_of_read hread) hsize
    · cases hread : readSlots payload with
      | none => rfl
      | some r => exact absurd (declaredSlotsSize_of_read hread) hsize
  · intro m committed mem payload hbuild hmem
    obtain ⟨snapshot, hsnapshot, hread⟩ := readSlots_build hbuild
    exact ⟨snapshot, hsnapshot, (parseTopologySlotsPayload_eq hmem).trans (congrArg some hread)⟩

/-- Two slots under one place: within the counts, and refused by the parser. -/
def repeatedPlace : ManagementTopologySnapshotPayload where
  schema_version := 1
  topology_version := 7
  index_neg := 1
  index_pos := 1
  slots := [⟨⟨true, zeroMac, 3, 1, -1, 0xFF, 0xFF, 0, 10, 20⟩, 4⟩,
    ⟨⟨true, zeroMac, 3, 1, 1, 0xFF, 0xFF, 0, 10, 20⟩, 4⟩]
  groups := []

theorem repeated_place_refused :
    repeatedPlace.slots.length ≤ kManagementTopologyMaxSlots.toNat ∧
      repeatedPlace.groups.length ≤ kManagementTopologyMaxGroups.toNat ∧
      parseTopologyStagePayload (fun i => (buildTopologyStagePayload repeatedPlace)[i]?)
        (buildTopologyStagePayload repeatedPlace).length ≠ some (some repeatedPlace) := by
  decide +kernel

end EspNowLink
