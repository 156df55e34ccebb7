import EspNowLink.Platform.Persistence
import EspNowLink.Topology.Types

namespace EspNowLink

def kProfilePms : ProfileId := 1
def kTopologySchemaVersion : UInt8 := 1

def TopologyState.toByte : TopologyState → UInt8
  | .None => 0
  | .Staged => 1
  | .Committed => 2

def isAllZeroMac (mac : MacAddress) : Bool := mac.toList.all (· == 0)
def isBroadcastMac (mac : MacAddress) : Bool := mac.toList.all (· == 0xFF)
def isAllZeroSeed (seed : Vector UInt8 32) : Bool := seed.toList.all (· == 0)

def isVirtualIndexAllowedForRole (role_code vi : UInt8) : Bool :=
  if vi = 0xFF then true
  else if role_code = kProfileSemu.toUInt8 then vi ≤ 7
  else if role_code = kProfileRemu.toUInt8 then vi ≤ 15
  else if role_code = kProfileSens.toUInt8 ∨ role_code = kProfileRelay.toUInt8 ∨
      role_code = kProfilePms.toUInt8 then false
  else vi ≤ 15

def topologySlotCapForLocalRole (_local_code : UInt8) : UInt8 := kTopologyMaxSlots.toUInt8

namespace TopologySnapshot

def enabledSlots (s : TopologySnapshot) : List TopologySlot := s.slots.toList.filter (·.enabled)
def enabledGroups (s : TopologySnapshot) : List TopologyGroupSeed := s.groups.toList.filter (·.enabled)

end TopologySnapshot

def slotChecksumBytes (slot : TopologySlot) : Bytes :=
  [if slot.enabled then 1 else 0] ++ slot.peer.toList ++
    [slot.peer_role, slot.group_id, slot.relative_index.toUInt8, slot.local_virtual_index,
      slot.peer_virtual_index, slot.axis_order.toUInt8] ++ le16 slot.delay_ms ++ le16 slot.hold_ms

def groupChecksumBytes (group : TopologyGroupSeed) : Bytes :=
  [if group.enabled then 1 else 0, group.group_id] ++ group.seed.toList

/-- The bytes `computeTopologyChecksum_` mixes, in its order. -/
def topologyChecksumBytes (s : TopologySnapshot) : Bytes :=
  [s.schema_version, s.state.toByte] ++ le32 s.topology_version ++
    [s.index_neg, s.index_pos, s.enabled_slot_count, s.enabled_group_count] ++
    s.slots.toList.flatMap slotChecksumBytes ++ s.groups.toList.flatMap groupChecksumBytes

def computeTopologyChecksum (s : TopologySnapshot) : UInt32 :=
  (topologyChecksumBytes s).foldl hashByte kFnvOffset

/-- What is wrong with an enabled slot by itself. -/
def slotError (local_code : UInt8) (groups : List TopologyGroupSeed) (slot : TopologySlot) :
    Option String :=
  let cap := (topologySlotCapForLocalRole local_code).toInt8
  if slot.peer_role = 0 then some "invalid_peer_role"
  else if !isTopologyRolePairAllowed local_code slot.peer_role then some "invalid_role_pair"
  else if isAllZeroMac slot.peer || isBroadcastMac slot.peer then some "invalid_peer_mac"
  else if slot.relative_index = 0 ∨ slot.relative_index < -cap ∨ slot.relative_index > cap then
    some "invalid_relative_index"
  else if !isVirtualIndexAllowedForRole local_code slot.local_virtual_index then
    some "invalid_local_virtual_index"
  else if !isVirtualIndexAllowedForRole slot.peer_role slot.peer_virtual_index then
    some "invalid_peer_virtual_index"
  else if !groups.any (fun group => group.enabled && group.group_id == slot.group_id) then
    some "group_id_missing"
  else none

def TopologySlot.SameLogicalPeer (slot other : TopologySlot) : Prop :=
  slot.peer = other.peer ∧ slot.peer_role = other.peer_role ∧
    slot.local_virtual_index = other.local_virtual_index ∧
    slot.peer_virtual_index = other.peer_virtual_index

instance (slot other : TopologySlot) : Decidable (slot.SameLogicalPeer other) :=
  inferInstanceAs (Decidable (_ ∧ _ ∧ _ ∧ _))

/-- The first enabled slot of `rest` that an enabled slot clashes with. -/
def slotClash (slot : TopologySlot) (rest : List TopologySlot) : Option String :=
  rest.findSome? fun other =>
    if !other.enabled then none
    else if slot.SameLogicalPeer other then some "duplicate_logical_peer"
    else if slot.relative_index = other.relative_index then some "duplicate_relative_index"
    else none

def slotsError (local_code : UInt8) (groups : List TopologyGroupSeed) :
    List TopologySlot → Option String
  | [] => none
  | slot :: rest =>
    if !slot.enabled then slotsError local_code groups rest
    else match slotError local_code groups slot with
      | some error => some error
      | none => match slotClash slot rest with
        | some error => some error
        | none => slotsError local_code groups rest

namespace TopologySnapshot

def withSchema (s : TopologySnapshot) : TopologySnapshot :=
  { s with schema_version := if s.schema_version = 0 then kTopologySchemaVersion else s.schema_version }

def counted (s : TopologySnapshot) : TopologySnapshot :=
  { s with
    enabled_slot_count := s.enabledSlots.length.toUInt8
    enabled_group_count := s.enabledGroups.length.toUInt8 }

def withChecksum (s : TopologySnapshot) (checksum : UInt32) : TopologySnapshot :=
  { s with checksum := checksum }

def withState (s : TopologySnapshot) (state : TopologyState) : TopologySnapshot :=
  { s with state := state }

/-- What the checks before the checksum find. -/
def layoutError (s : TopologySnapshot) (local_code : UInt8) : Option String :=
  let cap := topologySlotCapForLocalRole local_code
  if s.schema_version ≠ kTopologySchemaVersion then some "invalid_schema_version"
  else if s.topology_version = 0 then some "invalid_topology_version"
  else if s.index_neg > cap ∨ s.index_pos > cap then some "invalid_index_window"
  else if s.enabledGroups.any (fun group => group.group_id == 0 || isAllZeroSeed group.seed) then
    some "invalid_group_seed"
  else match slotsError local_code s.groups.toList s.slots.toList with
    | some error => some error
    | none =>
      if s.counted.enabled_slot_count > cap ∨
          s.counted.enabled_group_count > kTopologyMaxGroups.toUInt8 then
        some "capacity_exceeded"
      else none

end TopologySnapshot

/-- `validateTopologySnapshot_`, with the normalised snapshot as its result. -/
def validateTopologySnapshot (local_profile_id : ProfileId) (snapshot : TopologySnapshot) :
    Except String TopologySnapshot :=
  let s := snapshot.withSchema
  match s.layoutError local_profile_id.toUInt8 with
  | some error => .error error
  | none =>
    let computed := computeTopologyChecksum s.counted
    if s.checksum ≠ 0 ∧ s.checksum ≠ computed then .error "invalid_checksum"
    else .ok (s.counted.withChecksum computed)

namespace TopologySnapshot

@[simp] theorem withSchema_slots (s : TopologySnapshot) : s.withSchema.slots = s.slots := rfl
@[simp] theorem withSchema_groups (s : TopologySnapshot) : s.withSchema.groups = s.groups := rfl
@[simp] theorem withSchema_version (s : TopologySnapshot) :
    s.withSchema.topology_version = s.topology_version := rfl
@[simp] theorem withSchema_state (s : TopologySnapshot) : s.withSchema.state = s.state := rfl
@[simp] theorem counted_slots (s : TopologySnapshot) : s.counted.slots = s.slots := rfl
@[simp] theorem counted_groups (s : TopologySnapshot) : s.counted.groups = s.groups := rfl
@[simp] theorem withChecksum_slots (s : TopologySnapshot) (c : UInt32) :
    (s.withChecksum c).slots = s.slots := rfl
@[simp] theorem withChecksum_groups (s : TopologySnapshot) (c : UInt32) :
    (s.withChecksum c).groups = s.groups := rfl
@[simp] theorem withChecksum_checksum (s : TopologySnapshot) (c : UInt32) :
    (s.withChecksum c).checksum = c := rfl
@[simp] theorem withState_slots (s : TopologySnapshot) (state : TopologyState) :
    (s.withState state).slots = s.slots := rfl
@[simp] theorem withState_groups (s : TopologySnapshot) (state : TopologyState) :
    (s.withState state).groups = s.groups := rfl

@[simp] theorem withSchema_withSchema (s : TopologySnapshot) : s.withSchema.withSchema = s.withSchema := by
  unfold withSchema
  by_cases h : s.schema_version = 0
  · simp [h, kTopologySchemaVersion]
  · simp [h]

theorem withSchema_of_schema {s : TopologySnapshot} (h : s.schema_version = kTopologySchemaVersion) :
    s.withSchema = s := by
  unfold withSchema
  rw [h, if_neg (by decide), ← h]

@[simp] theorem counted_withChecksum (s : TopologySnapshot) (c : UInt32) :
    (s.withChecksum c).counted = s.counted.withChecksum c := rfl

@[simp] theorem counted_counted (s : TopologySnapshot) : s.counted.counted = s.counted := rfl

theorem enabledSlots_congr {s t : TopologySnapshot} (h : t.slots = s.slots) :
    t.enabledSlots = s.enabledSlots := by
  rw [enabledSlots, h, enabledSlots]

end TopologySnapshot

@[simp] theorem computeTopologyChecksum_withChecksum (s : TopologySnapshot) (c : UInt32) :
    computeTopologyChecksum (s.withChecksum c) = computeTopologyChecksum s := rfl

/-- The checks but the last read neither the state nor the counts nor the checksum. -/
theorem layoutError_congr {s t : TopologySnapshot} (hschema : t.schema_version = s.schema_version)
    (hversion : t.topology_version = s.topology_version) (hneg : t.index_neg = s.index_neg)
    (hpos : t.index_pos = s.index_pos) (hslots : t.slots = s.slots) (hgroups : t.groups = s.groups)
    (local_code : UInt8) : t.layoutError local_code = s.layoutError local_code := by
  obtain ⟨schema, state, version, neg, pos, nslots, ngroups, checksum, slots, groups⟩ := s
  obtain ⟨schema', state', version', neg', pos', nslots', ngroups', checksum', slots', groups'⟩ := t
  dsimp only at hschema hversion hneg hpos hslots hgroups
  subst hschema hversion hneg hpos hslots hgroups
  rfl

section Accepted

variable {local_profile_id : ProfileId} {s t : TopologySnapshot}

theorem validateTopologySnapshot_ok (h : validateTopologySnapshot local_profile_id s = .ok t) :
    s.withSchema.layoutError local_profile_id.toUInt8 = none ∧
      (s.checksum = 0 ∨ s.checksum = computeTopologyChecksum s.withSchema.counted) ∧
      t = s.withSchema.counted.withChecksum (computeTopologyChecksum s.withSchema.counted) := by
  unfold validateTopologySnapshot at h
  dsimp only at h
  cases hlayout : s.withSchema.layoutError local_profile_id.toUInt8 with
  | some error =>
    rw [hlayout] at h
    cases h
  | none =>
    rw [hlayout] at h
    dsimp only at h
    split at h
    · cases h
    · rename_i hsum
      injection h with h
      refine ⟨rfl, ?_, h.symm⟩
      by_contra hneither
      exact hsum (not_or.mp hneither)

/-- A snapshot that passes keeps its slots and groups. -/
theorem validated_slots (h : validateTopologySnapshot local_profile_id s = .ok t) :
    t.slots = s.slots ∧ t.groups = s.groups := by
  obtain ⟨-, -, rfl⟩ := validateTopologySnapshot_ok h
  exact ⟨rfl, rfl⟩

theorem validated_state (h : validateTopologySnapshot local_profile_id s = .ok t) :
    t.state = s.state := by
  obtain ⟨-, -, rfl⟩ := validateTopologySnapshot_ok h
  rfl

theorem validated_schema (h : validateTopologySnapshot local_profile_id s = .ok t) :
    t.schema_version = kTopologySchemaVersion := by
  obtain ⟨hlayout, -, rfl⟩ := validateTopologySnapshot_ok h
  change s.withSchema.schema_version = kTopologySchemaVersion
  by_contra hne
  unfold TopologySnapshot.layoutError at hlayout
  dsimp only at hlayout
  rw [if_pos hne] at hlayout
  cases hlayout

/-- A snapshot that passed passes again as it is. -/
theorem validated_again (h : validateTopologySnapshot local_profile_id s = .ok t) :
    validateTopologySnapshot local_profile_id t = .ok t := by
  have hschema := validated_schema h
  obtain ⟨hlayout, -, rfl⟩ := validateTopologySnapshot_ok h
  unfold validateTopologySnapshot
  dsimp only
  rw [TopologySnapshot.withSchema_of_schema hschema]
  have hsame := layoutError_congr (s := s.withSchema)
    (t := s.withSchema.counted.withChecksum (computeTopologyChecksum s.withSchema.counted))
    rfl rfl rfl rfl rfl rfl local_profile_id.toUInt8
  rw [hsame, hlayout, TopologySnapshot.counted_withChecksum, TopologySnapshot.counted_counted,
    computeTopologyChecksum_withChecksum]
  generalize computeTopologyChecksum s.withSchema.counted = computed
  exact if_neg fun hsum => hsum.2 (TopologySnapshot.withChecksum_checksum _ computed)

/-- A snapshot that passed passes in every state. -/
theorem validated_in_state (h : validateTopologySnapshot local_profile_id s = .ok t)
    (state : TopologyState) :
    ∃ u, validateTopologySnapshot local_profile_id ((t.withState state).withChecksum 0) = .ok u := by
  have hschema := validated_schema h
  obtain ⟨hlayout, -, -⟩ := validateTopologySnapshot_ok (validated_again h)
  rw [TopologySnapshot.withSchema_of_schema hschema] at hlayout
  have hschema' : ((t.withState state).withChecksum 0).schema_version = kTopologySchemaVersion :=
    hschema
  have hsame := layoutError_congr (s := t) (t := (t.withState state).withChecksum 0)
    rfl rfl rfl rfl rfl rfl local_profile_id.toUInt8
  unfold validateTopologySnapshot
  dsimp only
  rw [TopologySnapshot.withSchema_of_schema hschema', hsame, hlayout]
  exact ⟨_, if_neg fun hsum => hsum.1 (TopologySnapshot.withChecksum_checksum _ 0)⟩

theorem check_eq_none {c : Prop} [Decidable c] {error : String} {rest : Option String} :
    (if c then some error else rest) = none ↔ ¬ c ∧ rest = none := by
  split <;> simp [*]

theorem slotsError_none {local_code : UInt8} {groups : List TopologyGroupSeed}
    {slots : List TopologySlot} (h : slotsError local_code groups slots = none) :
    ∀ slot ∈ slots, slot.enabled = true → slotError local_code groups slot = none := by
  induction slots with
  | nil => simp
  | cons head rest ih =>
    rw [slotsError] at h
    intro slot hmem hon
    cases hhead : head.enabled with
    | false =>
      rw [hhead] at h
      rcases List.mem_cons.mp hmem with rfl | hrest
      · rw [hhead] at hon
        cases hon
      · exact ih h slot hrest hon
    | true =>
      rw [hhead] at h
      simp only [Bool.not_true, Bool.false_eq_true, if_false] at h
      cases hown : slotError local_code groups head with
      | some error =>
        rw [hown] at h
        cases h
      | none =>
        rw [hown] at h
        dsimp only at h
        split at h
        · cases h
        · rcases List.mem_cons.mp hmem with rfl | hrest
          · exact hown
          · exact ih h slot hrest hon

theorem layoutError_none {local_code : UInt8} (h : s.layoutError local_code = none) :
    (∀ group ∈ s.enabledGroups, group.group_id ≠ 0) ∧
      slotsError local_code s.groups.toList s.slots.toList = none := by
  simp only [TopologySnapshot.layoutError, check_eq_none] at h
  obtain ⟨-, -, -, hgroups, h⟩ := h
  split at h
  · cases h
  · rename_i hslots
    refine ⟨fun group hgroup hzero => hgroups ?_, hslots⟩
    exact List.any_eq_true.mpr ⟨group, hgroup, by simp [hzero]⟩

/-- The group of an enabled slot of an accepted snapshot is there and has an id. -/
theorem validated_group (h : validateTopologySnapshot local_profile_id s = .ok t)
    {slot : TopologySlot} (hslot : slot ∈ t.enabledSlots) :
    slot.group_id ≠ 0 ∧ ∃ group ∈ t.groups.toList, group.enabled = true ∧
      group.group_id = slot.group_id := by
  obtain ⟨hlayout, -, rfl⟩ := validateTopologySnapshot_ok h
  obtain ⟨hgroups, hslots⟩ := layoutError_none hlayout
  obtain ⟨hmem, hon⟩ := List.mem_filter.mp hslot
  have hnone := slotsError_none hslots slot hmem hon
  simp only [slotError, check_eq_none, TopologySnapshot.withSchema_groups] at hnone
  have hany : s.groups.toList.any
      (fun group => group.enabled && group.group_id == slot.group_id) = true := by
    simpa using hnone.2.2.2.2.2.2
  obtain ⟨group, hgroup, hboth⟩ := List.any_eq_true.mp hany
  rw [Bool.and_eq_true, beq_iff_eq] at hboth
  refine ⟨?_, group, hgroup, hboth.1, hboth.2⟩
  rw [← hboth.2]
  exact hgroups group (List.mem_filter.mpr ⟨hgroup, hboth.1⟩)

end Accepted

end EspNowLink
