import EspNowLink.Topology.KeyConsistency

namespace EspNowLink

/-- The index lies in the window that the snapshot declares. -/
def TopologySnapshot.InWindow (s : TopologySnapshot) (target_idx : Int8) : Prop :=
  ¬ ((target_idx < 0 ∧ (-target_idx).toUInt8 > s.index_neg) ∨
    (target_idx > 0 ∧ target_idx.toUInt8 > s.index_pos))

instance (s : TopologySnapshot) (target_idx : Int8) : Decidable (s.InWindow target_idx) :=
  inferInstanceAs (Decidable (¬ _))

namespace TopologyManager

def getTopologySnapshot (m : TopologyManager) : TopologyState → Option TopologySnapshot
  | .Staged => m.topology_staged
  | .Committed => m.topology_committed
  | .None => none

def resolveTopologyTargetIndex (m : TopologyManager) (target_idx : Int8) (committed : Bool) :
    Except String TopologySlot :=
  match m.getTopologySnapshot (if committed then .Committed else .Staged) with
  | none => .error "topology_missing"
  | some snapshot =>
    if target_idx = 0 then .error "invalid_index"
    else if (target_idx < 0 ∧ (-target_idx).toUInt8 > snapshot.index_neg) ∨
        (target_idx > 0 ∧ target_idx.toUInt8 > snapshot.index_pos) then .error "out_of_window"
    else
      match snapshot.slots.toList.find? fun slot =>
        slot.enabled && slot.relative_index == target_idx with
      | some slot => .ok slot
      | none => .error "index_unmapped"

/-- The committed topology of the manager reaches the peer of every slot under its index, and nothing
under an index that no slot has. -/
structure Triggers (m : TopologyManager) (s : TopologySnapshot) : Prop where
  reached : ∀ slot ∈ s.enabledSlots, ∃ found,
    m.resolveTopologyTargetIndex slot.relative_index true = .ok found ∧
      found.relative_index = slot.relative_index ∧ found.peer = slot.peer
  unmapped : ∀ target_idx, (∀ slot ∈ s.enabledSlots, slot.relative_index ≠ target_idx) →
    ∃ error, m.resolveTopologyTargetIndex target_idx true = .error error

end TopologyManager

section Accepted

variable {local_profile_id : ProfileId} {s t : TopologySnapshot}

theorem slotClash_none {slot : TopologySlot} {rest : List TopologySlot}
    (h : slotClash slot rest = none) {other : TopologySlot} (hmem : other ∈ rest)
    (hon : other.enabled = true) : slot.relative_index ≠ other.relative_index := by
  intro hsame
  have hother := List.findSome?_eq_none_iff.mp h other hmem
  simp only [hon, Bool.not_true, Bool.false_eq_true, if_false] at hother
  split at hother
  · cases hother
  · cases hother

/-- No two enabled slots that pass have one index. -/
theorem slotsError_pairwise {local_code : UInt8} {groups : List TopologyGroupSeed}
    {slots : List TopologySlot} (h : slotsError local_code groups slots = none) :
    (slots.filter (·.enabled)).Pairwise fun slot other =>
      slot.relative_index ≠ other.relative_index := by
  induction slots with
  | nil => simp
  | cons head rest ih =>
    rw [slotsError] at h
    cases hhead : head.enabled with
    | false =>
      rw [hhead] at h
      rw [List.filter_cons_of_neg (by simp [hhead])]
      exact ih h
    | true =>
      rw [hhead] at h
      simp only [Bool.not_true, Bool.false_eq_true, if_false] at h
      split at h
      · cases h
      · split at h
        · cases h
        · rename_i hclash
          rw [List.filter_cons_of_pos hhead, List.pairwise_cons]
          refine ⟨fun other hother => ?_, ih h⟩
          obtain ⟨hmem, hon⟩ := List.mem_filter.mp hother
          exact slotClash_none hclash hmem hon

/-- An accepted snapshot has no slot under the index zero, and no two slots under one index. -/
theorem validated_indices (h : validateTopologySnapshot local_profile_id s = .ok t) :
    (∀ slot ∈ t.enabledSlots, slot.relative_index ≠ 0) ∧
      (t.enabledSlots.map (·.relative_index)).Nodup := by
  obtain ⟨hlayout, -, rfl⟩ := validateTopologySnapshot_ok h
  obtain ⟨-, hslots⟩ := layoutError_none hlayout
  refine ⟨fun slot hslot => ?_, ?_⟩
  · obtain ⟨hmem, hon⟩ := List.mem_filter.mp hslot
    have hnone := slotsError_none hslots slot hmem hon
    simp only [slotError, check_eq_none] at hnone
    intro hzero
    exact hnone.2.2.2.1 (.inl hzero)
  · have hpairwise := slotsError_pairwise hslots
    exact List.pairwise_map.mpr hpairwise

end Accepted

namespace TopologyManager

variable {m : TopologyManager} {s : TopologySnapshot} {target_idx : Int8}

theorem find_enabled (s : TopologySnapshot) (target_idx : Int8) :
    (s.slots.toList.find? fun slot => slot.enabled && slot.relative_index == target_idx) =
      s.enabledSlots.find? fun slot => slot.relative_index == target_idx := by
  rw [TopologySnapshot.enabledSlots, List.find?_filter]
  congr 1
  funext slot
  simp [beq_eq_decide]

/-- What is found under an index is an enabled slot with that index in the window. -/
theorem resolveTopologyTargetIndex_ok (hs : m.topology_committed = some s) {slot : TopologySlot}
    (h : m.resolveTopologyTargetIndex target_idx true = .ok slot) :
    s.InWindow target_idx ∧ slot ∈ s.enabledSlots ∧ slot.relative_index = target_idx := by
  have hcommitted : m.getTopologySnapshot (if true then .Committed else .Staged) = some s := hs
  rw [resolveTopologyTargetIndex, hcommitted] at h
  dsimp only at h
  split at h
  · cases h
  · split at h
    · cases h
    · rename_i hwindow
      rw [find_enabled] at h
      split at h
      · rename_i found hfind
        obtain rfl := Except.ok.inj h
        exact ⟨hwindow, List.mem_of_find?_eq_some hfind, by simpa using List.find?_some hfind⟩
      · cases h

theorem resolveTopologyTargetIndex_found (hs : m.topology_committed = some s)
    (hzero : target_idx ≠ 0) (hwindow : s.InWindow target_idx) {slot : TopologySlot}
    (hslot : slot ∈ s.enabledSlots) (hidx : slot.relative_index = target_idx) :
    ∃ found, m.resolveTopologyTargetIndex target_idx true = .ok found := by
  have hcommitted : m.getTopologySnapshot (if true then .Committed else .Staged) = some s := hs
  rw [resolveTopologyTargetIndex, hcommitted]
  dsimp only
  rw [if_neg hzero, if_neg hwindow, find_enabled]
  cases hfind : s.enabledSlots.find? fun slot => slot.relative_index == target_idx with
  | some found => exact ⟨found, rfl⟩
  | none =>
    have hother := List.find?_eq_none.mp hfind slot hslot
    simp [hidx] at hother

/-- In an accepted snapshot every enabled slot in the window is found under its own index. -/
theorem resolveTopologyTargetIndex_self {local_profile_id : ProfileId} {snapshot : TopologySnapshot}
    (hvalid : validateTopologySnapshot local_profile_id snapshot = .ok s)
    (hs : m.topology_committed = some s) {slot : TopologySlot} (hslot : slot ∈ s.enabledSlots)
    (hwindow : s.InWindow slot.relative_index) :
    m.resolveTopologyTargetIndex slot.relative_index true = .ok slot := by
  obtain ⟨hzero, hnodup⟩ := validated_indices hvalid
  obtain ⟨found, hfound⟩ := resolveTopologyTargetIndex_found hs (hzero slot hslot) hwindow hslot rfl
  obtain ⟨-, hmem, hidx⟩ := resolveTopologyTargetIndex_ok hs hfound
  obtain rfl : found = slot := List.inj_on_of_nodup_map hnodup hmem hslot hidx
  exact hfound

theorem triggers_iff {local_profile_id : ProfileId} {snapshot : TopologySnapshot}
    (hvalid : validateTopologySnapshot local_profile_id snapshot = .ok s)
    (hs : m.topology_committed = some s) :
    m.Triggers s ↔ ∀ slot ∈ s.enabledSlots, s.InWindow slot.relative_index := by
  constructor
  · intro h slot hslot
    obtain ⟨found, hfound, -⟩ := h.reached slot hslot
    exact (resolveTopologyTargetIndex_ok hs hfound).1
  · intro h
    refine ⟨fun slot hslot => ?_, fun target_idx hother => ?_⟩
    · exact ⟨slot, resolveTopologyTargetIndex_self hvalid hs hslot (h slot hslot), rfl, rfl⟩
    · cases hresult : m.resolveTopologyTargetIndex target_idx true with
      | error error => exact ⟨error, rfl⟩
      | ok found =>
        obtain ⟨-, hmem, hidx⟩ := resolveTopologyTargetIndex_ok hs hresult
        exact absurd hidx (hother found hmem)

theorem persistCommit_installs {normalized : TopologySnapshot} {old_attached : List MacAddress}
    {old_lmk_blob : Option Bytes}
    (h : (m.persistCommit normalized old_attached old_lmk_blob).1 = .ok ()) :
    (m.persistCommit normalized old_attached old_lmk_blob).2.topology_committed = some normalized := by
  unfold persistCommit at h ⊢
  dsimp only at h ⊢
  have hframe := ((m.withCommitted (some normalized)).saveTopologySnapshotMeta_frame
    kTopologyMetaSlotCommitted normalized).1
  rcases hs : (m.withCommitted (some normalized)).saveTopologySnapshotMeta
    kTopologyMetaSlotCommitted normalized with ⟨ok, t⟩
  rw [hs] at h hframe
  cases ok with
  | false => cases h
  | true =>
    have herase := (t.withStaged none).eraseTopologySnapshotMeta_frame kTopologyMetaSlotStaged
    have hcleared : (t.withStaged none).topology_committed = some normalized := hframe.committed
    exact herase.committed.trans hcleared

/-- A commit installs the staged snapshot, validated once more. -/
theorem commitStagedTopology_installs {staged : TopologySnapshot} (hstaged : m.topology_staged = some staged)
    (h : m.commitStagedTopology.1 = .ok ()) :
    ∃ s, validateTopologySnapshot m.local_profile_id ((staged.withState .Committed).withChecksum 0) = .ok s ∧
      m.commitStagedTopology.2.topology_committed = some s := by
  unfold commitStagedTopology at h ⊢
  rw [hstaged] at h ⊢
  dsimp only at h ⊢
  cases hvalid : validateTopologySnapshot m.local_profile_id
      ((staged.withState .Committed).withChecksum 0) with
  | error error =>
    rw [hvalid] at h
    cases h
  | ok s =>
    rw [hvalid] at h
    refine ⟨s, rfl, ?_⟩
    dsimp only at h ⊢
    generalize m.oldLmkBlob = old at h ⊢
    obtain ⟨old_lmk_blob, t⟩ := old
    dsimp only at h ⊢
    split at h
    · rename_i hrole
      rw [if_pos hrole]
      exact persistCommit_installs h
    · rename_i hrole
      rw [if_neg hrole]
      generalize t.materializeTopologyPeers s = peers at h ⊢
      obtain ⟨_ | _, u⟩ := peers
      · cases h
      · dsimp only at h ⊢
        generalize u.saveTopologyLmkMeta s = keys at h ⊢
        obtain ⟨_ | _, v⟩ := keys
        · cases h
        · exact persistCommit_installs h

/-- Every slot of a committed topology is triggered under its index if and only if all of them lie in the
window of the topology. A slot in the window is found itself. -/
theorem commit_triggers_iff (m : TopologyManager) (staged : TopologySnapshot)
    (hstaged : m.topology_staged = some staged) (hok : m.commitStagedTopology.1 = .ok ()) :
    ∃ s, validateTopologySnapshot m.local_profile_id ((staged.withState .Committed).withChecksum 0) = .ok s ∧
      m.commitStagedTopology.2.topology_committed = some s ∧
      (m.commitStagedTopology.2.Triggers s ↔ ∀ slot ∈ s.enabledSlots, s.InWindow slot.relative_index) ∧
      ∀ slot ∈ s.enabledSlots, s.InWindow slot.relative_index →
        m.commitStagedTopology.2.resolveTopologyTargetIndex slot.relative_index true = .ok slot := by
  obtain ⟨s, hvalid, hs⟩ := commitStagedTopology_installs hstaged hok
  exact ⟨s, hvalid, hs, triggers_iff hvalid hs, fun _ => resolveTopologyTargetIndex_self hvalid hs⟩

/-- A slave that has staged the snapshot. -/
def stagedSlave (snapshot : TopologySnapshot) : TopologyManager :=
  ((semu.started telling none none).stageTopology snapshot).2

/-- The window `-1..1` holds the two slots. -/
theorem bothSides_triggered : ∃ s, (stagedSlave (bothSides 3 5 1 1)).commitStagedTopology.2.Triggers s ∧
    s.enabledSlots.length = 2 := by
  have hstaged : (stagedSlave (bothSides 3 5 1 1)).topology_staged.isSome = true := by decide +kernel
  obtain ⟨staged, hsome⟩ := Option.isSome_iff_exists.mp hstaged
  have hok : (stagedSlave (bothSides 3 5 1 1)).commitStagedTopology.1 = .ok () := by decide +kernel
  obtain ⟨s, -, hs, hiff, -⟩ := commit_triggers_iff (stagedSlave (bothSides 3 5 1 1)) staged hsome hok
  have hslots : ((stagedSlave (bothSides 3 5 1 1)).commitStagedTopology.2.topology_committed.all fun s =>
      decide (s.enabledSlots.length = 2) &&
        s.enabledSlots.all fun slot => decide (s.InWindow slot.relative_index)) = true := by decide +kernel
  rw [hs, Option.all_some, Bool.and_eq_true, decide_eq_true_eq] at hslots
  obtain ⟨htwo, hwindow⟩ := hslots
  refine ⟨s, hiff.mpr fun slot hslot => ?_, htwo⟩
  exact of_decide_eq_true (List.all_eq_true.mp hwindow slot hslot)

/-- A topology with the window `-1..0` and a slot under the index 1 is accepted and committed. -/
theorem slot_outside_window_unreachable : ¬ ∀ (m : TopologyManager) (staged : TopologySnapshot),
    m.topology_staged = some staged → m.commitStagedTopology.1 = .ok () →
      ∀ s, m.commitStagedTopology.2.topology_committed = some s →
        m.commitStagedTopology.2.Triggers s := by
  intro h
  let m := stagedSlave { bothSides 3 5 1 1 with index_pos := 0 }
  have hstaged : m.topology_staged.isSome = true := by decide +kernel
  obtain ⟨staged, hsome⟩ := Option.isSome_iff_exists.mp hstaged
  have hok : m.commitStagedTopology.1 = .ok () := by decide +kernel
  have hcommitted : m.commitStagedTopology.2.topology_committed.isSome = true := by decide +kernel
  obtain ⟨s, hs⟩ := Option.isSome_iff_exists.mp hcommitted
  have hone : (m.commitStagedTopology.2.topology_committed.all fun s =>
      s.enabledSlots.any fun slot => slot.relative_index == 1) = true := by decide +kernel
  have hout : m.commitStagedTopology.2.resolveTopologyTargetIndex 1 true = .error "out_of_window" := by
    decide +kernel
  rw [hs, Option.all_some] at hone
  obtain ⟨slot, hslot, hidx⟩ := List.any_eq_true.mp hone
  obtain ⟨found, hfound, -⟩ := (h m staged hsome hok s hs).reached slot hslot
  rw [beq_iff_eq.mp hidx, hout] at hfound
  cases hfound

end TopologyManager

end EspNowLink
