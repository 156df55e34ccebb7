import EspNowLink.Framework.LastWrites
import EspNowLink.Topology.SnapshotRuns
import EspNowLink.Topology.StageSession

open Framework

namespace EspNowLink

section Deployment

/-- The group that a query stages. -/
def groupOfQuery (query : DescriptorQuery) : TopologyGroupSeed :=
  ⟨query.topology_group_enabled, query.topology_group_id, query.topology_group_seed⟩

/-- A query with a type and no arguments. -/
def requestSimple (type : DescriptorQueryType) : DescriptorQuery := { type := type }

def requestTopologyStageClear : DescriptorQuery := requestSimple .TopologyStageClear

def requestTopologyStageBegin (schema_version : UInt8) (topology_version : UInt32) (index_neg index_pos : UInt8) :
    DescriptorQuery :=
  { type := .TopologyStageBegin
    topology_schema_version := schema_version
    topology_version := topology_version
    topology_index_neg := index_neg
    topology_index_pos := index_pos }

def requestTopologyStageSlotSet (slot : ManagementTopologySlotPayload) : DescriptorQuery :=
  { type := .TopologyStageSlotSet
    topology_slot_index := slot.slot_index
    topology_slot_enabled := slot.enabled
    topology_peer := slot.peer
    topology_peer_role := slot.peer_role
    topology_group_id := slot.group_id
    topology_relative_index := slot.relative_index
    topology_local_virtual_index := slot.local_virtual_index
    topology_peer_virtual_index := slot.peer_virtual_index
    topology_axis_order := slot.axis_order
    topology_delay_ms := slot.delay_ms
    topology_hold_ms := slot.hold_ms }

def requestTopologyStageGroupSet (group : ManagementTopologyGroupSeedPayload) : DescriptorQuery :=
  { type := .TopologyStageGroupSet
    topology_group_slot := group.group_slot
    topology_group_enabled := group.enabled
    topology_group_id := group.group_id
    topology_group_seed := group.seed }

def requestTopologyStageFinalize : DescriptorQuery := requestSimple .TopologyStageFinalize

def requestTopologyCommit : DescriptorQuery := requestSimple .TopologyCommit

namespace ManagementTopologySnapshotPayload

def beginQuery (s : ManagementTopologySnapshotPayload) : DescriptorQuery :=
  requestTopologyStageBegin s.schema_version s.topology_version s.index_neg s.index_pos

def setQueries (s : ManagementTopologySnapshotPayload) : List DescriptorQuery :=
  s.groups.map requestTopologyStageGroupSet ++ s.slots.map requestTopologyStageSlotSet

end ManagementTopologySnapshotPayload

/-- The queries that `queueTopologyDeployToPeer` sends to a peer, one after the other. -/
def queueTopologyDeployToPeer (snapshot : ManagementTopologySnapshotPayload) : List DescriptorQuery :=
  [requestTopologyStageClear, snapshot.beginQuery] ++ snapshot.setQueries ++
    [requestTopologyStageFinalize, requestTopologyCommit]

/-- The snapshot that a local `TopologyStageSet` stages; `none` is a bad payload. -/
def localStageSnapshot (payload : ManagementTopologySnapshotPayload) : Option TopologySnapshot :=
  if payload.slots.all (fun slot => slot.slot_index.toNat < kTopologyMaxSlots) &&
      payload.groups.all (fun group => group.group_slot.toNat < kTopologyMaxGroups) then
    some { blankSnapshot with
      schema_version := payload.schema_version
      state := .Staged
      topology_version := payload.topology_version
      index_neg := payload.index_neg
      index_pos := payload.index_pos
      slots := writeAll blankSnapshot.slots
        (payload.slots.map fun slot => (slot.slot_index.toNat, slot.toTopologySlot))
      groups := writeAll blankSnapshot.groups
        (payload.groups.map fun group => (group.group_slot.toNat, group.toTopologyGroupSeed)) }
  else none

end Deployment

section Stagings

open TopologyPlane (slotOfQuery)

/-- What has reached a slave of a staging: the peer that opened it, its Begin, and the slots and groups that
came since, in their order. -/
structure Staging where
  owner : MacAddress
  opening : DescriptorQuery
  sets : List DescriptorQuery
  deriving DecidableEq

def slotWrites (sets : List DescriptorQuery) : List (Nat × TopologySlot) :=
  (sets.filter fun query => query.type = .TopologyStageSlotSet).map fun query =>
    (query.topology_slot_index.toNat, slotOfQuery query)

def groupWrites (sets : List DescriptorQuery) : List (Nat × TopologyGroupSeed) :=
  (sets.filter fun query => query.type = .TopologyStageGroupSet).map fun query =>
    (query.topology_group_slot.toNat, groupOfQuery query)

/-- A query that leaves a place of the snapshot as it is at the start. -/
def SetsBlank (query : DescriptorQuery) : Prop :=
  if query.type = .TopologyStageSlotSet then slotOfQuery query = blankSlot
  else groupOfQuery query = ⟨false, 0, zeroSeed⟩

instance (query : DescriptorQuery) : Decidable (SetsBlank query) :=
  inferInstanceAs (Decidable (ite _ _ _))

namespace Staging

/-- The snapshot that the queries of a staging make, with the last query for each place. -/
def snapshot (st : Staging) : TopologySnapshot :=
  { blankSnapshot with
    schema_version := st.opening.topology_schema_version
    state := .Staged
    topology_version := st.opening.topology_version
    index_neg := st.opening.topology_index_neg
    index_pos := st.opening.topology_index_pos
    slots := writeAll blankSnapshot.slots (slotWrites st.sets)
    groups := writeAll blankSnapshot.groups (groupWrites st.sets) }

def add (st : Staging) (query : DescriptorQuery) : Staging := { st with sets := st.sets ++ [query] }

/-- The staging that is open after a query of the paired peer. -/
def next (staging : Option Staging) (sender : MacAddress) (query : DescriptorQuery) : Option Staging :=
  match query.type with
  | .TopologyStageClear => none
  | .TopologyStageBegin => some ⟨sender, query, []⟩
  | .TopologyStageSlotSet | .TopologyStageGroupSet =>
    staging.map fun st => if st.owner = sender then st.add query else st
  | .TopologyStageFinalize => staging.filter fun st => st.owner ≠ sender
  | _ => staging

end Staging

/-- The topologies of two snapshots are the same. -/
structure TopologySnapshot.Carries (c s : TopologySnapshot) : Prop where
  topology_version : c.topology_version = s.topology_version
  index_neg : c.index_neg = s.index_neg
  index_pos : c.index_pos = s.index_pos
  slots : c.slots = s.slots
  groups : c.groups = s.groups

theorem TopologySnapshot.Carries.trans {a b c : TopologySnapshot} (h : a.Carries b) (h' : b.Carries c) :
    a.Carries c where
  topology_version := h.topology_version.trans h'.topology_version
  index_neg := h.index_neg.trans h'.index_neg
  index_pos := h.index_pos.trans h'.index_pos
  slots := h.slots.trans h'.slots
  groups := h.groups.trans h'.groups

theorem validated_carries {local_profile_id : ProfileId} {s t : TopologySnapshot}
    (h : validateTopologySnapshot local_profile_id s = .ok t) : t.Carries s := by
  obtain ⟨-, -, rfl⟩ := validateTopologySnapshot_ok h
  exact ⟨rfl, rfl, rfl, rfl, rfl⟩

theorem staged_carries {local_profile_id : ProfileId} {s t : TopologySnapshot}
    (h : validateTopologySnapshot local_profile_id (s.withState .Staged) = .ok t) : t.Carries s :=
  have hcarries := validated_carries h
  ⟨hcarries.topology_version, hcarries.index_neg, hcarries.index_pos, hcarries.slots, hcarries.groups⟩

theorem committed_carries {local_profile_id : ProfileId} {s t : TopologySnapshot}
    (h : validateTopologySnapshot local_profile_id ((s.withState .Committed).withChecksum 0) = .ok t) :
    t.Carries s :=
  have hcarries := validated_carries h
  ⟨hcarries.topology_version, hcarries.index_neg, hcarries.index_pos, hcarries.slots, hcarries.groups⟩

theorem slotWrites_concat (sets : List DescriptorQuery) {query : DescriptorQuery}
    (h : query.type = .TopologyStageSlotSet) :
    slotWrites (sets ++ [query]) = slotWrites sets ++ [(query.topology_slot_index.toNat, slotOfQuery query)] := by
  simp [slotWrites, h]

theorem groupWrites_concat (sets : List DescriptorQuery) {query : DescriptorQuery}
    (h : query.type = .TopologyStageGroupSet) :
    groupWrites (sets ++ [query]) =
      groupWrites sets ++ [(query.topology_group_slot.toNat, groupOfQuery query)] := by
  simp [groupWrites, h]

theorem slotWrites_other (sets : List DescriptorQuery) {query : DescriptorQuery}
    (h : query.type ≠ .TopologyStageSlotSet) : slotWrites (sets ++ [query]) = slotWrites sets := by
  simp [slotWrites, h]

theorem groupWrites_other (sets : List DescriptorQuery) {query : DescriptorQuery}
    (h : query.type ≠ .TopologyStageGroupSet) : groupWrites (sets ++ [query]) = groupWrites sets := by
  simp [groupWrites, h]

end Stagings

section Planes

namespace TopologyPlane

/-- What a slave's topology goes through: a query of some sender, and what `TopologyManager.step` tells of. A
restart makes the control plane anew. -/
inductive Input where
  | query (send : MacAddress → Bytes → Except String Unit) (sender : MacAddress) (query : DescriptorQuery)
  | manager (i : TopologyManager.TopologyInput)

def step (p : TopologyPlane) : Input → TopologyPlane
  | .query send sender query => (p.handleTopologyQuery send sender query).2
  | .manager (.reboot platform) => ⟨p.manager.step (.reboot platform), 1, {}⟩
  | .manager i => p.withManager (p.manager.step i)

/-- What a topology query of the paired peer does. -/
def answer (p : TopologyPlane) (send : MacAddress → Bytes → Except String Unit) (sender : MacAddress)
    (query : DescriptorQuery) : StreamReply × TopologyPlane :=
  match query.type with
  | .TopologyStageClear =>
    (if p.resetTopologyStageSession.manager.clearStagedTopology.1 then ⟨true, "topology stage cleared"⟩
      else ⟨false, "topology stage clear failed"⟩,
      p.resetTopologyStageSession.withManager p.manager.clearStagedTopology.2)
  | .TopologyStageBegin => p.stageBegin sender query
  | .TopologyStageSlotSet =>
    if p.inSession sender then p.stageSlot query else (⟨false, "topology stage not active"⟩, p)
  | .TopologyStageGroupSet =>
    if p.inSession sender then p.stageGroup query else (⟨false, "topology stage not active"⟩, p)
  | .TopologyStageFinalize =>
    if p.inSession sender then p.stageFinalize else (⟨false, "topology stage not active"⟩, p)
  | .TopologyCommit => p.topologyCommit
  | .TopologyStatus => (⟨true, statusMessage p.manager⟩, p)
  | .TopologyTriggerSend =>
    let (seq, p) := p.sendTopologyTrigger send
      ⟨query.topology_target_index, query.topology_trigger_direction, query.topology_delay_ms,
        query.topology_hold_ms, query.topology_source_virtual_index⟩
    match seq with
    | .ok seq => (⟨true, "topology trigger seq=" ++ toString seq⟩, p)
    | .error error => (⟨false, error⟩, p)
  | _ => (⟨false, "topology unsupported query"⟩, p)

/-- The session is the one that the staging makes, if one is open. -/
def Holds (p : TopologyPlane) (staging : Option Staging) : Prop :=
  p.session.topology_stage_active = staging.isSome ∧
    ∀ st, staging = some st → p.session.topology_stage_owner = st.owner ∧
      p.session.topology_stage_snapshot = st.snapshot

variable {p : TopologyPlane} {staging : Option Staging} {send : MacAddress → Bytes → Except String Unit}
  {sender : MacAddress} {query : DescriptorQuery}

theorem Holds.of_session {t : TopologyPlane} (h : p.Holds staging) (hsession : t.session = p.session) :
    t.Holds staging := by
  rw [Holds, hsession]
  exact h

theorem Holds.inSession (h : p.Holds staging) (sender : MacAddress) :
    p.inSession sender = staging.any fun st => st.owner = sender := by
  obtain ⟨hactive, hopen⟩ := h
  rw [TopologyPlane.inSession, hactive]
  cases staging with
  | none => rfl
  | some st =>
    rw [(hopen st rfl).1]
    simp

/-- A trigger changes its number and what makes a peer ready, and no more. -/
theorem sendTopologyTrigger_plane (p : TopologyPlane) (send : MacAddress → Bytes → Except String Unit)
    (request : TopologyTriggerRequest) :
    ∃ seq m, (p.sendTopologyTrigger send request).2 = ⟨m, seq, p.session⟩ ∧
      TopologyManager.KeepsSnapshots p.manager m := by
  rw [sendTopologyTrigger]
  cases p.manager.topology_committed with
  | none => exact ⟨_, _, rfl, .refl _⟩
  | some committed =>
    dsimp only
    split
    · exact ⟨_, _, rfl, .refl _⟩
    split
    · exact ⟨_, _, rfl, .refl _⟩
    split
    · exact ⟨_, _, rfl, .refl _⟩
    cases p.manager.resolveTopologyTargetIndex request.target_index true with
    | error error => exact ⟨_, _, rfl, .refl _⟩
    | ok slot =>
      dsimp only
      split
      · exact ⟨_, _, rfl, .refl _⟩
      have hkeeps := p.manager.ensureTopologyPeerReadyForSlot_keeps slot
      rcases hready : p.manager.ensureTopologyPeerReadyForSlot slot with ⟨_ | _, m⟩
      · rw [hready] at hkeeps
        exact ⟨_, _, rfl, hkeeps⟩
      · rw [hready] at hkeeps
        dsimp only
        cases send slot.peer _ <;> exact ⟨_, _, rfl, hkeeps⟩

theorem topologyCommit_session (p : TopologyPlane) : p.topologyCommit.2.session = p.session := by
  rw [topologyCommit]
  rcases p.manager.commitStagedTopology with ⟨_ | _, m⟩
  · dsimp only
    split <;> rfl
  · rfl

theorem stageFinalize_session (p : TopologyPlane) : p.stageFinalize.2.session = {} := by
  rw [stageFinalize]
  rcases p.manager.stageTopology p.session.topology_stage_snapshot with ⟨_ | _, m⟩
  · rfl
  · dsimp only
    rcases m.commitStagedTopology with ⟨_ | _, m⟩ <;> rfl

/-- A slot set in the session is added to the staging. -/
theorem Holds.stageSlot {st : Staging} (h : p.Holds (some st)) (hquery : query.type = .TopologyStageSlotSet) :
    (p.stageSlot query).2.Holds (some (st.add query)) := by
  obtain ⟨hactive, hopen⟩ := h
  obtain ⟨howner, hsnapshot⟩ := hopen st rfl
  have hadd : (st.add query).snapshot = { st.snapshot with
      slots := st.snapshot.slots.setIfInBounds query.topology_slot_index.toNat (slotOfQuery query) } := by
    have hother : query.type ≠ .TopologyStageGroupSet := by
      rw [hquery]
      decide
    have hgroups := groupWrites_other st.sets hother
    rw [Staging.snapshot, Staging.add, slotWrites_concat st.sets hquery, hgroups, writeAll_concat]
    rfl
  rw [TopologyPlane.stageSlot]
  dsimp only
  by_cases hin : query.topology_slot_index.toNat < kTopologyMaxSlots
  · rw [dif_pos hin]
    refine ⟨hactive, fun st' hst' => ?_⟩
    obtain rfl := Option.some.inj hst'
    refine ⟨howner, ?_⟩
    rw [hadd, ← hsnapshot, setIfInBounds_of_lt hin]
  · rw [dif_neg hin]
    refine ⟨hactive, fun st' hst' => ?_⟩
    obtain rfl := Option.some.inj hst'
    refine ⟨howner, ?_⟩
    rw [hadd, ← hsnapshot, Vector.setIfInBounds_eq_of_size_le (Nat.not_lt.mp hin)]

theorem Holds.stageGroup {st : Staging} (h : p.Holds (some st)) (hquery : query.type = .TopologyStageGroupSet) :
    (p.stageGroup query).2.Holds (some (st.add query)) := by
  obtain ⟨hactive, hopen⟩ := h
  obtain ⟨howner, hsnapshot⟩ := hopen st rfl
  have hadd : (st.add query).snapshot = { st.snapshot with
      groups := st.snapshot.groups.setIfInBounds query.topology_group_slot.toNat (groupOfQuery query) } := by
    have hother : query.type ≠ .TopologyStageSlotSet := by
      rw [hquery]
      decide
    have hslots := slotWrites_other st.sets hother
    rw [Staging.snapshot, Staging.add, groupWrites_concat st.sets hquery, hslots, writeAll_concat]
    rfl
  rw [TopologyPlane.stageGroup]
  dsimp only
  by_cases hin : query.topology_group_slot.toNat < kTopologyMaxGroups
  · rw [dif_pos hin]
    refine ⟨hactive, fun st' hst' => ?_⟩
    obtain rfl := Option.some.inj hst'
    refine ⟨howner, ?_⟩
    rw [hadd, ← hsnapshot, setIfInBounds_of_lt hin]
    rfl
  · rw [dif_neg hin]
    refine ⟨hactive, fun st' hst' => ?_⟩
    obtain rfl := Option.some.inj hst'
    refine ⟨howner, ?_⟩
    rw [hadd, ← hsnapshot, Vector.setIfInBounds_eq_of_size_le (Nat.not_lt.mp hin)]

theorem Holds.next_set {next : Staging → Staging} (h : p.Holds staging) (hout : p.inSession sender = false) :
    p.Holds (staging.map fun st => if st.owner = sender then next st else st) := by
  cases staging with
  | none => exact h
  | some st =>
    rw [h.inSession, Option.any_some, decide_eq_false_iff_not] at hout
    rw [Option.map_some, if_neg hout]
    exact h

theorem Holds.closed (h : p.Holds staging) (hout : p.inSession sender = false) :
    staging.filter (fun st => st.owner ≠ sender) = staging := by
  rw [h.inSession] at hout
  cases staging with
  | none => rfl
  | some st =>
    rw [Option.any_some, decide_eq_false_iff_not] at hout
    simp [hout]

theorem Holds.mine (h : p.Holds staging) (hin : p.inSession sender = true) :
    ∃ st, staging = some st ∧ st.owner = sender := by
  rw [h.inSession] at hin
  cases staging with
  | none => cases hin
  | some st => exact ⟨st, rfl, of_decide_eq_true hin⟩

/-- The answer to a topology query of the paired peer. -/
theorem handleTopologyQuery_paired (hpeer : p.manager.paired_peer = some sender)
    (htopology : isTopologyQuery query.type = true) :
    p.handleTopologyQuery send sender query =
      (some (p.answer send sender query).1, (p.answer send sender query).2) := by
  rw [handleTopologyQuery, htopology, if_neg (by simp), if_neg (by simp [hpeer])]
  rfl

theorem next_other (h : isTopologyQuery query.type = false) (staging : Option Staging) (sender : MacAddress) :
    Staging.next staging sender query = staging := by
  rw [Staging.next]
  cases htype : query.type <;> rw [htype] at h <;> first | rfl | cases h

theorem answer_trigger (p : TopologyPlane) (send : MacAddress → Bytes → Except String Unit) (sender : MacAddress)
    (htype : query.type = .TopologyTriggerSend) :
    ∃ seq m, (p.answer send sender query).2 = ⟨m, seq, p.session⟩ ∧
      TopologyManager.KeepsSnapshots p.manager m := by
  rw [answer, htype]
  dsimp only
  obtain ⟨seq, m, hplane, hkeeps⟩ := p.sendTopologyTrigger_plane send ⟨query.topology_target_index,
    query.topology_trigger_direction, query.topology_delay_ms, query.topology_hold_ms,
    query.topology_source_virtual_index⟩
  rcases hsent : p.sendTopologyTrigger send ⟨query.topology_target_index, query.topology_trigger_direction,
    query.topology_delay_ms, query.topology_hold_ms, query.topology_source_virtual_index⟩ with ⟨_ | _, t⟩
  all_goals
    rw [hsent] at hplane
    exact ⟨seq, m, hplane, hkeeps⟩

/-- A query of the paired peer leads to the session of the staging that is open after it. -/
theorem Holds.answer (h : p.Holds staging) :
    (p.answer send sender query).2.Holds (Staging.next staging sender query) := by
  rw [Staging.next]
  cases htype : query.type with
  | TopologyStageClear =>
    rw [TopologyPlane.answer, htype]
    exact ⟨rfl, fun _ hst => nomatch hst⟩
  | TopologyStageBegin =>
    rw [TopologyPlane.answer, htype]
    refine ⟨rfl, fun st hst => ?_⟩
    obtain rfl := Option.some.inj hst
    exact ⟨rfl, rfl⟩
  | TopologyStageSlotSet =>
    rw [TopologyPlane.answer, htype]
    dsimp only
    cases hin : p.inSession sender with
    | false => exact h.next_set hin
    | true =>
      obtain ⟨st, rfl, howner⟩ := h.mine hin
      rw [if_pos rfl, Option.map_some, if_pos howner]
      exact h.stageSlot htype
  | TopologyStageGroupSet =>
    rw [TopologyPlane.answer, htype]
    dsimp only
    cases hin : p.inSession sender with
    | false => exact h.next_set hin
    | true =>
      obtain ⟨st, rfl, howner⟩ := h.mine hin
      rw [if_pos rfl, Option.map_some, if_pos howner]
      exact h.stageGroup htype
  | TopologyStageFinalize =>
    rw [TopologyPlane.answer, htype]
    dsimp only
    cases hin : p.inSession sender with
    | false =>
      rw [h.closed hin]
      exact h
    | true =>
      obtain ⟨st, rfl, howner⟩ := h.mine hin
      rw [if_pos rfl, Option.filter_some, howner, if_neg (by simp)]
      have hsession := p.stageFinalize_session
      exact ⟨by rw [hsession]; rfl, fun _ hst => nomatch hst⟩
  | TopologyCommit =>
    rw [TopologyPlane.answer, htype]
    exact h.of_session p.topologyCommit_session
  | TopologyTriggerSend =>
    obtain ⟨seq, m, hplane, -⟩ := answer_trigger p send sender htype
    rw [hplane]
    exact h
  | _ =>
    rw [TopologyPlane.answer, htype]
    exact h

end TopologyPlane

end Planes

section Traces

open TopologyPlane (Input slotOfQuery)

/-- A slave's topology with what has reached it of the staging that is open, and the snapshots that were handed
over whole to be staged: by a local command, or by a Finalize of the peer that opened the staging. -/
structure TracedPlane where
  plane : TopologyPlane
  staging : Option Staging
  handed : List TopologySnapshot

/-- The snapshot that a query of the paired peer hands over. -/
def handedBy (staging : Option Staging) (sender : MacAddress) (query : DescriptorQuery) : List TopologySnapshot :=
  if query.type = .TopologyStageFinalize then
    (staging.filter fun st => st.owner = sender).toList.map Staging.snapshot
  else []

/-- The snapshot that a local command hands over. -/
def TopologyManager.TopologyInput.handed : TopologyManager.TopologyInput → List TopologySnapshot
  | .stage snapshot => [snapshot]
  | _ => []

namespace TracedPlane

def step (t : TracedPlane) : Input → TracedPlane
  | .query send sender query =>
    if t.plane.manager.paired_peer = some sender then
      ⟨t.plane.step (.query send sender query), Staging.next t.staging sender query,
        handedBy t.staging sender query ++ t.handed⟩
    else ⟨t.plane.step (.query send sender query), t.staging, t.handed⟩
  | .manager (.reboot platform) => ⟨t.plane.step (.manager (.reboot platform)), none, t.handed⟩
  | .manager i => ⟨t.plane.step (.manager i), t.staging, i.handed ++ t.handed⟩

/-- A query of a peer that is not paired changes nothing. -/
theorem query_unauthorized {p : TopologyPlane} {sender : MacAddress} (h : p.manager.paired_peer ≠ some sender)
    (send : MacAddress → Bytes → Except String Unit) (query : DescriptorQuery) :
    p.step (.query send sender query) = p := by
  rw [TopologyPlane.step, TopologyPlane.handleTopologyQuery]
  by_cases htopology : (!isTopologyQuery query.type) = true
  · rw [if_pos htopology]
  · rw [if_neg htopology, if_pos h]

theorem step_holds (t : TracedPlane) (h : t.plane.Holds t.staging) (i : Input) :
    (t.step i).plane.Holds (t.step i).staging := by
  cases i with
  | query send sender query =>
    rw [step]
    by_cases hpeer : t.plane.manager.paired_peer = some sender
    · rw [if_pos hpeer]
      dsimp only
      cases htopology : isTopologyQuery query.type with
      | false =>
        rw [TopologyPlane.next_other htopology, TopologyPlane.step,
          TopologyPlane.handleTopologyQuery_other _ _ _ htopology]
        exact h
      | true =>
        rw [TopologyPlane.step, TopologyPlane.handleTopologyQuery_paired hpeer htopology]
        exact h.answer
    · rw [if_neg hpeer]
      dsimp only
      rw [query_unauthorized hpeer]
      exact h
  | manager i =>
    cases i with
    | reboot platform => exact ⟨rfl, fun _ hst => nomatch hst⟩
    | _ => exact h.of_session rfl

theorem run_holds (inputs : List Input) (t : TracedPlane) (h : t.plane.Holds t.staging) :
    (inputs.foldl step t).plane.Holds (inputs.foldl step t).staging := by
  induction inputs generalizing t with
  | nil => exact h
  | cons i inputs ih => exact ih (t.step i) (t.step_holds h i)

end TracedPlane

end Traces

section Finalizing

variable {m : TopologyManager} {snapshot : TopologySnapshot}

/-- What a Finalize commits is the snapshot of its session. -/
theorem stageFinalize_applied {p : TopologyPlane} (h : p.stageFinalize.1 = ⟨true, "topology applied"⟩) :
    ∃ c, p.stageFinalize.2.manager.topology_committed = some c ∧ c.Carries p.session.topology_stage_snapshot := by
  rw [TopologyPlane.stageFinalize] at h ⊢
  rcases p.manager.stageTopology_cases p.session.topology_stage_snapshot with
    ⟨u, s, -, hok, hvalid, hframe, -⟩ | ⟨⟨error, herror⟩, -⟩
  · rcases hstage : p.manager.stageTopology p.session.topology_stage_snapshot with ⟨staged, t⟩
    rw [hstage] at hok hframe h
    obtain rfl : staged = .ok () := hok
    have hstaged : t.topology_staged = some s := hframe.staged
    dsimp only at h ⊢
    rcases t.commitStagedTopology_cases with
      ⟨v, c, -, ⟨staged', hstaged', hcommits⟩, hv, hcommit⟩ | ⟨-, -, hfails⟩
    · rw [hcommit]
      obtain rfl : s = staged' := Option.some.inj (hstaged.symm.trans hstaged')
      exact ⟨c, v.forgetStaged_frame.committed.trans hv.committed,
        (committed_carries hcommits).trans (staged_carries hvalid)⟩
    · obtain ⟨error, herror⟩ := hfails (by rw [hstaged]; rfl)
      rcases hcommit : t.commitStagedTopology with ⟨committed, v⟩
      rw [hcommit] at h herror
      obtain rfl : committed = .error error := herror
      cases h
  · rcases hstage : p.manager.stageTopology p.session.topology_stage_snapshot with ⟨staged, t⟩
    rw [hstage] at herror h
    obtain rfl : staged = .error error := herror
    cases h

end Finalizing

section Arrivals

open TopologyPlane (slotOfQuery Input)

variable {S : ManagementTopologySnapshotPayload} {sets : List DescriptorQuery}

theorem slotWrites_setQueries (S : ManagementTopologySnapshotPayload) :
    slotWrites S.setQueries = S.slots.map fun slot => (slot.slot_index.toNat, slot.toTopologySlot) := by
  rw [slotWrites, ManagementTopologySnapshotPayload.setQueries, List.filter_append, List.map_append]
  have hgroups : (S.groups.map requestTopologyStageGroupSet).filter
      (fun query => query.type = .TopologyStageSlotSet) = [] := by
    simp [List.filter_eq_nil_iff, requestTopologyStageGroupSet]
  have hslots : (S.slots.map requestTopologyStageSlotSet).filter
      (fun query => query.type = .TopologyStageSlotSet) = S.slots.map requestTopologyStageSlotSet := by
    simp [List.filter_eq_self, requestTopologyStageSlotSet]
  rw [hgroups, hslots, List.map_map]
  rfl

theorem groupWrites_setQueries (S : ManagementTopologySnapshotPayload) :
    groupWrites S.setQueries = S.groups.map fun group => (group.group_slot.toNat, group.toTopologyGroupSeed) := by
  rw [groupWrites, ManagementTopologySnapshotPayload.setQueries, List.filter_append, List.map_append]
  have hslots : (S.slots.map requestTopologyStageSlotSet).filter
      (fun query => query.type = .TopologyStageGroupSet) = [] := by
    simp [List.filter_eq_nil_iff, requestTopologyStageSlotSet]
  have hgroups : (S.groups.map requestTopologyStageGroupSet).filter
      (fun query => query.type = .TopologyStageGroupSet) = S.groups.map requestTopologyStageGroupSet := by
    simp [List.filter_eq_self, requestTopologyStageGroupSet]
  rw [hgroups, hslots, List.map_map, List.map_nil, List.append_nil]
  rfl

theorem slotWrites_once (h : S.Fits) : OncePerPlace (slotWrites S.setQueries) := by
  rw [OncePerPlace, slotWrites_setQueries, List.map_map]
  have honce := h.slot_once.map (f := UInt8.toNat) fun _ _ => UInt8.toNat_inj.mp
  rwa [List.map_map] at honce

theorem groupWrites_once (h : S.Fits) : OncePerPlace (groupWrites S.setQueries) := by
  rw [OncePerPlace, groupWrites_setQueries, List.map_map]
  have honce := h.group_once.map (f := UInt8.toNat) fun _ _ => UInt8.toNat_inj.mp
  rwa [List.map_map] at honce

theorem slotWrites_subset (h : sets ⊆ S.setQueries) : slotWrites sets ⊆ slotWrites S.setQueries :=
  List.map_subset _ (List.filter_subset _ h)

theorem groupWrites_subset (h : sets ⊆ S.setQueries) : groupWrites sets ⊆ groupWrites S.setQueries :=
  List.map_subset _ (List.filter_subset _ h)

/-- A slot has arrived exactly when its query has. -/
theorem mem_slotWrites (hsub : sets ⊆ S.setQueries) (slot : ManagementTopologySlotPayload) :
    (slot.slot_index.toNat, slot.toTopologySlot) ∈ slotWrites sets ↔
      requestTopologyStageSlotSet slot ∈ sets := by
  constructor
  · intro hmem
    obtain ⟨query, hquery, heq⟩ := List.mem_map.mp hmem
    obtain ⟨hin, htype⟩ := List.mem_filter.mp hquery
    have htype := of_decide_eq_true htype
    rcases List.mem_append.mp (hsub hin) with hgroup | hslot
    · obtain ⟨group, -, rfl⟩ := List.mem_map.mp hgroup
      cases htype
    · obtain ⟨slot', -, rfl⟩ := List.mem_map.mp hslot
      have hindex : slot'.slot_index = slot.slot_index := UInt8.toNat_inj.mp (congrArg Prod.fst heq)
      have hvalue : slot'.toTopologySlot = slot.toTopologySlot := congrArg Prod.snd heq
      have hsame : slot' = slot := by
        obtain ⟨value, index⟩ := slot
        obtain ⟨value', index'⟩ := slot'
        rw [ManagementTopologySlotPayload.mk.injEq]
        exact ⟨hvalue, hindex⟩
      rwa [hsame] at hin
  · intro hmem
    exact List.mem_map.mpr ⟨_, List.mem_filter.mpr ⟨hmem, decide_eq_true rfl⟩, rfl⟩

theorem mem_groupWrites (hsub : sets ⊆ S.setQueries) (group : ManagementTopologyGroupSeedPayload) :
    (group.group_slot.toNat, group.toTopologyGroupSeed) ∈ groupWrites sets ↔
      requestTopologyStageGroupSet group ∈ sets := by
  constructor
  · intro hmem
    obtain ⟨query, hquery, heq⟩ := List.mem_map.mp hmem
    obtain ⟨hin, htype⟩ := List.mem_filter.mp hquery
    have htype := of_decide_eq_true htype
    rcases List.mem_append.mp (hsub hin) with hgroup | hslot
    · obtain ⟨group', -, rfl⟩ := List.mem_map.mp hgroup
      have hindex : group'.group_slot = group.group_slot := UInt8.toNat_inj.mp (congrArg Prod.fst heq)
      have hvalue : group'.toTopologyGroupSeed = group.toTopologyGroupSeed := congrArg Prod.snd heq
      have hsame : group' = group := by
        obtain ⟨value, index⟩ := group
        obtain ⟨value', index'⟩ := group'
        rw [ManagementTopologyGroupSeedPayload.mk.injEq]
        exact ⟨hvalue, hindex⟩
      rwa [hsame] at hin
    · obtain ⟨slot, -, rfl⟩ := List.mem_map.mp hslot
      cases htype
  · intro hmem
    exact List.mem_map.mpr ⟨_, List.mem_filter.mpr ⟨hmem, decide_eq_true rfl⟩, rfl⟩

/-- The tables that some of the queries of a snapshot make are those of the whole of it exactly when each query
that is not blank is among them. -/
theorem tables_eq_iff (hS : S.Fits) (hsub : sets ⊆ S.setQueries) :
    (writeAll blankSnapshot.slots (slotWrites sets) = writeAll blankSnapshot.slots (slotWrites S.setQueries) ∧
      writeAll blankSnapshot.groups (groupWrites sets) = writeAll blankSnapshot.groups (groupWrites S.setQueries)) ↔
      ∀ query ∈ S.setQueries, SetsBlank query ∨ query ∈ sets := by
  have hslots := writeAll_eq_iff (n := kTopologyMaxSlots) (slotWrites_once hS) (slotWrites_subset hsub) blankSlot
  have hgroups := writeAll_eq_iff (n := kTopologyMaxGroups) (groupWrites_once hS) (groupWrites_subset hsub)
    ⟨false, 0, zeroSeed⟩
  rw [slotWrites_setQueries] at hslots ⊢
  rw [groupWrites_setQueries] at hgroups ⊢
  rw [show blankSnapshot.slots = Vector.replicate _ blankSlot from rfl,
    show blankSnapshot.groups = Vector.replicate _ ⟨false, 0, zeroSeed⟩ from rfl, hslots, hgroups]
  constructor
  · rintro ⟨hslots, hgroups⟩ query hquery
    by_cases hblank : SetsBlank query
    · exact .inl hblank
    right
    rcases List.mem_append.mp hquery with hgroup | hslot
    · obtain ⟨group, hmem, rfl⟩ := List.mem_map.mp hgroup
      exact (mem_groupWrites hsub group).mp
        (hgroups _ (List.mem_map_of_mem hmem) (UInt8.lt_iff_toNat_lt.mp (hS.group_slot group hmem)) hblank)
    · obtain ⟨slot, hmem, rfl⟩ := List.mem_map.mp hslot
      exact (mem_slotWrites hsub slot).mp
        (hslots _ (List.mem_map_of_mem hmem) (UInt8.lt_iff_toNat_lt.mp (hS.slot_index slot hmem)) hblank)
  · intro hall
    constructor
    · intro w hw _ hne
      obtain ⟨slot, hmem, rfl⟩ := List.mem_map.mp hw
      rw [mem_slotWrites hsub]
      exact (hall _ (List.mem_append_right _ (List.mem_map_of_mem hmem))).resolve_left hne
    · intro w hw _ hne
      obtain ⟨group, hmem, rfl⟩ := List.mem_map.mp hw
      rw [mem_groupWrites hsub]
      exact (hall _ (List.mem_append_left _ (List.mem_map_of_mem hmem))).resolve_left hne

theorem localStageSnapshot_slots {whole : TopologySnapshot} (h : localStageSnapshot S = some whole) :
    whole.topology_version = S.topology_version ∧ whole.index_neg = S.index_neg ∧
      whole.index_pos = S.index_pos ∧ whole.slots = writeAll blankSnapshot.slots (slotWrites S.setQueries) ∧
      whole.groups = writeAll blankSnapshot.groups (groupWrites S.setQueries) := by
  rw [slotWrites_setQueries, groupWrites_setQueries]
  rw [localStageSnapshot] at h
  split at h
  · obtain rfl := Option.some.inj h
    exact ⟨rfl, rfl, rfl, rfl, rfl⟩
  · cases h

/-- What a staging of some of the queries of a snapshot makes is what a local command stages of the snapshot
exactly when each query that is not blank is among them. -/
theorem Staging.carries_iff {st : Staging} {c whole : TopologySnapshot} (hS : S.Fits)
    (hwhole : localStageSnapshot S = some whole) (hopening : st.opening = S.beginQuery)
    (hsub : st.sets ⊆ S.setQueries) (hc : c.Carries st.snapshot) :
    c.Carries whole ↔ ∀ query ∈ S.setQueries, SetsBlank query ∨ query ∈ st.sets := by
  obtain ⟨hversion, hneg, hpos, hslots, hgroups⟩ := localStageSnapshot_slots hwhole
  rw [← tables_eq_iff hS hsub, ← hslots, ← hgroups]
  constructor
  · intro h
    exact ⟨hc.slots.symm.trans h.slots, hc.groups.symm.trans h.groups⟩
  · rintro ⟨hsame, hsame'⟩
    refine ⟨hc.topology_version.trans ?_, hc.index_neg.trans ?_, hc.index_pos.trans ?_,
      hc.slots.trans hsame, hc.groups.trans hsame'⟩
    · rw [Staging.snapshot, hopening, hversion]
      rfl
    · rw [Staging.snapshot, hopening, hneg]
      rfl
    · rw [Staging.snapshot, hopening, hpos]
      rfl

/-- In every run of a slave, with any peers, losses, repetitions and orders of their queries, local commands and
restarts, a Finalize that is answered with success commits what has reached the slave since the last Begin of that
peer, the last query for each place. Of a deployment of which nothing but its own queries arrived since its Begin,
it commits the whole exactly when every slot and group arrived that is not blank: nothing else holds it back. -/
theorem finalize_commits_whole_iff (p : TopologyPlane) (hidle : p.session.topology_stage_active = false)
    (inputs : List Input) (send : MacAddress → Bytes → Except String Unit) (sender : MacAddress)
    (query : DescriptorQuery) (hquery : query.type = .TopologyStageFinalize)
    (happlied : ((inputs.foldl TracedPlane.step ⟨p, none, []⟩).plane.handleTopologyQuery send sender query).1 =
      some ⟨true, "topology applied"⟩) :
    ∃ st c, (inputs.foldl TracedPlane.step ⟨p, none, []⟩).staging = some st ∧ st.owner = sender ∧
      ((inputs.foldl TracedPlane.step ⟨p, none, []⟩).plane.handleTopologyQuery send sender
        query).2.manager.topology_committed = some c ∧ c.Carries st.snapshot ∧
      ∀ S whole, S.Fits → localStageSnapshot S = some whole → st.opening = S.beginQuery →
        st.sets ⊆ S.setQueries →
          (c.Carries whole ↔ ∀ query ∈ S.setQueries, SetsBlank query ∨ query ∈ st.sets) := by
  have hholds := TracedPlane.run_holds inputs ⟨p, none, []⟩ ⟨hidle, fun _ hst => nomatch hst⟩
  revert hholds happlied
  generalize inputs.foldl TracedPlane.step ⟨p, none, []⟩ = t
  intro happlied hholds
  have htopology : isTopologyQuery query.type = true := by
    rw [hquery]
    rfl
  have hpeer : t.plane.manager.paired_peer = some sender := by
    by_contra hpeer
    rw [TopologyPlane.handleTopologyQuery, htopology, if_neg (by simp), if_pos hpeer] at happlied
    exact absurd (congrArg StreamReply.ok (Option.some.inj happlied)) Bool.false_ne_true
  rw [TopologyPlane.handleTopologyQuery_paired hpeer htopology, TopologyPlane.answer, hquery] at happlied ⊢
  dsimp only at happlied ⊢
  cases hin : t.plane.inSession sender with
  | false =>
    rw [hin, if_neg (by simp)] at happlied
    exact absurd (congrArg StreamReply.ok (Option.some.inj happlied)) Bool.false_ne_true
  | true =>
    rw [hin, if_pos rfl] at happlied
    obtain ⟨st, hst, howner⟩ := hholds.mine hin
    obtain ⟨c, hc, hcarries⟩ := stageFinalize_applied (Option.some.inj happlied)
    rw [(hholds.2 st hst).2] at hcarries
    rw [if_pos rfl]
    exact ⟨st, c, hst, howner, hc, hcarries,
      fun S whole hS hwhole hopening hsub => st.carries_iff hS hwhole hopening hsub hcarries⟩

end Arrivals

section PartialCommit

open TopologyPlane (Input)

/-- A topology of one group and one slot. -/
def oneSlotPayload : ManagementTopologySnapshotPayload where
  schema_version := 1
  topology_version := 2
  index_neg := 1
  index_pos := 1
  slots := [⟨sideSlot 3 5 1 1, 0⟩]
  groups := [⟨⟨true, 1, Vector.replicate 32 7⟩, 0⟩]

/-- The slave that is idle. -/
def idlePlane : TopologyPlane := ⟨semu.started telling none none, 1, {}⟩

/-- The burst of `oneSlotPayload` but for its slot, up to the Finalize. -/
def lossyBurst : List Input :=
  [requestTopologyStageClear, oneSlotPayload.beginQuery,
    requestTopologyStageGroupSet ⟨⟨true, 1, Vector.replicate 32 7⟩, 0⟩].map
      (.query (fun _ _ => .ok ()) semu.master)

/-- A burst that loses its slot is committed without it. -/
theorem partial_topology_committed :
    ∃ st c, (lossyBurst.foldl TracedPlane.step ⟨idlePlane, none, []⟩).staging = some st ∧
      ((lossyBurst.foldl TracedPlane.step ⟨idlePlane, none, []⟩).plane.handleTopologyQuery (fun _ _ => .ok ())
        semu.master requestTopologyStageFinalize).2.manager.topology_committed = some c ∧
      ∀ whole, localStageSnapshot oneSlotPayload = some whole → ¬c.Carries whole := by
  obtain ⟨st, c, hst, -, hc, -, hiff⟩ := finalize_commits_whole_iff idlePlane rfl lossyBurst (fun _ _ => .ok ())
    semu.master requestTopologyStageFinalize rfl (by decide +kernel)
  refine ⟨st, c, hst, hc, fun whole hwhole hcarries => ?_⟩
  have hstaging : (lossyBurst.foldl TracedPlane.step ⟨idlePlane, none, []⟩).staging =
      some ⟨semu.master, oneSlotPayload.beginQuery,
        [requestTopologyStageGroupSet ⟨⟨true, 1, Vector.replicate 32 7⟩, 0⟩]⟩ := by
    decide +kernel
  obtain rfl := Option.some.inj (hst.symm.trans hstaging)
  have hfits : oneSlotPayload.Fits := by
    constructor <;> decide
  have hall := (hiff oneSlotPayload whole hfits hwhole rfl (by decide +kernel)).mp hcarries
  exact absurd (hall (requestTopologyStageSlotSet ⟨sideSlot 3 5 1 1, 0⟩) (by decide +kernel)) (by decide +kernel)

end PartialCommit

end EspNowLink
