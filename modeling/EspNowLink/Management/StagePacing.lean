import EspNowLink.Management.StageExchange

namespace EspNowLink

open Framework

section Order

namespace ManagementTopologySnapshotPayload

/-- The queries of a stage flow, in their order. -/
def paced (s : ManagementTopologySnapshotPayload) : List DescriptorQuery :=
  requestTopologyStageClear :: s.beginQuery :: (s.setQueries ++ [requestTopologyStageFinalize])

variable {s : ManagementTopologySnapshotPayload} {query : DescriptorQuery}

theorem paced_one : s.paced[1]? = some s.beginQuery := rfl

theorem paced_set {i : Nat} (h : i < s.setQueries.length) : s.paced[i + 2]? = s.setQueries[i]? := by
  rw [paced, List.getElem?_cons_succ, List.getElem?_cons_succ, List.getElem?_append_left h]

theorem paced_last : s.paced[s.setQueries.length + 2]? = some requestTopologyStageFinalize := by
  rw [paced, List.getElem?_cons_succ, List.getElem?_cons_succ, List.getElem?_concat_length]

/-- A query from the third on is a set query or the Finalize. -/
theorem paced_cases {i : Nat} (h : s.paced[i + 2]? = some query) :
    s.setQueries[i]? = some query ∨ i = s.setQueries.length ∧ query = requestTopologyStageFinalize := by
  rw [paced, List.getElem?_cons_succ, List.getElem?_cons_succ] at h
  rcases Nat.lt_trichotomy i s.setQueries.length with hlt | rfl | hgt
  · rw [List.getElem?_append_left hlt] at h
    exact .inl h
  · rw [List.getElem?_concat_length] at h
    exact .inr ⟨rfl, (Option.some.inj h).symm⟩
  · rw [List.getElem?_eq_none (by simp; omega)] at h
    cases h

theorem setQueries_group {i : Nat} {group : ManagementTopologyGroupSeedPayload} (h : s.groups[i]? = some group) :
    s.setQueries[i]? = some (requestTopologyStageGroupSet group) := by
  obtain ⟨hlt, -⟩ := List.getElem?_eq_some_iff.mp h
  rw [setQueries, List.getElem?_append_left (by simpa using hlt), List.getElem?_map, h]
  rfl

theorem setQueries_slot {i : Nat} {slot : ManagementTopologySlotPayload} (h : s.slots[i]? = some slot) :
    s.setQueries[s.groups.length + i]? = some (requestTopologyStageSlotSet slot) := by
  rw [setQueries, List.getElem?_append_right (by simp), List.length_map, Nat.add_sub_cancel_left,
    List.getElem?_map, h]
  rfl

theorem setQueries_length (s : ManagementTopologySnapshotPayload) :
    s.setQueries.length = s.groups.length + s.slots.length := by
  simp [setQueries]

theorem isStageQuery_set (h : query ∈ s.setQueries) : isStageQuery query = true := by
  rcases List.mem_append.mp h with hgroup | hslot
  · obtain ⟨group, -, rfl⟩ := List.mem_map.mp hgroup
    rfl
  · obtain ⟨slot, -, rfl⟩ := List.mem_map.mp hslot
    rfl

theorem isStageQuery_paced (h : query ∈ s.paced) : isStageQuery query = true := by
  simp only [paced, List.mem_cons, List.mem_append, List.not_mem_nil, or_false] at h
  rcases h with rfl | rfl | hset | rfl
  · rfl
  · rfl
  · exact isStageQuery_set hset
  · rfl

end ManagementTopologySnapshotPayload

namespace PendingTopologyStage

/-- The place of the request on its way among the queries of the flow. -/
def position (p : PendingTopologyStage) : Nat :=
  match p.topology_stage_step with
  | .None | .WaitClearAck => 0
  | .WaitBeginAck => 1
  | .WaitGroupAck | .WaitSlotAck => p.topology_stage_group_cursor + p.topology_stage_slot_cursor + 1
  | .WaitFinalizeAck => p.topology_stage_group_cursor + p.topology_stage_slot_cursor + 2

/-- The cursors are where the step says: slots come after all groups, the Finalize after all slots. -/
def Paced (p : PendingTopologyStage) : Prop :=
  match p.topology_stage_step with
  | .None => False
  | .WaitClearAck | .WaitBeginAck => p.topology_stage_group_cursor = 0 ∧ p.topology_stage_slot_cursor = 0
  | .WaitGroupAck =>
    0 < p.topology_stage_group_cursor ∧
      p.topology_stage_group_cursor ≤ p.topology_stage_snapshot.groups.length ∧ p.topology_stage_slot_cursor = 0
  | .WaitSlotAck =>
    p.topology_stage_group_cursor = p.topology_stage_snapshot.groups.length ∧ 0 < p.topology_stage_slot_cursor ∧
      p.topology_stage_slot_cursor ≤ p.topology_stage_snapshot.slots.length
  | .WaitFinalizeAck =>
    p.topology_stage_group_cursor = p.topology_stage_snapshot.groups.length ∧
      p.topology_stage_slot_cursor = p.topology_stage_snapshot.slots.length ∧
      p.topology_stage_finalize_corr = p.corr_last

variable {p : PendingTopologyStage}

theorem Paced.finalize (h : p.Paced) (hstep : p.topology_stage_step = .WaitFinalizeAck) :
    p.position = p.topology_stage_snapshot.setQueries.length + 2 ∧
      p.topology_stage_finalize_corr = p.corr_last := by
  rw [Paced, hstep] at h
  obtain ⟨hgroups, hslots, hcorr⟩ := h
  refine ⟨?_, hcorr⟩
  rw [position, hstep, ManagementTopologySnapshotPayload.setQueries_length, hgroups, hslots]

/-- An acknowledgement leads to the next query of the flow. -/
def LeadsOn (p : PendingTopologyStage) (corr : UInt32) : Prop :=
  ∃ query, p.queryOf p.nextStep = some query ∧ (p.dispatched p.nextStep corr).Paced ∧
    (p.dispatched p.nextStep corr).position = p.position + 1 ∧
    p.topology_stage_snapshot.paced[p.position + 1]? = some query

/-- From the Begin on, the cursors tell which query is next. -/
theorem leadsOn_data (hclear : p.topology_stage_step ≠ .WaitClearAck)
    (hposition : p.position = p.topology_stage_group_cursor + p.topology_stage_slot_cursor + 1)
    (hgroups : p.topology_stage_group_cursor ≤ p.topology_stage_snapshot.groups.length)
    (hslots : p.topology_stage_slot_cursor ≤ p.topology_stage_snapshot.slots.length)
    (horder : p.topology_stage_slot_cursor = 0 ∨
      p.topology_stage_group_cursor = p.topology_stage_snapshot.groups.length) (corr : UInt32) : p.LeadsOn corr := by
  rw [LeadsOn, nextStep, if_neg hclear, hposition]
  by_cases hgroup : p.topology_stage_group_cursor < p.topology_stage_snapshot.groups.length
  · have hzero : p.topology_stage_slot_cursor = 0 := by omega
    have hget := List.getElem?_eq_getElem hgroup
    rw [if_pos hgroup, queryOf, hget, Option.map_some, hzero]
    refine ⟨_, rfl, ⟨Nat.succ_pos _, hgroup, hzero⟩, ?_, ?_⟩
    · simp [position, dispatched, hzero]
    · rw [Nat.add_zero, ManagementTopologySnapshotPayload.paced_set
        (by rw [ManagementTopologySnapshotPayload.setQueries_length]; omega)]
      exact ManagementTopologySnapshotPayload.setQueries_group hget
  have hall : p.topology_stage_group_cursor = p.topology_stage_snapshot.groups.length := by omega
  rw [if_neg hgroup]
  by_cases hslot : p.topology_stage_slot_cursor < p.topology_stage_snapshot.slots.length
  · have hget := List.getElem?_eq_getElem hslot
    rw [if_pos hslot, queryOf, hget, Option.map_some]
    refine ⟨_, rfl, ⟨hall, Nat.succ_pos _, hslot⟩, ?_, ?_⟩
    · simp [position, dispatched]
      omega
    · rw [ManagementTopologySnapshotPayload.paced_set
        (by rw [ManagementTopologySnapshotPayload.setQueries_length]; omega), hall]
      exact ManagementTopologySnapshotPayload.setQueries_slot hget
  · have hend : p.topology_stage_slot_cursor = p.topology_stage_snapshot.slots.length := by omega
    rw [if_neg hslot, queryOf]
    refine ⟨_, rfl, ⟨hall, hend, rfl⟩, ?_, ?_⟩
    · simp [position, dispatched]
    · rw [hall, hend, ← ManagementTopologySnapshotPayload.setQueries_length]
      exact ManagementTopologySnapshotPayload.paced_last

/-- So it does before the Finalize. -/
theorem Paced.next (h : p.Paced) (hstep : p.topology_stage_step ≠ .WaitFinalizeAck) (corr : UInt32) :
    p.LeadsOn corr := by
  rw [Paced] at h
  cases hcurrent : p.topology_stage_step with
  | None =>
    rw [hcurrent] at h
    exact h.elim
  | WaitClearAck =>
    rw [hcurrent] at h
    have hposition : p.position = 0 := by
      rw [position, hcurrent]
    rw [LeadsOn, nextStep, if_pos hcurrent, hposition, queryOf]
    exact ⟨_, rfl, h, rfl, ManagementTopologySnapshotPayload.paced_one⟩
  | WaitBeginAck =>
    rw [hcurrent] at h
    obtain ⟨hgroup, hslot⟩ := h
    apply leadsOn_data
    · rw [hcurrent]
      decide
    · rw [position, hcurrent, hgroup, hslot]
    · omega
    · omega
    · exact .inl hslot
  | WaitGroupAck =>
    rw [hcurrent] at h
    obtain ⟨hpos, hgroup, hslot⟩ := h
    apply leadsOn_data
    · rw [hcurrent]
      decide
    · rw [position, hcurrent]
    · exact hgroup
    · omega
    · exact .inl hslot
  | WaitSlotAck =>
    rw [hcurrent] at h
    obtain ⟨hgroup, hpos, hslot⟩ := h
    apply leadsOn_data
    · rw [hcurrent]
      decide
    · rw [position, hcurrent]
    · exact hgroup.le
    · exact hslot
    · exact .inr hgroup
  | WaitFinalizeAck => exact absurd hcurrent hstep

end PendingTopologyStage

end Order

namespace StageExchange

section Slave

/-- The staging that the master opened on the slave, if it is still there, is of `S` and has its first `n` set
queries. -/
def Ready (master : MacAddress) (S : ManagementTopologySnapshotPayload) (n : Nat) (staging : Option Staging) :
    Prop :=
  ∀ st, staging = some st → st.owner = master →
    st.opening = S.beginQuery ∧ st.sets ⊆ S.setQueries ∧ S.setQueries.take n ⊆ st.sets

variable {master sender : MacAddress} {S : ManagementTopologySnapshotPayload} {n : Nat} {staging : Option Staging}
  {query : DescriptorQuery}

theorem Ready.none (master : MacAddress) (S : ManagementTopologySnapshotPayload) (n : Nat) :
    Ready master S n none := fun _ hst => nomatch hst

theorem Ready.filter (h : Ready master S n staging) (keep : Staging → Bool) : Ready master S n (staging.filter keep) :=
  fun st hst => h st (Option.filter_eq_some_iff.mp hst).1

/-- A query that is no stage query leaves the staging. -/
theorem next_of_other (h : isStageQuery query = false) (staging : Option Staging) (sender : MacAddress) :
    Staging.next staging sender query = staging := by
  rw [Staging.next]
  rw [isStageQuery] at h
  cases htype : query.type <;> rw [htype] at h <;> first | rfl | cases h

/-- Another peer may end the master's staging and changes nothing in it. -/
theorem Ready.other_sender (h : Ready master S n staging) (hne : sender ≠ master) :
    Ready master S n (Staging.next staging sender query) := by
  have hset : Ready master S n (staging.map fun st => if st.owner = sender then st.add query else st) := by
    intro st hst howner
    obtain ⟨st', hst', rfl⟩ := Option.map_eq_some_iff.mp hst
    by_cases hsender : st'.owner = sender
    · rw [if_pos hsender] at howner
      exact absurd (hsender.symm.trans howner) hne
    · rw [if_neg hsender] at howner ⊢
      exact h st' hst' howner
  rw [Staging.next]
  cases query.type with
  | TopologyStageClear => exact .none master S n
  | TopologyStageBegin =>
    intro st hst howner
    obtain rfl := Option.some.inj hst
    exact absurd howner hne
  | TopologyStageSlotSet => exact hset
  | TopologyStageGroupSet => exact hset
  | TopologyStageFinalize => exact h.filter _
  | _ => exact h

/-- The master's Begin opens a staging that has nothing yet. -/
theorem ready_begin (master : MacAddress) (S : ManagementTopologySnapshotPayload) (staging : Option Staging) :
    Ready master S 0 (Staging.next staging master S.beginQuery) := by
  intro st hst _
  obtain rfl := Option.some.inj hst
  exact ⟨rfl, List.nil_subset _, List.nil_subset _⟩

theorem next_set (h : query ∈ S.setQueries) (staging : Option Staging) (sender : MacAddress) :
    Staging.next staging sender query = staging.map fun st => if st.owner = sender then st.add query else st := by
  rw [Staging.next]
  rcases List.mem_append.mp h with hgroup | hslot
  · obtain ⟨group, -, rfl⟩ := List.mem_map.mp hgroup
    rfl
  · obtain ⟨slot, -, rfl⟩ := List.mem_map.mp hslot
    rfl

/-- A set query of the snapshot is added to what is there. -/
theorem Ready.set (h : Ready master S n staging) (hquery : query ∈ S.setQueries) :
    Ready master S n (Staging.next staging master query) := by
  rw [next_set hquery]
  intro st hst howner
  obtain ⟨st', hst', rfl⟩ := Option.map_eq_some_iff.mp hst
  by_cases hmine : st'.owner = master
  · rw [if_pos hmine]
    obtain ⟨hopening, hsub, htake⟩ := h st' hst' hmine
    refine ⟨hopening, List.append_subset.mpr ⟨hsub, List.cons_subset.mpr ⟨hquery, List.nil_subset _⟩⟩, ?_⟩
    exact List.Subset.trans htake (List.subset_append_left _ _)
  · rw [if_neg hmine] at howner
    exact absurd howner hmine

theorem Ready.set_next (h : Ready master S n staging) (hquery : S.setQueries[n]? = some query) :
    Ready master S (n + 1) (Staging.next staging master query) := by
  have hmem : query ∈ S.setQueries := List.mem_of_getElem? hquery
  have hkept := h.set hmem
  rw [next_set hmem] at hkept ⊢
  intro st hst howner
  obtain ⟨hopening, hsub, htake⟩ := hkept st hst howner
  refine ⟨hopening, hsub, ?_⟩
  rw [List.take_add_one, hquery]
  refine List.append_subset.mpr ⟨htake, ?_⟩
  obtain ⟨st', -, rfl⟩ := Option.map_eq_some_iff.mp hst
  by_cases hmine : st'.owner = master
  · rw [if_pos hmine]
    exact List.subset_append_right _ _
  · rw [if_neg hmine] at howner
    exact absurd howner hmine

theorem take_all_next (h : Ready master S S.setQueries.length staging) :
    Ready master S (S.setQueries.length + 1) staging := by
  intro st hst howner
  obtain ⟨hopening, hsub, htake⟩ := h st hst howner
  refine ⟨hopening, hsub, ?_⟩
  rw [List.take_of_length_le (Nat.le_succ _)]
  rw [List.take_length] at htake
  exact htake

/-- The slave takes the query at a place of the flow when it has those before. -/
theorem Ready.take {i : Nat} (h : 1 ≤ i → Ready master S (i - 1) staging) (hquery : S.paced[i + 1]? = some query) :
    Ready master S i (Staging.next staging master query) := by
  cases i with
  | zero =>
    obtain rfl : S.beginQuery = query := Option.some.inj hquery
    exact ready_begin master S staging
  | succ j =>
    have hbefore : Ready master S j staging := h (Nat.succ_pos j)
    rcases ManagementTopologySnapshotPayload.paced_cases hquery with hset | ⟨rfl, rfl⟩
    · exact hbefore.set_next hset
    · exact take_all_next (hbefore.filter _)

/-- A query of the flow after the Begin takes nothing away. -/
theorem Ready.keep {i : Nat} (h : Ready master S n staging) (hquery : S.paced[i + 2]? = some query) :
    Ready master S n (Staging.next staging master query) := by
  rcases ManagementTopologySnapshotPayload.paced_cases hquery with hset | ⟨-, rfl⟩
  · exact h.set (List.mem_of_getElem? hset)
  · exact h.filter _

/-- What happens to the slave without the master takes nothing from its staging and adds nothing. -/
theorem Ready.slave {t : TracedPlane} (h : Ready master S n t.staging) {i : TopologyPlane.Input}
    (hi : ∀ send sender query, i = .query send sender query → sender ≠ master) :
    Ready master S n (t.step i).staging := by
  cases i with
  | query send sender query =>
    rw [TracedPlane.step]
    by_cases hpeer : t.plane.manager.paired_peer = some sender
    · rw [if_pos hpeer]
      exact h.other_sender (hi send sender query rfl)
    · rw [if_neg hpeer]
      exact h
  | manager i =>
    cases i with
    | reboot platform => exact .none master S n
    | _ => exact h

theorem handleTopologyQuery_ok_paired {p : TopologyPlane} {send : MacAddress → Bytes → Except String Unit}
    {reply : StreamReply} (h : (p.handleTopologyQuery send sender query).1 = some reply) (hok : reply.ok = true) :
    p.manager.paired_peer = some sender ∧ isTopologyQuery query.type = true := by
  cases htopology : isTopologyQuery query.type with
  | false =>
    rw [TopologyPlane.handleTopologyQuery_other _ _ _ htopology] at h
    cases h
  | true =>
    refine ⟨?_, rfl⟩
    by_contra hpeer
    rw [TopologyPlane.handleTopologyQuery, htopology, if_neg (by simp), if_pos hpeer] at h
    obtain rfl := Option.some.inj h
    cases hok

theorem stageFinalize_ok {p : TopologyPlane} (h : p.stageFinalize.1.ok = true) :
    p.stageFinalize.1 = ⟨true, "topology applied"⟩ := by
  rw [TopologyPlane.stageFinalize] at h ⊢
  rcases hstage : p.manager.stageTopology p.session.topology_stage_snapshot with ⟨_ | _, m⟩
  · rw [hstage] at h
    cases h
  · rw [hstage] at h
    dsimp only at h ⊢
    rcases hcommit : m.commitStagedTopology with ⟨_ | _, t⟩
    · rw [hcommit] at h
      cases h
    · rfl

theorem localStageSnapshot_isSome (h : S.Fits) : ∃ whole, localStageSnapshot S = some whole := by
  have hslots : S.slots.all (fun slot => slot.slot_index.toNat < kTopologyMaxSlots) = true := by
    rw [List.all_eq_true]
    intro slot hslot
    exact decide_eq_true (UInt8.lt_iff_toNat_lt.mp (h.slot_index slot hslot))
  have hgroups : S.groups.all (fun group => group.group_slot.toNat < kTopologyMaxGroups) = true := by
    rw [List.all_eq_true]
    intro group hgroup
    exact decide_eq_true (UInt8.lt_iff_toNat_lt.mp (h.group_slot group hgroup))
  rw [localStageSnapshot, hslots, hgroups]
  exact ⟨_, rfl⟩

/-- A Finalize that succeeds where all set queries have arrived commits the whole. -/
theorem finalize_ready {t : TracedPlane} {send : MacAddress → Bytes → Except String Unit} {reply : StreamReply}
    (hholds : t.plane.Holds t.staging) (hS : S.Fits) (h : Ready master S S.setQueries.length t.staging)
    (hreply : (t.plane.handleTopologyQuery send master requestTopologyStageFinalize).1 = some reply)
    (hok : reply.ok = true) :
    ∃ c whole, (t.step (.query send master requestTopologyStageFinalize)).plane.manager.topology_committed = some c ∧
      localStageSnapshot S = some whole ∧ c.Carries whole := by
  obtain ⟨hpeer, htopology⟩ := handleTopologyQuery_ok_paired hreply hok
  obtain ⟨whole, hwhole⟩ := localStageSnapshot_isSome hS
  have hanswer : t.plane.handleTopologyQuery send master requestTopologyStageFinalize =
      (some (t.plane.answer send master requestTopologyStageFinalize).1,
        (t.plane.answer send master requestTopologyStageFinalize).2) :=
    TopologyPlane.handleTopologyQuery_paired hpeer htopology
  rw [hanswer] at hreply
  obtain rfl := Option.some.inj hreply
  have hstep : (t.step (.query send master requestTopologyStageFinalize)).plane =
      (t.plane.answer send master requestTopologyStageFinalize).2 := by
    rw [TracedPlane.step, if_pos hpeer, TopologyPlane.step, hanswer]
  rw [hstep]
  have htype : requestTopologyStageFinalize.type = .TopologyStageFinalize := rfl
  rw [TopologyPlane.answer, htype] at hok ⊢
  dsimp only at hok ⊢
  cases hin : t.plane.inSession master with
  | false =>
    rw [hin] at hok
    cases hok
  | true =>
    rw [hin, if_pos rfl] at hok
    rw [if_pos rfl]
    obtain ⟨st, hst, howner⟩ := hholds.mine hin
    obtain ⟨hopening, hsub, hall⟩ := h st hst howner
    rw [List.take_length] at hall
    obtain ⟨c, hc, hcarries⟩ := stageFinalize_applied (stageFinalize_ok hok)
    rw [(hholds.2 st hst).2] at hcarries
    exact ⟨c, whole, hc, hwhole, (st.carries_iff hS hwhole hopening hsub hcarries).mpr
      fun query hquery => .inr (hall hquery)⟩

/-- The set queries of one sender are added to its staging in their order. -/
theorem foldl_next_sets {queries : List DescriptorQuery} (h : queries ⊆ S.setQueries) (st : Staging) :
    queries.foldl (fun staging query => Staging.next staging st.owner query) (some st) =
      some { st with sets := st.sets ++ queries } := by
  induction queries generalizing st with
  | nil => simp
  | cons query queries ih =>
    obtain ⟨hquery, hrest⟩ := List.cons_subset.mp h
    have hadd : Staging.next (some st) st.owner query = some (st.add query) := by
      rw [next_set hquery, Option.map_some, if_pos rfl]
    rw [List.foldl_cons, hadd]
    have hnext := ih hrest (st.add query)
    rw [Staging.add, List.append_assoc] at hnext
    exact hnext

/-- The queries of a deployment up to the Finalize make a staging of the whole snapshot, whatever was staged
before. -/
theorem deploy_stages (hS : S.Fits) (master : MacAddress) (staging : Option Staging) :
    ∃ sent st whole, queueTopologyDeployToPeer S = sent ++ [requestTopologyStageFinalize, requestTopologyCommit] ∧
      sent.foldl (fun staging query => Staging.next staging master query) staging = some st ∧
      st.owner = master ∧ localStageSnapshot S = some whole ∧ st.snapshot.Carries whole := by
  obtain ⟨whole, hwhole⟩ := localStageSnapshot_isSome hS
  have hopened := foldl_next_sets (List.Subset.refl S.setQueries) ⟨master, S.beginQuery, []⟩
  refine ⟨_, ⟨master, S.beginQuery, S.setQueries⟩, whole, rfl, ?_, rfl, hwhole, ?_⟩
  · rw [List.foldl_append]
    exact hopened
  · have hcarries : ∀ c : TopologySnapshot, c.Carries (Staging.snapshot ⟨master, S.beginQuery, S.setQueries⟩) →
        c.Carries whole :=
      fun c hc => (Staging.carries_iff hS hwhole rfl (List.Subset.refl _) hc).mpr fun query hquery => .inr hquery
    exact hcarries _ ⟨rfl, rfl, rfl, rfl, rfl⟩

end Slave

end StageExchange

end EspNowLink
