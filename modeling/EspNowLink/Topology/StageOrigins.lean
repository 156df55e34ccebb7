import EspNowLink.Topology.StageRuns

open Framework

namespace EspNowLink

section Origins

namespace TopologyManager

/-- The snapshots that carry one of a list. -/
def From (handed : List TopologySnapshot) (found : Option TopologySnapshot) : Prop :=
  ∀ s, found = some s → ∃ w ∈ handed, s.Carries w

/-- Each snapshot of the manager, in memory and as a start would find it, carries one of the list. -/
structure Handed (m : TopologyManager) (handed : List TopologySnapshot) : Prop where
  enabled : m.storeEnabled = true
  sound : m.StoreSound
  staged : From handed m.topology_staged
  committed : From handed m.topology_committed
  staged_found : From handed (m.recalled kTopologyMetaSlotStaged .Staged)
  committed_found : From handed (m.recalled kTopologyMetaSlotCommitted .Committed)

variable {m t : TopologyManager} {handed more : List TopologySnapshot}

theorem From.none (handed : List TopologySnapshot) : From handed none := fun _ hs => nomatch hs

theorem From.mono {found : Option TopologySnapshot} (h : From handed found) (hsub : handed ⊆ more) :
    From more found := by
  intro s hs
  obtain ⟨w, hw, hcarries⟩ := h s hs
  exact ⟨w, hsub hw, hcarries⟩

theorem From.of_carries {s w : TopologySnapshot} (hw : w ∈ handed) (h : s.Carries w) : From handed (some s) := by
  intro s' hs'
  obtain rfl := Option.some.inj hs'
  exact ⟨w, hw, h⟩

theorem Handed.mono (h : m.Handed handed) (hsub : handed ⊆ more) : m.Handed more :=
  ⟨h.enabled, h.sound, h.staged.mono hsub, h.committed.mono hsub, h.staged_found.mono hsub,
    h.committed_found.mono hsub⟩

theorem Handed.of_keeps (h : m.Handed handed) (hkeeps : KeepsSnapshots m t) : t.Handed handed where
  enabled := hkeeps.enabled.trans h.enabled
  sound := hkeeps.sound h.sound
  staged := by
    rw [hkeeps.staged]
    exact h.staged
  committed := by
    rw [hkeeps.committed]
    exact h.committed
  staged_found := by
    rw [recalled_congr hkeeps.profile hkeeps.staged_blob]
    exact h.staged_found
  committed_found := by
    rw [recalled_congr hkeeps.profile hkeeps.committed_blob]
    exact h.committed_found

/-- What is staged was handed over. -/
theorem Handed.stage (h : m.Handed handed) (snapshot : TopologySnapshot) :
    (m.stageTopology snapshot).2.Handed (snapshot :: handed) := by
  have hmore := h.mono (List.subset_cons_self snapshot handed)
  rcases m.stageTopology_cases snapshot with ⟨u, s, hkeeps, -, hvalid, hframe, hstored⟩ | ⟨-, hkeeps⟩
  · have hu := hmore.of_keeps hkeeps
    have hprofile : (m.stageTopology snapshot).2.local_profile_id = u.local_profile_id := hframe.local_profile_id
    have hstaged : From (snapshot :: handed) (some s) := .of_carries List.mem_cons_self (staged_carries hvalid)
    have hs : (m.stageTopology snapshot).2.IsValid .Staged s := by
      rw [IsValid, hprofile, hkeeps.profile]
      exact isValid_of_validated hvalid
    refine ⟨hframe.enabled.trans hu.enabled, hframe.sound hu.sound, ?_, ?_, ?_, ?_⟩
    · rw [hframe.staged]
      exact hstaged
    · rw [hframe.committed]
      exact hu.committed
    · rw [recalled_stored hs (hstored hu.sound hu.enabled)]
      exact hstaged
    · rw [recalled_congr hprofile (hframe.blobs _ (by decide))]
      exact hu.committed_found
  · exact hmore.of_keeps hkeeps

/-- A manager that forgets its staged snapshot finds nothing else. -/
theorem Handed.forget (hon : m.storeEnabled = true) (hsound : m.StoreSound)
    (hcommitted : From handed m.topology_committed)
    (hfound : From handed (m.recalled kTopologyMetaSlotStaged .Staged))
    (hcommitted_found : From handed (m.recalled kTopologyMetaSlotCommitted .Committed)) :
    m.forgetStaged.Handed handed := by
  have hframe := m.forgetStaged_frame
  have hprofile : m.forgetStaged.local_profile_id = m.local_profile_id := hframe.local_profile_id
  refine ⟨hframe.enabled.trans hon, hframe.sound hsound, ?_, ?_, ?_, ?_⟩
  · rw [hframe.staged]
    exact .none handed
  · rw [hframe.committed]
    exact hcommitted
  · have hblob : m.forgetStaged.metaBlob kTopologyMetaSlotStaged =
        ((m.withStaged none).eraseLocalMetaBlob kTopologyMetaSlotStaged).2.metaBlob kTopologyMetaSlotStaged := by
      rw [forgetStaged, eraseTopologySnapshotMeta_on (m := m.withStaged none) hon]
    rcases (m.withStaged none).eraseLocalMetaBlob_blob kTopologyMetaSlotStaged with hsame | hgone
    · rw [recalled_congr hprofile (hblob.trans hsame)]
      exact hfound
    · rw [recalled_erased (hblob.trans hgone)]
      exact .none handed
  · rw [recalled_congr hprofile (hframe.blobs _ (by decide))]
    exact hcommitted_found

theorem Handed.commit (h : m.Handed handed) : m.commitStagedTopology.2.Handed handed := by
  rcases m.commitStagedTopology_cases with ⟨t, s, -, hcommits, ht, hcommit⟩ | ⟨-, hkeeps, -⟩
  · have hs : t.IsValid .Committed s := by
      rw [IsValid, ht.profile]
      exact hcommits.isValid
    obtain ⟨staged, hstaged, hvalid⟩ := hcommits
    obtain ⟨w, hw, hcarries⟩ := h.staged staged hstaged
    have hcommitted : From handed (some s) := .of_carries hw ((committed_carries hvalid).trans hcarries)
    rw [hcommit]
    apply Handed.forget (ht.enabled.trans h.enabled) (ht.sound h.sound)
    · rw [ht.committed]
      exact hcommitted
    · rw [recalled_congr ht.profile ht.staged_blob]
      exact h.staged_found
    · rw [recalled_stored hs (ht.stored h.sound h.enabled)]
      exact hcommitted
  · exact h.of_keeps hkeeps

theorem Handed.reboot (hon : m.storeEnabled = true)
    (hstaged : From handed (m.recalled kTopologyMetaSlotStaged .Staged))
    (hcommitted : From handed (m.recalled kTopologyMetaSlotCommitted .Committed)) (platform : Platform) :
    (m.step (.reboot platform)).Handed handed := by
  have h := reboot_rebooted hon platform
  refine ⟨h.enabled.trans hon, h.sound, ?_, ?_, ?_, ?_⟩
  · by_cases hread : (m.rebootCommitted platform).ReadsSlot kTopologyMetaSlotStaged
    · rw [h.staged hread]
      exact hstaged
    · rw [h.staged_lost hread]
      exact .none handed
  · by_cases hread : (m.reboot platform).ReadsSlot kTopologyMetaSlotCommitted
    · rw [h.committed hread]
      exact hcommitted
    · rw [h.committed_lost hread]
      exact .none handed
  · rw [h.staged_kept]
    exact hstaged
  · rw [h.committed_kept]
    exact hcommitted

theorem Handed.step (h : m.Handed handed) (i : TopologyInput) :
    (m.step i).Handed (i.handed ++ handed) := by
  cases i with
  | stage snapshot => exact h.stage snapshot
  | commit => exact h.commit
  | clear => exact .forget h.enabled h.sound h.committed h.staged_found h.committed_found
  | link master => exact h.of_keeps (m.restoreTopologyPeers_keeps master)
  | ready slot => exact h.of_keeps (m.ensureTopologyPeerReadyForSlot_keeps slot)
  | unpair => exact h.of_keeps m.unpair_keeps
  | reboot platform => exact .reboot h.enabled h.staged_found h.committed_found platform

end TopologyManager

open TopologyPlane (Input)

variable {p : TopologyPlane} {send : MacAddress → Bytes → Except String Unit} {sender : MacAddress}
  {query : DescriptorQuery} {handed : List TopologySnapshot} {staging : Option Staging}

theorem stageFinalize_handed (hhanded : p.manager.Handed handed) :
    p.stageFinalize.2.manager.Handed (p.session.topology_stage_snapshot :: handed) := by
  have hstage := hhanded.stage p.session.topology_stage_snapshot
  rw [TopologyPlane.stageFinalize]
  rcases hresult : p.manager.stageTopology p.session.topology_stage_snapshot with ⟨_ | _, m⟩
  · rw [hresult] at hstage
    exact hstage
  · rw [hresult] at hstage
    have hcommit := hstage.commit
    dsimp only
    rcases hdone : m.commitStagedTopology with ⟨_ | _, t⟩ <;>
    · rw [hdone] at hcommit
      exact hcommit

/-- What a query of the paired peer leaves staged and committed was handed over before or by it. -/
theorem answer_handed (hholds : p.Holds staging) (hhanded : p.manager.Handed handed) :
    (p.answer send sender query).2.manager.Handed (handedBy staging sender query ++ handed) := by
  have hmore := hhanded.mono (List.subset_append_right (handedBy staging sender query) handed)
  rw [TopologyPlane.answer]
  cases htype : query.type with
  | TopologyStageClear =>
    exact .forget hmore.enabled hmore.sound hmore.committed hmore.staged_found hmore.committed_found
  | TopologyStageSlotSet =>
    dsimp only
    cases p.inSession sender with
    | false => exact hmore
    | true =>
      rw [if_pos rfl, TopologyPlane.stageSlot]
      dsimp only
      split <;> exact hmore
  | TopologyStageGroupSet =>
    dsimp only
    cases p.inSession sender with
    | false => exact hmore
    | true =>
      rw [if_pos rfl, TopologyPlane.stageGroup]
      dsimp only
      split <;> exact hmore
  | TopologyStageFinalize =>
    dsimp only
    cases hin : p.inSession sender with
    | false => exact hmore
    | true =>
      obtain ⟨st, rfl, howner⟩ := hholds.mine hin
      have hby : handedBy (some st) sender query = [p.session.topology_stage_snapshot] := by
        rw [handedBy, if_pos htype, Option.filter_some, howner, if_pos (by simp), (hholds.2 st rfl).2]
        rfl
      rw [if_pos rfl, hby]
      exact stageFinalize_handed hhanded
  | TopologyCommit =>
    have hcommit := hmore.commit
    rw [TopologyPlane.topologyCommit]
    rcases hdone : p.manager.commitStagedTopology with ⟨_ | _, m⟩
    · rw [hdone] at hcommit
      dsimp only
      split <;> exact hcommit
    · rw [hdone] at hcommit
      exact hcommit
  | TopologyTriggerSend =>
    obtain ⟨seq, m, hplane, hkeeps⟩ := TopologyPlane.answer_trigger p send sender htype
    rw [TopologyPlane.answer, htype] at hplane
    rw [hplane]
    exact hmore.of_keeps hkeeps
  | _ => exact hmore

namespace TracedPlane

theorem step_handed (t : TracedPlane) (hholds : t.plane.Holds t.staging) (hhanded : t.plane.manager.Handed t.handed)
    (i : Input) : (t.step i).plane.manager.Handed (t.step i).handed := by
  cases i with
  | query send sender query =>
    rw [step]
    by_cases hpeer : t.plane.manager.paired_peer = some sender
    · rw [if_pos hpeer]
      dsimp only
      cases htopology : isTopologyQuery query.type with
      | false =>
        rw [TopologyPlane.step, TopologyPlane.handleTopologyQuery_other _ _ _ htopology]
        exact hhanded.mono (List.subset_append_right _ _)
      | true =>
        rw [TopologyPlane.step, TopologyPlane.handleTopologyQuery_paired hpeer htopology]
        exact answer_handed hholds hhanded
    · rw [if_neg hpeer]
      dsimp only
      rw [query_unauthorized hpeer]
      exact hhanded
  | manager i =>
    cases i with
    | reboot platform => exact hhanded.step (.reboot platform)
    | stage snapshot => exact hhanded.step (.stage snapshot)
    | commit => exact hhanded.step .commit
    | clear => exact hhanded.step .clear
    | link master => exact hhanded.step (.link master)
    | ready slot => exact hhanded.step (.ready slot)
    | unpair => exact hhanded.step .unpair

theorem run_handed (inputs : List Input) (t : TracedPlane) (hholds : t.plane.Holds t.staging)
    (hhanded : t.plane.manager.Handed t.handed) :
    (inputs.foldl step t).plane.manager.Handed (inputs.foldl step t).handed := by
  induction inputs generalizing t with
  | nil => exact hhanded
  | cons i inputs ih => exact ih (t.step i) (t.step_holds hholds i) (t.step_handed hholds hhanded i)

/-- In every run of a slave from a start on, with any peers, losses, repetitions and orders of their queries,
local commands, restarts and failing calls of the storage, a snapshot that is staged or committed carries one that
was found at the start or was handed over whole since then: by a local command, or by a Finalize with what had
reached it since the Begin of the same peer. -/
theorem snapshots_handed_over (m : TopologyManager) (hon : m.storeEnabled = true) (platform : Platform)
    (inputs : List Input) {s : TopologySnapshot} :
    let found := (m.recalled kTopologyMetaSlotStaged .Staged).toList ++
      (m.recalled kTopologyMetaSlotCommitted .Committed).toList
    let t := inputs.foldl step ⟨⟨m.step (.reboot platform), 1, {}⟩, none, found⟩
    t.plane.manager.topology_staged = some s ∨ t.plane.manager.topology_committed = some s →
      ∃ w ∈ t.handed, s.Carries w := by
  intro found t hs
  have hself : ∀ s : TopologySnapshot, s.Carries s := fun s => ⟨rfl, rfl, rfl, rfl, rfl⟩
  have hstaged : TopologyManager.From found (m.recalled kTopologyMetaSlotStaged .Staged) := by
    intro s hs
    exact ⟨s, List.mem_append_left _ (Option.mem_toList.mpr hs), hself s⟩
  have hcommitted : TopologyManager.From found (m.recalled kTopologyMetaSlotCommitted .Committed) := by
    intro s hs
    exact ⟨s, List.mem_append_right _ (Option.mem_toList.mpr hs), hself s⟩
  have hrun : t.plane.manager.Handed t.handed := run_handed inputs _ ⟨rfl, fun _ hst => nomatch hst⟩
    (.reboot hon hstaged hcommitted platform)
  rcases hs with hs | hs
  · exact hrun.staged s hs
  · exact hrun.committed s hs

/-- A slave that restores its link and takes a deployment of its master. -/
def deployed : List Input :=
  .manager (.link semu.master) ::
    (queueTopologyDeployToPeer oneSlotPayload).map (.query (fun _ _ => .ok ()) semu.master)

/-- What a local command staged is staged as it was handed over, and what a deployment committed carries the
staging that its Finalize handed over. -/
theorem local_stage_handed_over :
    let start : TracedPlane :=
      ⟨⟨TopologyManager.carryingSlave.step (.reboot TopologyDevice.radio), 1, {}⟩, none, []⟩
    (∃ s, (start.step (.manager (.stage (bothSides 3 5 1 1)))).plane.manager.topology_staged = some s ∧
        s.Carries (bothSides 3 5 1 1)) ∧
      ∃ s, (deployed.foldl step start).plane.manager.topology_committed = some s ∧
        s.Carries (Staging.snapshot ⟨semu.master, oneSlotPayload.beginQuery, oneSlotPayload.setQueries⟩) := by
  intro start
  have hnone : TopologyManager.carryingSlave.recalled kTopologyMetaSlotStaged .Staged = none ∧
      TopologyManager.carryingSlave.recalled kTopologyMetaSlotCommitted .Committed = none := by
    decide +kernel
  constructor
  · have hsome : (start.step (.manager (.stage (bothSides 3 5 1 1)))).plane.manager.topology_staged.isSome =
        true := by decide +kernel
    obtain ⟨s, hs⟩ := Option.isSome_iff_exists.mp hsome
    obtain ⟨w, hw, hcarries⟩ := snapshots_handed_over TopologyManager.carryingSlave (by decide)
      TopologyDevice.radio [.manager (.stage (bothSides 3 5 1 1))] (s := s)
      (by rw [hnone.1, hnone.2]; exact .inl hs)
    rw [hnone.1, hnone.2] at hw
    obtain rfl : w = bothSides 3 5 1 1 := List.mem_singleton.mp hw
    exact ⟨s, hs, hcarries⟩
  · have hsome : (deployed.foldl step start).plane.manager.topology_committed.isSome = true := by decide +kernel
    have hhanded : (deployed.foldl step start).handed =
        [Staging.snapshot ⟨semu.master, oneSlotPayload.beginQuery, oneSlotPayload.setQueries⟩] := by
      decide +kernel
    have horigin := @snapshots_handed_over TopologyManager.carryingSlave (by decide) TopologyDevice.radio deployed
    rw [hnone.1, hnone.2] at horigin
    simp only [Option.toList_none, List.append_nil] at horigin
    have hstart : (⟨⟨TopologyManager.carryingSlave.step (.reboot TopologyDevice.radio), 1, {}⟩, none, []⟩ :
        TracedPlane) = start := rfl
    rw [hstart] at horigin
    clear_value start
    obtain ⟨s, hs⟩ := Option.isSome_iff_exists.mp hsome
    obtain ⟨w, hw, hcarries⟩ := horigin (.inr hs)
    rw [hhanded] at hw
    obtain rfl := List.mem_singleton.mp hw
    exact ⟨s, hs, hcarries⟩

end TracedPlane

end Origins

end EspNowLink
