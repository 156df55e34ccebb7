import EspNowLink.Management.StagePacing

namespace EspNowLink

open Framework

namespace StageExchange

section Flow

/-- The stage queries among the requests that may still arrive. -/
def stageRequests (requests : List StageRequest) : List StageRequest := requests.filter fun r => isStageQuery r.2

/-- The slave has acknowledged the request with the correlation. -/
def Acked (answered : List (UInt32 × StreamReply)) (corr : UInt32) : Prop :=
  ∃ reply, (corr, reply) ∈ answered ∧ reply.ok = true

/-- The slave has committed the whole of `S` on the Finalize with the correlation. -/
def Applied (applied : List (UInt32 × TopologySnapshot)) (S : ManagementTopologySnapshotPayload) (corr : UInt32) :
    Prop :=
  ∃ c whole, (corr, c) ∈ applied ∧ localStageSnapshot S = some whole ∧ c.Carries whole

/-- What holds of a flow with the request `query` on its way: before it nothing is still to arrive but repetitions
of the request before; the slave has the queries that were acknowledged; and once this one is, nothing else is to
arrive and the slave has it too. -/
structure Flow (master : MacAddress) (x : StageExchange) (p : PendingTopologyStage) (query : DescriptorQuery) :
    Prop where
  paced : p.Paced
  fits : p.topology_stage_snapshot.Fits
  current : p.topology_stage_snapshot.paced[p.position]? = some query
  old : x.client.next_internal_corr_id > p.corr_last
  late : 0x80000000 ≤ p.corr_last
  arriving : ∃ before, stageRequests x.requests <:+ before ++ [(p.corr_last, query)] ∧
    (∀ r ∈ before, r.1 ≠ p.corr_last) ∧
    (2 ≤ p.position → ∀ r ∈ before, p.topology_stage_snapshot.paced[p.position - 1]? = some r.2)
  ready : 2 ≤ p.position → Ready master p.topology_stage_snapshot (p.position - 2) x.slave.staging
  alone : Acked x.answered p.corr_last → stageRequests x.requests <:+ [(p.corr_last, query)]
  taken : Acked x.answered p.corr_last → 1 ≤ p.position →
    Ready master p.topology_stage_snapshot (p.position - 1) x.slave.staging
  finished : Acked x.answered p.corr_last → p.topology_stage_step = .WaitFinalizeAck →
    Applied x.applied p.topology_stage_snapshot p.corr_last

/-- What holds of a master and its slave at every moment; `n` bounds the correlations that were taken. -/
structure Sound (master : MacAddress) (n : Nat) (x : StageExchange) : Prop where
  holds : x.slave.plane.Holds x.slave.staging
  low : 0x80000000 ≤ x.client.next_internal_corr_id
  count : x.client.next_internal_corr_id.toNat ≤ 0x80000000 + n
  requests : ∀ r ∈ x.requests, r.1 < x.client.next_internal_corr_id
  others : ∀ r ∈ x.requests, isStageQuery r.2 = false → r.1 < 0x80000000
  answered : ∀ a ∈ x.answered, a.1 < x.client.next_internal_corr_id
  flow : ∀ p, x.client.stage = some p → ∃ query, Flow master x p query
  reports : ∀ r ∈ x.reports, r.status = .Ok → Applied x.applied r.snapshot r.corr_id

variable {master : MacAddress} {send : MacAddress → Bytes → Except String Unit} {x : StageExchange}
  {p : PendingTopologyStage} {query : DescriptorQuery} {n : Nat}

theorem stageRequests_drop (requests : List StageRequest) (i : Nat) :
    stageRequests (requests.drop i) <:+ stageRequests requests := (List.drop_suffix i requests).filter _

theorem stageRequests_append_other (requests : List StageRequest) {r : StageRequest}
    (h : isStageQuery r.2 = false) : stageRequests (requests ++ [r]) = stageRequests requests := by
  simp [stageRequests, h]

theorem stageRequests_append_stage (requests : List StageRequest) {r : StageRequest}
    (h : isStageQuery r.2 = true) : stageRequests (requests ++ [r]) = stageRequests requests ++ [r] := by
  simp [stageRequests, h]

/-- A request that arrives stays at the head of those that may arrive. -/
theorem stageRequests_arrived {requests : List StageRequest} {i : Nat} {r : StageRequest}
    (h : requests[i]? = some r) (hstage : isStageQuery r.2 = true) :
    ∃ rest, stageRequests (requests.drop i) = r :: rest := by
  obtain ⟨hlt, hget⟩ := List.getElem?_eq_some_iff.mp h
  rw [List.drop_eq_getElem_cons hlt, hget]
  exact ⟨stageRequests (requests.drop (i + 1)), List.filter_cons_of_pos hstage⟩

/-- Where the current request is the last one and alone under its correlation, nothing follows it. -/
theorem suffix_of_head {before : List StageRequest} {current : StageRequest} {r : StageRequest}
    {rest : List StageRequest} (hsuffix : r :: rest <:+ before ++ [current]) (hbefore : ∀ r ∈ before, r.1 ≠ current.1)
    (hr : r.1 = current.1) : r = current ∧ rest = [] := by
  obtain ⟨lead, hlead⟩ := hsuffix
  rcases List.append_eq_append_iff.mp hlead with ⟨tail, hbefore', htail⟩ | ⟨tail, hlead', htail⟩
  · cases tail with
    | nil =>
      rw [List.nil_append] at htail
      obtain ⟨rfl, rfl⟩ := List.cons.inj htail
      exact ⟨rfl, rfl⟩
    | cons head tail =>
      obtain ⟨rfl, -⟩ := List.cons.inj htail
      have hmem : r ∈ before := by
        rw [hbefore']
        exact List.mem_append_right _ List.mem_cons_self
      exact absurd hr (hbefore r hmem)
  · cases tail with
    | nil =>
      obtain ⟨rfl, rfl⟩ := List.cons.inj htail
      exact ⟨rfl, rfl⟩
    | cons head tail =>
      have hlength := congrArg List.length htail
      simp at hlength

theorem Applied.mono {applied more : List (UInt32 × TopologySnapshot)} {S : ManagementTopologySnapshotPayload}
    {corr : UInt32} (h : Applied applied S corr) (hsub : applied ⊆ more) : Applied more S corr := by
  obtain ⟨c, whole, hmem, hwhole, hcarries⟩ := h
  exact ⟨c, whole, hsub hmem, hwhole, hcarries⟩

/-- What keeps the flow: no stage request comes to those that may arrive, the staging keeps what it has, and the
request on its way is not acknowledged. -/
theorem Flow.frame {t : StageExchange} (h : Flow master x p query)
    (hnext : x.client.next_internal_corr_id ≤ t.client.next_internal_corr_id)
    (hrequests : stageRequests t.requests <:+ stageRequests x.requests)
    (hready : ∀ n, Ready master p.topology_stage_snapshot n x.slave.staging →
      Ready master p.topology_stage_snapshot n t.slave.staging)
    (hacked : Acked t.answered p.corr_last → Acked x.answered p.corr_last) (happlied : x.applied ⊆ t.applied) :
    Flow master t p query := by
  obtain ⟨before, hsuffix, hbefore, hlast⟩ := h.arriving
  exact
    { paced := h.paced
      fits := h.fits
      current := h.current
      old := UInt32.lt_of_lt_of_le h.old hnext
      late := h.late
      arriving := ⟨before, hrequests.trans hsuffix, hbefore, hlast⟩
      ready := fun hposition => hready _ (h.ready hposition)
      alone := fun hdone => hrequests.trans (h.alone (hacked hdone))
      taken := fun hdone hposition => hready _ (h.taken (hacked hdone) hposition)
      finished := fun hdone hstep => (h.finished (hacked hdone) hstep).mono happlied }

theorem handle_staging (corr : UInt32) :
    (x.handle master send corr query).slave.staging =
      if x.slave.plane.manager.paired_peer = some master then Staging.next x.slave.staging master query
      else x.slave.staging := by
  rw [handle]
  dsimp only
  rw [TracedPlane.step]
  split <;> rfl

/-- An acknowledgement that is new is of the request that was handled. -/
theorem handle_acked {corr k : UInt32} (h : Acked (x.handle master send corr query).answered k) :
    Acked x.answered k ∨ k = corr ∧ ∃ reply,
      (x.slave.plane.handleTopologyQuery send master query).1 = some reply ∧ reply.ok = true := by
  obtain ⟨reply, hmem, hok⟩ := h
  rcases List.mem_append.mp hmem with hnew | hold
  · right
    obtain ⟨reply', hreply, heq⟩ := Option.map_eq_some_iff.mp (Option.mem_toList.mp hnew)
    obtain ⟨rfl, rfl⟩ := Prod.mk.inj heq
    exact ⟨rfl, reply', hreply, hok⟩
  · exact .inl ⟨reply, hold, hok⟩

theorem handle_applied (corr : UInt32) : x.applied ⊆ (x.handle master send corr query).applied :=
  List.subset_append_right _ _

/-- A request that is not the one on its way leaves the flow. -/
theorem Flow.handle_other {i : Nat} {corr : UInt32} {q : DescriptorQuery} (h : Flow master x p query)
    (hget : x.requests[i]? = some (corr, q)) (hne : corr ≠ p.corr_last) :
    Flow master (({ x with requests := x.requests.drop i } : StageExchange).handle master send corr q) p query := by
  let y : StageExchange := { x with requests := x.requests.drop i }
  have hacked : Acked (y.handle master send corr q).answered p.corr_last → Acked x.answered p.corr_last := by
    intro hdone
    rcases handle_acked hdone with hold | ⟨hcorr, -⟩
    · exact hold
    · exact absurd hcorr.symm hne
  have hdrop : stageRequests y.requests <:+ stageRequests x.requests := stageRequests_drop x.requests i
  cases hstage : isStageQuery q with
  | false =>
    refine h.frame (UInt32.le_refl _) hdrop (fun n hready => ?_) hacked (handle_applied corr)
    rw [handle_staging, next_of_other hstage, ite_self]
    exact hready
  | true =>
    obtain ⟨rest, hrest⟩ := stageRequests_arrived hget hstage
    -- an old stage request may still arrive, so the one on its way is not acknowledged yet
    have hpending : ¬Acked x.answered p.corr_last := by
      intro hdone
      have hsuffix := hdrop.trans (h.alone hdone)
      have hmem : (corr, q) ∈ [(p.corr_last, query)] := by
        refine hsuffix.subset ?_
        rw [hrest]
        exact List.mem_cons_self
      exact hne (congrArg Prod.fst (List.mem_singleton.mp hmem))
    obtain ⟨before, hsuffix, hbefore, hlast⟩ := h.arriving
    have hmem : (corr, q) ∈ before := by
      have hin : (corr, q) ∈ before ++ [(p.corr_last, query)] := by
        refine (hdrop.trans hsuffix).subset ?_
        rw [hrest]
        exact List.mem_cons_self
      rcases List.mem_append.mp hin with hin | hin
      · exact hin
      · exact absurd (congrArg Prod.fst (List.mem_singleton.mp hin)) hne
    have hready : 2 ≤ p.position →
        Ready master p.topology_stage_snapshot (p.position - 2) (y.handle master send corr q).slave.staging := by
      intro hposition
      have hkept := h.ready hposition
      have hquery := hlast hposition _ hmem
      rw [handle_staging]
      split
      · obtain ⟨j, hj⟩ : ∃ j, p.position = j + 2 := ⟨p.position - 2, by omega⟩
        rw [hj] at hquery hkept ⊢
        rw [Nat.add_sub_cancel] at hkept ⊢
        cases j with
        | zero =>
          obtain rfl : p.topology_stage_snapshot.beginQuery = q := Option.some.inj hquery
          exact ready_begin master _ _
        | succ j => exact hkept.keep hquery
      · exact hkept
    exact
      { paced := h.paced
        fits := h.fits
        current := h.current
        old := h.old
        late := h.late
        arriving := ⟨before, hdrop.trans hsuffix, hbefore, hlast⟩
        ready := hready
        alone := fun hdone => absurd (hacked hdone) hpending
        taken := fun hdone => absurd (hacked hdone) hpending
        finished := fun hdone => absurd (hacked hdone) hpending }

/-- The request on its way arrives: from then on the slave has it, if it answers. -/
theorem Flow.handle_current {i : Nat} {q : DescriptorQuery} (h : Flow master x p query)
    (hholds : x.slave.plane.Holds x.slave.staging)
    (hothers : ∀ r ∈ x.requests, isStageQuery r.2 = false → r.1 < 0x80000000)
    (hget : x.requests[i]? = some (p.corr_last, q)) :
    Flow master (({ x with requests := x.requests.drop i } : StageExchange).handle master send p.corr_last q)
      p query := by
  let y : StageExchange := { x with requests := x.requests.drop i }
  have hstage : isStageQuery q = true := by
    by_contra hother
    have hlow := hothers _ (List.mem_of_getElem? hget) (by simpa using hother)
    exact absurd h.late (UInt32.not_le.mpr hlow)
  obtain ⟨before, hsuffix, hbefore, hlast⟩ := h.arriving
  -- nothing comes after the request on its way, and this is it
  obtain ⟨rest, hrest⟩ := stageRequests_arrived hget hstage
  have hdrop : stageRequests y.requests <:+ before ++ [(p.corr_last, query)] :=
    (stageRequests_drop x.requests i).trans hsuffix
  have hhead : (p.corr_last, q) :: rest <:+ before ++ [(p.corr_last, query)] := hrest ▸ hdrop
  have hsame : (p.corr_last, q).1 = (p.corr_last, query).1 := rfl
  obtain ⟨hq, rfl⟩ := suffix_of_head hhead hbefore hsame
  obtain rfl : q = query := congrArg Prod.snd hq
  have halone : stageRequests y.requests = [(p.corr_last, q)] := hrest
  -- an answer that it is taken comes of a slave that knows the master
  have hacked : Acked (y.handle master send p.corr_last q).answered p.corr_last →
      Acked x.answered p.corr_last ∨ ∃ reply,
        (x.slave.plane.handleTopologyQuery send master q).1 = some reply ∧ reply.ok = true := by
    intro hdone
    rcases handle_acked hdone with hold | ⟨-, hreply⟩
    · exact .inl hold
    · exact .inr hreply
  have hready : 2 ≤ p.position →
      Ready master p.topology_stage_snapshot (p.position - 2)
        (y.handle master send p.corr_last q).slave.staging := by
    intro hposition
    have hkept := h.ready hposition
    obtain ⟨j, hj⟩ : ∃ j, p.position = j + 2 := ⟨p.position - 2, by omega⟩
    have hcurrent := h.current
    rw [hj] at hcurrent hkept ⊢
    rw [handle_staging]
    split
    · exact hkept.keep hcurrent
    · exact hkept
  have htaken : Acked (y.handle master send p.corr_last q).answered p.corr_last → 1 ≤ p.position →
      Ready master p.topology_stage_snapshot (p.position - 1)
        (y.handle master send p.corr_last q).slave.staging := by
    intro hdone hposition
    obtain ⟨j, hj⟩ : ∃ j, p.position = j + 1 := ⟨p.position - 1, by omega⟩
    have hcurrent := h.current
    rw [handle_staging]
    split
    · rw [hj] at hcurrent ⊢
      rw [Nat.add_sub_cancel]
      refine Ready.take (fun hpos => ?_) hcurrent
      have hkept := h.ready (by omega)
      rw [hj] at hkept
      exact hkept
    · next hpeer =>
      rcases hacked hdone with hold | ⟨reply, hreply, hok⟩
      · exact h.taken hold hposition
      · exact absurd (handleTopologyQuery_ok_paired hreply hok).1 hpeer
  have hfinished : Acked (y.handle master send p.corr_last q).answered p.corr_last →
      p.topology_stage_step = .WaitFinalizeAck →
      Applied (y.handle master send p.corr_last q).applied p.topology_stage_snapshot p.corr_last := by
    intro hdone hstep
    rcases hacked hdone with hold | ⟨reply, hreply, hok⟩
    · exact (h.finished hold hstep).mono (handle_applied p.corr_last)
    · obtain ⟨hposition, -⟩ := h.paced.finalize hstep
      have hcurrent := h.current
      rw [hposition, ManagementTopologySnapshotPayload.paced_last] at hcurrent
      obtain rfl := Option.some.inj hcurrent
      have hall := h.ready (by omega)
      rw [hposition, Nat.add_sub_cancel] at hall
      obtain ⟨c, whole, hcommitted, hwhole, hcarries⟩ := finalize_ready hholds h.fits hall hreply hok
      refine ⟨c, whole, ?_, hwhole, hcarries⟩
      refine List.mem_append_left _ (Option.mem_toList.mpr ?_)
      rw [if_pos ⟨rfl, by rw [hreply]; exact hok⟩]
      exact Option.map_eq_some_iff.mpr ⟨c, hcommitted, rfl⟩
  exact
    { paced := h.paced
      fits := h.fits
      current := h.current
      old := h.old
      late := h.late
      arriving := ⟨before, hdrop, hbefore, hlast⟩
      ready := hready
      alone := fun _ => halone ▸ List.suffix_refl _
      taken := htaken
      finished := hfinished }

/-- The correlation that is taken next is below the one after it: there are enough of them. -/
theorem fresh_correlation (h : Sound master n x) (hn : n + 1 < 2 ^ 31) :
    x.client.next_internal_corr_id < x.client.next_internal_corr_id + 1 ∧
      (x.client.next_internal_corr_id + 1).toNat ≤ 0x80000000 + (n + 1) := by
  have hcount := h.count
  have hsucc : (x.client.next_internal_corr_id + 1).toNat = x.client.next_internal_corr_id.toNat + 1 := by
    rw [UInt32.toNat_add]
    exact Nat.mod_eq_of_lt (by simp; omega)
  rw [UInt32.lt_iff_toNat_lt, hsucc]
  omega

theorem allocate_eq (h : Sound master n x) (hn : n + 1 < 2 ^ 31) :
    x.client.allocateInternalCorrelation = (x.client.next_internal_corr_id,
      { x.client with next_internal_corr_id := x.client.next_internal_corr_id + 1 }) := by
  have hlow := h.low
  have hnext := UInt32.le_of_lt (fresh_correlation h hn).1
  rw [StageClient.allocateInternalCorrelation, if_neg (UInt32.not_lt.mpr hlow),
    if_neg (UInt32.not_lt.mpr (UInt32.le_trans hlow hnext))]

/-- What closes a flow, or starts none. -/
theorem Sound.closed {m : Nat} {o : StageClient.Outcome} (h : Sound master n x)
    (hnext : x.client.next_internal_corr_id ≤ o.client.next_internal_corr_id)
    (hcount : o.client.next_internal_corr_id.toNat ≤ 0x80000000 + m) (hstage : o.client.stage = none)
    (hrequest : ∀ r, o.request = some r → isStageQuery r.2 = true ∧ r.1 < o.client.next_internal_corr_id)
    (hstatus : ∀ p, x.client.stage = some p → o.status = some .Ok →
      Applied x.applied p.topology_stage_snapshot p.corr_last) : Sound master m (x.after o) := by
  have hrequests : ∀ r ∈ x.requests ++ o.request.toList,
      r ∈ x.requests ∨ isStageQuery r.2 = true ∧ r.1 < o.client.next_internal_corr_id := by
    intro r hr
    rcases List.mem_append.mp hr with hold | hnew
    · exact .inl hold
    · exact .inr (hrequest r (Option.mem_toList.mp hnew))
  refine
    { holds := h.holds
      low := UInt32.le_trans h.low hnext
      count := hcount
      requests := fun r hr => ?_
      others := fun r hr hother => ?_
      answered := fun a ha => UInt32.lt_of_lt_of_le (h.answered a ha) hnext
      flow := fun p hp => ?_
      reports := ?_ }
  · rcases hrequests r hr with hold | ⟨-, hlt⟩
    · exact UInt32.lt_of_lt_of_le (h.requests r hold) hnext
    · exact hlt
  · rcases hrequests r hr with hold | ⟨hstage, -⟩
    · exact h.others r hold hother
    · rw [hstage] at hother
      cases hother
  · rw [after, hstage] at hp
    cases hp
  · rw [after]
    dsimp only
    rw [hstage]
    rcases hold : x.client.stage with _ | p
    · exact h.reports
    rcases hanswer : o.status with _ | status
    · exact h.reports
    intro r hr hok
    rcases List.mem_cons.mp hr with rfl | hr
    · rw [hanswer] at hstatus
      exact hstatus p hold (congrArg some hok)
    · exact h.reports r hr hok

/-- A request of a flow goes out under a correlation of its own. -/
theorem Sound.dispatched {status : Option ManagementStatus} (h : Sound master n x)
    (hn : n + 1 < 2 ^ 31) (hpaced : p.Paced) (hfits : p.topology_stage_snapshot.Fits)
    (hcurrent : p.topology_stage_snapshot.paced[p.position]? = some query)
    (hcorr : p.corr_last = x.client.next_internal_corr_id)
    (hbefore : 2 ≤ p.position →
      ∀ r ∈ stageRequests x.requests, p.topology_stage_snapshot.paced[p.position - 1]? = some r.2)
    (hready : 2 ≤ p.position →
      Ready master p.topology_stage_snapshot (p.position - 2) x.slave.staging) :
    Sound master (n + 1) (x.after ⟨⟨x.client.next_internal_corr_id + 1, some p⟩, status,
      some (x.client.next_internal_corr_id, query)⟩) := by
  have hstage := ManagementTopologySnapshotPayload.isStageQuery_paced (List.mem_of_getElem? hcurrent)
  obtain ⟨hlt, hsucc⟩ := fresh_correlation h hn
  have hle := UInt32.le_of_lt hlt
  have hnew : ¬Acked x.answered p.corr_last := by
    rintro ⟨reply, hmem, -⟩
    rw [hcorr] at hmem
    exact UInt32.lt_irrefl _ (h.answered _ hmem)
  refine
    { holds := h.holds
      low := UInt32.le_trans h.low hle
      count := hsucc
      requests := fun r hr => ?_
      others := fun r hr hother => ?_
      answered := fun a ha => UInt32.lt_trans (h.answered a ha) hlt
      flow := fun p' hp' => ?_
      reports := ?_ }
  · rcases List.mem_append.mp hr with hold | hr
    · exact UInt32.lt_trans (h.requests r hold) hlt
    · obtain rfl := List.mem_singleton.mp hr
      exact hlt
  · rcases List.mem_append.mp hr with hold | hr
    · exact h.others r hold hother
    · obtain rfl := List.mem_singleton.mp hr
      rw [hstage] at hother
      cases hother
  · obtain rfl : p = p' := Option.some.inj hp'
    refine ⟨query,
      { paced := hpaced
        fits := hfits
        current := hcurrent
        old := hcorr ▸ hlt
        late := hcorr ▸ h.low
        arriving := ⟨stageRequests x.requests, ?_, fun r hr => ?_, hbefore⟩
        ready := hready
        alone := fun hdone => absurd hdone hnew
        taken := fun hdone => absurd hdone hnew
        finished := fun hdone => absurd hdone hnew }⟩
    · have hrequest : isStageQuery (x.client.next_internal_corr_id, query).2 = true := hstage
      rw [hcorr]
      exact stageRequests_append_stage x.requests hrequest ▸ List.suffix_refl _
    · rw [hcorr]
      exact UInt32.ne_of_lt (h.requests r (List.mem_filter.mp hr).1)
  · rw [after]
    dsimp only
    rcases x.client.stage with _ | p'
    · exact h.reports
    · exact h.reports

theorem Sound.more {m : Nat} (h : Sound master n x) (hle : n ≤ m) : Sound master m x :=
  { h with count := le_trans h.count (Nat.add_le_add_left hle _) }

theorem after_same (x : StageExchange) (status : Option ManagementStatus) : x.after ⟨x.client, status, none⟩ = x := by
  obtain ⟨⟨next, _ | p⟩, requests, slave, answered, applied, reports⟩ := x <;> simp [after]

/-- The end of a flow with a status that is no success, or with one that the slave has made good. -/
theorem Sound.finish {c : StageClient} {status : ManagementStatus} (h : Sound master n x)
    (hnext : x.client.next_internal_corr_id ≤ c.next_internal_corr_id)
    (hcount : c.next_internal_corr_id.toNat ≤ 0x80000000 + (n + 1))
    (hstatus : ∀ p, x.client.stage = some p → status = .Ok →
      Applied x.applied p.topology_stage_snapshot p.corr_last) :
    Sound master (n + 1) (x.after (c.finish status)) :=
  h.closed hnext hcount rfl (fun _ hr => nomatch hr) fun p hp hok => hstatus p hp (Option.some.inj hok)

/-- The stage command takes the first correlation for its Clear. -/
theorem Sound.command (h : Sound master n x) (hn : n + 1 < 2 ^ 31) (req_id : UInt32) (payload : Bytes) (sent : Bool) :
    Sound master (n + 1) (x.after (x.client.runTopologyStageSet req_id payload sent)) := by
  obtain ⟨hlt, hcount⟩ := fresh_correlation h hn
  have hle := UInt32.le_of_lt hlt
  rw [StageClient.runTopologyStageSet]
  by_cases hstage : x.client.stage.isSome = true
  · rw [if_pos hstage, after_same]
    exact h.more (Nat.le_succ n)
  have hnone : x.client.stage = none := by simpa using hstage
  have hidle : ∀ p, x.client.stage ≠ some p := by simp [hnone]
  rw [if_neg hstage]
  rcases hread : readStage payload with _ | snapshot
  · rw [after_same]
    exact h.more (Nat.le_succ n)
  dsimp only
  rw [allocate_eq h hn]
  dsimp only
  cases sent with
  | false => exact h.closed hle hcount hnone (fun _ hr => nomatch hr) fun p hp => absurd hp (hidle p)
  | true =>
    rw [if_neg (by decide)]
    by_cases hid : req_id = 0
    · -- without an id the Clear goes out and no flow waits for its answer
      rw [if_pos hid]
      refine h.closed hle hcount hnone (fun r hr => ?_) fun p hp => absurd hp (hidle p)
      obtain rfl := Option.some.inj hr
      exact ⟨rfl, hlt⟩
    · rw [if_neg hid]
      exact h.dispatched hn ⟨rfl, rfl⟩ (readStage_fits hread) rfl rfl (fun hposition => nomatch hposition)
        fun hposition => nomatch hposition

theorem onStageAck_next {c : StageClient} {corr : UInt32} {sent : Bool} (h : p.Paced)
    (hstep : p.topology_stage_step ≠ .WaitFinalizeAck) :
    c.onStageAck p corr sent = c.dispatchNextStageStep p p.nextStep sent := by
  rw [StageClient.onStageAck]
  rw [PendingTopologyStage.Paced] at h
  cases hcurrent : p.topology_stage_step with
  | None =>
    rw [hcurrent] at h
    exact h.elim
  | WaitFinalizeAck => exact absurd hcurrent hstep
  | _ => rfl

/-- An acknowledgement of the slave brings the flow on, or to its end. -/
theorem Sound.acknowledged {sent : Bool} (h : Sound master n x) (hn : n + 1 < 2 ^ 31)
    (hstage : x.client.stage = some p) (hflow : Flow master x p query) (hacked : Acked x.answered p.corr_last) :
    Sound master (n + 1) (x.after (x.client.onStageAck p p.corr_last sent)) := by
  obtain ⟨hlt, hcount⟩ := fresh_correlation h hn
  have hle := UInt32.le_of_lt hlt
  by_cases hstep : p.topology_stage_step = .WaitFinalizeAck
  · rw [StageClient.onStageAck, hstep]
    refine h.finish (UInt32.le_refl _) (le_trans h.count (by omega)) fun p' hp' _ => ?_
    obtain rfl : p = p' := Option.some.inj (hstage.symm.trans hp')
    exact hflow.finished hacked hstep
  rw [onStageAck_next hflow.paced hstep, StageClient.dispatchNextStageStep, allocate_eq h hn]
  obtain ⟨query', hquery, hpaced, hposition, hnext⟩ := hflow.paced.next hstep x.client.next_internal_corr_id
  dsimp only
  rw [hquery]
  dsimp only
  cases sent with
  | false => exact h.finish hle hcount fun _ _ hok => nomatch hok
  | true =>
    rw [if_pos rfl]
    refine h.dispatched hn hpaced hflow.fits (hposition ▸ hnext) rfl (fun _ r hr => ?_) fun hfrom => ?_
    · -- what may still arrive is the request that is acknowledged
      rw [hposition, Nat.add_sub_cancel]
      obtain rfl := List.mem_singleton.mp ((hflow.alone hacked).subset hr)
      exact hflow.current
    · rw [hposition] at hfrom ⊢
      exact hflow.taken hacked (by omega)

theorem Sound.respond {corr : UInt32} {decoded : Option PullResponseDecoded} {sent : Bool} (h : Sound master n x)
    (hn : n + 1 < 2 ^ 31) (hadmits : Admits master x (.respond corr decoded sent)) :
    Sound master (n + 1) (x.after (x.client.onPullResponse corr decoded sent)) := by
  rw [StageClient.onPullResponse]
  rcases hstage : x.client.stage with _ | p
  · dsimp only
    rw [after_same]
    exact h.more (Nat.le_succ n)
  dsimp only
  by_cases hother : corr = 0 ∨ corr ≠ p.corr_last
  · rw [if_pos hother, after_same]
    exact h.more (Nat.le_succ n)
  rw [if_neg hother]
  obtain rfl : corr = p.corr_last := by
    simpa using (not_or.mp hother).2
  obtain ⟨query, hflow⟩ := h.flow p hstage
  have hfails : ∀ status, status ≠ .Ok → Sound master (n + 1) (x.after (x.client.finish status)) := by
    intro status hstatus
    exact h.finish (UInt32.le_refl _) (le_trans h.count (by omega)) fun _ _ hok => absurd hok hstatus
  rcases hadmits hflow.late with rfl | ⟨⟨k, reply⟩, hmem, rfl, rfl⟩
  · exact hfails _ (by decide)
  dsimp only
  rw [topologyResponse]
  cases hok : reply.ok with
  | false => exact hfails _ (topologyDescriptorErrorToStatus_ne_ok _)
  | true => exact h.acknowledged hn hstage hflow ⟨reply, hmem, hok⟩

theorem Sound.deliver (h : Sound master n x) (send : MacAddress → Bytes → Except String Unit) (i : Nat) :
    Sound master n (x.step master (.deliver send i)) := by
  rw [step]
  rcases hget : x.requests[i]? with _ | ⟨corr, q⟩
  · exact h
  have hmem := List.mem_of_getElem? hget
  refine
    { holds := x.slave.step_holds h.holds _
      low := h.low
      count := h.count
      requests := fun r hr => h.requests r (List.mem_of_mem_drop hr)
      others := fun r hr => h.others r (List.mem_of_mem_drop hr)
      answered := fun a ha => ?_
      flow := fun p hp => ?_
      reports := fun r hr hok => (h.reports r hr hok).mono (handle_applied corr) }
  · rcases List.mem_append.mp ha with hnew | hold
    · obtain ⟨reply, -, rfl⟩ := Option.map_eq_some_iff.mp (Option.mem_toList.mp hnew)
      exact h.requests _ hmem
    · exact h.answered a hold
  · obtain ⟨query, hflow⟩ := h.flow p hp
    refine ⟨query, ?_⟩
    by_cases hcorr : corr = p.corr_last
    · rw [hcorr] at hget ⊢
      exact hflow.handle_current h.holds h.others hget
    · exact hflow.handle_other hget hcorr

theorem step_sound (h : Sound master n x) (hn : n + 1 < 2 ^ 31) {i : Input} (hadmits : x.Admits master i) :
    Sound master (n + 1) (x.step master i) := by
  cases i with
  | command req_id payload sent => exact h.command hn req_id payload sent
  | allocate =>
    obtain ⟨hlt, hcount⟩ := fresh_correlation h hn
    have hle := UInt32.le_of_lt hlt
    rw [step, allocate_eq h hn]
    refine
      { holds := h.holds
        low := UInt32.le_trans h.low hle
        count := hcount
        requests := fun r hr => UInt32.lt_trans (h.requests r hr) hlt
        others := h.others
        answered := fun a ha => UInt32.lt_trans (h.answered a ha) hlt
        flow := fun p hp => ?_
        reports := h.reports }
    obtain ⟨query, hflow⟩ := h.flow p hp
    exact ⟨query, hflow.frame hle (List.suffix_refl _) (fun _ hready => hready) (fun hdone => hdone)
      (List.Subset.refl _)⟩
  | expire =>
    exact
      { holds := h.holds
        low := h.low
        count := le_trans h.count (by omega)
        requests := h.requests
        others := h.others
        answered := h.answered
        flow := fun _ hp => nomatch hp
        reports := h.reports }
  | request corr q =>
    obtain ⟨hlow, hother⟩ := hadmits
    refine
      { holds := h.holds
        low := h.low
        count := le_trans h.count (by omega)
        requests := fun r hr => ?_
        others := fun r hr hstage => ?_
        answered := h.answered
        flow := fun p hp => ?_
        reports := h.reports }
    · rcases List.mem_append.mp hr with hold | hr
      · exact h.requests r hold
      · obtain rfl := List.mem_singleton.mp hr
        exact UInt32.lt_of_lt_of_le hlow h.low
    · rcases List.mem_append.mp hr with hold | hr
      · exact h.others r hold hstage
      · obtain rfl := List.mem_singleton.mp hr
        exact hlow
    · obtain ⟨query, hflow⟩ := h.flow p hp
      have hstage : isStageQuery (corr, q).2 = false := hother (Option.isSome_of_mem hp)
      refine ⟨query, hflow.frame (UInt32.le_refl _) ?_ (fun _ hready => hready) (fun hdone => hdone)
        (List.Subset.refl _)⟩
      exact stageRequests_append_other x.requests hstage ▸ List.suffix_refl _
  | deliver send i => exact (h.deliver send i).more (Nat.le_succ n)
  | respond corr decoded sent => exact h.respond hn hadmits
  | slave i =>
    refine
      { holds := x.slave.step_holds h.holds i
        low := h.low
        count := le_trans h.count (by omega)
        requests := h.requests
        others := h.others
        answered := h.answered
        flow := fun p hp => ?_
        reports := h.reports }
    obtain ⟨query, hflow⟩ := h.flow p hp
    refine ⟨query, hflow.frame (UInt32.le_refl _) (List.suffix_refl _) (fun n hready => hready.slave ?_)
      (fun hdone => hdone) (List.Subset.refl _)⟩
    intro send sender q hi
    rw [hi] at hadmits
    exact hadmits

theorem run_sound {inputs : List Input} (h : Sound master n x) (hn : n + inputs.length < 2 ^ 31)
    (hadmits : Admitted (step master) (Admits master) x inputs) :
    Sound master (n + inputs.length) (inputs.foldl (step master) x) := by
  induction inputs generalizing n x with
  | nil => exact h
  | cons i inputs ih =>
    obtain ⟨hi, hrest⟩ := hadmits
    rw [List.length_cons] at hn ⊢
    have hnext := ih (step_sound h (by omega) hi) (by omega) hrest
    rw [Nat.add_assoc, Nat.add_comm 1] at hnext
    exact hnext

theorem start_sound {slave : TracedPlane} (h : slave.plane.Holds slave.staging) :
    Sound master 0 (start slave) :=
  { holds := h
    low := UInt32.le_refl _
    count := le_refl _
    requests := fun _ hr => nomatch hr
    others := fun _ hr => nomatch hr
    answered := fun _ ha => nomatch ha
    flow := fun _ hp => nomatch hp
    reports := fun _ hr => nomatch hr }

/-- In every run in which fewer than 2^31 correlations are taken, each stage command that ends with `Ok` is of a
snapshot that the slave has committed whole, on the Finalize of that very flow: whichever requests and responses
are lost, repeated or late, and whatever restarts of the slave, queries of other peers and local commands come in
between. -/
theorem stage_ok_committed {slave : TracedPlane} (hslave : slave.plane.Holds slave.staging) (inputs : List Input)
    (hadmits : Admitted (step master) (Admits master) (start slave) inputs) (hlength : inputs.length < 2 ^ 31) :
    ∀ r ∈ (inputs.foldl (step master) (start slave)).reports, r.status = .Ok →
      ∃ c whole, (r.corr_id, c) ∈ (inputs.foldl (step master) (start slave)).applied ∧
        localStageSnapshot r.snapshot = some whole ∧ c.Carries whole :=
  (run_sound (start_sound hslave) (by omega) hadmits).reports

/-- A deployment whose Begin arrives twice. -/
def repeatedBegin : List Input :=
  let send : MacAddress → Bytes → Except String Unit := fun _ _ => .ok ()
  let ack (corr : UInt32) (message : String) : Input :=
    .respond corr (some (.descriptor (topologyResponse ⟨true, message⟩))) true
  [.command 7 (buildTopologyStagePayload oneSlotPayload) true,
    .deliver send 0, ack 0x80000000 "topology stage cleared",
    .deliver send 1, .deliver send 0, ack 0x80000001 "topology stage begin ok",
    .deliver send 1, ack 0x80000002 "topology group staged",
    .deliver send 1, ack 0x80000003 "topology slot staged",
    .deliver send 1, ack 0x80000004 "topology applied"]

/-- The repeated Begin does no harm: the one slot is committed. -/
theorem repeatedBegin_committed :
    ∃ c whole, (0x80000004, c) ∈ (repeatedBegin.foldl (step semu.master) (start ⟨idlePlane, none, []⟩)).applied ∧
      localStageSnapshot oneSlotPayload = some whole ∧ c.Carries whole := by
  have hreport : (⟨.Ok, oneSlotPayload, 0x80000004⟩ : StageReport) ∈
      (repeatedBegin.foldl (step semu.master) (start ⟨idlePlane, none, []⟩)).reports := by
    decide +kernel
  have hidle : idlePlane.Holds none := ⟨rfl, fun _ hst => nomatch hst⟩
  have hadmits : Admitted (step semu.master) (Admits semu.master) (start ⟨idlePlane, none, []⟩) repeatedBegin := by
    decide +kernel
  exact stage_ok_committed hidle repeatedBegin hadmits (by decide) _ hreport rfl

end Flow

end StageExchange

end EspNowLink
