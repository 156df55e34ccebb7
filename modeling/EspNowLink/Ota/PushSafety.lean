import EspNowLink.Ota.SlaveReports
import EspNowLink.Ota.PushProgress

open Framework

namespace EspNowLink

open OtaPushLocalSession

section

variable {Files : Type} {p : PushStart} {r : PushRun Files}

/-- What every step of a confined run keeps. -/
structure RunInv (p : PushStart) (r : PushRun Files) : Prop where
  link : PushInv p r.link
  clean : r.link.slave.CleanFor p.transfer
  phased : r.link.master.active = true → r.link.master.Phased
  acked : r.link.master.active = true → r.link.master.remote_acked_offset = 0 ∨
    ∃ a ∈ r.link.statuses, (a.kind = .ChunkAck ∨ a.kind = .ChunkNack) ∧
      r.link.master.remote_acked_offset ≤ a.offset_bytes
  reports : ∀ a ∈ r.link.statuses, a.kind = .ChunkAck ∨ a.kind = .ChunkNack →
    a.offset_bytes ≤ r.held
  confirmed : ∀ a ∈ r.link.statuses, a.kind = .FinalizeOk → r.finalized = true
  done : r.finalized = true → r.link.slave.sink.receive.active = false ∧
    r.link.begin_payload = none ∧ r.AllSent ∧
    ∃ a ∈ r.link.statuses, a.kind = .FinalizeOk ∧ a.transfer_corr_id = p.corr_id
  sent : r.link.slave.sink.receive.active = true → ∀ k < r.link.slave.sink.receive.chunk_count.toNat,
    r.link.slave.sink.receive.got k = true →
      ∃ c ∈ r.link.chunks, c.1.toNat = r.link.slave.sink.receive.boundary k ∧
        c.2.length = r.link.slave.sink.receive.boundary (k + 1) -
          r.link.slave.sink.receive.boundary k
  ended : r.ends ≠ [] → r.AllSent ∧ r.AllAcked
  success : r.succeeded = true → r.finalized = true

theorem PushStart.Admitted.checked (hp : p.Admitted) : p.Checked := ⟨hp.chunk, hp.size⟩

theorem PushStart.Admitted.length_toNat (hp : p.Admitted) :
    p.image.length.toUInt32.toNat = p.image.length := by
  rw [Nat.toUInt32_eq, UInt32.toNat_ofNat', Nat.mod_eq_of_lt hp.size.2]

/-- An active session pushes the image that it was started with. -/
theorem PushInv.pushes {l : PushLink} (hp : p.Admitted) (hl : PushInv p l)
    (hactive : l.master.active = true) : l.master.Pushes l.image := by
  have htotal := hl.master.total_size hactive
  have hchunk := hl.master.chunk_bytes hactive
  obtain ⟨hmin, hmax⟩ := hp.chunk
  rw [UInt16.le_iff_toNat_le] at hmin hmax
  change l.master.total_size = p.image.length.toUInt32 at htotal
  change l.master.chunk_bytes = p.chunk_bytes at hchunk
  refine ⟨?_, ?_, ?_, ?_⟩
  · rw [hl.image, htotal, hp.length_toNat]
  · rw [htotal, hp.length_toNat]
    exact hp.size.1
  · rw [hchunk]
    have : (32 : UInt16).toNat = 32 := rfl
    omega
  · rw [hchunk]
    exact hmax

theorem RunInv.held_le (hr : RunInv p r) : r.held ≤ p.image.length.toUInt32 := by
  unfold PushRun.held
  split
  · rw [hr.link.image]
    exact UInt32.le_refl _
  · cases hactive : r.link.slave.sink.receive.active with
    | false =>
      rw [SlaveReception.contiguousReceiveSize_inactive hactive, UInt32.le_iff_toNat_le]
      exact Nat.zero_le _
    | true =>
      have hreceiving := hr.link.slave.receiving hactive
      have hexpected : r.link.slave.sink.receive.expected_size = p.image.length.toUInt32 :=
        hreceiving.expected
      rw [SlaveReception.contiguousReceiveSize_active hactive, ← hexpected,
        UInt32.le_iff_toNat_le, hreceiving.sound.received]
      exact Nat.min_le_right _ _

/-- A slave that has received all of the image has received every chunk that covers it. -/
theorem RunInv.allSent_received (hr : RunInv p r)
    (hactive : r.link.slave.sink.receive.active = true)
    (hall : r.link.slave.sink.receive.received_size = r.link.slave.sink.receive.expected_size)
    (hsize : r.link.image.length = r.link.slave.sink.receive.expected_size.toNat) : r.AllSent := by
  have hsound := (hr.link.slave.receiving hactive).sound
  have hreceived := hsound.received
  have hsent := hr.sent hactive
  generalize r.link.slave.sink.receive = q at hall hsize hsound hreceived hsent
  rw [hall] at hreceived
  intro x hx
  rw [hsize] at hx
  have hpos := hsound.chunk_pos
  have hlow : x / q.chunk_size.toNat * q.chunk_size.toNat ≤ x := Nat.div_mul_le_self _ _
  have hhigh : x < (x / q.chunk_size.toNat + 1) * q.chunk_size.toNat := by
    rw [Nat.mul_comm]
    exact Nat.lt_mul_div_succ x hpos
  have hbefore : x / q.chunk_size.toNat < runEnd q.got q.chunk_count.toNat 0 := by
    apply Nat.lt_of_not_le
    intro hle
    have hmono := q.boundary_mono hle
    have hbelow : q.boundary (x / q.chunk_size.toNat) ≤ x := by
      unfold ReceiveSession.boundary
      omega
    omega
  have hcount : x / q.chunk_size.toNat < q.chunk_count.toNat :=
    Nat.lt_of_lt_of_le hbefore (runEnd_le (Nat.zero_le _))
  obtain ⟨c, hc, hoffset, hlength⟩ := hsent _ hcount (got_of_lt_runEnd (Nat.zero_le _) hbefore)
  have hnext : x < q.boundary (x / q.chunk_size.toNat + 1) := by
    unfold ReceiveSession.boundary
    omega
  have hstart : q.boundary (x / q.chunk_size.toNat) ≤ x := by
    unfold ReceiveSession.boundary
    omega
  exact ⟨c, hc, by omega, by omega⟩

/-- Once the peer holds the whole image, all of it was sent. -/
theorem RunInv.allSent_of_held (hp : p.Admitted) (hr : RunInv p r)
    (hheld : p.image.length ≤ r.held.toNat) : r.AllSent := by
  have hpos := hp.size.1
  cases hfinal : r.finalized with
  | true => exact (hr.done hfinal).2.2.1
  | false =>
    unfold PushRun.held at hheld
    rw [hfinal, if_neg (by simp)] at hheld
    cases hactive : r.link.slave.sink.receive.active with
    | false =>
      rw [SlaveReception.contiguousReceiveSize_inactive hactive, UInt32.toNat_zero] at hheld
      omega
    | true =>
      have hreceiving := hr.link.slave.receiving hactive
      have hexpected : r.link.slave.sink.receive.expected_size = p.image.length.toUInt32 :=
        hreceiving.expected
      have hlimit : r.link.slave.sink.receive.received_size.toNat
          ≤ r.link.slave.sink.receive.expected_size.toNat := by
        rw [hreceiving.sound.received]
        exact Nat.min_le_right _ _
      have hlength := hp.length_toNat
      rw [SlaveReception.contiguousReceiveSize_active hactive] at hheld
      refine hr.allSent_received hactive (UInt32.toNat_inj.mp ?_) ?_
      · rw [hexpected] at hlimit ⊢
        omega
      · rw [hr.link.image, hexpected, hlength]

theorem RunInv.start (hp : p.Admitted) (hclean : p.Clean) (files : Files) : RunInv p (p.run files) where
  link := PushInv.start hp
  clean _ := hclean
  phased _ :=
    { unsent := fun _ => ⟨rfl, rfl, rfl, rfl⟩
      window := fun h => by cases h
      ended := fun h => by cases h
      busy := fun h => by cases h
      acked_le := by
        rw [UInt32.le_iff_toNat_le]
        exact Nat.zero_le _ }
  acked _ := .inl rfl
  reports a ha := by cases ha
  confirmed a ha := by cases ha
  done h := by cases h
  sent h := by
    change p.slave.sink.receive.active = true at h
    rw [hp.inactive] at h
    cases h
  ended h := absurd rfl h
  success h := by cases h

/-- What an event at the master has to do for the invariant to stay. -/
structure MasterMoves (r : PushRun Files) (out : List PushOutput) (m : OtaPushLocalSession) : Prop where
  phased : m.active = true → m.Phased
  acked : m.active = true → m.remote_acked_offset = r.link.master.remote_acked_offset ∨
    ∃ a ∈ r.link.statuses, (a.kind = .ChunkAck ∨ a.kind = .ChunkNack) ∧
      m.remote_acked_offset ≤ a.offset_bytes
  ended : ∀ o ∈ out, o.isEndFrame = true → r.link.master.active = true ∧
    r.link.master.total_size ≤ r.link.master.remote_acked_offset
  success : ∀ o ∈ out, o.isSuccess = true → r.finalized = true

theorem endFrames_nil {out : List PushOutput} (h : ∀ o ∈ out, o.isEndFrame = false) :
    endFrames out = [] := by
  unfold endFrames
  rw [List.filterMap_eq_nil_iff]
  intro o ho
  have hplain := h o ho
  cases o <;> first | rfl | cases hplain

/-- An event at the master, with the frames it sent. -/
theorem RunInv.note (hp : p.Admitted) (hr : RunInv p r) (out : List PushOutput)
    {m : OtaPushLocalSession} (hmoves : MasterMoves r out m) (hsame : r.link.master.SameImage m)
    (frames : List (UInt32 × Bytes)) :
    RunInv p (r.note out { r.link with master := m, chunks := r.link.chunks ++ frames }) where
  link := { hr.link with master := hr.link.master.trans hsame }
  clean := hr.clean
  phased := hmoves.phased
  acked hactive := by
    rcases hmoves.acked hactive with h | h
    · rcases hr.acked (hsame.active hactive) with hzero | hreport
      · exact .inl (h.trans hzero)
      · obtain ⟨a, ha, hkind, hle⟩ := hreport
        exact .inr ⟨a, ha, hkind, by rw [← h] at hle; exact hle⟩
    · exact .inr h
  reports := hr.reports
  confirmed := hr.confirmed
  done h := by
    obtain ⟨hinactive, hbegin, hsent, hok⟩ := hr.done h
    refine ⟨hinactive, hbegin, fun x hx => ?_, hok⟩
    obtain ⟨c, hc, hcover⟩ := hsent x hx
    exact ⟨c, List.mem_append_left _ hc, hcover⟩
  sent hactive k hk hgot := by
    obtain ⟨c, hc, hchunk⟩ := hr.sent hactive k hk hgot
    exact ⟨c, List.mem_append_left _ hc, hchunk⟩
  ended hends := by
    have hall : r.AllSent ∧ r.AllAcked := by
      by_cases hold : r.ends = []
      · by_cases hplain : ∀ o ∈ out, o.isEndFrame = false
        · exfalso
          apply hends
          change r.ends ++ endFrames out = []
          rw [hold, endFrames_nil hplain, List.append_nil]
        · -- the end frame goes out now, so the whole image is acknowledged
          simp only [not_forall, Bool.not_eq_false] at hplain
          obtain ⟨o, ho, hend⟩ := hplain
          obtain ⟨hactive, htotal⟩ := hmoves.ended o ho hend
          have hlength := hp.length_toNat
          have hsize : r.link.master.total_size = p.image.length.toUInt32 :=
            hr.link.master.total_size hactive
          rw [hsize, UInt32.le_iff_toNat_le, hlength] at htotal
          rcases hr.acked hactive with hzero | ⟨a, ha, hkind, hle⟩
          · have hpos := hp.size.1
            rw [hzero, UInt32.toNat_zero] at htotal
            omega
          · have hreport := hr.reports a ha hkind
            rw [UInt32.le_iff_toNat_le] at hle hreport
            exact ⟨hr.allSent_of_held hp (by omega), a, ha, hkind, by rw [hr.link.image]; omega⟩
      · exact hr.ended hold
    obtain ⟨hsent, hacked⟩ := hall
    refine ⟨fun x hx => ?_, hacked⟩
    obtain ⟨c, hc, hcover⟩ := hsent x hx
    exact ⟨c, List.mem_append_left _ hc, hcover⟩
  success h := by
    rcases Bool.or_eq_true_iff.mp h with h | h
    · exact hr.success h
    · obtain ⟨o, ho, hgood⟩ := List.any_eq_true.mp h
      exact hmoves.success o ho hgood

theorem PushRun.note_nil (r : PushRun Files) (l : PushLink) : r.note [] l = { r with link := l } := by
  simp [PushRun.note, endFrames]

theorem RunInv.pump (hp : p.Admitted) (hr : RunInv p r) (env : PushEnvironment) (now_ms : UInt32) :
    RunInv p (r.note (r.link.masterOutput (.pump env now_ms)) (r.link.step (.pump env now_ms))) := by
  have hpumped := pumpOtaPushLocal_pumped hr.phased (hr.link.pushes hp) env now_ms
  have hsame := r.link.master.pumpOtaPushLocal_same r.link.image env now_ms
  refine hr.note hp _ (m := (r.link.master.pumpOtaPushLocal r.link.image env now_ms).2) ?_ hsame
    (chunkFrames (r.link.master.pumpOtaPushLocal r.link.image env now_ms).1)
  refine ⟨fun h => (hpumped.1 h).1, fun h => .inl (hpumped.1 h).2, fun o ho hend => ⟨?_, ?_⟩,
    fun o ho hgood => ?_⟩
  · cases hactive : r.link.master.active with
    | true => rfl
    | false =>
      change o ∈ (r.link.master.pumpOtaPushLocal r.link.image env now_ms).1 at ho
      unfold pumpOtaPushLocal at ho
      rw [if_pos (by simp [hactive])] at ho
      simp at ho
  · exact (hpumped.2 o ho).2 hend
  · rw [(hpumped.2 o ho).1] at hgood
    cases hgood

/-- A frame of the peer, or one of another device that is not about this transfer. -/
theorem RunInv.status (hp : p.Admitted) (hr : RunInv p r) (status : FirmwareStatus) (reachable : Bool)
    (now_ms : UInt32)
    (howned : status ∈ r.link.statuses ∨ status.transfer_corr_id ≠ r.link.corr_id) :
    RunInv p (r.note (r.link.master.onTransferStatus reachable status now_ms).1
      { r.link with master := (r.link.master.onTransferStatus reachable status now_ms).2 }) := by
  have hsame := r.link.master.onTransferStatus_same reachable status now_ms
  have hcorr : r.link.master.active = true → r.link.master.req_id = r.link.corr_id := fun h =>
    (hr.link.master.req_id h).trans hr.link.corr_id.symm
  have hmask : (eventOffset status).toNat ≤ status.offset_bytes.toNat := by
    unfold eventOffset
    rw [UInt32.toNat_and]
    exact Nat.and_le_left
  have hours (hactive : r.link.master.active = true)
      (h : status.transfer_corr_id = r.link.master.req_id) : status ∈ r.link.statuses := by
    rcases howned with howned | hother
    · exact howned
    · exact absurd (h.trans (hcorr hactive)) hother
  have hwithin (hactive : r.link.master.active = true) (hkind : status.kind = .ChunkAck)
      (h : status.transfer_corr_id = r.link.master.req_id) :
      eventOffset status ≤ r.link.master.total_size := by
    have hreport := hr.reports status (hours hactive h) (.inl hkind)
    have hheld := hr.held_le
    have htotal : r.link.master.total_size = p.image.length.toUInt32 :=
      hr.link.master.total_size hactive
    rw [UInt32.le_iff_toNat_le] at hreport hheld ⊢
    rw [htotal]
    omega
  have hheard := onTransferStatus_heard hr.phased (hr.link.pushes hp) reachable now_ms hwithin
  have hnote := hr.note hp (r.link.master.onTransferStatus reachable status now_ms).1
    (m := (r.link.master.onTransferStatus reachable status now_ms).2)
    ⟨hheard.phased, fun h => ?_, fun o ho hend => ?_, fun o ho hgood => ?_⟩ hsame []
  · rw [List.append_nil] at hnote
    exact hnote
  · rcases hheard.acked h with hkept | ⟨hkind, hown, hle⟩
    · exact .inl hkept
    · rw [UInt32.le_iff_toNat_le] at hle
      refine .inr ⟨status, hours (hsame.active h) hown, hkind, ?_⟩
      rw [UInt32.le_iff_toNat_le]
      omega
  · rw [hheard.noEnd o ho] at hend
    cases hend
  · obtain ⟨hkind, hown⟩ := hheard.success o ho hgood
    cases hactive : r.link.master.active with
    | true => exact hr.confirmed status (hours hactive hown) hkind
    | false =>
      -- a session that has ended reports nothing
      exfalso
      unfold onTransferStatus at ho
      dsimp only at ho
      rw [if_pos (by simp [hactive])] at ho
      split at ho
      · rw [List.mem_singleton.mp ho] at hgood
        cases hgood
      · simp at ho

theorem onMandatoryEvent_cases (m : OtaPushLocalSession) (reachable : Bool) (peer : MacAddress)
    (event_id : UInt16) (correlation_id : UInt32) :
    m.onMandatoryEvent reachable peer event_id correlation_id = ([], m) ∨
      event_id = kOtaTransferReadyEventId ∧ m.active = true ∧ peer = m.peer ∧
        correlation_id = m.req_id ∧
        (m.onMandatoryEvent reachable peer event_id correlation_id).2.active = false ∧
        ∀ o ∈ (m.onMandatoryEvent reachable peer event_id correlation_id).1,
          o.isEndFrame = false := by
  unfold onMandatoryEvent
  split
  · rename_i h
    obtain ⟨hevent, hactive, -, hpeer, hcorr⟩ := h
    refine .inr ⟨hevent, hactive, hpeer, hcorr, Phased.stop hactive .., fun o ho => ?_⟩
    unfold stopOtaPushLocal at ho
    rw [if_neg (by simp [hactive])] at ho
    rcases List.mem_append.mp ho with ho | ho
    · simp at ho
    · rw [List.mem_singleton.mp ho]
      rfl
  · exact .inl rfl

theorem RunInv.mandatory (hp : p.Admitted) (hr : RunInv p r) (sender : MacAddress) (event_id : UInt16)
    (correlation_id : UInt32) (reachable : Bool)
    (hready : event_id = kOtaTransferReadyEventId → sender = r.link.master.peer →
      correlation_id = r.link.corr_id → r.finalized = true) :
    RunInv p (r.note (r.link.master.onMandatoryEvent reachable sender event_id correlation_id).1
      { r.link with
        master := (r.link.master.onMandatoryEvent reachable sender event_id correlation_id).2 }) := by
  rcases onMandatoryEvent_cases r.link.master reachable sender event_id correlation_id with
    hquiet | ⟨hevent, hactive, hpeer, hcorr, hended, hplain⟩
  · rw [hquiet, PushRun.note_nil]
    exact { hr with }
  · have hcorr' : r.link.master.req_id = r.link.corr_id :=
      (hr.link.master.req_id hactive).trans hr.link.corr_id.symm
    have hnote := hr.note hp
      (r.link.master.onMandatoryEvent reachable sender event_id correlation_id).1
      (m := (r.link.master.onMandatoryEvent reachable sender event_id correlation_id).2)
      ⟨fun h => absurd h (by simp [hended]), fun h => absurd h (by simp [hended]),
        fun o ho hend => absurd hend (by simp [hplain o ho]),
        fun _ _ _ => hready hevent hpeer (hcorr.trans hcorr')⟩ (.ended hended) []
    rw [List.append_nil] at hnote
    exact hnote

theorem RunInv.acked_append (hr : RunInv p r) (out : List FirmwareStatus)
    (hactive : r.link.master.active = true) : r.link.master.remote_acked_offset = 0 ∨
      ∃ a ∈ r.link.statuses ++ out, (a.kind = .ChunkAck ∨ a.kind = .ChunkNack) ∧
        r.link.master.remote_acked_offset ≤ a.offset_bytes := by
  rcases hr.acked hactive with hzero | ⟨a, ha, hreport⟩
  · exact .inl hzero
  · exact .inr ⟨a, List.mem_append_left _ ha, hreport⟩

theorem RunInv.ended_append (hr : RunInv p r) (out : List FirmwareStatus) (hends : r.ends ≠ []) :
    r.AllSent ∧ ∃ a ∈ r.link.statuses ++ out, (a.kind = .ChunkAck ∨ a.kind = .ChunkNack) ∧
      r.link.image.length ≤ a.offset_bytes.toNat := by
  obtain ⟨hsent, a, ha, hreport⟩ := hr.ended hends
  exact ⟨hsent, a, List.mem_append_left _ ha, hreport⟩

theorem RunInv.beginFrame (hr : RunInv p r) (hlink : PushInv p (r.link.step (.deliverBegin env)))
    : RunInv p { r with link := r.link.step (.deliverBegin env) } := by
  cases hpayload : r.link.begin_payload with
  | none =>
    simpa only [PushLink.step, hpayload] using hr
  | some payload =>
    obtain ⟨-, hinactive⟩ := hr.link.begin_payload payload hpayload
    have hopen : r.finalized = false := by
      cases hfinal : r.finalized with
      | false => rfl
      | true =>
        have hgone := (hr.done hfinal).2.1
        rw [hpayload] at hgone
        cases hgone
    have htakes := SlaveReception.handleFirmwareBegin_takes (t := p.transfer) hr.link.slave.role
      hinactive hr.clean payload env
    have hmac : r.link.master_mac = p.transfer.sender := hr.link.master_mac
    have hcorr : r.link.corr_id = p.transfer.corr_id := hr.link.corr_id
    rw [← hmac, ← hcorr] at htakes
    simp only [PushLink.step, hpayload] at hlink ⊢
    rcases hbegin : r.link.slave.handleFirmwareBegin r.link.master_mac r.link.corr_id payload env
      with ⟨ok, out, slave⟩
    rw [hbegin] at htakes hlink
    have hheld : r.held = 0 := by
      unfold PushRun.held
      rw [hopen, if_neg (by simp)]
      exact SlaveReception.contiguousReceiveSize_inactive hinactive
    exact
      { link := hlink
        clean := htakes.clean
        phased := hr.phased
        acked := hr.acked_append _
        reports := fun a ha hkind => by
          have hzero : a.offset_bytes = 0 := by
            rcases List.mem_append.mp ha with ha | ha
            · have hreport := hr.reports a ha hkind
              rw [hheld, UInt32.le_iff_toNat_le, UInt32.toNat_zero] at hreport
              exact UInt32.toNat_inj.mp (by rw [UInt32.toNat_zero]; omega)
            · have hreport := (htakes.reports a ha).2.2
              rw [UInt32.le_iff_toNat_le, UInt32.toNat_zero] at hreport
              exact UInt32.toNat_inj.mp (by rw [UInt32.toNat_zero]; omega)
          rw [hzero, UInt32.le_iff_toNat_le]
          exact Nat.zero_le _
        confirmed := fun a ha hkind => by
          rcases List.mem_append.mp ha with ha | ha
          · exact hr.confirmed a ha hkind
          · rcases (htakes.reports a ha).1 with h | h <;> (rw [hkind] at h; cases h)
        done := fun h => by rw [hopen] at h; cases h
        sent := fun hactive k _ hgot => by
          rw [htakes.fresh hactive k] at hgot
          cases hgot
        ended := hr.ended_append _
        success := hr.success }

theorem RunInv.chunk (hr : RunInv p r) (index : Nat) {now_s : UInt32} (now_ms : UInt32)
    (hlive : r.link.slave.sink.expireReceiveIfStale now_s = r.link.slave.sink)
    (hlink : PushInv p (r.link.step (.deliverChunk index now_s now_ms))) :
    RunInv p { r with link := r.link.step (.deliverChunk index now_s now_ms) } := by
  cases hchunk : r.link.chunks[index]? with
  | none => simpa only [PushLink.step, hchunk] using hr
  | some c =>
    obtain ⟨offset, data⟩ := c
    have htakes := SlaveReception.handleFirmwareChunk_takes hr.link.slave hr.clean offset data hlive
      now_ms
    have hmac : r.link.master_mac = p.transfer.sender := hr.link.master_mac
    have hcorr : r.link.corr_id = p.transfer.corr_id := hr.link.corr_id
    rw [← hmac, ← hcorr] at htakes
    simp only [PushLink.step, hchunk] at hlink ⊢
    rcases hwrite : r.link.slave.handleFirmwareChunk r.link.master_mac r.link.corr_id offset data
      now_s now_ms with ⟨ok, out, slave⟩
    rw [hwrite] at htakes hlink
    have hheld : r.held ≤ (if r.finalized then r.link.image.length.toUInt32
        else slave.sink.contiguousReceiveSize) := by
      unfold PushRun.held
      split
      · exact UInt32.le_refl _
      · exact htakes.held
    have hnow : slave.sink.contiguousReceiveSize ≤ (if r.finalized then
        r.link.image.length.toUInt32 else slave.sink.contiguousReceiveSize) := by
      split
      · rename_i hfinal
        have hgone : slave.sink.receive.active = false :=
          htakes.active.trans (hr.done hfinal).1
        rw [SlaveReception.contiguousReceiveSize_inactive hgone, UInt32.le_iff_toNat_le]
        exact Nat.zero_le _
      · exact UInt32.le_refl _
    exact
      { link := hlink
        clean := htakes.clean
        phased := hr.phased
        acked := hr.acked_append _
        reports := fun a ha hkind => by
          rcases List.mem_append.mp ha with ha | ha
          · exact UInt32.le_trans (hr.reports a ha hkind) hheld
          · exact UInt32.le_trans (htakes.reports a ha).2.2 hnow
        confirmed := fun a ha hkind => by
          rcases List.mem_append.mp ha with ha | ha
          · exact hr.confirmed a ha hkind
          · rcases (htakes.reports a ha).1 with h | h <;> (rw [hkind] at h; cases h)
        done := fun h => by
          obtain ⟨hinactive, hbegin, hsent, a, ha, hok⟩ := hr.done h
          exact ⟨htakes.active.trans hinactive, hbegin, hsent, a, List.mem_append_left _ ha, hok⟩
        sent := fun hactive k hk hgot => by
          have hbefore := htakes.active.symm.trans hactive
          dsimp only at hk hgot ⊢
          rw [htakes.sizes.1]
          rw [htakes.sizes.2] at hk
          rcases htakes.got hbefore k hgot with hold | ⟨hoffset, hlength⟩
          · exact hr.sent hbefore k hk hold
          · exact ⟨(offset, data), List.mem_of_getElem? hchunk, hoffset, hlength⟩
        ended := hr.ended_append _
        success := hr.success }

/-- An end frame that the slave does not store: it has no session then, and what it holds stays. -/
theorem RunInv.endRefused (hr : RunInv p r) {slave : SlaveReception} {out : List FirmwareStatus} (files : Files)
    (hsink : slave.sink.receive = r.link.slave.sink.receive) (hrole : slave.local_role = .Slave)
    (hsame : slave = r.link.slave ∨ r.link.slave.sink.receive.active = false)
    (hclean : slave.CleanFor p.transfer)
    (hother : ∀ a ∈ out, ¬ (a.kind = .ChunkAck ∨ a.kind = .ChunkNack) ∧ a.kind ≠ .FinalizeOk) :
    RunInv p { r with
      link := { r.link with slave := slave, statuses := r.link.statuses ++ out }
      files := files
      finalized := r.finalized || false } := by
  have hheld : slave.sink.contiguousReceiveSize = r.link.slave.sink.contiguousReceiveSize := by
    unfold OtaManager.contiguousReceiveSize
    rw [hsink]
  have hslave : slave.ReceptionInv p.transfer := by
    rcases hsame with rfl | hinactive
    · exact hr.link.slave
    · refine ⟨hrole, fun h => ?_⟩
      rw [hsink, hinactive] at h
      cases h
  exact
    { link := { hr.link with
        slave := hslave
        begin_payload := fun payload h => by
          rw [hsink]
          exact hr.link.begin_payload payload h }
      clean := hclean
      phased := hr.phased
      acked := hr.acked_append _
      reports := fun a ha hkind => by
        rcases List.mem_append.mp ha with ha | ha
        · have hreport := hr.reports a ha hkind
          unfold PushRun.held at hreport ⊢
          rw [Bool.or_false, hheld]
          exact hreport
        · exact absurd hkind (hother a ha).1
      confirmed := fun a ha hkind => by
        rcases List.mem_append.mp ha with ha | ha
        · rw [Bool.or_false]
          exact hr.confirmed a ha hkind
        · exact absurd hkind (hother a ha).2
      done := fun h => by
        rw [Bool.or_false] at h
        obtain ⟨hinactive, hbegin, hsent, a, ha, hok⟩ := hr.done h
        exact ⟨by rw [hsink]; exact hinactive, hbegin, hsent, a, List.mem_append_left _ ha, hok⟩
      sent := fun hactive k hk hgot => by
        dsimp only at hactive hk hgot ⊢
        rw [hsink] at hactive hk hgot ⊢
        exact hr.sent hactive k hk hgot
      ended := hr.ended_append _
      success := fun h => by
        rw [Bool.or_false]
        exact hr.success h }

/-- An end frame that the slave stores the image for: it holds all of it from now on. -/
theorem RunInv.endStored (hp : p.Admitted) (hr : RunInv p r) {slave : SlaveReception} {a : FirmwareStatus}
    (files : Files)
    (hactive : r.link.slave.sink.receive.active = true)
    (hreceived : r.link.slave.sink.receive.received_size = r.link.slave.sink.receive.expected_size)
    (hgone : slave.sink.receive.active = false) (hrole : slave.local_role = .Slave)
    (hclean : slave.CleanFor p.transfer) (hok : a.kind = .FinalizeOk ∧ a.transfer_corr_id = p.corr_id) :
    RunInv p { r with
      link := { r.link with slave := slave, statuses := r.link.statuses ++ [a] }
      files := files
      finalized := r.finalized || true } := by
  have hreceiving := hr.link.slave.receiving hactive
  have hexpected : r.link.slave.sink.receive.expected_size = p.image.length.toUInt32 :=
    hreceiving.expected
  have hsent := hr.allSent_received hactive hreceived (by
    rw [hr.link.image, hexpected, hp.length_toNat])
  have hbegin : r.link.begin_payload = none := by
    cases hpayload : r.link.begin_payload with
    | none => rfl
    | some payload =>
      have hnot := (hr.link.begin_payload payload hpayload).2
      rw [hactive] at hnot
      cases hnot
  have hheld := hr.held_le
  exact
    { link := { hr.link with
        slave := ⟨hrole, fun h => by rw [hgone] at h; cases h⟩
        begin_payload := fun payload h => by
          dsimp only at h
          rw [hbegin] at h
          cases h }
      clean := hclean
      phased := hr.phased
      acked := hr.acked_append _
      reports := fun a ha hkind => by
        rcases List.mem_append.mp ha with ha | ha
        · have hreport := hr.reports a ha hkind
          unfold PushRun.held
          rw [Bool.or_true, if_pos rfl, hr.link.image]
          exact UInt32.le_trans hreport hheld
        · rw [List.mem_singleton.mp ha, hok.1] at hkind
          rcases hkind with h | h <;> cases h
      confirmed := fun _ _ _ => Bool.or_true _
      done := fun _ => ⟨hgone, hbegin, hsent, a, List.mem_append_right _ (List.mem_singleton.mpr rfl), hok⟩
      sent := fun h => by
        dsimp only at h
        rw [hgone] at h
        cases h
      ended := hr.ended_append _
      success := fun _ => Bool.or_true _ }

theorem RunInv.endFrame {b : OtaStorageBackend Files} {d : OtaFolders} (hp : p.Admitted)
    (hr : RunInv p r) {index : Nat} {now_s : UInt32} (now_ms : UInt32) {manifest : Option Bytes}
    (hstores : ∀ total_size crc, r.ends[index]? = some (total_size, crc) →
      r.link.slave.sink.receive.active = true →
      (r.link.slave.sink.endReceive b d r.link.master_mac r.link.corr_id total_size crc now_s manifest
        r.files).1.isSome = true) :
    RunInv p (r.step b d (.deliverEnd index now_s now_ms manifest)) := by
  cases hend : r.ends[index]? with
  | none => simpa only [PushRun.step, hend] using hr
  | some frame =>
    obtain ⟨total_size, crc⟩ := frame
    have hmac : r.link.master_mac = p.transfer.sender := hr.link.master_mac
    have hcorr : r.link.corr_id = p.transfer.corr_id := hr.link.corr_id
    have hstores' := hstores total_size crc hend
    simp only [PushRun.step, hend]
    rcases hanswer : r.link.slave.handleFirmwareEnd b d r.link.master_mac r.link.corr_id total_size crc
      now_s now_ms manifest r.files with ⟨ok, out, slave, files⟩
    rw [hmac, hcorr] at hanswer hstores'
    have hcases := SlaveReception.handleFirmwareEnd_cases hr.link.slave.role hr.clean total_size crc
      now_s now_ms manifest r.files hstores' hanswer
    have hfailed : (∀ a ∈ out, a.kind = .FinalizeFail) → ∀ a ∈ out,
        ¬ (a.kind = .ChunkAck ∨ a.kind = .ChunkNack) ∧ a.kind ≠ .FinalizeOk := by
      intro hall a ha
      rw [hall a ha]
      simp
    rcases hcases with ⟨rfl, hsink, hrole, hsame, hclean, hkinds⟩ |
      ⟨rfl, hactive, hreceived, hgone, hrole, hclean, rfl⟩
    · exact hr.endRefused files hsink hrole hsame hclean (hfailed hkinds)
    · exact hr.endStored hp files hactive hreceived hgone hrole hclean ⟨rfl, rfl⟩

theorem RunInv.step {b : OtaStorageBackend Files} {d : OtaFolders} (hp : p.Admitted)
    (hr : RunInv p r) {i : PushRunInput} (hi : r.Confined b d i) : RunInv p (r.step b d i) := by
  cases i with
  | link i =>
    have hlink := hr.link.step hp i
    cases i with
    | pump env now_ms => exact hr.pump hp env now_ms
    | deliverBegin env =>
      have hnext := hr.beginFrame hlink
      rw [← PushRun.note_nil] at hnext
      exact hnext
    | deliverChunk index now_s now_ms =>
      have hnext := hr.chunk index now_ms hi hlink
      rw [← PushRun.note_nil] at hnext
      exact hnext
    | deliverStatus index reachable now_ms =>
      cases hstatus : r.link.statuses[index]? with
      | none =>
        simp only [PushRun.step, PushLink.step, PushLink.masterOutput, hstatus, PushRun.note_nil]
        exact { hr with }
      | some status =>
        simp only [PushRun.step, PushLink.step, PushLink.masterOutput, hstatus]
        exact hr.status hp status reachable now_ms (.inl (List.mem_of_getElem? hstatus))
    | sinkTick now_s =>
      have hlive : ({ r.link.slave with sink := r.link.slave.sink.expireReceiveIfStale now_s } :
          SlaveReception) = r.link.slave := by
        have hsink : r.link.slave.sink.expireReceiveIfStale now_s = r.link.slave.sink := hi
        rw [hsink]
      simp only [PushRun.step, PushLink.step, PushLink.masterOutput, hlive, PushRun.note_nil]
      exact { hr with }
  | deliverEnd index now_s now_ms manifest => exact hr.endFrame hp now_ms hi
  | foreignStatus sender status reachable now_ms =>
    unfold PushRun.step
    dsimp only
    split
    · exact hr
    · rename_i hforeign
      exact hr.status hp status reachable now_ms (.inr (hi hforeign))
  | mandatoryEvent sender event_id correlation_id reachable =>
    exact hr.mandatory hp sender event_id correlation_id reachable hi

theorem RunInv.safe (hr : RunInv p r) : r.Safe where
  acked_total hactive := (hr.phased hactive).acked_le
  acked_held hactive := by
    rcases hr.acked hactive with hzero | ⟨a, ha, hkind, hle⟩
    · rw [hzero, UInt32.le_iff_toNat_le]
      exact Nat.zero_le _
    · exact UInt32.le_trans hle (hr.reports a ha hkind)
  ended := hr.ended
  success h := by
    have hfinal := hr.success h
    obtain ⟨-, -, -, a, ha, hkind, hcorr⟩ := hr.done hfinal
    exact ⟨hfinal, a, ha, hkind, hcorr.trans hr.link.corr_id.symm⟩

end

/-- A push session is safe on every run on which no other device and no other transfer uses its
correlation id and the peer drops nothing of what it has. -/
theorem push_session_safe {Files : Type} (b : OtaStorageBackend Files) (d : OtaFolders)
    (p : PushStart) (hp : p.Admitted) (hclean : p.Clean) (files : Files) {r : PushRun Files}
    (hrun : Run (PushRun.step b d) (PushRun.Confined b d) (p.run files) r) :
    r.Safe ∧ ∀ i, r.Confined b d i → r.IgnoresForeign b d i := by
  have hr : RunInv p r := hrun.invariant (RunInv.start hp hclean files)
    fun _ _ (hinv : RunInv p _) hi => hinv.step hp hi
  refine ⟨hr.safe, fun i hi => ?_⟩
  cases i with
  | foreignStatus sender status reachable now_ms =>
    change (r.step b d (.foreignStatus sender status reachable now_ms)).link.master = r.link.master
    unfold PushRun.step
    dsimp only
    split
    · rfl
    · rename_i hforeign
      have hother : status.transfer_corr_id ≠ r.link.corr_id := hi hforeign
      change (r.link.master.onTransferStatus reachable status now_ms).2 = r.link.master
      unfold onTransferStatus
      dsimp only
      rw [if_pos]
      cases hactive : r.link.master.active with
      | false => rfl
      | true =>
        have hreq : r.link.master.req_id = r.link.corr_id :=
          (hr.link.master.req_id hactive).trans hr.link.corr_id.symm
        rw [hreq]
        simpa using hother
  | link i => trivial
  | deliverEnd index now_s now_ms manifest => trivial
  | mandatoryEvent sender event_id correlation_id reachable => trivial

/-- A sink without a receive timeout never drops its session. -/
theorem OtaManager.expireReceiveIfStale_no_timeout {m : OtaManager}
    (h : m.config.receive_timeout_s = 0) (now_s : UInt32) : m.expireReceiveIfStale now_s = m := by
  unfold expireReceiveIfStale
  simp [h]

namespace PushExample

def folders : OtaFolders := ⟨ascii "/in", ascii "/img", ascii "/man"⟩

/-- A push of 64 zero bytes in two chunks. -/
def zeros : PushStart := { start 64 32 idle with crc := 0x758D6336 }

theorem zeros_admitted : zeros.Admitted where
  chunk := by decide
  size := by
    rw [zeros, start, List.length_replicate]
    decide
  role := rfl
  inactive := rfl

def emptyRun : PushRun (Bytes → Option Bytes) := zeros.run fun _ => none

/-- The transfer goes through. -/
def completed : List PushRunInput :=
  [.link (.deliverBegin opened), .link (.deliverStatus 0 true 0), .link (.pump radio 0),
    .link (.deliverChunk 0 0 0), .link (.deliverChunk 1 0 0), .link (.deliverStatus 1 true 0),
    .foreignStatus master ⟨.FinalizeOk, 8, 64, .Ok⟩ true 0, .link (.pump radio 0),
    .deliverEnd 0 0 0 none, .link (.deliverStatus 2 true 0)]

/-- No frame reaches the peer, and another device answers in its place. -/
def forged : List PushRunInput :=
  [.foreignStatus master ⟨.ChunkAck, 7, 0, .Ok⟩ true 0, .link (.pump radio 0),
    .foreignStatus master ⟨.ChunkAck, 7, 64, .Ok⟩ true 0, .link (.pump radio 0),
    .foreignStatus master ⟨.FinalizeOk, 7, 64, .Ok⟩ true 0]

def after (is : List PushRunInput) : PushRun (Bytes → Option Bytes) :=
  is.foldl (PushRun.step memoryStorage folders) emptyRun

theorem completed_confined :
    Admitted (PushRun.step memoryStorage folders) (PushRun.Confined memoryStorage folders) emptyRun
      completed := by
  have hfirst : (after (completed.take 3)).link.slave.sink.config.receive_timeout_s = 0 ∧
      (after (completed.take 4)).link.slave.sink.config.receive_timeout_s = 0 := by decide +kernel
  have hend : ((after (completed.take 8)).ends[0]?.all fun frame => ((after (completed.take 8)
      ).link.slave.sink.endReceive memoryStorage folders master 7 frame.1 frame.2 0 none
        (after (completed.take 8)).files).1.isSome) = true := by decide +kernel
  refine ⟨trivial, trivial, trivial, ?_, ?_, trivial, ?_, trivial, ?_, trivial, trivial⟩
  · exact OtaManager.expireReceiveIfStale_no_timeout hfirst.1 0
  · exact OtaManager.expireReceiveIfStale_no_timeout hfirst.2 0
  · exact fun _ => by decide +kernel
  · exact fun total_size crc h _ => (Option.all_eq_true _ _).mp hend (total_size, crc) h

end PushExample

open PushExample in
theorem push_session_safe_completed :
    (after completed).succeeded = true ∧ (after completed).Safe :=
  ⟨by decide +kernel, (push_session_safe memoryStorage folders zeros zeros_admitted (.inl rfl)
    (fun _ => none) (Run.of_admitted completed completed_confined)).1⟩

open PushExample in
/-- Status frames of another device carry a session to its successful end. -/
theorem forged_statuses_succeed :
    ¬ ∀ r, Run (PushRun.step memoryStorage folders) (fun _ _ => True) emptyRun r →
      r.Safe ∧ ∀ i, r.IgnoresForeign memoryStorage folders i := by
  intro h
  have hforged : (after forged).succeeded = true ∧ (after forged).finalized = false := by
    decide +kernel
  have hrun : Run (PushRun.step memoryStorage folders) (fun _ _ => True) emptyRun (after forged) :=
    Run.of_admitted forged (by simp [forged, Admitted])
  have hsafe := ((h (after forged) hrun).1.success hforged.1).1
  rw [hforged.2] at hsafe
  cases hsafe

end EspNowLink
