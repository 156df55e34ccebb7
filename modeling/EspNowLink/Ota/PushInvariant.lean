import EspNowLink.Ota.PushLink
import EspNowLink.Ota.AckInvariant

namespace EspNowLink

namespace OtaPushLocalSession

/-- The session has ended, or it still pushes the same image in the same chunks. -/
structure SameImage (m n : OtaPushLocalSession) : Prop where
  active : n.active = true → m.active = true
  chunk_bytes : n.active = true → n.chunk_bytes = m.chunk_bytes
  total_size : n.active = true → n.total_size = m.total_size
  req_id : n.active = true → n.req_id = m.req_id

theorem SameImage.of_fields {m n : OtaPushLocalSession} (hactive : n.active = m.active)
    (hchunk : n.chunk_bytes = m.chunk_bytes) (htotal : n.total_size = m.total_size)
    (hreq : n.req_id = m.req_id) : m.SameImage n :=
  ⟨fun h => hactive ▸ h, fun _ => hchunk, fun _ => htotal, fun _ => hreq⟩

theorem SameImage.refl (m : OtaPushLocalSession) : m.SameImage m := .of_fields rfl rfl rfl rfl

theorem SameImage.trans {m n o : OtaPushLocalSession} (hmn : m.SameImage n) (hno : n.SameImage o) :
    m.SameImage o where
  active h := hmn.active (hno.active h)
  chunk_bytes h := (hno.chunk_bytes h).trans (hmn.chunk_bytes (hno.active h))
  total_size h := (hno.total_size h).trans (hmn.total_size (hno.active h))
  req_id h := (hno.req_id h).trans (hmn.req_id (hno.active h))

theorem SameImage.ended {m n : OtaPushLocalSession} (h : n.active = false) : m.SameImage n := by
  constructor <;> (intro hn; rw [h] at hn; cases hn)

theorem stopOtaPushLocal_same (m : OtaPushLocalSession) (reachable success : Bool)
    (status : ManagementStatus) (code : OtaStatusCode) (reason : String) :
    m.SameImage (m.stopOtaPushLocal reachable success status code reason).2 := by
  unfold stopOtaPushLocal
  split
  · exact .refl m
  · exact .ended rfl

theorem pumpWaitBegin_same (m : OtaPushLocalSession) (env : PushEnvironment) (now_ms : UInt32) :
    m.SameImage (m.pumpWaitBegin env now_ms).2 := by
  unfold pumpWaitBegin
  split
  · exact stopOtaPushLocal_same ..
  · dsimp only
    repeat' split
    all_goals exact .of_fields rfl rfl rfl rfl

theorem pumpWaitingAck_same (m : OtaPushLocalSession) (env : PushEnvironment) (now_ms : UInt32) :
    m.SameImage (m.pumpWaitingAck env now_ms).2 := by
  unfold pumpWaitingAck
  split
  · exact .of_fields rfl rfl rfl rfl
  split
  · split
    · exact stopOtaPushLocal_same ..
    · exact .of_fields rfl rfl rfl rfl
  · exact .of_fields rfl rfl rfl rfl

theorem sendChunks_same (image : Bytes) (env : PushEnvironment) (now_ms : UInt32) (budget : Nat)
    (m : OtaPushLocalSession) : m.SameImage (sendChunks image env now_ms budget m).2.2 := by
  induction budget generalizing m with
  | zero => exact .of_fields rfl rfl rfl rfl
  | succ budget ih =>
    unfold sendChunks
    dsimp only
    split
    · split
      · exact stopOtaPushLocal_same ..
      split
      · split
        · have hcounted : m.SameImage { m with send_fail_streak := m.send_fail_streak + 1 } :=
            .of_fields rfl rfl rfl rfl
          exact hcounted.trans (stopOtaPushLocal_same ..)
        · exact .of_fields rfl rfl rfl rfl
      · have hsent : m.SameImage (m.noteSent (m.chunkData image m.next_offset).length) :=
          .of_fields rfl rfl rfl rfl
        exact hsent.trans (ih _)
    · exact .refl m

theorem pumpSending_same (m : OtaPushLocalSession) (image : Bytes) (env : PushEnvironment)
    (now_ms : UInt32) : m.SameImage (m.pumpSending image env now_ms).2 := by
  unfold pumpSending
  split
  · split
    · exact stopOtaPushLocal_same ..
    · exact .of_fields rfl rfl rfl rfl
  split
  · exact .of_fields rfl rfl rfl rfl
  · have hopen : m.SameImage m.openWindow := by
      unfold openWindow
      split <;> exact .of_fields rfl rfl rfl rfl
    have hsend := sendChunks_same image env now_ms kChunkBudgetPerTick m.openWindow
    rcases hrun : sendChunks image env now_ms kChunkBudgetPerTick m.openWindow with ⟨ran, out, n⟩
    rw [hrun] at hsend
    have hclose : n.SameImage (n.closeWindow now_ms) := by
      unfold closeWindow
      split <;> exact .of_fields rfl rfl rfl rfl
    dsimp only
    split
    · exact (hopen.trans hsend).trans hclose
    · exact hopen.trans hsend

theorem pumpOtaPushLocal_same (m : OtaPushLocalSession) (image : Bytes) (env : PushEnvironment)
    (now_ms : UInt32) : m.SameImage (m.pumpOtaPushLocal image env now_ms).2 := by
  unfold pumpOtaPushLocal
  split
  · exact .of_fields rfl rfl rfl rfl
  split
  · exact stopOtaPushLocal_same ..
  split
  · exact stopOtaPushLocal_same ..
  split
  · exact pumpWaitBegin_same ..
  · split
    · exact stopOtaPushLocal_same ..
    · exact .of_fields rfl rfl rfl rfl
  · unfold pumpStreaming
    split
    · exact .of_fields rfl rfl rfl rfl
    · have hbegun : m.SameImage (m.noteBegun now_ms) := by
        unfold noteBegun
        split <;> exact .of_fields rfl rfl rfl rfl
      dsimp only
      split
      · exact hbegun.trans (pumpWaitingAck_same ..)
      · exact hbegun.trans (pumpSending_same ..)
  · exact .of_fields rfl rfl rfl rfl

theorem onChunkAck_same (m : OtaPushLocalSession) (offset now_ms : UInt32) :
    m.SameImage (m.onChunkAck offset now_ms) := by
  have hnoted : m.SameImage (m.noteAckedOffset offset) := by
    unfold noteAckedOffset
    split <;> exact .of_fields rfl rfl rfl rfl
  have hended : (m.noteAckedOffset offset).SameImage (m.noteAckedOffset offset).endRecovery := by
    unfold endRecovery
    split <;> exact .of_fields rfl rfl rfl rfl
  have hacked := hnoted.trans hended
  unfold onChunkAck
  dsimp only
  generalize (m.noteAckedOffset offset).endRecovery = n at hacked
  split
  · exact hacked.trans (.of_fields rfl rfl rfl rfl)
  split
  · exact hacked.trans (.of_fields rfl rfl rfl rfl)
  · exact hacked

theorem onChunkNack_same (m : OtaPushLocalSession) (offset now_ms : UInt32) :
    m.SameImage (m.onChunkNack offset now_ms) := by
  unfold onChunkNack
  split <;> exact .of_fields rfl rfl rfl rfl

theorem onTransferStatus_same (m : OtaPushLocalSession) (reachable : Bool) (status : FirmwareStatus)
    (now_ms : UInt32) : m.SameImage (m.onTransferStatus reachable status now_ms).2 := by
  have hnoted : m.SameImage { m with last_activity_ms := now_ms } := .of_fields rfl rfl rfl rfl
  unfold onTransferStatus
  dsimp only
  split
  · exact .refl m
  split
  · exact hnoted.trans (onChunkAck_same ..)
  · exact hnoted.trans (onChunkNack_same ..)
  · split
    · exact hnoted.trans (stopOtaPushLocal_same ..)
    · exact hnoted
  · split
    · exact hnoted.trans (stopOtaPushLocal_same ..)
    · exact hnoted
  · exact hnoted

end OtaPushLocalSession

namespace SlaveReception

theorem beginAnswered_sink (s : SlaveReception) (ok : Bool) (corr_id total_size chunk_size : UInt32) :
    (s.beginAnswered ok corr_id total_size chunk_size).2.sink = s.sink ∧
      (s.beginAnswered ok corr_id total_size chunk_size).2.local_role = s.local_role := by
  unfold beginAnswered
  dsimp only
  repeat' split
  all_goals exact ⟨rfl, rfl⟩

/-- The begin frame opens the session it announces, or no session is open after it. -/
theorem handleFirmwareBegin_keeps {s : SlaveReception} (hrole : s.local_role = .Slave)
    (hinactive : s.sink.receive.active = false) {t : Transfer} (hchunk : 32 ≤ t.chunk_size.toNat)
    (crc : UInt32) (metadata : FirmwareImageMetadata) (env : BeginEnvironment) :
    (s.handleFirmwareBegin t.sender t.corr_id (beginPayload t.total_size t.chunk_size crc metadata)
      env).2.2.ReceptionInv t := by
  obtain ⟨rest, hrest⟩ : ∃ rest, beginPayload t.total_size t.chunk_size crc metadata
      = le32 t.total_size ++ le32 t.chunk_size ++ le32 crc ++ rest := ⟨_, rfl⟩
  rw [hrest]
  simp only [le32, List.cons_append, List.nil_append, handleFirmwareBegin, readLe32_le32]
  cases parseFirmwareMetadata rest with
  | none => exact ⟨hrole, fun h => by rw [hinactive] at h; cases h⟩
  | some parsed =>
    dsimp only
    rcases hbegin : s.sink.beginReceive t.sender t.corr_id t.total_size t.chunk_size crc parsed env
      with ⟨ok, sink⟩
    obtain ⟨hsink, hrole'⟩ := beginAnswered_sink { s with sink := sink } ok t.corr_id t.total_size
      t.chunk_size
    refine ⟨hrole'.trans hrole, fun hactive => ?_⟩
    dsimp only at hsink
    rcases s.sink.beginReceive_cases _ _ _ _ _ _ _ hbegin with
      ⟨-, hold⟩ | ⟨rfl, htotal, hroom, hfresh⟩
    · rw [hsink] at hactive
      rcases hold with hold | hold <;> simp_all
    · -- the slave starts the transfer it announces, with nothing received and nothing acknowledged
      have hstart : (({ s with sink := sink } : SlaveReception).beginAnswered true t.corr_id
          t.total_size t.chunk_size).2 = (({ s with sink := sink } : SlaveReception).clearFinalize
            ).startTransfer t.corr_id t.total_size t.chunk_size := by
        unfold beginAnswered
        rw [if_neg (by simp [hrole])]
        rfl
      rw [hstart] at hactive ⊢
      refine startTransfer_receiving (s := { s with sink := sink }) hfresh ?_ hroom
      rw [hfresh]
      exact ReceiveSession.freshSession_sound htotal hchunk

theorem sinkTick_keeps {s : SlaveReception} {t : Transfer} (hs : s.ReceptionInv t) (now_s : UInt32) :
    ({ s with sink := s.sink.expireReceiveIfStale now_s } : SlaveReception).ReceptionInv t := by
  refine ⟨hs.role, fun hactive => ?_⟩
  rcases s.sink.expireReceiveIfStale_cases now_s with h | h
  · rw [h] at hactive ⊢
    exact hs.receiving hactive
  · dsimp only at hactive
    rw [h] at hactive
    cases hactive

end SlaveReception

def PushStart.transfer (p : PushStart) : Transfer where
  sender := p.master_mac
  corr_id := p.corr_id
  total_size := p.image.length.toUInt32
  chunk_size := p.chunk_bytes.toUInt32

/-- What every joint run keeps: both sides work on the transfer that was started. -/
structure PushInv (p : PushStart) (l : PushLink) : Prop where
  image : l.image = p.image
  master_mac : l.master_mac = p.master_mac
  corr_id : l.corr_id = p.corr_id
  master : p.link.master.SameImage l.master
  slave : l.slave.ReceptionInv p.transfer
  begin_payload : ∀ payload, l.begin_payload = some payload →
    payload = beginPayload p.transfer.total_size p.transfer.chunk_size p.crc p.metadata ∧
      l.slave.sink.receive.active = false

section

variable {p : PushStart} {l : PushLink}

theorem PushInv.start (hp : p.Admitted) : PushInv p p.link where
  image := rfl
  master_mac := rfl
  corr_id := rfl
  master := .refl _
  slave := ⟨hp.role, fun h => by
    change p.slave.sink.receive.active = true at h
    rw [hp.inactive] at h
    cases h⟩
  begin_payload := fun _ h => by
    cases h
    exact ⟨rfl, hp.inactive⟩

/-- A slave that has no session is not given one by a chunk frame. -/
theorem deliverChunk_inactive {s : SlaveReception} (hrole : s.local_role = .Slave)
    (h : s.sink.receive.active = false) (sender : MacAddress) (corr_id offset : UInt32) (data : Bytes)
    (now_s now_ms : UInt32) :
    (s.handleFirmwareChunk sender corr_id offset data now_s now_ms).2.2.sink.receive.active
      = false := by
  by_cases hhung : s.hung = true
  · unfold SlaveReception.handleFirmwareChunk
    rw [if_pos hhung]
    exact h
  · have hgone : (s.sink.expireReceiveIfStale now_s).receive.active = false := by
      rcases s.sink.expireReceiveIfStale_cases now_s with he | he
      · rw [he, h]
      · exact he
    exact (SlaveReception.handleFirmwareChunk_inactive hrole _ _ _ _ _ hgone (by simpa using hhung)).2

theorem PushInv.step (hp : p.Admitted) (hl : PushInv p l) (i : PushInput) : PushInv p (l.step i) := by
  cases i with
  | pump env now_ms =>
    exact { hl with master := hl.master.trans (l.master.pumpOtaPushLocal_same ..) }
  | deliverBegin env =>
    cases hpayload : l.begin_payload with
    | none => simpa only [PushLink.step, hpayload] using hl
    | some payload =>
      obtain ⟨rfl, hinactive⟩ := hl.begin_payload payload hpayload
      have hchunk : 32 ≤ p.transfer.chunk_size.toNat := by
        have := hp.chunk.1
        rw [UInt16.le_iff_toNat_le] at this
        simpa [PushStart.transfer] using this
      have hkeeps := SlaveReception.handleFirmwareBegin_keeps hl.slave.role hinactive
        (t := p.transfer) hchunk p.crc p.metadata env
      simp only [PushLink.step, hpayload, hl.master_mac, hl.corr_id]
      exact { hl with
        master_mac := rfl
        corr_id := rfl
        slave := hkeeps
        begin_payload := fun _ h => by cases h }
  | deliverChunk index now_s now_ms =>
    cases hchunk : l.chunks[index]? with
    | none => simpa only [PushLink.step, hchunk] using hl
    | some c =>
      obtain ⟨offset, data⟩ := c
      have hkeeps := SlaveReception.handleFirmwareChunk_keeps hl.slave offset data now_s now_ms
      simp only [PushLink.step, hchunk, hl.master_mac, hl.corr_id]
      refine { hl with
        master_mac := rfl
        corr_id := rfl
        slave := hkeeps
        begin_payload := fun payload h => ?_ }
      obtain ⟨hpayload, hinactive⟩ := hl.begin_payload payload h
      exact ⟨hpayload, deliverChunk_inactive hl.slave.role hinactive ..⟩
  | deliverStatus index reachable now_ms =>
    cases hstatus : l.statuses[index]? with
    | none => simpa only [PushLink.step, hstatus] using hl
    | some status =>
      simp only [PushLink.step, hstatus]
      exact { hl with master := hl.master.trans (l.master.onTransferStatus_same ..) }
  | sinkTick now_s =>
    refine { hl with slave := SlaveReception.sinkTick_keeps hl.slave now_s,
                     begin_payload := fun payload h => ?_ }
    obtain ⟨hpayload, hinactive⟩ := hl.begin_payload payload h
    refine ⟨hpayload, ?_⟩
    change (l.slave.sink.expireReceiveIfStale now_s).receive.active = false
    rcases l.slave.sink.expireReceiveIfStale_cases now_s with he | he
    · rw [he, hinactive]
    · exact he

end

end EspNowLink
