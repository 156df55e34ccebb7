import EspNowLink.Ota.SlaveReception
import EspNowLink.Ota.ReceiveCoverage

namespace EspNowLink

/-- The transfer that a push session announced. -/
structure Transfer where
  sender : MacAddress
  corr_id : UInt32
  total_size : UInt32
  chunk_size : UInt32

namespace SlaveReception

/-- The slave is receiving the transfer, and its acknowledgements are settled: what it has received
was acknowledged last, or is neither due for an acknowledgement nor the whole image. -/
structure Receiving (s : SlaveReception) (t : Transfer) : Prop where
  active : s.sink.receive.active = true
  sender : s.sink.receive.sender = t.sender
  corr_id : s.sink.receive.corr_id = t.corr_id
  expected : s.sink.receive.expected_size = t.total_size
  chunk : s.sink.receive.chunk_size = t.chunk_size
  sound : s.sink.receive.Sound
  room : s.sink.hasRoom t.total_size = true
  transfer : s.ota_transfer_corr_id = t.corr_id
  transfer_size : s.ota_transfer_expected_size = t.total_size
  last_received : s.ota_transfer_last_received_offset ≤ s.sink.receive.received_size
  last_acked : s.ota_transfer_last_acked_offset ≤ s.sink.receive.received_size
  settled : s.ota_transfer_last_acked_offset = s.sink.receive.received_size ∨
    (s.sink.receive.received_size < s.ota_transfer_next_ack_offset ∧
      s.sink.receive.received_size ≠ t.total_size)

structure ReceptionInv (s : SlaveReception) (t : Transfer) : Prop where
  role : s.local_role = .Slave
  receiving : s.sink.receive.active = true → s.Receiving t

/-- A slave that starts the transfer over a session just opened has received nothing and acknowledged
nothing. -/
theorem startTransfer_receiving {s : SlaveReception} {t : Transfer} {crc now_s : UInt32}
    (hfresh : s.sink.receive =
      OtaManager.freshSession t.sender t.corr_id t.total_size t.chunk_size crc now_s)
    (hsound : s.sink.receive.Sound) (hroom : s.sink.hasRoom t.total_size = true) :
    (s.clearFinalize.startTransfer t.corr_id t.total_size t.chunk_size).Receiving t := by
  have hzero : s.sink.receive.received_size = 0 := by rw [hfresh]; rfl
  have hnone : (0 : UInt32) ≤ s.sink.receive.received_size := by
    rw [hzero]
    exact UInt32.le_refl _
  exact
    { active := by change s.sink.receive.active = true; rw [hfresh]; rfl
      sender := by change s.sink.receive.sender = _; rw [hfresh]; rfl
      corr_id := by change s.sink.receive.corr_id = _; rw [hfresh]; rfl
      expected := by change s.sink.receive.expected_size = _; rw [hfresh]; rfl
      chunk := by change s.sink.receive.chunk_size = _; rw [hfresh]; rfl
      sound := hsound
      room := hroom
      transfer := rfl
      transfer_size := rfl
      last_received := hnone
      last_acked := hnone
      settled := .inl hzero.symm }

/-- A received size of `received` is worth an acknowledgement to a slave that had `s`. -/
def AckAt (s : SlaveReception) (t : Transfer) (received : UInt32) : Prop :=
  s.sink.receive.received_size < received ∧
    (s.ota_transfer_next_ack_offset ≤ received ∨ received = t.total_size)

instance (s : SlaveReception) (t : Transfer) (received : UInt32) :
    Decidable (s.AckAt t received) := inferInstanceAs (Decidable (_ ∧ _))

theorem noteAcked_fields (s : SlaveReception) (offset : UInt32) :
    (s.noteAcked offset).sink = s.sink ∧ (s.noteAcked offset).local_role = s.local_role ∧
      (s.noteAcked offset).ota_transfer_corr_id = s.ota_transfer_corr_id ∧
      (s.noteAcked offset).ota_transfer_expected_size = s.ota_transfer_expected_size ∧
      (s.noteAcked offset).ota_transfer_last_received_offset
        = s.ota_transfer_last_received_offset ∧
      (s.noteAcked offset).ota_transfer_last_acked_offset = offset := by
  unfold noteAcked
  split <;> simp

section Accepted

variable {s : SlaveReception} {t : Transfer} {offset : UInt32} {data : Bytes} {now_s : UInt32}

/-- The acknowledgement decision of an accepted chunk compares the new contiguous size only. -/
theorem shouldAck_iff (hs : s.Receiving t) {sink : OtaManager}
    (hle : s.sink.receive.received_size ≤ sink.receive.received_size) :
    ((s.shouldAck sink.receive.received_size &&
      sink.receive.received_size ≠ s.ota_transfer_last_acked_offset) = true) ↔
      s.AckAt t sink.receive.received_size := by
  have hsize : t.total_size ≠ 0 := by
    intro h
    have hpos := hs.sound.size_pos
    rw [hs.expected, h] at hpos
    simp at hpos
  have hacked := hs.last_acked
  have hsettled := hs.settled
  simp only [shouldAck, AckAt, hs.transfer_size, UInt32.lt_iff_toNat_lt, UInt32.le_iff_toNat_le,
    ← UInt32.toNat_inj, ne_eq, Bool.and_eq_true, Bool.or_eq_true, decide_eq_true_eq, ge_iff_le,
    decide_not, Bool.not_eq_true', decide_eq_false_iff_not] at *
  rw [UInt32.toNat_zero] at *
  omega

/-- The spec of an accepted chunk: the sink takes it, and the slave acknowledges the new contiguous
size exactly when `AckAt` says so. -/
theorem handleFirmwareChunk_accepted (hrole : s.local_role = .Slave) (hs : s.Receiving t)
    (hhung : s.hung = false) (hlive : s.sink.expireReceiveIfStale now_s = s.sink)
    (hrefusal : s.sink.chunkRefusal offset data = none) (now_ms : UInt32) :
    ∃ s', s.handleFirmwareChunk t.sender t.corr_id offset data now_s now_ms =
        (true, if s.AckAt t (s.sink.acceptChunk offset data now_s).receive.received_size then
          [⟨.ChunkAck, t.corr_id, (s.sink.acceptChunk offset data now_s).receive.received_size, .Ok⟩]
          else [], s') ∧
      s'.sink = s.sink.acceptChunk offset data now_s ∧ s'.local_role = .Slave ∧ s'.Receiving t ∧
      (¬ s.AckAt t (s.sink.acceptChunk offset data now_s).receive.received_size →
        s'.hung = false ∧ s'.ota_transfer_next_ack_offset = s.ota_transfer_next_ack_offset) := by
  have hreceives := OtaManager.acceptChunk_receives hs.sound hrefusal now_s
  have hle := hreceives.received_le hs.sound
  have hvalid : s.sink.validateSession t.sender t.corr_id = true := by
    simp [OtaManager.validateSession, hs.active, hs.sender, hs.corr_id]
  have hroom : (s.sink.acceptChunk offset data now_s).hasRoom t.total_size = true :=
    (OtaManager.acceptChunk_room ..).trans hs.room
  have hwrite : s.sink.writeReceiveChunk t.sender t.corr_id offset data now_s
      = (true, s.sink.acceptChunk offset data now_s) := by
    rw [OtaManager.writeReceiveChunk_live hlive, hvalid, hrefusal]
    rfl
  generalize s.sink.acceptChunk offset data now_s = sink at *
  have hactive : sink.receive.active = true := by rw [hreceives.active, hs.active]
  have htracked : ({ s with sink := sink } : SlaveReception).trackedOffset
      = sink.receive.received_size := by
    have hlast : s.ota_transfer_last_received_offset ≤ sink.receive.received_size :=
      UInt32.le_trans hs.last_received hle
    simp [trackedOffset, OtaManager.contiguousReceiveSize, hactive, hlast]
  have hack := shouldAck_iff hs hle
  have hsession (s' : SlaveReception) (hsink : s'.sink = sink)
      (hcorr : s'.ota_transfer_corr_id = s.ota_transfer_corr_id)
      (hexp : s'.ota_transfer_expected_size = s.ota_transfer_expected_size)
      (hrecv : s'.ota_transfer_last_received_offset = sink.receive.received_size)
      (hacked : s'.ota_transfer_last_acked_offset ≤ sink.receive.received_size)
      (hsettled : s'.ota_transfer_last_acked_offset = sink.receive.received_size ∨
        (sink.receive.received_size < s'.ota_transfer_next_ack_offset ∧
          sink.receive.received_size ≠ t.total_size)) : s'.Receiving t :=
    { active := by rw [hsink, hactive]
      sender := by rw [hsink, hreceives.sender, hs.sender]
      corr_id := by rw [hsink, hreceives.corr_id, hs.corr_id]
      expected := by rw [hsink, hreceives.expected_size, hs.expected]
      chunk := by rw [hsink, hreceives.chunk_size, hs.chunk]
      sound := by rw [hsink]; exact hreceives.sound
      room := by rw [hsink, hroom]
      transfer := by rw [hcorr, hs.transfer]
      transfer_size := by rw [hexp, hs.transfer_size]
      last_received := by rw [hsink, hrecv]; exact UInt32.le_refl _
      last_acked := by rw [hsink]; exact hacked
      settled := by rw [hsink]; exact hsettled }
  have hchunk : s.handleFirmwareChunk t.sender t.corr_id offset data now_s now_ms
      = (true, ({ s with sink := sink } : SlaveReception).chunkAccepted t.corr_id) := by
    unfold handleFirmwareChunk
    rw [if_neg (by simp [hhung]), hwrite]
    exact if_pos ⟨hrole, hs.transfer⟩
  rw [hchunk]
  unfold chunkAccepted
  dsimp only
  rw [htracked]
  by_cases hdue : s.AckAt t sink.receive.received_size
  · have hif := hack.mpr hdue
    refine ⟨({ s with sink := sink, ota_transfer_last_received_offset := sink.receive.received_size } :
      SlaveReception).noteAcked sink.receive.received_size, ?_⟩
    obtain ⟨hsink, hrole', hcorr, hexp, hrecv, hacked⟩ := noteAcked_fields
      { s with sink := sink, ota_transfer_last_received_offset := sink.receive.received_size }
      sink.receive.received_size
    refine ⟨?_, hsink, hrole'.trans hrole, ?_, fun hnot => absurd hdue hnot⟩
    · rw [if_pos (by exact hif), if_pos hdue]
    · exact hsession _ hsink hcorr hexp hrecv (by rw [hacked]; exact UInt32.le_refl _) (.inl hacked)
  · have hif : ¬ (s.shouldAck sink.receive.received_size &&
        sink.receive.received_size ≠ s.ota_transfer_last_acked_offset) = true :=
      fun h => hdue (hack.mp h)
    refine ⟨{ s with sink := sink, ota_transfer_last_received_offset := sink.receive.received_size },
      ?_, rfl, hrole, ?_, fun _ => ⟨hhung, rfl⟩⟩
    · rw [if_neg (by exact hif), if_neg hdue]
    · refine hsession _ rfl rfl rfl rfl (UInt32.le_trans hs.last_acked hle) ?_
      have hsettled := hs.settled
      simp only [AckAt, UInt32.lt_iff_toNat_lt, UInt32.le_iff_toNat_le, ← UInt32.toNat_inj,
        ne_eq] at hdue hsettled hle ⊢
      omega

end Accepted

/-- A refused chunk leaves what is received and the acknowledgements alone. -/
theorem chunkRefused_receiving {s : SlaveReception} {t : Transfer} (hs : s.Receiving t)
    (now_ms : UInt32) :
    (s.chunkRefused t.corr_id now_ms).2.Receiving t ∧
      ∀ a ∈ (s.chunkRefused t.corr_id now_ms).1, a.kind = .ChunkNack := by
  have htracked : s.trackedOffset = s.sink.receive.received_size := by
    simp [trackedOffset, OtaManager.contiguousReceiveSize, hs.active, hs.last_received]
  have hle : s.trackedOffset ≤ s.sink.receive.received_size := by
    rw [htracked]
    exact UInt32.le_refl _
  unfold chunkRefused
  dsimp only
  split
  · exact ⟨{ hs with last_received := hle }, by simp⟩
  · exact ⟨{ hs with last_received := hle }, by simp⟩

theorem chunkRefused_sink (s : SlaveReception) (corr_id now_ms : UInt32) :
    (s.chunkRefused corr_id now_ms).2.sink = s.sink ∧
      (s.chunkRefused corr_id now_ms).2.local_role = s.local_role := by
  unfold chunkRefused
  dsimp only
  split <;> exact ⟨rfl, rfl⟩

/-- The spec of a refused chunk of a session that is not stale. -/
theorem handleFirmwareChunk_refused {s : SlaveReception} {t : Transfer}
    (hrole : s.local_role = .Slave) (hs : s.Receiving t) (hhung : ¬ s.hung = true) {offset : UInt32}
    {data : Bytes} {now_s : UInt32} (hlive : s.sink.expireReceiveIfStale now_s = s.sink)
    (hrefusal : s.sink.chunkRefusal offset data ≠ none) (now_ms : UInt32) :
    ∃ out s', s.handleFirmwareChunk t.sender t.corr_id offset data now_s now_ms = (false, out, s') ∧
      s'.Receiving t ∧ s'.local_role = .Slave ∧
      s'.sink = (s.sink.writeReceiveChunk t.sender t.corr_id offset data now_s).2 ∧
      ∀ a ∈ out, a.kind = .ChunkNack := by
  have hvalid : s.sink.validateSession t.sender t.corr_id = true := by
    simp [OtaManager.validateSession, hs.active, hs.sender, hs.corr_id]
  obtain ⟨⟨code, message⟩, hcode⟩ := Option.ne_none_iff_exists'.mp hrefusal
  have hwrite : s.sink.writeReceiveChunk t.sender t.corr_id offset data now_s
      = (false, s.sink.fail code message) := by
    rw [OtaManager.writeReceiveChunk_live hlive, hvalid, hcode]
    rfl
  have hchunk : s.handleFirmwareChunk t.sender t.corr_id offset data now_s now_ms
      = (false, ({ s with sink := s.sink.fail code message } : SlaveReception).chunkRefused
          t.corr_id now_ms) := by
    unfold handleFirmwareChunk
    rw [if_neg hhung, hwrite]
    exact if_pos ⟨hrole, hs.transfer⟩
  have hs' : ({ s with sink := s.sink.fail code message } : SlaveReception).Receiving t :=
    { hs with }
  have hreceiving := chunkRefused_receiving hs' now_ms
  have hkept := chunkRefused_sink { s with sink := s.sink.fail code message } t.corr_id now_ms
  rcases hrun : ({ s with sink := s.sink.fail code message } : SlaveReception).chunkRefused
    t.corr_id now_ms with ⟨out, s'⟩
  rw [hrun] at hchunk hreceiving hkept
  exact ⟨out, s', hchunk, hreceiving.1, hkept.2.trans hrole, by rw [hwrite, hkept.1],
    hreceiving.2⟩

/-- Once the session is gone the slave takes no chunk. -/
theorem handleFirmwareChunk_inactive {s : SlaveReception} (hrole : s.local_role = .Slave)
    (sender : MacAddress) (corr_id offset : UInt32) (data : Bytes) {now_s : UInt32} (now_ms : UInt32)
    (hgone : (s.sink.expireReceiveIfStale now_s).receive.active = false) (hhung : s.hung = false) :
    (s.handleFirmwareChunk sender corr_id offset data now_s now_ms).2.2.local_role = .Slave ∧
      (s.handleFirmwareChunk sender corr_id offset data now_s now_ms).2.2.sink.receive.active
        = false := by
  have hwrite : s.sink.writeReceiveChunk sender corr_id offset data now_s
      = (false, s.sink.expireReceiveIfStale now_s) := by
    unfold OtaManager.writeReceiveChunk
    dsimp only
    rw [if_pos (by simp [OtaManager.validateSession, hgone])]
  unfold handleFirmwareChunk
  rw [if_neg (by simp [hhung]), hwrite]
  dsimp only
  rw [if_neg (by simp : ¬ false = true)]
  split
  · obtain ⟨hsink, hrole'⟩ := chunkRefused_sink
      { s with sink := s.sink.expireReceiveIfStale now_s } corr_id now_ms
    exact ⟨hrole'.trans hrole, by rw [hsink]; exact hgone⟩
  · exact ⟨hrole, hgone⟩

/-- Every chunk frame of the transfer keeps the invariant, wherever it belongs and however late it
arrives. -/
theorem handleFirmwareChunk_keeps {s : SlaveReception} {t : Transfer} (hs : s.ReceptionInv t)
    (offset : UInt32) (data : Bytes) (now_s now_ms : UInt32) :
    (s.handleFirmwareChunk t.sender t.corr_id offset data now_s now_ms).2.2.ReceptionInv t := by
  by_cases hhung' : s.hung = true
  · unfold handleFirmwareChunk
    rw [if_pos hhung']
    exact hs
  have hhung : s.hung = false := by simpa using hhung'
  rcases s.sink.expireReceiveIfStale_cases now_s with hlive | hgone
  · by_cases hactive : s.sink.receive.active = true
    · have hreceiving := hs.receiving hactive
      by_cases hrefusal : s.sink.chunkRefusal offset data = none
      · obtain ⟨s', heq, -, hrole', hs', -⟩ :=
          handleFirmwareChunk_accepted hs.role hreceiving hhung hlive hrefusal now_ms
        rw [heq]
        exact ⟨hrole', fun _ => hs'⟩
      · obtain ⟨out, s', heq, hs', hrole', -⟩ :=
          handleFirmwareChunk_refused hs.role hreceiving hhung' hlive hrefusal now_ms
        rw [heq]
        exact ⟨hrole', fun _ => hs'⟩
    · rw [Bool.not_eq_true] at hactive
      have hgone : (s.sink.expireReceiveIfStale now_s).receive.active = false := by
        rw [hlive, hactive]
      obtain ⟨hrole', hoff⟩ := handleFirmwareChunk_inactive hs.role t.sender t.corr_id offset
        data now_ms hgone hhung
      exact ⟨hrole', fun h => by rw [hoff] at h; cases h⟩
  · obtain ⟨hrole', hoff⟩ := handleFirmwareChunk_inactive hs.role t.sender t.corr_id offset
      data now_ms hgone hhung
    exact ⟨hrole', fun h => by rw [hoff] at h; cases h⟩

end SlaveReception
end EspNowLink
