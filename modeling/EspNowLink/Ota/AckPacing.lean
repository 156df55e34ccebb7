import EspNowLink.Framework.Wraparound
import EspNowLink.Ota.ChunkCount
import EspNowLink.Ota.FinalizeTruth

open Framework

namespace EspNowLink

open SlaveReception

/-- A chunk frame of a transfer, heard at the sink's and at the manager's time. -/
structure ChunkFrame where
  offset : UInt32
  data : Bytes
  now_s : UInt32
  now_ms : UInt32

/-- A slave in a transfer, with the offsets it has acknowledged in the order it sent them, each beside
the contiguous size it had then. -/
structure Acknowledging where
  slave : SlaveReception
  acked : List (UInt32 × UInt32)

def ackedIn (out : List FirmwareStatus) (s : SlaveReception) : List (UInt32 × UInt32) :=
  (out.filter (·.kind = .ChunkAck)).map fun a => (a.offset_bytes, s.sink.contiguousReceiveSize)

namespace Acknowledging

def hear (t : Transfer) (a : Acknowledging) (c : ChunkFrame) : Acknowledging :=
  let (_, out, s) :=
    a.slave.handleFirmwareChunk t.sender t.corr_id c.offset c.data c.now_s c.now_ms
  ⟨s, a.acked ++ ackedIn out s⟩

def hearAll (t : Transfer) (a : Acknowledging) (frames : List ChunkFrame) : Acknowledging :=
  frames.foldl (hear t) a

/-- The slave is not caught in its loop, and its acknowledgements grow, name only what it had, and lie
below the next threshold. -/
structure WellPaced (a : Acknowledging) : Prop where
  ends : a.slave.hung = false
  increasing : (a.acked.map Prod.fst).Pairwise (· < ·)
  held : ∀ p ∈ a.acked, p.1 ≤ p.2
  ahead : ∀ p ∈ a.acked, p.1 < a.slave.ota_transfer_next_ack_offset

end Acknowledging

/-- The distance between acknowledgements of a transfer. -/
def ackStep (chunk_size : UInt32) : UInt32 := max 1024 (chunk_size * 16)

/-- The end of the image lies above every threshold that the slave's 32-bit counter can take. -/
def OutrunsThreshold (t : Transfer) : Prop :=
  2 ^ 32 ≤ t.total_size.toNat + (ackStep t.chunk_size).toNat.gcd (2 ^ 32)

section Loop

variable {step offset : UInt32}

theorem toNat_add_wrapped (next : UInt32) (k : Nat) :
    wrapped (2 ^ 32) step.toNat (next + step).toNat k = wrapped (2 ^ 32) step.toNat next.toNat (k + 1) := by
  rw [UInt32.toNat_add, wrapped_succ]

/-- The loop stops at the first threshold beyond the offset. -/
theorem advanceNextAck_passes {k : Nat} {next : UInt32} {n : Nat} (hk : k < n)
    (hpass : offset.toNat < wrapped (2 ^ 32) step.toNat next.toNat k) :
    ∃ next' j, advanceNextAck step offset n next = some next' ∧ offset < next' ∧
      next'.toNat = wrapped (2 ^ 32) step.toNat next.toNat j := by
  induction k generalizing next n with
  | zero =>
    obtain ⟨n, rfl⟩ := Nat.exists_eq_succ_of_ne_zero (by omega : n ≠ 0)
    rw [wrapped_zero next.toNat_lt] at hpass
    have hlt : offset < next := UInt32.lt_iff_toNat_lt.mpr hpass
    refine ⟨next, 0, ?_, hlt, (wrapped_zero next.toNat_lt).symm⟩
    rw [advanceNextAck, if_neg (by simp [hlt])]
  | succ k ih =>
    obtain ⟨n, rfl⟩ := Nat.exists_eq_succ_of_ne_zero (by omega : n ≠ 0)
    rw [advanceNextAck]
    split
    · rw [← toNat_add_wrapped] at hpass
      obtain ⟨next', j, hrun, hlt, heq⟩ := ih (Nat.lt_of_succ_lt_succ hk) hpass
      exact ⟨next', j + 1, hrun, hlt, by rw [heq, toNat_add_wrapped]⟩
    · rename_i hstop
      have hlt : offset < next := by
        by_contra hle
        have hstep : step = 0 := by
          by_contra hne
          exact hstop ⟨hne, by simpa using hle⟩
        -- a step of zero stays where it is
        rw [wrapped, hstep, UInt32.toNat_zero, Nat.mul_zero, Nat.add_zero,
          Nat.mod_eq_of_lt next.toNat_lt] at hpass
        exact hle (UInt32.lt_iff_toNat_lt.mpr hpass)
      exact ⟨next, 0, rfl, hlt, (wrapped_zero next.toNat_lt).symm⟩

/-- With all thresholds at or below the offset the loop goes on. -/
theorem advanceNextAck_stuck (hstep : step ≠ 0) {next : UInt32}
    (hall : ∀ k, wrapped (2 ^ 32) step.toNat next.toNat k ≤ offset.toNat) (n : Nat) :
    advanceNextAck step offset n next = none := by
  induction n generalizing next with
  | zero => rfl
  | succ n ih =>
    have hle : next ≤ offset := by
      have h0 := hall 0
      rwa [wrapped_zero next.toNat_lt, ← UInt32.le_iff_toNat_le] at h0
    rw [advanceNextAck, if_pos ⟨hstep, hle⟩]
    refine ih fun k => ?_
    rw [toNat_add_wrapped]
    exact hall (k + 1)

theorem advanceNextAck_ends {next : UInt32} (hgrain : step.toNat.gcd (2 ^ 32) ∣ next.toNat)
    (hroom : offset.toNat + step.toNat.gcd (2 ^ 32) < 2 ^ 32) :
    ∃ next', advanceNextAck step offset ackTurns next = some next' ∧ offset < next' ∧
      step.toNat.gcd (2 ^ 32) ∣ next'.toNat := by
  obtain ⟨k, hk, hpass⟩ := (exists_lt_wrapped_iff hgrain next.toNat_lt).mpr hroom
  have hturns : k < ackTurns := Nat.lt_of_lt_of_le hk (by decide)
  obtain ⟨next', j, hrun, hlt, heq⟩ := advanceNextAck_passes hturns hpass
  exact ⟨next', hrun, hlt, by rw [heq]; exact gcd_dvd_wrapped hgrain j⟩

theorem advanceNextAck_endless {next : UInt32} (hstep : step ≠ 0)
    (hgrain : step.toNat.gcd (2 ^ 32) ∣ next.toNat)
    (hroom : 2 ^ 32 ≤ offset.toNat + step.toNat.gcd (2 ^ 32)) :
    advanceNextAck step offset ackTurns next = none := by
  refine advanceNextAck_stuck hstep (fun k => ?_) _
  have := wrapped_add_gcd_le (by decide : 0 < 2 ^ 32) hgrain k
  omega

theorem ackStep_ne_zero (chunk_size : UInt32) : ackStep chunk_size ≠ 0 := by
  have hmax : ackStep chunk_size = if 1024 ≤ chunk_size * 16 then chunk_size * 16 else 1024 := rfl
  rw [hmax]
  split
  · rename_i hle
    intro hzero
    rw [hzero] at hle
    exact absurd hle (by decide)
  · decide

end Loop

namespace SlaveReception

theorem chunkRefused_pace (s : SlaveReception) (corr_id now_ms : UInt32) :
    (s.chunkRefused corr_id now_ms).2.hung = s.hung ∧
      (s.chunkRefused corr_id now_ms).2.ota_transfer_corr_id = s.ota_transfer_corr_id ∧
      (s.chunkRefused corr_id now_ms).2.ota_transfer_ack_step_bytes = s.ota_transfer_ack_step_bytes ∧
      (s.chunkRefused corr_id now_ms).2.ota_transfer_next_ack_offset = s.ota_transfer_next_ack_offset ∧
      (s.chunkRefused corr_id now_ms).2.ota_transfer_last_acked_offset
        = s.ota_transfer_last_acked_offset ∧
      ackedIn (s.chunkRefused corr_id now_ms).1 (s.chunkRefused corr_id now_ms).2 = [] := by
  unfold chunkRefused
  dsimp only
  split
  · exact ⟨rfl, rfl, rfl, rfl, rfl, rfl⟩
  · exact ⟨rfl, rfl, rfl, rfl, rfl, by simp [ackedIn]⟩

/-- A chunk of the transfer that a slave follows: the sink answers, and the slave with it. -/
theorem handleFirmwareChunk_tracked {s : SlaveReception} {corr_id : UInt32}
    (hrole : s.local_role = .Slave) (hcorr : s.ota_transfer_corr_id = corr_id) (hhung : s.hung = false)
    (sender : MacAddress) (offset : UInt32) (data : Bytes) (now_s now_ms : UInt32) :
    s.handleFirmwareChunk sender corr_id offset data now_s now_ms =
      let (ok, sink) := s.sink.writeReceiveChunk sender corr_id offset data now_s
      (ok, if ok then ({ s with sink := sink } : SlaveReception).chunkAccepted corr_id
        else ({ s with sink := sink } : SlaveReception).chunkRefused corr_id now_ms) := by
  unfold handleFirmwareChunk
  rw [if_neg (by simp [hhung])]
  dsimp only
  rw [if_pos ⟨hrole, hcorr⟩]

theorem chunkAccepted_cases (s : SlaveReception) (corr_id : UInt32) :
    s.chunkAccepted corr_id = ([], { s with ota_transfer_last_received_offset := s.trackedOffset }) ∨
    s.trackedOffset ≠ s.ota_transfer_last_acked_offset ∧
      s.chunkAccepted corr_id = ([⟨.ChunkAck, corr_id, s.trackedOffset, .Ok⟩],
        ({ s with ota_transfer_last_received_offset := s.trackedOffset } :
          SlaveReception).noteAcked s.trackedOffset) := by
  unfold chunkAccepted
  dsimp only
  split
  · rename_i hdue
    simp only [Bool.and_eq_true, ne_eq, decide_eq_true_eq] at hdue
    exact .inr ⟨hdue.2, rfl⟩
  · exact .inl rfl

end SlaveReception

/-- The thresholds of the transfer `t` stay on their grid and ahead of what is acknowledged. -/
structure Pacing (t : Transfer) (a : Acknowledging) : Prop where
  reception : a.slave.ReceptionInv t
  transfer : a.slave.ota_transfer_corr_id = t.corr_id
  step : a.slave.ota_transfer_ack_step_bytes = ackStep t.chunk_size
  grain : (ackStep t.chunk_size).toNat.gcd (2 ^ 32) ∣ a.slave.ota_transfer_next_ack_offset.toNat
  reached : a.slave.ota_transfer_last_acked_offset < a.slave.ota_transfer_next_ack_offset
  latest : ∀ p ∈ a.acked, p.1 ≤ a.slave.ota_transfer_last_acked_offset
  ends : a.slave.hung = false
  increasing : (a.acked.map Prod.fst).Pairwise (· < ·)
  held : ∀ p ∈ a.acked, p.1 ≤ p.2

namespace Pacing

variable {t : Transfer} {a : Acknowledging}

theorem wellPaced (h : Pacing t a) : a.WellPaced :=
  ⟨h.ends, h.increasing, h.held, fun p hp => UInt32.lt_of_le_of_lt (h.latest p hp) h.reached⟩

/-- Chunks that leave the acknowledgements as they are keep the pace. -/
theorem of_same (h : Pacing t a) {s : SlaveReception} (hs : s.ReceptionInv t)
    (hhung : s.hung = a.slave.hung) (hcorr : s.ota_transfer_corr_id = a.slave.ota_transfer_corr_id)
    (hstep : s.ota_transfer_ack_step_bytes = a.slave.ota_transfer_ack_step_bytes)
    (hnext : s.ota_transfer_next_ack_offset = a.slave.ota_transfer_next_ack_offset)
    (hacked : s.ota_transfer_last_acked_offset = a.slave.ota_transfer_last_acked_offset) :
    Pacing t ⟨s, a.acked⟩ where
  reception := hs
  transfer := hcorr.trans h.transfer
  step := hstep.trans h.step
  grain := by rw [hnext]; exact h.grain
  reached := by rw [hacked, hnext]; exact h.reached
  latest p hp := by rw [hacked]; exact h.latest p hp
  ends := hhung.trans h.ends
  increasing := h.increasing
  held := h.held

/-- An acknowledgement of more than the last one, below the end of the counter. -/
theorem acknowledge (h : Pacing t a) {s : SlaveReception} {sink : OtaManager} {offset : UInt32}
    (hs : s = ({ a.slave with
      sink := sink, ota_transfer_last_received_offset := offset } : SlaveReception).noteAcked offset)
    (hinv : s.ReceptionInv t) (hmore : a.slave.ota_transfer_last_acked_offset < offset)
    (hheld : offset ≤ sink.contiguousReceiveSize)
    (hroom : offset.toNat + (ackStep t.chunk_size).toNat.gcd (2 ^ 32) < 2 ^ 32) :
    Pacing t ⟨s, a.acked ++ [(offset, sink.contiguousReceiveSize)]⟩ := by
  obtain ⟨next, hnext, hlt, hgrain⟩ := advanceNextAck_ends h.grain hroom
  have hnoted : s = { a.slave with
      sink := sink
      ota_transfer_last_received_offset := offset
      ota_transfer_last_acked_offset := offset
      ota_transfer_next_ack_offset := next } := by
    rw [hs]
    unfold SlaveReception.noteAcked
    dsimp only
    rw [h.step, hnext]
  have hbefore : ∀ p ∈ a.acked, p.1 < offset :=
    fun p hp => UInt32.lt_of_le_of_lt (h.latest p hp) hmore
  exact {
    reception := hinv
    transfer := by rw [hnoted]; exact h.transfer
    step := by rw [hnoted]; exact h.step
    grain := by rw [hnoted]; exact hgrain
    reached := by rw [hnoted]; exact hlt
    latest := by
      intro p hp
      rw [hnoted]
      rcases List.mem_append.mp hp with hold | hnew
      · exact UInt32.le_of_lt (hbefore p hold)
      · rw [List.mem_singleton.mp hnew]
        exact UInt32.le_refl _
    ends := by rw [hnoted]; exact h.ends
    increasing := by
      rw [List.map_append, List.pairwise_append]
      refine ⟨h.increasing, by simp, fun x hx y hy => ?_⟩
      obtain ⟨p, hp, rfl⟩ := List.mem_map.mp hx
      obtain rfl : y = offset := by simpa using hy
      exact hbefore p hp
    held := by
      intro p hp
      rcases List.mem_append.mp hp with hold | hnew
      · exact h.held p hold
      · rw [List.mem_singleton.mp hnew]
        exact hheld }

/-- What a slave at work on the transfer has is part of the image. -/
theorem received_le_total {s : SlaveReception} (hs : s.Receiving t) :
    s.sink.receive.received_size.toNat ≤ t.total_size.toNat := by
  rw [hs.sound.received, ← hs.expected]
  exact Nat.min_le_right _ _

/-- Every chunk frame keeps the pace of a transfer that does not outrun the thresholds. -/
theorem hear (h : Pacing t a) (hroom : ¬ OutrunsThreshold t) (c : ChunkFrame) :
    Pacing t (a.hear t c) := by
  have hkeeps := handleFirmwareChunk_keeps h.reception c.offset c.data c.now_s c.now_ms
  have htracked := handleFirmwareChunk_tracked h.reception.role h.transfer h.ends t.sender c.offset
    c.data c.now_s c.now_ms
  unfold Acknowledging.hear
  rcases hwrite : a.slave.sink.writeReceiveChunk t.sender t.corr_id c.offset c.data c.now_s with
    ⟨ok, sink⟩
  rw [hwrite] at htracked
  dsimp only at htracked
  rcases writeReceiveChunk_cases a.slave.sink ⟨t.sender, t.corr_id, c.offset, c.data, c.now_s⟩ hwrite
    with ⟨rfl, -, -⟩ | ⟨rfl, hactive, hrefusal, hsink⟩
  · -- refused: at most a negative acknowledgement goes out
    rw [if_neg Bool.false_ne_true] at htracked
    obtain ⟨hhung, hcorr, hstep, hnext, hacked, hnone⟩ :=
      chunkRefused_pace { a.slave with sink := sink } t.corr_id c.now_ms
    rw [htracked] at hkeeps ⊢
    dsimp only
    rw [hnone, List.append_nil]
    exact h.of_same hkeeps hhung hcorr hstep hnext hacked
  · rw [if_pos rfl] at htracked
    have hs := h.reception.receiving hactive
    have hreceives := OtaManager.acceptChunk_receives hs.sound hrefusal c.now_s
    dsimp only at hsink hreceives
    rw [← hsink] at hreceives
    have hle := hreceives.received_le hs.sound
    have hsize : sink.contiguousReceiveSize = sink.receive.received_size :=
      contiguousReceiveSize_active (hreceives.active.trans hactive)
    have hoffset : ({ a.slave with sink := sink } : SlaveReception).trackedOffset
        = sink.receive.received_size := by
      have hlast := UInt32.le_trans hs.last_received hle
      simp [trackedOffset, hsize, hlast]
    rcases chunkAccepted_cases { a.slave with sink := sink } t.corr_id with hquiet | ⟨hnew, hack⟩
    · rw [htracked, hquiet] at hkeeps ⊢
      dsimp only at hkeeps ⊢
      rw [show ackedIn [] _ = [] from rfl, List.append_nil]
      exact h.of_same hkeeps rfl rfl rfl rfl rfl
    · rw [hoffset] at hnew hack
      rw [htracked, hack] at hkeeps ⊢
      dsimp only at hkeeps ⊢
      obtain ⟨hkept, -⟩ := noteAcked_fields { a.slave with
        sink := sink, ota_transfer_last_received_offset := sink.receive.received_size }
        sink.receive.received_size
      have hreceiving := hkeeps.receiving (by rw [hkept]; exact hreceives.active.trans hactive)
      have htotal : sink.receive.received_size.toNat ≤ t.total_size.toNat := by
        have h := received_le_total hreceiving
        rw [hkept] at h
        exact h
      have hmore : a.slave.ota_transfer_last_acked_offset < sink.receive.received_size :=
        UInt32.lt_of_le_of_ne (UInt32.le_trans hs.last_acked hle) (Ne.symm hnew)
      unfold OutrunsThreshold at hroom
      have hpace := h.acknowledge rfl hkeeps hmore (by rw [hsize]; exact UInt32.le_refl _) (by omega)
      have hlist : ackedIn [⟨.ChunkAck, t.corr_id, sink.receive.received_size, .Ok⟩]
          (({ a.slave with
            sink := sink, ota_transfer_last_received_offset := sink.receive.received_size } :
            SlaveReception).noteAcked sink.receive.received_size)
            = [(sink.receive.received_size, sink.contiguousReceiveSize)] := by
        simp [ackedIn, hkept]
      rw [hlist]
      exact hpace

/-- A slave that starts such a transfer is on pace, if the session fits together. -/
theorem started {s : SlaveReception} {crc now_s : UInt32} (hrole : s.local_role = .Slave)
    (hhung : s.hung = false)
    (hfresh : s.sink.receive =
      OtaManager.freshSession t.sender t.corr_id t.total_size t.chunk_size crc now_s)
    (hsound : s.sink.receive.Sound) (hroom : s.sink.hasRoom t.total_size = true) :
    Pacing t ⟨s.clearFinalize.startTransfer t.corr_id t.total_size t.chunk_size, [(0, 0)]⟩ where
  reception := ⟨hrole, fun _ => startTransfer_receiving hfresh hsound hroom⟩
  transfer := rfl
  step := rfl
  grain := Nat.gcd_dvd_left _ _
  reached := UInt32.lt_of_le_of_ne (UInt32.zero_le) (Ne.symm (ackStep_ne_zero t.chunk_size))
  latest p hp := by
    rw [List.mem_singleton.mp hp]
    exact UInt32.le_refl _
  ends := hhung
  increasing := by simp
  held p hp := by
    rw [List.mem_singleton.mp hp]
    exact UInt32.le_refl _

theorem hearAll (h : Pacing t a) (hroom : ¬ OutrunsThreshold t) (frames : List ChunkFrame) :
    Pacing t (a.hearAll t frames) := by
  induction frames generalizing a with
  | nil => exact h
  | cons c frames ih => exact ih (h.hear hroom c)

end Pacing

/-- A session that can record no chunk: the count or the size of the bitmap has wrapped to zero. -/
def RecordsNone (r : ReceiveSession) : Prop := r.chunk_count = 0 ∨ r.chunk_bitmap = []

namespace RecordsNone

variable {r : ReceiveSession}

theorem isChunkReceived (h : RecordsNone r) (i : UInt32) : r.isChunkReceived i = false := by
  unfold ReceiveSession.isChunkReceived
  split
  · rfl
  · rename_i hlt
    rcases h with hcount | hbitmap
    · exact absurd (by rw [hcount]; exact UInt32.zero_le) hlt
    · rw [hbitmap]
      rfl

theorem markChunkReceived (h : RecordsNone r) (i : UInt32) : RecordsNone (r.markChunkReceived i) := by
  unfold ReceiveSession.markChunkReceived
  split
  · exact h
  · rcases h with hcount | hbitmap
    · exact .inl hcount
    · exact .inr (by simp [hbitmap])

theorem refresh (h : RecordsNone r) (hzero : r.received_size = 0) :
    RecordsNone r.refreshContiguousReceived ∧ r.refreshContiguousReceived.received_size = 0 := by
  unfold ReceiveSession.refreshContiguousReceived
  split
  · exact ⟨h, rfl⟩
  · refine ⟨h, ?_⟩
    dsimp only
    rw [ReceiveSession.contiguousFrom, hzero]
    split
    · simp [h.isChunkReceived]
    · rfl

theorem accept {m : OtaManager} (h : RecordsNone m.receive) (hzero : m.receive.received_size = 0)
    (offset : UInt32) (data : Bytes) (now_s : UInt32) :
    RecordsNone (m.acceptChunk offset data now_s).receive ∧
      (m.acceptChunk offset data now_s).receive.received_size = 0 := by
  unfold OtaManager.acceptChunk
  dsimp only
  rw [if_neg (by simp [h.isChunkReceived])]
  refine refresh ?_ ?_
  · exact h.markChunkReceived _
  · unfold ReceiveSession.markChunkReceived
    split <;> exact hzero

/-- The session of a begin whose sums do not fit. -/
theorem freshSession {sender : MacAddress} {corr_id total_size chunk_size crc now_s : UInt32}
    (hchunk : chunk_size ≠ 0) (hwrap : ¬ CountFits total_size chunk_size) :
    RecordsNone (OtaManager.freshSession sender corr_id total_size chunk_size crc now_s) := by
  have hpos := toNat_pos hchunk
  have ht := total_size.toNat_lt
  have hc := chunk_size.toNat_lt
  rcases Nat.lt_or_ge (2 ^ 32) (total_size.toNat + chunk_size.toNat) with hover | hfit
  · left
    change (total_size + chunk_size - 1) / chunk_size = 0
    apply UInt32.toNat_inj.mp
    rw [ReceiveSession.chunk_count_eq hpos, UInt32.toNat_zero]
    exact Nat.div_eq_of_lt (by omega)
  · right
    have hcount := chunk_count_ceil hpos hfit
    have hmany : 2 ^ 32 ≤ total_size.toNat ⌈/⌉ chunk_size.toNat + 7 := by
      by_contra h
      exact hwrap ⟨hfit, by omega⟩
    rw [← hcount] at hmany
    change List.replicate (8 * (((total_size + chunk_size - 1) / chunk_size + 7) / 8).toNat) false = []
    generalize (total_size + chunk_size - 1) / chunk_size = count at hmany
    have hlt := count.toNat_lt
    have hzero : ((count + 7) / 8).toNat = 0 := by
      rw [UInt32.toNat_div, UInt32.toNat_add, show (7 : UInt32).toNat = 7 by decide,
        show (8 : UInt32).toNat = 8 by decide]
      omega
    rw [hzero]
    rfl

end RecordsNone

/-- A slave whose session records nothing has acknowledged the begin frame only. -/
structure Unmoved (t : Transfer) (a : Acknowledging) : Prop where
  role : a.slave.local_role = .Slave
  transfer : a.slave.ota_transfer_corr_id = t.corr_id
  received : a.slave.ota_transfer_last_received_offset = 0
  last : a.slave.ota_transfer_last_acked_offset = 0
  next : 0 < a.slave.ota_transfer_next_ack_offset
  ends : a.slave.hung = false
  acked : a.acked = [(0, 0)]
  session : a.slave.sink.receive.active = true →
    RecordsNone a.slave.sink.receive ∧ a.slave.sink.receive.received_size = 0

namespace Unmoved

variable {t : Transfer} {a : Acknowledging}

theorem wellPaced (h : Unmoved t a) : a.WellPaced := by
  refine ⟨h.ends, ?_, ?_, ?_⟩ <;> rw [h.acked]
  · simp
  · intro p hp
    rw [List.mem_singleton.mp hp]
    exact UInt32.le_refl _
  · intro p hp
    rw [List.mem_singleton.mp hp]
    exact h.next

theorem contiguous {m : OtaManager} (h : m.receive.active = true → m.receive.received_size = 0) :
    m.contiguousReceiveSize = 0 := by
  unfold OtaManager.contiguousReceiveSize
  split
  · rename_i hactive
    exact h hactive
  · rfl

theorem started {s : SlaveReception} (hrole : s.local_role = .Slave) (hhung : s.hung = false)
    {sink : OtaManager} (hnone : RecordsNone sink.receive) (hzero : sink.receive.received_size = 0) :
    Unmoved t ⟨(({ s with sink := sink } : SlaveReception).clearFinalize).startTransfer t.corr_id
      t.total_size t.chunk_size, [(0, 0)]⟩ where
  role := hrole
  transfer := rfl
  received := rfl
  last := rfl
  next := UInt32.lt_of_le_of_ne UInt32.zero_le (Ne.symm (ackStep_ne_zero t.chunk_size))
  ends := hhung
  acked := rfl
  session _ := ⟨hnone, hzero⟩

theorem hear (h : Unmoved t a) (c : ChunkFrame) : Unmoved t (a.hear t c) := by
  have htracked := handleFirmwareChunk_tracked h.role h.transfer h.ends t.sender c.offset c.data
    c.now_s c.now_ms
  unfold Acknowledging.hear
  rcases hwrite : a.slave.sink.writeReceiveChunk t.sender t.corr_id c.offset c.data c.now_s with
    ⟨ok, sink⟩
  rw [hwrite] at htracked
  dsimp only at htracked
  have hsession : sink.receive.active = true →
      RecordsNone sink.receive ∧ sink.receive.received_size = 0 := by
    intro hactive
    rcases writeReceiveChunk_cases a.slave.sink ⟨t.sender, t.corr_id, c.offset, c.data, c.now_s⟩ hwrite
      with ⟨-, -, hsame | hgone⟩ | ⟨-, hopen, -, rfl⟩
    · rw [hsame] at hactive ⊢
      exact h.session hactive
    · rw [hgone] at hactive
      cases hactive
    · obtain ⟨hnone, hzero⟩ := h.session hopen
      exact hnone.accept hzero c.offset c.data c.now_s
  have hoffset : ({ a.slave with sink := sink } : SlaveReception).trackedOffset = 0 := by
    have hzero := contiguous fun hactive => (hsession hactive).2
    simp [trackedOffset, hzero, h.received]
  cases ok with
  | false =>
    rw [if_neg Bool.false_ne_true] at htracked
    obtain ⟨hhung, hcorr, -, hnext, hacked, hnone⟩ :=
      chunkRefused_pace { a.slave with sink := sink } t.corr_id c.now_ms
    obtain ⟨hsink, hrole⟩ := chunkRefused_sink { a.slave with sink := sink } t.corr_id c.now_ms
    obtain ⟨hreceived, -, -⟩ := chunkRefused_reports { a.slave with sink := sink } t c.now_ms
    rw [htracked]
    dsimp only
    rw [hnone, List.append_nil]
    exact {
      role := hrole.trans h.role
      transfer := hcorr.trans h.transfer
      received := hreceived.trans hoffset
      last := hacked.trans h.last
      next := by rw [hnext]; exact h.next
      ends := hhung.trans h.ends
      acked := h.acked
      session := by rw [hsink]; exact hsession }
  | true =>
    rw [if_pos rfl] at htracked
    rcases chunkAccepted_cases { a.slave with sink := sink } t.corr_id with hquiet | ⟨hnew, -⟩
    · rw [htracked, hquiet]
      dsimp only
      rw [show ackedIn [] _ = [] from rfl, List.append_nil]
      exact ⟨h.role, h.transfer, hoffset, h.last, h.next, h.ends, h.acked, hsession⟩
    · exact absurd (hoffset.trans h.last.symm) hnew

theorem hearAll (h : Unmoved t a) (frames : List ChunkFrame) : Unmoved t (a.hearAll t frames) := by
  induction frames generalizing a with
  | nil => exact h
  | cons c frames ih => exact ih (h.hear c)

end Unmoved

/-- The frame of chunk `k`, with zeros for data. -/
def chunkFrame (r : ReceiveSession) (k : Nat) : ChunkFrame where
  offset := (r.boundary k).toUInt32
  data := List.replicate (r.boundary (k + 1) - r.boundary k) 0
  now_s := 0
  now_ms := 0

/-- The slave has the first `k` chunks of the session `r`, and its loop has always ended so far. -/
structure Filled (t : Transfer) (r : ReceiveSession) (k : Nat) (a : Acknowledging) : Prop where
  role : a.slave.local_role = .Slave
  receiving : a.slave.Receiving t
  step : a.slave.ota_transfer_ack_step_bytes = ackStep t.chunk_size
  grain : (ackStep t.chunk_size).toNat.gcd (2 ^ 32) ∣ a.slave.ota_transfer_next_ack_offset.toNat
  ends : a.slave.hung = false
  sizes : a.slave.sink.receive.boundary = r.boundary
  count : a.slave.sink.receive.chunk_count = r.chunk_count
  got : ∀ i, a.slave.sink.receive.got i = decide (i < k)

namespace Filled

variable {t : Transfer} {r : ReceiveSession} {k : Nat} {a : Acknowledging}

/-- A loop that ends leaves the threshold on its grid; without room it does not end. -/
theorem noteAcked_grid {s : SlaveReception} (hstep : s.ota_transfer_ack_step_bytes = ackStep t.chunk_size)
    (hgrain : (ackStep t.chunk_size).toNat.gcd (2 ^ 32) ∣ s.ota_transfer_next_ack_offset.toNat)
    (hends : s.hung = false) (offset : UInt32) :
    ((s.noteAcked offset).hung = true ∨
      (s.noteAcked offset).hung = false ∧
      (s.noteAcked offset).ota_transfer_ack_step_bytes = ackStep t.chunk_size ∧
      (ackStep t.chunk_size).toNat.gcd (2 ^ 32) ∣ (s.noteAcked offset).ota_transfer_next_ack_offset.toNat) ∧
    (2 ^ 32 ≤ offset.toNat + (ackStep t.chunk_size).toNat.gcd (2 ^ 32) →
      (s.noteAcked offset).hung = true) := by
  unfold noteAcked
  rw [hstep]
  rcases Nat.lt_or_ge (offset.toNat + (ackStep t.chunk_size).toNat.gcd (2 ^ 32)) (2 ^ 32) with
    hroom | hover
  · obtain ⟨next, hnext, -, hdvd⟩ := advanceNextAck_ends hgrain hroom
    rw [hnext]
    exact ⟨.inr ⟨hends, rfl, hdvd⟩, fun h => by omega⟩
  · rw [advanceNextAck_endless (ackStep_ne_zero t.chunk_size) hgrain hover]
    exact ⟨.inl rfl, fun _ => rfl⟩

theorem count_pos {sender : MacAddress} {corr_id crc now_s : UInt32} (htotal : t.total_size ≠ 0)
    (hchunk : t.chunk_size ≠ 0) (hfits : CountFits t.total_size t.chunk_size) :
    0 < (OtaManager.freshSession sender corr_id t.total_size t.chunk_size crc now_s).chunk_count.toNat := by
  have hpos := toNat_pos hchunk
  have htotal' := toNat_pos htotal
  change 0 < ((t.total_size + t.chunk_size - 1) / t.chunk_size).toNat
  rw [chunk_count_ceil hpos hfits.1, Nat.ceilDiv_eq_add_pred_div]
  exact Nat.div_pos (by omega) hpos

/-- A slave that has just started has no chunk. -/
theorem started {s : SlaveReception} {sink : OtaManager} {crc now_s : UInt32}
    (hrole : s.local_role = .Slave) (hhung : s.hung = false)
    (hfresh : sink.receive =
      OtaManager.freshSession t.sender t.corr_id t.total_size t.chunk_size crc now_s)
    (hsound : (OtaManager.freshSession t.sender t.corr_id t.total_size t.chunk_size crc now_s).Sound)
    (hroom : sink.hasRoom t.total_size = true) (acked : List (UInt32 × UInt32)) :
    Filled t (OtaManager.freshSession t.sender t.corr_id t.total_size t.chunk_size crc now_s) 0
      ⟨(({ s with sink := sink } : SlaveReception).clearFinalize).startTransfer t.corr_id t.total_size
        t.chunk_size, acked⟩ where
  role := hrole
  receiving := startTransfer_receiving (s := { s with sink := sink }) hfresh
    (by rw [hfresh]; exact hsound) hroom
  step := rfl
  grain := Nat.gcd_dvd_left _ _
  ends := hhung
  sizes := by
    change sink.receive.boundary = _
    rw [hfresh]
  count := by
    change sink.receive.chunk_count = _
    rw [hfresh]
  got i := by
    change sink.receive.got i = _
    rw [hfresh, freshSession_got]
    simp

theorem received (h : Filled t r k a) (hk : k < r.chunk_count.toNat) :
    a.slave.sink.receive.received_size.toNat = r.boundary k := by
  have hrun : runEnd a.slave.sink.receive.got a.slave.sink.receive.chunk_count.toNat 0 = k := by
    rw [runEnd_of_covered (Nat.zero_le k) (by rw [h.count]; omega) fun i _ hi => by
      rw [h.got, decide_eq_true_eq]
      exact hi]
    exact runEnd_stop (by rw [h.got]; simp)
  rw [h.receiving.sound.received, hrun, h.sizes]

/-- The next chunk is taken, and the last one of an image that outruns the thresholds is the slave's
last. -/
theorem hear (h : Filled t r k a) (hk : k < r.chunk_count.toNat) :
    (a.hear t (chunkFrame r k)).slave.hung = true ∨
      Filled t r (k + 1) (a.hear t (chunkFrame r k)) ∧
        ¬ (k + 1 = r.chunk_count.toNat ∧ OutrunsThreshold t) := by
  have hs := h.receiving
  have hbound := hs.sound.toShaped.boundary_lt (i := k) (by rw [h.count]; exact hk)
  have hsmall : r.boundary k < 2 ^ 32 := by
    rw [← h.sizes, hbound.1]
    have := a.slave.sink.receive.expected_size.toNat_lt
    omega
  have hoffset : (chunkFrame r k).offset.toNat = r.boundary k := by
    change (r.boundary k).toUInt32.toNat = _
    rw [Nat.toUInt32_eq, UInt32.toNat_ofNat']
    exact Nat.mod_eq_of_lt hsmall
  have hrefusal : a.slave.sink.chunkRefusal (chunkFrame r k).offset (chunkFrame r k).data = none := by
    refine OtaManager.chunkRefusal_whole hs.sound (by rw [hs.expected]; exact hs.room) (i := k)
      (by rw [h.count]; exact hk) (by rw [hoffset, h.sizes]) ?_
    rw [h.sizes]
    exact List.length_replicate
  have hlive : a.slave.sink.expireReceiveIfStale (chunkFrame r k).now_s = a.slave.sink := by
    simp [OtaManager.expireReceiveIfStale, chunkFrame]
  have hvalid : a.slave.sink.validateSession t.sender t.corr_id = true := by
    simp [OtaManager.validateSession, hs.active, hs.sender, hs.corr_id]
  have hwrite : a.slave.sink.writeReceiveChunk t.sender t.corr_id (chunkFrame r k).offset
      (chunkFrame r k).data (chunkFrame r k).now_s = (true, a.slave.sink.acceptChunk
        (chunkFrame r k).offset (chunkFrame r k).data (chunkFrame r k).now_s) := by
    rw [OtaManager.writeReceiveChunk_live hlive, hvalid, hrefusal]
    rfl
  have htracked := handleFirmwareChunk_tracked h.role hs.transfer h.ends t.sender
    (chunkFrame r k).offset (chunkFrame r k).data (chunkFrame r k).now_s (chunkFrame r k).now_ms
  have hkeeps := handleFirmwareChunk_keeps ⟨h.role, fun _ => hs⟩ (chunkFrame r k).offset
    (chunkFrame r k).data (chunkFrame r k).now_s (chunkFrame r k).now_ms
  have hreceives := OtaManager.acceptChunk_receives hs.sound hrefusal (chunkFrame r k).now_s
  rw [hwrite] at htracked
  dsimp only at htracked
  rw [if_pos rfl] at htracked
  have hindex : (chunkFrame r k).offset.toNat / a.slave.sink.receive.chunk_size.toNat = k := by
    rw [hoffset, ← h.sizes, hbound.1]
    exact Nat.mul_div_cancel _ hs.sound.chunk_pos
  rw [hindex] at hreceives
  unfold Acknowledging.hear
  generalize a.slave.sink.acceptChunk (chunkFrame r k).offset (chunkFrame r k).data
    (chunkFrame r k).now_s = sink at htracked hreceives
  have hgot : ∀ i, sink.receive.got i = decide (i < k + 1) := by
    intro i
    rw [hreceives.got, h.got, ← Bool.decide_or]
    congr 1
    apply propext
    omega
  have hsizes : sink.receive.boundary = r.boundary := by
    rw [← h.sizes]
    funext i
    simp only [ReceiveSession.boundary, hreceives.expected_size, hreceives.chunk_size]
  have hcount : sink.receive.chunk_count = r.chunk_count := hreceives.chunk_count.trans h.count
  have hle := hreceives.received_le hs.sound
  have htrackedOffset : ({ a.slave with sink := sink } : SlaveReception).trackedOffset
      = sink.receive.received_size := by
    have hlast := UInt32.le_trans hs.last_received hle
    simp [trackedOffset, contiguousReceiveSize_active (hreceives.active.trans hs.active), hlast]
  rw [htracked] at hkeeps ⊢
  dsimp only at hkeeps ⊢
  -- at the end of the image the tail is acknowledged
  have htail : k + 1 = r.chunk_count.toNat → sink.receive.received_size = t.total_size := by
    intro hlast
    have hrun : Framework.runEnd sink.receive.got sink.receive.chunk_count.toNat 0
        = sink.receive.chunk_count.toNat := by
      rw [runEnd_of_covered (Nat.zero_le _) (Nat.le_refl _) fun i _ hi => by
        rw [hgot, decide_eq_true_eq, hlast, ← hcount]
        exact hi]
      exact runEnd_stop (by omega)
    apply UInt32.toNat_inj.mp
    rw [hreceives.sound.received, hrun,
      hreceives.sound.toShaped.boundary_count (by rw [hcount]; omega), hreceives.expected_size, hs.expected]
  have hfilled : ∀ s' : SlaveReception, s'.sink = sink → s'.ReceptionInv t → s'.hung = false →
      s'.ota_transfer_ack_step_bytes = ackStep t.chunk_size →
      (ackStep t.chunk_size).toNat.gcd (2 ^ 32) ∣ s'.ota_transfer_next_ack_offset.toNat →
      ∀ acked, Filled t r (k + 1) ⟨s', acked⟩ := by
    intro s' hsink hinv hends hstep hgrain acked
    have hactive : s'.sink.receive.active = true := by
      rw [hsink]
      exact hreceives.active.trans hs.active
    exact ⟨hinv.role, hinv.receiving hactive, hstep, hgrain, hends, by rw [hsink]; exact hsizes,
      by rw [hsink]; exact hcount, by rw [hsink]; exact hgot⟩
  rcases chunkAccepted_cases { a.slave with sink := sink } t.corr_id with hquiet | ⟨-, hack⟩
  · rw [hquiet] at hkeeps ⊢
    refine .inr ⟨hfilled _ rfl hkeeps h.ends h.step h.grain _, ?_⟩
    rintro ⟨hlast, -⟩
    -- the whole image is always worth an acknowledgement
    have hinv := hkeeps.receiving (hreceives.active.trans hs.active)
    rcases hinv.settled with hacked | ⟨-, hopen⟩
    · have hbefore := UInt32.le_iff_toNat_le.mp hs.last_acked
      have hreceived := congrArg UInt32.toNat (hacked.trans (htail hlast))
      rw [h.received hk] at hbefore
      dsimp only at hreceived
      rw [hs.expected, ← h.sizes, hbound.1] at *
      omega
    · exact hopen (htail hlast)
  · rw [htrackedOffset] at hack
    rw [hack] at hkeeps ⊢
    obtain ⟨hcases, hover⟩ := noteAcked_grid (t := t) (s := { a.slave with
      sink := sink, ota_transfer_last_received_offset := sink.receive.received_size })
      h.step h.grain h.ends sink.receive.received_size
    obtain ⟨hsink, -⟩ := noteAcked_fields { a.slave with
      sink := sink, ota_transfer_last_received_offset := sink.receive.received_size }
      sink.receive.received_size
    rcases hcases with hhung | ⟨hends, hstep, hgrain⟩
    · exact .inl hhung
    · refine .inr ⟨hfilled _ hsink hkeeps hends hstep hgrain _, ?_⟩
      rintro ⟨hlast, houtruns⟩
      rw [hover (by rw [htail hlast]; exact houtruns)] at hends
      cases hends

/-- Hearing the chunks one after the other catches the slave in its loop. -/
theorem exists_hung (h : Filled t r k a) (hk : k < r.chunk_count.toNat) (hout : OutrunsThreshold t) :
    ∃ frames, (a.hearAll t frames).slave.hung = true := by
  induction hleft : r.chunk_count.toNat - k generalizing k a with
  | zero => omega
  | succ n ih =>
    rcases h.hear hk with hhung | ⟨hnext, hmore⟩
    · exact ⟨[chunkFrame r k], hhung⟩
    · have hk' : k + 1 < r.chunk_count.toNat := by
        rcases Nat.lt_or_ge (k + 1) r.chunk_count.toNat with hlt | hge
        · exact hlt
        · exact absurd ⟨by omega, hout⟩ hmore
      obtain ⟨frames, hhung⟩ := ih hnext hk' (by omega)
      exact ⟨chunkFrame r k :: frames, hhung⟩

end Filled

section Begin

variable {s s' : SlaveReception} {t : Transfer} {payload : Bytes} {crc : UInt32}
  {metadata : FirmwareImageMetadata} {env : BeginEnvironment} {out : List FirmwareStatus}

/-- An accepted begin frame starts the transfer it announces over a fresh session. -/
theorem begin_started (hrole : s.local_role = .Slave)
    (hparse : parseFirmwareBegin payload = some (t.total_size, t.chunk_size, crc, metadata))
    (hbegin : s.handleFirmwareBegin t.sender t.corr_id payload env = (true, out, s')) :
    ∃ sink : OtaManager, (s.sink.beginReceive t.sender t.corr_id t.total_size t.chunk_size crc metadata env).2
        = sink ∧
      sink.receive = OtaManager.freshSession t.sender t.corr_id t.total_size
        t.chunk_size crc env.now_epoch_s ∧
      sink.hasRoom t.total_size = true ∧ t.total_size ≠ 0 ∧ t.chunk_size ≠ 0 ∧
      s' = (({ s with sink := sink } : SlaveReception).clearFinalize).startTransfer t.corr_id
        t.total_size t.chunk_size ∧
      ackedIn out s' = [(0, 0)] := by
  rw [SlaveReception.handleFirmwareBegin_eq, hparse] at hbegin
  dsimp only at hbegin
  rcases hsink : s.sink.beginReceive t.sender t.corr_id t.total_size t.chunk_size crc metadata env with
    ⟨ok, sink⟩
  rw [hsink] at hbegin
  simp only [Prod.mk.injEq] at hbegin
  obtain ⟨rfl, hanswer⟩ := hbegin
  rcases s.sink.beginReceive_cases _ _ _ _ _ _ _ hsink with ⟨hfalse, -⟩ | ⟨-, htotal, hroom, hfresh⟩
  · cases hfalse
  have hstarted : ({ s with sink := sink } : SlaveReception).beginAnswered true t.corr_id t.total_size
      t.chunk_size = ([⟨.ChunkAck, t.corr_id, 0, .Ok⟩],
        (({ s with sink := sink } : SlaveReception).clearFinalize).startTransfer t.corr_id
          t.total_size t.chunk_size) := by
    unfold beginAnswered
    rw [if_neg (by simp [hrole])]
    rfl
  rw [hstarted] at hanswer
  obtain ⟨rfl, rfl⟩ := Prod.mk.inj hanswer
  have hzero : sink.contiguousReceiveSize = 0 := Unmoved.contiguous fun _ => by
    rw [hfresh]
    rfl
  refine ⟨sink, rfl, hfresh, hroom, htotal, beginReceive_chunk_size hsink, rfl, ?_⟩
  have hheld : ackedIn [⟨.ChunkAck, t.corr_id, 0, .Ok⟩]
      ((({ s with sink := sink } : SlaveReception).clearFinalize).startTransfer t.corr_id t.total_size
        t.chunk_size) = [(0, sink.contiguousReceiveSize)] := rfl
  rw [hheld, hzero]

/-- The sums of a transfer that stays below the thresholds leave a session that fits together. -/
theorem freshSession_sound_of_room (crc now_s : UInt32) (htotal : t.total_size ≠ 0) (hchunk : t.chunk_size ≠ 0)
    (hroom : ¬ OutrunsThreshold t ∨ CountFits t.total_size t.chunk_size) :
    (OtaManager.freshSession t.sender t.corr_id t.total_size t.chunk_size crc now_s).Sound := by
  have hpos := toNat_pos hchunk
  refine ReceiveSession.freshSession_sound_of_count htotal hpos ?_
  rcases hroom with hroom | ⟨hfit, hcount⟩
  · have ht := t.total_size.toNat_lt
    have hdiv : ((t.total_size + t.chunk_size - 1) / t.chunk_size).toNat
        = (t.total_size.toNat + t.chunk_size.toNat - 1) % 2 ^ 32 / t.chunk_size.toNat :=
      ReceiveSession.chunk_count_eq hpos
    rw [hdiv]
    rcases Nat.lt_or_ge 64 t.chunk_size.toNat with hlarge | hsmall
    · have := Nat.div_le_div (Nat.le_of_lt (Nat.mod_lt
        (t.total_size.toNat + t.chunk_size.toNat - 1) (by decide : 0 < 2 ^ 32)))
        (Nat.le_of_lt hlarge) (by decide)
      omega
    · -- small chunks are acknowledged every 1024 bytes
      have hstep : ackStep t.chunk_size = 1024 := by
        have hmax : ackStep t.chunk_size =
            if 1024 ≤ t.chunk_size * 16 then t.chunk_size * 16 else 1024 := rfl
        have hmul : (t.chunk_size * 16).toNat = t.chunk_size.toNat * 16 := by
          rw [UInt32.toNat_mul]
          exact Nat.mod_eq_of_lt (by rw [show (16 : UInt32).toNat = 16 by decide]; omega)
        rw [hmax]
        split
        · rename_i hle
          rw [UInt32.le_iff_toNat_le, hmul] at hle
          apply UInt32.toNat_inj.mp
          rw [hmul]
          have h1024 : (1024 : UInt32).toNat = 1024 := by decide
          omega
        · rfl
      have hgrid : t.total_size.toNat + 1024 < 2 ^ 32 := by
        unfold OutrunsThreshold at hroom
        rw [hstep] at hroom
        have hgcd : (1024 : UInt32).toNat.gcd (2 ^ 32) = 1024 := by decide
        omega
      have hle : (t.total_size.toNat + t.chunk_size.toNat - 1) % 2 ^ 32 / t.chunk_size.toNat
          ≤ t.total_size.toNat := by
        apply Nat.div_le_of_le_mul
        rw [Nat.mod_eq_of_lt (by omega)]
        have htotal' := toNat_pos htotal
        calc t.total_size.toNat + t.chunk_size.toNat - 1
            ≤ t.total_size.toNat + (t.chunk_size.toNat - 1) * t.total_size.toNat := by
              have := Nat.le_mul_of_pos_right (t.chunk_size.toNat - 1) htotal'
              omega
          _ = t.chunk_size.toNat * t.total_size.toNat := by
              have := Nat.le_mul_of_pos_left t.total_size.toNat hpos
              rw [Nat.sub_mul, Nat.one_mul]
              omega
      omega
  · rw [chunk_count_ceil hpos hfit]
    exact hcount

/-- The acknowledgements of every run of a transfer are well paced exactly when the transfer does not
end above the thresholds, or none of its chunks can be recorded. -/
theorem acks_well_paced_iff (hrole : s.local_role = .Slave) (hhung : s.hung = false)
    (hparse : parseFirmwareBegin payload = some (t.total_size, t.chunk_size, crc, metadata))
    (hbegin : s.handleFirmwareBegin t.sender t.corr_id payload env = (true, out, s')) :
    (∀ frames, (Acknowledging.hearAll t ⟨s', ackedIn out s'⟩ frames).WellPaced) ↔
      ¬ (CountFits t.total_size t.chunk_size ∧ OutrunsThreshold t) := by
  obtain ⟨sink, -, hfresh, hroom, htotal, hchunk, rfl, hacked⟩ := begin_started hrole hparse hbegin
  rw [hacked]
  constructor
  · rintro hall ⟨hfits, houtruns⟩
    have hsound := freshSession_sound_of_room crc env.now_epoch_s htotal hchunk
      (.inr hfits)
    obtain ⟨frames, hcaught⟩ :=
      (Filled.started hrole hhung hfresh hsound hroom [(0, 0)]).exists_hung
        (Filled.count_pos htotal hchunk hfits) houtruns
    rw [(hall frames).ends] at hcaught
    cases hcaught
  · intro hgood frames
    by_cases hfits : CountFits t.total_size t.chunk_size
    · have hbelow : ¬ OutrunsThreshold t := fun h => hgood ⟨hfits, h⟩
      have hsound := freshSession_sound_of_room crc env.now_epoch_s htotal hchunk
        (.inl hbelow)
      have hstart := Pacing.started hrole hhung (s := { s with sink := sink }) hfresh
        (by rw [hfresh]; exact hsound) hroom
      exact (hstart.hearAll hbelow frames).wellPaced
    · have hnone : RecordsNone sink.receive := by
        rw [hfresh]
        exact RecordsNone.freshSession hchunk hfits
      exact ((Unmoved.started hrole hhung hnone (by rw [hfresh]; rfl)).hearAll frames).wellPaced

/-- What the allocator promises: no block that it has given for the pool, to this begin or before, has half of the
32-bit address space. -/
def PoolsBelowHalf (m : OtaManager) (env : BeginEnvironment) : Prop :=
  ∀ block, env.pool = some block ∨ m.psram_pool = some block → block.length < 2 ^ 31

theorem beginReceive_pool {m : OtaManager} {sender : MacAddress}
    {corr_id total_size chunk_size image_crc32 : UInt32} {metadata : FirmwareImageMetadata}
    {env : BeginEnvironment} {block : Bytes}
    (h : (m.beginReceive sender corr_id total_size chunk_size image_crc32 metadata env).2.psram_pool =
      some block) : env.pool = some block ∨ m.psram_pool = some block := by
  have hopened (p : OtaManager) :
      (p.openSession sender corr_id total_size chunk_size image_crc32 metadata env).2.psram_pool = p.psram_pool := by
    unfold OtaManager.openSession OtaManager.abortReceive
    dsimp only
    repeat' split
    all_goals rfl
  have hexpired := expireReceiveIfStale_pool m env.now_epoch_s
  unfold OtaManager.beginReceive at h
  dsimp only at h
  generalize m.expireReceiveIfStale env.now_epoch_s = expired at h hexpired
  rw [← hexpired]
  have hensured : ∀ block, (expired.ensurePsramPool env.pool).2.psram_pool = some block →
      env.pool = some block ∨ expired.psram_pool = some block := by
    intro block hblock
    unfold OtaManager.ensurePsramPool at hblock
    split at hblock
    · exact .inr hblock
    split at hblock
    · exact .inr hblock
    cases hpool : env.pool with
    | none =>
      rw [hpool] at hblock
      cases hblock
    | some bytes =>
      rw [hpool] at hblock
      exact .inl hblock
  split at h
  · exact .inr h
  split at h
  · exact .inr h
  split at h
  · exact .inr h
  split at h
  · exact .inr h
  split at h
  · exact hensured block h
  split at h
  · exact hensured block h
  · exact hensured block ((hopened _).symm.trans h)

/-- The greatest common divisor of a step with 2³² is at most half of it. -/
theorem gcd_ackStep_le (chunk_size : UInt32) : (ackStep chunk_size).toNat.gcd (2 ^ 32) ≤ 2 ^ 31 := by
  have hpos : 0 < (ackStep chunk_size).toNat := toNat_pos (ackStep_ne_zero chunk_size)
  have hlt : (ackStep chunk_size).toNat.gcd (2 ^ 32) < 2 ^ 32 :=
    Nat.lt_of_le_of_lt (Nat.gcd_le_left _ hpos) (ackStep chunk_size).toNat_lt
  obtain ⟨c, hc⟩ := Nat.gcd_dvd_right (ackStep chunk_size).toNat (2 ^ 32)
  have htwo : 2 ≤ c := by
    rcases c with _ | _ | c
    · omega
    · omega
    · omega
  have hmul := Nat.mul_le_mul_left ((ackStep chunk_size).toNat.gcd (2 ^ 32)) htwo
  rw [← hc] at hmul
  omega

/-- Over a pool that an allocator has given, no accepted transfer outruns the thresholds. -/
theorem not_outrunsThreshold (hreached : s.sink.Reached) (hhalf : PoolsBelowHalf s.sink env)
    (hpool : env.PoolAllocated s.sink.config.max_firmware_bytes) {sink : OtaManager}
    (hsink : (s.sink.beginReceive t.sender t.corr_id t.total_size t.chunk_size crc metadata env).2 = sink)
    (hroom : sink.hasRoom t.total_size = true) : ¬ OutrunsThreshold t := by
  have hsound := hreached.poolSound.begin_ t.sender t.corr_id t.total_size t.chunk_size crc metadata hpool
  rw [hsink] at hsound
  obtain ⟨hsome, hsize⟩ : sink.psram_pool.isSome ∧ t.total_size ≤ sink.psram_pool_size := by
    simpa [OtaManager.hasRoom] using hroom
  obtain ⟨block, hblock⟩ := Option.isSome_iff_exists.mp hsome
  have hlength := hhalf block (beginReceive_pool (hsink ▸ hblock))
  have hheld := (hsound block hblock).1
  have hgcd := gcd_ackStep_le t.chunk_size
  rw [UInt32.le_iff_toNat_le] at hsize
  unfold OutrunsThreshold
  omega

/-- The acknowledgements of every run of a transfer are well paced. -/
theorem acks_well_paced (hreached : s.sink.Reached) (hhalf : PoolsBelowHalf s.sink env)
    (hpool : env.PoolAllocated s.sink.config.max_firmware_bytes) (hrole : s.local_role = .Slave)
    (hhung : s.hung = false)
    (hparse : parseFirmwareBegin payload = some (t.total_size, t.chunk_size, crc, metadata))
    (hbegin : s.handleFirmwareBegin t.sender t.corr_id payload env = (true, out, s'))
    (frames : List ChunkFrame) : (Acknowledging.hearAll t ⟨s', ackedIn out s'⟩ frames).WellPaced := by
  obtain ⟨sink, hsink, -, hroom, -⟩ := begin_started hrole hparse hbegin
  have hbelow := not_outrunsThreshold hreached hhalf hpool hsink hroom
  exact (acks_well_paced_iff hrole hhung hparse hbegin).mpr (fun h => hbelow h.2) frames

end Begin

namespace AckPacingExample

/-- A slave without a transfer that takes images of up to eight bytes. -/
def idleSlave : SlaveReception where
  local_role := .Slave
  sink := ⟨⟨8, 0⟩, none, 0, .idle, OtaManager.noMetadata, ⟨.Idle, .Ok, 0, 0, 0, 0, ""⟩⟩
  ota_transfer_corr_id := 0
  ota_transfer_expected_size := 0
  ota_transfer_last_received_offset := 0
  ota_transfer_last_acked_offset := 0
  ota_transfer_ack_step_bytes := 0
  ota_transfer_next_ack_offset := 0
  ota_transfer_last_nack_offset := 0
  ota_transfer_last_nack_ms := 0
  ota_finalize_pending := false
  ota_finalize_corr_id := 0
  ota_finalize_offset := 0
  ota_finalize_status_code := 0
  ota_finalize_kind := 0
  ota_finalize_started_ms := 0
  ota_finalize_last_tx_ms := 0
  hung := false

/-- Three bytes in chunks of two. -/
def transfer : Transfer := ⟨zeroMac, 5, 3, 2⟩

/-- The answer to the begin frame of the transfer. -/
def begun : Bool × List FirmwareStatus × SlaveReception :=
  idleSlave.handleFirmwareBegin zeroMac 5 (le32 3 ++ le32 2 ++ le32 0) smallEnvironment

/-- Both chunks, the last one first. -/
def frames : List ChunkFrame := [⟨2, [3], 1, 10⟩, ⟨0, [1, 2], 2, 20⟩]

theorem small_transfer_paced :
    let paced := Acknowledging.hearAll transfer ⟨begun.2.2, ackedIn begun.2.1 begun.2.2⟩ frames
    begun.1 = true ∧ paced.acked = [(0, 0), (3, 3)] ∧ paced.WellPaced := by
  intro paced
  have hok : begun.1 = true := by decide +kernel
  have hparse : parseFirmwareBegin (le32 3 ++ le32 2 ++ le32 0) =
      some (transfer.total_size, transfer.chunk_size, 0, OtaManager.noMetadata) := by decide +kernel
  have hblock (block : Bytes) (h : smallEnvironment.pool = some block ∨ idleSlave.sink.psram_pool = some block) :
      block.length = 8 := by
    rcases h with h | h
    · cases h
      rfl
    · cases h
  have hpool : smallEnvironment.PoolAllocated idleSlave.sink.config.max_firmware_bytes := by
    intro block h
    rw [hblock block (.inl h)]
    decide
  have hhalf : PoolsBelowHalf idleSlave.sink smallEnvironment := by
    intro block h
    rw [hblock block h]
    decide
  refine ⟨hok, by decide +kernel, ?_⟩
  exact acks_well_paced (s := idleSlave) (t := transfer) (.constructed _ _) hhalf hpool rfl rfl hparse
    (Prod.ext hok rfl) frames

end AckPacingExample

end EspNowLink
