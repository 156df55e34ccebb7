import EspNowLink.Ota.PushLink

namespace EspNowLink

/-- The pull and storage services answer, the peer is paired and the radio takes every frame. -/
structure PushEnvironment.Clear (env : PushEnvironment) : Prop where
  pull : env.pull = true
  storage : env.storage = true
  paired : env.paired = true
  readable : ∀ offset, env.readable offset = true
  chunk_sent : ∀ offset, env.chunk_sent offset = true

def chunkOutputs (chunks : List (UInt32 × Bytes)) : List PushOutput :=
  chunks.map fun c => .chunk c.1 c.2

namespace OtaPushLocalSession

/-- `n` is `m` further on in the same window. -/
structure SameWindow (m n : OtaPushLocalSession) : Prop where
  active : n.active = m.active
  phase : n.phase = m.phase
  begin_acked : n.begin_acked = m.begin_acked
  waiting : n.waiting_chunk_ack = m.waiting_chunk_ack
  chunk_bytes : n.chunk_bytes = m.chunk_bytes
  total_size : n.total_size = m.total_size
  pending : n.pending_end_offset = m.pending_end_offset
  next_send : n.next_send_ms = m.next_send_ms

theorem SameWindow.refl (m : OtaPushLocalSession) : m.SameWindow m :=
  ⟨rfl, rfl, rfl, rfl, rfl, rfl, rfl, rfl⟩

theorem SameWindow.trans {m n o : OtaPushLocalSession} (hmn : m.SameWindow n) (hno : n.SameWindow o) :
    m.SameWindow o where
  active := hno.active.trans hmn.active
  phase := hno.phase.trans hmn.phase
  begin_acked := hno.begin_acked.trans hmn.begin_acked
  waiting := hno.waiting.trans hmn.waiting
  chunk_bytes := hno.chunk_bytes.trans hmn.chunk_bytes
  total_size := hno.total_size.trans hmn.total_size
  pending := hno.pending.trans hmn.pending
  next_send := hno.next_send.trans hmn.next_send

/-- The chunks of a window depend on the image and the sizes only. -/
theorem windowChunks_congr {m n : OtaPushLocalSession} (hchunk : n.chunk_bytes = m.chunk_bytes)
    (htotal : n.total_size = m.total_size) (image : Bytes) (stop : UInt32) (k : Nat) (x : UInt32) :
    n.windowChunks image stop k x = m.windowChunks image stop k x := by
  have hdata : n.chunkData image = m.chunkData image := by
    funext offset
    simp only [chunkData, hchunk, htotal]
  induction k generalizing x with
  | zero => rfl
  | succ k ih => simp only [windowChunks, hdata, htotal, ih]

theorem windowChunks_stop (m : OtaPushLocalSession) (image : Bytes) {stop x : UInt32} (h : ¬ x < stop)
    (k : Nat) : m.windowChunks image stop k x = [] := by
  cases k with
  | zero => rfl
  | succ k =>
    unfold windowChunks
    rw [if_neg fun hx => h hx.2]

/-- The send loop sends the chunks of the window, as many as its budget allows. -/
theorem sendChunks_clear {image : Bytes} {env : PushEnvironment} (henv : env.Clear) (now_ms : UInt32)
    {m : OtaPushLocalSession} (himage : image.length = m.total_size.toNat)
    (hchunk : 0 < m.chunk_bytes.toNat) (hstop : m.pending_end_offset ≤ m.total_size) (budget : Nat) :
    ∃ n, sendChunks image env now_ms budget m =
        (true, chunkOutputs (m.windowChunks image m.pending_end_offset budget m.next_offset), n) ∧
      m.SameWindow n ∧
      (n.next_offset < m.pending_end_offset →
        n.next_offset.toNat = m.next_offset.toNat + budget * m.chunk_bytes.toNat) ∧
      ∀ k, m.windowChunks image m.pending_end_offset (budget + k) m.next_offset =
        m.windowChunks image m.pending_end_offset budget m.next_offset ++
          m.windowChunks image m.pending_end_offset k n.next_offset := by
  induction budget generalizing m with
  | zero => exact ⟨m, rfl, .refl m, fun _ => by omega, fun k => by simp [windowChunks]⟩
  | succ budget ih =>
    by_cases hgoes : m.next_offset < m.total_size ∧ m.next_offset < m.pending_end_offset
    · have hx := hgoes.1
      rw [UInt32.lt_iff_toNat_lt] at hx
      have hlen : (m.chunkData image m.next_offset).length =
          min m.chunk_bytes.toNat (m.total_size.toNat - m.next_offset.toNat) := by
        have hsub : (m.total_size - m.next_offset).toNat
            = m.total_size.toNat - m.next_offset.toNat :=
          UInt32.toNat_sub_of_le _ _ (by rw [UInt32.le_iff_toNat_le]; omega)
        simp only [chunkData, readAt, List.length_take, List.length_drop, himage, hsub]
        omega
      have hnext : (m.next_offset + (m.chunkData image m.next_offset).length.toUInt32).toNat =
          m.next_offset.toNat + (m.chunkData image m.next_offset).length := by
        have := m.total_size.toNat_lt
        have hsmall : (m.chunkData image m.next_offset).length < 2 ^ 32 := by omega
        rw [UInt32.toNat_add, Nat.toUInt32_eq, UInt32.toNat_ofNat', Nat.mod_eq_of_lt hsmall]
        exact Nat.mod_eq_of_lt (by omega)
      have hne : (m.chunkData image m.next_offset).isEmpty = false := by
        rw [Bool.eq_false_iff, ne_eq, List.isEmpty_iff_length_eq_zero]
        omega
      obtain ⟨n, hrun, hsame, hfar, happend⟩ := ih (m := m.noteSent
        (m.chunkData image m.next_offset).length) himage hchunk hstop
      have hsent : m.SameWindow (m.noteSent (m.chunkData image m.next_offset).length) :=
        ⟨rfl, rfl, rfl, rfl, rfl, rfl, rfl, rfl⟩
      have hcongr := windowChunks_congr hsent.chunk_bytes hsent.total_size image
        m.pending_end_offset
      have happend' : ∀ k, m.windowChunks image m.pending_end_offset (budget + k)
            (m.next_offset + (m.chunkData image m.next_offset).length.toUInt32) =
          m.windowChunks image m.pending_end_offset budget
            (m.next_offset + (m.chunkData image m.next_offset).length.toUInt32) ++
          m.windowChunks image m.pending_end_offset k n.next_offset := by
        intro k
        rw [← hcongr, ← hcongr, ← hcongr]
        exact happend k
      refine ⟨n, ?_, hsent.trans hsame, fun hlt => ?_, fun k => ?_⟩
      · unfold sendChunks
        rw [if_pos hgoes]
        simp only [henv.readable, henv.chunk_sent, hne, Bool.not_true, Bool.or_self,
          Bool.false_eq_true, if_false, hrun]
        rw [windowChunks, if_pos hgoes]
        refine congrArg (fun c => (true, _ :: chunkOutputs c, n)) ?_
        exact hcongr budget _
      · -- the loop stopped short of the window's end, so every chunk was a whole one
        have hfull := hfar hlt
        change n.next_offset.toNat = (m.next_offset +
          (m.chunkData image m.next_offset).length.toUInt32).toNat + _ at hfull
        rw [hnext, hlen] at hfull
        change _ = _ + budget * m.chunk_bytes.toNat at hfull
        rw [UInt32.lt_iff_toNat_lt] at hlt
        rw [UInt32.le_iff_toNat_le] at hstop
        have hmul : (budget + 1) * m.chunk_bytes.toNat
            = budget * m.chunk_bytes.toNat + m.chunk_bytes.toNat := Nat.succ_mul _ _
        omega
      · rw [show budget + 1 + k = (budget + k) + 1 by omega, windowChunks, if_pos hgoes, windowChunks,
          if_pos hgoes]
        exact congrArg _ (happend' k)
    · have hend : ∀ k, m.windowChunks image m.pending_end_offset k m.next_offset = [] := by
        intro k
        cases k with
        | zero => rfl
        | succ k =>
          unfold windowChunks
          rw [if_neg hgoes]
      refine ⟨m, ?_, .refl m, fun hlt => ?_, fun k => by simp [hend]⟩
      · unfold sendChunks
        rw [if_neg hgoes, hend]
        rfl
      · rw [UInt32.lt_iff_toNat_lt] at hlt
        rw [UInt32.le_iff_toNat_le] at hstop
        rw [UInt32.lt_iff_toNat_lt, UInt32.lt_iff_toNat_lt] at hgoes
        omega

theorem closeWindow_waits {m : OtaPushLocalSession} (h : m.next_offset ≥ m.pending_end_offset)
    (now_ms : UInt32) : (m.closeWindow now_ms).waiting_chunk_ack = true ∧
      (m.closeWindow now_ms).pending_end_offset = m.pending_end_offset := by
  unfold closeWindow
  rw [if_pos h]
  exact ⟨rfl, rfl⟩

/-- The pump runs `k` times. -/
def pumpTimes (image : Bytes) (env : PushEnvironment) (now_ms : UInt32) :
    Nat → OtaPushLocalSession → List PushOutput × OtaPushLocalSession
  | 0, m => ([], m)
  | k + 1, m =>
    let (out, n) := m.pumpOtaPushLocal image env now_ms
    let (later, n) := pumpTimes image env now_ms k n
    (out ++ later, n)

/-- A session that may send. -/
structure Sending (m : OtaPushLocalSession) (image : Bytes) (now_ms : UInt32) : Prop where
  active : m.active = true
  streaming : m.phase = .Streaming
  begun : m.begin_acked = true
  idle : m.waiting_chunk_ack = false
  due : elapsed now_ms m.next_send_ms 0 = true
  image : image.length = m.total_size.toNat
  chunk : 0 < m.chunk_bytes.toNat
  unfinished : m.next_offset < m.total_size

/-- One run of the pump over an open window. -/
theorem pump_sends {m : OtaPushLocalSession} {image : Bytes} {env : PushEnvironment} {now_ms : UInt32}
    (henv : env.Clear) (hm : m.Sending image now_ms) :
    m.pumpOtaPushLocal image env now_ms =
      let (ran, out, n) := sendChunks image env now_ms kChunkBudgetPerTick m.openWindow
      (out, if ran then n.closeWindow now_ms else n) := by
  have hx := hm.unfinished
  rw [UInt32.lt_iff_toNat_lt] at hx
  have hgoes : ¬ m.next_offset ≥ m.total_size := by
    rw [ge_iff_le, UInt32.le_iff_toNat_le]
    omega
  simp only [pumpOtaPushLocal, hm.active, henv.pull, henv.storage, henv.paired, hm.streaming,
    Bool.not_true, Bool.or_self, Bool.false_eq_true, if_false, pumpStreaming, hm.begun,
    Bool.false_and, noteBegun, if_true, hm.idle, pumpSending, hgoes, hm.due]

/-- Once its window is open, the pump sends all of it and then waits. -/
theorem pumpTimes_sends {image : Bytes} {env : PushEnvironment} {now_ms : UInt32} (henv : env.Clear)
    (fuel : Nat) {m : OtaPushLocalSession} (hm : m.Sending image now_ms)
    (hopen : m.openWindow = m) (hstop : m.pending_end_offset ≤ m.total_size)
    (hfuel : m.pending_end_offset.toNat ≤ m.next_offset.toNat + fuel * m.chunk_bytes.toNat) :
    ∃ k n, pumpTimes image env now_ms k m =
        (chunkOutputs (m.windowChunks image m.pending_end_offset fuel m.next_offset), n) ∧
      n.waiting_chunk_ack = true ∧ n.pending_end_offset = m.pending_end_offset := by
  induction fuel using Nat.strongRecOn generalizing m with
  | ind fuel ih =>
    obtain ⟨n, hrun, hsame, hfar, happend⟩ :=
      sendChunks_clear henv now_ms hm.image hm.chunk hstop kChunkBudgetPerTick
    have hpump := pump_sends henv hm
    rw [hopen, hrun] at hpump
    dsimp only at hpump
    by_cases hend : n.next_offset ≥ n.pending_end_offset
    · -- this run reaches the end of the window
      have hstopped : ¬ n.next_offset < m.pending_end_offset := by
        rw [hsame.pending] at hend
        rw [UInt32.lt_iff_toNat_lt]
        rw [ge_iff_le, UInt32.le_iff_toNat_le] at hend
        omega
      have hall : m.windowChunks image m.pending_end_offset kChunkBudgetPerTick m.next_offset
          = m.windowChunks image m.pending_end_offset fuel m.next_offset := by
        rcases Nat.le_total kChunkBudgetPerTick fuel with hle | hle
        · obtain ⟨k, rfl⟩ := Nat.exists_eq_add_of_le hle
          rw [happend k, windowChunks_stop m image hstopped, List.append_nil]
        · obtain ⟨k, hk⟩ := Nat.exists_eq_add_of_le hle
          obtain ⟨o, -, -, hofar, hoappend⟩ :=
            sendChunks_clear henv now_ms hm.image hm.chunk hstop fuel
          have hodone : ¬ o.next_offset < m.pending_end_offset := by
            intro hlt
            have hreached := hofar hlt
            rw [UInt32.lt_iff_toNat_lt] at hlt
            omega
          rw [hk, hoappend k, windowChunks_stop m image hodone, List.append_nil]
      obtain ⟨hwaiting, hpending⟩ := closeWindow_waits hend now_ms
      refine ⟨1, n.closeWindow now_ms, ?_, hwaiting, hpending.trans hsame.pending⟩
      simp only [pumpTimes, hpump, List.append_nil, if_true, hall]
    · -- the budget ran out before
      have hlt : n.next_offset < m.pending_end_offset := by
        rw [hsame.pending, ge_iff_le, UInt32.not_le] at hend
        exact hend
      have hnext := hfar hlt
      have hltN := hlt
      rw [UInt32.lt_iff_toNat_lt] at hltN
      have hclose : n.closeWindow now_ms = n := by simp only [closeWindow, hend, if_false]
      have hbig : kChunkBudgetPerTick < fuel := by
        apply Nat.lt_of_not_le
        intro hle
        have := Nat.mul_le_mul_right m.chunk_bytes.toNat hle
        omega
      obtain ⟨rest, rfl⟩ := Nat.exists_eq_add_of_le (Nat.le_of_lt hbig)
      have hmul : (kChunkBudgetPerTick + rest) * m.chunk_bytes.toNat
          = kChunkBudgetPerTick * m.chunk_bytes.toNat + rest * m.chunk_bytes.toNat :=
        Nat.add_mul _ _ _
      have hstopN := hstop
      rw [UInt32.le_iff_toNat_le] at hstopN
      have hn : n.Sending image now_ms :=
        { active := hsame.active.trans hm.active
          streaming := hsame.phase.trans hm.streaming
          begun := hsame.begin_acked.trans hm.begun
          idle := hsame.waiting.trans hm.idle
          due := by rw [hsame.next_send]; exact hm.due
          image := by rw [hsame.total_size]; exact hm.image
          chunk := by rw [hsame.chunk_bytes]; exact hm.chunk
          unfinished := by
            rw [UInt32.lt_iff_toNat_lt, hsame.total_size]
            omega }
      have hnopen : n.openWindow = n := by
        unfold openWindow
        rw [if_neg]
        rw [not_or]
        refine ⟨fun hzero => ?_, hend⟩
        rw [← hsame.pending, hzero, UInt32.toNat_zero] at hltN
        omega
      obtain ⟨k, o, hk, hwaiting, hpending⟩ := ih rest (by unfold kChunkBudgetPerTick; omega) hn
        hnopen (by rw [hsame.pending, hsame.total_size]; exact hstop)
        (by rw [hsame.pending, hsame.chunk_bytes]; omega)
      refine ⟨k + 1, o, ?_, hwaiting, hpending.trans hsame.pending⟩
      simp only [pumpTimes, hpump, if_true, hclose, hk, hsame.pending,
        windowChunks_congr hsame.chunk_bytes hsame.total_size, happend rest]
      simp [chunkOutputs]

/-- A session whose acknowledgement is overdue gives its window up, and its next runs send one full
retransmission and wait for the end of it. -/
theorem pump_retransmits {m : OtaPushLocalSession} {image : Bytes} {env : PushEnvironment}
    {pending_end now_ms later_ms : UInt32} (henv : env.Clear) (hwait : m.AwaitsAck pending_end)
    (hbegun : m.begin_acked = true) (himage : image.length = m.total_size.toNat)
    (hchunk : 0 < m.chunk_bytes.toNat) (hunfinished : m.remote_acked_offset < m.total_size)
    (hoverdue : elapsed now_ms m.wait_started_ms m.ackTimeout = true)
    (hretry : m.retry_count < m.retryMax) (hlater : elapsed later_ms (now_ms + 12) 0 = true) :
    m.pumpOtaPushLocal image env now_ms = ([], m.rewind now_ms) ∧
      ∃ k n, pumpTimes image env later_ms k (m.rewind now_ms) =
          (chunkOutputs (m.retransmission image), n) ∧
        n.waiting_chunk_ack = true ∧
        n.pending_end_offset = m.windowEnd m.remote_acked_offset := by
  have hunacked := hwait.unacked
  rw [UInt32.lt_iff_toNat_lt] at hunacked hunfinished
  constructor
  · have hmissing : ¬ m.remote_acked_offset ≥ m.pending_end_offset := by
      rw [hwait.pending, ge_iff_le, UInt32.le_iff_toNat_le]
      omega
    have hleft : ¬ m.retry_count ≥ m.retryMax := by
      rw [ge_iff_le, UInt8.not_le]
      exact hretry
    simp only [pumpOtaPushLocal, hwait.active, henv.pull, henv.storage, henv.paired,
      hwait.streaming, Bool.not_true, Bool.or_self, Bool.false_eq_true, if_false, pumpStreaming,
      hbegun, Bool.false_and, noteBegun, if_true, hwait.waiting, pumpWaitingAck, hmissing, hoverdue,
      hleft]
  · have hnext : (m.rewind now_ms).next_offset = m.remote_acked_offset := by
      change min m.remote_acked_offset m.total_size = m.remote_acked_offset
      apply UInt32.toNat_inj.mp
      rw [UInt32.toNat_min]
      omega
    have hm : (m.rewind now_ms).Sending image later_ms :=
      { active := hwait.active, streaming := hwait.streaming, begun := hbegun, idle := rfl
        due := hlater, image := himage, chunk := hchunk
        unfinished := by
          rw [hnext, UInt32.lt_iff_toNat_lt]
          exact hunfinished }
    have hopen : (m.rewind now_ms).openWindow =
        { m.rewind now_ms with pending_end_offset := m.windowEnd m.remote_acked_offset } := by
      have hend : (m.rewind now_ms).windowEnd (m.rewind now_ms).next_offset
          = m.windowEnd m.remote_acked_offset := by
        rw [hnext]
        rfl
      rw [openWindow, if_pos (.inl rfl), hend]
    have hpump := pump_sends henv hm
    rw [hopen] at hpump
    generalize hq : ({ m.rewind now_ms with
      pending_end_offset := m.windowEnd m.remote_acked_offset } : OtaPushLocalSession) = q at hpump
    have hpending : q.pending_end_offset = m.windowEnd m.remote_acked_offset := by rw [← hq]
    have hqnext : q.next_offset = m.remote_acked_offset := by rw [← hq]; exact hnext
    have hqsame : q.chunk_bytes = m.chunk_bytes ∧ q.total_size = m.total_size := by
      rw [← hq]
      exact ⟨rfl, rfl⟩
    have hqsending : q.Sending image later_ms := by
      rw [← hq]
      exact ⟨hm.active, hm.streaming, hm.begun, hm.idle, hm.due, hm.image, hm.chunk, hm.unfinished⟩
    have hchunks := windowChunks_congr hqsame.1 hqsame.2 image q.pending_end_offset
      m.window_size_chunks.toNat m.remote_acked_offset
    by_cases hempty : m.remote_acked_offset < m.windowEnd m.remote_acked_offset
    · have hqopen : q.openWindow = q := by
        unfold openWindow
        rw [if_neg]
        rw [hpending, hqnext, not_or, ge_iff_le, UInt32.not_le]
        refine ⟨fun hzero => ?_, hempty⟩
        rw [hzero, UInt32.lt_iff_toNat_lt, UInt32.toNat_zero] at hempty
        omega
      have hstop : q.pending_end_offset ≤ q.total_size := by
        rw [hpending, hqsame.2, UInt32.le_iff_toNat_le, windowEnd, UInt32.toNat_min]
        exact Nat.min_le_right _ _
      have hfuel : q.pending_end_offset.toNat ≤
          q.next_offset.toNat + m.window_size_chunks.toNat * q.chunk_bytes.toNat := by
        have hmod := Nat.mod_le (m.remote_acked_offset.toNat +
          (m.chunk_bytes.toUInt32 * m.window_size_chunks.toUInt32).toNat) (2 ^ 32)
        have hprod := Nat.mod_le (m.chunk_bytes.toNat * m.window_size_chunks.toNat) (2 ^ 32)
        rw [hpending, hqnext, hqsame.1, windowEnd, UInt32.toNat_min, UInt32.toNat_add]
        rw [UInt32.toNat_mul] at hmod ⊢
        simp only [UInt16.toNat_toUInt32, UInt8.toNat_toUInt32] at hmod ⊢
        rw [Nat.mul_comm m.window_size_chunks.toNat]
        omega
      obtain ⟨k, n, hrun, hwaiting, hnpending⟩ :=
        pumpTimes_sends henv m.window_size_chunks.toNat hqsending hqopen hstop hfuel
      rw [hqnext, hchunks, hpending] at hrun
      cases k with
      | zero =>
        have hsame : q = n := (Prod.mk.inj hrun).2
        rw [← hsame, hqsending.idle] at hwaiting
        cases hwaiting
      | succ k =>
        refine ⟨k + 1, n, ?_, hwaiting, hnpending.trans hpending⟩
        have hfirst := pump_sends henv hqsending
        rw [hqopen] at hfirst
        unfold pumpTimes at hrun ⊢
        rw [hfirst] at hrun
        rw [hpump]
        exact hrun
    · -- the 32-bit sum has wrapped: the window is empty and the session waits at once
      have hnone : ¬(q.next_offset < q.total_size ∧ q.next_offset < q.pending_end_offset) := by
        rw [hqnext, hpending]
        exact fun h => hempty h.2
      have hsend : sendChunks image env later_ms kChunkBudgetPerTick q = (true, [], q) := by
        unfold kChunkBudgetPerTick sendChunks
        rw [if_neg hnone]
      rw [hsend] at hpump
      have hclosed : q.next_offset ≥ q.pending_end_offset := by
        rw [hqnext, hpending, ge_iff_le, UInt32.le_iff_toNat_le]
        rw [UInt32.lt_iff_toNat_lt] at hempty
        omega
      obtain ⟨hwaiting, hkept⟩ := closeWindow_waits hclosed later_ms
      refine ⟨1, q.closeWindow later_ms, ?_, hwaiting, hkept.trans hpending⟩
      simp only [pumpTimes, hpump, List.append_nil, if_true, retransmission,
        windowChunks_stop m image hempty]
      rfl

end OtaPushLocalSession

end EspNowLink
