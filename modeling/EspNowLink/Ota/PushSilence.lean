import EspNowLink.Ota.PushRetries
import EspNowLink.Ota.PushProgress

namespace EspNowLink

open OtaPushLocalSession

/-- A session whose pump runs every two seconds and that hears nothing. -/
def silentPumps (env : PushEnvironment) (now_ms : UInt32) : Nat → List PushEvent
  | 0 => []
  | count + 1 => .pump env (now_ms + 2000) :: silentPumps env (now_ms + 2000) count

theorem elapsed_add (t d : UInt32) (limit : Int) :
    elapsed (t + d) t limit = decide (limit ≤ d.toBitVec.toInt) := by
  have hd : t + d - t = d := by grind
  rw [elapsed, hd]

namespace PushStart

variable (p : PushStart)

/-- The end of the first window and what the first window sends. -/
def firstEnd : UInt32 := p.session.windowEnd 0
def firstWindow : List (UInt32 × Bytes) := p.session.retransmission p.image

/-- The session streams and has not heard of a single byte. -/
structure Unheard (m : OtaPushLocalSession) : Prop where
  active : m.active = true
  streaming : m.phase = .Streaming
  begun : m.begin_acked = true
  chunk : m.chunk_bytes = p.chunk_bytes
  total : m.total_size = p.image.length.toUInt32
  unacked : m.remote_acked_offset = 0
  window : m.window_size_chunks = 16

/-- The session stands at the start of the image with no window open. -/
structure Rewound (t : UInt32) (m : OtaPushLocalSession) : Prop extends p.Unheard m where
  idle : m.waiting_chunk_ack = false
  next : m.next_offset = 0
  closed : m.pending_end_offset = 0
  due : m.next_send_ms = t ∨ m.next_send_ms = t + 12

/-- The session has sent the first chunks of its window and has eight turns of its loop to go. -/
structure Halfway (t : UInt32) (sent : List (UInt32 × Bytes)) (m : OtaPushLocalSession) : Prop
    extends p.Unheard m where
  idle : m.waiting_chunk_ack = false
  next : m.next_offset.toNat = 8 * p.chunk_bytes.toNat
  pending : m.pending_end_offset = p.firstEnd
  unfinished : m.next_offset < p.firstEnd
  due : m.next_send_ms + 2000 = t ∨ m.next_send_ms + 2000 = t + 12
  rest : p.firstWindow = sent ++ m.windowChunks p.image p.firstEnd 8 m.next_offset

/-- The session has sent its window and waits since `t`. -/
structure Waits (t : UInt32) (m : OtaPushLocalSession) : Prop extends p.Unheard m where
  waiting : m.waiting_chunk_ack = true
  fresh : m.retry_count = 0
  pending : m.pending_end_offset = p.firstEnd
  since : m.wait_started_ms = t

variable {p} {env : PushEnvironment} {t : UInt32} {m : OtaPushLocalSession}

theorem Checked.total_toNat (hp : p.Checked) : p.image.length.toUInt32.toNat = p.image.length := by
  rw [Nat.toUInt32_eq, UInt32.toNat_ofNat', Nat.mod_eq_of_lt hp.size.2]

theorem Checked.chunk_toNat (hp : p.Checked) : 32 ≤ p.chunk_bytes.toNat ∧ p.chunk_bytes.toNat ≤ 220 := by
  obtain ⟨hmin, hmax⟩ := hp.chunk
  rw [UInt16.le_iff_toNat_le] at hmin hmax
  exact ⟨hmin, hmax⟩

/-- The first window is sixteen chunks, or the whole image. -/
theorem Checked.firstEnd_toNat (hp : p.Checked) :
    p.firstEnd.toNat = min (p.chunk_bytes.toNat * 16) p.image.length := by
  obtain ⟨-, hmax⟩ := hp.chunk_toNat
  have hprod : (0 + p.chunk_bytes.toUInt32 * (16 : UInt8).toUInt32).toNat
      = p.chunk_bytes.toNat * 16 := by
    have hsixteen : (16 : UInt8).toUInt32.toNat = 16 := by decide
    rw [UInt32.toNat_add, UInt32.toNat_zero, Nat.zero_add, UInt32.toNat_mul, hsixteen,
      UInt16.toNat_toUInt32]
    omega
  change (min (0 + p.chunk_bytes.toUInt32 * (16 : UInt8).toUInt32) p.image.length.toUInt32).toNat = _
  rw [UInt32.toNat_min, hprod, hp.total_toNat]

theorem Checked.firstEnd_pos (hp : p.Checked) : 0 < p.firstEnd := by
  have hend := hp.firstEnd_toNat
  have hchunk := hp.chunk_toNat.1
  have hsize := hp.size.1
  rw [UInt32.lt_iff_toNat_lt, UInt32.toNat_zero]
  omega

theorem Checked.firstEnd_le (hp : p.Checked) : p.firstEnd ≤ p.image.length.toUInt32 := by
  rw [UInt32.le_iff_toNat_le, hp.firstEnd_toNat, hp.total_toNat]
  exact Nat.min_le_right _ _

/-- Eight turns of the send loop from `offset`, and what they leave. -/
theorem Unheard.pump_sends (hp : p.Checked) (henv : env.Clear) (hm : p.Unheard m) {now_ms : UInt32}
    (hidle : m.waiting_chunk_ack = false) (hdue : elapsed now_ms m.next_send_ms 0 = true)
    (hunfinished : m.next_offset < p.firstEnd)
    (hopen : m.openWindow = { m with pending_end_offset := p.firstEnd }) :
    ∃ n, m.pumpOtaPushLocal p.image env now_ms =
        (chunkOutputs (m.windowChunks p.image p.firstEnd 8 m.next_offset), n.closeWindow now_ms) ∧
      p.Unheard n ∧ n.waiting_chunk_ack = false ∧ n.pending_end_offset = p.firstEnd ∧
      n.next_send_ms = m.next_send_ms ∧
      (n.next_offset < p.firstEnd →
        n.next_offset.toNat = m.next_offset.toNat + 8 * p.chunk_bytes.toNat) ∧
      ∀ k, m.windowChunks p.image p.firstEnd (8 + k) m.next_offset =
        m.windowChunks p.image p.firstEnd 8 m.next_offset ++
          m.windowChunks p.image p.firstEnd k n.next_offset := by
  have himage : p.image.length = m.total_size.toNat := by rw [hm.total, hp.total_toNat]
  have hchunk : 0 < m.chunk_bytes.toNat := by
    have := hp.chunk_toNat.1
    rw [hm.chunk]
    omega
  have hsending : m.Sending p.image now_ms :=
    { active := hm.active, streaming := hm.streaming, begun := hm.begun, idle := hidle, due := hdue
      image := himage, chunk := hchunk
      unfinished := by
        rw [hm.total]
        exact UInt32.lt_of_lt_of_le hunfinished hp.firstEnd_le }
  have hpump := OtaPushLocalSession.pump_sends henv hsending
  rw [hopen] at hpump
  generalize hq : ({ m with pending_end_offset := p.firstEnd } : OtaPushLocalSession) = q at hpump
  have hqstop : q.pending_end_offset ≤ q.total_size := by
    rw [← hq]
    change p.firstEnd ≤ m.total_size
    rw [hm.total]
    exact hp.firstEnd_le
  have hqimage : p.image.length = q.total_size.toNat := by rw [← hq]; exact himage
  have hqchunk : 0 < q.chunk_bytes.toNat := by rw [← hq]; exact hchunk
  obtain ⟨n, hrun, hsame, hfar, happend⟩ :=
    sendChunks_clear henv now_ms hqimage hqchunk hqstop kChunkBudgetPerTick
  have hacks := sendChunks_acks p.image henv now_ms kChunkBudgetPerTick (m := q) (by rw [hrun])
  rw [hrun] at hpump hacks
  subst hq
  dsimp only at hacks happend hfar
  have hwindow := windowChunks_congr (m := m)
    (n := { m with pending_end_offset := p.firstEnd }) rfl rfl p.image p.firstEnd
  refine ⟨n, ?_, ?_, hsame.waiting.trans hidle, hsame.pending, hsame.next_send, fun hlt => ?_,
    fun k => ?_⟩
  · rw [hpump]
    exact congrArg (fun c => (chunkOutputs c, n.closeWindow now_ms)) (hwindow 8 m.next_offset)
  · exact
      { active := hsame.active.trans hm.active
        streaming := hsame.phase.trans hm.streaming
        begun := hsame.begin_acked.trans hm.begun
        chunk := hsame.chunk_bytes.trans hm.chunk
        total := hsame.total_size.trans hm.total
        unacked := hacks.1.trans hm.unacked
        window := hacks.2.trans hm.window }
  · rw [hfar hlt, hm.chunk]
    rfl
  · rw [← hwindow, ← hwindow, ← hwindow]
    exact happend k

/-- A session that has sent its whole window begins to wait, with a count of no retransmissions. -/
theorem Unheard.closeWindow_waits (hm : p.Unheard m) (hpending : m.pending_end_offset = p.firstEnd)
    (hdone : ¬ m.next_offset < p.firstEnd) (now_ms : UInt32) :
    p.Waits now_ms (m.closeWindow now_ms) := by
  have hclosed : m.next_offset ≥ m.pending_end_offset := by
    rw [hpending]
    exact UInt32.not_lt.mp hdone
  unfold closeWindow
  rw [if_pos hclosed]
  exact { hm with waiting := rfl, fresh := rfl, pending := hpending, since := rfl }

theorem pump_start (henv : env.Clear) :
    chunkFrames (p.session.pumpOtaPushLocal p.image env (p.now_ms + 2000)).1 = [] ∧
      p.Rewound (p.now_ms + 2000)
        (p.session.pumpOtaPushLocal p.image env (p.now_ms + 2000)).2 := by
  have hpatient : elapsed (p.now_ms + 2000) p.session.last_activity_ms kWaitBeginTimeoutMs = false := by
    change elapsed (p.now_ms + 2000) p.now_ms kWaitBeginTimeoutMs = false
    rw [elapsed_add]
    decide
  have hgrace : elapsed (p.now_ms + 2000) p.session.started_ms kWaitBeginOptimisticStartMs
      = true := by
    change elapsed (p.now_ms + 2000) p.now_ms kWaitBeginOptimisticStartMs = true
    rw [elapsed_add]
    decide
  have hpump : p.session.pumpOtaPushLocal p.image env (p.now_ms + 2000) =
      p.session.pumpWaitBegin env (p.now_ms + 2000) := by
    unfold pumpOtaPushLocal
    rw [if_neg (by simp [session, start]), if_neg (by simp [henv.pull, henv.storage]),
      if_neg (by simp [henv.paired])]
    rfl
  rw [hpump]
  unfold pumpWaitBegin
  rw [if_neg (by simp [hpatient])]
  have hnew : p.session.begin_acked = false := rfl
  cases hpoll : elapsed (p.now_ms + 2000) p.session.last_status_poll_ms kStatusPollIntervalMs with
  | true =>
    simp only [if_true, hgrace, hnew, Bool.not_false, Bool.and_self]
    exact ⟨rfl, ⟨rfl, rfl, rfl, rfl, rfl, rfl, rfl⟩, rfl, rfl, rfl, .inl rfl⟩
  | false =>
    simp only [Bool.false_eq_true, if_false, if_true, hgrace, hnew, Bool.not_false, Bool.and_self]
    exact ⟨rfl, ⟨rfl, rfl, rfl, rfl, rfl, rfl, rfl⟩, rfl, rfl, rfl, .inl rfl⟩

theorem Rewound.pump_sends (hp : p.Checked) (henv : env.Clear) (hm : p.Rewound t m) :
    ∃ out n, m.pumpOtaPushLocal p.image env (t + 2000) = (chunkOutputs out, n) ∧
      (p.Waits (t + 2000) n ∧ out = p.firstWindow ∨ p.Halfway (t + 2000) out n) := by
  have hdue : elapsed (t + 2000) m.next_send_ms 0 = true := by
    rcases hm.due with h | h
    · rw [h, elapsed_add]
      decide
    · have hlater : t + 2000 = t + 12 + 1988 := by grind
      rw [h, hlater, elapsed_add]
      decide
  have hend : m.windowEnd m.next_offset = p.firstEnd := by
    simp only [windowEnd, firstEnd, hm.next, hm.chunk, hm.window, hm.total]
    rfl
  have hopen : m.openWindow = { m with pending_end_offset := p.firstEnd } := by
    rw [openWindow, if_pos (.inl hm.closed), hend]
  have hwindow : p.firstWindow = m.windowChunks p.image p.firstEnd (8 + 8) m.next_offset := by
    rw [hm.next]
    exact windowChunks_congr hm.chunk.symm hm.total.symm p.image p.firstEnd 16 0
  obtain ⟨n, hpump, hn, hidle, hpending, hsend, hfar, happend⟩ := hm.toUnheard.pump_sends hp henv
    hm.idle hdue (by rw [hm.next]; exact hp.firstEnd_pos) hopen
  refine ⟨_, _, hpump, ?_⟩
  by_cases hmore : n.next_offset < p.firstEnd
  · right
    have hclose : n.closeWindow (t + 2000) = n := by
      unfold closeWindow
      rw [hpending, if_neg (UInt32.not_le.mpr hmore)]
    rw [hclose]
    exact
      { hn with
        idle := hidle
        next := by rw [hfar hmore, hm.next, UInt32.toNat_zero, Nat.zero_add]
        pending := hpending
        unfinished := hmore
        due := by
          rw [hsend]
          rcases hm.due with h | h
          · exact .inl (by rw [h])
          · exact .inr (by rw [h]; grind)
        rest := by
          rw [hwindow, happend 8, windowChunks_congr (hn.chunk.trans hm.chunk.symm)
            (hn.total.trans hm.total.symm)] }
  · left
    refine ⟨hn.closeWindow_waits hpending hmore _, ?_⟩
    rw [hwindow, happend 8, windowChunks_stop m p.image hmore, List.append_nil]

theorem Halfway.pump_sends (hp : p.Checked) (henv : env.Clear) {sent : List (UInt32 × Bytes)}
    (hm : p.Halfway t sent m) :
    ∃ out n, m.pumpOtaPushLocal p.image env (t + 2000) = (chunkOutputs out, n) ∧
      p.Waits (t + 2000) n ∧ sent ++ out = p.firstWindow := by
  have hdue : elapsed (t + 2000) m.next_send_ms 0 = true := by
    rcases hm.due with h | h
    · have hlater : t + 2000 = m.next_send_ms + 4000 := by grind
      rw [hlater, elapsed_add]
      decide
    · have hlater : t + 2000 = m.next_send_ms + 3988 := by grind
      rw [hlater, elapsed_add]
      decide
  have hopen : m.openWindow = { m with pending_end_offset := p.firstEnd } := by
    have hpos := hp.firstEnd_pos
    rw [openWindow, if_neg, ← hm.pending]
    rw [hm.pending, not_or]
    exact ⟨fun h => by rw [h] at hpos; exact absurd hpos (by decide), UInt32.not_le.mpr hm.unfinished⟩
  obtain ⟨n, hpump, hn, -, hpending, -, hfar, -⟩ := hm.toUnheard.pump_sends hp henv hm.idle hdue
    hm.unfinished hopen
  have hdone : ¬ n.next_offset < p.firstEnd := by
    intro hmore
    have hreached := hfar hmore
    have hend := hp.firstEnd_toNat
    have hnext := hm.next
    rw [UInt32.lt_iff_toNat_lt] at hmore
    omega
  exact ⟨_, _, hpump, hn.closeWindow_waits hpending hdone _, hm.rest.symm⟩

theorem Waits.pump_rewinds (hp : p.Checked) (henv : env.Clear) (hm : p.Waits t m) :
    ∃ n, m.pumpOtaPushLocal p.image env (t + 2000) = ([], n) ∧ p.Rewound (t + 2000) n := by
  have hmissing : ¬ m.remote_acked_offset ≥ m.pending_end_offset := by
    rw [hm.unacked, hm.pending]
    exact UInt32.not_le.mpr hp.firstEnd_pos
  have hoverdue : elapsed (t + 2000) m.wait_started_ms m.ackTimeout = true := by
    rw [hm.since, elapsed_add, ackTimeout, hm.window]
    decide
  have hleft : ¬ m.retry_count ≥ m.retryMax := by
    rw [hm.fresh, retryMax, hm.window]
    decide
  refine ⟨m.rewind (t + 2000), ?_, ?_⟩
  · simp only [pumpOtaPushLocal, hm.active, henv.pull, henv.storage, henv.paired,
      hm.streaming, Bool.not_true, Bool.or_self, Bool.false_eq_true, if_false, pumpStreaming,
      hm.begun, Bool.false_and, noteBegun, if_true, hm.waiting, pumpWaitingAck, hmissing, hoverdue,
      hleft]
  · have hnext : min m.remote_acked_offset m.total_size = 0 := by
      apply UInt32.toNat_inj.mp
      rw [UInt32.toNat_min, hm.unacked, UInt32.toNat_zero, Nat.zero_min]
    exact { hm with idle := rfl, next := hnext, closed := rfl, due := .inr rfl }

/-- What a session that hears nothing can be, its last event being at `t`. -/
inductive Silent (p : PushStart) (t : UInt32) (m : OtaPushLocalSession) : Prop
  | started (now : t = p.now_ms) (session : m = p.session) : Silent p t m
  | rewound (h : p.Rewound t m) : Silent p t m
  | halfway (sent : List (UInt32 × Bytes)) (h : p.Halfway t sent m) : Silent p t m
  | waits (h : p.Waits t m) : Silent p t m

theorem Silent.active_unacked (hm : p.Silent t m) : m.active = true ∧ m.remote_acked_offset = 0 := by
  cases hm with
  | started _ session => rw [session]; exact ⟨rfl, rfl⟩
  | rewound h => exact ⟨h.active, h.unacked⟩
  | halfway _ h => exact ⟨h.active, h.unacked⟩
  | waits h => exact ⟨h.active, h.unacked⟩

theorem Silent.pump (hp : p.Checked) (henv : env.Clear) (hm : p.Silent t m) :
    p.Silent (t + 2000) (m.pumpOtaPushLocal p.image env (t + 2000)).2 := by
  cases hm with
  | started now session =>
    rw [now, session]
    exact .rewound (pump_start henv).2
  | rewound h =>
    obtain ⟨out, n, hpump, hn | hn⟩ := h.pump_sends hp henv
    · rw [hpump]
      exact .waits hn.1
    · rw [hpump]
      exact .halfway out hn
  | halfway _ h =>
    obtain ⟨out, n, hpump, hn, -⟩ := h.pump_sends hp henv
    rw [hpump]
    exact .waits hn
  | waits h =>
    obtain ⟨n, hpump, hn⟩ := h.pump_rewinds hp henv
    rw [hpump]
    exact .rewound hn

theorem Silent.pumps (hp : p.Checked) (henv : env.Clear) (hm : p.Silent t m) (count : Nat) :
    ∃ t', p.Silent t' (handleAll p.image (silentPumps env t count) m).2 := by
  induction count generalizing t m with
  | zero => exact ⟨t, hm⟩
  | succ count ih =>
    rw [silentPumps, handleAll_cons]
    exact ih (hm.pump hp henv)

theorem chunkFrames_append (out later : List PushOutput) :
    chunkFrames (out ++ later) = chunkFrames out ++ chunkFrames later := List.filterMap_append

theorem chunkFrames_chunkOutputs (chunks : List (UInt32 × Bytes)) :
    chunkFrames (chunkOutputs chunks) = chunks := by
  induction chunks with
  | nil => rfl
  | cons c chunks ih => exact congrArg (c :: ·) ih

theorem handleAll_silentPumps (image : Bytes) (env : PushEnvironment) (t : UInt32) (count : Nat)
    (m : OtaPushLocalSession) :
    chunkFrames (handleAll image (silentPumps env t (count + 1)) m).1 =
        chunkFrames (m.pumpOtaPushLocal image env (t + 2000)).1 ++
          chunkFrames (handleAll image (silentPumps env (t + 2000) count)
            (m.pumpOtaPushLocal image env (t + 2000)).2).1 ∧
      (handleAll image (silentPumps env t (count + 1)) m).2 =
        (handleAll image (silentPumps env (t + 2000) count)
          (m.pumpOtaPushLocal image env (t + 2000)).2).2 := by
  rw [silentPumps, handleAll_cons, handle, chunkFrames_append]
  exact ⟨rfl, rfl⟩

/-- From its start the session sends the first window in at most two runs of the pump. -/
theorem Rewound.sends_window (hp : p.Checked) (henv : env.Clear) (hm : p.Rewound t m) :
    ∃ count t', chunkFrames (handleAll p.image (silentPumps env t count) m).1 = p.firstWindow ∧
      p.Waits t' (handleAll p.image (silentPumps env t count) m).2 ∧
      ∀ more, silentPumps env t (count + more) =
        silentPumps env t count ++ silentPumps env t' more := by
  obtain ⟨out, n, hpump, ⟨hn, rfl⟩ | hn⟩ := hm.pump_sends hp henv
  · refine ⟨1, t + 2000, ?_, ?_, fun more => ?_⟩
    · rw [(handleAll_silentPumps p.image env t 0 m).1, hpump, chunkFrames_chunkOutputs]
      exact List.append_nil _
    · rw [(handleAll_silentPumps p.image env t 0 m).2, hpump]
      exact hn
    · rw [Nat.add_comm]
      rfl
  · obtain ⟨later, o, hlater, ho, hall⟩ := hn.pump_sends hp henv
    refine ⟨2, t + 2000 + 2000, ?_, ?_, fun more => ?_⟩
    · rw [(handleAll_silentPumps p.image env t 1 m).1, hpump, chunkFrames_chunkOutputs,
        (handleAll_silentPumps p.image env (t + 2000) 0 n).1, hlater, chunkFrames_chunkOutputs,
        ← hall]
      exact congrArg _ (List.append_nil _)
    · rw [(handleAll_silentPumps p.image env t 1 m).2, hpump,
        (handleAll_silentPumps p.image env (t + 2000) 0 n).2, hlater]
      exact ho
    · rw [Nat.add_comm]
      rfl

/-- A session that waits and hears nothing sends its window again, as often as one likes. -/
theorem Waits.sends_again (hp : p.Checked) (henv : env.Clear) (hm : p.Waits t m) (times : Nat) :
    ∃ count t', chunkFrames (handleAll p.image (silentPumps env t count) m).1 =
        (List.replicate times p.firstWindow).flatten ∧
      p.Waits t' (handleAll p.image (silentPumps env t count) m).2 := by
  induction times generalizing t m with
  | zero => exact ⟨0, t, rfl, hm⟩
  | succ times ih =>
    obtain ⟨n, hpump, hn⟩ := hm.pump_rewinds hp henv
    obtain ⟨count, s, hsent, hwaits, hsplit⟩ := hn.sends_window hp henv
    obtain ⟨more, t', hrest, hlast⟩ := ih hwaits
    have hrun := handleAll_silentPumps p.image env t (count + more) m
    rw [hpump, hsplit, handleAll_append, chunkFrames_append, hsent, hrest] at hrun
    refine ⟨count + more + 1, t', ?_, ?_⟩
    · rw [hrun.1, List.replicate_succ, List.flatten_cons]
      rfl
    · rw [hrun.2]
      exact hlast

/-- While the acknowledged offset stays where it is, no window is sent more than `bound` times in a
row. -/
def RetriesBounded (p : PushStart) (bound : Nat) : Prop :=
  ∀ (earlier later : List PushEvent) (window : List (UInt32 × Bytes)) (times : Nat),
    (handleAll p.image (earlier ++ later) p.session).2.active = true →
    (handleAll p.image (earlier ++ later) p.session).2.remote_acked_offset =
      (handleAll p.image earlier p.session).2.remote_acked_offset →
    chunkFrames (handleAll p.image later (handleAll p.image earlier p.session).2).1 =
      (List.replicate times window).flatten →
    window ≠ [] → times ≤ bound

/-- Under every course of events in advancing time that pumps it again and again, the session ends. -/
def Ends (p : PushStart) : Prop :=
  ∀ events : Nat → PushEvent,
    (∀ k, elapsed (events (k + 1)).now_ms (events k).now_ms 1 = true) →
    (∀ k, ∃ j, k ≤ j ∧ ∃ env now_ms, events j = .pump env now_ms) →
    ∃ k, (handleAll p.image ((List.range k).map events) p.session).2.active = false

/-- The session streams its first window, and under silence it streams it again and again. -/
theorem firstWindow_unbounded (hp : p.Checked) (henv : env.Clear) (bound : Nat) :
    ¬ p.RetriesBounded bound := by
  intro hbounded
  obtain ⟨-, hrewound⟩ := pump_start (p := p) henv
  obtain ⟨count, t, -, hwaits, hsplit⟩ := hrewound.sends_window hp henv
  obtain ⟨more, t', hsent, hlast⟩ := hwaits.sends_again hp henv (bound + 1)
  have hrun : (handleAll p.image (silentPumps env p.now_ms (count + 1)) p.session).2 =
      (handleAll p.image (silentPumps env (p.now_ms + 2000) count)
        (p.session.pumpOtaPushLocal p.image env (p.now_ms + 2000)).2).2 :=
    (handleAll_silentPumps p.image env p.now_ms count p.session).2
  have hnonempty : p.firstWindow ≠ [] := by
    have hopen : (0 : UInt32) < p.session.total_size ∧ 0 < p.firstEnd :=
      ⟨UInt32.lt_of_lt_of_le hp.firstEnd_pos hp.firstEnd_le, hp.firstEnd_pos⟩
    have hwindow : p.firstWindow = p.session.windowChunks p.image p.firstEnd (15 + 1) 0 := rfl
    rw [hwindow, windowChunks, if_pos hopen]
    exact List.cons_ne_nil _ _
  have hover := hbounded (silentPumps env p.now_ms (count + 1)) (silentPumps env t more)
    p.firstWindow (bound + 1)
    (by
      rw [handleAll_append, hrun]
      exact hlast.active)
    (by
      rw [handleAll_append, hrun]
      exact hlast.unacked.trans hwaits.unacked.symm)
    (by rw [hrun]; exact hsent) hnonempty
  omega

theorem silentPumps_eq_map (env : PushEnvironment) (t : UInt32) (count : Nat) :
    silentPumps env t count =
      (List.range count).map fun k => .pump env (t + 2000 * (k + 1).toUInt32) := by
  induction count generalizing t with
  | zero => rfl
  | succ count ih =>
    rw [silentPumps, ih, List.range_succ_eq_map, List.map_cons, List.map_map]
    refine congrArg₂ _ ?_ (List.map_congr_left fun k _ => ?_)
    · have hone : (0 + 1).toUInt32 = 1 := rfl
      have hstep : t + 2000 * (0 + 1).toUInt32 = t + 2000 := by
        rw [hone, UInt32.mul_one]
      rw [hstep]
    · have hsucc : (k + 1 + 1).toUInt32 = (k + 1).toUInt32 + 1 := by
        simp only [Nat.toUInt32_eq, UInt32.ofNat_add]
        rfl
      have hstep : t + 2000 + 2000 * (k + 1).toUInt32 = t + 2000 * ((k + 1).toUInt32 + 1) := by
        grind
      rw [Function.comp_apply, Nat.succ_eq_add_one, hsucc, hstep]

theorem silent_never_ends (hp : p.Checked) (henv : env.Clear) : ¬ p.Ends := by
  intro hends
  obtain ⟨count, hended⟩ := hends (fun k => .pump env (p.now_ms + 2000 * (k + 1).toUInt32))
    (fun k => by
      have hsucc : (k + 1 + 1).toUInt32 = (k + 1).toUInt32 + 1 := by
        simp only [Nat.toUInt32_eq, UInt32.ofNat_add]
        rfl
      have hlater : p.now_ms + 2000 * (k + 1 + 1).toUInt32
          = p.now_ms + 2000 * (k + 1).toUInt32 + 2000 := by
        rw [hsucc]
        grind
      simp only [PushEvent.now_ms]
      rw [hlater, elapsed_add]
      decide)
    (fun k => ⟨k, Nat.le_refl k, env, _, rfl⟩)
  rw [← silentPumps_eq_map] at hended
  obtain ⟨t', hsilent⟩ := (Silent.started (p := p) rfl rfl).pumps hp henv count
  rw [hsilent.active_unacked.1] at hended
  cases hended

/-- The stop that the count of retransmissions should lead to is never reached. -/
theorem window_ack_timeout_dead (p : PushStart) (events : List PushEvent) :
    ∀ o ∈ (handleAll p.image events p.session).1, o.isWindowAckTimeout = false := by
  have hstep : ∀ m e, RetryIdle m → RetryIdle (m.handle p.image e).2 ∧
      ∀ o ∈ (m.handle p.image e).1, o.isWindowAckTimeout = false :=
    fun _ e h => handle_untimed h p.image e
  exact (handleAll_invariant hstep events (fun h => by cases h)).2

end PushStart

theorem PushExample.radio_clear : PushExample.radio.Clear :=
  ⟨rfl, rfl, rfl, fun _ => rfl, fun _ => rfl⟩

/-- The pump counts its retransmissions only until the window is out again, so nothing bounds them:
under silence a session retransmits its first window as often as one likes, it never ends, and no
course of events leads to the stop that the count should lead to. -/
theorem push_retries_unbounded (p : PushStart) (hp : p.Checked) :
    (∀ bound, ¬ p.RetriesBounded bound) ∧ ¬ p.Ends ∧
      ∀ events, ∀ o ∈ (handleAll p.image events p.session).1, o.isWindowAckTimeout = false :=
  ⟨PushStart.firstWindow_unbounded hp PushExample.radio_clear,
    PushStart.silent_never_ends hp PushExample.radio_clear, p.window_ack_timeout_dead⟩

theorem PushExample.checked : (PushExample.start 2048 32 PushExample.idle).Checked :=
  ⟨by decide, by rw [PushExample.start, List.length_replicate]; decide⟩

theorem push_retries_unbounded_small :
    (PushExample.start 2048 32 PushExample.idle).Checked ∧ ¬ (PushExample.start 2048 32 PushExample.idle).Ends :=
  ⟨PushExample.checked, (push_retries_unbounded _ PushExample.checked).2.1⟩

/-- A peer that falls silent after the begin frame keeps a session of 2048 bytes retransmitting. -/
theorem silent_peer_retries :
    ¬ ((PushExample.start 2048 32 PushExample.idle).RetriesBounded (1 + kChunkAckMaxRetryRecovery.toNat) ∧
      (PushExample.start 2048 32 PushExample.idle).Ends) := fun h =>
  PushStart.firstWindow_unbounded PushExample.checked PushExample.radio_clear _ h.1

end EspNowLink
