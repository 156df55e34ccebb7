import EspNowLink.Ota.PushEvents

namespace EspNowLink

/-- An output that ends the transfer: the end frame, or the report that it succeeded. -/
def PushOutput.isEndFrame : PushOutput → Bool
  | .endFrame _ _ => true
  | _ => false

def PushOutput.isSuccess : PushOutput → Bool
  | .done success _ _ _ _ _ _ => success
  | _ => false

namespace OtaPushLocalSession

/-- The session pushes `image`, in chunks that are not empty. -/
structure Pushes (m : OtaPushLocalSession) (image : Bytes) : Prop where
  image : image.length = m.total_size.toNat
  size : 0 < m.total_size.toNat
  chunk : 0 < m.chunk_bytes.toNat
  chunk_le : m.chunk_bytes.toNat ≤ 220

/-- The window that is open ends at the end of the image, or a number of whole chunks further on. -/
def ChunksLeft (m : OtaPushLocalSession) : Prop :=
  m.pending_end_offset = m.total_size ∨
    ∃ k, m.pending_end_offset.toNat = m.next_offset.toNat + k * m.chunk_bytes.toNat

/-- A streaming session is past its last byte only while it waits for the last window, or with all of
the image acknowledged. -/
structure Window (m : OtaPushLocalSession) : Prop where
  begun : m.begin_acked = true
  next_le : m.next_offset.toNat ≤ m.total_size.toNat
  pending_le : m.pending_end_offset.toNat ≤ m.total_size.toNat
  finished : m.waiting_chunk_ack = false → m.next_offset = m.total_size →
    m.total_size ≤ m.remote_acked_offset
  left : m.waiting_chunk_ack = false → m.next_offset < m.pending_end_offset → m.ChunksLeft
  last : m.waiting_chunk_ack = true → m.next_offset = m.total_size →
    m.pending_end_offset = m.total_size

/-- Nothing was sent yet. -/
structure Unsent (m : OtaPushLocalSession) : Prop where
  begun : m.begin_acked = false
  next : m.next_offset = 0
  pending : m.pending_end_offset = 0
  waiting : m.waiting_chunk_ack = false

/-- What an active session keeps, phase by phase. -/
structure Phased (m : OtaPushLocalSession) : Prop where
  unsent : m.phase = .WaitBegin → m.Unsent
  window : m.phase = .Streaming → m.Window
  ended : m.phase = .WaitEnd → m.begin_acked = true
  busy : m.phase ≠ .Idle
  acked_le : m.remote_acked_offset ≤ m.total_size

section

variable {m : OtaPushLocalSession} {image : Bytes}

theorem chunkData_length (hm : m.Pushes image) {x : UInt32} (hx : x.toNat < m.total_size.toNat) :
    (m.chunkData image x).length = min m.chunk_bytes.toNat (m.total_size.toNat - x.toNat) := by
  have hsub : (m.total_size - x).toNat = m.total_size.toNat - x.toNat :=
    UInt32.toNat_sub_of_le _ _ (by rw [UInt32.le_iff_toNat_le]; omega)
  simp only [chunkData, readAt, List.length_take, List.length_drop, hm.image, hsub]
  omega

theorem noteSent_next (hm : m.Pushes image) {x : UInt32} (hx : x.toNat < m.total_size.toNat) :
    (x + (m.chunkData image x).length.toUInt32).toNat =
      x.toNat + min m.chunk_bytes.toNat (m.total_size.toNat - x.toNat) := by
  have hlt := m.total_size.toNat_lt
  have hlen := chunkData_length hm hx
  have hsmall : (m.chunkData image x).length < 2 ^ 32 := by omega
  rw [UInt32.toNat_add, Nat.toUInt32_eq, UInt32.toNat_ofNat', Nat.mod_eq_of_lt hsmall, hlen]
  exact Nat.mod_eq_of_lt (by omega)

theorem Phased.stop (hm : m.active = true) (reachable success : Bool) (status : ManagementStatus)
    (code : OtaStatusCode) (reason : String) :
    (m.stopOtaPushLocal reachable success status code reason).2.active = false := by
  unfold stopOtaPushLocal
  rw [if_neg (by simp [hm])]
  rfl

/-- What an event leaves: an active session keeps its phases and the acknowledged offset, and no end
frame and no success was sent. -/
def Plain (m : OtaPushLocalSession) (r : List PushOutput × OtaPushLocalSession) : Prop :=
  (r.2.active = true → r.2.Phased ∧ r.2.remote_acked_offset = m.remote_acked_offset) ∧
    ∀ o ∈ r.1, o.isEndFrame = false ∧ o.isSuccess = false

theorem Plain.same (hm : m.active = true → m.Phased) : m.Plain ([], m) :=
  ⟨fun h => ⟨hm h, rfl⟩, by simp⟩

theorem Plain.stopped (hm : m.active = true) (reachable : Bool) (status : ManagementStatus)
    (code : OtaStatusCode) (reason : String) {o : OtaPushLocalSession} :
    o.Plain (m.stopOtaPushLocal reachable false status code reason) := by
  unfold stopOtaPushLocal
  rw [if_neg (by simp [hm])]
  refine ⟨fun h => (by cases h), fun out hout => ?_⟩
  rcases List.mem_append.mp hout with hout | hout
  · split at hout
    · rw [List.mem_singleton.mp hout]
      exact ⟨rfl, rfl⟩
    · simp at hout
  · rw [List.mem_singleton.mp hout]
    exact ⟨rfl, rfl⟩

/-- The session is in its send loop, at most at the end of the window that is open. -/
structure Looping (m : OtaPushLocalSession) (image : Bytes) : Prop where
  active : m.active = true
  phase : m.phase = .Streaming
  begun : m.begin_acked = true
  idle : m.waiting_chunk_ack = false
  pushes : m.Pushes image
  next_le : m.next_offset.toNat ≤ m.pending_end_offset.toNat
  pending_le : m.pending_end_offset.toNat ≤ m.total_size.toNat
  left : m.ChunksLeft
  acked_le : m.remote_acked_offset ≤ m.total_size

/-- A chunk short of the window's end does not go beyond it, and leaves whole chunks to send. -/
theorem Looping.noteSent (hm : m.Looping image) (hmore : m.next_offset < m.pending_end_offset) :
    (m.noteSent (m.chunkData image m.next_offset).length).Looping image := by
  have hpending := hm.pending_le
  rw [UInt32.lt_iff_toNat_lt] at hmore
  have hnext := noteSent_next hm.pushes (x := m.next_offset) (by omega)
  have hchunk := hm.pushes.chunk
  have hbound : (m.next_offset + (m.chunkData image m.next_offset).length.toUInt32).toNat
        ≤ m.pending_end_offset.toNat ∧
      (m.noteSent (m.chunkData image m.next_offset).length).ChunksLeft := by
    rcases hm.left with htotal | ⟨k, hk⟩
    · rw [htotal] at hmore ⊢
      exact ⟨by omega, .inl htotal⟩
    · cases k with
      | zero =>
        rw [Nat.zero_mul, Nat.add_zero] at hk
        omega
      | succ k =>
        rw [Nat.succ_mul] at hk
        have hwhole : min m.chunk_bytes.toNat (m.total_size.toNat - m.next_offset.toNat)
            = m.chunk_bytes.toNat := Nat.min_eq_left (by omega)
        rw [hwhole] at hnext
        refine ⟨by omega, .inr ⟨k, ?_⟩⟩
        change m.pending_end_offset.toNat
          = (m.next_offset + (m.chunkData image m.next_offset).length.toUInt32).toNat
            + k * m.chunk_bytes.toNat
        omega
  exact
    { active := hm.active, phase := hm.phase, begun := hm.begun, idle := hm.idle
      pushes := ⟨hm.pushes.image, hm.pushes.size, hm.pushes.chunk, hm.pushes.chunk_le⟩
      next_le := hbound.1, pending_le := hpending, left := hbound.2, acked_le := hm.acked_le }

theorem sendChunks_looping (image : Bytes) (env : PushEnvironment) (now_ms : UInt32) (budget : Nat)
    (hm : m.Looping image) :
    ((sendChunks image env now_ms budget m).2.2.active = true →
      (sendChunks image env now_ms budget m).2.2.Looping image ∧
        (sendChunks image env now_ms budget m).2.2.remote_acked_offset = m.remote_acked_offset ∧
        ((sendChunks image env now_ms budget m).1 = false →
          (sendChunks image env now_ms budget m).2.2.next_offset <
            (sendChunks image env now_ms budget m).2.2.pending_end_offset)) ∧
      ∀ o ∈ (sendChunks image env now_ms budget m).2.1,
        o.isEndFrame = false ∧ o.isSuccess = false := by
  induction budget generalizing m with
  | zero => exact ⟨fun _ => ⟨hm, rfl, fun h => (by cases h)⟩, by simp [sendChunks]⟩
  | succ budget ih =>
    by_cases hgoes : m.next_offset < m.total_size ∧ m.next_offset < m.pending_end_offset
    · unfold sendChunks
      rw [if_pos hgoes]
      dsimp only
      split
      · refine ⟨fun h => ?_, ?_⟩
        · dsimp only at h
          rw [Phased.stop hm.active] at h
          cases h
        · exact (Plain.stopped hm.active env.paired .InternalError .StorageNotReady
            "chunk read failed" (o := m)).2
      split
      · split
        · have hcounted : ({ m with send_fail_streak := m.send_fail_streak + 1 } :
              OtaPushLocalSession).active = true := hm.active
          refine ⟨fun h => ?_, ?_⟩
          · dsimp only at h
            rw [Phased.stop hcounted] at h
            cases h
          · exact (Plain.stopped hcounted env.paired .InternalError .InternalError
              "chunk send failed" (o := m)).2
        · refine ⟨fun _ => ⟨?_, rfl, fun _ => hgoes.2⟩, by simp⟩
          exact
            { active := hm.active, phase := hm.phase, begun := hm.begun, idle := hm.idle
              pushes := ⟨hm.pushes.image, hm.pushes.size, hm.pushes.chunk, hm.pushes.chunk_le⟩
              next_le := hm.next_le, pending_le := hm.pending_le, left := hm.left
              acked_le := hm.acked_le }
      · obtain ⟨hrest, hout⟩ := ih (hm.noteSent hgoes.2)
        refine ⟨hrest, fun o ho => ?_⟩
        rcases List.mem_cons.mp ho with rfl | ho
        · exact ⟨rfl, rfl⟩
        · exact hout o ho
    · rw [sendChunks, if_neg hgoes]
      exact ⟨fun _ => ⟨hm, rfl, fun h => (by cases h)⟩, by simp⟩

theorem Looping.phased (hm : m.Looping image) (hmore : m.next_offset < m.pending_end_offset) :
    m.Phased := by
  have hpending := hm.pending_le
  have hlt := hmore
  rw [UInt32.lt_iff_toNat_lt] at hlt
  have hphase := hm.phase
  exact
    { unsent := fun h => by rw [hphase] at h; cases h
      window := fun _ =>
        { begun := hm.begun
          next_le := by omega
          pending_le := hpending
          finished := fun _ h => by rw [h] at hlt; omega
          left := fun _ _ => hm.left
          last := fun h => by rw [hm.idle] at h; cases h }
      ended := fun h => by rw [hphase] at h; cases h
      busy := by rw [hphase]; exact fun h => by cases h
      acked_le := hm.acked_le }

theorem Looping.closeWindow (hm : m.Looping image) (now_ms : UInt32) :
    (m.closeWindow now_ms).Phased ∧
      (m.closeWindow now_ms).remote_acked_offset = m.remote_acked_offset := by
  have hpending := hm.pending_le
  have hnext := hm.next_le
  have hphase := hm.phase
  unfold OtaPushLocalSession.closeWindow
  split
  · refine ⟨?_, rfl⟩
    exact
      { unsent := fun h => by dsimp only at h; rw [hphase] at h; cases h
        window := fun _ =>
          { begun := hm.begun
            next_le := by dsimp only; omega
            pending_le := hpending
            finished := fun h => by cases h
            left := fun h => by cases h
            last := fun _ h => by
              dsimp only at h ⊢
              rw [h] at hnext
              exact UInt32.toNat_inj.mp (by omega) }
        ended := fun h => by dsimp only at h; rw [hphase] at h; cases h
        busy := by dsimp only; rw [hphase]; exact fun h => by cases h
        acked_le := hm.acked_le }
  · rename_i hopen
    exact ⟨hm.phased (UInt32.not_le.mp hopen), rfl⟩

/-- What the pump leaves and sends: the end frame goes out only with the whole image acknowledged. -/
def Pumped (m : OtaPushLocalSession) (r : List PushOutput × OtaPushLocalSession) : Prop :=
  (r.2.active = true → r.2.Phased ∧ r.2.remote_acked_offset = m.remote_acked_offset) ∧
    ∀ o ∈ r.1, o.isSuccess = false ∧ (o.isEndFrame = true → m.total_size ≤ m.remote_acked_offset)

theorem Plain.pumped {r : List PushOutput × OtaPushLocalSession} (h : m.Plain r) : m.Pumped r :=
  ⟨h.1, fun o ho => ⟨(h.2 o ho).2, fun hend => by rw [(h.2 o ho).1] at hend; cases hend⟩⟩

/-- The pump opens a window of whole chunks, unless the 32-bit sum wraps and the window is empty. -/
theorem openWindow_cases (hactive : m.active = true) (hphase : m.phase = .Streaming)
    (hm : m.Phased) (hp : m.Pushes image) (hidle : m.waiting_chunk_ack = false)
    (hmore : m.next_offset < m.total_size) :
    m.openWindow.Looping image ∨
      ∃ stop, stop.toNat ≤ m.total_size.toNat ∧ stop < m.next_offset ∧
        m.openWindow = { m with pending_end_offset := stop } := by
  have hwindow := hm.window hphase
  have hlt := hmore
  rw [UInt32.lt_iff_toNat_lt] at hlt
  unfold openWindow
  by_cases hopen : m.pending_end_offset = 0 ∨ m.next_offset ≥ m.pending_end_offset
  · rw [if_pos hopen]
    have hsmall : m.chunk_bytes.toNat * m.window_size_chunks.toNat < 2 ^ 32 := by
      have := Nat.mul_le_mul hp.chunk_le (Nat.le_of_lt m.window_size_chunks.toNat_lt)
      omega
    have hend : (m.windowEnd m.next_offset).toNat =
        min ((m.next_offset.toNat + m.chunk_bytes.toNat * m.window_size_chunks.toNat) % 2 ^ 32)
          m.total_size.toNat := by
      have hbytes : (m.chunk_bytes.toUInt32 * m.window_size_chunks.toUInt32).toNat
          = m.chunk_bytes.toNat * m.window_size_chunks.toNat := by
        rw [UInt32.toNat_mul, UInt16.toNat_toUInt32, UInt8.toNat_toUInt32]
        exact Nat.mod_eq_of_lt hsmall
      rw [windowEnd, UInt32.toNat_min, UInt32.toNat_add, hbytes]
    generalize hstop : m.windowEnd m.next_offset = stop at hend ⊢
    have hstop_le : stop.toNat ≤ m.total_size.toNat := by omega
    rcases Nat.lt_or_ge (m.next_offset.toNat + m.chunk_bytes.toNat * m.window_size_chunks.toNat)
      (2 ^ 32) with hfit | hwrap
    · left
      rw [Nat.mod_eq_of_lt hfit] at hend
      have hleft : stop = m.total_size ∨ ∃ k, stop.toNat = m.next_offset.toNat
          + k * m.chunk_bytes.toNat := by
        rcases Nat.le_total m.total_size.toNat
          (m.next_offset.toNat + m.chunk_bytes.toNat * m.window_size_chunks.toNat) with h | h
        · rw [Nat.min_eq_right h] at hend
          exact .inl (UInt32.toNat_inj.mp hend)
        · rw [Nat.min_eq_left h] at hend
          exact .inr ⟨m.window_size_chunks.toNat, by rw [hend, Nat.mul_comm]⟩
      exact
        { active := hactive, phase := hphase, begun := hwindow.begun, idle := hidle
          pushes := ⟨hp.image, hp.size, hp.chunk, hp.chunk_le⟩
          next_le := by dsimp only; omega
          pending_le := hstop_le
          left := hleft
          acked_le := hm.acked_le }
    · right
      have hsum := m.next_offset.toNat_lt
      refine ⟨stop, hstop_le, ?_, rfl⟩
      rw [UInt32.lt_iff_toNat_lt]
      omega
  · left
    rw [if_neg hopen]
    rw [not_or] at hopen
    have hbefore : m.next_offset < m.pending_end_offset := UInt32.not_le.mp hopen.2
    have hbefore' := hbefore
    rw [UInt32.lt_iff_toNat_lt] at hbefore'
    exact
      { active := hactive, phase := hphase, begun := hwindow.begun, idle := hidle, pushes := hp
        next_le := by omega
        pending_le := hwindow.pending_le
        left := hwindow.left hidle hbefore
        acked_le := hm.acked_le }

theorem pumpSending_pumped (hactive : m.active = true) (hphase : m.phase = .Streaming)
    (hm : m.Phased) (hp : m.Pushes image) (hidle : m.waiting_chunk_ack = false)
    (env : PushEnvironment) (now_ms : UInt32) : m.Pumped (m.pumpSending image env now_ms) := by
  have hwindow := hm.window hphase
  unfold pumpSending
  split
  · rename_i hend
    have hlast : m.next_offset = m.total_size := by
      have hle := hwindow.next_le
      rw [ge_iff_le, UInt32.le_iff_toNat_le] at hend
      exact UInt32.toNat_inj.mp (by omega)
    have hacked := hwindow.finished hidle hlast
    split
    · exact (Plain.stopped hactive _ _ _ _).pumped
    · refine ⟨fun _ => ⟨?_, rfl⟩, fun o ho => ⟨?_, fun _ => hacked⟩⟩
      · exact
          { unsent := fun h => by cases h
            window := fun h => by cases h
            ended := fun _ => hwindow.begun
            busy := fun h => by cases h
            acked_le := hm.acked_le }
      · rw [List.mem_singleton.mp ho]
        rfl
  rename_i hmore
  rw [ge_iff_le, UInt32.not_le] at hmore
  split
  · exact (Plain.same fun _ => hm).pumped
  rcases openWindow_cases hactive hphase hm hp hidle hmore with hloop | ⟨stop, hle, hwrap, hopen⟩
  · obtain ⟨hrest, hout⟩ := sendChunks_looping image env now_ms kChunkBudgetPerTick hloop
    have hacked : m.openWindow.remote_acked_offset = m.remote_acked_offset := by
      unfold openWindow
      split <;> rfl
    rcases hrun : sendChunks image env now_ms kChunkBudgetPerTick m.openWindow with ⟨ran, out, n⟩
    rw [hrun] at hrest hout
    dsimp only at hrest hout ⊢
    refine ⟨fun h => ?_, fun o ho => ⟨(hout o ho).2, fun hend => ?_⟩⟩
    · dsimp only at h ⊢
      cases ran with
      | true =>
        rw [if_pos rfl] at h ⊢
        have hn : n.active = true := by
          unfold closeWindow at h
          split at h <;> exact h
        obtain ⟨hlooping, hsame, -⟩ := hrest hn
        obtain ⟨hphased, hkept⟩ := hlooping.closeWindow now_ms
        exact ⟨hphased, hkept.trans (hsame.trans hacked)⟩
      | false =>
        rw [if_neg (by simp)] at h ⊢
        obtain ⟨hlooping, hsame, hbefore⟩ := hrest h
        exact ⟨hlooping.phased (hbefore rfl), hsame.trans hacked⟩
    · rw [(hout o ho).1] at hend
      cases hend
  · -- the window is empty, so the session waits at once
    have hnone : ¬(m.next_offset < m.total_size ∧ m.next_offset < stop) := by
      rw [UInt32.lt_iff_toNat_lt] at hwrap
      rw [UInt32.lt_iff_toNat_lt, UInt32.lt_iff_toNat_lt]
      omega
    have hsend : sendChunks image env now_ms kChunkBudgetPerTick m.openWindow
        = (true, [], m.openWindow) := by
      rw [hopen]
      unfold kChunkBudgetPerTick sendChunks
      rw [if_neg hnone]
    rw [hsend, hopen]
    dsimp only
    rw [if_pos rfl, closeWindow, if_pos (UInt32.le_of_lt hwrap)]
    refine ⟨fun _ => ⟨?_, rfl⟩, by simp⟩
    exact
      { unsent := fun h => by dsimp only at h; rw [hphase] at h; cases h
        window := fun _ =>
          { begun := hwindow.begun
            next_le := hwindow.next_le
            pending_le := hle
            finished := fun h => by cases h
            left := fun h => by cases h
            last := fun _ h => by
              dsimp only at h
              rw [h] at hmore
              exact absurd hmore (UInt32.lt_irrefl _) }
        ended := fun h => by dsimp only at h; rw [hphase] at h; cases h
        busy := by dsimp only; rw [hphase]; exact fun h => by cases h
        acked_le := hm.acked_le }

theorem pumpWaitingAck_pumped (hactive : m.active = true) (hphase : m.phase = .Streaming)
    (hm : m.Phased) (hwait : m.waiting_chunk_ack = true) (env : PushEnvironment) (now_ms : UInt32) :
    m.Pumped (m.pumpWaitingAck env now_ms) := by
  have hwindow := hm.window hphase
  unfold pumpWaitingAck
  split
  · rename_i hacked
    refine ⟨fun _ => ⟨?_, rfl⟩, by simp⟩
    exact
      { unsent := fun h => by dsimp only at h; rw [hphase] at h; cases h
        window := fun _ =>
          { begun := hwindow.begun
            next_le := hwindow.next_le
            pending_le := Nat.zero_le _
            finished := fun _ h => by
              rw [hwindow.last hwait h] at hacked
              exact hacked
            left := fun _ h => by
              rw [UInt32.lt_iff_toNat_lt] at h
              exact absurd h (Nat.not_lt_zero _)
            last := fun h => by cases h }
        ended := fun h => by dsimp only at h; rw [hphase] at h; cases h
        busy := by dsimp only; rw [hphase]; exact fun h => by cases h
        acked_le := hm.acked_le }
  split
  · split
    · exact (Plain.stopped hactive _ _ _ _).pumped
    · refine ⟨fun _ => ⟨?_, rfl⟩, by simp⟩
      have hnext : min m.remote_acked_offset m.total_size = m.remote_acked_offset := by
        have hle := hm.acked_le
        rw [UInt32.le_iff_toNat_le] at hle
        apply UInt32.toNat_inj.mp
        rw [UInt32.toNat_min, Nat.min_eq_left hle]
      exact
        { unsent := fun h => by
            change m.phase = .WaitBegin at h
            rw [hphase] at h
            cases h
          window := fun _ =>
            { begun := hwindow.begun
              next_le := by
                change (min m.remote_acked_offset m.total_size).toNat ≤ m.total_size.toNat
                rw [hnext]
                exact hm.acked_le
              pending_le := Nat.zero_le _
              finished := fun _ h => by
                change min m.remote_acked_offset m.total_size = m.total_size at h
                rw [hnext] at h
                exact UInt32.le_of_eq h.symm
              left := fun _ h => by
                rw [UInt32.lt_iff_toNat_lt] at h
                exact absurd h (Nat.not_lt_zero _)
              last := fun h => by cases h }
          ended := fun h => by
            change m.phase = .WaitEnd at h
            rw [hphase] at h
            cases h
          busy := by
            change m.phase ≠ .Idle
            rw [hphase]
            exact fun h => by cases h
          acked_le := hm.acked_le }
  · exact (Plain.same fun _ => hm).pumped

theorem Unsent.startStreaming (hm : m.Unsent) (hp : m.Pushes image)
    (hacked : m.remote_acked_offset ≤ m.total_size) (now_ms : UInt32) :
    (m.startStreaming now_ms).Phased where
  unsent h := by cases h
  window _ :=
    { begun := rfl
      next_le := by
        change m.next_offset.toNat ≤ _
        rw [hm.next]
        exact Nat.zero_le _
      pending_le := by
        change m.pending_end_offset.toNat ≤ _
        rw [hm.pending]
        exact Nat.zero_le _
      finished := fun _ h => by
        change m.next_offset = m.total_size at h
        have hsize := hp.size
        rw [← h, hm.next] at hsize
        exact absurd hsize (Nat.lt_irrefl _)
      left := fun _ h => by
        change m.next_offset < m.pending_end_offset at h
        rw [hm.next, hm.pending] at h
        exact absurd h (UInt32.lt_irrefl _)
      last := fun h => by cases h }
  ended h := by cases h
  busy h := by cases h
  acked_le := hacked

theorem pumpWaitBegin_pumped (hactive : m.active = true) (hphase : m.phase = .WaitBegin)
    (hm : m.Phased) (hp : m.Pushes image) (env : PushEnvironment) (now_ms : UInt32) :
    m.Pumped (m.pumpWaitBegin env now_ms) := by
  have hunsent := hm.unsent hphase
  unfold pumpWaitBegin
  split
  · exact (Plain.stopped hactive _ _ _ _).pumped
  have hpoll : ∀ o ∈ (if elapsed now_ms m.last_status_poll_ms kStatusPollIntervalMs then
      [PushOutput.statusRequest] else []), o.isSuccess = false ∧
        (o.isEndFrame = true → m.total_size ≤ m.remote_acked_offset) := by
    intro o ho
    split at ho
    · rw [List.mem_singleton.mp ho]
      exact ⟨rfl, fun h => by cases h⟩
    · simp at ho
  have hnoted : (if elapsed now_ms m.last_status_poll_ms kStatusPollIntervalMs then
        { m with last_status_poll_ms := now_ms } else m).Unsent ∧
      (if elapsed now_ms m.last_status_poll_ms kStatusPollIntervalMs then
        { m with last_status_poll_ms := now_ms } else m).Pushes image ∧
      (if elapsed now_ms m.last_status_poll_ms kStatusPollIntervalMs then
        { m with last_status_poll_ms := now_ms } else m).Phased ∧
      (if elapsed now_ms m.last_status_poll_ms kStatusPollIntervalMs then
        { m with last_status_poll_ms := now_ms } else m).remote_acked_offset
          = m.remote_acked_offset := by
    split
    · refine ⟨⟨hunsent.begun, hunsent.next, hunsent.pending, hunsent.waiting⟩,
        ⟨hp.image, hp.size, hp.chunk, hp.chunk_le⟩, ?_, rfl⟩
      exact
        { unsent := fun _ => ⟨hunsent.begun, hunsent.next, hunsent.pending, hunsent.waiting⟩
          window := fun h => by dsimp only at h; rw [hphase] at h; cases h
          ended := fun h => by dsimp only at h; rw [hphase] at h; cases h
          busy := hm.busy
          acked_le := hm.acked_le }
    · exact ⟨hunsent, hp, hm, rfl⟩
  dsimp only
  generalize (if elapsed now_ms m.last_status_poll_ms kStatusPollIntervalMs then
    { m with last_status_poll_ms := now_ms } else m) = n at hnoted ⊢
  generalize (if elapsed now_ms m.last_status_poll_ms kStatusPollIntervalMs then
    [PushOutput.statusRequest] else []) = out at hpoll ⊢
  obtain ⟨hn, hpn, hphased, hkept⟩ := hnoted
  split
  · exact ⟨fun _ => ⟨hn.startStreaming hpn hphased.acked_le now_ms, hkept⟩, hpoll⟩
  · exact ⟨fun _ => ⟨hphased, hkept⟩, hpoll⟩

theorem pumpOtaPushLocal_pumped (hm : m.active = true → m.Phased)
    (hp : m.active = true → m.Pushes image) (env : PushEnvironment) (now_ms : UInt32) : m.Pumped (m.pumpOtaPushLocal image env now_ms) := by
  unfold pumpOtaPushLocal
  by_cases hactive : m.active = true
  · rw [if_neg (by simp [hactive])]
    have hphased := hm hactive
    split
    · exact (Plain.stopped hactive _ _ _ _).pumped
    split
    · exact (Plain.stopped hactive _ _ _ _).pumped
    split
    · rename_i hphase
      exact pumpWaitBegin_pumped hactive hphase hphased (hp hactive) env now_ms
    · split
      · exact (Plain.stopped hactive _ _ _ _).pumped
      · exact (Plain.same hm).pumped
    · rename_i hphase
      have hbegun := (hphased.window hphase).begun
      have hnoted : m.noteBegun now_ms = m := by
        unfold noteBegun
        rw [if_pos hbegun]
      unfold pumpStreaming
      rw [if_neg (by simp [hbegun]), hnoted]
      dsimp only
      by_cases hwait : m.waiting_chunk_ack = true
      · rw [if_pos hwait]
        exact pumpWaitingAck_pumped hactive hphase hphased hwait env now_ms
      · rw [if_neg hwait]
        exact pumpSending_pumped hactive hphase hphased (hp hactive) (by simpa using hwait) env now_ms
    · exact (Plain.same hm).pumped
  · rw [if_pos (by simpa using hactive)]
    exact (Plain.same hm).pumped

/-- `n` differs from `m` in the acknowledged offset, the recovery and the activity time at most. -/
structure SameStream (m n : OtaPushLocalSession) : Prop where
  active : n.active = m.active
  phase : n.phase = m.phase
  begun : n.begin_acked = m.begin_acked
  waiting : n.waiting_chunk_ack = m.waiting_chunk_ack
  next : n.next_offset = m.next_offset
  pending : n.pending_end_offset = m.pending_end_offset
  total : n.total_size = m.total_size
  chunk : n.chunk_bytes = m.chunk_bytes

theorem SameStream.phased {n : OtaPushLocalSession} (h : m.SameStream n) (hm : m.Phased)
    (hmono : m.remote_acked_offset ≤ n.remote_acked_offset)
    (hle : n.remote_acked_offset ≤ m.total_size) : n.Phased where
  unsent hphase := by
    have hunsent := hm.unsent (h.phase.symm.trans hphase)
    exact ⟨h.begun.trans hunsent.begun, h.next.trans hunsent.next,
      h.pending.trans hunsent.pending, h.waiting.trans hunsent.waiting⟩
  window hphase := by
    have hwindow := hm.window (h.phase.symm.trans hphase)
    exact
      { begun := h.begun.trans hwindow.begun
        next_le := by rw [h.next, h.total]; exact hwindow.next_le
        pending_le := by rw [h.pending, h.total]; exact hwindow.pending_le
        finished := fun hidle hlast => by
          rw [h.waiting] at hidle
          rw [h.next, h.total] at hlast
          rw [h.total]
          exact UInt32.le_trans (hwindow.finished hidle hlast) hmono
        left := fun hidle hmore => by
          rw [h.waiting] at hidle
          rw [h.next, h.pending] at hmore
          have hleft := hwindow.left hidle hmore
          unfold ChunksLeft at hleft ⊢
          rw [h.pending, h.total, h.next, h.chunk]
          exact hleft
        last := fun hwait hlast => by
          rw [h.waiting] at hwait
          rw [h.next, h.total] at hlast
          rw [h.pending, h.total]
          exact hwindow.last hwait hlast }
  ended hphase := h.begun.trans (hm.ended (h.phase.symm.trans hphase))
  busy := by rw [h.phase]; exact hm.busy
  acked_le := by rw [h.total]; exact hle

theorem SameStream.pushes {n : OtaPushLocalSession} (h : m.SameStream n) (hp : m.Pushes image) :
    n.Pushes image where
  image := by rw [h.total]; exact hp.image
  size := by rw [h.total]; exact hp.size
  chunk := by rw [h.chunk]; exact hp.chunk
  chunk_le := by rw [h.chunk]; exact hp.chunk_le

theorem noteAcked_same (m : OtaPushLocalSession) (offset : UInt32) :
    m.SameStream (m.noteAckedOffset offset).endRecovery ∧
      (m.noteAckedOffset offset).endRecovery.remote_acked_offset
        = max m.remote_acked_offset offset := by
  have hnoted : m.SameStream (m.noteAckedOffset offset) ∧
      (m.noteAckedOffset offset).remote_acked_offset = max m.remote_acked_offset offset := by
    unfold noteAckedOffset
    split
    · rename_i hmore
      refine ⟨⟨rfl, rfl, rfl, rfl, rfl, rfl, rfl, rfl⟩, ?_⟩
      rw [gt_iff_lt, UInt32.lt_iff_toNat_lt] at hmore
      apply UInt32.toNat_inj.mp
      dsimp only
      rw [UInt32.toNat_max]
      omega
    · rename_i hless
      refine ⟨⟨rfl, rfl, rfl, rfl, rfl, rfl, rfl, rfl⟩, ?_⟩
      rw [gt_iff_lt, UInt32.lt_iff_toNat_lt] at hless
      apply UInt32.toNat_inj.mp
      rw [UInt32.toNat_max]
      omega
  obtain ⟨hsame, hmax⟩ := hnoted
  unfold endRecovery
  split
  · exact ⟨⟨hsame.active, hsame.phase, hsame.begun, hsame.waiting, hsame.next, hsame.pending,
      hsame.total, hsame.chunk⟩, hmax⟩
  · exact ⟨hsame, hmax⟩

theorem onChunkAck_phased (hm : m.Phased) (hp : m.Pushes image) {offset : UInt32}
    (hle : offset ≤ m.total_size) (now_ms : UInt32) :
    (m.onChunkAck offset now_ms).Phased ∧
      (m.onChunkAck offset now_ms).remote_acked_offset = max m.remote_acked_offset offset := by
  obtain ⟨hsame, hmax⟩ := noteAcked_same m offset
  have hacked := hm.acked_le
  rw [UInt32.le_iff_toNat_le] at hle hacked
  have hn : (m.noteAckedOffset offset).endRecovery.Phased := by
    refine hsame.phased hm ?_ ?_
    · rw [hmax, UInt32.le_iff_toNat_le, UInt32.toNat_max]
      omega
    · rw [hmax, UInt32.le_iff_toNat_le, UInt32.toNat_max]
      omega
  have hpn := hsame.pushes hp
  unfold onChunkAck
  dsimp only
  generalize (m.noteAckedOffset offset).endRecovery = n at hn hpn hmax ⊢
  split
  · rename_i hfirst
    have hbegin : n.begin_acked = false := by
      have := Bool.and_eq_true_iff.mp hfirst
      simpa using this.1
    have hphase : n.phase = .WaitBegin := by
      cases hphase : n.phase with
      | WaitBegin => rfl
      | Idle => exact absurd hphase hn.busy
      | Streaming =>
        have := (hn.window hphase).begun
        rw [hbegin] at this
        cases this
      | WaitEnd =>
        have := hn.ended hphase
        rw [hbegin] at this
        cases this
    exact ⟨(hn.unsent hphase).startStreaming hpn hn.acked_le now_ms, hmax⟩
  split
  · rename_i hdone
    obtain ⟨hphase, hwait, hreached⟩ := hdone
    have hwindow := hn.window hphase
    refine ⟨?_, hmax⟩
    exact
      { unsent := fun h => by dsimp only at h; rw [hphase] at h; cases h
        window := fun _ =>
          { begun := hwindow.begun
            next_le := hwindow.next_le
            pending_le := Nat.zero_le _
            finished := fun _ h => by
              rw [hwindow.last hwait h] at hreached
              dsimp only
              rw [hmax]
              rw [ge_iff_le, UInt32.le_iff_toNat_le] at hreached
              rw [UInt32.le_iff_toNat_le, UInt32.toNat_max]
              omega
            left := fun _ h => by
              rw [UInt32.lt_iff_toNat_lt] at h
              exact absurd h (Nat.not_lt_zero _)
            last := fun h => by cases h }
        ended := fun h => by dsimp only at h; rw [hphase] at h; cases h
        busy := by dsimp only; rw [hphase]; exact fun h => by cases h
        acked_le := hn.acked_le }
  · exact ⟨hn, hmax⟩

theorem onChunkNack_phased (hm : m.Phased) (offset now_ms : UInt32) :
    (m.onChunkNack offset now_ms).Phased ∧
      ((m.onChunkNack offset now_ms).remote_acked_offset = m.remote_acked_offset ∨
        (m.onChunkNack offset now_ms).remote_acked_offset ≤ offset) := by
  unfold onChunkNack
  by_cases hphase : m.phase ≠ .Streaming
  · rw [if_pos hphase]
    exact ⟨hm, .inl rfl⟩
  · rw [if_neg hphase]
    rw [not_not] at hphase
    have hwindow := hm.window hphase
    have hnext := hwindow.next_le
    have hacked := hm.acked_le
    rw [UInt32.le_iff_toNat_le] at hacked
    generalize hoffset : max (min (min offset m.total_size) m.next_offset) m.remote_acked_offset
      = rewind_offset
    have hrewind : rewind_offset.toNat =
        max (min (min offset.toNat m.total_size.toNat) m.next_offset.toNat)
          m.remote_acked_offset.toNat := by
      rw [← hoffset, UInt32.toNat_max, UInt32.toNat_min, UInt32.toNat_min]
    have hle : rewind_offset ≤ m.total_size := by
      rw [UInt32.le_iff_toNat_le]
      omega
    constructor
    · exact
        { unsent := fun h => by dsimp only at h; rw [hphase] at h; cases h
          window := fun _ =>
            { begun := hwindow.begun
              next_le := hle
              pending_le := Nat.zero_le _
              finished := fun _ h => by
                dsimp only at h ⊢
                rw [h]
                exact UInt32.le_refl _
              left := fun _ h => by
                rw [UInt32.lt_iff_toNat_lt] at h
                exact absurd h (Nat.not_lt_zero _)
              last := fun h => by cases h }
          ended := fun h => by dsimp only at h; rw [hphase] at h; cases h
          busy := by dsimp only; rw [hphase]; exact fun h => by cases h
          acked_le := hle }
    · dsimp only
      rcases Nat.le_total (min (min offset.toNat m.total_size.toNat) m.next_offset.toNat)
        m.remote_acked_offset.toNat with h | h
      · exact .inl (UInt32.toNat_inj.mp (by omega))
      · refine .inr ?_
        rw [UInt32.le_iff_toNat_le]
        omega

/-- What a status frame leaves and reports: the acknowledged offset moves only to an offset that a
frame of the transfer carries, and the transfer succeeds only with a `FinalizeOk` of it. -/
structure Heard (m : OtaPushLocalSession) (status : FirmwareStatus)
    (r : List PushOutput × OtaPushLocalSession) : Prop where
  phased : r.2.active = true → r.2.Phased
  acked : r.2.active = true → r.2.remote_acked_offset = m.remote_acked_offset ∨
    ((status.kind = .ChunkAck ∨ status.kind = .ChunkNack) ∧ status.transfer_corr_id = m.req_id ∧
      r.2.remote_acked_offset ≤ eventOffset status)
  noEnd : ∀ o ∈ r.1, o.isEndFrame = false
  success : ∀ o ∈ r.1, o.isSuccess = true →
    status.kind = .FinalizeOk ∧ status.transfer_corr_id = m.req_id

theorem onTransferStatus_heard (hm : m.active = true → m.Phased)
    (hp : m.active = true → m.Pushes image)
    (reachable : Bool) {status : FirmwareStatus} (now_ms : UInt32)
    (hle : m.active = true → status.kind = .ChunkAck → status.transfer_corr_id = m.req_id →
      eventOffset status ≤ m.total_size) :
    m.Heard status (m.onTransferStatus reachable status now_ms) := by
  have hack : ∀ o ∈ (if status.kind = .FinalizeOk ∨ status.kind = .FinalizeFail then
      [PushOutput.finalizeAck (eventOffset status) status.status_code] else []),
      o.isEndFrame = false ∧ o.isSuccess = false := by
    intro o ho
    split at ho
    · rw [List.mem_singleton.mp ho]
      exact ⟨rfl, rfl⟩
    · simp at ho
  unfold onTransferStatus
  dsimp only
  generalize (if status.kind = .FinalizeOk ∨ status.kind = .FinalizeFail then
    [PushOutput.finalizeAck (eventOffset status) status.status_code] else []) = ack at hack ⊢
  have hquiet (n : OtaPushLocalSession) (hn : n.active = true → n.Phased)
      (hacked : n.active = true → n.remote_acked_offset = m.remote_acked_offset ∨
        ((status.kind = .ChunkAck ∨ status.kind = .ChunkNack) ∧ status.transfer_corr_id = m.req_id ∧
          n.remote_acked_offset ≤ eventOffset status)) : m.Heard status (ack, n) :=
    ⟨hn, hacked, fun o ho => (hack o ho).1,
      fun o ho h => by rw [(hack o ho).2] at h; cases h⟩
  by_cases hother : (!m.active || decide (status.transfer_corr_id ≠ m.req_id)) = true
  · rw [if_pos hother]
    exact hquiet m hm fun _ => .inl rfl
  rw [if_neg hother]
  have hours : m.active = true ∧ status.transfer_corr_id = m.req_id := by simpa using hother
  obtain ⟨hactive, hcorr⟩ := hours
  have hsame : m.SameStream { m with last_activity_ms := now_ms } :=
    ⟨rfl, rfl, rfl, rfl, rfl, rfl, rfl, rfl⟩
  have hnoted := hsame.phased (hm hactive) (UInt32.le_refl _) (hm hactive).acked_le
  have hpn := hsame.pushes (hp hactive)
  have hstop (n : OtaPushLocalSession) (hn : n.active = true) (success : Bool)
      (status' : ManagementStatus) (reason : String)
      (hsuccess : success = true → status.kind = .FinalizeOk) :
      m.Heard status (ack ++ (n.stopOtaPushLocal reachable success status' status.status_code
        reason).1, (n.stopOtaPushLocal reachable success status' status.status_code reason).2) := by
    unfold stopOtaPushLocal
    rw [if_neg (by simp [hn])]
    refine ⟨fun h => (by cases h), fun h => (by cases h), fun o ho => ?_, fun o ho hgood => ?_⟩
    · rcases List.mem_append.mp ho with ho | ho
      · exact (hack o ho).1
      · rcases List.mem_append.mp ho with ho | ho
        · split at ho
          · rw [List.mem_singleton.mp ho]
            rfl
          · simp at ho
        · rw [List.mem_singleton.mp ho]
          rfl
    · rcases List.mem_append.mp ho with ho | ho
      · rw [(hack o ho).2] at hgood
        cases hgood
      · rcases List.mem_append.mp ho with ho | ho
        · split at ho
          · rw [List.mem_singleton.mp ho] at hgood
            cases hgood
          · simp at ho
        · rw [List.mem_singleton.mp ho] at hgood
          exact ⟨hsuccess hgood, hcorr⟩
  cases hkind : status.kind with
  | ChunkAck =>
    have hoff : eventOffset status ≤ m.total_size := hle hactive hkind hcorr
    rw [← hsame.total] at hoff
    obtain ⟨hphased, hmax⟩ := onChunkAck_phased hnoted hpn hoff now_ms
    refine hquiet _ (fun _ => hphased) fun _ => ?_
    rw [hmax]
    dsimp only
    rcases UInt32.le_total m.remote_acked_offset (eventOffset status) with h | h
    · refine .inr ⟨.inl hkind, hcorr, ?_⟩
      rw [UInt32.le_iff_toNat_le] at h ⊢
      rw [UInt32.toNat_max]
      omega
    · refine .inl (UInt32.toNat_inj.mp ?_)
      rw [UInt32.le_iff_toNat_le] at h
      rw [UInt32.toNat_max]
      omega
  | ChunkNack =>
    obtain ⟨hphased, hmoved⟩ := onChunkNack_phased hnoted (eventOffset status) now_ms
    refine hquiet _ (fun _ => hphased) fun _ => ?_
    rcases hmoved with h | h
    · exact .inl h
    · exact .inr ⟨.inr hkind, hcorr, h⟩
  | FinalizeOk =>
    dsimp only
    split
    · exact hstop { m with last_activity_ms := now_ms } hactive true _ _ fun _ => hkind
    · exact hquiet _ (fun _ => hnoted) fun _ => .inl rfl
  | FinalizeFail =>
    dsimp only
    split
    · exact hstop { m with last_activity_ms := now_ms } hactive false _ _ fun h => by cases h
    · exact hquiet _ (fun _ => hnoted) fun _ => .inl rfl
  | FinalizeAck => exact hquiet _ (fun _ => hnoted) fun _ => .inl rfl

end

end OtaPushLocalSession

end EspNowLink
