import EspNowLink.Ota.PushInvariant
import EspNowLink.Framework.Runs
import Mathlib.Data.List.Forall2

open Framework

namespace EspNowLink

/-- The chunk that arrives is chunk `k` of the session's image, whole. -/
def ChunkArrival.IsChunk (a : ChunkArrival) (r : ReceiveSession) (k : Nat) : Prop :=
  k < r.chunk_count.toNat ∧ a.offset.toNat = r.boundary k ∧
    a.data.length = r.boundary (k + 1) - r.boundary k

/-- The sink after it took the chunks. -/
def OtaManager.takeAll (m : OtaManager) (arrivals : List ChunkArrival) : OtaManager :=
  arrivals.foldl (fun m a => m.acceptChunk a.offset a.data a.now_s) m

/-- An acknowledgement of `offset` or more is among the statuses. -/
def Acks (out : List FirmwareStatus) (offset : UInt32) : Prop :=
  ∃ a ∈ out, a.kind = .ChunkAck ∧ offset ≤ a.offset_bytes

section Window

variable {r r' : ReceiveSession}

theorem ReceiveSession.Receives.boundary_eq {i : Nat} (h : r.Receives r' i) :
    r'.boundary = r.boundary := by
  funext k
  simp only [ReceiveSession.boundary, h.expected_size, h.chunk_size]

theorem ReceiveSession.Receives.isChunk {i k : Nat} (h : r.Receives r' i) {a : ChunkArrival}
    (ha : a.IsChunk r k) : a.IsChunk r' k := by
  unfold ChunkArrival.IsChunk at ha ⊢
  rw [h.boundary_eq, h.chunk_count]
  exact ha

theorem ReceiveSession.Sound.received_le (hr : r.Sound) : r.received_size ≤ r.expected_size := by
  rw [UInt32.le_iff_toNat_le, hr.received]
  exact Nat.min_le_right _ _

theorem OtaManager.takeAll_cons (m : OtaManager) (a : ChunkArrival) (rest : List ChunkArrival) :
    m.takeAll (a :: rest) = (m.acceptChunk a.offset a.data a.now_s).takeAll rest := rfl

theorem ChunkArrival.IsChunk.accepted {a : ChunkArrival} {m : OtaManager} {k : Nat}
    (ha : a.IsChunk m.receive k) (hr : m.receive.Sound)
    (hroom : m.hasRoom m.receive.expected_size = true) :
    m.chunkRefusal a.offset a.data = none ∧
      m.receive.Receives (m.acceptChunk a.offset a.data a.now_s).receive k ∧
      (m.acceptChunk a.offset a.data a.now_s).hasRoom m.receive.expected_size = true := by
  obtain ⟨hk, hoffset, hlen⟩ := ha
  have hrefusal := OtaManager.chunkRefusal_whole hr hroom hk hoffset hlen
  have hindex : a.offset.toNat / m.receive.chunk_size.toNat = k := by
    rw [hoffset, (hr.toShaped.boundary_lt hk).1]
    exact Nat.mul_div_cancel _ hr.chunk_pos
  exact ⟨hrefusal, hindex ▸ OtaManager.acceptChunk_receives hr hrefusal a.now_s,
    (OtaManager.acceptChunk_room ..).trans hroom⟩

/-- What the sink has after a list of whole chunks. -/
theorem OtaManager.takeAll_spec {m : OtaManager} {arrivals : List ChunkArrival} {ks : List Nat}
    (hr : m.receive.Sound) (hroom : m.hasRoom m.receive.expected_size = true)
    (hchunks : List.Forall₂ (fun a k => a.IsChunk m.receive k) arrivals ks) :
    (m.takeAll arrivals).receive.Sound ∧
      (m.takeAll arrivals).receive.expected_size = m.receive.expected_size ∧
      (m.takeAll arrivals).receive.boundary = m.receive.boundary ∧
      (m.takeAll arrivals).receive.chunk_count = m.receive.chunk_count ∧
      m.receive.received_size ≤ (m.takeAll arrivals).receive.received_size ∧
      ∀ k, (m.takeAll arrivals).receive.got k = (m.receive.got k || decide (k ∈ ks)) := by
  induction arrivals generalizing m ks with
  | nil =>
    cases hchunks
    exact ⟨hr, rfl, rfl, rfl, UInt32.le_refl _, by simp [OtaManager.takeAll]⟩
  | cons a rest ih =>
    cases hchunks with
    | @cons _ k _ ks ha hrest =>
      obtain ⟨-, hreceives, hroom'⟩ := ha.accepted hr hroom
      have hrest' := hrest.imp fun _ _ h => hreceives.isChunk h
      obtain ⟨hsound, hexpected, hboundary, hcount, hle, hgot⟩ := ih hreceives.sound
        (by rw [hreceives.expected_size]; exact hroom') hrest'
      rw [OtaManager.takeAll_cons]
      refine ⟨hsound, hexpected.trans hreceives.expected_size,
        hboundary.trans hreceives.boundary_eq, hcount.trans hreceives.chunk_count,
        UInt32.le_trans (hreceives.received_le hr) hle, fun j => ?_⟩
      rw [hgot, hreceives.got]
      simp [Bool.or_assoc]

end Window

namespace SlaveReception

theorem deliverChunks_cons {s s' : SlaveReception} {sender : MacAddress} {corr_id : UInt32}
    {a : ChunkArrival} {ok : Bool} {out : List FirmwareStatus} (rest : List ChunkArrival)
    (h : s.handleFirmwareChunk sender corr_id a.offset a.data a.now_s a.now_ms = (ok, out, s')) :
    (s.deliverChunks sender corr_id (a :: rest)).1 =
      out ++ (s'.deliverChunks sender corr_id rest).1 := by
  rw [deliverChunks, h]

theorem deliverChunks_hung {s : SlaveReception} (h : s.hung = true) (sender : MacAddress)
    (corr_id : UInt32) (arrivals : List ChunkArrival) :
    s.deliverChunks sender corr_id arrivals = ([], s) := by
  induction arrivals with
  | nil => rfl
  | cons a rest ih =>
    simp only [deliverChunks, handleFirmwareChunk, if_pos h, ih, List.append_nil]

/-- Chunks that start between two chunk boundaries are refused, and no refusal acknowledges. -/
theorem deliverChunks_misaligned {s : SlaveReception} {t : Transfer} (hrole : s.local_role = .Slave)
    (hs : s.Receiving t) {arrivals : List ChunkArrival}
    (hlive : OtaManager.StaysLive t.sender t.corr_id s.sink arrivals)
    (hoff : ∀ a ∈ arrivals, a.offset % t.chunk_size ≠ 0) :
    ∀ a ∈ (s.deliverChunks t.sender t.corr_id arrivals).1, a.kind = .ChunkNack := by
  induction arrivals generalizing s with
  | nil => simp [deliverChunks]
  | cons a rest ih =>
    rcases hlive with _ | ⟨hfresh, hlive⟩
    have hrefusal : s.sink.chunkRefusal a.offset a.data ≠ none := by
      intro h
      have hmod := (OtaManager.chunkRefusal_none h).1
      rw [hs.chunk] at hmod
      exact hoff a (by simp) hmod
    by_cases hhung : s.hung = true
    · rw [deliverChunks_hung hhung]
      simp
    obtain ⟨out, s', hchunk, hs', hrole', hsink, hnack⟩ :=
      handleFirmwareChunk_refused hrole hs hhung hfresh hrefusal a.now_ms
    rw [← hsink] at hlive
    have hlater := ih hrole' hs' hlive fun b hb => hoff b (by simp [hb])
    rw [deliverChunks_cons rest hchunk]
    intro b hb
    rcases List.mem_append.mp hb with hb | hb
    · exact hnack b hb
    · exact hlater b hb

/-- A list of whole chunks is acknowledged exactly when the contiguous size that it leads to is worth
an acknowledgement. -/
theorem deliverChunks_acks_iff {s : SlaveReception} {t : Transfer} (hrole : s.local_role = .Slave)
    (hs : s.Receiving t) (hhung : s.hung = false) {arrivals : List ChunkArrival} {ks : List Nat}
    (hlive : OtaManager.StaysLive t.sender t.corr_id s.sink arrivals)
    (hchunks : List.Forall₂ (fun a k => a.IsChunk s.sink.receive k) arrivals ks) {offset : UInt32}
    (hoffset : offset ≤ s.sink.receive.received_size) :
    Acks (s.deliverChunks t.sender t.corr_id arrivals).1 offset ↔
      s.AckAt t (s.sink.takeAll arrivals).receive.received_size := by
  induction arrivals generalizing s ks with
  | nil =>
    have hnot : ¬ s.sink.receive.received_size < s.sink.receive.received_size := UInt32.lt_irrefl _
    simp [Acks, deliverChunks, AckAt, OtaManager.takeAll]
  | cons a rest ih =>
    cases hchunks with
    | @cons _ k _ ks ha hrest =>
      have hroom : s.sink.hasRoom s.sink.receive.expected_size = true := by
        rw [hs.expected]
        exact hs.room
      rcases hlive with _ | ⟨hfresh, hlive⟩
      obtain ⟨hrefusal, hreceives, -⟩ := ha.accepted hs.sound hroom
      obtain ⟨s', hchunk, hsink, hrole', hs', hquiet⟩ :=
        handleFirmwareChunk_accepted hrole hs hhung hfresh hrefusal a.now_ms
      have hwrite : (s.sink.writeReceiveChunk t.sender t.corr_id a.offset a.data a.now_s).2
          = s'.sink := by
        rw [OtaManager.writeReceiveChunk_live hfresh, hrefusal, hsink]
        simp [OtaManager.validateSession, hs.active, hs.sender, hs.corr_id]
      rw [hwrite] at hlive
      have hrest' : List.Forall₂ (fun a k => a.IsChunk s'.sink.receive k) rest ks := by
        rw [hsink]
        exact hrest.imp fun _ _ h => hreceives.isChunk h
      have hfirst := hreceives.received_le hs.sound
      have hrun := OtaManager.takeAll_spec hs'.sound
        (by rw [hs'.expected]; exact hs'.room) hrest'
      obtain ⟨hsound, hexpected, -, -, hlater, -⟩ := hrun
      have hbound := hsound.received_le
      rw [hexpected, hs'.expected] at hbound
      have hdeliver : (s.deliverChunks t.sender t.corr_id (a :: rest)).1 =
          (if s.AckAt t s'.sink.receive.received_size then
            [⟨.ChunkAck, t.corr_id, s'.sink.receive.received_size, .Ok⟩] else []) ++
            (s'.deliverChunks t.sender t.corr_id rest).1 := by
        rw [← hsink] at hchunk
        exact deliverChunks_cons rest hchunk
      rw [hdeliver, OtaManager.takeAll_cons, ← hsink]
      rw [← hsink] at hfirst hquiet
      by_cases hdue : s.AckAt t s'.sink.receive.received_size
      · rw [if_pos hdue]
        constructor
        · intro _
          obtain ⟨hmore, hdue⟩ := hdue
          refine ⟨UInt32.lt_of_lt_of_le hmore hlater, ?_⟩
          rcases hdue with hdue | hdue
          · exact .inl (UInt32.le_trans hdue hlater)
          · rw [hdue] at hlater
            exact .inr (UInt32.le_antisymm hbound hlater)
        · intro _
          refine ⟨_, List.mem_append_left _ (List.mem_singleton.mpr rfl), rfl, ?_⟩
          exact UInt32.le_trans hoffset hfirst
      · rw [if_neg hdue, List.nil_append]
        obtain ⟨hhung', hnext⟩ := hquiet hdue
        rw [ih hrole' hs' hhung' hlive hrest' (UInt32.le_trans hoffset hfirst)]
        simp only [AckAt, hnext, UInt32.lt_iff_toNat_lt, UInt32.le_iff_toNat_le,
          ← UInt32.toNat_inj] at hdue hfirst hlater ⊢
        omega

end SlaveReception

section Retransmission

variable {m : OtaPushLocalSession} {image : Bytes} {r : ReceiveSession}

/-- The session pushes the image that `r` receives, in the chunks that `r` expects. -/
structure Matches (m : OtaPushLocalSession) (image : Bytes) (r : ReceiveSession) : Prop where
  chunk : m.chunk_bytes.toUInt32 = r.chunk_size
  total : m.total_size = r.expected_size
  image : image.length = r.expected_size.toNat

theorem Matches.chunkData_length (h : Matches m image r) {x : UInt32}
    (hx : x.toNat < r.expected_size.toNat) :
    (m.chunkData image x).length = min r.chunk_size.toNat (r.expected_size.toNat - x.toNat) := by
  have hremaining : (m.total_size - x).toNat = r.expected_size.toNat - x.toNat := by
    rw [h.total]
    exact UInt32.toNat_sub_of_le _ _ (by rw [UInt32.le_iff_toNat_le]; omega)
  have hchunk : m.chunk_bytes.toNat = r.chunk_size.toNat := by rw [← h.chunk]; simp
  simp only [OtaPushLocalSession.chunkData, OtaPushLocalSession.readAt, List.length_take,
    List.length_drop, hremaining, hchunk, h.image]
  omega

theorem Matches.next_toNat (h : Matches m image r) {x : UInt32}
    (hx : x.toNat < r.expected_size.toNat) :
    (x + (m.chunkData image x).length.toUInt32).toNat =
      x.toNat + min r.chunk_size.toNat (r.expected_size.toNat - x.toNat) := by
  have hlt := r.expected_size.toNat_lt
  have hlen := h.chunkData_length hx
  have hbound : (m.chunkData image x).length < 2 ^ 32 := by omega
  rw [UInt32.toNat_add, Nat.toUInt32_eq, UInt32.toNat_ofNat', Nat.mod_eq_of_lt hbound, hlen]
  exact Nat.mod_eq_of_lt (by omega)

/-- From a chunk boundary the send loop cuts the image into whole chunks. -/
theorem windowChunks_aligned (h : Matches m image r) (hr : r.Sound) {stop : UInt32} {n i j : Nat}
    {x : UInt32} (hj : j ≤ r.chunk_count.toNat) (hstop : stop.toNat = r.boundary j) (hij : i ≤ j)
    (hx : x.toNat = r.boundary i) (hn : j - i ≤ n) {arrivals : List ChunkArrival}
    (hsent : arrivals.map (fun a => (a.offset, a.data)) = m.windowChunks image stop n x) :
    List.Forall₂ (fun a k => a.IsChunk r k) arrivals (List.range' i (j - i)) := by
  induction n generalizing i x arrivals with
  | zero =>
    have : j - i = 0 := by omega
    rw [this, List.map_eq_nil_iff.mp hsent]
    exact .nil
  | succ n ih =>
    rcases Nat.eq_or_lt_of_le hij with rfl | hlt
    · have hnot : ¬(x < m.total_size ∧ x < stop) := by
        rw [UInt32.lt_iff_toNat_lt, UInt32.lt_iff_toNat_lt]
        omega
      unfold OtaPushLocalSession.windowChunks at hsent
      rw [if_neg hnot] at hsent
      rw [List.map_eq_nil_iff.mp hsent, Nat.sub_self]
      exact .nil
    · obtain ⟨hb, hsize⟩ := hr.toShaped.boundary_lt (Nat.lt_of_lt_of_le hlt hj)
      have hxlt : x.toNat < r.expected_size.toNat := by omega
      have hsucc : r.boundary (i + 1) = x.toNat + min r.chunk_size.toNat
          (r.expected_size.toNat - x.toNat) := by
        have hmul : (i + 1) * r.chunk_size.toNat = i * r.chunk_size.toNat + r.chunk_size.toNat :=
          Nat.succ_mul _ _
        unfold ReceiveSession.boundary
        omega
      have hmono : r.boundary (i + 1) ≤ r.boundary j := r.boundary_mono hlt
      have hpos := hr.chunk_pos
      have hgoes : x < m.total_size ∧ x < stop := by
        rw [UInt32.lt_iff_toNat_lt, UInt32.lt_iff_toNat_lt, h.total]
        omega
      unfold OtaPushLocalSession.windowChunks at hsent
      rw [if_pos hgoes] at hsent
      obtain ⟨a, rest, rfl, ha, hrest⟩ := List.map_eq_cons_iff.mp hsent
      obtain ⟨hoffset, hdata⟩ := Prod.mk.inj ha
      have hrange : List.range' i (j - i) = i :: List.range' (i + 1) (j - (i + 1)) := by
        have : j - i = (j - (i + 1)) + 1 := by omega
        rw [this, List.range'_succ]
      rw [hrange]
      refine .cons ⟨Nat.lt_of_lt_of_le hlt hj, by rw [hoffset, hx], ?_⟩
        (ih hlt ?_ (by omega) hrest)
      · rw [hdata, h.chunkData_length hxlt, hsucc, hx]
        omega
      · rw [h.next_toNat hxlt, hsucc]

/-- From an offset between two boundaries the send loop never comes back to one. -/
theorem windowChunks_misaligned (h : Matches m image r) {stop : UInt32} {n : Nat} {x : UInt32}
    (hx : x % r.chunk_size ≠ 0) :
    ∀ c ∈ m.windowChunks image stop n x, c.1 % r.chunk_size ≠ 0 := by
  induction n generalizing x with
  | zero => simp [OtaPushLocalSession.windowChunks]
  | succ n ih =>
    unfold OtaPushLocalSession.windowChunks
    split
    · rename_i hgoes
      have hxlt : x.toNat < r.expected_size.toNat := by
        rw [← h.total, ← UInt32.lt_iff_toNat_lt]
        exact hgoes.1
      have hnext := h.next_toNat hxlt
      intro c hc
      rcases List.mem_cons.mp hc with rfl | hc
      · exact hx
      rcases Nat.le_total r.chunk_size.toNat (r.expected_size.toNat - x.toNat) with hfull | hlast
      · refine ih ?_ c hc
        rw [Nat.min_eq_left hfull] at hnext
        intro hmod
        apply hx
        have hmod' := congrArg UInt32.toNat hmod
        rw [UInt32.toNat_mod, hnext, Nat.add_mod_right] at hmod'
        apply UInt32.toNat_inj.mp
        rw [UInt32.toNat_mod]
        exact hmod'
      · -- the last chunk ends the image, and the loop with it
        exfalso
        rw [Nat.min_eq_right hlast] at hnext
        cases n with
        | zero => simp [OtaPushLocalSession.windowChunks] at hc
        | succ n =>
          unfold OtaPushLocalSession.windowChunks at hc
          rw [if_neg] at hc
          · simp at hc
          · rw [UInt32.lt_iff_toNat_lt, hnext, h.total]
            omega
    · simp

end Retransmission

namespace PushLink

/-- How far the slave will have received once the window of the session has arrived. -/
def reach (l : PushLink) : UInt32 :=
  let r := l.slave.sink.receive
  r.contiguousFrom (r.chunk_count.toNat + 1) (l.master.windowEnd l.master.remote_acked_offset)

/-- The window of a retransmission starts at a chunk of the image, goes beyond what the slave has, and
completes the slave's next acknowledgement step or the image. -/
structure AckDue (l : PushLink) : Prop where
  awake : l.slave.hung = false
  aligned : l.master.remote_acked_offset % l.slave.sink.receive.chunk_size = 0
  beyond : l.slave.sink.receive.received_size <
    l.master.windowEnd l.master.remote_acked_offset
  due : l.slave.ota_transfer_next_ack_offset ≤ l.reach ∨
    l.reach = l.slave.sink.receive.expected_size

end PushLink

/-- The end of the window is a chunk boundary, or the 32-bit sum has wrapped and it lies before the
start. -/
theorem windowEnd_cases {m : OtaPushLocalSession} {image : Bytes} {r : ReceiveSession}
    (h : Matches m image r) (hr : r.Sound) (hcount : 0 < r.chunk_count.toNat) {x : UInt32} {i : Nat}
    (hi : i ≤ r.chunk_count.toNat) (hx : x.toNat = i * r.chunk_size.toNat)
    (hchunk : r.chunk_size.toNat ≤ 220) :
    m.windowEnd x < x ∨ ∃ j, i ≤ j ∧ j ≤ r.chunk_count.toNat ∧
      (m.windowEnd x).toNat = r.boundary j ∧ j - i ≤ m.window_size_chunks.toNat := by
  have hw := m.window_size_chunks.toNat_lt
  have hprod : (m.chunk_bytes.toUInt32 * m.window_size_chunks.toUInt32).toNat
      = r.chunk_size.toNat * m.window_size_chunks.toNat := by
    rw [h.chunk, UInt32.toNat_mul]
    simp only [UInt8.toNat_toUInt32]
    apply Nat.mod_eq_of_lt
    have := Nat.mul_le_mul hchunk (Nat.le_of_lt hw)
    omega
  have hsmall : r.chunk_size.toNat * m.window_size_chunks.toNat ≤ 220 * 256 :=
    Nat.mul_le_mul hchunk (by omega)
  have hend : (m.windowEnd x).toNat
      = min ((x.toNat + r.chunk_size.toNat * m.window_size_chunks.toNat) % 2 ^ 32)
          r.expected_size.toNat := by
    unfold OtaPushLocalSession.windowEnd
    rw [UInt32.toNat_min, UInt32.toNat_add, hprod, h.total]
  have hx32 := x.toNat_lt
  rcases Nat.lt_or_ge (x.toNat + r.chunk_size.toNat * m.window_size_chunks.toNat) (2 ^ 32) with
    hfit | hwrap
  · right
    rw [Nat.mod_eq_of_lt hfit, hx, Nat.mul_comm r.chunk_size.toNat, ← Nat.add_mul] at hend
    rcases Nat.le_total (i + m.window_size_chunks.toNat) r.chunk_count.toNat with hin | hpast
    · exact ⟨i + m.window_size_chunks.toNat, by omega, hin, hend, by omega⟩
    · refine ⟨r.chunk_count.toNat, hi, Nat.le_refl _, ?_, by omega⟩
      have hmul := Nat.mul_le_mul_right r.chunk_size.toNat hpast
      have hlast := hr.toShaped.boundary_count hcount
      rw [hlast, hend]
      unfold ReceiveSession.boundary at hlast
      omega
  · left
    rw [UInt32.lt_iff_toNat_lt, hend]
    omega

/-- What the slave has after a whole window: nothing new when it had all of it, and otherwise the run
of received chunks from the window's end on. -/
theorem takeAll_window {m : OtaManager} {arrivals : List ChunkArrival} {i j : Nat}
    (hr : m.receive.Sound) (hroom : m.hasRoom m.receive.expected_size = true)
    (hchunks : List.Forall₂ (fun a k => a.IsChunk m.receive k) arrivals (List.range' i (j - i)))
    (hi : i ≤ runEnd m.receive.got m.receive.chunk_count.toNat 0)
    (hj : j ≤ m.receive.chunk_count.toNat) :
    (m.takeAll arrivals).receive.received_size.toNat =
      if runEnd m.receive.got m.receive.chunk_count.toNat 0 < j then
        m.receive.boundary (runEnd m.receive.got m.receive.chunk_count.toNat j)
      else m.receive.received_size.toNat := by
  obtain ⟨hsound, -, hboundary, hcount, -, hgot⟩ := OtaManager.takeAll_spec hr hroom hchunks
  rw [hsound.received, hboundary, hcount]
  split
  · congr 1
    refine runEnd_of_stretch hi hj (fun k hk => by simp [hgot, hk]) (fun k hik hkj => ?_)
      fun k hk => ?_
    · rw [hgot]
      simp only [List.mem_range'_1, Bool.or_eq_true, decide_eq_true_eq]
      exact .inr (by omega)
    · rw [hgot]
      have : k ∉ List.range' i (j - i) := by
        rw [List.mem_range'_1]
        omega
      simp [this]
  · rename_i hinside
    rw [hr.received]
    congr 1
    refine runEnd_congr fun k _ => ?_
    rw [hgot]
    by_cases hk : k ∈ List.range' i (j - i)
    · rw [List.mem_range'_1] at hk
      have hlow : k < runEnd m.receive.got m.receive.chunk_count.toNat 0 := by omega
      rw [got_of_lt_runEnd (Nat.zero_le k) hlow]
      simp
    · simp [hk]

/-- Both sides of a joint run push and receive the same image. -/
theorem PushInv.matches {p : PushStart} {l : PushLink} (hp : p.Admitted) (hl : PushInv p l)
    (hactive : l.master.active = true) (hs : l.slave.Receiving p.transfer) :
    Matches l.master l.image l.slave.sink.receive where
  chunk := by
    rw [hl.master.chunk_bytes hactive, hs.chunk]
    rfl
  total := by
    rw [hl.master.total_size hactive, hs.expected]
    rfl
  image := by
    rw [hl.image, hs.expected]
    change p.image.length = p.image.length.toUInt32.toNat
    rw [Nat.toUInt32_eq, UInt32.toNat_ofNat', Nat.mod_eq_of_lt hp.size.2]

/-- A slave that has the bytes a session waits for is receiving. -/
theorem PushInv.receives {p : PushStart} {l : PushLink} (hl : PushInv p l) {pending_end : UInt32}
    (hwait : l.master.AwaitsAck pending_end) (hreceived : pending_end ≤ l.slave.sink.contiguousReceiveSize) :
    l.slave.Receiving p.transfer ∧ pending_end ≤ l.slave.sink.receive.received_size := by
  have hactive : l.slave.sink.receive.active = true := by
    have hunacked := hwait.unacked
    by_contra hoff
    simp only [OtaManager.contiguousReceiveSize, hoff, if_false] at hreceived
    rw [UInt32.lt_iff_toNat_lt] at hunacked
    rw [UInt32.le_iff_toNat_le, UInt32.toNat_zero] at hreceived
    omega
  simp only [OtaManager.contiguousReceiveSize, hactive, if_true] at hreceived
  exact ⟨hl.slave.receiving hactive, hreceived⟩

/-- An aligned offset below what was received is the start of a chunk in the run of received ones. -/
theorem ReceiveSession.Sound.aligned_start {r : ReceiveSession} (hr : r.Sound) {x : UInt32}
    (halign : x % r.chunk_size = 0) (hx : x.toNat < r.received_size.toNat) :
    ∃ i, x.toNat = i * r.chunk_size.toNat ∧ i < runEnd r.got r.chunk_count.toNat 0 := by
  have hmul : x.toNat = x.toNat / r.chunk_size.toNat * r.chunk_size.toNat := by
    have hmod := congrArg UInt32.toNat halign
    rw [UInt32.toNat_mod, UInt32.toNat_zero] at hmod
    exact (Nat.div_mul_cancel (Nat.dvd_of_mod_eq_zero hmod)).symm
  have hbound : r.received_size.toNat ≤ runEnd r.got r.chunk_count.toNat 0 * r.chunk_size.toNat := by
    rw [hr.received]
    exact Nat.min_le_left _ _
  refine ⟨x.toNat / r.chunk_size.toNat, hmul, ?_⟩
  exact Nat.lt_of_mul_lt_mul_right (Nat.lt_of_lt_of_le (hmul ▸ hx) hbound)

/-- A window whose end has wrapped around sends nothing. -/
theorem retransmission_wrapped {m : OtaPushLocalSession} (image : Bytes)
    (hwrap : m.windowEnd m.remote_acked_offset < m.remote_acked_offset) : m.retransmission image = [] := by
  have hnot : ¬ m.remote_acked_offset < m.windowEnd m.remote_acked_offset := by
    rw [UInt32.lt_iff_toNat_lt] at hwrap ⊢
    omega
  unfold OtaPushLocalSession.retransmission
  cases m.window_size_chunks.toNat with
  | zero => rfl
  | succ n =>
    unfold OtaPushLocalSession.windowChunks
    rw [if_neg fun h => hnot h.2]

/-- The run of received chunks grows by a window exactly when the window ends beyond it, and then to `reach`. -/
theorem window_grows_iff {l : PushLink} {arrivals : List ChunkArrival} {i j : Nat}
    (hr : l.slave.sink.receive.Sound)
    (hroom : l.slave.sink.hasRoom l.slave.sink.receive.expected_size = true)
    (hchunks : List.Forall₂ (fun a k => a.IsChunk l.slave.sink.receive k) arrivals (List.range' i (j - i)))
    (hi : i ≤ runEnd l.slave.sink.receive.got l.slave.sink.receive.chunk_count.toNat 0)
    (hj : j ≤ l.slave.sink.receive.chunk_count.toNat)
    (hstop : (l.master.windowEnd l.master.remote_acked_offset).toNat = l.slave.sink.receive.boundary j)
    (P : UInt32 → Prop) :
    (l.slave.sink.receive.received_size < (l.slave.sink.takeAll arrivals).receive.received_size ∧
        P (l.slave.sink.takeAll arrivals).receive.received_size) ↔
      (l.slave.sink.receive.received_size < l.master.windowEnd l.master.remote_acked_offset ∧ P l.reach) := by
  have hfinal := takeAll_window hr hroom hchunks hi hj
  have hreach := hr.toShaped.contiguousFrom_toNat hstop hj (Nat.lt_succ_of_le (Nat.sub_le _ _))
  set r := l.slave.sink.receive with hrdef
  change l.reach.toNat = r.boundary (runEnd r.got r.chunk_count.toNat j) at hreach
  set k := runEnd r.got r.chunk_count.toNat 0 with hk
  rw [UInt32.lt_iff_toNat_lt, UInt32.lt_iff_toNat_lt, hstop]
  by_cases hkj : k < j
  · rw [if_pos hkj] at hfinal
    have hsame : (l.slave.sink.takeAll arrivals).receive.received_size = l.reach :=
      UInt32.toNat_inj.mp (hfinal.trans hreach.symm)
    have hbeyond : r.received_size.toNat < r.boundary j := by
      obtain ⟨hbk, hlt⟩ := hr.toShaped.boundary_lt (Nat.lt_of_lt_of_le hkj hj)
      have hmul : (k + 1) * r.chunk_size.toNat ≤ j * r.chunk_size.toNat :=
        Nat.mul_le_mul_right _ hkj
      have hsucc : (k + 1) * r.chunk_size.toNat = k * r.chunk_size.toNat + r.chunk_size.toNat :=
        Nat.succ_mul _ _
      have hpos := hr.chunk_pos
      rw [hr.received, hbk]
      unfold ReceiveSession.boundary
      omega
    have hfar : r.boundary j ≤ l.reach.toNat := by
      rw [hreach]
      exact r.boundary_mono (le_runEnd _ _ _)
    rw [hsame]
    exact and_congr_left fun _ => iff_of_true (Nat.lt_of_lt_of_le hbeyond hfar) hbeyond
  · rw [if_neg hkj] at hfinal
    have hinside : ¬ r.received_size.toNat < r.boundary j := by
      have hmono := r.boundary_mono (show j ≤ k by omega)
      rw [hr.received]
      exact Nat.not_lt.mpr hmono
    exact iff_of_false (fun h => absurd h.1 (by omega)) fun h => hinside h.1

/-- In every joint run: while the session waits for `pending_end` and the slave has all bytes below it,
the delivery of one full retransmission makes the slave acknowledge `pending_end` or more exactly when
`AckDue` holds. -/
theorem retransmission_acked_iff {p : PushStart} (hp : p.Admitted) {l : PushLink}
    (hrun : Run PushLink.step (fun _ _ => True) p.link l) {pending_end : UInt32}
    (hwait : l.master.AwaitsAck pending_end)
    (hreceived : pending_end ≤ l.slave.sink.contiguousReceiveSize) {arrivals : List ChunkArrival}
    (hsent : arrivals.map (fun a => (a.offset, a.data)) = l.master.retransmission l.image)
    (hlive : OtaManager.StaysLive l.master_mac l.corr_id l.slave.sink arrivals) :
    Acks (l.slave.deliverChunks l.master_mac l.corr_id arrivals).1 pending_end ↔ l.AckDue := by
  have hl : PushInv p l := hrun.invariant (.start hp) fun _ i h _ => h.step hp i
  obtain ⟨hs, hreceived⟩ := hl.receives hwait hreceived
  have hr := hs.sound
  have hm := hl.matches hp hwait.active hs
  have hroom : l.slave.sink.hasRoom l.slave.sink.receive.expected_size = true := by
    rw [hs.expected]
    exact hs.room
  rw [hl.master_mac, hl.corr_id] at hlive ⊢
  change OtaManager.StaysLive p.transfer.sender p.transfer.corr_id l.slave.sink arrivals at hlive
  change Acks (l.slave.deliverChunks p.transfer.sender p.transfer.corr_id arrivals).1 _ ↔ _
  by_cases hhung : l.slave.hung = true
  · rw [SlaveReception.deliverChunks_hung hhung]
    constructor
    · rintro ⟨_, hnone, -⟩
      simp at hnone
    · intro h
      rw [h.awake] at hhung
      cases hhung
  rw [Bool.not_eq_true] at hhung
  by_cases halign : l.master.remote_acked_offset % l.slave.sink.receive.chunk_size = 0
  swap
  · have hoff : ∀ a ∈ arrivals, a.offset % p.transfer.chunk_size ≠ 0 := by
      intro a ha
      rw [← hs.chunk]
      have hmem : (a.offset, a.data) ∈ l.master.retransmission l.image := by
        rw [← hsent]
        exact List.mem_map.mpr ⟨a, ha, rfl⟩
      exact windowChunks_misaligned hm halign _ hmem
    have hnack := SlaveReception.deliverChunks_misaligned hl.slave.role hs hlive hoff
    refine ⟨?_, fun h => absurd h.aligned halign⟩
    rintro ⟨a, ha, hack, -⟩
    rw [hnack a ha] at hack
    cases hack
  -- the window starts at chunk `i`, which the slave has
  have hxr : l.master.remote_acked_offset.toNat < l.slave.sink.receive.received_size.toNat := by
    have hunacked := hwait.unacked
    rw [UInt32.lt_iff_toNat_lt] at hunacked
    rw [UInt32.le_iff_toNat_le] at hreceived
    omega
  obtain ⟨i, hx, hik⟩ := hr.aligned_start halign hxr
  have hkcount : runEnd l.slave.sink.receive.got l.slave.sink.receive.chunk_count.toNat 0 ≤
      l.slave.sink.receive.chunk_count.toNat := runEnd_le (Nat.zero_le _)
  have hchunk : l.slave.sink.receive.chunk_size.toNat ≤ 220 := by
    have hle := hp.chunk.2
    rw [UInt16.le_iff_toNat_le] at hle
    rw [hs.chunk]
    simpa [PushStart.transfer] using hle
  rcases windowEnd_cases hm hr (by omega) (by omega) hx hchunk with hwrap | ⟨j, hij, hj, hstop, hn⟩
  · rw [retransmission_wrapped l.image hwrap, List.map_eq_nil_iff] at hsent
    subst hsent
    constructor
    · rintro ⟨_, hnone, -⟩
      simp [SlaveReception.deliverChunks] at hnone
    · intro h
      have hbeyond := h.beyond
      rw [UInt32.lt_iff_toNat_lt] at hbeyond hwrap
      exact absurd hbeyond (by omega)
  have hb : l.master.remote_acked_offset.toNat = l.slave.sink.receive.boundary i := by
    rw [(hr.toShaped.boundary_lt (Nat.lt_of_lt_of_le hik hkcount)).1]
    exact hx
  have hchunks := windowChunks_aligned hm hr hj hstop hij hb hn hsent
  rw [SlaveReception.deliverChunks_acks_iff hl.slave.role hs hhung hlive hchunks hreceived, SlaveReception.AckAt,
    window_grows_iff hr hroom hchunks (Nat.le_of_lt hik) hj hstop fun size =>
      l.slave.ota_transfer_next_ack_offset ≤ size ∨ size = p.transfer.total_size]
  constructor
  · rintro ⟨hbeyond, hdue⟩
    exact ⟨hhung, halign, hbeyond, hdue.imp_right fun h => h.trans hs.expected.symm⟩
  · intro h
    exact ⟨h.beyond, h.due.imp_right fun h => h.trans hs.expected⟩

/-- A sink without a receive timeout takes whatever arrives in time. -/
theorem OtaManager.staysLive_of_no_timeout {m : OtaManager} (h : m.config.receive_timeout_s = 0)
    (sender : MacAddress) (corr_id : UInt32) (arrivals : List ChunkArrival) :
    OtaManager.StaysLive sender corr_id m arrivals := by
  have hlive : ∀ (m : OtaManager) (now_s : UInt32), m.config.receive_timeout_s = 0 →
      m.expireReceiveIfStale now_s = m := by
    intro m now_s h
    unfold expireReceiveIfStale
    simp [h]
  induction arrivals generalizing m with
  | nil => exact .nil m
  | cons a rest ih =>
    refine .cons (hlive m a.now_s h) (ih ?_)
    rw [OtaManager.writeReceiveChunk_live (hlive m a.now_s h)]
    split
    · exact h
    · split <;> exact h

namespace PushExample

def master : MacAddress := Vector.replicate 6 1

def sink : OtaManager where
  config := ⟨4096, 0⟩
  psram_pool := none
  psram_pool_size := 0
  receive := .idle
  receive_meta := OtaManager.noMetadata
  status := ⟨.Idle, .Ok, 0, 0, 0, 0, ""⟩

/-- A slave that has received nothing since its start. -/
def idle : SlaveReception where
  local_role := .Slave
  sink := sink
  ota_transfer_corr_id := 0
  ota_transfer_expected_size := 0
  ota_transfer_last_received_offset := 0
  ota_transfer_last_acked_offset := 0
  ota_transfer_ack_step_bytes := 0
  ota_transfer_next_ack_offset := 0
  ota_transfer_last_nack_offset := 0
  ota_transfer_last_nack_ms := 0
  ota_finalize_pending := false
  ota_finalize_corr_id := 0
  ota_finalize_offset := 0
  ota_finalize_status_code := 0
  ota_finalize_kind := 0
  ota_finalize_started_ms := 0
  ota_finalize_last_tx_ms := 0
  hung := false

def opened : BeginEnvironment where
  now_epoch_s := 0
  gate := none
  folders := true
  pool := some (List.replicate 4096 0)
  temp_file := true
  storage_message := ""

/-- The frames arrive at once. -/
def arrive (frames : List (UInt32 × Bytes)) : List ChunkArrival := frames.map fun c => ⟨c.1, c.2, 0, 0⟩

theorem arrive_map (frames : List (UInt32 × Bytes)) :
    (arrive frames).map (fun a => (a.offset, a.data)) = frames := by
  simp [arrive, Function.comp_def]

/-- A slave that took 1024 bytes of an earlier transfer of the same id, which was aborted. -/
def used : SlaveReception :=
  let begun := (idle.handleFirmwareBegin master 7 (beginPayload 4096 64 0 OtaManager.noMetadata) opened).2.2
  let received := (begun.deliverChunks master 7
    (arrive ((List.range 16).map fun k => (64 * k.toUInt32, List.replicate 64 0)))).2
  { received with sink := received.sink.abortReceive master 7 }

def start (size : Nat) (chunk_bytes : UInt16) (slave : SlaveReception) : PushStart where
  image := List.replicate size 0
  metadata := OtaManager.noMetadata
  master_mac := master
  slave_mac := Vector.replicate 6 2
  corr_id := 7
  chunk_bytes := chunk_bytes
  crc := 0
  now_ms := 0
  slave := slave

def radio : PushEnvironment where
  pull := true
  storage := true
  paired := true
  readable _ := true
  chunk_sent _ := true
  end_sent := true

def chunks (first count : Nat) : List PushInput :=
  (List.range' first count).map fun k => .deliverChunk k 0 0

/-- The first window of 16 chunks of 32 bytes arrives. -/
def windowArrives : List PushInput :=
  [.deliverBegin opened, .deliverStatus 0 true 0, .pump radio 0, .pump radio 0] ++ chunks 0 16

/-- A stale nack moves the session to an offset between two acknowledgement steps of the slave. -/
def offsetWindows : List PushInput :=
  [.pump radio 900, .pump radio 900, .pump radio 900, .deliverChunk 0 0 0, .deliverStatus 0 true 900,
    .deliverBegin opened, .pump radio 1000, .deliverChunk 16 0 0] ++ chunks 0 16 ++
  [.deliverStatus 2 true 1000, .pump radio 1000, .pump radio 1000] ++ chunks 17 16 ++
  [.deliverStatus 3 true 1000]

theorem run_all (s : PushLink) (is : List PushInput) :
    Run PushLink.step (fun _ _ => True) s (is.foldl PushLink.step s) := by
  refine Run.of_admitted is ?_
  induction is generalizing s with
  | nil => trivial
  | cons i is ih => exact ⟨trivial, ih _⟩

theorem admitted (size : Nat) (chunk_bytes : UInt16) (slave : SlaveReception)
    (hchunk : 32 ≤ chunk_bytes ∧ chunk_bytes ≤ 220) (hsize : 0 < size ∧ size < 2 ^ 32)
    (hslave : slave.local_role = .Slave ∧ slave.sink.receive.active = false) :
    (start size chunk_bytes slave).Admitted where
  chunk := hchunk
  size := by simpa [start] using hsize
  role := hslave.1
  inactive := hslave.2

theorem used_inactive : used.local_role = .Slave ∧ used.sink.receive.active = false := by decide +kernel

def firstWindow : PushLink := windowArrives.foldl PushLink.step (start 2048 32 idle).link

def offsetWindow : PushLink := offsetWindows.foldl PushLink.step (start 3072 64 used).link

theorem firstWindow_run :
    Run PushLink.step (fun _ _ => True) (start 2048 32 idle).link firstWindow := by
  unfold firstWindow
  generalize (start 2048 32 idle).link = s
  exact run_all s windowArrives

theorem offsetWindow_run :
    Run PushLink.step (fun _ _ => True) (start 3072 64 used).link offsetWindow := by
  unfold offsetWindow
  generalize (start 3072 64 used).link = s
  exact run_all s offsetWindows

end PushExample

instance (out : List FirmwareStatus) (offset : UInt32) : Decidable (Acks out offset) :=
  inferInstanceAs (Decidable (∃ a ∈ out, a.kind = .ChunkAck ∧ offset ≤ a.offset_bytes))

open PushExample

/-- The slave of the offset window acknowledges it when the session sends it again. -/
theorem offset_window_acked :
    Acks (offsetWindow.slave.deliverChunks offsetWindow.master_mac offsetWindow.corr_id
      (arrive (offsetWindow.master.retransmission offsetWindow.image))).1 2112 := by
  have hrun : offsetWindow.slave.sink.config.receive_timeout_s = 0 ∧
      2112 ≤ offsetWindow.slave.sink.contiguousReceiveSize ∧
      (offsetWindow.master.active = true ∧ offsetWindow.master.phase = .Streaming ∧
        offsetWindow.master.waiting_chunk_ack = true ∧
        offsetWindow.master.pending_end_offset = 2112 ∧
        offsetWindow.master.remote_acked_offset < 2112) ∧
      offsetWindow.slave.hung = false ∧
      offsetWindow.master.remote_acked_offset % offsetWindow.slave.sink.receive.chunk_size = 0 ∧
      offsetWindow.slave.sink.receive.received_size <
        offsetWindow.master.windowEnd offsetWindow.master.remote_acked_offset ∧
      (offsetWindow.slave.ota_transfer_next_ack_offset ≤ offsetWindow.reach ∨
        offsetWindow.reach = offsetWindow.slave.sink.receive.expected_size) := by
    decide +kernel
  obtain ⟨htimeout, hreceived, ⟨hactive, hphase, hwaiting, hpending, hunacked⟩, hawake, haligned,
    hbeyond, hdue⟩ := hrun
  have hlive := OtaManager.staysLive_of_no_timeout (m := offsetWindow.slave.sink) htimeout
    offsetWindow.master_mac offsetWindow.corr_id
    (arrive (offsetWindow.master.retransmission offsetWindow.image))
  have hiff := retransmission_acked_iff (admitted 3072 64 used (by decide) (by decide) used_inactive)
    offsetWindow_run ⟨hactive, hphase, hwaiting, hpending, hunacked⟩ hreceived (arrive_map _) hlive
  exact hiff.mpr ⟨hawake, haligned, hbeyond, hdue⟩

/-- With chunks of 32 bytes the slave never acknowledges the first window: it ends at 512, and the
first acknowledgement step of the slave at 1024. -/
theorem first_window_never_acked :
    ¬ ∀ (p : PushStart) (l : PushLink) (pending_end : UInt32) (arrivals : List ChunkArrival),
      p.Admitted → Run PushLink.step (fun _ _ => True) p.link l → l.master.AwaitsAck pending_end →
      pending_end ≤ l.slave.sink.contiguousReceiveSize →
      arrivals.map (fun a => (a.offset, a.data)) = l.master.retransmission l.image →
      OtaManager.StaysLive l.master_mac l.corr_id l.slave.sink arrivals →
      Acks (l.slave.deliverChunks l.master_mac l.corr_id arrivals).1 pending_end := by
  intro h
  have hrun : firstWindow.slave.sink.config.receive_timeout_s = 0 ∧
      512 ≤ firstWindow.slave.sink.contiguousReceiveSize ∧
      (firstWindow.master.active = true ∧ firstWindow.master.phase = .Streaming ∧
        firstWindow.master.waiting_chunk_ack = true ∧
        firstWindow.master.pending_end_offset = 512 ∧
        firstWindow.master.remote_acked_offset < 512) ∧
      ¬ Acks (firstWindow.slave.deliverChunks firstWindow.master_mac firstWindow.corr_id
        (arrive (firstWindow.master.retransmission firstWindow.image))).1 512 := by
    decide +kernel
  obtain ⟨htimeout, hreceived, ⟨hactive, hphase, hwaiting, hpending, hunacked⟩, hsilent⟩ := hrun
  have hlive := OtaManager.staysLive_of_no_timeout (m := firstWindow.slave.sink) htimeout
    firstWindow.master_mac firstWindow.corr_id
    (arrive (firstWindow.master.retransmission firstWindow.image))
  exact hsilent (h (start 2048 32 idle) firstWindow 512 _ (admitted 2048 32 idle (by decide) (by decide) ⟨rfl, rfl⟩)
    firstWindow_run ⟨hactive, hphase, hwaiting, hpending, hunacked⟩ hreceived (arrive_map _) hlive)

end EspNowLink
