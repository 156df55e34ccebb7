import EspNowLink.Ota.Lifecycle
import EspNowLink.Ota.ReceiveCoverage
import Mathlib.Algebra.Order.BigOperators.Group.Finset
import Mathlib.Data.List.Dedup
import Mathlib.Order.Bounds.Basic
import Mathlib.Order.Interval.Finset.Nat

open Framework

namespace EspNowLink

/-- A call of `writeReceiveChunk`. -/
structure ChunkCall where
  sender : MacAddress
  corr_id : UInt32
  offset : UInt32
  data : Bytes
  now_s : UInt32
  deriving DecidableEq

namespace ChunkCall

/-- Byte `k` of the image is one of the call's bytes. -/
def Covers (c : ChunkCall) (k : Nat) : Prop :=
  c.offset.toNat ≤ k ∧ k < c.offset.toNat + c.data.length

/-- The call carries one whole chunk of the image. -/
structure Whole (total_size chunk_size : UInt32) (c : ChunkCall) : Prop where
  inside : c.offset.toNat < total_size.toNat
  aligned : chunk_size.toNat ∣ c.offset.toNat
  length : c.data.length = min chunk_size.toNat (total_size.toNat - c.offset.toNat)

end ChunkCall

/-- Byte `k` was received. -/
def Covered (log : List ChunkCall) (k : Nat) : Prop := ∃ c ∈ log, c.Covers k

instance (c : ChunkCall) (k : Nat) : Decidable (c.Covers k) := inferInstanceAs (Decidable (_ ∧ _))
instance (log : List ChunkCall) (k : Nat) : Decidable (Covered log k) :=
  inferInstanceAs (Decidable (∃ c ∈ log, c.Covers k))

/-- Each distinct chunk of the log, as its offset and its length. -/
def distinctChunks (log : List ChunkCall) : List (UInt32 × Nat) :=
  (log.map fun c => (c.offset, c.data.length)).dedup

/-- The manager and the chunks it has accepted, the last one first. -/
structure Reception where
  manager : OtaManager
  accepted : List ChunkCall

def Reception.write (s : Reception) (c : ChunkCall) : Reception :=
  let (ok, m) := s.manager.writeReceiveChunk c.sender c.corr_id c.offset c.data c.now_s
  { manager := m, accepted := if ok then c :: s.accepted else s.accepted }

section Log

variable {total_size chunk_size : UInt32} {log : List ChunkCall} {c c' : ChunkCall}

@[simp] theorem covered_nil (k : Nat) : ¬ Covered [] k := by simp [Covered]

theorem covered_cons (k : Nat) : Covered (c :: log) k ↔ c.Covers k ∨ Covered log k := by
  simp [Covered]

/-- The chunk that byte `k` is in. -/
theorem ChunkCall.Whole.offset_eq (hc : c.Whole total_size chunk_size) (hpos : 0 < chunk_size.toNat)
    {k : Nat} (hk : c.Covers k) : c.offset.toNat = k / chunk_size.toNat * chunk_size.toNat := by
  obtain ⟨i, hi⟩ := hc.aligned
  have hlen := hc.length
  obtain ⟨hlow, hhigh⟩ := hk
  have hquot : k / chunk_size.toNat = i := by
    rw [Nat.div_eq_iff hpos]
    rw [hi, Nat.mul_comm] at hlow hhigh
    constructor
    · omega
    · omega
  rw [hquot, hi, Nat.mul_comm]

/-- Two chunks of the image that share a byte are the same. -/
theorem ChunkCall.Whole.offset_unique (hc : c.Whole total_size chunk_size)
    (hc' : c'.Whole total_size chunk_size) (hpos : 0 < chunk_size.toNat) {k : Nat} (hk : c.Covers k)
    (hk' : c'.Covers k) : c.offset = c'.offset := by
  apply UInt32.toNat_inj.mp
  rw [hc.offset_eq hpos hk, hc'.offset_eq hpos hk']

theorem ChunkCall.Whole.length_eq (hc : c.Whole total_size chunk_size)
    (hc' : c'.Whole total_size chunk_size) (h : c.offset = c'.offset) :
    c.data.length = c'.data.length := by
  rw [hc.length, hc'.length, h]

theorem ChunkCall.Whole.end_le (hc : c.Whole total_size chunk_size) :
    c.offset.toNat + c.data.length ≤ total_size.toNat := by
  have hlen := hc.length
  have hin := hc.inside
  omega

/-- The number of bytes received. -/
def receivedBytes (total_size : UInt32) (log : List ChunkCall) : Nat :=
  ((Finset.range total_size.toNat).filter fun k => Covered log k).card

theorem receivedBytes_le (total_size : UInt32) (log : List ChunkCall) :
    receivedBytes total_size log ≤ total_size.toNat := by
  have hcard := Finset.card_filter_le (Finset.range total_size.toNat) fun k => Covered log k
  rwa [Finset.card_range] at hcard

theorem receivedBytes_cons_old (hc : c.Whole total_size chunk_size)
    (hlog : ∀ c ∈ log, c.Whole total_size chunk_size) (hold : ∃ c' ∈ log, c'.offset = c.offset) :
    receivedBytes total_size (c :: log) = receivedBytes total_size log := by
  obtain ⟨c', hmem, hoffset⟩ := hold
  have hlen := (hlog c' hmem).length_eq hc hoffset
  unfold receivedBytes
  congr 1
  ext k
  simp only [Finset.mem_filter, Finset.mem_range, covered_cons]
  have hsame : c.Covers k → Covered log k := fun hk =>
    ⟨c', hmem, by unfold ChunkCall.Covers at hk ⊢; rw [hoffset, hlen]; exact hk⟩
  tauto

theorem receivedBytes_cons_new (hc : c.Whole total_size chunk_size) (hpos : 0 < chunk_size.toNat)
    (hlog : ∀ c ∈ log, c.Whole total_size chunk_size) (hnew : ¬ ∃ c' ∈ log, c'.offset = c.offset) :
    receivedBytes total_size (c :: log) = receivedBytes total_size log + c.data.length := by
  have hend := hc.end_le
  have hsplit : ((Finset.range total_size.toNat).filter fun k => Covered (c :: log) k) =
      ((Finset.range total_size.toNat).filter fun k => Covered log k) ∪
        Finset.Ico c.offset.toNat (c.offset.toNat + c.data.length) := by
    ext k
    simp only [Finset.mem_filter, Finset.mem_range, covered_cons, Finset.mem_union, Finset.mem_Ico]
    unfold ChunkCall.Covers
    constructor
    · rintro ⟨hk, hcov | hcov⟩
      · exact .inr hcov
      · exact .inl ⟨hk, hcov⟩
    · rintro (⟨hk, hcov⟩ | hcov)
      · exact ⟨hk, .inr hcov⟩
      · exact ⟨by omega, .inl hcov⟩
  have hdisjoint : Disjoint ((Finset.range total_size.toNat).filter fun k => Covered log k)
      (Finset.Ico c.offset.toNat (c.offset.toNat + c.data.length)) := by
    rw [Finset.disjoint_left]
    intro k hk hk'
    obtain ⟨c', hmem, hcov⟩ := (Finset.mem_filter.mp hk).2
    exact hnew ⟨c', hmem, (hlog c' hmem).offset_unique hc hpos hcov (Finset.mem_Ico.mp hk')⟩
  rw [receivedBytes, hsplit, Finset.card_union_of_disjoint hdisjoint, Nat.card_Ico]
  unfold receivedBytes
  omega

/-- The distinct chunks have as many bytes as were received. -/
theorem sum_distinctChunks (hpos : 0 < chunk_size.toNat)
    (hlog : ∀ c ∈ log, c.Whole total_size chunk_size) :
    ((distinctChunks log).map Prod.snd).sum = receivedBytes total_size log := by
  induction log with
  | nil => simp [distinctChunks, receivedBytes]
  | cons c log ih =>
    have hc := hlog c (by simp)
    have hlog' : ∀ c ∈ log, c.Whole total_size chunk_size := fun c hc => hlog c (by simp [hc])
    have hmem : (c.offset, c.data.length) ∈ log.map (fun c => (c.offset, c.data.length)) ↔
        ∃ c' ∈ log, c'.offset = c.offset := by
      simp only [List.mem_map, Prod.mk.injEq]
      constructor
      · rintro ⟨c', hmem, hoffset, -⟩
        exact ⟨c', hmem, hoffset⟩
      · rintro ⟨c', hmem, hoffset⟩
        exact ⟨c', hmem, hoffset, (hlog' c' hmem).length_eq hc hoffset⟩
    by_cases hold : ∃ c' ∈ log, c'.offset = c.offset
    · rw [receivedBytes_cons_old hc hlog' hold, ← ih hlog', distinctChunks, List.map_cons,
        List.dedup_cons_of_mem (hmem.mpr hold), distinctChunks]
    · rw [receivedBytes_cons_new hc hpos hlog' hold, ← ih hlog', distinctChunks, List.map_cons,
        List.dedup_cons_of_notMem (fun h => hold (hmem.mp h)), distinctChunks, List.map_cons,
        List.sum_cons, Nat.add_comm]

end Log

/-- A session under way and the chunks accepted in it. -/
structure SessionHolds (total_size chunk_size image_crc32 : UInt32) (r : ReceiveSession)
    (log : List ChunkCall) : Prop where
  sound : r.Sound
  size_eq : r.expected_size = total_size
  chunk_eq : r.chunk_size = chunk_size
  crc_eq : r.expected_crc32 = image_crc32
  got : ∀ i < r.chunk_count.toNat,
    r.got i = true ↔ ∃ c ∈ log, c.offset.toNat = i * chunk_size.toNat
  below : ∀ c ∈ log, c.offset.toNat / chunk_size.toNat < r.chunk_count.toNat
  unique : r.unique_received_size.toNat = receivedBytes total_size log

/-- The pool holds the chunks accepted, and nothing else was written since it was `before`. -/
structure PoolHolds (total_size : UInt32) (before : Bytes) (log : List ChunkCall) (pool : Bytes) :
    Prop where
  length : pool.length = before.length
  room : total_size.toNat ≤ pool.length
  beyond : ∀ k, total_size.toNat ≤ k → pool[k]? = before[k]?
  covered : ∀ k, Covered log k → ∃ c ∈ log, c.Covers k ∧ pool[k]? = c.data[k - c.offset.toNat]?

structure ReceptionHolds (total_size chunk_size image_crc32 : UInt32) (before : Bytes) (s : Reception) :
    Prop where
  whole : ∀ c ∈ s.accepted, c.Whole total_size chunk_size
  session : s.manager.receive.active = true →
    SessionHolds total_size chunk_size image_crc32 s.manager.receive s.accepted
  pool : ∃ pool, s.manager.psram_pool = some pool ∧ PoolHolds total_size before s.accepted pool

section Accept

variable {total_size chunk_size image_crc32 : UInt32} {before pool : Bytes} {log : List ChunkCall}
  {m : OtaManager} {c : ChunkCall}

theorem SessionHolds.chunk_pos {r : ReceiveSession}
    (h : SessionHolds total_size chunk_size image_crc32 r log) : 0 < chunk_size.toNat := by
  rw [← h.chunk_eq]
  exact h.sound.chunk_pos

/-- A chunk that is not refused is a whole chunk of the image. -/
theorem SessionHolds.whole (h : SessionHolds total_size chunk_size image_crc32 m.receive log)
    (hrefusal : m.chunkRefusal c.offset c.data = none) :
    c.Whole total_size chunk_size ∧ c.offset.toNat / chunk_size.toNat < m.receive.chunk_count.toNat := by
  obtain ⟨halign, hindex, hlength⟩ := OtaManager.chunkRefusal_none hrefusal
  have hdvd : chunk_size.toNat ∣ c.offset.toNat := by
    rw [h.chunk_eq] at halign
    apply Nat.dvd_of_mod_eq_zero
    rw [← UInt32.toNat_mod, halign, UInt32.toNat_zero]
  have hquot : (c.offset / m.receive.chunk_size).toNat = c.offset.toNat / chunk_size.toNat := by
    rw [UInt32.toNat_div, h.chunk_eq]
  rw [UInt32.lt_iff_toNat_lt, hquot] at hindex
  have hmul : c.offset.toNat / chunk_size.toNat * chunk_size.toNat = c.offset.toNat :=
    Nat.div_mul_cancel hdvd
  have hbelow := h.sound.toShaped.boundary_lt hindex
  have hsize := (h.sound.toShaped.chunkSizeAt_toNat (i := c.offset / m.receive.chunk_size)
    (by rwa [hquot])).1
  rw [hquot] at hsize
  simp only [ReceiveSession.boundary, h.chunk_eq, h.size_eq, hmul] at hbelow hsize
  rw [Nat.add_mul, Nat.one_mul, hmul] at hsize
  refine ⟨⟨hbelow.2, hdvd, ?_⟩, hindex⟩
  rw [hlength, h.chunk_eq, hsize]
  omega

theorem acceptChunk_unique (m : OtaManager) (offset : UInt32) (data : Bytes) (now_s : UInt32) :
    (m.acceptChunk offset data now_s).receive.unique_received_size =
      if m.receive.isChunkReceived (offset / m.receive.chunk_size) then m.receive.unique_received_size
      else m.receive.unique_received_size + data.length.toUInt32 := by
  have hrefresh : ∀ r : ReceiveSession,
      r.refreshContiguousReceived.unique_received_size = r.unique_received_size := by
    intro r
    unfold ReceiveSession.refreshContiguousReceived
    split <;> rfl
  simp only [OtaManager.acceptChunk, hrefresh]
  split <;> rfl

theorem acceptChunk_expected_crc32 (m : OtaManager) (offset : UInt32) (data : Bytes) (now_s : UInt32) :
    (m.acceptChunk offset data now_s).receive.expected_crc32 = m.receive.expected_crc32 := by
  have hrefresh : ∀ r : ReceiveSession,
      r.refreshContiguousReceived.expected_crc32 = r.expected_crc32 := by
    intro r
    unfold ReceiveSession.refreshContiguousReceived
    split <;> rfl
  simp only [OtaManager.acceptChunk, hrefresh]
  split
  · rfl
  · unfold ReceiveSession.markChunkReceived
    split <;> rfl

theorem SessionHolds.accept (h : SessionHolds total_size chunk_size image_crc32 m.receive log)
    (hlog : ∀ c ∈ log, c.Whole total_size chunk_size)
    (hrefusal : m.chunkRefusal c.offset c.data = none) (now_s : UInt32) :
    SessionHolds total_size chunk_size image_crc32 (m.acceptChunk c.offset c.data now_s).receive
      (c :: log) := by
  have hr := OtaManager.acceptChunk_receives h.sound hrefusal now_s
  obtain ⟨hwhole, hindex⟩ := h.whole hrefusal
  have hpos := h.chunk_pos
  rw [h.chunk_eq] at hr
  have hmul : c.offset.toNat / chunk_size.toNat * chunk_size.toNat = c.offset.toNat :=
    Nat.div_mul_cancel hwhole.aligned
  have hreceived : m.receive.isChunkReceived (c.offset / m.receive.chunk_size) = true ↔
      ∃ c' ∈ log, c'.offset = c.offset := by
    rw [ReceiveSession.isChunkReceived_eq, UInt32.toNat_div, h.chunk_eq, Bool.and_eq_true,
      decide_eq_true_iff, h.got _ hindex, hmul]
    simp only [hindex, true_and, UInt32.toNat_inj]
  refine ⟨hr.sound, ?_, ?_, ?_, ?_, ?_, ?_⟩
  · rw [hr.expected_size, h.size_eq]
  · rw [hr.chunk_size, h.chunk_eq]
  · rw [acceptChunk_expected_crc32, h.crc_eq]
  · intro i hi
    rw [hr.chunk_count] at hi
    rw [hr.got, Bool.or_eq_true, h.got i hi, decide_eq_true_iff]
    have hoffset : c.offset.toNat = i * chunk_size.toNat ↔ i = c.offset.toNat / chunk_size.toNat := by
      constructor
      · intro hi
        rw [hi, Nat.mul_div_cancel _ hpos]
      · rintro rfl
        exact hmul.symm
    simp only [List.mem_cons, exists_eq_or_imp, hoffset, or_comm]
  · intro c' hc'
    rw [hr.chunk_count]
    rcases List.mem_cons.mp hc' with rfl | hmem
    · exact hindex
    · exact h.below c' hmem
  · rw [acceptChunk_unique]
    by_cases hold : ∃ c' ∈ log, c'.offset = c.offset
    · rw [if_pos (hreceived.mpr hold), h.unique, receivedBytes_cons_old hwhole hlog hold]
    · have hle := receivedBytes_le total_size (c :: log)
      have htotal := total_size.toNat_lt
      rw [receivedBytes_cons_new hwhole hpos hlog hold] at hle ⊢
      rw [if_neg (fun hrec => hold (hreceived.mp hrec)), UInt32.toNat_add, h.unique, Nat.toUInt32_eq,
        UInt32.toNat_ofNat']
      omega

theorem copyInto_getElem (pool : Bytes) (offset : Nat) (data : Bytes)
    (hfit : offset + data.length ≤ pool.length) (k : Nat) :
    (OtaManager.copyInto pool offset data)[k]? =
      if offset ≤ k ∧ k < offset + data.length then data[k - offset]? else pool[k]? := by
  have htake : (pool.take offset).length = offset := by
    rw [List.length_take]
    omega
  unfold OtaManager.copyInto
  split
  · rename_i hin
    rw [List.append_assoc, List.getElem?_append_right (by omega),
      List.getElem?_append_left (by omega), htake]
  · rename_i hout
    rcases Nat.lt_or_ge k offset with hlow | hhigh
    · rw [List.append_assoc, List.getElem?_append_left (by omega), List.getElem?_take_of_lt hlow]
    · rw [List.getElem?_append_right (by rw [List.length_append]; omega), List.getElem?_drop,
        List.length_append, htake]
      congr 1
      omega

theorem PoolHolds.accept (h : PoolHolds total_size before log pool)
    (hwhole : c.Whole total_size chunk_size) :
    PoolHolds total_size before (c :: log) (OtaManager.copyInto pool c.offset.toNat c.data) := by
  have hend := hwhole.end_le
  have hroom := h.room
  have hget := copyInto_getElem pool c.offset.toNat c.data (by omega)
  have hlength : (OtaManager.copyInto pool c.offset.toNat c.data).length = pool.length := by
    simp only [OtaManager.copyInto, List.length_append, List.length_take, List.length_drop]
    omega
  refine ⟨by rw [hlength, h.length], by rwa [hlength], ?_, ?_⟩
  · intro k hk
    rw [hget, if_neg (by omega), h.beyond k hk]
  · intro k hk
    by_cases hc : c.Covers k
    · refine ⟨c, by simp, hc, ?_⟩
      exact (hget k).trans (if_pos hc)
    · obtain ⟨c', hmem, hcov, hbyte⟩ := h.covered k (((covered_cons k).mp hk).resolve_left hc)
      refine ⟨c', by simp [hmem], hcov, ?_⟩
      rw [← hbyte]
      exact (hget k).trans (if_neg hc)

end Accept

theorem expireReceiveIfStale_pool (m : OtaManager) (now_s : UInt32) :
    (m.expireReceiveIfStale now_s).psram_pool = m.psram_pool := by
  unfold OtaManager.expireReceiveIfStale
  dsimp only
  repeat' split
  all_goals rfl

/-- A chunk is refused, and then nothing is written, or it is accepted by the session under way. -/
theorem writeReceiveChunk_cases (m : OtaManager) (c : ChunkCall) {ok : Bool} {m' : OtaManager}
    (h : m.writeReceiveChunk c.sender c.corr_id c.offset c.data c.now_s = (ok, m')) :
    (ok = false ∧ m'.psram_pool = m.psram_pool ∧
      (m'.receive = m.receive ∨ m'.receive.active = false)) ∨
    (ok = true ∧ m.receive.active = true ∧ m.chunkRefusal c.offset c.data = none ∧
      m' = m.acceptChunk c.offset c.data c.now_s) := by
  have hpool := expireReceiveIfStale_pool m c.now_s
  rcases m.expireReceiveIfStale_cases c.now_s with hlive | hstale
  · rw [OtaManager.writeReceiveChunk_live hlive] at h
    split at h
    · cases h
      exact .inl ⟨rfl, rfl, .inl rfl⟩
    · rename_i hvalid
      have hactive : m.receive.active = true := by
        simp only [OtaManager.validateSession, Bool.not_eq_true', Bool.not_eq_false,
          Bool.and_eq_true] at hvalid
        exact hvalid.1.1
      split at h
      · cases h
        exact .inl ⟨rfl, rfl, .inl rfl⟩
      · rename_i hrefusal
        cases h
        exact .inr ⟨rfl, hactive, hrefusal, rfl⟩
  · unfold OtaManager.writeReceiveChunk at h
    dsimp only at h
    rw [if_pos (by simp [OtaManager.validateSession, hstale])] at h
    cases h
    exact .inl ⟨rfl, hpool, .inr hstale⟩

section Runs

variable {total_size chunk_size image_crc32 : UInt32} {before : Bytes} {s : Reception}

theorem ReceptionHolds.write (h : ReceptionHolds total_size chunk_size image_crc32 before s)
    (c : ChunkCall) : ReceptionHolds total_size chunk_size image_crc32 before (s.write c) := by
  obtain ⟨pool, hpool, hholds⟩ := h.pool
  unfold Reception.write
  rcases hw : s.manager.writeReceiveChunk c.sender c.corr_id c.offset c.data c.now_s with ⟨ok, m'⟩
  rcases writeReceiveChunk_cases s.manager c hw with
    ⟨rfl, hsame, hreceive⟩ | ⟨rfl, hactive, hrefusal, rfl⟩
  · refine ⟨h.whole, ?_, pool, hsame.trans hpool, hholds⟩
    intro hactive
    rcases hreceive with hreceive | hreceive
    · change SessionHolds _ _ _ m'.receive _
      rw [hreceive]
      exact h.session (by rwa [← hreceive])
    · rw [hreceive] at hactive
      cases hactive
  · have hsession := h.session hactive
    have hwhole := (hsession.whole hrefusal).1
    refine ⟨?_, fun _ => hsession.accept h.whole hrefusal c.now_s, ?_⟩
    · intro c' hc'
      rcases List.mem_cons.mp hc' with rfl | hmem
      · exact hwhole
      · exact h.whole c' hmem
    · refine ⟨OtaManager.copyInto pool c.offset.toNat c.data, ?_, hholds.accept hwhole⟩
      change s.manager.psram_pool.map _ = _
      rw [hpool]
      rfl

/-- Every sequence of calls keeps the session, the pool and the log in step. -/
theorem ReceptionHolds.run (h : ReceptionHolds total_size chunk_size image_crc32 before s)
    (calls : List ChunkCall) :
    ReceptionHolds total_size chunk_size image_crc32 before (calls.foldl Reception.write s) := by
  induction calls generalizing s with
  | nil => exact h
  | cons c calls ih => exact ih (h.write c)

/-- The contiguous size is the length of the longest received prefix. -/
theorem SessionHolds.contiguous {r : ReceiveSession} {log : List ChunkCall}
    (h : SessionHolds total_size chunk_size image_crc32 r log)
    (hlog : ∀ c ∈ log, c.Whole total_size chunk_size) :
    IsGreatest {n | n ≤ total_size.toNat ∧ ∀ k < n, Covered log k} r.received_size.toNat := by
  have hpos := h.chunk_pos
  set e := runEnd r.got r.chunk_count.toNat 0 with he
  have hend : e ≤ r.chunk_count.toNat := runEnd_le (Nat.zero_le _)
  have hreceived : r.received_size.toNat = min (e * chunk_size.toNat) total_size.toNat := by
    rw [h.sound.received, ReceiveSession.boundary, h.chunk_eq, h.size_eq]
  constructor
  · refine ⟨by omega, fun k hk => ?_⟩
    have hlt : k / chunk_size.toNat < e := by
      rw [Nat.div_lt_iff_lt_mul hpos]
      omega
    obtain ⟨c, hmem, hoffset⟩ := (h.got _ (by omega)).mp (got_of_lt_runEnd (Nat.zero_le _) hlt)
    have hlen := (hlog c hmem).length
    have hdiv := Nat.div_add_mod k chunk_size.toNat
    have hmod := Nat.mod_lt k hpos
    rw [Nat.mul_comm] at hdiv
    exact ⟨c, hmem, by omega, by omega⟩
  · rintro n ⟨hn, hcov⟩
    by_contra hlt
    -- the byte where the run of chunks stops was received all the same
    have hstop : e * chunk_size.toNat < total_size.toNat := by omega
    obtain ⟨c, hmem, hc⟩ := hcov (e * chunk_size.toNat) (by omega)
    have hoffset := (hlog c hmem).offset_eq hpos hc
    rw [Nat.mul_div_cancel _ hpos] at hoffset
    have hbelow := h.below c hmem
    rw [hoffset, Nat.mul_div_cancel _ hpos] at hbelow
    exact not_got_runEnd r.got r.chunk_count.toNat 0 hbelow
      ((h.got e hbelow).mpr ⟨c, hmem, hoffset⟩)

end Runs

/-- What the allocator promises: a block has the size asked for, and does not fill the 32-bit address
space. -/
def PoolBlock (pool : Option Bytes) (max_firmware_bytes : UInt32) : Prop :=
  ∀ block, pool = some block →
    block.length = max_firmware_bytes.toNat ∧ block.length + 8 ≤ 2 ^ 32

def BeginEnvironment.PoolAllocated (env : BeginEnvironment) (max_firmware_bytes : UInt32) : Prop :=
  PoolBlock env.pool max_firmware_bytes

namespace OtaManager

/-- The managers that calls lead to. `status` stands for the calls that only publish another status. -/
inductive Reached : OtaManager → Prop
  | constructed (config : OtaManagerConfig) (status : OtaRuntimeStatus) :
    Reached ⟨config, none, 0, .idle, noMetadata, status⟩
  | start {m : OtaManager} (env : StartEnvironment) :
    Reached m → PoolBlock env.pool m.config.max_firmware_bytes → Reached (m.begin env).2
  | begin_ {m : OtaManager} (sender : MacAddress) (corr_id total_size chunk_size image_crc32 : UInt32)
      (metadata : FirmwareImageMetadata) (env : BeginEnvironment) :
    Reached m → env.PoolAllocated m.config.max_firmware_bytes →
    Reached (m.beginReceive sender corr_id total_size chunk_size image_crc32 metadata env).2
  | chunk {m : OtaManager} (c : ChunkCall) :
    Reached m → Reached (m.writeReceiveChunk c.sender c.corr_id c.offset c.data c.now_s).2
  | end_ {m : OtaManager} {Files : Type} (b : OtaStorageBackend Files) (d : OtaFolders)
      (sender : MacAddress) (corr_id total_size image_crc32 now_s : UInt32) (manifest : Option Bytes)
      (files : Files) :
    Reached m → Reached (m.endReceive b d sender corr_id total_size image_crc32 now_s manifest files).2.1
  | abort {m : OtaManager} (sender : MacAddress) (corr_id : UInt32) :
    Reached m → Reached (m.abortReceive sender corr_id)
  | abortActive {m : OtaManager} : Reached m → Reached m.abortActiveReceive
  | tick {m : OtaManager} (now_s : UInt32) : Reached m → Reached (m.expireReceiveIfStale now_s)
  | status {m : OtaManager} (status : OtaRuntimeStatus) : Reached m → Reached { m with status := status }
  | limit {m : OtaManager} (max_bytes : UInt32) : Reached m → Reached (m.setMaxFirmwareBytes max_bytes)

/-- The pool is as large as recorded and leaves room in the address space. -/
def PoolSound (m : OtaManager) : Prop :=
  ∀ pool, m.psram_pool = some pool →
    m.psram_pool_size.toNat ≤ pool.length ∧ m.psram_pool_size.toNat + 8 ≤ 2 ^ 32

theorem PoolSound.of_same {m m' : OtaManager} (h : m.PoolSound) (hpool : m'.psram_pool = m.psram_pool)
    (hsize : m'.psram_pool_size = m.psram_pool_size) : m'.PoolSound := by
  intro pool hp
  rw [hsize]
  exact h pool (by rw [← hpool, hp])

theorem expireReceiveIfStale_pool_size (m : OtaManager) (now_s : UInt32) :
    (m.expireReceiveIfStale now_s).psram_pool_size = m.psram_pool_size := by
  unfold expireReceiveIfStale
  dsimp only
  repeat' split
  all_goals rfl

theorem expireReceiveIfStale_config (m : OtaManager) (now_s : UInt32) :
    (m.expireReceiveIfStale now_s).config = m.config := by
  unfold expireReceiveIfStale
  dsimp only
  repeat' split
  all_goals rfl

theorem PoolSound.expire {m : OtaManager} (h : m.PoolSound) (now_s : UInt32) :
    (m.expireReceiveIfStale now_s).PoolSound :=
  h.of_same (expireReceiveIfStale_pool m now_s) (expireReceiveIfStale_pool_size m now_s)

theorem PoolSound.ensure {m : OtaManager} (h : m.PoolSound) {allocated : Option Bytes}
    (henv : PoolBlock allocated m.config.max_firmware_bytes) : (m.ensurePsramPool allocated).2.PoolSound := by
  unfold ensurePsramPool
  split
  · exact h
  split
  · exact h
  cases allocated with
  | none =>
    intro pool hp
    cases hp
  | some block =>
    intro pool hp
    cases hp
    obtain ⟨hlen, hfit⟩ := henv block rfl
    change m.config.max_firmware_bytes.toNat ≤ block.length ∧ m.config.max_firmware_bytes.toNat + 8 ≤ _
    omega

theorem PoolSound.open_ {m : OtaManager} (h : m.PoolSound) (sender : MacAddress)
    (corr_id total_size chunk_size image_crc32 : UInt32) (metadata : FirmwareImageMetadata)
    (env : BeginEnvironment) :
    (m.openSession sender corr_id total_size chunk_size image_crc32 metadata env).2.PoolSound := by
  refine h.of_same ?_ ?_ <;>
  · unfold openSession abortReceive
    dsimp only
    repeat' split
    all_goals rfl

theorem PoolSound.begin_ {m : OtaManager} (h : m.PoolSound) (sender : MacAddress)
    (corr_id total_size chunk_size image_crc32 : UInt32) (metadata : FirmwareImageMetadata)
    {env : BeginEnvironment} (henv : env.PoolAllocated m.config.max_firmware_bytes) :
    (m.beginReceive sender corr_id total_size chunk_size image_crc32 metadata env).2.PoolSound := by
  have hexpired := h.expire env.now_epoch_s
  rw [← expireReceiveIfStale_config m env.now_epoch_s] at henv
  have hensured := hexpired.ensure henv
  unfold beginReceive
  dsimp only
  split
  · exact hexpired
  split
  · exact hexpired
  split
  · exact hexpired
  split
  · exact hexpired
  generalize (m.expireReceiveIfStale env.now_epoch_s).ensurePsramPool env.pool = ready at hensured
  obtain ⟨ready, p⟩ := ready
  dsimp only at hensured ⊢
  split
  · exact hensured
  split
  · exact hensured
  · exact PoolSound.open_ hensured sender corr_id total_size chunk_size image_crc32 metadata env

theorem PoolSound.start {m : OtaManager} (h : m.PoolSound) {env : StartEnvironment}
    (henv : PoolBlock env.pool m.config.max_firmware_bytes) : (m.begin env).2.PoolSound := by
  have hensured := h.ensure henv
  unfold begin
  split
  · exact h
  generalize m.ensurePsramPool env.pool = ready at hensured
  obtain ⟨ready, p⟩ := ready
  dsimp only at hensured ⊢
  split
  · exact hensured
  split
  · exact hensured
  · exact hensured

theorem PoolSound.chunk {m : OtaManager} (h : m.PoolSound) (c : ChunkCall) :
    (m.writeReceiveChunk c.sender c.corr_id c.offset c.data c.now_s).2.PoolSound := by
  have hexpired := h.expire c.now_s
  unfold writeReceiveChunk
  dsimp only
  split
  · exact hexpired
  split
  · exact hexpired
  · intro pool hp
    obtain ⟨old, hold, rfl⟩ := Option.map_eq_some_iff.mp hp
    obtain ⟨hlen, hfit⟩ := hexpired old hold
    refine ⟨Nat.le_trans hlen ?_, hfit⟩
    simp only [copyInto, List.length_append, List.length_take, List.length_drop]
    omega

theorem PoolSound.end_ {m : OtaManager} (h : m.PoolSound) {Files : Type} (b : OtaStorageBackend Files)
    (d : OtaFolders) (sender : MacAddress) (corr_id total_size image_crc32 now_s : UInt32)
    (manifest : Option Bytes) (files : Files) :
    (m.endReceive b d sender corr_id total_size image_crc32 now_s manifest files).2.1.PoolSound := by
  have hexpired := h.expire now_s
  unfold endReceive
  dsimp only
  repeat' split
  all_goals try exact hexpired
  refine hexpired.of_same ?_ ?_ <;>
  · unfold storeImage
    dsimp only
    repeat' split
    all_goals rfl

theorem Reached.poolSound {m : OtaManager} (h : m.Reached) : m.PoolSound := by
  induction h with
  | constructed config status =>
    intro pool hp
    cases hp
  | start env _ henv ih => exact ih.start henv
  | begin_ sender corr_id total_size chunk_size crc metadata env _ henv ih =>
    exact ih.begin_ sender corr_id total_size chunk_size crc metadata henv
  | chunk c _ ih => exact ih.chunk c
  | end_ b d sender corr_id total_size crc now_s manifest files _ ih =>
    exact ih.end_ b d sender corr_id total_size crc now_s manifest files
  | abort sender corr_id _ ih =>
    refine ih.of_same ?_ ?_ <;>
    · unfold abortReceive
      split <;> rfl
  | abortActive _ ih =>
    refine ih.of_same ?_ ?_ <;>
    · unfold abortActiveReceive
      split <;> rfl
  | tick now_s _ ih => exact ih.expire now_s
  | status status _ ih => exact ih.of_same rfl rfl
  | limit max_bytes _ ih =>
    unfold setMaxFirmwareBytes
    split
    · intro pool hp
      cases hp
    · exact ih.of_same rfl rfl

/-- A session that `beginReceive` opens. -/
theorem Reached.opened {m m' : OtaManager} (h : m.Reached) {sender : MacAddress}
    {corr_id total_size chunk_size image_crc32 : UInt32} {metadata : FirmwareImageMetadata}
    {env : BeginEnvironment} (henv : env.PoolAllocated m.config.max_firmware_bytes)
    (hbegin : m.beginReceive sender corr_id total_size chunk_size image_crc32 metadata env = (true, m')) :
    ∃ pool, m'.psram_pool = some pool ∧
      ReceptionHolds total_size chunk_size image_crc32 pool ⟨m', []⟩ := by
  have hsound : m'.PoolSound := by
    have hb := h.poolSound.begin_ sender corr_id total_size chunk_size image_crc32 metadata henv
    rwa [hbegin] at hb
  have hchunk : chunk_size ≠ 0 := by
    rintro rfl
    unfold beginReceive at hbegin
    dsimp only at hbegin
    rw [if_pos (.inr rfl)] at hbegin
    cases hbegin
  rcases m.beginReceive_cases sender corr_id total_size chunk_size image_crc32 metadata env hbegin with
    ⟨hfalse, -⟩ | ⟨-, htotal, hroom, hreceive⟩
  · cases hfalse
  obtain ⟨hsome, hsize⟩ : m'.psram_pool.isSome ∧ total_size ≤ m'.psram_pool_size := by
    simpa [hasRoom] using hroom
  obtain ⟨pool, hpool⟩ := Option.isSome_iff_exists.mp hsome
  obtain ⟨hlen, hfit⟩ := hsound pool hpool
  rw [UInt32.le_iff_toNat_le] at hsize
  have hpos : 0 < chunk_size.toNat := by
    rcases Nat.eq_zero_or_pos chunk_size.toNat with hz | hz
    · exact absurd (UInt32.toNat_inj.mp hz) hchunk
    · exact hz
  have hcount : ((total_size + chunk_size - 1) / chunk_size).toNat + 7 < 2 ^ 32 := by
    have hle : (total_size.toNat + chunk_size.toNat - 1) % 2 ^ 32 / chunk_size.toNat ≤
        total_size.toNat := by
      rcases Nat.lt_or_ge (total_size.toNat + chunk_size.toNat - 1) (2 ^ 32) with hlt | hwrap
      · rw [Nat.mod_eq_of_lt hlt]
        refine Nat.div_le_of_le_mul ?_
        have hmul : total_size.toNat + chunk_size.toNat - 1 ≤ chunk_size.toNat * total_size.toNat := by
          have hone : total_size.toNat ≠ 0 := fun hz => htotal (UInt32.toNat_inj.mp hz)
          obtain ⟨a, ha⟩ := Nat.exists_eq_succ_of_ne_zero hone
          obtain ⟨b, hb⟩ := Nat.exists_eq_succ_of_ne_zero (Nat.pos_iff_ne_zero.mp hpos)
          rw [ha, hb, Nat.succ_mul, Nat.mul_succ]
          omega
        exact hmul
      · have hc := chunk_size.toNat_lt
        have ht := total_size.toNat_lt
        rw [Nat.div_eq_of_lt (by omega)]
        omega
    rw [ReceiveSession.chunk_count_eq hpos]
    omega
  have hfresh : m'.receive.Sound := by
    rw [hreceive]
    exact ReceiveSession.freshSession_sound_of_count htotal hpos hcount
  refine ⟨pool, hpool, by simp, ?_, pool, hpool, rfl, by omega, fun _ _ => rfl, by simp⟩
  intro _
  have hgot : ∀ i, m'.receive.got i = false := by
    intro i
    rw [hreceive]
    simp only [freshSession, ReceiveSession.got, List.getD_eq_getElem?_getD, List.getElem?_replicate]
    split <;> rfl
  refine ⟨hfresh, by rw [hreceive]; rfl, by rw [hreceive]; rfl, by rw [hreceive]; rfl, ?_, by simp, ?_⟩
  · intro i _
    simp [hgot]
  · rw [hreceive]
    simp [freshSession, ReceiveSession.idle, receivedBytes]

end OtaManager

/-- What the manager relies on of a storage backend: an operation that succeeds does what it says, and
an operation on one path leaves the others alone. -/
structure StorageLaws {Files : Type} (b : OtaStorageBackend Files)
    (contents : Files → Bytes → Option Bytes) : Prop where
  truncate : ∀ path files, (b.truncateFile path files).1.ok = true →
    contents (b.truncateFile path files).2 path = some []
  write : ∀ path (offset : UInt32) data files old, contents files path = some old →
    offset.toNat ≤ old.length → (b.writeAt path offset data files).1.ok = true →
    contents (b.writeAt path offset data files).2 path =
      some (OtaManager.copyInto old offset.toNat data)
  rename : ∀ src dest files, (b.renamePath src dest files).1.ok = true →
    contents (b.renamePath src dest files).2 dest = contents files src
  ensureDir_other : ∀ dir path files, contents (b.ensureDir dir files).2 path = contents files path
  truncate_other : ∀ path other files, other ≠ path →
    contents (b.truncateFile path files).2 other = contents files other
  write_other : ∀ path other offset data files, other ≠ path →
    contents (b.writeAt path offset data files).2 other = contents files other

namespace OtaFolders

theorem joinPath_eq (base name : Bytes) : ∃ dir, joinPath base name = dir ++ ascii "/" ++ name := by
  unfold joinPath
  split
  · exact ⟨[], rfl⟩
  · exact ⟨base, rfl⟩

theorem fileNameFromPath_final (d : OtaFolders) : fileNameFromPath d.final_path = ascii "u.bin" := by
  obtain ⟨dir, hdir⟩ := joinPath_eq d.img_dir (ascii "u.bin")
  have hname : (d.final_path.reverse.takeWhile (· ≠ 0x2F)).reverse = ascii "u.bin" := by
    rw [final_path, hdir]
    simp [ascii]
  rw [fileNameFromPath, hname]
  rfl

/-- The manifest is not written over the image. -/
theorem manifest_path_ne (d : OtaFolders) : d.manifest_path ≠ d.final_path := by
  intro h
  obtain ⟨dir, hdir⟩ := joinPath_eq d.img_dir (ascii "u.bin")
  obtain ⟨dir', hdir'⟩ := joinPath_eq d.man_dir (manifestNameForImage (ascii "u.bin"))
  have hlast : d.manifest_path.getLast? = d.final_path.getLast? := by rw [h]
  have hne : (manifestNameForImage (ascii "u.bin")).getLast? ≠ (ascii "u.bin").getLast? ∧
      manifestNameForImage (ascii "u.bin") ≠ [] ∧ ascii "u.bin" ≠ [] := by decide +kernel
  rw [manifest_path, fileNameFromPath_final, hdir', final_path, hdir,
    List.getLast?_append_of_ne_nil _ hne.2.1, List.getLast?_append_of_ne_nil _ hne.2.2] at hlast
  exact hne.1 hlast

end OtaFolders

section Storage

variable {Files : Type} {b : OtaStorageBackend Files} {contents : Files → Bytes → Option Bytes}

theorem copyInto_end (pool : Bytes) {written n : Nat} (h : written + n ≤ pool.length) :
    OtaManager.copyInto (pool.take written) written ((pool.drop written).take n) =
      pool.take (written + n) := by
  have hlen : (pool.take written).length = written := by
    rw [List.length_take]
    omega
  have htake : (pool.take written).take written = pool.take written :=
    List.take_of_length_le (Nat.le_of_eq hlen)
  have hdrop : (pool.take written).drop (written + ((pool.drop written).take n).length) = [] :=
    List.drop_eq_nil_of_le (by omega)
  rw [OtaManager.copyInto, htake, hdrop, List.append_nil, ← List.take_add]

/-- The flush loop stores the image. -/
theorem StorageLaws.flush (hb : StorageLaws b contents) {path pool : Bytes} {expected_size : Nat}
    (hpool : expected_size ≤ pool.length) (hsize : expected_size < 2 ^ 32) {turns written : Nat}
    {files : Files} (hwritten : written ≤ expected_size) (hturns : expected_size - written ≤ turns)
    (hcontents : contents files path = some (pool.take written))
    (hok : (b.flushFrom path pool expected_size turns written files).1.ok = true) :
    contents (b.flushFrom path pool expected_size turns written files).2 path =
      some (pool.take expected_size) := by
  induction turns generalizing written files with
  | zero =>
    obtain rfl : written = expected_size := by omega
    exact hcontents
  | succ turns ih =>
    unfold OtaStorageBackend.flushFrom at hok ⊢
    by_cases hlt : written < expected_size
    · rw [if_pos hlt] at hok ⊢
      dsimp only at hok ⊢
      set n := min OtaStorageBackend.kFlushBlockBytes (expected_size - written) with hn
      have hblock : 0 < OtaStorageBackend.kFlushBlockBytes := by decide
      cases hwrite : (b.writeAt path written.toUInt32 ((pool.drop written).take n) files).1.ok with
      | false =>
        rw [hwrite] at hok
        simp [hwrite] at hok
      | true =>
        have hoffset : written.toUInt32.toNat = written := by
          rw [Nat.toUInt32_eq, UInt32.toNat_ofNat']
          exact Nat.mod_eq_of_lt (by omega)
        have hnext := hb.write path written.toUInt32 ((pool.drop written).take n) files _ hcontents
          (by rw [hoffset, List.length_take]; omega) hwrite
        rw [hoffset, copyInto_end pool (by omega)] at hnext
        simp only [hwrite, Bool.not_true, Bool.false_eq_true, if_false] at hok ⊢
        exact ih (by omega) (by omega) hnext hok
    · rw [if_neg hlt]
      obtain rfl : written = expected_size := by omega
      exact hcontents

theorem StorageLaws.manifest (hb : StorageLaws b contents) (d : OtaFolders) (manifest : Option Bytes)
    (files : Files) :
    contents (b.writeReadyManifest d manifest files).2 d.final_path = contents files d.final_path := by
  have hne := d.manifest_path_ne.symm
  unfold OtaStorageBackend.writeReadyManifest
  dsimp only
  repeat' split
  all_goals simp only [hb.ensureDir_other, hb.truncate_other _ _ _ hne, hb.write_other _ _ _ _ _ hne]

/-- A stored image is what the pool holds. -/
theorem StorageLaws.storeImage (hb : StorageLaws b contents) {m m' : OtaManager} {d : OtaFolders}
    {pool path : Bytes} {total_size : UInt32} {manifest : Option Bytes} {files files' : Files}
    (hpool : m.receive.expected_size.toNat ≤ pool.length)
    (h : m.storeImage b d pool total_size manifest files = (some path, m', files')) :
    path = d.final_path ∧
      contents files' d.final_path = some (pool.take m.receive.expected_size.toNat) := by
  unfold OtaManager.storeImage at h
  dsimp only at h
  split at h
  · cases h
  rename_i htruncated
  split at h
  · cases h
  rename_i hflushed
  split at h
  · cases h
  rename_i hrenamed
  simp only [Bool.not_eq_true', Bool.not_eq_false] at htruncated hflushed hrenamed
  cases h
  refine ⟨rfl, ?_⟩
  have hempty := hb.truncate _ _ htruncated
  rw [hb.manifest, hb.rename _ _ _ hrenamed]
  exact hb.flush hpool m.receive.expected_size.toNat_lt (Nat.zero_le _) (by omega)
    (by rw [hempty, List.take_zero]) hflushed

end Storage

theorem accepted_subset (calls : List ChunkCall) (s : Reception) :
    ∀ c ∈ (calls.foldl Reception.write s).accepted, c ∈ s.accepted ∨ c ∈ calls := by
  induction calls generalizing s with
  | nil => exact fun c hc => .inl hc
  | cons call calls ih =>
    intro c hc
    have hone : ∀ c ∈ (s.write call).accepted, c = call ∨ c ∈ s.accepted := by
      intro c hc
      unfold Reception.write at hc
      dsimp only at hc
      split at hc
      · exact List.mem_cons.mp hc
      · exact .inr hc
    rcases ih (s.write call) c hc with hold | hnew
    · rcases hone c hold with rfl | hold
      · exact .inr (by simp)
      · exact .inl hold
    · exact .inr (by simp [hnew])

/-- When `endReceive` succeeds, the session was complete and the image passed its checks. -/
theorem endReceive_some {Files : Type} {b : OtaStorageBackend Files} {d : OtaFolders} {m m' : OtaManager}
    {sender : MacAddress} {corr_id total_size image_crc32 now_s : UInt32} {manifest : Option Bytes}
    {files files' : Files} {path : Bytes}
    (h : m.endReceive b d sender corr_id total_size image_crc32 now_s manifest files =
      (some path, m', files')) :
    m.receive.active = true ∧ total_size = m.receive.expected_size ∧
      image_crc32 = m.receive.expected_crc32 ∧ m.receive.received_size = m.receive.expected_size ∧
      crc32 ((m.psram_pool.getD []).take m.receive.expected_size.toNat) = m.receive.expected_crc32 ∧
      ∃ q : OtaManager, q.receive = m.receive ∧
        q.storeImage b d (m.psram_pool.getD []) total_size manifest files = (some path, m', files') := by
  rcases m.expireReceiveIfStale_cases now_s with hlive | hstale
  · unfold OtaManager.endReceive at h
    rw [hlive] at h
    dsimp only at h
    repeat' split at h
    all_goals first | cases h | skip
    rename_i hvalid hargs _ hsizes hcrc
    simp only [not_or, not_not] at hargs hsizes hcrc
    have hactive : m.receive.active = true := by
      simp only [OtaManager.validateSession, Bool.not_eq_true', Bool.not_eq_false,
        Bool.and_eq_true] at hvalid
      exact hvalid.1.1
    refine ⟨hactive, hargs.1, hargs.2, hsizes.1, hcrc, _, ?_, h⟩
    rfl
  · unfold OtaManager.endReceive at h
    dsimp only at h
    rw [if_pos (by simp [OtaManager.validateSession, hstale])] at h
    cases h

/-- After `beginReceive`, any calls of `writeReceiveChunk` write inside the image and keep the counters
equal to what was received; an image that `endReceive` stores is made of the accepted chunks. -/
theorem ota_reception_faithful {Files : Type} {b : OtaStorageBackend Files}
    {contents : Files → Bytes → Option Bytes} (hb : StorageLaws b contents) (d : OtaFolders)
    {m m' : OtaManager} (hm : m.Reached) {sender : MacAddress}
    {corr_id total_size chunk_size image_crc32 : UInt32} {metadata : FirmwareImageMetadata}
    {env : BeginEnvironment} (henv : env.PoolAllocated m.config.max_firmware_bytes)
    (hbegin : m.beginReceive sender corr_id total_size chunk_size image_crc32 metadata env = (true, m'))
    (calls : List ChunkCall) :
    let s := calls.foldl Reception.write ⟨m', []⟩
    (∀ c ∈ s.accepted, c ∈ calls ∧ c.offset.toNat + c.data.length ≤ total_size.toNat) ∧
    (∀ k, total_size.toNat ≤ k →
      (s.manager.psram_pool.getD [])[k]? = (m'.psram_pool.getD [])[k]?) ∧
    (s.manager.receive.active = true →
      s.manager.receive.unique_received_size.toNat = ((distinctChunks s.accepted).map Prod.snd).sum ∧
      IsGreatest {n | n ≤ total_size.toNat ∧ ∀ k < n, Covered s.accepted k}
        s.manager.receive.received_size.toNat) ∧
    ∀ sender' corr_id' total_size' image_crc32' now_s manifest files path m'' files',
      s.manager.endReceive b d sender' corr_id' total_size' image_crc32' now_s manifest files =
        (some path, m'', files') →
      total_size' = total_size ∧ image_crc32' = image_crc32 ∧
      ∃ image, contents files' path = some image ∧ image.length = total_size.toNat ∧
        crc32 image = image_crc32 ∧
        ∀ k < total_size.toNat, ∃ c ∈ s.accepted, c.Covers k ∧
          image[k]? = c.data[k - c.offset.toNat]? := by
  intro s
  obtain ⟨before, hbefore, hstart⟩ := hm.opened henv hbegin
  have hholds : ReceptionHolds total_size chunk_size image_crc32 before s := hstart.run calls
  obtain ⟨pool, hpool, hpoolHolds⟩ := hholds.pool
  refine ⟨fun c hc => ⟨?_, (hholds.whole c hc).end_le⟩, fun k hk => ?_, fun hactive => ?_, ?_⟩
  · exact (accepted_subset calls _ c hc).resolve_left (by simp)
  · rw [hpool, hbefore]
    exact hpoolHolds.beyond k hk
  · have hsession := hholds.session hactive
    exact ⟨by rw [hsession.unique, sum_distinctChunks hsession.chunk_pos hholds.whole],
      hsession.contiguous hholds.whole⟩
  · intro sender' corr_id' total_size' image_crc32' now_s manifest files path m'' files' hend
    obtain ⟨hactive, htotal, hcrc, hcomplete, hchecked, q, hq, hstore⟩ := endReceive_some hend
    have hsession := hholds.session hactive
    have hsize : s.manager.receive.expected_size = total_size := hsession.size_eq
    have hlen : q.receive.expected_size.toNat ≤ (s.manager.psram_pool.getD []).length := by
      rw [hq, hsize, hpool]
      exact hpoolHolds.room
    obtain ⟨rfl, himage⟩ := hb.storeImage hlen hstore
    rw [hq, hsize, hpool, Option.getD_some] at himage
    rw [hsize, hpool, Option.getD_some, hsession.crc_eq] at hchecked
    refine ⟨by rw [htotal, hsize], by rw [hcrc, hsession.crc_eq], _, himage, ?_, hchecked, ?_⟩
    · rw [List.length_take]
      exact Nat.min_eq_left hpoolHolds.room
    · intro k hk
      have hgreatest := (hsession.contiguous hholds.whole).1.2 k (by rwa [hcomplete, hsize])
      obtain ⟨c, hmem, hcov, hbyte⟩ := hpoolHolds.covered k hgreatest
      exact ⟨c, hmem, hcov, by rw [List.getElem?_take_of_lt hk, hbyte]⟩

/-- Files in memory; every operation succeeds. -/
def memoryStorage : OtaStorageBackend (Bytes → Option Bytes) where
  ensureDir _ files := (⟨true, "ok"⟩, files)
  truncateFile path files := (⟨true, "ok"⟩, Function.update files path (some []))
  removePath path files := (⟨true, "ok"⟩, Function.update files path none)
  renamePath src dest files :=
    (⟨true, "ok"⟩, Function.update (Function.update files src none) dest (files src))
  writeAt path offset data files :=
    (⟨true, "ok"⟩,
      Function.update files path ((files path).map fun old => OtaManager.copyInto old offset.toNat data))

theorem memoryStorage_laws : StorageLaws memoryStorage fun files => files where
  truncate path files _ := by simp [memoryStorage]
  write path offset data files old hold _ _ := by simp [memoryStorage, hold]
  rename src dest files _ := by simp [memoryStorage]
  ensureDir_other dir path files := rfl
  truncate_other path other files h := by simp [memoryStorage, h]
  write_other path other offset data files h := by simp [memoryStorage, h]

/-- A manager that takes images of up to eight bytes. -/
def smallManager : OtaManager :=
  ⟨⟨8, 12⟩, none, 0, .idle, OtaManager.noMetadata, ⟨.Idle, .Ok, 0, 0, 0, 0, ""⟩⟩

def smallEnvironment : BeginEnvironment := ⟨1, none, true, some (List.replicate 8 0), true, ""⟩

/-- The last chunk of a three-byte image comes first, and comes twice. -/
def smallCalls : List ChunkCall :=
  [⟨zeroMac, 5, 2, [3], 1⟩, ⟨zeroMac, 5, 0, [1, 2], 2⟩, ⟨zeroMac, 5, 2, [3], 3⟩]

def smallFolders : OtaFolders := ⟨ascii "/in", ascii "/img", ascii "/man"⟩

/-- All calls are accepted, and the image that they make up is stored. -/
theorem small_image_faithful :
    let s := smallCalls.foldl Reception.write
      ⟨(smallManager.beginReceive zeroMac 5 3 2 0x55BC801D OtaManager.noMetadata smallEnvironment).2, []⟩
    let stored := s.manager.endReceive memoryStorage smallFolders zeroMac 5 3 0x55BC801D 4 none fun _ => none
    s.accepted = smallCalls.reverse ∧ s.manager.receive.received_size = 3 ∧
    (∀ c ∈ s.accepted, c ∈ smallCalls ∧ c.offset.toNat + c.data.length ≤ 3) ∧
    s.manager.receive.unique_received_size.toNat = ((distinctChunks s.accepted).map Prod.snd).sum ∧
    stored.1 = some (ascii "/img/u.bin") ∧ ∃ image, stored.2.2 (ascii "/img/u.bin") = some image ∧
      crc32 image = 0x55BC801D ∧ image = [1, 2, 3] := by
  intro s stored
  have hbegin : (smallManager.beginReceive zeroMac 5 3 2 0x55BC801D OtaManager.noMetadata
      smallEnvironment).1 = true := by decide +kernel
  have henv : smallEnvironment.PoolAllocated smallManager.config.max_firmware_bytes := by
    intro block hblock
    cases hblock
    decide
  have h := ota_reception_faithful memoryStorage_laws smallFolders (.constructed _ _) henv
    (Prod.ext hbegin rfl) smallCalls
  have hrun : s.accepted = smallCalls.reverse ∧ s.manager.receive.received_size = 3 ∧
      s.manager.receive.active = true ∧ stored.1 = some (ascii "/img/u.bin") ∧
      stored.2.2 (ascii "/img/u.bin") = some [1, 2, 3] := by decide +kernel
  obtain ⟨haccepted, hreceived, hactive, hpath, hfile⟩ := hrun
  have hstored : s.manager.endReceive memoryStorage smallFolders zeroMac 5 3 0x55BC801D 4 none (fun _ => none) =
      (some (ascii "/img/u.bin"), stored.2.1, stored.2.2) := Prod.ext hpath rfl
  obtain ⟨-, -, image, himage, -, hcrc, -⟩ :=
    h.2.2.2 zeroMac 5 3 0x55BC801D 4 none (fun _ => none) (ascii "/img/u.bin") stored.2.1 stored.2.2 hstored
  have hsame : image = [1, 2, 3] := Option.some.inj (himage.symm.trans hfile)
  exact ⟨haccepted, hreceived, h.1, (h.2.2.1 hactive).1, hpath, image, himage, hcrc, hsame⟩

end EspNowLink
