import EspNowLink.Ota.Receive
import EspNowLink.Framework.ContiguousPrefix
import Mathlib.Tactic.Set

open Framework

namespace EspNowLink
namespace ReceiveSession

/-- Bit `i` of the chunk bitmap. -/
def got (r : ReceiveSession) (i : Nat) : Bool := r.chunk_bitmap.getD i false

/-- Where chunk `i` starts; the image's size when there is no chunk `i`. -/
def boundary (r : ReceiveSession) (i : Nat) : Nat := min (i * r.chunk_size.toNat) r.expected_size.toNat

/-- The sizes of a session that `beginReceive` opened fit together. -/
structure Shaped (r : ReceiveSession) : Prop where
  chunk_pos : 0 < r.chunk_size.toNat
  size_pos : 0 < r.expected_size.toNat
  count : r.chunk_count.toNat = 0 ∨
    (r.chunk_count.toNat - 1) * r.chunk_size.toNat < r.expected_size.toNat ∧
      r.expected_size.toNat ≤ r.chunk_count.toNat * r.chunk_size.toNat
  bitmap : r.chunk_count.toNat ≤ r.chunk_bitmap.length

/-- What `beginReceive` sets up and every accepted chunk keeps: `received_size` is where the run of
received chunks from the first one ends. -/
structure Sound (r : ReceiveSession) : Prop extends Shaped r where
  received : r.received_size.toNat = r.boundary (runEnd r.got r.chunk_count.toNat 0)

theorem isChunkReceived_eq (r : ReceiveSession) (i : UInt32) :
    r.isChunkReceived i = (decide (i.toNat < r.chunk_count.toNat) && r.got i.toNat) := by
  unfold isChunkReceived got
  by_cases h : i ≥ r.chunk_count
  · have : ¬ i.toNat < r.chunk_count.toNat := by
      rw [ge_iff_le, UInt32.le_iff_toNat_le] at h
      omega
    simp [h, this]
  · have : i.toNat < r.chunk_count.toNat := by
      rw [ge_iff_le, UInt32.le_iff_toNat_le] at h
      omega
    simp [h, this]

namespace Shaped

variable {r : ReceiveSession}

theorem boundary_lt (hr : r.Shaped) {i : Nat} (hi : i < r.chunk_count.toNat) :
    r.boundary i = i * r.chunk_size.toNat ∧ i * r.chunk_size.toNat < r.expected_size.toNat := by
  rcases hr.count with h | ⟨h, -⟩
  · omega
  · have hle : i * r.chunk_size.toNat ≤ (r.chunk_count.toNat - 1) * r.chunk_size.toNat :=
      Nat.mul_le_mul_right _ (by omega)
    have hlt : i * r.chunk_size.toNat < r.expected_size.toNat := by omega
    exact ⟨by unfold boundary; omega, hlt⟩

theorem boundary_count (hr : r.Shaped) (hpos : 0 < r.chunk_count.toNat) :
    r.boundary r.chunk_count.toNat = r.expected_size.toNat := by
  rcases hr.count with h | ⟨-, h⟩
  · omega
  · unfold boundary
    omega

theorem chunkSizeAt_toNat (hr : r.Shaped) {i : UInt32} (hi : i.toNat < r.chunk_count.toNat) :
    (r.chunkSizeAt i).toNat = r.boundary (i.toNat + 1) - r.boundary i.toNat ∧
      0 < (r.chunkSizeAt i).toNat := by
  have hge : ¬ i ≥ r.chunk_count := by
    rw [ge_iff_le, UInt32.le_iff_toNat_le]
    omega
  have hc : r.chunk_size ≠ 0 := by
    intro h
    have := hr.chunk_pos
    rw [h] at this
    simp at this
  have hb := hr.boundary_lt hi
  have hsucc : (i + 1).toNat = i.toNat + 1 := by
    have := r.chunk_count.toNat_lt
    rw [UInt32.toNat_add]
    simp
    omega
  have hmul : (i.toNat + 1) * r.chunk_size.toNat
      = i.toNat * r.chunk_size.toNat + r.chunk_size.toNat :=
    Nat.succ_mul _ _
  unfold chunkSizeAt
  rw [if_neg (by simp [hge, hc])]
  split
  · rename_i hlt
    rw [UInt32.lt_iff_toNat_lt, hsucc] at hlt
    have hb' := hr.boundary_lt hlt
    refine ⟨?_, hr.chunk_pos⟩
    omega
  · rename_i hlt
    rw [UInt32.lt_iff_toNat_lt, hsucc] at hlt
    have hlast : i.toNat + 1 = r.chunk_count.toNat := by omega
    have hprod : (i * r.chunk_size).toNat = i.toNat * r.chunk_size.toNat := by
      have := r.expected_size.toNat_lt
      rw [UInt32.toNat_mul]
      exact Nat.mod_eq_of_lt (by omega)
    have hsub : (r.expected_size - i * r.chunk_size).toNat
        = r.expected_size.toNat - i.toNat * r.chunk_size.toNat := by
      rw [UInt32.toNat_sub_of_le _ _ (by rw [UInt32.le_iff_toNat_le]; omega), hprod]
    rw [hsub, hlast, hr.boundary_count (by omega)]
    omega

/-- The scan of the source follows the run of received chunks. -/
theorem contiguousFrom_toNat (hr : r.Shaped) {n i : Nat} {x : UInt32} (hx : x.toNat = r.boundary i)
    (hi : i ≤ r.chunk_count.toNat) (hn : r.chunk_count.toNat - i < n) :
    (r.contiguousFrom n x).toNat = r.boundary (runEnd r.got r.chunk_count.toNat i) := by
  induction n generalizing i x with
  | zero => omega
  | succ n ih =>
    unfold contiguousFrom
    by_cases hlast : i = r.chunk_count.toNat
    · have hstop : runEnd r.got r.chunk_count.toNat i = i := runEnd_stop (by omega)
      rw [hstop]
      by_cases hx0 : r.chunk_count.toNat = 0
      · have hnone : r.isChunkReceived (x / r.chunk_size) = false := by
          rw [isChunkReceived_eq]
          simp [hx0]
        simp [hnone, hx]
      · have hge : ¬ x < r.expected_size := by
          have := hr.boundary_count (by omega)
          rw [UInt32.lt_iff_toNat_lt, hx, hlast]
          omega
        rw [if_neg hge, hx]
    · have hlt : i < r.chunk_count.toNat := by omega
      obtain ⟨hb, hsize⟩ := hr.boundary_lt hlt
      have hindex : (x / r.chunk_size).toNat = i := by
        rw [UInt32.toNat_div, hx, hb]
        exact Nat.mul_div_cancel _ hr.chunk_pos
      rw [if_pos (by rw [UInt32.lt_iff_toNat_lt]; omega)]
      have hgot : r.isChunkReceived (x / r.chunk_size) = r.got i := by
        rw [isChunkReceived_eq, hindex]
        simp [hlt]
      dsimp only
      by_cases hi' : r.got i
      · obtain ⟨hlen, hpos⟩ := hr.chunkSizeAt_toNat (i := x / r.chunk_size) (by omega)
        rw [hindex] at hlen
        have hne : ¬ r.chunkSizeAt (x / r.chunk_size) = 0 := by
          intro h
          rw [h] at hpos
          simp at hpos
        rw [hgot, if_neg (by simp [hi']), if_neg hne, runEnd_step hlt hi']
        refine ih ?_ (by omega) (by omega)
        have hbound : r.boundary (i + 1) ≤ r.expected_size.toNat := Nat.min_le_right _ _
        have := r.expected_size.toNat_lt
        rw [UInt32.toNat_add, Nat.mod_eq_of_lt (by omega)]
        omega
      · rw [hgot, if_pos (by simpa using hi'), runEnd_stop (by simp [hi'])]
        exact hx

end Shaped

/-- `r'` is `r` with chunk `i` received as well. -/
structure Receives (r r' : ReceiveSession) (i : Nat) : Prop where
  active : r'.active = r.active
  sender : r'.sender = r.sender
  corr_id : r'.corr_id = r.corr_id
  expected_size : r'.expected_size = r.expected_size
  chunk_size : r'.chunk_size = r.chunk_size
  chunk_count : r'.chunk_count = r.chunk_count
  got : ∀ k, r'.got k = (r.got k || decide (k = i))
  sound : r'.Sound

theorem markChunkReceived_got {r : ReceiveSession} (hr : r.Shaped) {i : UInt32}
    (hi : i.toNat < r.chunk_count.toNat) (k : Nat) :
    (r.markChunkReceived i).got k = (r.got k || decide (k = i.toNat)) := by
  have hge : ¬ i ≥ r.chunk_count := by
    rw [ge_iff_le, UInt32.le_iff_toNat_le]
    omega
  have hlen : i.toNat < r.chunk_bitmap.length := Nat.lt_of_lt_of_le hi hr.bitmap
  simp only [markChunkReceived, if_neg hge, got, List.getD_eq_getElem?_getD, List.getElem?_set]
  by_cases hk : i.toNat = k
  · subst hk
    simp [hlen]
  · simp [hk, Ne.symm hk]

theorem markChunkReceived_bitmap (r : ReceiveSession) (i : UInt32) :
    (r.markChunkReceived i).chunk_bitmap.length = r.chunk_bitmap.length := by
  unfold markChunkReceived
  split <;> simp

theorem Shaped.of_sizes {r q : ReceiveSession} (hr : r.Shaped)
    (hexpected : q.expected_size = r.expected_size) (hchunk : q.chunk_size = r.chunk_size)
    (hcount : q.chunk_count = r.chunk_count)
    (hbitmap : q.chunk_bitmap.length = r.chunk_bitmap.length) : q.Shaped where
  chunk_pos := by rw [hchunk]; exact hr.chunk_pos
  size_pos := by rw [hexpected]; exact hr.size_pos
  count := by rw [hchunk, hcount, hexpected]; exact hr.count
  bitmap := by rw [hcount, hbitmap]; exact hr.bitmap

theorem refreshContiguousReceived_eq {q : ReceiveSession} (hq : q.Shaped) :
    q.refreshContiguousReceived =
      { q with received_size := q.contiguousFrom (q.chunk_count.toNat + 1) q.received_size } := by
  have hne : q.chunk_size ≠ 0 := by
    intro h
    have hpos := hq.chunk_pos
    rw [h] at hpos
    simp at hpos
  unfold refreshContiguousReceived
  rw [if_neg hne]

/-- Rescanning from the old contiguous size finds the end of the run of a larger bitmap. -/
theorem refresh_sound {r q : ReceiveSession} (hr : r.Sound)
    (hexpected : q.expected_size = r.expected_size) (hchunk : q.chunk_size = r.chunk_size)
    (hcount : q.chunk_count = r.chunk_count) (hreceived : q.received_size = r.received_size)
    (hbitmap : q.chunk_bitmap.length = r.chunk_bitmap.length)
    (hgot : ∀ k, r.got k → q.got k) : q.refreshContiguousReceived.Sound := by
  have hshaped : q.Shaped := hr.toShaped.of_sizes hexpected hchunk hcount hbitmap
  have hend : runEnd r.got r.chunk_count.toNat 0 ≤ q.chunk_count.toNat := by
    rw [hcount]
    exact runEnd_le (Nat.zero_le _)
  have hcover : runEnd q.got q.chunk_count.toNat 0
      = runEnd q.got q.chunk_count.toNat (runEnd r.got r.chunk_count.toNat 0) :=
    runEnd_of_covered (Nat.zero_le _) hend
      fun k _ hk => hgot k (got_of_lt_runEnd (Nat.zero_le k) hk)
  have hstart : q.received_size.toNat = q.boundary (runEnd r.got r.chunk_count.toNat 0) := by
    rw [hreceived, hr.received]
    simp only [boundary, hexpected, hchunk]
  have hscan := hshaped.contiguousFrom_toNat (n := q.chunk_count.toNat + 1) hstart hend (by omega)
  rw [refreshContiguousReceived_eq hshaped]
  refine { toShaped := hshaped.of_sizes rfl rfl rfl rfl, received := ?_ }
  change (q.contiguousFrom _ _).toNat = _
  rw [hscan, ← hcover]
  rfl

end ReceiveSession

namespace OtaManager

open ReceiveSession

/-- A chunk that passes the checks starts at a chunk of the image and ends in it. -/
theorem chunkRefusal_none {m : OtaManager} {offset : UInt32} {data : Bytes}
    (h : m.chunkRefusal offset data = none) :
    offset % m.receive.chunk_size = 0 ∧ offset / m.receive.chunk_size < m.receive.chunk_count ∧
      data.length = (m.receive.chunkSizeAt (offset / m.receive.chunk_size)).toNat := by
  unfold chunkRefusal at h
  dsimp only at h
  repeat' split at h
  all_goals first | contradiction | skip
  rename_i halign hindex hlength
  simp only [not_or, not_not, ge_iff_le, UInt32.not_le] at halign hindex hlength
  exact ⟨halign.2, hindex, hlength⟩

theorem acceptChunk_receives {m : OtaManager} (hr : m.receive.Sound) {offset : UInt32} {data : Bytes}
    (hrefusal : m.chunkRefusal offset data = none) (now_s : UInt32) :
    m.receive.Receives (m.acceptChunk offset data now_s).receive
      (offset.toNat / m.receive.chunk_size.toNat) := by
  obtain ⟨-, hlt, -⟩ := chunkRefusal_none hrefusal
  have hindex : (offset / m.receive.chunk_size).toNat
      = offset.toNat / m.receive.chunk_size.toNat := UInt32.toNat_div _ _
  rw [UInt32.lt_iff_toNat_lt] at hlt
  rw [← hindex]
  unfold acceptChunk
  dsimp only
  generalize hi : offset / m.receive.chunk_size = i at *
  set marked := if m.receive.isChunkReceived i then m.receive else
    { m.receive.markChunkReceived i with
      unique_received_size := m.receive.unique_received_size + data.length.toUInt32 } with hmarked
  have hsame : marked.active = m.receive.active ∧ marked.sender = m.receive.sender ∧
      marked.corr_id = m.receive.corr_id ∧ marked.expected_size = m.receive.expected_size ∧
      marked.chunk_size = m.receive.chunk_size ∧ marked.chunk_count = m.receive.chunk_count ∧
      marked.received_size = m.receive.received_size ∧
      marked.chunk_bitmap.length = m.receive.chunk_bitmap.length := by
    rw [hmarked]
    split
    · simp
    · refine ⟨?_, ?_, ?_, ?_, ?_, ?_, ?_, markChunkReceived_bitmap _ _⟩ <;>
        (simp only [markChunkReceived]; split <;> rfl)
  have hgot : ∀ k, marked.got k = (m.receive.got k || decide (k = i.toNat)) := by
    intro k
    rw [hmarked]
    split
    · rename_i hhave
      rw [isChunkReceived_eq] at hhave
      by_cases hk : k = i.toNat
      · subst hk
        simp_all
      · simp [hk]
    · exact markChunkReceived_got hr.toShaped hlt k
  obtain ⟨hactive, hsender, hcorr, hexpected, hchunk, hcount, hreceived, hbitmap⟩ := hsame
  have hsound : marked.refreshContiguousReceived.Sound :=
    refresh_sound hr hexpected hchunk hcount hreceived hbitmap fun k hk => by simp [hgot, hk]
  have heq := refreshContiguousReceived_eq (hr.toShaped.of_sizes hexpected hchunk hcount hbitmap)
  rw [heq] at hsound ⊢
  exact
    { active := hactive, sender := hsender, corr_id := hcorr, expected_size := hexpected
      chunk_size := hchunk, chunk_count := hcount, got := hgot
      sound :=
        { toShaped := hsound.toShaped.of_sizes rfl rfl rfl rfl, received := hsound.received } }

end OtaManager

namespace ReceiveSession

theorem boundary_mono (r : ReceiveSession) {i j : Nat} (h : i ≤ j) : r.boundary i ≤ r.boundary j := by
  have := Nat.mul_le_mul_right r.chunk_size.toNat h
  unfold boundary
  omega

theorem Receives.received_le {r r' : ReceiveSession} {i : Nat} (h : r.Receives r' i) (hr : r.Sound) :
    r.received_size ≤ r'.received_size := by
  have hb : r'.boundary = r.boundary := by
    funext k
    simp only [boundary, h.expected_size, h.chunk_size]
  have hgot : ∀ k, r.got k → r'.got k := fun k hk => by simp [h.got k, hk]
  have hrun := runEnd_mono hgot (Nat.zero_le r.chunk_count.toNat)
  rw [UInt32.le_iff_toNat_le, hr.received, h.sound.received, hb, h.chunk_count]
  exact boundary_mono r hrun

theorem chunk_count_eq {total_size chunk_size : UInt32} (hchunk : 0 < chunk_size.toNat) :
    ((total_size + chunk_size - 1) / chunk_size).toNat
      = (total_size.toNat + chunk_size.toNat - 1) % 2 ^ 32 / chunk_size.toNat := by
  have ht := total_size.toNat_lt
  have hc := chunk_size.toNat_lt
  have hsum : (total_size + chunk_size - 1).toNat
      = (total_size.toNat + chunk_size.toNat - 1) % 2 ^ 32 := by
    rw [UInt32.toNat_sub, UInt32.toNat_add]
    simp
    omega
  rw [UInt32.toNat_div, hsum]

/-- A session just opened has received nothing. -/
theorem freshSession_sound_of_count {sender : MacAddress}
    {corr_id total_size chunk_size crc now_s : UInt32} (htotal : total_size ≠ 0)
    (hchunk : 0 < chunk_size.toNat)
    (hlimit : ((total_size + chunk_size - 1) / chunk_size).toNat + 7 < 2 ^ 32) :
    (OtaManager.freshSession sender corr_id total_size chunk_size crc now_s).Sound := by
  have hpos : 0 < total_size.toNat := by
    rcases Nat.eq_zero_or_pos total_size.toNat with h | h
    · exact absurd (UInt32.toNat_inj.mp h) htotal
    · exact h
  have ht := total_size.toNat_lt
  have hc := chunk_size.toNat_lt
  have hcount := @chunk_count_eq total_size chunk_size hchunk
  have hbitmap : (((total_size + chunk_size - 1) / chunk_size + 7) / 8).toNat
      = (((total_size + chunk_size - 1) / chunk_size).toNat + 7) / 8 := by
    generalize (total_size + chunk_size - 1) / chunk_size = count at hlimit
    rw [UInt32.toNat_div, UInt32.toNat_add]
    simp
    omega
  have hgot : ∀ n k, (List.replicate n false).getD k false = false := by
    intro n k
    by_cases hk : k < n <;> simp [List.getD_eq_getElem?_getD, hk]
  refine { chunk_pos := ?_, size_pos := hpos, count := ?_, bitmap := ?_, received := ?_ }
  · exact hchunk
  · change ((total_size + chunk_size - 1) / chunk_size).toNat = 0 ∨ _
    rcases Nat.lt_or_ge (total_size.toNat + chunk_size.toNat - 1) (2 ^ 32) with hfit | hwrap
    · right
      change (((total_size + chunk_size - 1) / chunk_size).toNat - 1) * chunk_size.toNat < _ ∧
        _ ≤ ((total_size + chunk_size - 1) / chunk_size).toNat * chunk_size.toNat
      rw [hcount, Nat.mod_eq_of_lt hfit]
      have hdiv := Nat.div_add_mod (total_size.toNat + chunk_size.toNat - 1) chunk_size.toNat
      have hmod := Nat.mod_lt (total_size.toNat + chunk_size.toNat - 1) hchunk
      generalize (total_size.toNat + chunk_size.toNat - 1) / chunk_size.toNat = q at *
      have hq : chunk_size.toNat * q = q * chunk_size.toNat := Nat.mul_comm _ _
      have hpred : (q - 1) * chunk_size.toNat = q * chunk_size.toNat - chunk_size.toNat := by
        rw [Nat.sub_mul, Nat.one_mul]
      change (q - 1) * chunk_size.toNat < total_size.toNat ∧
        total_size.toNat ≤ q * chunk_size.toNat
      omega
    · left
      rw [hcount]
      apply Nat.div_eq_of_lt
      omega
  · change ((total_size + chunk_size - 1) / chunk_size).toNat ≤ (List.replicate _ false).length
    rw [List.length_replicate, hbitmap]
    omega
  · have hempty : (OtaManager.freshSession sender corr_id total_size chunk_size crc now_s).got
        = fun _ => false := by
      funext k
      exact hgot _ _
    rw [hempty, runEnd_stop (by simp)]
    simp [OtaManager.freshSession, idle, boundary]

theorem freshSession_sound {sender : MacAddress} {corr_id total_size chunk_size crc now_s : UInt32}
    (htotal : total_size ≠ 0) (hchunk : 32 ≤ chunk_size.toNat) :
    (OtaManager.freshSession sender corr_id total_size chunk_size crc now_s).Sound := by
  refine freshSession_sound_of_count htotal (by omega) ?_
  have hlimit : ((total_size + chunk_size - 1) / chunk_size).toNat ≤ 2 ^ 32 / 32 := by
    rw [chunk_count_eq (by omega)]
    exact Nat.div_le_div (Nat.le_of_lt (Nat.mod_lt _ (by omega))) hchunk (by omega)
  omega

end ReceiveSession

namespace OtaManager

/-- A stale session is dropped, any other stays as it is. -/
theorem expireReceiveIfStale_cases (m : OtaManager) (now_s : UInt32) :
    m.expireReceiveIfStale now_s = m ∨ (m.expireReceiveIfStale now_s).receive.active = false := by
  unfold expireReceiveIfStale
  dsimp only
  repeat' split
  all_goals first | exact .inl rfl | exact .inr rfl

/-- `beginReceive` opens the session it is asked for, or leaves the old one, or drops it. -/
theorem beginReceive_cases (m : OtaManager) (sender : MacAddress)
    (corr_id total_size chunk_size crc : UInt32) (metadata : FirmwareImageMetadata)
    (env : BeginEnvironment) {ok : Bool} {m' : OtaManager}
    (h : m.beginReceive sender corr_id total_size chunk_size crc metadata env = (ok, m')) :
    (ok = false ∧ (m'.receive = m.receive ∨ m'.receive.active = false)) ∨
    (ok = true ∧ total_size ≠ 0 ∧ m'.hasRoom total_size = true ∧
      m'.receive = freshSession sender corr_id total_size chunk_size crc env.now_epoch_s) := by
  have hexpire : (m.expireReceiveIfStale env.now_epoch_s).receive = m.receive ∨
      (m.expireReceiveIfStale env.now_epoch_s).receive.active = false := by
    rcases m.expireReceiveIfStale_cases env.now_epoch_s with he | he
    · exact .inl (by rw [he])
    · exact .inr he
  unfold beginReceive at h
  dsimp only at h
  generalize m.expireReceiveIfStale env.now_epoch_s = q at h hexpire
  have hfail : ∀ {code text}, (false, q.fail code text) = (ok, m') →
      ok = false ∧ (m'.receive = m.receive ∨ m'.receive.active = false) := by
    intro code text he
    cases he
    exact ⟨rfl, hexpire⟩
  split at h
  · exact .inl (hfail h)
  rename_i hsizes
  simp only [not_or] at hsizes
  split at h
  · exact .inl (hfail h)
  split at h
  · exact .inl (hfail h)
  split at h
  · exact .inl (hfail h)
  have hpr : (q.ensurePsramPool env.pool).2.receive = q.receive := by
    unfold ensurePsramPool
    repeat' split
    all_goals rfl
  generalize q.ensurePsramPool env.pool = ready at h hpr
  obtain ⟨ready, p⟩ := ready
  dsimp only at h hpr
  have hkept : p.receive = m.receive ∨ p.receive.active = false := by
    rw [hpr]
    exact hexpire
  split at h
  · cases h
    exact .inl ⟨rfl, hkept⟩
  split at h
  · cases h
    exact .inl ⟨rfl, hkept⟩
  rename_i hroom
  unfold openSession at h
  dsimp only at h
  split at h
  · cases h
    exact .inl ⟨rfl, .inr rfl⟩
  · cases h
    refine .inr ⟨rfl, hsizes.1, ?_, rfl⟩
    have hpool : ∀ s, (if p.receive.active then p.abortReceive p.receive.sender p.receive.corr_id
        else p).hasRoom s = p.hasRoom s := by
      intro s
      split
      · unfold abortReceive
        split <;> rfl
      · rfl
    exact (hpool total_size).trans (by simpa using hroom)

/-- `writeReceiveChunk` on a session that is not stale: it is refused and the session stays, or it
is accepted. -/
theorem writeReceiveChunk_live {m : OtaManager} {now_s : UInt32}
    (hlive : m.expireReceiveIfStale now_s = m) (sender : MacAddress) (corr_id offset : UInt32)
    (data : Bytes) :
    m.writeReceiveChunk sender corr_id offset data now_s =
      if !m.validateSession sender corr_id then (false, m)
      else match m.chunkRefusal offset data with
        | some (code, message) => (false, m.fail code message)
        | none => (true, m.acceptChunk offset data now_s) := by
  unfold writeReceiveChunk
  generalize m.expireReceiveIfStale now_s = live at hlive ⊢
  subst hlive
  rfl

theorem acceptChunk_room (m : OtaManager) (offset : UInt32) (data : Bytes) (now_s size : UInt32) :
    (m.acceptChunk offset data now_s).hasRoom size = m.hasRoom size := by
  simp [acceptChunk, hasRoom]

/-- Every whole chunk of the image is accepted. -/
theorem chunkRefusal_whole {m : OtaManager} (hr : m.receive.Sound)
    (hroom : m.hasRoom m.receive.expected_size = true) {offset : UInt32} {data : Bytes}
    {i : Nat} (hi : i < m.receive.chunk_count.toNat) (hoffset : offset.toNat = m.receive.boundary i)
    (hdata : data.length = m.receive.boundary (i + 1) - m.receive.boundary i) :
    m.chunkRefusal offset data = none := by
  obtain ⟨hb, hsize⟩ := hr.toShaped.boundary_lt hi
  have hindex : (offset / m.receive.chunk_size).toNat = i := by
    rw [UInt32.toNat_div, hoffset, hb]
    exact Nat.mul_div_cancel _ hr.chunk_pos
  obtain ⟨hlen, hpos⟩ := hr.toShaped.chunkSizeAt_toNat (i := offset / m.receive.chunk_size)
    (by omega)
  rw [hindex, ← hdata] at hlen
  have hnext : m.receive.boundary (i + 1) ≤ m.receive.expected_size.toNat := Nat.min_le_right _ _
  have hlt := m.receive.expected_size.toNat_lt
  have hne : m.receive.chunk_size ≠ 0 := by
    intro h
    have := hr.chunk_pos
    rw [h] at this
    simp at this
  have hmod : offset % m.receive.chunk_size = 0 := by
    apply UInt32.toNat_inj.mp
    rw [UInt32.toNat_mod, hoffset, hb]
    simp
  have hend : ¬ offset + data.length.toUInt32 > m.receive.expected_size := by
    rw [gt_iff_lt, UInt32.lt_iff_toNat_lt, UInt32.toNat_add]
    have hd : data.length.toUInt32.toNat = data.length := by
      rw [Nat.toUInt32_eq, UInt32.toNat_ofNat']
      exact Nat.mod_eq_of_lt (by omega)
    rw [hd, Nat.mod_eq_of_lt (by omega)]
    omega
  unfold chunkRefusal
  dsimp only
  rw [if_neg (by rw [List.isEmpty_iff_length_eq_zero]; omega),
    if_neg (by simp [hroom]),
    if_neg (by rw [ge_iff_le, UInt32.le_iff_toNat_le]; omega), if_neg hend,
    if_neg (by simp [hne, hmod]), if_neg (by rw [ge_iff_le, UInt32.le_iff_toNat_le]; omega),
    if_neg (by omega)]

end OtaManager
end EspNowLink
