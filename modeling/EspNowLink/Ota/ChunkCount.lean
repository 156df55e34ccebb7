import EspNowLink.Ota.ReceiveFaithful
import Mathlib.Algebra.Order.Floor.Div
import Mathlib.Algebra.BigOperators.Group.Finset.Basic

namespace EspNowLink

open ReceiveSession Finset

/-- The chunks of a session are those of an image of `total_size` bytes cut at every `chunk_size`. -/
structure ChunksExact (r : ReceiveSession) (total_size chunk_size : UInt32) : Prop where
  count : r.chunk_count.toNat = total_size.toNat ⌈/⌉ chunk_size.toNat
  bitmap : r.chunk_count.toNat ≤ r.chunk_bitmap.length
  pos : ∀ i < r.chunk_count, 0 < r.chunkSizeAt i
  le : ∀ i < r.chunk_count, r.chunkSizeAt i ≤ chunk_size
  sum : ∑ i ∈ range r.chunk_count.toNat, (r.chunkSizeAt i.toUInt32).toNat = total_size.toNat

/-- Neither the rounded-up sum nor the rounding of the bitmap leaves 32 bits. -/
def CountFits (total_size chunk_size : UInt32) : Prop :=
  total_size.toNat + chunk_size.toNat ≤ 2 ^ 32 ∧ total_size.toNat ⌈/⌉ chunk_size.toNat + 7 < 2 ^ 32

section Sizes

variable {sender : MacAddress} {corr_id total_size chunk_size crc now_s : UInt32}

theorem toNat_pos {x : UInt32} (hx : x ≠ 0) : 0 < x.toNat := by
  rcases Nat.eq_zero_or_pos x.toNat with h | h
  · exact absurd (UInt32.toNat_inj.mp h) hx
  · exact h

/-- Without the wrap the count is rounded up. -/
theorem chunk_count_ceil (hchunk : 0 < chunk_size.toNat)
    (hfit : total_size.toNat + chunk_size.toNat ≤ 2 ^ 32) :
    ((total_size + chunk_size - 1) / chunk_size).toNat = total_size.toNat ⌈/⌉ chunk_size.toNat := by
  rw [chunk_count_eq hchunk, Nat.ceilDiv_eq_add_pred_div, Nat.mod_eq_of_lt (by omega)]

/-- A sum that wraps loses a chunk or more. -/
theorem chunk_count_wrapped (hchunk : 0 < chunk_size.toNat)
    (hwrap : 2 ^ 32 < total_size.toNat + chunk_size.toNat) :
    ((total_size + chunk_size - 1) / chunk_size).toNat < total_size.toNat ⌈/⌉ chunk_size.toNat := by
  have ht := total_size.toNat_lt
  have hc := chunk_size.toNat_lt
  have hrest : (total_size.toNat + chunk_size.toNat - 1) % 2 ^ 32
      = total_size.toNat + chunk_size.toNat - 1 - 2 ^ 32 := by omega
  rw [chunk_count_eq hchunk, Nat.ceilDiv_eq_add_pred_div, hrest]
  have hstep : total_size.toNat + chunk_size.toNat - 1 - 2 ^ 32 + chunk_size.toNat
      ≤ total_size.toNat + chunk_size.toNat - 1 := by omega
  have hdiv := Nat.div_le_div_right (c := chunk_size.toNat) hstep
  rw [Nat.add_div_right _ hchunk] at hdiv
  exact hdiv

/-- The sizes of a session whose parts fit together. -/
theorem Shaped.sizes {r : ReceiveSession} (hr : r.Shaped) {i : UInt32} (hi : i < r.chunk_count) :
    0 < r.chunkSizeAt i ∧ r.chunkSizeAt i ≤ r.chunk_size := by
  obtain ⟨hsize, hpos⟩ := hr.chunkSizeAt_toNat (UInt32.lt_iff_toNat_lt.mp hi)
  have hb := hr.boundary_lt (UInt32.lt_iff_toNat_lt.mp hi)
  have hnext : r.boundary (i.toNat + 1) ≤ (i.toNat + 1) * r.chunk_size.toNat := Nat.min_le_left _ _
  rw [Nat.succ_mul] at hnext
  refine ⟨UInt32.lt_iff_toNat_lt.mpr hpos, UInt32.le_iff_toNat_le.mpr ?_⟩
  omega

/-- The sizes add up to the image. -/
theorem Shaped.sum_sizes {r : ReceiveSession} (hr : r.Shaped) (hcount : 0 < r.chunk_count.toNat) :
    ∑ i ∈ range r.chunk_count.toNat, (r.chunkSizeAt i.toUInt32).toNat = r.expected_size.toNat := by
  have hmono : Monotone r.boundary := fun _ _ h => r.boundary_mono h
  have hsteps : ∀ i ∈ range r.chunk_count.toNat,
      (r.chunkSizeAt i.toUInt32).toNat = r.boundary (i + 1) - r.boundary i := by
    intro i hi
    have hlt := mem_range.mp hi
    have hi' : i.toUInt32.toNat = i := by
      have := r.chunk_count.toNat_lt
      rw [Nat.toUInt32_eq, UInt32.toNat_ofNat']
      exact Nat.mod_eq_of_lt (by omega)
    have h := (hr.chunkSizeAt_toNat (i := i.toUInt32) (by omega)).1
    rwa [hi'] at h
  rw [sum_congr rfl hsteps, sum_range_tsub hmono, hr.boundary_count hcount]
  simp [boundary]

end Sizes

/-- A session just opened counts its chunks exactly when the sums fit. -/
theorem freshSession_exact_iff {sender : MacAddress} {corr_id total_size chunk_size crc now_s : UInt32}
    (htotal : total_size ≠ 0) (hchunk : chunk_size ≠ 0) :
    ChunksExact (OtaManager.freshSession sender corr_id total_size chunk_size crc now_s) total_size
        chunk_size ↔ CountFits total_size chunk_size := by
  have hpos := toNat_pos hchunk
  have hceil : 0 < total_size.toNat ⌈/⌉ chunk_size.toNat := by
    rw [Nat.ceilDiv_eq_add_pred_div]
    have := toNat_pos htotal
    exact Nat.div_pos (by omega) hpos
  constructor
  · intro h
    have hcount : ((total_size + chunk_size - 1) / chunk_size).toNat
        = total_size.toNat ⌈/⌉ chunk_size.toNat := h.count
    have hfit : total_size.toNat + chunk_size.toNat ≤ 2 ^ 32 := by
      rcases Nat.lt_or_ge (2 ^ 32) (total_size.toNat + chunk_size.toNat) with hwrap | hfit
      · have := chunk_count_wrapped hpos hwrap
        omega
      · exact hfit
    refine ⟨hfit, ?_⟩
    have hbits : ((total_size + chunk_size - 1) / chunk_size).toNat ≤
        8 * (((total_size + chunk_size - 1) / chunk_size + 7) / 8).toNat := by
      have hlen := h.bitmap
      simpa [OtaManager.freshSession] using hlen
    -- a count in the last eight values wraps to an empty bitmap
    generalize (total_size + chunk_size - 1) / chunk_size = count at hcount hbits
    have hlt := count.toNat_lt
    rw [UInt32.toNat_div, UInt32.toNat_add, show (7 : UInt32).toNat = 7 by decide,
      show (8 : UInt32).toNat = 8 by decide] at hbits
    omega
  · rintro ⟨hfit, hbits⟩
    have hcount := chunk_count_ceil hpos hfit
    have hsound : (OtaManager.freshSession sender corr_id total_size chunk_size crc now_s).Sound :=
      freshSession_sound_of_count htotal hpos (by rw [hcount]; exact hbits)
    exact {
      count := hcount
      bitmap := hsound.bitmap
      pos := fun i hi => (Shaped.sizes hsound.toShaped hi).1
      le := fun i hi => (Shaped.sizes hsound.toShaped hi).2
      sum := Shaped.sum_sizes hsound.toShaped (hcount.symm ▸ hceil) }

theorem beginReceive_chunk_size {m m' : OtaManager} {sender : MacAddress}
    {corr_id total_size chunk_size crc : UInt32} {metadata : FirmwareImageMetadata}
    {env : BeginEnvironment}
    (h : m.beginReceive sender corr_id total_size chunk_size crc metadata env = (true, m')) :
    chunk_size ≠ 0 := by
  intro hzero
  unfold OtaManager.beginReceive at h
  simp [hzero] at h

/-- The chunks of an accepted begin are counted exactly when neither sum wraps. -/
theorem chunk_count_exact_iff {m m' : OtaManager} {sender : MacAddress}
    {corr_id total_size chunk_size crc : UInt32} {metadata : FirmwareImageMetadata}
    {env : BeginEnvironment}
    (h : m.beginReceive sender corr_id total_size chunk_size crc metadata env = (true, m')) :
    ChunksExact m'.receive total_size chunk_size ↔ CountFits total_size chunk_size := by
  rcases m.beginReceive_cases sender corr_id total_size chunk_size crc metadata env h with
    ⟨hfalse, -⟩ | ⟨-, htotal, -, hreceive⟩
  · cases hfalse
  · rw [hreceive]
    exact freshSession_exact_iff htotal (beginReceive_chunk_size h)

/-- Three bytes in chunks of two. -/
theorem chunk_count_exact_small :
    ChunksExact (smallManager.beginReceive zeroMac 5 3 2 0 OtaManager.noMetadata
      smallEnvironment).2.receive 3 2 := by
  have hbegin : (smallManager.beginReceive zeroMac 5 3 2 0 OtaManager.noMetadata
      smallEnvironment).1 = true := by decide +kernel
  exact (chunk_count_exact_iff (Prod.ext hbegin rfl)).mpr ⟨by decide, by decide +kernel⟩

/-- Two bytes in one chunk of the largest size are accepted with no chunk at all. -/
theorem chunk_count_lost :
    let begun := smallManager.beginReceive zeroMac 5 2 0xFFFFFFFF 0 OtaManager.noMetadata smallEnvironment
    begun.1 = true ∧ begun.2.receive.chunk_count = 0 ∧
      ¬ ChunksExact begun.2.receive 2 0xFFFFFFFF := by
  intro begun
  have hcount : begun.2.receive.chunk_count = 0 := by decide +kernel
  refine ⟨by decide +kernel, hcount, fun h => ?_⟩
  have hceil := h.count
  rw [hcount] at hceil
  exact absurd hceil (by decide +kernel)

end EspNowLink
