import EspNowLink.Core.ProtocolCodec

namespace EspNowLink
namespace ProtocolCodec

section Division

theorem top_bit (x : UInt16) :
    (x &&& 0x8000 = 0 ∧ x.toNat < 2 ^ 15) ∨ (x &&& 0x8000 = 0x8000 ∧ 2 ^ 15 ≤ x.toNat) := by
  have hlt := x.toNat_lt
  have hbit : x.toNat.testBit 15 = decide (x.toNat / 2 ^ 15 % 2 = 1) := Nat.testBit_eq_decide_div_mod_eq
  have hand (i : Nat) : (x.toNat &&& 2 ^ 15).testBit i = (x.toNat.testBit i && decide (15 = i)) := by
    rw [Nat.testBit_and, Nat.testBit_two_pow]
  cases htop : x.toNat.testBit 15 with
  | false =>
    left
    constructor
    · apply UInt16.toNat_inj.mp
      rw [UInt16.toNat_and]
      apply Nat.eq_of_testBit_eq
      intro i
      refine (hand i).trans ?_
      by_cases hi : 15 = i
      · rw [← hi, htop]
        rfl
      · simp [hi]
    · rw [htop] at hbit
      have := of_decide_eq_false hbit.symm
      omega
  | true =>
    right
    constructor
    · apply UInt16.toNat_inj.mp
      rw [UInt16.toNat_and]
      apply Nat.eq_of_testBit_eq
      intro i
      refine (hand i).trans ?_
      rw [show (0x8000 : UInt16).toNat = 2 ^ 15 by rfl, Nat.testBit_two_pow]
      by_cases hi : 15 = i
      · rw [← hi, htop]
        rfl
      · simp [hi]
    · rw [htop] at hbit
      have := of_decide_eq_true hbit.symm
      omega

/-- A step of the division is linear. -/
theorem crcBit_xor (x y : UInt16) : crcBit (x ^^^ y) = crcBit x ^^^ crcBit y := by
  have hand : (x ^^^ y) &&& 0x8000 = (x &&& 0x8000) ^^^ (y &&& 0x8000) := by
    apply UInt16.toNat_inj.mp
    simp only [UInt16.toNat_and, UInt16.toNat_xor]
    exact Nat.and_xor_distrib_right
  unfold crcBit
  rw [hand, UInt16.shiftLeft_xor]
  obtain ⟨hx, -⟩ | ⟨hx, -⟩ := top_bit x <;> obtain ⟨hy, -⟩ | ⟨hy, -⟩ := top_bit y <;> rw [hx, hy]
  · rfl
  · rw [if_pos (by decide), if_neg (by decide), if_pos (by decide), UInt16.xor_assoc]
  · rw [if_pos (by decide), if_pos (by decide), if_neg (by decide), UInt16.xor_assoc, UInt16.xor_assoc,
      UInt16.xor_comm (y <<< 1)]
  · rw [if_neg (by decide), if_pos (by decide), if_pos (by decide)]
    have hswap : (y <<< 1) ^^^ (0x1021 : UInt16) = (0x1021 : UInt16) ^^^ (y <<< 1) := UInt16.xor_comm _ _
    rw [hswap, UInt16.xor_assoc, ← UInt16.xor_assoc 0x1021, UInt16.xor_self, UInt16.zero_xor]

/-- A step of the division loses nothing. -/
theorem eq_zero_of_crcBit {x : UInt16} (h : crcBit x = 0) : x = 0 := by
  have hshift : (x <<< 1).toNat = x.toNat * 2 % 2 ^ 16 := by
    rw [UInt16.toNat_shiftLeft, show (1 : UInt16).toNat % 16 = 1 by rfl, Nat.shiftLeft_eq, pow_one]
  apply UInt16.toNat_inj.mp
  rw [UInt16.toNat_zero]
  obtain ⟨htop, hsmall⟩ | ⟨htop, hlarge⟩ := top_bit x
  · rw [crcBit, htop, if_neg (by decide)] at h
    rw [h, UInt16.toNat_zero] at hshift
    omega
  · -- the polynomial has a last term, the shifted value has none
    rw [crcBit, htop, if_pos (by decide)] at h
    rw [UInt16.xor_eq_zero_iff.mp h, show (0x1021 : UInt16).toNat = 0x1021 by rfl] at hshift
    omega

theorem crcBits_xor (n : Nat) (x y : UInt16) :
    Nat.iterate crcBit n (x ^^^ y) = Nat.iterate crcBit n x ^^^ Nat.iterate crcBit n y := by
  induction n generalizing x y with
  | zero => rfl
  | succ n ih => rw [Function.iterate_succ_apply, crcBit_xor, ih]; rfl

theorem eq_zero_of_crcBits {n : Nat} {x : UInt16} (h : Nat.iterate crcBit n x = 0) : x = 0 := by
  induction n with
  | zero => exact h
  | succ n ih =>
    rw [Function.iterate_succ_apply'] at h
    exact ih (eq_zero_of_crcBit h)

theorem crcByte_xor (c d : UInt16) (b e : UInt8) :
    crcByte (c ^^^ d) (b ^^^ e) = crcByte c b ^^^ crcByte d e := by
  unfold crcByte
  rw [← crcBits_xor, UInt8.toUInt16_xor, UInt16.shiftLeft_xor]
  congr 1
  rw [UInt16.xor_assoc, UInt16.xor_assoc, ← UInt16.xor_assoc d, UInt16.xor_comm d, UInt16.xor_assoc]

theorem eq_of_crcByte {c : UInt16} {b : UInt8} (h : crcByte c b = 0) : c = b.toUInt16 <<< 8 :=
  UInt16.xor_eq_zero_iff.mp (eq_zero_of_crcBits h)

theorem crcByte_inj {c d : UInt16} {b : UInt8} (h : crcByte c b = crcByte d b) : c = d := by
  have hdiff : crcByte (c ^^^ d) 0 = 0 := by
    have hxor := crcByte_xor c d b b
    rw [UInt8.xor_self, h, UInt16.xor_self] at hxor
    exact hxor
  exact UInt16.xor_eq_zero_iff.mp ((eq_of_crcByte hdiff).trans (by decide))

/-- Remainders that differ still differ after any bytes. -/
theorem foldl_crcByte_inj {data : Bytes} {c d : UInt16}
    (h : data.foldl crcByte c = data.foldl crcByte d) : c = d := by
  induction data generalizing c d with
  | nil => exact h
  | cons b data ih => exact crcByte_inj (ih h)

end Division

section Bursts

theorem byte_cases {P : UInt8 → Prop} (h : ∀ n < 256, P (UInt8.ofNat n)) (e : UInt8) : P e := by
  have := h e.toNat e.toNat_lt
  rwa [UInt8.ofNat_toNat] at this

/-- What the remainder of each byte and the byte in the upper half say of it. -/
theorem byte_remainders : ∀ n < 256,
    ((crcByte 0 (UInt8.ofNat n)).toUInt8 = 0 → UInt8.ofNat n = 0) ∧
    ((UInt8.ofNat n).toUInt16 <<< 8 = 0 → UInt8.ofNat n = 0) ∧
    ((UInt8.ofNat n).toUInt16 <<< 8).toUInt8 = 0 ∧
    ((crcByte 0 (UInt8.ofNat n) >>> 8).toUInt8 = 0 →
      (UInt8.ofNat n = 0 ∧ (crcByte 0 (UInt8.ofNat n)).toUInt8 = 0) ∨
        (UInt8.ofNat n = 0x89 ∧ (crcByte 0 (UInt8.ofNat n)).toUInt8 = 0xA1)) := by
  decide +kernel

/-- A byte whose remainder ends in a zero byte is zero. -/
theorem eq_zero_of_low (e : UInt8) : (crcByte 0 e).toUInt8 = 0 → e = 0 :=
  byte_cases (P := fun e => (crcByte 0 e).toUInt8 = 0 → e = 0) (fun n hn => (byte_remainders n hn).1) e

theorem eq_zero_of_shift (e : UInt8) : e.toUInt16 <<< 8 = 0 → e = 0 :=
  byte_cases (P := fun e => e.toUInt16 <<< 8 = 0 → e = 0) (fun n hn => (byte_remainders n hn).2.1) e

theorem shift_low (e : UInt8) : (e.toUInt16 <<< 8).toUInt8 = 0 :=
  byte_cases (P := fun e => (e.toUInt16 <<< 8).toUInt8 = 0) (fun n hn => (byte_remainders n hn).2.2.1) e

/-- One byte other than zero has a remainder that starts in a zero byte. -/
theorem high_cases (e : UInt8) : (crcByte 0 e >>> 8).toUInt8 = 0 →
    (e = 0 ∧ (crcByte 0 e).toUInt8 = 0) ∨ (e = 0x89 ∧ (crcByte 0 e).toUInt8 = 0xA1) :=
  byte_cases (P := fun e => (crcByte 0 e >>> 8).toUInt8 = 0 →
    (e = 0 ∧ (crcByte 0 e).toUInt8 = 0) ∨ (e = 0x89 ∧ (crcByte 0 e).toUInt8 = 0xA1))
    (fun n hn => (byte_remainders n hn).2.2.2) e

/-- Two bytes in a row are known by the remainder after them. -/
theorem crcByte_pair_inj {c : UInt16} {a b a' b' : UInt8}
    (h : crcByte (crcByte c a) b = crcByte (crcByte c a') b') : a = a' ∧ b = b' := by
  have hdiff : crcByte (crcByte 0 (a ^^^ a')) (b ^^^ b') = 0 := by
    have hfirst : crcByte c a ^^^ crcByte c a' = crcByte 0 (a ^^^ a') := by
      rw [← crcByte_xor, UInt16.xor_self]
    rw [← hfirst, crcByte_xor, h, UInt16.xor_self]
  have hshift := eq_of_crcByte hdiff
  have hfirst : a ^^^ a' = 0 := by
    apply eq_zero_of_low
    rw [hshift]
    exact shift_low (b ^^^ b')
  have hsecond : b ^^^ b' = 0 := by
    apply eq_zero_of_shift
    rw [← hshift, hfirst]
    decide
  exact ⟨UInt8.xor_eq_zero_iff.mp hfirst, UInt8.xor_eq_zero_iff.mp hsecond⟩

theorem crc16_append (data more : Bytes) :
    crc16CcittFalse (data ++ more) = more.foldl crcByte (crc16CcittFalse data) :=
  List.foldl_append

theorem crc16_concat_xor (data : Bytes) (a a' : UInt8) :
    crc16CcittFalse (data ++ [a]) ^^^ crc16CcittFalse (data ++ [a']) = crcByte 0 (a ^^^ a') := by
  rw [crc16_append, crc16_append]
  simp only [List.foldl_cons, List.foldl_nil]
  rw [← crcByte_xor, UInt16.xor_self]

/-- A change of two bytes in a row that leaves a sealed body: of the last byte of the body and the
first of the CRC, and one of them only. -/
theorem sealed_burst {pre post body body' : Bytes} {a b a' b' : UInt8}
    (hbody : sealed body = pre ++ a :: b :: post) (hbody' : sealed body' = pre ++ a' :: b' :: post)
    (hdiff : (a', b') ≠ (a, b)) :
    ∃ c, post = [c] ∧ body = pre ++ [a] ∧ body' = pre ++ [a'] ∧ a' = a ^^^ 0x89 ∧ b' = b ^^^ 0xA1 := by
  rcases List.eq_nil_or_concat post with rfl | ⟨rest, last, rfl⟩
  · -- only the CRC is changed
    obtain ⟨hpre, hcrc⟩ := List.append_inj' hbody rfl
    obtain ⟨hpre', hcrc'⟩ := List.append_inj' hbody' rfl
    rw [hpre] at hcrc
    rw [hpre', hcrc] at hcrc'
    simp only [List.cons.injEq, and_true] at hcrc'
    exact absurd (Prod.ext hcrc'.1.symm hcrc'.2.symm) hdiff
  rcases List.eq_nil_or_concat rest with rfl | ⟨rest, first, rfl⟩
  · have hframe : pre ++ a :: b :: [].concat last = (pre ++ [a]) ++ [b, last] := by simp
    have hframe' : pre ++ a' :: b' :: [].concat last = (pre ++ [a']) ++ [b', last] := by simp
    rw [hframe] at hbody
    rw [hframe'] at hbody'
    obtain ⟨hpre, hcrc⟩ := List.append_inj' hbody rfl
    obtain ⟨hpre', hcrc'⟩ := List.append_inj' hbody' rfl
    rw [hpre] at hcrc
    rw [hpre'] at hcrc'
    simp only [le16, List.cons.injEq, and_true] at hcrc hcrc'
    have hxor := crc16_concat_xor pre a a'
    have hlow : (crcByte 0 (a ^^^ a')).toUInt8 = b ^^^ b' := by
      rw [← hxor, UInt16.toUInt8_xor, hcrc.1, hcrc'.1]
    have hhigh : (crcByte 0 (a ^^^ a') >>> 8).toUInt8 = 0 := by
      rw [← hxor, UInt16.shiftRight_xor, UInt16.toUInt8_xor, hcrc.2, hcrc'.2, UInt8.xor_self]
    have hback (x y : UInt8) : x ^^^ (x ^^^ y) = y := by
      rw [← UInt8.xor_assoc, UInt8.xor_self, UInt8.zero_xor]
    rcases high_cases (a ^^^ a') hhigh with ⟨ha, hb⟩ | ⟨ha, hb⟩
    · rw [hlow] at hb
      have hsame : (a', b') = (a, b) := by
        rw [UInt8.xor_eq_zero_iff.mp ha, UInt8.xor_eq_zero_iff.mp hb]
      exact absurd hsame hdiff
    · rw [hlow] at hb
      exact ⟨last, rfl, hpre, hpre', by rw [← ha, hback], by rw [← hb, hback]⟩
  · -- the CRC is as it was, and that of the body is not
    have hframe : pre ++ a :: b :: (rest.concat first).concat last =
        (pre ++ [a, b] ++ rest) ++ [first, last] := by simp
    have hframe' : pre ++ a' :: b' :: (rest.concat first).concat last =
        (pre ++ [a', b'] ++ rest) ++ [first, last] := by simp
    rw [hframe] at hbody
    rw [hframe'] at hbody'
    obtain ⟨hpre, hcrc⟩ := List.append_inj' hbody rfl
    obtain ⟨hpre', hcrc'⟩ := List.append_inj' hbody' rfl
    have hsame : crc16CcittFalse body = crc16CcittFalse body' := by
      rw [← readLe16_le16 (crc16CcittFalse body), ← readLe16_le16 (crc16CcittFalse body')]
      simp only [le16, List.cons.injEq, and_true] at hcrc hcrc'
      rw [hcrc.1, hcrc.2, hcrc'.1, hcrc'.2]
    rw [hpre, hpre', crc16_append _ rest, crc16_append _ rest, crc16_append pre, crc16_append pre] at hsame
    obtain ⟨ha, hb⟩ := crcByte_pair_inj (foldl_crcByte_inj hsame)
    exact absurd (Prod.ext ha.symm hb.symm) hdiff

/-- That one change leaves a sealed body. -/
theorem sealed_boundary {pre body : Bytes} {a b c : UInt8}
    (hbody : sealed body = pre ++ [a, b, c]) :
    sealed (pre ++ [a ^^^ 0x89]) = pre ++ [a ^^^ 0x89, b ^^^ 0xA1, c] := by
  have hframe : pre ++ [a, b, c] = (pre ++ [a]) ++ [b, c] := by simp
  rw [hframe] at hbody
  obtain ⟨hpre, hcrc⟩ := List.append_inj' hbody rfl
  rw [hpre] at hcrc
  have hdelta : crc16CcittFalse (pre ++ [a ^^^ 0x89]) = crc16CcittFalse (pre ++ [a]) ^^^ 0x00A1 := by
    have hxor := crc16_concat_xor pre a (a ^^^ 0x89)
    have hbyte : crcByte 0 (a ^^^ (a ^^^ 0x89)) = 0x00A1 := by
      rw [← UInt8.xor_assoc, UInt8.xor_self, UInt8.zero_xor]
      decide +kernel
    rw [hbyte] at hxor
    rw [← hxor, ← UInt16.xor_assoc, UInt16.xor_self, UInt16.zero_xor]
  simp only [le16, List.cons.injEq, and_true] at hcrc
  rw [sealed, hdelta, le16, UInt16.toUInt8_xor, UInt16.shiftRight_xor, UInt16.toUInt8_xor, hcrc.1,
    hcrc.2, List.append_assoc, show ((0x00A1 : UInt16) >>> 8).toUInt8 = 0 by decide,
    show (0x00A1 : UInt16).toUInt8 = 0xA1 by decide, UInt8.xor_zero]
  rfl

end Bursts

theorem sealed_of_encode {h : WireHeader} {payload frame : Bytes} (hframe : encode h payload = some frame) :
    payload.length ≤ kMaxPayload ∧ ∃ w, frame = sealed (frameBody h w payload) := by
  have hlen : payload.length ≤ kMaxPayload := by
    by_contra hlong
    rw [encode, if_pos (by omega)] at hframe
    cases hframe
  rw [encode_eq h hlen, Option.map_eq_some_iff] at hframe
  obtain ⟨own, -, hsealed⟩ := hframe
  exact ⟨hlen, wireForm h own, hsealed.symm⟩

/-- The last payload byte is known by the body, and no other byte of it depends on that byte. -/
theorem frameBody_concat {h : WireHeader} {w : WireForm} {payload pre : Bytes} {last a : UInt8}
    (hbody : frameBody h w (payload ++ [last]) = pre ++ [a]) (e : UInt8) :
    frameBody h w (payload ++ [e]) = pre ++ [e] := by
  rw [frameBody, List.length_append, List.length_singleton, ← List.append_assoc] at hbody ⊢
  obtain ⟨hpre, -⟩ := List.append_inj' hbody rfl
  rw [hpre]

theorem frameBody_nil_getLast (h : WireHeader) (w : WireForm) :
    (frameBody h w []).getLast? = some 0 := rfl

/-- A frame with a payload is accepted also after that one change. -/
theorem decode_boundary {pre : Bytes} {a b c : UInt8} (hlong : kHeaderSize ≤ pre.length)
    (hframe : (decode (pre ++ [a, b, c])).isSome) :
    (decode (pre ++ [a ^^^ 0x89, b ^^^ 0xA1, c])).isSome := by
  obtain ⟨⟨h, payload⟩, hread⟩ := Option.isSome_iff_exists.mp hframe
  obtain ⟨w, type, hw, hlen, -, hdata⟩ := decode_sound hread
  have hsize := congrArg List.length hdata
  rw [sealed_length, frameBody_length, List.length_append] at hsize
  simp only [List.length_cons, List.length_nil] at hsize
  rcases List.eq_nil_or_concat' payload with rfl | ⟨init, last, rfl⟩
  · rw [List.length_nil] at hsize
    omega
  · have hsealed := sealed_boundary hdata.symm
    have hbody : frameBody h w (init ++ [last]) = pre ++ [a] := by
      have hsplit : pre ++ [a, b, c] = (pre ++ [a]) ++ [b, c] := by simp
      rw [hsplit] at hdata
      exact (List.append_inj' hdata rfl).1.symm
    rw [← hsealed, ← frameBody_concat hbody, decode_sealed h hw]
    · rfl
    · rw [List.length_append] at hlen ⊢
      exact hlen

end ProtocolCodec

open ProtocolCodec in
/-- A change of two adjacent bytes of a frame is accepted only in the last payload byte and the first
byte of the CRC: the frame carries the low byte of the CRC first, and there the change of one payload
byte by `0x89` meets a change of the CRC by `0xA1` alone. -/
theorem adjacent_bytes_changed_iff (h : WireHeader) (payload pre post : Bytes) (a b a' b' : UInt8)
    (hframe : ProtocolCodec.encode h payload = some (pre ++ a :: b :: post))
    (hchanged : (a', b') ≠ (a, b)) :
    (ProtocolCodec.decode (pre ++ a' :: b' :: post)).isSome ↔
      (ProtocolCodec.decode (pre ++ a :: b :: post)).isSome ∧ payload ≠ [] ∧ post.length = 1 ∧
        a' = a ^^^ 0x89 ∧ b' = b ^^^ 0xA1 := by
  obtain ⟨-, w, hsealed⟩ := sealed_of_encode hframe
  have hsize := congrArg List.length hsealed
  rw [sealed_length, frameBody_length, List.length_append] at hsize
  simp only [List.length_cons] at hsize
  constructor
  · intro haccepted
    obtain ⟨⟨h', payload'⟩, hread⟩ := Option.isSome_iff_exists.mp haccepted
    obtain ⟨w', type, hw, hlen, -, hsealed'⟩ := decode_sound hread
    have hsize' := congrArg List.length hsealed'
    rw [sealed_length, frameBody_length, List.length_append] at hsize'
    simp only [List.length_cons] at hsize'
    obtain ⟨c, rfl, hbody, hbody', ha, hb⟩ := sealed_burst hsealed.symm hsealed'.symm hchanged
    have hpayload : payload ≠ [] := by
      -- without a payload the last byte of the body is that of the length
      rintro rfl
      rw [List.length_nil] at hsize
      have hempty : payload' = [] := List.length_eq_zero_iff.mp (by omega)
      have hlast := frameBody_nil_getLast h w
      have hlast' := frameBody_nil_getLast h' w'
      rw [hbody, List.getLast?_concat] at hlast
      rw [hempty] at hbody'
      rw [hbody', List.getLast?_concat, ha, Option.some.inj hlast] at hlast'
      exact absurd hlast' (by decide)
    refine ⟨?_, hpayload, rfl, ha, hb⟩
    have hpos : 0 < payload.length := List.length_pos_iff.mpr hpayload
    have hback (x y : UInt8) : x ^^^ y ^^^ y = x := by
      rw [UInt8.xor_assoc, UInt8.xor_self, UInt8.xor_zero]
    have hlong : kHeaderSize ≤ pre.length := by
      rw [List.length_singleton] at hsize
      omega
    have hreverse := decode_boundary hlong haccepted
    rwa [ha, hb, hback, hback] at hreverse
  · rintro ⟨haccepted, hpayload, hpost, ha, hb⟩
    obtain ⟨c, rfl⟩ := List.length_eq_one_iff.mp hpost
    have hpos : 0 < payload.length := List.length_pos_iff.mpr hpayload
    have hlong : kHeaderSize ≤ pre.length := by
      rw [List.length_singleton] at hsize
      omega
    rw [ha, hb]
    exact decode_boundary hlong haccepted

/-- The frame of a pull request with one payload byte, of which its last byte and the next are
changed. -/
theorem adjacent_bytes_changed_accepted :
    let h : WireHeader := { type := .PullRequest, wire_service := 0x04, wire_op_code := 0x03 }
    let frame := (ProtocolCodec.encode h [5]).getD []
    let changed := frame.take 13 ++ (frame.getD 13 0 ^^^ 0x89) :: (frame.getD 14 0 ^^^ 0xA1) :: frame.drop 15
    ProtocolCodec.encode h [5] = some frame ∧ changed ≠ frame ∧
      ProtocolCodec.decode changed = some
        ({ h with role := 2, wire_msg_type := 1, payload_length := 1 }, [0x8C]) := by
  decide +kernel

theorem adjacent_bytes_changed_case :
    let h : WireHeader := { type := .PairInit }
    let frame := (ProtocolCodec.encode h [5]).getD []
    (ProtocolCodec.decode (frame.take 2 ++ 9 :: 9 :: frame.drop 4)).isSome ↔
      (ProtocolCodec.decode frame).isSome ∧ [(5 : UInt8)] ≠ [] ∧ (frame.drop 4).length = 1 ∧
        9 = frame.getD 2 0 ^^^ 0x89 ∧ 9 = frame.getD 3 0 ^^^ 0xA1 := by
  intro h frame
  exact adjacent_bytes_changed_iff h [5] (frame.take 2) (frame.drop 4) (frame.getD 2 0) (frame.getD 3 0)
    9 9 (by decide +kernel) (by decide +kernel)

end EspNowLink
