import EspNowLink.Codec.Fields

open Framework

namespace EspNowLink

namespace VarintTlv

section Model

def canAppend (out : Bytes) (n : ℕ) : Bool := out.length + n ≤ kMaxPayload

theorem shift_toNat (value : UInt32) : (value >>> 7).toNat = value.toNat / 128 := by
  rw [UInt32.toNat_shiftRight]
  exact Nat.shiftRight_eq_div_pow value.toNat 7

/-- The bytes that `appendVarU32` needs. -/
def need (t : UInt32) : ℕ := if 0x80 ≤ t then need (t >>> 7) + 1 else 1
termination_by t.toNat
decreasing_by
  rename_i h
  have hle : 128 ≤ t.toNat := UInt32.le_iff_toNat_le.mp h
  rw [shift_toNat]
  omega

/-- The bytes that the second loop pushes. -/
def pushed (value : UInt32) : Bytes :=
  if 0x80 ≤ value then ((value &&& 0x7F) ||| 0x80).toUInt8 :: pushed (value >>> 7)
  else [(value &&& 0x7F).toUInt8]
termination_by value.toNat
decreasing_by
  rename_i h
  have hle : 128 ≤ value.toNat := UInt32.le_iff_toNat_le.mp h
  rw [shift_toNat]
  omega

def appendVarU32 (out : Bytes) (value : UInt32) : Option Bytes :=
  if canAppend out (need value) then some (out ++ pushed value) else none

/-- A sum of `size_t` with `w` bits. -/
def sizeAdd (w a b : ℕ) : ℕ := (a + b) % 2 ^ w

def readU8 (w : ℕ) (payload : Bytes) (off : ℕ) : Option (UInt8 × ℕ) :=
  if payload.length < sizeAdd w off 1 then none else payload[off]?.map fun b => (b, sizeAdd w off 1)

/-- The loop of `readVarU32` with `n` turns to go. -/
def readVarFrom (w : ℕ) (payload : Bytes) : ℕ → UInt32 → UInt32 → ℕ → Option (UInt32 × ℕ)
  | 0, _, _, _ => none
  | n + 1, shift, out, off =>
    match readU8 w payload off with
    | none => none
    | some (b, off) =>
      let out := out ||| (b &&& 0x7F).toUInt32 <<< shift
      if b &&& 0x80 = 0 then some (out, off) else readVarFrom w payload n (shift + 7) out off

def readVarU32 (w : ℕ) (payload : Bytes) (off : ℕ) : Option (UInt32 × ℕ) := readVarFrom w payload 5 0 0 off

/-- The part of the payload that a text is assigned from. -/
structure TextRange where
  start : ℕ
  length : ℕ
  deriving DecidableEq

def readStr (w : ℕ) (payload : Bytes) (off : ℕ) : Option (TextRange × ℕ) :=
  match readVarU32 w payload off with
  | none => none
  | some (n, off) =>
    if payload.length < sizeAdd w off n.toNat then none else some (⟨off, n.toNat⟩, sizeAdd w off n.toNat)

end Model

section Bits

theorem low_toNat (value : UInt32) : (value &&& 0x7F).toNat = value.toNat % 128 := by
  rw [UInt32.toNat_and]
  exact Nat.and_two_pow_sub_one_eq_mod value.toNat 7

theorem lowByte_toNat (b : UInt8) : (b &&& 0x7F).toNat = b.toNat % 128 := by
  rw [UInt8.toNat_and]
  exact Nat.and_two_pow_sub_one_eq_mod b.toNat 7

theorem last_iff (b : UInt8) : b &&& 0x80 = 0 ↔ b.toNat < 128 := by
  have hall : ∀ n < 256, (UInt8.ofNat n &&& 0x80 = 0 ↔ n < 128) := by decide +kernel
  have hb := hall b.toNat b.toNat_lt
  rwa [UInt8.ofNat_toNat] at hb

theorem pushed_last (value : UInt32) : (value &&& 0x7F).toUInt8 = UInt8.ofNat (value.toNat % 128) := by
  apply UInt8.toNat_inj.mp
  rw [UInt32.toNat_toUInt8, low_toNat, UInt8.toNat_ofNat']

theorem pushed_more (value : UInt32) :
    ((value &&& 0x7F) ||| 0x80).toUInt8 = UInt8.ofNat (value.toNat % 128 + 128) := by
  apply UInt8.toNat_inj.mp
  have hsum : value.toNat % 128 ||| 128 = 128 + value.toNat % 128 := by
    rw [Nat.or_comm]
    exact (Nat.two_pow_add_eq_or_of_lt (i := 7) (Nat.mod_lt _ (by decide)) 1).symm
  have hor : ((value &&& 0x7F) ||| 0x80).toNat = value.toNat % 128 ||| 128 := by
    rw [UInt32.toNat_or, low_toNat]
    rfl
  rw [UInt32.toNat_toUInt8, hor, hsum, UInt8.toNat_ofNat', Nat.add_comm]

/-- The loops of the writer are the base-128 digits. -/
theorem pushed_eq {n : ℕ} (value : UInt32) (hn : value.toNat < 128 ^ (n + 1)) :
    pushed value = Format.encodeVar n value.toNat ∧ need value = (pushed value).length := by
  induction n generalizing value with
  | zero =>
    rw [Nat.zero_add, Nat.pow_one] at hn
    have hsmall : ¬ 0x80 ≤ value := by
      rw [UInt32.le_iff_toNat_le]
      exact Nat.not_le.mpr hn
    rw [pushed, need, if_neg hsmall, if_neg hsmall, pushed_last, Nat.mod_eq_of_lt hn]
    exact ⟨rfl, rfl⟩
  | succ n ih =>
    have hle : 0x80 ≤ value ↔ ¬ value.toNat < 128 := UInt32.le_iff_toNat_le.trans Nat.not_lt.symm
    by_cases hsmall : value.toNat < 128
    · have hno : ¬ 0x80 ≤ value := fun h => hle.mp h hsmall
      rw [pushed, need, if_neg hno, if_neg hno, pushed_last, Nat.mod_eq_of_lt hsmall, Format.encodeVar,
        if_pos hsmall]
      exact ⟨rfl, rfl⟩
    · have hrest : (value >>> 7).toNat < 128 ^ (n + 1) := by
        rw [shift_toNat, Nat.div_lt_iff_lt_mul (by decide), ← Nat.pow_succ]
        exact hn
      obtain ⟨hbytes, hneed⟩ := ih (value >>> 7) hrest
      have hmore := hle.mpr hsmall
      rw [pushed, need, if_pos hmore, if_pos hmore, pushed_more, Format.encodeVar, if_neg hsmall, ← shift_toNat]
      exact ⟨congrArg _ hbytes, congrArg (· + 1) hneed⟩

/-- Seven bits more: what was read stays, the rest is cut to 32 bits. -/
theorem or_shift {out shift : UInt32} {b : UInt8} {s : ℕ} (hs : s ≤ 28) (hshift : shift.toNat = s)
    (hout : out.toNat < 2 ^ s) :
    out ||| (b &&& 0x7F).toUInt32 <<< shift = UInt32.ofNat (out.toNat + 2 ^ s * (b.toNat % 128)) := by
  apply UInt32.toNat_inj.mp
  have hpow : 2 ^ 32 = 2 ^ s * 2 ^ (32 - s) := by
    rw [← Nat.pow_add]
    congr 1
    omega
  have hshifted : ((b &&& 0x7F).toUInt32 <<< shift).toNat = 2 ^ s * (b.toNat % 128 % 2 ^ (32 - s)) := by
    have hs32 : s % 32 = s := Nat.mod_eq_of_lt (by omega)
    rw [UInt32.toNat_shiftLeft, UInt8.toNat_toUInt32, lowByte_toNat, hshift, hs32, Nat.shiftLeft_eq, Nat.mul_comm,
      hpow, Nat.mul_mod_mul_left]
  have hcut : (out.toNat + 2 ^ s * (b.toNat % 128)) % 2 ^ 32 =
      2 ^ s * (b.toNat % 128 % 2 ^ (32 - s)) + out.toNat := by
    have hmod : b.toNat % 128 = 2 ^ (32 - s) * (b.toNat % 128 / 2 ^ (32 - s)) + b.toNat % 128 % 2 ^ (32 - s) :=
      (Nat.div_add_mod _ _).symm
    have hsplit : out.toNat + 2 ^ s * (b.toNat % 128) =
        2 ^ s * (b.toNat % 128 % 2 ^ (32 - s)) + out.toNat +
          2 ^ 32 * (b.toNat % 128 / 2 ^ (32 - s)) := by
      conv_lhs => rw [hmod]
      rw [Nat.mul_add, ← Nat.mul_assoc, ← hpow]
      omega
    have hlt : 2 ^ s * (b.toNat % 128 % 2 ^ (32 - s)) + out.toNat < 2 ^ 32 := by
      have hlow : b.toNat % 128 % 2 ^ (32 - s) + 1 ≤ 2 ^ (32 - s) := Nat.mod_lt _ (Nat.two_pow_pos _)
      have hmul := Nat.mul_le_mul_left (2 ^ s) hlow
      rw [← hpow, Nat.mul_add, Nat.mul_one] at hmul
      omega
    rw [hsplit, Nat.add_mul_mod_self_left, Nat.mod_eq_of_lt hlt]
  rw [UInt32.toNat_or, hshifted, UInt32.toNat_ofNat', hcut, Nat.or_comm, Nat.two_pow_add_eq_or_of_lt hout]

end Bits

/-- The number that the bytes at `off` spell, and where its spelling ends. -/
def spelled (payload : Bytes) (off : ℕ) : Option (ℕ × ℕ) :=
  (Format.decodeVar 5 (payload.drop off)).map fun x => (x.1, payload.length - x.2.length)

/-- `n` bytes that go on, and then a last one of 16 or more. -/
def overlong : ℕ → Bytes → Bool
  | n + 1, b :: rest => 128 ≤ b.toNat && overlong n rest
  | 0, b :: _ => 16 ≤ b.toNat && b.toNat < 128
  | _, [] => false

/-- The declared length takes the end of the text once around the size type, and back into the payload. -/
def Wraps (w : ℕ) (payload : Bytes) (off : ℕ) : Prop :=
  ∃ v o, spelled payload off = some (v, o) ∧ 2 ^ w ≤ o + v % 2 ^ 32 ∧ o + v % 2 ^ 32 ≤ 2 ^ w + payload.length

section Reading

variable {w : ℕ} {payload : Bytes}

theorem readU8_eq (hlen : payload.length < 2 ^ w) (off : ℕ) :
    readU8 w payload off = payload[off]?.map fun b => (b, off + 1) := by
  unfold readU8 sizeAdd
  by_cases hoff : off < payload.length
  · have hsum : (off + 1) % 2 ^ w = off + 1 := Nat.mod_eq_of_lt (by omega)
    rw [hsum, if_neg (by omega)]
  · rw [List.getElem?_eq_none (Nat.not_lt.mp hoff)]
    exact ite_self none

/-- With `7 * k` bits read, the other turns read the rest of the number. -/
theorem readVarFrom_eq (hlen : payload.length < 2 ^ w) {n k : ℕ} (hturns : n + k = 5) {out shift : UInt32}
    (hshift : shift.toNat = 7 * k) (hout : out.toNat < 2 ^ (7 * k)) (off : ℕ) :
    readVarFrom w payload n shift out off = (Format.decodeVar n (payload.drop off)).map fun x =>
      (UInt32.ofNat (out.toNat + 2 ^ (7 * k) * x.1), payload.length - x.2.length) := by
  induction n generalizing k out shift off with
  | zero => rw [readVarFrom, Format.decodeVar.eq_def]; rfl
  | succ n ih =>
    rw [readVarFrom, readU8_eq hlen]
    cases hb : payload[off]? with
    | none =>
      have hend : payload.length ≤ off := List.getElem?_eq_none_iff.mp hb
      rw [List.drop_eq_nil_of_le hend]
      rfl
    | some b =>
      obtain ⟨hoff, hget⟩ := List.getElem?_eq_some_iff.mp hb
      have hdrop : payload.drop off = b :: payload.drop (off + 1) := by rw [List.drop_eq_getElem_cons hoff, hget]
      have hor := or_shift (b := b) (by omega) hshift hout
      rw [hdrop, Format.decodeVar, Option.map_some]
      simp only [hor]
      by_cases hlast : b.toNat < 128
      · have hnext : payload.length - (payload.drop (off + 1)).length = off + 1 := by
          rw [List.length_drop]
          omega
        rw [if_pos ((last_iff b).mpr hlast), if_pos hlast, Option.map_some, hnext, Nat.mod_eq_of_lt hlast]
      · rw [if_neg (fun h => hlast ((last_iff b).mp h)), if_neg hlast, Option.map_map]
        cases n with
        | zero => rw [readVarFrom, Format.decodeVar.eq_def]; rfl
        | succ n =>
          have hk : k ≤ 3 := by omega
          have hpow : 2 ^ (7 * (k + 1)) = 2 ^ (7 * k) * 128 := by rw [Nat.mul_succ, Nat.pow_add]
          have hmore : (out.toNat + 2 ^ (7 * k) * (b.toNat % 128)) < 2 ^ (7 * (k + 1)) := by
            have hlow : b.toNat % 128 ≤ 127 := by omega
            have hmul := Nat.mul_le_mul_left (2 ^ (7 * k)) hlow
            rw [hpow]
            omega
          have hbits : 2 ^ (7 * (k + 1)) < 2 ^ 32 := Nat.pow_lt_pow_right (by decide) (by omega)
          have hsmall : (UInt32.ofNat (out.toNat + 2 ^ (7 * k) * (b.toNat % 128))).toNat =
              out.toNat + 2 ^ (7 * k) * (b.toNat % 128) := by
            rw [UInt32.toNat_ofNat']
            exact Nat.mod_eq_of_lt (Nat.lt_trans hmore hbits)
          have hshift' : (shift + 7).toNat = 7 * (k + 1) := by
            rw [UInt32.toNat_add, hshift]
            have hsum : 7 * k + 7 < 2 ^ 32 := by omega
            exact Nat.mod_eq_of_lt hsum
          have hrest := ih (by omega) hshift' (by rwa [hsmall]) (off + 1)
          rw [hrest, hsmall]
          congr 1
          funext x
          have hcont : b.toNat % 128 = b.toNat - 128 := by
            have hlt := b.toNat_lt
            omega
          have hsum : out.toNat + 2 ^ (7 * k) * (b.toNat % 128) + 2 ^ (7 * (k + 1)) * x.1 =
              out.toNat + 2 ^ (7 * k) * (b.toNat - 128 + 128 * x.1) := by
            rw [hcont, hpow, Nat.mul_add, Nat.mul_assoc, Nat.add_assoc]
          simp only [Function.comp_apply, hsum]

/-- What is read is what is spelled, cut to 32 bits. -/
theorem readVarU32_eq (hlen : payload.length < 2 ^ w) (off : ℕ) :
    readVarU32 w payload off = (spelled payload off).map fun x => (UInt32.ofNat x.1, x.2) := by
  have hzero : (0 : UInt32).toNat = 7 * 0 := rfl
  have hempty : (0 : UInt32).toNat < 2 ^ (7 * 0) := by decide
  have hread := readVarFrom_eq hlen (Nat.add_zero 5) hzero hempty off
  rw [readVarU32, hread, spelled, Option.map_map]
  congr 1
  funext x
  simp

/-- At most `n` bytes are taken, and at least one. -/
theorem decodeVar_length {n v : ℕ} {bs rest : Bytes} (h : Format.decodeVar n bs = some (v, rest)) :
    rest.length < bs.length ∧ bs.length ≤ rest.length + n := by
  induction n generalizing bs v with
  | zero => rw [Format.decodeVar.eq_def] at h; cases h
  | succ n ih =>
    cases bs with
    | nil => cases h
    | cons b more =>
      rw [Format.decodeVar] at h
      rw [List.length_cons]
      split at h
      · cases h
        exact ⟨Nat.lt_succ_self _, by omega⟩
      · obtain ⟨⟨y, left⟩, hy, hx⟩ := Option.map_eq_some_iff.mp h
        cases hx
        obtain ⟨hshort, htaken⟩ := ih hy
        exact ⟨by omega, by omega⟩

theorem spelled_inside {off v o : ℕ} (h : spelled payload off = some (v, o)) :
    off < o ∧ o ≤ off + 5 ∧ o ≤ payload.length := by
  obtain ⟨⟨x, rest⟩, hx, hpair⟩ := Option.map_eq_some_iff.mp h
  obtain ⟨hshort, htaken⟩ := decodeVar_length hx
  rw [List.length_drop] at hshort htaken
  have ho : payload.length - rest.length = o := congrArg Prod.snd hpair
  exact ⟨by omega, by omega, by omega⟩

/-- A spelling of at most `n + 1` bytes passes four bits in the last one exactly when it is overlong. -/
theorem overlong_iff {n : ℕ} {bs : Bytes} {x : ℕ × Bytes} (h : Format.decodeVar (n + 1) bs = some x) :
    16 * 128 ^ n ≤ x.1 ↔ overlong n bs = true := by
  induction n generalizing bs x with
  | zero =>
    cases bs with
    | nil => cases h
    | cons b rest =>
      rw [Format.decodeVar] at h
      have hb : b.toNat < 128 ∧ x = (b.toNat, rest) := by
        split at h
        · rename_i hlast
          exact ⟨hlast, (Option.some.inj h).symm⟩
        · rw [Format.decodeVar.eq_def] at h
          cases h
      obtain ⟨hlast, rfl⟩ := hb
      rw [overlong, Bool.and_eq_true, decide_eq_true_iff, decide_eq_true_iff, pow_zero, Nat.mul_one]
      exact ⟨fun hle => ⟨hle, hlast⟩, fun hand => hand.1⟩
  | succ n ih =>
    cases bs with
    | nil => cases h
    | cons b rest =>
      rw [Format.decodeVar] at h
      rw [overlong, Bool.and_eq_true, decide_eq_true_iff]
      have hbase : 128 ≤ 128 ^ (n + 1) := Nat.le_self_pow (Nat.succ_ne_zero n) 128
      by_cases hlast : b.toNat < 128
      · rw [if_pos hlast] at h
        cases h
        exact ⟨fun hle => by omega, fun hand => absurd hand.1 (Nat.not_le.mpr hlast)⟩
      · rw [if_neg hlast] at h
        obtain ⟨y, hy, hx⟩ := Option.map_eq_some_iff.mp h
        cases hx
        have hlow : b.toNat - 128 < 128 := by
          have hlt := b.toNat_lt
          omega
        have hscale : 16 * 128 ^ (n + 1) ≤ b.toNat - 128 + 128 * y.1 ↔ 16 * 128 ^ n ≤ y.1 := by
          rw [pow_succ]
          omega
        rw [hscale, ih hy]
        exact ⟨fun hover => ⟨Nat.not_lt.mp hlast, hover⟩, fun hand => hand.2⟩

theorem overlong_reads {n : ℕ} {bs : Bytes} (h : overlong n bs = true) :
    ∃ x, Format.decodeVar (n + 1) bs = some x := by
  induction n generalizing bs with
  | zero =>
    cases bs with
    | nil => cases h
    | cons b rest =>
      rw [overlong, Bool.and_eq_true, decide_eq_true_iff, decide_eq_true_iff] at h
      rw [Format.decodeVar, if_pos h.2]
      exact ⟨_, rfl⟩
  | succ n ih =>
    cases bs with
    | nil => cases h
    | cons b rest =>
      rw [overlong, Bool.and_eq_true, decide_eq_true_iff] at h
      obtain ⟨y, hy⟩ := ih h.2
      rw [Format.decodeVar, if_neg (Nat.not_lt.mpr h.1), hy]
      exact ⟨_, rfl⟩

/-- What was appended is read back, with the offset just past it. -/
theorem read_append (before after : Bytes) (value : UInt32) {out : Bytes}
    (happend : appendVarU32 before value = some out) (hlen : (out ++ after).length < 2 ^ w) :
    readVarU32 w (out ++ after) before.length = some (value, out.length) := by
  have hfive : value.toNat < 128 ^ (4 + 1) := Nat.lt_trans value.toNat_lt (by decide)
  obtain ⟨hbytes, -⟩ := pushed_eq value hfive
  have hout : out = before ++ pushed value := by
    rw [appendVarU32, Option.ite_none_right_eq_some, Option.some.injEq] at happend
    exact happend.2.symm
  subst hout
  have hdrop : ((before ++ pushed value) ++ after).drop before.length = pushed value ++ after := by
    rw [List.append_assoc, List.drop_left]
  have hend : ((before ++ pushed value) ++ after).length - after.length = (before ++ pushed value).length := by
    rw [@List.length_append _ _ after, Nat.add_sub_cancel]
  rw [readVarU32_eq hlen, spelled, hdrop, hbytes, Format.decodeVar_encodeVar hfive after, Option.map_some,
    Option.map_some, ← hbytes, hend, UInt32.ofNat_toNat]

/-- The check of the text's end passes for the texts inside the payload and those whose end wraps. -/
theorem readStr_eq_some (hw : 32 ≤ w) (hlen : payload.length < 2 ^ w) {off : ℕ} {t : TextRange} {next : ℕ} :
    readStr w payload off = some (t, next) ↔ ∃ v, spelled payload off = some (v, t.start) ∧
      t.length = v % 2 ^ 32 ∧ next = (t.start + t.length) % 2 ^ w ∧
      (t.start + t.length ≤ payload.length ∨
        2 ^ w ≤ t.start + t.length ∧ t.start + t.length ≤ 2 ^ w + payload.length) := by
  rw [readStr, readVarU32_eq hlen]
  cases hs : spelled payload off with
  | none => simp
  | some p =>
    obtain ⟨v, o⟩ := p
    obtain ⟨-, -, hinside⟩ := spelled_inside hs
    have hn : (UInt32.ofNat v).toNat = v % 2 ^ 32 := UInt32.toNat_ofNat'
    have hlow : v % 2 ^ 32 < 2 ^ w := Nat.lt_of_lt_of_le (Nat.mod_lt _ (by decide)) (Nat.pow_le_pow_right (by decide) hw)
    have hcheck : ¬ payload.length < (o + v % 2 ^ 32) % 2 ^ w ↔ o + v % 2 ^ 32 ≤ payload.length ∨
        2 ^ w ≤ o + v % 2 ^ 32 ∧ o + v % 2 ^ 32 ≤ 2 ^ w + payload.length := by
      by_cases hfits : o + v % 2 ^ 32 < 2 ^ w
      · rw [Nat.mod_eq_of_lt hfits]
        exact ⟨fun h => Or.inl (Nat.not_lt.mp h), fun h => by omega⟩
      · have hwrap : (o + v % 2 ^ 32) % 2 ^ w = o + v % 2 ^ 32 - 2 ^ w := by
          rw [Nat.mod_eq_sub_mod (Nat.not_lt.mp hfits)]
          exact Nat.mod_eq_of_lt (by omega)
        rw [hwrap]
        exact ⟨fun h => Or.inr ⟨Nat.not_lt.mp hfits, by omega⟩, fun h => by omega⟩
    simp only [Option.map_some, hn, sizeAdd]
    constructor
    · intro hread
      split at hread
      · cases hread
      · rename_i hok
        cases hread
        exact ⟨v, rfl, rfl, rfl, hcheck.mp hok⟩
    · rintro ⟨v', hv, hlength, hnext, hends⟩
      cases hv
      rw [hlength] at hnext hends
      rw [if_neg (hcheck.mpr hends), hnext, ← hlength]

end Reading

section Statement

theorem varints_exact (w : ℕ) (hw : 32 ≤ w) :
    (∀ (before after : Bytes) (value : UInt32) (out : Bytes), appendVarU32 before value = some out →
      (out ++ after).length < 2 ^ w →
        readVarU32 w (out ++ after) before.length = some (value, out.length)) ∧
    ∀ payload : Bytes, payload.length < 2 ^ w → ∀ off : ℕ,
      (∀ value next, readVarU32 w payload off = some (value, next) →
        off < next ∧ next ≤ off + 5 ∧ next ≤ payload.length) ∧
      ((∀ value next, readVarU32 w payload off = some (value, next) →
          ∃ v, spelled payload off = some (v, next) ∧ v < 2 ^ 32 ∧ value.toNat = v) ↔
        overlong 4 (payload.drop off) = false) ∧
      ((∀ t next, readStr w payload off = some (t, next) → t.start + t.length ≤ payload.length) ↔
        ¬ Wraps w payload off) := by
  constructor
  · intro before after value out happend hlen
    exact read_append before after value happend hlen
  intro payload hlen off
  refine ⟨?_, ?_, ?_⟩
  · intro value next hread
    rw [readVarU32_eq hlen] at hread
    obtain ⟨⟨v, o⟩, hs, hx⟩ := Option.map_eq_some_iff.mp hread
    cases hx
    exact spelled_inside hs
  · rw [readVarU32_eq hlen]
    constructor
    · intro hfits
      rw [Bool.eq_false_iff]
      intro hover
      obtain ⟨x, hd⟩ := overlong_reads hover
      have hs : spelled payload off = some (x.1, payload.length - x.2.length) := by rw [spelled, hd, Option.map_some]
      obtain ⟨v, hv, hsmall, -⟩ := hfits (UInt32.ofNat x.1) _ (by rw [hs, Option.map_some])
      have hx : x.1 = v := by
        rw [hs] at hv
        exact congrArg Prod.fst (Option.some.inj hv)
      have hlarge := (overlong_iff hd).mpr hover
      rw [hx] at hlarge
      exact absurd hsmall (Nat.not_lt.mpr hlarge)
    · intro hshort value next hread
      obtain ⟨⟨v, o⟩, hs, hx⟩ := Option.map_eq_some_iff.mp hread
      cases hx
      obtain ⟨⟨v', rest⟩, hd, hpair⟩ := Option.map_eq_some_iff.mp hs
      have hv : v' = v := congrArg Prod.fst hpair
      have hsmall : v < 2 ^ 32 := by
        have hover := overlong_iff hd
        rw [hshort, hv] at hover
        exact Nat.not_le.mp fun hle => Bool.noConfusion (hover.mp hle)
      refine ⟨v, hs, hsmall, ?_⟩
      rw [UInt32.toNat_ofNat']
      exact Nat.mod_eq_of_lt hsmall
  · constructor
    · rintro hinside ⟨v, o, hs, hwraps, hback⟩
      obtain ⟨-, -, hend⟩ := spelled_inside hs
      have hread : readStr w payload off = some (⟨o, v % 2 ^ 32⟩, (o + v % 2 ^ 32) % 2 ^ w) :=
        (readStr_eq_some hw hlen).mpr ⟨v, hs, rfl, rfl, Or.inr ⟨hwraps, hback⟩⟩
      have hpast : o + v % 2 ^ 32 ≤ payload.length := hinside _ _ hread
      omega
    · intro hno t next hread
      obtain ⟨v, hs, hlength, -, hin | ⟨hwraps, hback⟩⟩ := (readStr_eq_some hw hlen).mp hread
      · exact hin
      · rw [hlength] at hwraps hback
        exact absurd ⟨v, t.start, hs, hwraps, hback⟩ hno

theorem small_varints_exact :
    (readVarU32 32 [7, 0xE5, 0x8E, 0x26, 9] 1 = some (624485, 4) ∧
      readStr 32 [2, 65, 66, 67] 0 = some (⟨1, 2⟩, 3)) ∧
    ((∀ value next, readVarU32 32 [2, 65, 66, 67] 0 = some (value, next) →
        ∃ v, spelled [2, 65, 66, 67] 0 = some (v, next) ∧ v < 2 ^ 32 ∧ value.toNat = v) ∧
      readVarU32 32 ([7, 0xE5, 0x8E, 0x26] ++ [9]) 1 = some (624485, 4)) :=
  ⟨by decide +kernel,
    (((varints_exact 32 (Nat.le_refl _)).2 [2, 65, 66, 67] (by decide) 0).2.1).mpr (by decide +kernel),
    (varints_exact 32 (Nat.le_refl _)).1 [7] [9] 624485 [7, 0xE5, 0x8E, 0x26] (by decide +kernel) (by decide)⟩

/-- The fifth byte loses three bits, and a text of 4294967291 bytes ends where it starts. -/
theorem overlong_and_wrapped_accepted :
    (readVarU32 32 [0xFF, 0xFF, 0xFF, 0xFF, 0x7F] 0 = some (0xFFFFFFFF, 5) ∧
      spelled [0xFF, 0xFF, 0xFF, 0xFF, 0x7F] 0 = some (2 ^ 35 - 1, 5)) ∧
    readStr 32 [0xFB, 0xFF, 0xFF, 0xFF, 0x0F] 0 = some (⟨5, 4294967291⟩, 0) ∧
    [0xFB, 0xFF, 0xFF, 0xFF, 0x0F].length < 5 + 4294967291 := by
  decide +kernel

end Statement

end VarintTlv

end EspNowLink
