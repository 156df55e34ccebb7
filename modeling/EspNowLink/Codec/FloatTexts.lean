import EspNowLink.Codec.BuiltIn
import EspNowLink.Framework.Binary32
import EspNowLink.Framework.Numerals
import EspNowLink.Ota.Versions

open Framework

namespace EspNowLink

def isxdigit (c : UInt8) : Bool := isdigit c || (0x61 ≤ tolower c && tolower c ≤ 0x66)
def isalnum (c : UInt8) : Bool := isdigit c || (0x61 ≤ tolower c && tolower c ≤ 0x7A)

def xdigitValue (c : UInt8) : ℕ := if isdigit c then digitValue c else (tolower c - 0x57).toNat

/-- The two forms of a number that `strtof` reads, the second one behind `0x`. -/
def decimalForm : Numerals UInt8 where
  is_digit := isdigit
  is_decimal := isdigit
  value := digitValue
  base := 10
  power := 10
  places := 1
  point := 0x2E
  plus := 0x2B
  minus := 0x2D
  mark c := tolower c = 0x65

def hexForm : Numerals UInt8 where
  is_digit := isxdigit
  is_decimal := isdigit
  value := xdigitValue
  base := 16
  power := 2
  places := 4
  point := 0x2E
  plus := 0x2B
  minus := 0x2D
  mark c := tolower c = 0x70

section Strtof

/-- The text up to its first NUL, as `c_str` gives it. -/
def cString (s : Bytes) : Bytes := s.takeWhile (· ≠ 0)

def floatCode (form : Numerals UInt8) (x : ℕ × ℤ) : ℕ := Binary32.round (form.numerator x) (form.denominator x)

def kQuietNan : ℕ := 0x7FC00000

def isNan (s : Bytes) : Bool :=
  s.map tolower = ascii "nan" ||
    ((s.take 4).map tolower = ascii "nan(" && (s.drop 4).getLast? = some 0x29 &&
      (s.drop 4).dropLast.all fun c => isalnum c || c = 0x5F)

def readHex : Bytes → Option ℕ
  | zero :: x :: number =>
    if zero = 0x30 ∧ tolower x = 0x78 then (hexForm.read number).map (floatCode hexForm) else none
  | _ => none

/-- The number without its sign, if all of the text is one. No text has two of these forms. -/
def readMagnitude (s : Bytes) : Option ℕ :=
  (((decimalForm.read s).map (floatCode decimalForm)).or (readHex s)).or
    (if s.map tolower = ascii "inf" ∨ s.map tolower = ascii "infinity" then some Binary32.infinity
    else if isNan s then some kQuietNan else none)

def signed (negative : Bool) (q : ℚ) : ℚ := if negative then -q else q

def floatBits (negative : Bool) (code : ℕ) : Float32Bits :=
  UInt32.ofNat (code + if negative then 2 ^ 31 else 0)

/-- `strtof`, and whether it reads the text to its end. Where it reads nothing the end is the start,
so the empty text counts as read. -/
def tryParseFloat (s : Bytes) : Option Float32Bits :=
  let text := cString s
  if text = [] then some 0
  else
    let (negative, number) := decimalForm.sign (text.dropWhile isspace)
    (readMagnitude number).map (floatBits negative)

end Strtof

section Print

def codeOf (x : Float32Bits) : ℕ := x.toNat % 2 ^ 31

def isNegative (x : Float32Bits) : Bool := 2 ^ 31 ≤ x.toNat

def isFinite (x : Float32Bits) : Bool := codeOf x < Binary32.infinity

def floatValue (x : Float32Bits) : ℚ := signed (isNegative x) (Binary32.magnitude (codeOf x))

/-- The float rounded to thousandths. -/
def thousandths (code : ℕ) : ℕ := nearest (Binary32.units code * 1000) (2 ^ 149)

def fixed (t : ℕ) : Bytes :=
  spelling 10 digitByte (t / 1000) ++ 0x2E :: [t / 100 % 10, t / 10 % 10, t % 10].map digitByte

def printMagnitude (code : ℕ) : Bytes :=
  if code < Binary32.infinity then fixed (thousandths code)
  else if code = Binary32.infinity then ascii "inf" else ascii "nan"

def minusIf (negative : Bool) : Bytes := if negative then [0x2D] else []

/-- `snprintf` with `%.3f` into 24 bytes, the last of them the NUL. -/
def printFloat (x : Float32Bits) : Bytes := (minusIf (isNegative x) ++ printMagnitude (codeOf x)).take 23

/-- The float texts of the C library. -/
def libraryFloats : FloatText := ⟨tryParseFloat, printFloat⟩

end Print

/-- The value of a text that is a decimal number. -/
def decimalValue (s : Bytes) : Option ℚ :=
  let (negative, number) := decimalForm.sign s
  (decimalForm.read number).map fun x => signed negative (decimalForm.worth x)

/-- A 32-bit float printed with three decimals: half of its last place, and half a thousandth. -/
def formatPrecision (q : ℚ) : ℚ := 1 / 2000 + max (|q| / 2 ^ 24) (1 / 2 ^ 150)

/-- What a value text may come back as. -/
structure Denotes (text text' : Bytes) : Prop where
  number : ∀ q, decimalValue text = some q →
    ∃ q', decimalValue text' = some q' ∧ |q' - q| ≤ formatPrecision q
  other : decimalValue text = none → text' = text

def specialFloats : List Bytes := [ascii "inf", ascii "-inf", ascii "nan", ascii "-nan"]

/-- A text that reads as a float is a special one as it is printed, or a decimal number whose float has at
most 23 characters before the point. -/
def PrintsBack (text : Bytes) : Prop :=
  text ∈ specialFloats ∨ (decimalValue text ≠ none ∧ ∃ x, tryParseFloat text = some x ∧ isFinite x = true ∧
    -10 ^ 22 < floatValue x ∧ floatValue x < 10 ^ 23)

section Printed

theorem digits_spelling (n : ℕ) : ∀ c ∈ spelling 10 digitByte n, decimalForm.is_digit c = true :=
  mem_spelling (by decide) (fun d hd => (digitByte_facts d hd).1) n

theorem number_spelling (n : ℕ) : numberOf decimalForm.value decimalForm.base (spelling 10 digitByte n) = n :=
  numberOf_spelling (by decide) (fun d hd => (digitByte_facts d hd).2) n

theorem fraction_facts (t : ℕ) :
    (∀ c ∈ [t / 100 % 10, t / 10 % 10, t % 10].map digitByte, decimalForm.is_digit c = true) ∧
      numberOf decimalForm.value decimalForm.base ([t / 100 % 10, t / 10 % 10, t % 10].map digitByte) =
        t % 1000 := by
  have hdigit : ∀ n, isdigit (digitByte (n % 10)) = true ∧ digitValue (digitByte (n % 10)) = n % 10 :=
    fun n => digitByte_facts _ (Nat.mod_lt n (by decide))
  constructor
  · intro c hc
    obtain ⟨d, hd, rfl⟩ := List.mem_map.mp hc
    simp only [List.mem_cons, List.not_mem_nil, or_false] at hd
    rcases hd with rfl | rfl | rfl <;> exact (hdigit _).1
  · have hvalue : ∀ n, decimalForm.value (digitByte (n % 10)) = n % 10 := fun n => (hdigit n).2
    simp only [numberOf, List.map_cons, List.map_nil, List.foldl_cons, List.foldl_nil, hvalue]
    change (((0 * 10 + t / 100 % 10) * 10 + t / 10 % 10) * 10 + t % 10) = t % 1000
    omega

/-- Nothing is cut off. -/
theorem read_fixed (t : ℕ) : ∃ y, decimalForm.read (fixed t) = some y ∧ decimalForm.worth y = t / 1000 := by
  obtain ⟨hpart, hnumber⟩ := fraction_facts t
  refine ⟨_, Numerals.read_point (digits_spelling _) (spelling_ne_nil _) hpart (by decide), ?_⟩
  have hall : numberOf decimalForm.value decimalForm.base
      (spelling 10 digitByte (t / 1000) ++ [t / 100 % 10, t / 10 % 10, t % 10].map digitByte) = t := by
    rw [numberOf_append, hnumber, number_spelling]
    change t / 1000 * 10 ^ 3 + t % 1000 = t
    omega
  rw [hall]
  change (t : ℚ) * (10 : ℚ) ^ (-3 : ℤ) = t / 1000
  norm_num
  ring

/-- A whole number keeps its value, wherever behind its digits it is cut. -/
theorem read_whole {m room : ℕ} (h : (spelling 10 digitByte m).length ≤ room) :
    ∃ y, decimalForm.read ((fixed (m * 1000)).take room) = some y ∧ decimalForm.worth y = m := by
  have hdiv : m * 1000 / 1000 = m := Nat.mul_div_cancel m (by decide)
  have hzeros : [m * 1000 / 100 % 10, m * 1000 / 10 % 10, m * 1000 % 10].map digitByte =
      List.replicate 3 0x30 := by
    have h0 : m * 1000 / 100 % 10 = 0 := by omega
    have h1 : m * 1000 / 10 % 10 = 0 := by omega
    have h2 : m * 1000 % 10 = 0 := by omega
    rw [h0, h1, h2]
    rfl
  have htake : (fixed (m * 1000)).take room =
      spelling 10 digitByte m ++ (0x2E :: List.replicate 3 0x30).take (room - (spelling 10 digitByte m).length) := by
    rw [fixed, hdiv, hzeros, List.take_append, List.take_of_length_le h]
  rw [htake]
  cases room - (spelling 10 digitByte m).length with
  | zero =>
    refine ⟨_, by rw [List.take_zero, List.append_nil]
                  exact Numerals.read_digits (digits_spelling m) (spelling_ne_nil m), ?_⟩
    rw [number_spelling]
    simp [Numerals.worth]
  | succ i =>
    rw [List.take_succ_cons, List.take_replicate]
    have hpart : ∀ c ∈ List.replicate (min i 3) (0x30 : UInt8), decimalForm.is_digit c = true := by
      intro c hc
      rw [List.eq_of_mem_replicate hc]
      decide
    refine ⟨_, Numerals.read_point (digits_spelling m) (spelling_ne_nil m) hpart (by decide), ?_⟩
    have hnumber : ∀ k, numberOf decimalForm.value decimalForm.base (List.replicate k (0x30 : UInt8)) = 0 := by
      intro k
      induction k with
      | zero => rfl
      | succ k ih => rw [List.replicate_succ', numberOf_concat, ih]; rfl
    rw [numberOf_append, hnumber, number_spelling, List.length_replicate]
    change ((m * 10 ^ (min i 3) + 0 : ℕ) : ℚ) * (10 : ℚ) ^ (-(((1 : ℕ) : ℤ) * (min i 3 : ℕ))) = m
    rw [Nat.cast_one, one_mul, zpow_neg, zpow_natCast]
    push_cast
    field_simp
    ring

/-- A number cut among its digits loses one at least. -/
theorem read_short {t room : ℕ} (hroom : 0 < room) (h : room < (spelling 10 digitByte (t / 1000)).length) :
    ∃ y, decimalForm.read ((fixed t).take room) = some y ∧ 10 * decimalForm.worth y ≤ (t / 1000 : ℕ) := by
  have htake : (fixed t).take room = (spelling 10 digitByte (t / 1000)).take room := by
    rw [fixed, List.take_append, Nat.sub_eq_zero_of_le h.le, List.take_zero, List.append_nil]
  have hdigits : ∀ c ∈ (spelling 10 digitByte (t / 1000)).take room, decimalForm.is_digit c = true :=
    fun c hc => digits_spelling _ c (List.mem_of_mem_take hc)
  have hne : (spelling 10 digitByte (t / 1000)).take room ≠ [] := by
    intro hnil
    have hlen := congrArg List.length hnil
    rw [List.length_take, List.length_nil] at hlen
    omega
  rw [htake]
  refine ⟨_, Numerals.read_digits hdigits hne, ?_⟩
  have hall := number_spelling (t / 1000)
  rw [← List.take_append_drop room (spelling 10 digitByte (t / 1000)), numberOf_append, List.length_drop] at hall
  have hpow : 10 ^ 1 ≤ decimalForm.base ^ ((spelling 10 digitByte (t / 1000)).length - room) :=
    Nat.pow_le_pow_right (by decide) (by omega)
  have hten : 10 * numberOf decimalForm.value decimalForm.base ((spelling 10 digitByte (t / 1000)).take room) ≤
      t / 1000 := by
    rw [Nat.mul_comm]
    exact Nat.le_trans (Nat.mul_le_mul_left _ hpow) (by omega)
  simp only [Numerals.worth, zpow_zero, mul_one]
  exact_mod_cast hten

end Printed

section Magnitudes

variable {code room : ℕ}

theorem magnitude_eq (code : ℕ) : Binary32.magnitude code = Binary32.units code / 2 ^ 149 := rfl

theorem abs_thousandths_sub_le (code : ℕ) :
    |(thousandths code : ℚ) / 1000 - Binary32.magnitude code| ≤ 1 / 2000 := by
  have hnear := abs_nearest_sub_le (Binary32.units code * 1000) (d := 2 ^ 149) (by positivity)
  have hcast : ((Binary32.units code * 1000 : ℕ) : ℚ) / ((2 ^ 149 : ℕ) : ℚ) =
      Binary32.magnitude code * 1000 := by
    rw [magnitude_eq, Nat.cast_mul, Nat.cast_pow, Nat.cast_ofNat, Nat.cast_ofNat, mul_div_right_comm]
  rw [hcast, abs_le] at hnear
  rw [abs_le]
  unfold thousandths
  constructor <;> linarith [hnear.1, hnear.2]

/-- From `2 ^ 24` on the thousandths are exact. -/
theorem thousandths_whole (h : 2 ^ 24 ≤ Binary32.magnitude code) :
    ∃ m : ℕ, thousandths code = m * 1000 ∧ Binary32.magnitude code = m := by
  have hunits : 2 ^ 173 ≤ Binary32.units code := by
    rw [magnitude_eq, le_div_iff₀ (by positivity), ← pow_add] at h
    exact_mod_cast h
  obtain ⟨m, hm⟩ := Binary32.units_whole hunits
  refine ⟨m, ?_, ?_⟩
  · have hcomm : Binary32.units code * 1000 = m * 1000 * 2 ^ 149 := by
      rw [hm, Nat.mul_right_comm]
    rw [thousandths, hcomm, nearest_mul _ (by positivity)]
  · rw [magnitude_eq, hm, Nat.cast_mul, Nat.cast_pow, Nat.cast_ofNat]
    exact mul_div_cancel_right₀ _ (by positivity)

theorem length_spelled {m k : ℕ} (hk : 0 < k) : (spelling 10 digitByte m).length ≤ k ↔ m < 10 ^ k :=
  length_spelling_le (by decide) hk m

/-- A float whose digits before the point have room comes out to the thousandth. -/
theorem read_printed (hroom : 22 ≤ room) (hlt : Binary32.magnitude code < 10 ^ room) :
    ∃ y, decimalForm.read ((fixed (thousandths code)).take room) = some y ∧
      |decimalForm.worth y - Binary32.magnitude code| ≤ 1 / 2000 := by
  by_cases hlarge : 2 ^ 24 ≤ Binary32.magnitude code
  · obtain ⟨m, hm, hmag⟩ := thousandths_whole hlarge
    have hdigits : m < 10 ^ room := by
      rw [hmag] at hlt
      exact_mod_cast hlt
    obtain ⟨y, hread, hworth⟩ := read_whole ((length_spelled (by omega)).mpr hdigits)
    refine ⟨y, by rw [hm, hread], ?_⟩
    rw [hworth, hmag, sub_self, abs_zero]
    norm_num
  · obtain ⟨-, hnear⟩ := abs_le.mp (abs_thousandths_sub_le code)
    have hsmall : (thousandths code : ℚ) < 16777217000 := by
      have hbound := not_le.mp hlarge
      norm_num at hbound
      linarith
    have hthousandths : thousandths code < 16777217000 := by exact_mod_cast hsmall
    have hlen : (spelling 10 digitByte (thousandths code / 1000)).length ≤ 8 :=
      (length_spelled (by decide)).mpr (by omega)
    have htake : (fixed (thousandths code)).take room = fixed (thousandths code) := by
      apply List.take_of_length_le
      simp only [fixed, List.length_append, List.length_cons, List.length_map, List.length_nil]
      omega
    obtain ⟨y, hread, hworth⟩ := read_fixed (thousandths code)
    refine ⟨y, by rw [htake, hread], ?_⟩
    rw [hworth]
    exact abs_thousandths_sub_le code

/-- A larger one comes out ten times too small, or more. -/
theorem read_cut (hroom : 22 ≤ room) (hle : 10 ^ room ≤ Binary32.magnitude code) :
    ∃ y, decimalForm.read ((fixed (thousandths code)).take room) = some y ∧
      10 * decimalForm.worth y ≤ Binary32.magnitude code := by
  have hlarge : 2 ^ 24 ≤ Binary32.magnitude code := by
    have hpow : (10 : ℚ) ^ 22 ≤ 10 ^ room := pow_le_pow_right₀ (by norm_num) hroom
    exact le_trans (by norm_num) (le_trans hpow hle)
  obtain ⟨m, hm, hmag⟩ := thousandths_whole hlarge
  have hdiv : thousandths code / 1000 = m := by rw [hm, Nat.mul_div_cancel m (by decide)]
  have hlong : room < (spelling 10 digitByte (thousandths code / 1000)).length := by
    rw [hmag] at hle
    rw [hdiv, ← not_le, length_spelled (by omega), not_lt]
    exact_mod_cast hle
  obtain ⟨y, hread, hworth⟩ := read_short (by omega) hlong
  refine ⟨y, hread, ?_⟩
  rw [hmag]
  rwa [hdiv] at hworth

end Magnitudes

section Bits

variable {negative : Bool} {code : ℕ}

theorem floatBits_facts (negative : Bool) (h : code < 2 ^ 31) :
    codeOf (floatBits negative code) = code ∧ isNegative (floatBits negative code) = negative := by
  unfold codeOf isNegative floatBits
  cases negative with
  | false =>
    have hbits : (UInt32.ofNat (code + 0)).toNat = code := by
      rw [UInt32.toNat_ofNat']
      omega
    simp only [Bool.false_eq_true, if_false, hbits]
    exact ⟨Nat.mod_eq_of_lt h, decide_eq_false (by omega)⟩
  | true =>
    have hbits : (UInt32.ofNat (code + 2 ^ 31)).toNat = code + 2 ^ 31 := by
      rw [UInt32.toNat_ofNat']
      omega
    simp only [if_true, hbits]
    exact ⟨by omega, decide_eq_true (by omega)⟩

/-- The characters that a print leaves for the number. -/
def roomFor (negative : Bool) : ℕ := if negative then 22 else 23

theorem le_roomFor (negative : Bool) : 22 ≤ roomFor negative := by
  cases negative <;> decide

theorem printFloat_eq (x : Float32Bits) :
    printFloat x = minusIf (isNegative x) ++ (printMagnitude (codeOf x)).take (roomFor (isNegative x)) := by
  unfold printFloat
  cases isNegative x <;> rfl

theorem sign_minusIf {text : Bytes} {y : ℕ × ℤ} (h : decimalForm.read text = some y) :
    decimalForm.sign (minusIf negative ++ text) = (negative, text) := by
  cases negative with
  | true => rfl
  | false =>
    obtain ⟨c, rest, rfl, hhead⟩ := Numerals.head_of_read h
    have hminus : c ≠ decimalForm.minus := by
      rintro rfl
      exact absurd hhead (by decide)
    have hplus : c ≠ decimalForm.plus := by
      rintro rfl
      exact absurd hhead (by decide)
    change decimalForm.sign (c :: rest) = (false, c :: rest)
    rw [Numerals.sign, if_neg hminus, if_neg hplus]

/-- The value of what a finite float prints as. -/
theorem decimalValue_print {x : Float32Bits} {y : ℕ × ℤ} (hfinite : isFinite x = true)
    (h : decimalForm.read ((fixed (thousandths (codeOf x))).take (roomFor (isNegative x))) = some y) :
    decimalValue (printFloat x) = some (signed (isNegative x) (decimalForm.worth y)) := by
  have hcode : codeOf x < Binary32.infinity := of_decide_eq_true hfinite
  rw [printFloat_eq, printMagnitude, if_pos hcode]
  simp only [decimalValue, sign_minusIf h, h, Option.map_some]

theorem decimalValue_print_ne_none {x : Float32Bits} (hfinite : isFinite x = true) :
    decimalValue (printFloat x) ≠ none := by
  rcases lt_or_ge (Binary32.magnitude (codeOf x)) (10 ^ roomFor (isNegative x)) with hlt | hle
  · obtain ⟨y, hread, -⟩ := read_printed (le_roomFor _) hlt
    rw [decimalValue_print hfinite hread]
    exact Option.some_ne_none _
  · obtain ⟨y, hread, -⟩ := read_cut (le_roomFor _) hle
    rw [decimalValue_print hfinite hread]
    exact Option.some_ne_none _

/-- What is not finite prints as a special text. -/
theorem print_special {x : Float32Bits} (h : isFinite x = false) : printFloat x ∈ specialFloats := by
  have hcode : ¬ codeOf x < Binary32.infinity := of_decide_eq_false h
  rw [printFloat_eq, printMagnitude, if_neg hcode]
  by_cases hinf : codeOf x = Binary32.infinity
  · rw [if_pos hinf]
    cases isNegative x <;> decide
  · rw [if_neg hinf]
    cases isNegative x <;> decide

theorem decimalValue_special {text : Bytes} (h : text ∈ specialFloats) : decimalValue text = none := by
  have hread : ∀ s ∈ specialFloats, decimalForm.read (decimalForm.sign s).2 = none := by decide
  simp only [decimalValue, hread text h, Option.map_none]

/-- The special texts come back as they are. -/
theorem print_of_special : ∀ text ∈ specialFloats, (tryParseFloat text).map printFloat = some text := by
  decide +kernel

theorem magnitude_nonneg (code : ℕ) : 0 ≤ Binary32.magnitude code := by
  unfold Binary32.magnitude
  positivity

theorem inRange_iff (x : Float32Bits) : (-10 ^ 22 < floatValue x ∧ floatValue x < 10 ^ 23) ↔
    Binary32.magnitude (codeOf x) < 10 ^ roomFor (isNegative x) := by
  have hnonneg := magnitude_nonneg (codeOf x)
  unfold floatValue signed roomFor
  cases isNegative x with
  | true =>
    simp only [if_true, neg_lt_neg_iff]
    constructor
    · rintro ⟨h, -⟩
      exact h
    · intro h
      exact ⟨h, by linarith⟩
  | false =>
    simp only [Bool.false_eq_true, if_false]
    constructor
    · rintro ⟨-, h⟩
      exact h
    · intro h
      exact ⟨by linarith, h⟩

theorem abs_signed_sub (negative : Bool) (a b : ℚ) : |signed negative a - signed negative b| = |a - b| := by
  cases negative with
  | true =>
    have hneg : signed true a - signed true b = -(a - b) := by
      simp only [signed, if_true]
      ring
    rw [hneg, abs_neg]
  | false => rfl

end Bits

section Denotes

variable {text : Bytes} {x : Float32Bits}

/-- A decimal number is read to its end, as the float nearest to it. -/
theorem tryParseFloat_decimal {negative : Bool} {number : Bytes} {y : ℕ × ℤ}
    (hsign : decimalForm.sign text = (negative, number)) (hread : decimalForm.read number = some y) :
    tryParseFloat text = some (floatBits negative (floatCode decimalForm y)) := by
  have hletters : ∀ c ∈ text, decimalForm.letter c = true := by
    apply Numerals.letter_of_sign
    rw [hsign]
    exact Numerals.letter_of_read hread
  have hcstring : cString text = text := by
    apply List.takeWhile_eq_self_iff.mpr
    intro c hc
    have hletter := hletters c hc
    apply decide_eq_true
    rintro rfl
    exact absurd hletter (by decide)
  obtain ⟨a, rest, hnumber, hhead⟩ := Numerals.head_of_read hread
  obtain ⟨c, tail, rfl, hspace⟩ : ∃ c tail, text = c :: tail ∧ isspace c = false := by
    cases text with
    | nil =>
      rw [Numerals.sign] at hsign
      obtain ⟨-, rfl⟩ := Prod.mk.inj hsign
      cases hnumber
    | cons c tail =>
      refine ⟨c, tail, rfl, ?_⟩
      rw [Numerals.sign] at hsign
      split_ifs at hsign with hminus hplus
      · rw [hminus]
        rfl
      · rw [hplus]
        rfl
      · obtain ⟨-, rfl⟩ := Prod.mk.inj hsign
        obtain ⟨rfl, -⟩ := List.cons.inj hnumber
        rcases hhead with hdigit | rfl
        · by_contra hspace
          have hother := isdigit_of_isspace c (Bool.eq_true_of_not_eq_false hspace)
          exact Bool.false_ne_true (hother.symm.trans hdigit)
        · rfl
  have hskip : (c :: tail).dropWhile isspace = c :: tail := by
    rw [List.dropWhile_cons, hspace]
    rfl
  simp only [tryParseFloat, hcstring, reduceCtorEq, if_false, hskip, hsign, readMagnitude, hread,
    Option.map_some, Option.some_or]

/-- Where the float is within half of its last place of a number, the print is within the precision of
the format exactly when the digits before the point have room. -/
theorem printed_near_iff {w : ℚ} (hfinite : isFinite x = true) (hw : 0 ≤ w)
    (hround : |Binary32.magnitude (codeOf x) - w| ≤ max (w / 2 ^ 24) (1 / 2 ^ 150)) :
    (∃ q', decimalValue (printFloat x) = some q' ∧
      |q' - signed (isNegative x) w| ≤ 1 / 2000 + max (w / 2 ^ 24) (1 / 2 ^ 150)) ↔
    Binary32.magnitude (codeOf x) < 10 ^ roomFor (isNegative x) := by
  rcases lt_or_ge (Binary32.magnitude (codeOf x)) (10 ^ roomFor (isNegative x)) with hroom | hroom
  · obtain ⟨z, hz, hnear⟩ := read_printed (le_roomFor _) hroom
    refine ⟨fun _ => hroom, fun _ => ⟨_, decimalValue_print hfinite hz, ?_⟩⟩
    rw [abs_signed_sub]
    have htriangle := abs_sub_le (decimalForm.worth z) (Binary32.magnitude (codeOf x)) w
    linarith
  · constructor
    · rintro ⟨q', hq', hnear⟩
      exfalso
      obtain ⟨z, hz, hcut⟩ := read_cut (le_roomFor _) hroom
      rw [decimalValue_print hfinite hz] at hq'
      rw [← Option.some.inj hq', abs_signed_sub] at hnear
      have hbig : (10 : ℚ) ^ 22 ≤ 10 ^ roomFor (isNegative x) := pow_le_pow_right₀ (by norm_num) (le_roomFor _)
      have hlarge : (10 : ℚ) ^ 22 ≤ Binary32.magnitude (codeOf x) := le_trans hbig hroom
      have hmax : max (w / 2 ^ 24) (1 / 2 ^ 150) ≤ w / 2 ^ 24 + 1 := by
        have hfirst : 0 ≤ w / 2 ^ 24 := by positivity
        have hsecond : (1 : ℚ) / 2 ^ 150 ≤ 1 := by norm_num
        apply max_le <;> linarith
      have hup := (abs_le.mp hround).2
      have hdown := (abs_le.mp hnear).1
      generalize max (w / 2 ^ 24) (1 / 2 ^ 150) = m at hmax hup hdown
      linarith
    · intro hlt
      exact absurd hlt (not_lt.mpr hroom)

/-- A text that is no number comes back only as a special one. -/
theorem denotes_other_iff (hparse : tryParseFloat text = some x) (hvalue : decimalValue text = none) :
    Denotes text (printFloat x) ↔ PrintsBack text := by
  constructor
  · rintro ⟨-, hother⟩
    have hprint := hother hvalue
    left
    cases hfinite : isFinite x with
    | true => exact absurd (hprint ▸ hvalue) (decimalValue_print_ne_none hfinite)
    | false => exact hprint ▸ print_special hfinite
  · rintro (hspecial | ⟨hnumber, -⟩)
    · have hprint := print_of_special text hspecial
      rw [hparse] at hprint
      refine ⟨?_, fun _ => Option.some.inj hprint⟩
      intro q hq
      rw [hvalue] at hq
      cases hq
    · exact absurd hvalue hnumber

/-- A number comes back exactly when its float is finite and has room. -/
theorem printsBack_number {q : ℚ} (hparse : tryParseFloat text = some x) (hvalue : decimalValue text = some q) :
    PrintsBack text ↔
      isFinite x = true ∧ Binary32.magnitude (codeOf x) < 10 ^ roomFor (isNegative x) := by
  rw [← inRange_iff]
  constructor
  · rintro (hspecial | ⟨-, x', hx', hfinite, hrange⟩)
    · rw [decimalValue_special hspecial] at hvalue
      cases hvalue
    · obtain rfl : x = x' := Option.some.inj (hparse.symm.trans hx')
      exact ⟨hfinite, hrange⟩
  · rintro ⟨hfinite, hrange⟩
    refine Or.inr ⟨?_, x, hparse, hfinite, hrange⟩
    rw [hvalue]
    exact Option.some_ne_none q

theorem denotes_number {text' : Bytes} {q : ℚ} (hvalue : decimalValue text = some q) :
    Denotes text text' ↔ ∃ q', decimalValue text' = some q' ∧ |q' - q| ≤ formatPrecision q := by
  constructor
  · intro h
    exact h.number q hvalue
  · intro h
    refine ⟨?_, ?_⟩
    · intro q'' hq''
      obtain rfl : q = q'' := Option.some.inj (hvalue.symm.trans hq'')
      exact h
    · intro hnone
      rw [hvalue] at hnone
      cases hnone

theorem abs_signed (negative : Bool) {w : ℚ} (hw : 0 ≤ w) : |signed negative w| = w := by
  cases negative with
  | true => rw [signed, if_pos rfl, abs_neg, abs_of_nonneg hw]
  | false => exact abs_of_nonneg hw

/-- A float text stands for the text that it was read from exactly when it is one that prints back. -/
theorem denotes_print_iff (hparse : tryParseFloat text = some x) :
    Denotes text (printFloat x) ↔ PrintsBack text := by
  cases hvalue : decimalValue text with
  | none => exact denotes_other_iff hparse hvalue
  | some q =>
    obtain ⟨⟨negative, number⟩, hsign⟩ : ∃ s, decimalForm.sign text = s := ⟨_, rfl⟩
    obtain ⟨y, hread, hq⟩ : ∃ y, decimalForm.read number = some y ∧ signed negative (decimalForm.worth y) = q := by
      simp only [decimalValue, hsign] at hvalue
      exact Option.map_eq_some_iff.mp hvalue
    have hx : floatBits negative (floatCode decimalForm y) = x := by
      rw [tryParseFloat_decimal hsign hread] at hparse
      exact Option.some.inj hparse
    have hcode : floatCode decimalForm y < 2 ^ 31 := Nat.lt_of_le_of_lt (Binary32.round_le _ _) (by decide)
    obtain ⟨hcodeOf, hnegative⟩ := floatBits_facts negative hcode
    rw [hx] at hcodeOf hnegative
    have hworth : 0 ≤ decimalForm.worth y := Numerals.worth_nonneg y
    rw [printsBack_number hparse hvalue, denotes_number hvalue]
    cases hfinite : isFinite x with
    | false =>
      constructor
      · rintro ⟨q', hq', -⟩
        rw [decimalValue_special (print_special hfinite)] at hq'
        cases hq'
      · rintro ⟨h, -⟩
        cases h
    | true =>
      have hlt : floatCode decimalForm y < Binary32.infinity := by
        rw [← hcodeOf]
        exact of_decide_eq_true hfinite
      have hround : |Binary32.magnitude (codeOf x) - decimalForm.worth y| ≤
          max (decimalForm.worth y / 2 ^ 24) (1 / 2 ^ 150) := by
        have hnear := Binary32.abs_round_sub_le (Numerals.denominator_pos (by decide) y) hlt
        rw [Numerals.numerator_div_denominator (by decide)] at hnear
        rw [hcodeOf]
        exact hnear
      have hprinted := printed_near_iff hfinite hworth hround
      rw [hnegative, hq] at hprinted
      have habs : |q| = decimalForm.worth y := by rw [← hq, abs_signed negative hworth]
      rw [formatPrecision, habs, hprinted]
      exact ⟨fun h => ⟨rfl, hnegative ▸ h⟩, fun h => hnegative ▸ h.2⟩

end Denotes

end EspNowLink
