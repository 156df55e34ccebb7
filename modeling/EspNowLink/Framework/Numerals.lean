import EspNowLink.Framework.DigitRuns
import Mathlib.Algebra.Order.Field.Rat
import Mathlib.Algebra.Order.Field.Power
import Mathlib.Data.List.TakeWhile
import Mathlib.Data.Nat.Digits.Lemmas
import Mathlib.Tactic.Ring

namespace Framework

/-- How numbers are written: digits with a point among them, a mark before the exponent, and signs. The
exponent is in decimal digits and counts powers of `power`; a digit is worth `places` of them. -/
structure Numerals (β : Type*) where
  is_digit : β → Bool
  is_decimal : β → Bool
  value : β → ℕ
  base : ℕ
  power : ℕ
  places : ℕ
  point : β
  plus : β
  minus : β
  mark : β → Bool

namespace Numerals

variable {β : Type*} (N : Numerals β)

section Worth

/-- What mantissa and power stand for, as a quotient of natural numbers and as a rational. -/
def numerator (x : ℕ × ℤ) : ℕ := x.1 * N.power ^ x.2.toNat

def denominator (x : ℕ × ℤ) : ℕ := N.power ^ (-x.2).toNat

def worth (x : ℕ × ℤ) : ℚ := x.1 * (N.power : ℚ) ^ x.2

variable {N}

theorem denominator_pos (hpower : 0 < N.power) (x : ℕ × ℤ) : 0 < N.denominator x := Nat.pow_pos hpower

theorem numerator_div_denominator (hpower : 0 < N.power) (x : ℕ × ℤ) :
    (N.numerator x : ℚ) / N.denominator x = N.worth x := by
  have hne : (N.power : ℚ) ≠ 0 := by exact_mod_cast hpower.ne'
  have hexp : x.2 = (x.2.toNat : ℤ) - ((-x.2).toNat : ℤ) := by omega
  unfold numerator denominator worth
  conv_rhs => rw [hexp, zpow_sub₀ hne, zpow_natCast, zpow_natCast]
  push_cast
  ring

theorem worth_nonneg (x : ℕ × ℤ) : 0 ≤ N.worth x :=
  mul_nonneg (Nat.cast_nonneg _) (zpow_nonneg (Nat.cast_nonneg _) _)

end Worth

variable [DecidableEq β]

/-- Whether there is a minus, and what follows the sign. -/
def sign : List β → Bool × List β
  | [] => (false, [])
  | c :: rest =>
    if c = N.minus then (true, rest) else if c = N.plus then (false, rest) else (false, c :: rest)

/-- The digits after a point, and what follows them. -/
def fraction : List β → List β × List β
  | [] => ([], [])
  | c :: rest =>
    if c = N.point then (rest.takeWhile N.is_digit, rest.dropWhile N.is_digit) else ([], c :: rest)

/-- All the rest is the exponent. -/
def exponent : List β → Option ℤ
  | [] => some 0
  | c :: rest =>
    let (negative, digits) := N.sign rest
    if N.mark c ∧ digits ≠ [] ∧ digits.all N.is_decimal then
      let n := numberOf N.value 10 digits
      some (if negative then -n else n)
    else none

/-- The whole text as an unsigned number: a mantissa and the power that it is multiplied by. -/
def read (v : List β) : Option (ℕ × ℤ) :=
  let whole := v.takeWhile N.is_digit
  let (fraction, rest) := N.fraction (v.dropWhile N.is_digit)
  if whole = [] ∧ fraction = [] then none
  else (N.exponent rest).map fun e =>
    (numberOf N.value N.base (whole ++ fraction), e - N.places * fraction.length)

variable {N}

section Letters

/-- The letters of a number. -/
def letter (c : β) : Bool :=
  N.is_digit c || N.is_decimal c || N.mark c || c = N.point || c = N.plus || c = N.minus

theorem letter_of_sign {v : List β} (h : ∀ c ∈ (N.sign v).2, N.letter c = true) :
    ∀ c ∈ v, N.letter c = true := by
  cases v with
  | nil => exact h
  | cons a rest =>
    simp only [sign] at h
    split_ifs at h with hminus hplus
    · intro c hc
      rcases List.mem_cons.mp hc with rfl | hc
      · simp [letter, hminus]
      · exact h c hc
    · intro c hc
      rcases List.mem_cons.mp hc with rfl | hc
      · simp [letter, hplus]
      · exact h c hc
    · exact h

theorem letter_of_exponent {v : List β} {e : ℤ} (h : N.exponent v = some e) :
    ∀ c ∈ v, N.letter c = true := by
  cases v with
  | nil =>
    intro c hc
    cases hc
  | cons a rest =>
    unfold exponent at h
    dsimp only at h
    split at h
    · rename_i hall
      obtain ⟨hmark, -, hdigits⟩ := hall
      have hrest : ∀ c ∈ rest, N.letter c = true := by
        apply letter_of_sign
        intro c hc
        have hdecimal := List.all_eq_true.mp hdigits c hc
        simp [letter, hdecimal]
      intro c hc
      rcases List.mem_cons.mp hc with rfl | hc
      · simp [letter, hmark]
      · exact hrest c hc
    · cases h

theorem letter_of_fraction {v : List β} (h : ∀ c ∈ (N.fraction v).2, N.letter c = true) :
    ∀ c ∈ v, N.letter c = true := by
  cases v with
  | nil => exact h
  | cons a rest =>
    simp only [fraction] at h
    split_ifs at h with hpoint
    · intro c hc
      rcases List.mem_cons.mp hc with rfl | hc
      · simp [letter, hpoint]
      · rw [← List.takeWhile_append_dropWhile (p := N.is_digit) (l := rest)] at hc
        rcases List.mem_append.mp hc with hc | hc
        · simp [letter, List.mem_takeWhile_imp hc]
        · exact h c hc
    · exact h

theorem letter_of_read {v : List β} {x : ℕ × ℤ} (h : N.read v = some x) : ∀ c ∈ v, N.letter c = true := by
  unfold read at h
  dsimp only at h
  split at h
  · cases h
  · obtain ⟨e, he, -⟩ := Option.map_eq_some_iff.mp h
    have hrest := letter_of_fraction (letter_of_exponent he)
    intro c hc
    rw [← List.takeWhile_append_dropWhile (p := N.is_digit) (l := v)] at hc
    rcases List.mem_append.mp hc with hc | hc
    · simp [letter, List.mem_takeWhile_imp hc]
    · exact hrest c hc

/-- A number has a digit or a point in front. -/
theorem head_of_read {v : List β} {x : ℕ × ℤ} (h : N.read v = some x) :
    ∃ c rest, v = c :: rest ∧ (N.is_digit c = true ∨ c = N.point) := by
  cases v with
  | nil => simp [read, fraction] at h
  | cons c rest =>
    refine ⟨c, rest, rfl, ?_⟩
    by_contra hother
    obtain ⟨hdigit, hpoint⟩ := not_or.mp hother
    simp [read, fraction, hdigit, hpoint] at h

end Letters

section Written

variable {whole part : List β}

/-- Digits, and digits behind a point if there is one. -/
theorem read_digits (hwhole : ∀ c ∈ whole, N.is_digit c = true) (hne : whole ≠ []) :
    N.read whole = some (numberOf N.value N.base whole, 0) := by
  have htake : whole.takeWhile N.is_digit = whole := List.takeWhile_eq_self_iff.mpr hwhole
  have hdrop : whole.dropWhile N.is_digit = [] := List.dropWhile_eq_nil_iff.mpr hwhole
  simp [read, htake, hdrop, fraction, exponent, hne]

theorem read_point (hwhole : ∀ c ∈ whole, N.is_digit c = true) (hne : whole ≠ [])
    (hpart : ∀ c ∈ part, N.is_digit c = true) (hpoint : N.is_digit N.point = false) :
    N.read (whole ++ N.point :: part) =
      some (numberOf N.value N.base (whole ++ part), -((N.places : ℤ) * part.length)) := by
  have htake : (whole ++ N.point :: part).takeWhile N.is_digit = whole := by
    rw [List.takeWhile_append_of_pos hwhole, List.takeWhile_cons, hpoint]
    simp
  have hdrop : (whole ++ N.point :: part).dropWhile N.is_digit = N.point :: part := by
    rw [List.dropWhile_append_of_pos hwhole, List.dropWhile_cons, hpoint]
    simp
  have htake' : part.takeWhile N.is_digit = part := List.takeWhile_eq_self_iff.mpr hpart
  have hdrop' : part.dropWhile N.is_digit = [] := List.dropWhile_eq_nil_iff.mpr hpart
  simp [read, htake, hdrop, htake', hdrop', fraction, exponent, hne]

end Written

end Numerals

section Spelling

variable {β : Type*} {is_digit : β → Bool} {value : β → ℕ} {digit : ℕ → β} {base : ℕ}

theorem numberOf_append (a b : List β) :
    numberOf value base (a ++ b) = numberOf value base a * base ^ b.length + numberOf value base b := by
  induction b using List.reverseRecOn with
  | nil => simp
  | append_singleton b c ih =>
    rw [← List.append_assoc, numberOf_concat, numberOf_concat, ih, List.length_append, List.length_singleton,
      Nat.pow_succ]
    ring

/-- A number in digits, without a zero before them. -/
def spelling (base : ℕ) (digit : ℕ → β) (n : ℕ) : List β :=
  if n = 0 then [digit 0] else (Nat.digits base n).reverse.map digit

theorem spelling_ne_nil (n : ℕ) : spelling base digit n ≠ [] := by
  unfold spelling
  split
  · exact List.cons_ne_nil _ _
  · rename_i hn
    simp [Nat.digits_ne_nil_iff_ne_zero, hn]

theorem mem_spelling (hbase : 1 < base) (hdigit : ∀ d < base, is_digit (digit d) = true) (n : ℕ) :
    ∀ c ∈ spelling base digit n, is_digit c = true := by
  intro c hc
  unfold spelling at hc
  split at hc
  · rw [List.mem_singleton.mp hc]
    exact hdigit 0 (by omega)
  · obtain ⟨d, hd, rfl⟩ := List.mem_map.mp hc
    exact hdigit d (Nat.digits_lt_base hbase (List.mem_reverse.mp hd))

theorem numberOf_spelling (hbase : 1 < base) (hvalue : ∀ d < base, value (digit d) = d) (n : ℕ) :
    numberOf value base (spelling base digit n) = n := by
  have hzero : value (digit 0) = 0 := hvalue 0 (by omega)
  unfold spelling
  split
  · rename_i hn
    simp [numberOf, hzero, hn]
  · have hspelled := numberOf_spelled hbase hvalue n
    have hcons : spelled base digit n = [digit 0] ++ (Nat.digits base n).reverse.map digit := rfl
    have hfirst : numberOf value base [digit 0] = 0 := by simp [numberOf, hzero]
    rwa [hcons, numberOf_append, hfirst, Nat.zero_mul, Nat.zero_add] at hspelled

theorem length_spelling_le {k : ℕ} (hbase : 1 < base) (hk : 0 < k) (n : ℕ) :
    (spelling base digit n).length ≤ k ↔ n < base ^ k := by
  unfold spelling
  split
  · rename_i hn
    have hpos : 0 < base ^ k := Nat.pow_pos (by omega)
    simp [hn, hpos]
    omega
  · rw [List.length_map, List.length_reverse]
    exact Nat.digits_length_le_iff hbase n

theorem head_spelling_ne {n : ℕ} (hbase : 1 < base) (hdigit : ∀ d < base, digit d = digit 0 → d = 0) (hn : n ≠ 0) :
    ∃ c rest, spelling base digit n = c :: rest ∧ c ≠ digit 0 := by
  have hne : Nat.digits base n ≠ [] := Nat.digits_ne_nil_iff_ne_zero.mpr hn
  have hlast := Nat.getLast_digit_ne_zero base hn
  have hlt := Nat.digits_lt_base hbase (List.getLast_mem hne)
  refine ⟨digit ((Nat.digits base n).getLast hne), (Nat.digits base n).dropLast.reverse.map digit, ?_, ?_⟩
  · rw [spelling, if_neg hn]
    conv_lhs => rw [← List.dropLast_append_getLast hne, List.reverse_append, List.reverse_singleton,
      List.singleton_append, List.map_cons]
  · intro h
    exact hlast (hdigit _ hlt h)

/-- The last `width` digits of a number, zeros in front where it has fewer. -/
def zeroPadded (base : ℕ) (digit : ℕ → β) : ℕ → ℕ → List β
  | 0, _ => []
  | width + 1, n => zeroPadded base digit width (n / base) ++ [digit (n % base)]

theorem length_zeroPadded (width n : ℕ) : (zeroPadded base digit width n).length = width := by
  induction width generalizing n with
  | zero => rfl
  | succ width ih => rw [zeroPadded, List.length_append, ih, List.length_singleton]

theorem mem_zeroPadded (hbase : 0 < base) (hdigit : ∀ d < base, is_digit (digit d) = true) (width n : ℕ) :
    ∀ c ∈ zeroPadded base digit width n, is_digit c = true := by
  induction width generalizing n with
  | zero =>
    intro c hc
    cases hc
  | succ width ih =>
    intro c hc
    rcases List.mem_append.mp hc with hc | hc
    · exact ih _ c hc
    · rw [List.mem_singleton.mp hc]
      exact hdigit _ (Nat.mod_lt n hbase)

theorem numberOf_zeroPadded (hbase : 0 < base) (hvalue : ∀ d < base, value (digit d) = d) {width n : ℕ}
    (hn : n < base ^ width) : numberOf value base (zeroPadded base digit width n) = n := by
  induction width generalizing n with
  | zero =>
    rw [Nat.pow_zero, Nat.lt_one_iff] at hn
    rw [hn]
    rfl
  | succ width ih =>
    have hdiv : n / base < base ^ width := by
      rw [Nat.div_lt_iff_lt_mul hbase]
      exact hn
    rw [zeroPadded, numberOf_concat, ih hdiv, hvalue _ (Nat.mod_lt n hbase)]
    exact Nat.div_add_mod' n base

end Spelling

end Framework
