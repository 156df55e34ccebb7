import Mathlib.Algebra.Order.Field.Rat
import Mathlib.Data.Nat.Log
import Mathlib.Tactic.FieldSimp
import Mathlib.Tactic.Linarith
import Mathlib.Tactic.Positivity
import Mathlib.Tactic.Ring

namespace Framework

/-- The natural number nearest to `n / d`, an even one where two are. -/
def nearest (n d : ℕ) : ℕ :=
  let k := n / d
  if 2 * (n % d) < d then k else if d < 2 * (n % d) then k + 1 else k + k % 2

section Nearest

variable {n d : ℕ}

theorem nearest_bounds (n : ℕ) (hd : 0 < d) :
    2 * (nearest n d * d) ≤ 2 * n + d ∧ 2 * n ≤ 2 * (nearest n d * d) + d := by
  have hn : n / d * d + n % d = n := Nat.div_add_mod' n d
  have hnext : (n / d + 1) * d = n / d * d + d := Nat.succ_mul _ _
  unfold nearest
  dsimp only
  split_ifs with hlow hhigh
  · constructor <;> omega
  · have hmod := Nat.mod_lt n hd
    constructor <;> omega
  · rcases Nat.mod_two_eq_zero_or_one (n / d) with heven | hodd
    · rw [heven, Nat.add_zero]
      constructor <;> omega
    · rw [hodd]
      constructor <;> omega

theorem le_nearest {m : ℕ} (hd : 0 < d) (h : m * d ≤ n) : m ≤ nearest n d := by
  have hdiv : m ≤ n / d := (Nat.le_div_iff_mul_le hd).mpr h
  unfold nearest
  dsimp only
  split_ifs <;> omega

theorem nearest_le {m : ℕ} (hd : 0 < d) (h : n < m * d) : nearest n d ≤ m := by
  have hdiv : n / d < m := (Nat.div_lt_iff_lt_mul hd).mpr h
  unfold nearest
  dsimp only
  split_ifs <;> omega

@[simp] theorem nearest_mul (m : ℕ) (hd : 0 < d) : nearest (m * d) d = m := by
  have hdiv : m * d / d = m := Nat.mul_div_cancel m hd
  have hmod : m * d % d = 0 := Nat.mul_mod_left m d
  simp [nearest, hdiv, hmod, hd]

theorem abs_nearest_sub_le (n : ℕ) (hd : 0 < d) : |(nearest n d : ℚ) - n / d| ≤ 1 / 2 := by
  obtain ⟨hlow, hhigh⟩ := nearest_bounds n hd
  have hd' : (0 : ℚ) < d := by exact_mod_cast hd
  have hlow' : 2 * ((nearest n d : ℚ) * d) ≤ 2 * n + d := by exact_mod_cast hlow
  have hhigh' : 2 * (n : ℚ) ≤ 2 * (nearest n d * d) + d := by exact_mod_cast hhigh
  have hdiff : (nearest n d : ℚ) - n / d = (nearest n d * d - n) / d := by field_simp
  rw [hdiff, abs_div, abs_of_pos hd', div_le_iff₀ hd', abs_le]
  constructor <;> linarith

end Nearest

namespace Binary32

/-- A code is the bits of a float without its sign. That of infinity; the finite ones are below it. -/
def infinity : ℕ := 255 * 2 ^ 23

/-- What a code stands for, in units of the smallest float. -/
def units (code : ℕ) : ℕ :=
  if code / 2 ^ 23 = 0 then code else (code % 2 ^ 23 + 2 ^ 23) * 2 ^ (code / 2 ^ 23 - 1)

def magnitude (code : ℕ) : ℚ := units code / 2 ^ 149

/-- How many bits of `n / d` are rounded away, counted from the smallest float. -/
def scale (n d : ℕ) : ℕ := (n * 2 ^ 149 / d).log2 - 23

/-- The float nearest to `n / d`, infinity from half a step above the last one. -/
def round (n d : ℕ) : ℕ :=
  min infinity (scale n d * 2 ^ 23 + nearest (n * 2 ^ 149) (d * 2 ^ scale n d))

theorem round_le (n d : ℕ) : round n d ≤ infinity := Nat.min_le_left _ _

/-- Exponent and mantissa side by side, a carry of the mantissa included. -/
theorem units_scaled {s k : ℕ} (hlow : s = 0 ∨ 2 ^ 23 ≤ k) (hhigh : k ≤ 2 ^ 24) :
    units (s * 2 ^ 23 + k) = k * 2 ^ s := by
  unfold units
  rcases Nat.lt_or_ge k (2 ^ 23) with hk | hk
  · have hs : s = 0 := by omega
    subst hs
    rw [if_pos (by omega)]
    ring
  · rcases Nat.lt_or_ge k (2 ^ 24) with hk' | hk'
    · have hdiv : (s * 2 ^ 23 + k) / 2 ^ 23 = s + 1 := by omega
      have hmod : (s * 2 ^ 23 + k) % 2 ^ 23 + 2 ^ 23 = k := by omega
      rw [hdiv, if_neg (by omega), hmod, Nat.add_sub_cancel]
    · have hdiv : (s * 2 ^ 23 + k) / 2 ^ 23 = s + 2 := by omega
      have hmod : (s * 2 ^ 23 + k) % 2 ^ 23 = 0 := by omega
      have hk : k = 2 ^ 24 := by omega
      rw [hdiv, if_neg (by omega), hmod, hk]
      have hexp : s + 2 - 1 = s + 1 := rfl
      rw [hexp]
      ring

section Round

variable {n d : ℕ}

theorem lt_scaled (hd : 0 < d) : n * 2 ^ 149 < 2 ^ 24 * (d * 2 ^ scale n d) := by
  have hlog : n * 2 ^ 149 / d < 2 ^ ((n * 2 ^ 149 / d).log2 + 1) := Nat.lt_log2_self
  have hexp : (n * 2 ^ 149 / d).log2 + 1 ≤ 24 + scale n d := by
    unfold scale
    omega
  have hfloor : n * 2 ^ 149 / d < 2 ^ (24 + scale n d) :=
    Nat.lt_of_lt_of_le hlog (Nat.pow_le_pow_right (by decide) hexp)
  have hprod := (Nat.div_lt_iff_lt_mul hd).mp hfloor
  calc n * 2 ^ 149 < 2 ^ (24 + scale n d) * d := hprod
    _ = 2 ^ 24 * (d * 2 ^ scale n d) := by ring

theorem scaled_le (hd : 0 < d) (hs : scale n d ≠ 0) : 2 ^ 23 * (d * 2 ^ scale n d) ≤ n * 2 ^ 149 := by
  have hlog : (n * 2 ^ 149 / d).log2 = 23 + scale n d := by
    unfold scale at hs ⊢
    omega
  have hne : n * 2 ^ 149 / d ≠ 0 := by
    intro hzero
    rw [hzero, Nat.log2_zero] at hlog
    omega
  have hfloor : 2 ^ (23 + scale n d) ≤ n * 2 ^ 149 / d := by
    have hself := Nat.log2_self_le hne
    rwa [hlog] at hself
  have hprod := (Nat.le_div_iff_mul_le hd).mp hfloor
  calc 2 ^ 23 * (d * 2 ^ scale n d) = 2 ^ (23 + scale n d) * d := by ring
    _ ≤ n * 2 ^ 149 := hprod

/-- A finite result is the scaled mantissa. -/
theorem units_round (hd : 0 < d) (hfinite : round n d < infinity) :
    units (round n d) = nearest (n * 2 ^ 149) (d * 2 ^ scale n d) * 2 ^ scale n d := by
  have hpos : 0 < d * 2 ^ scale n d := Nat.mul_pos hd (Nat.two_pow_pos _)
  have hhigh := nearest_le hpos (lt_scaled (n := n) hd)
  have hlow : scale n d = 0 ∨ 2 ^ 23 ≤ nearest (n * 2 ^ 149) (d * 2 ^ scale n d) := by
    by_cases hs : scale n d = 0
    · exact Or.inl hs
    · exact Or.inr (le_nearest hpos (scaled_le hd hs))
  have hround : round n d = scale n d * 2 ^ 23 + nearest (n * 2 ^ 149) (d * 2 ^ scale n d) := by
    unfold round at hfinite ⊢
    omega
  rw [hround, units_scaled hlow hhigh]

/-- Half a unit in the last place: relative to the number, or half the smallest float. -/
theorem abs_round_sub_le (hd : 0 < d) (hfinite : round n d < infinity) :
    |magnitude (round n d) - n / d| ≤ max ((n : ℚ) / d / 2 ^ 24) (1 / 2 ^ 150) := by
  have hd' : (0 : ℚ) < d := by exact_mod_cast hd
  have hpow : (0 : ℚ) < 2 ^ scale n d := by positivity
  have hnear := abs_nearest_sub_le (n * 2 ^ 149) (d := d * 2 ^ scale n d) (Nat.mul_pos hd (Nat.two_pow_pos _))
  have hdiff : magnitude (round n d) - n / d =
      ((nearest (n * 2 ^ 149) (d * 2 ^ scale n d) : ℚ) -
        ((n * 2 ^ 149 : ℕ) : ℚ) / ((d * 2 ^ scale n d : ℕ) : ℚ)) * (2 ^ scale n d / 2 ^ 149) := by
    have hunit : (2 : ℚ) ^ 149 ≠ 0 := by positivity
    rw [magnitude, units_round hd hfinite]
    simp only [Nat.cast_mul, Nat.cast_pow, Nat.cast_ofNat]
    -- kept apart from the numerals of the natural numbers
    generalize (2 : ℚ) ^ 149 = unit at hunit ⊢
    field_simp
  have hstep : |magnitude (round n d) - n / d| ≤ 2 ^ scale n d / 2 ^ 150 := by
    have hunit : (0 : ℚ) ≤ 2 ^ scale n d / 2 ^ 149 := by positivity
    rw [hdiff, abs_mul, abs_of_nonneg hunit]
    calc _ ≤ 1 / 2 * ((2 : ℚ) ^ scale n d / 2 ^ 149) := mul_le_mul_of_nonneg_right hnear hunit
      _ = 2 ^ scale n d / 2 ^ 150 := by ring
  refine le_trans hstep ?_
  by_cases hs : scale n d = 0
  · rw [hs, pow_zero]
    exact le_max_right _ _
  · refine le_trans ?_ (le_max_left _ _)
    have hscaled : (2 : ℚ) ^ 23 * (d * 2 ^ scale n d) ≤ n * 2 ^ 149 := by exact_mod_cast scaled_le hd hs
    rw [div_div, div_le_div_iff₀ (by positivity) (by positivity)]
    have hdouble : (2 : ℚ) ^ scale n d * (d * 2 ^ 24) = 2 * (2 ^ 23 * (d * 2 ^ scale n d)) := by ring
    have hunits : (n : ℚ) * 2 ^ 150 = 2 * (n * 2 ^ 149) := by ring
    rw [hdouble, hunits]
    exact mul_le_mul_of_nonneg_left hscaled (by decide)

end Round

/-- A float from `2 ^ 24` on is a whole number. -/
theorem units_whole {code : ℕ} (h : 2 ^ 173 ≤ units code) : ∃ m, units code = m * 2 ^ 149 := by
  unfold units at h ⊢
  split at h
  · rename_i hsmall
    have hlt : code < 2 ^ 23 := by omega
    exact absurd (Nat.le_trans h hlt.le) (by decide)
  · rename_i hnormal
    rw [if_neg hnormal]
    have hmantissa : code % 2 ^ 23 + 2 ^ 23 < 2 ^ 24 := by omega
    have hexp : 149 ≤ code / 2 ^ 23 - 1 := by
      by_contra hlt
      have hpow : 2 ^ (code / 2 ^ 23 - 1) ≤ 2 ^ 149 := Nat.pow_le_pow_right (by decide) (by omega)
      have hprod : (code % 2 ^ 23 + 2 ^ 23) * 2 ^ (code / 2 ^ 23 - 1) < 2 ^ 24 * 2 ^ 149 :=
        Nat.mul_lt_mul_of_lt_of_le hmantissa hpow (by positivity)
      rw [← pow_add] at hprod
      exact absurd h (Nat.not_le.mpr hprod)
    refine ⟨(code % 2 ^ 23 + 2 ^ 23) * 2 ^ (code / 2 ^ 23 - 1 - 149), ?_⟩
    rw [Nat.mul_assoc, ← pow_add, Nat.sub_add_cancel hexp]

end Binary32

end Framework
