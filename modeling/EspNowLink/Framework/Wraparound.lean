import Mathlib.Data.Int.GCD

namespace Framework

section Wraparound

variable {n s x limit : Nat}

/-- A counter of `n` values that starts at `x`, after `k` steps of `s`. -/
def wrapped (n s x k : Nat) : Nat := (x + k * s) % n

theorem wrapped_zero (hx : x < n) : wrapped n s x 0 = x := by
  rw [wrapped, Nat.zero_mul, Nat.add_zero, Nat.mod_eq_of_lt hx]

theorem wrapped_succ (n s x k : Nat) : wrapped n s ((x + s) % n) k = wrapped n s x (k + 1) := by
  rw [wrapped, wrapped, Nat.mod_add_mod, Nat.succ_mul]
  congr 1
  omega

/-- The counter stays on the multiples of what step and range have in common. -/
theorem gcd_dvd_wrapped (hx : s.gcd n ∣ x) (k : Nat) : s.gcd n ∣ wrapped n s x k := by
  rw [wrapped, Nat.dvd_mod_iff (Nat.gcd_dvd_right s n)]
  exact Nat.dvd_add hx (Nat.dvd_mul_left_of_dvd (Nat.gcd_dvd_left s n) k)

theorem wrapped_add_gcd_le (hn : 0 < n) (hx : s.gcd n ∣ x) (k : Nat) :
    wrapped n s x k + s.gcd n ≤ n := by
  obtain ⟨a, ha⟩ := gcd_dvd_wrapped hx k
  obtain ⟨b, hb⟩ := Nat.gcd_dvd_right s n
  have hlt : wrapped n s x k < n := Nat.mod_lt _ hn
  rw [ha]
  generalize s.gcd n = g at *
  subst hb
  have hab : a < b := Nat.lt_of_mul_lt_mul_left (ha ▸ hlt)
  calc g * a + g = g * (a + 1) := (Nat.mul_succ g a).symm
    _ ≤ g * b := Nat.mul_le_mul_left g hab

/-- It comes by every one of these multiples within one round of `n` steps. -/
theorem exists_wrapped_eq (hx : s.gcd n ∣ x) (hxn : x < n) {t : Nat} (ht : s.gcd n ∣ t) (htn : t < n) :
    ∃ k < n, wrapped n s x k = t := by
  have hn : 0 < n := by omega
  obtain ⟨m, hm⟩ : ∃ m, s * m % n = s.gcd n % n := by
    rcases Nat.lt_or_ge (s.gcd n) n with hlt | hge
    · obtain ⟨m, -, hm⟩ := Nat.exists_mul_mod_eq_gcd hlt
      exact ⟨m, by rw [hm, Nat.mod_eq_of_lt hlt]⟩
    · -- the step is a multiple of the range
      have heq : s.gcd n = n := Nat.le_antisymm (Nat.le_of_dvd hn (Nat.gcd_dvd_right s n)) hge
      exact ⟨0, by rw [heq, Nat.mul_zero, Nat.zero_mod, Nat.mod_self]⟩
  -- how many of the common parts are missing, going round once if the target lies behind
  obtain ⟨j, hj⟩ : ∃ j, x + s.gcd n * j = t + n := by
    obtain ⟨a, ha⟩ := hx
    obtain ⟨b, hb⟩ := Nat.dvd_add ht (Nat.gcd_dvd_right s n)
    have hpos : 0 < s.gcd n := Nat.gcd_pos_of_pos_right s hn
    have hle : s.gcd n * a ≤ s.gcd n * b := by omega
    refine ⟨b - a, ?_⟩
    rw [Nat.mul_sub]
    omega
  refine ⟨m * j % n, Nat.mod_lt _ hn, ?_⟩
  have hstep : m * j % n * s % n = s.gcd n * j % n := by
    rw [Nat.mod_mul_mod, Nat.mul_comm (m * j) s, ← Nat.mul_assoc, Nat.mul_mod, hm, ← Nat.mul_mod]
  rw [wrapped, Nat.add_mod, hstep, ← Nat.add_mod, hj, Nat.add_mod_right, Nat.mod_eq_of_lt htn]

/-- A counter passes a limit exactly when the limit lies below its largest value. -/
theorem exists_lt_wrapped_iff (hx : s.gcd n ∣ x) (hxn : x < n) :
    (∃ k < n, limit < wrapped n s x k) ↔ limit + s.gcd n < n := by
  have hn : 0 < n := by omega
  constructor
  · rintro ⟨k, -, hk⟩
    have := wrapped_add_gcd_le hn hx k
    omega
  · intro h
    have hpos : 0 < s.gcd n := Nat.gcd_pos_of_pos_right s hn
    obtain ⟨k, hk, heq⟩ := exists_wrapped_eq hx hxn
      (Nat.dvd_sub (Nat.gcd_dvd_right s n) (Nat.dvd_refl _)) (by omega : n - s.gcd n < n)
    exact ⟨k, hk, by omega⟩

end Wraparound

end Framework
