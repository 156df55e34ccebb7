import Mathlib.Algebra.Ring.Nat
import Mathlib.Tactic.Common

namespace Framework

/-- The end of the run of received indices that starts at `i`: the first index from `i` on that is
missing or not below `count`. -/
def runEnd (got : Nat → Bool) (count i : Nat) : Nat :=
  if i < count ∧ got i then runEnd got count (i + 1) else i
termination_by count - i

section RunEnd

variable {got got' : Nat → Bool} {count i j : Nat}

theorem runEnd_step (hi : i < count) (hgot : got i) :
    runEnd got count i = runEnd got count (i + 1) := by
  rw [runEnd, if_pos ⟨hi, hgot⟩]

theorem runEnd_stop (h : ¬(i < count ∧ got i)) : runEnd got count i = i := by
  rw [runEnd, if_neg h]

/-- The index at the end of the run is missing. -/
theorem not_got_runEnd (got : Nat → Bool) (count i : Nat) (h : runEnd got count i < count) :
    ¬ got (runEnd got count i) := by
  induction i using runEnd.induct got count with
  | case1 i hi ih =>
    rw [runEnd_step hi.1 hi.2] at h ⊢
    exact ih h
  | case2 i hi =>
    rw [runEnd_stop hi] at h ⊢
    exact fun hgot => hi ⟨h, hgot⟩

theorem le_runEnd (got : Nat → Bool) (count i : Nat) : i ≤ runEnd got count i := by
  induction i using runEnd.induct got count with
  | case1 i h ih =>
    rw [runEnd_step h.1 h.2]
    omega
  | case2 i h => exact Nat.le_of_eq (runEnd_stop h).symm

theorem runEnd_le (hi : i ≤ count) : runEnd got count i ≤ count := by
  induction i using runEnd.induct got count with
  | case1 i h ih =>
    rw [runEnd_step h.1 h.2]
    exact ih h.1
  | case2 i h => rwa [runEnd_stop h]

/-- Every index of the run is received. -/
theorem got_of_lt_runEnd (hij : i ≤ j) (hj : j < runEnd got count i) : got j := by
  induction i using runEnd.induct got count with
  | case1 i h ih =>
    rw [runEnd_step h.1 h.2] at hj
    rcases Nat.eq_or_lt_of_le hij with rfl | hlt
    · exact h.2
    · exact ih hlt hj
  | case2 i h =>
    rw [runEnd_stop h] at hj
    omega

/-- A stretch that is received leads to the same end from both of its ends. -/
theorem runEnd_of_covered (hij : i ≤ j) (hj : j ≤ count) (hgot : ∀ k, i ≤ k → k < j → got k) :
    runEnd got count i = runEnd got count j := by
  induction hij with
  | refl => rfl
  | @step j hij ih =>
    have hbefore := ih (by omega) fun k hik hkj => hgot k hik (by omega)
    rw [hbefore, runEnd_step (by omega) (hgot j hij (by omega))]

/-- Only the indices from `i` on matter. -/
theorem runEnd_congr (h : ∀ k, i ≤ k → got k = got' k) :
    runEnd got count i = runEnd got' count i := by
  induction i using runEnd.induct got count with
  | case1 i hi ih =>
    rw [runEnd_step hi.1 hi.2, ih fun k hk => h k (by omega),
      runEnd_step hi.1 (by rw [← h i (Nat.le_refl i)]; exact hi.2)]
  | case2 i hi => rw [runEnd_stop hi, runEnd_stop (by rwa [← h i (Nat.le_refl i)])]

/-- The run grows with what is received. -/
theorem runEnd_mono (h : ∀ k, got k → got' k) (hi : i ≤ count) :
    runEnd got count i ≤ runEnd got' count i := by
  have hend : runEnd got count i ≤ count := runEnd_le hi
  have hcover : runEnd got' count i = runEnd got' count (runEnd got count i) :=
    runEnd_of_covered (le_runEnd got count i) hend fun k hik hk => h k (got_of_lt_runEnd hik hk)
  rw [hcover]
  exact le_runEnd got' count _

/-- Receiving a stretch that starts inside the run and ends beyond it carries the run on from the
end of the stretch. -/
theorem runEnd_of_stretch {a b : Nat} (ha : a ≤ runEnd got count 0) (hb : b ≤ count)
    (hold : ∀ k, got k → got' k)
    (hnew : ∀ k, a ≤ k → k < b → got' k) (hrest : ∀ k, b ≤ k → got' k = got k) :
    runEnd got' count 0 = runEnd got count b := by
  have hall : ∀ k, 0 ≤ k → k < b → got' k := by
    intro k _ hk
    rcases Nat.lt_or_ge k (runEnd got count 0) with hlow | hhigh
    · exact hold k (got_of_lt_runEnd (Nat.zero_le k) hlow)
    · exact hnew k (by omega) hk
  rw [runEnd_of_covered (Nat.zero_le b) hb hall]
  exact runEnd_congr hrest

end RunEnd

end Framework
