import Mathlib.Algebra.BigOperators.Group.List.Basic
import Mathlib.Algebra.Ring.Nat
import Mathlib.Data.List.Infix

namespace Framework

variable {α : Type*} {size : α → Nat} {slim : α → α}

/-- What a loop writes of a list into limited room: each item as it is, or else a slimmer one in its
place; the first item that fits neither way ends the loop. -/
def fitted (size : α → Nat) (slim : α → α) : Nat → List α → List α
  | _, [] => []
  | room, x :: xs =>
    if size x ≤ room then x :: fitted size slim (room - size x) xs
    else if size (slim x) ≤ room then slim x :: fitted size slim (room - size (slim x)) xs
    else []

/-- The first `k` items fit as they are, and no form of the next one does. -/
structure CutAt (size : α → Nat) (slim : α → α) (room : Nat) (xs : List α) (k : Nat) : Prop where
  le : k ≤ xs.length
  fits : ((xs.take k).map size).sum ≤ room
  full : ∀ x, xs[k]? = some x → room < ((xs.take k).map size).sum + min (size x) (size (slim x))

theorem cutAt_nil {room k : Nat} : CutAt size slim room [] k ↔ k = 0 := by
  constructor
  · intro h
    exact Nat.le_zero.mp h.le
  · rintro rfl
    exact ⟨by simp, by simp, by simp⟩

theorem cutAt_cons_zero {room : Nat} {x : α} {xs : List α} :
    CutAt size slim room (x :: xs) 0 ↔ room < min (size x) (size (slim x)) := by
  constructor
  · intro h
    simpa using h.full x rfl
  · intro h
    exact ⟨by simp, by simp, by simpa using h⟩

theorem cutAt_cons_succ {room k : Nat} {x : α} {xs : List α} :
    CutAt size slim room (x :: xs) (k + 1) ↔ size x ≤ room ∧ CutAt size slim (room - size x) xs k := by
  constructor
  · intro h
    have hfits := h.fits
    simp only [List.take_succ_cons, List.map_cons, List.sum_cons] at hfits
    refine ⟨by omega, by simpa using h.le, by omega, ?_⟩
    intro y hy
    have hfull := h.full y (by simpa using hy)
    simp only [List.take_succ_cons, List.map_cons, List.sum_cons] at hfull
    omega
  · rintro ⟨hx, h⟩
    have hfits := h.fits
    refine ⟨by simpa using h.le, ?_, ?_⟩
    · simp only [List.take_succ_cons, List.map_cons, List.sum_cons]
      omega
    · intro y hy
      have hfull := h.full y (by simpa using hy)
      simp only [List.take_succ_cons, List.map_cons, List.sum_cons]
      omega

/-- The loop writes a beginning of the list exactly when it slims no item. -/
theorem cutAt_iff (room : Nat) (xs : List α) (k : Nat) :
    CutAt size slim room xs k ↔ fitted size slim room xs <+: xs ∧ (fitted size slim room xs).length = k := by
  induction xs generalizing room k with
  | nil =>
    rw [cutAt_nil]
    simp [fitted, eq_comm]
  | cons x xs ih =>
    unfold fitted
    by_cases hx : size x ≤ room
    · rw [if_pos hx, List.prefix_cons_inj]
      cases k with
      | zero =>
        rw [cutAt_cons_zero]
        simp
        omega
      | succ k =>
        rw [cutAt_cons_succ, ih]
        simp [hx]
    · rw [if_neg hx]
      have hsucc : ∀ k, ¬ CutAt size slim room (x :: xs) (k + 1) := fun k h => hx (cutAt_cons_succ.mp h).1
      by_cases hslim : size (slim x) ≤ room
      · rw [if_pos hslim]
        have hzero : ¬ CutAt size slim room (x :: xs) 0 := by
          rw [cutAt_cons_zero]
          omega
        constructor
        · intro h
          cases k with
          | zero => exact absurd h hzero
          | succ k => exact absurd h (hsucc k)
        · rintro ⟨hpre, -⟩
          have hsame : slim x = x := (List.cons_prefix_cons.mp hpre).1
          rw [hsame] at hslim
          exact absurd hslim hx
      · rw [if_neg hslim]
        cases k with
        | zero =>
          rw [cutAt_cons_zero]
          simp
          omega
        | succ k =>
          constructor
          · intro h
            exact absurd h (hsucc k)
          · rintro ⟨-, hlen⟩
            simp at hlen

theorem CutAt.fitted_eq {room k : Nat} {xs : List α} (h : CutAt size slim room xs k) :
    fitted size slim room xs = xs.take k := by
  obtain ⟨hpre, rfl⟩ := (cutAt_iff room xs k).mp h
  exact List.prefix_iff_eq_take.mp hpre

/-- Without slimmer forms the loop writes a beginning of the list. -/
theorem fitted_id_isPrefix (room : Nat) (xs : List α) : fitted size id room xs <+: xs := by
  induction xs generalizing room with
  | nil => simp [fitted]
  | cons x xs ih =>
    unfold fitted
    by_cases hx : size x ≤ room
    · rw [if_pos hx, List.prefix_cons_inj]
      exact ih _
    · rw [if_neg hx, id, if_neg hx]
      exact List.nil_prefix

theorem cutAt_fitted (room : Nat) (xs : List α) : CutAt size id room xs (fitted size id room xs).length :=
  (cutAt_iff room xs _).mpr ⟨fitted_id_isPrefix room xs, rfl⟩

/-- A list without slimmer forms is cut at one place. -/
theorem cutAt_id_iff {room k : Nat} {xs : List α} :
    CutAt size id room xs k ↔ k = (fitted size id room xs).length := by
  constructor
  · intro h
    obtain ⟨-, hlen⟩ := (cutAt_iff room xs k).mp h
    exact hlen.symm
  · rintro rfl
    exact cutAt_fitted room xs

variable (size slim) in
theorem sum_fitted_le (room : Nat) (xs : List α) : ((fitted size slim room xs).map size).sum ≤ room := by
  induction xs generalizing room with
  | nil => simp [fitted]
  | cons x xs ih =>
    unfold fitted
    split
    · have hrest := ih (room - size x)
      simp only [List.map_cons, List.sum_cons]
      omega
    · split
      · have hrest := ih (room - size (slim x))
        simp only [List.map_cons, List.sum_cons]
        omega
      · simp

theorem length_fitted_le (room : Nat) (xs : List α) : (fitted size slim room xs).length ≤ xs.length := by
  induction xs generalizing room with
  | nil => simp [fitted]
  | cons x xs ih =>
    unfold fitted
    split
    · simpa using ih _
    · split
      · simpa using ih _
      · simp

end Framework
