import Mathlib.Order.PiLex
import Mathlib.Data.List.Range

namespace Framework

section Sign

variable {α : Type*} [LinearOrder α]

/-- The answer of a three-way comparison. -/
def signOf (x y : α) : Int := if x < y then -1 else if y < x then 1 else 0

@[simp] theorem signOf_self (x : α) : signOf x x = 0 := by simp [signOf]

theorem signOf_swap (x y : α) : signOf y x = -signOf x y := by
  unfold signOf
  rcases lt_trichotomy x y with h | rfl | h
  · rw [if_neg h.asymm, if_pos h, if_pos h]
    rfl
  · simp
  · rw [if_pos h, if_neg h.asymm, if_pos h]

theorem signOf_nonpos {x y : α} : signOf x y ≤ 0 ↔ x ≤ y := by
  unfold signOf
  rcases lt_trichotomy x y with h | rfl | h
  · simp [h, h.le]
  · simp
  · simp [h, h.not_ge, h.asymm]

theorem signOf_neg {x y : α} : signOf x y < 0 ↔ x < y := by
  unfold signOf
  rcases lt_trichotomy x y with h | rfl | h
  · simp [h]
  · simp
  · simp [h, h.asymm]

theorem signOf_of_lt {x y : α} (h : x < y) : signOf x y = -1 := if_pos h

theorem signOf_of_gt {x y : α} (h : y < x) : signOf x y = 1 := by
  rw [signOf, if_neg h.asymm, if_pos h]

end Sign

section FirstDifference

variable {α : Type*} [LinearOrder α] {x y : ℕ → α} {n : ℕ}

/-- Two sequences compared place by place up to the `n`th, until the first difference. -/
def firstDifference (x y : ℕ → α) (n : ℕ) : Int :=
  ((List.range n).findSome? fun i =>
    if x i < y i then some (-1) else if y i < x i then some 1 else none).getD 0

theorem firstDifference_none (h : ∀ i < n, x i = y i) :
    ((List.range n).findSome? fun i =>
      if x i < y i then some (-1 : Int) else if y i < x i then some 1 else none) = none := by
  rw [List.findSome?_eq_none_iff]
  intro i hi
  simp [h i (List.mem_range.mp hi)]

/-- The first difference decides. -/
theorem firstDifference_at {i : ℕ} (hi : i < n) (hbefore : ∀ j < i, x j = y j) (hdiff : x i ≠ y i) :
    firstDifference x y n = signOf (x i) (y i) := by
  obtain ⟨m, rfl⟩ := Nat.exists_eq_add_of_lt hi
  have hsplit : List.range (i + m + 1) = List.range i ++ i :: (List.range m).map (i + 1 + ·) := by
    rw [Nat.add_assoc, List.range_add, List.range_succ_eq_map, List.map_cons, List.map_map]
    congr 2
    apply List.map_congr_left
    intro j _
    simp only [Function.comp_apply]
    omega
  rw [firstDifference, hsplit, List.findSome?_append, firstDifference_none hbefore, Option.none_or,
    List.findSome?_cons]
  unfold signOf
  rcases lt_or_gt_of_ne hdiff with h | h
  · simp [h]
  · simp [h, h.asymm]

/-- Where the sequences end alike, this is how they stand in the lexicographic order. -/
theorem firstDifference_eq (h : ∀ i, n ≤ i → x i = y i) :
    firstDifference x y n = signOf (toLex x) (toLex y) := by
  have hplace {i : ℕ} (hne : x i ≠ y i) : i < n := by
    by_contra hge
    exact hne (h i (Nat.le_of_not_lt hge))
  rcases lt_trichotomy (toLex x) (toLex y) with hlt | heq | hgt
  · rw [signOf_of_lt hlt]
    obtain ⟨i, hbefore, hi⟩ := hlt
    have hi : x i < y i := hi
    rw [← signOf_of_lt hi]
    exact firstDifference_at (hplace hi.ne) hbefore hi.ne
  · have hxy : x = y := toLex.injective heq
    subst hxy
    rw [firstDifference, firstDifference_none fun i _ => rfl, signOf_self]
    rfl
  · rw [signOf_of_gt hgt]
    obtain ⟨i, hbefore, hi⟩ := hgt
    have hi : y i < x i := hi
    rw [← signOf_of_gt hi]
    exact firstDifference_at (hplace hi.ne') (fun j hj => (hbefore j hj).symm) hi.ne'

/-- A list continued by `d` for ever. -/
def padded (d : α) (l : List α) : Lex (ℕ → α) := toLex fun i => l.getD i d

theorem firstDifference_padded (d : α) (k l : List α) :
    firstDifference (fun i => k.getD i d) (fun i => l.getD i d) (max k.length l.length) =
      signOf (padded d k) (padded d l) := by
  apply firstDifference_eq
  intro i hi
  rw [List.getD_eq_getElem?_getD, List.getD_eq_getElem?_getD, List.getElem?_eq_none (by omega),
    List.getElem?_eq_none (by omega)]

end FirstDifference

end Framework
