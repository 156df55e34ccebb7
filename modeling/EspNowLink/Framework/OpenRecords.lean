import Mathlib.Algebra.Ring.Nat
import Mathlib.Data.List.Chain

namespace Framework

section OpenRecords

variable {α ι : Type*} [Zero ι] (ends : α → Bool) (getId : α → ι) (setId : α → ι → α)

/-- What a reader makes of a stream of records without delimiters that writes each record's id first,
into whichever record is open: a record that does not end itself is still open when the next id
arrives, and takes it; the next record is left with the zero id. `isOpen` tells whether a record is open
when the list starts. -/
def readBack : Bool → List α → List α
  | _, [] => []
  | isOpen, [x] => [setId x (if isOpen then 0 else getId x)]
  | isOpen, x :: y :: rest =>
    setId x (if ends x then (if isOpen then 0 else getId x) else getId y) ::
      readBack (!ends x) (y :: rest)

/-- A reader's records so far, and the one that is open. -/
structure Reading (α : Type*) where
  done : List α := []
  current : Option α := none

def Reading.close (st : Reading α) : List α := st.done ++ st.current.toList

/-- What one record does to the reader: its id goes to the open record and ends it. -/
def Reading.feed (st : Reading α) (x : α) : Reading α :=
  let x' := if st.current.isSome then setId x 0 else x
  let done := st.done ++ (st.current.map fun c => setId c (getId x)).toList
  if ends x then { done := done ++ [x'] } else { done := done, current := some x' }

/-- Neighbours whose first does not end itself both have the zero id. -/
def Unshifted : List α → Prop := List.IsChain fun x y => ends x = false → getId x = 0 ∧ getId y = 0

variable {ends getId setId}

theorem readBack_length (isOpen : Bool) (xs : List α) :
    (readBack ends getId setId isOpen xs).length = xs.length := by
  induction xs generalizing isOpen with
  | nil => rfl
  | cons x xs ih =>
    cases xs with
    | nil => rfl
    | cons y rest => simp [readBack, ih]

/-- What does not depend on the ids is read back as it was written. -/
theorem map_readBack {β : Type*} {g : α → β} (hg : ∀ x i, g (setId x i) = g x) (isOpen : Bool)
    (xs : List α) : (readBack ends getId setId isOpen xs).map g = xs.map g := by
  induction xs generalizing isOpen with
  | nil => rfl
  | cons x xs ih =>
    cases xs with
    | nil => simp [readBack, hg]
    | cons y rest => rw [readBack, List.map_cons, List.map_cons, hg, ih]

theorem close_foldl_feed (hset : ∀ x, setId x (getId x) = x) (hsetset : ∀ x i j, setId (setId x i) j = setId x j)
    (st : Reading α) (x : α) (xs : List α) :
    ((x :: xs).foldl (Reading.feed ends getId setId) st).close =
      st.done ++ (st.current.map fun c => setId c (getId x)).toList ++
        readBack ends getId setId st.current.isSome (x :: xs) := by
  induction xs generalizing st x with
  | nil =>
    cases hc : st.current <;> cases hx : ends x <;>
      simp [Reading.feed, Reading.close, readBack, hc, hx, hset]
  | cons y rest ih =>
    rw [List.foldl_cons, ih]
    cases hc : st.current <;> cases hx : ends x <;>
      simp [Reading.feed, readBack, hc, hx, hset, hsetset]

/-- The reader's list once the stream has ended. -/
theorem close_foldl_feed_nil (hset : ∀ x, setId x (getId x) = x)
    (hsetset : ∀ x i j, setId (setId x i) j = setId x j) (xs : List α) :
    (xs.foldl (Reading.feed ends getId setId) {}).close = readBack ends getId setId false xs := by
  cases xs with
  | nil => rfl
  | cons x xs =>
    rw [close_foldl_feed hset hsetset]
    rfl

/-- A list is read back as it was written exactly when no id is shifted. -/
theorem readBack_eq_iff (ends : α → Bool) (hget : ∀ x i, getId (setId x i) = i) (hset : ∀ x, setId x (getId x) = x)
    (isOpen : Bool) (xs : List α) :
    readBack ends getId setId isOpen xs = xs ↔
      Unshifted ends getId xs ∧ (isOpen = true → ∀ x ∈ xs.head?, getId x = 0) := by
  have hfix : ∀ x i, setId x i = x ↔ i = getId x := by
    intro x i
    constructor
    · intro h
      rw [← hget x i, h]
    · rintro rfl
      exact hset x
  induction xs generalizing isOpen with
  | nil => simp [readBack, Unshifted]
  | cons x xs ih =>
    cases xs with
    | nil =>
      cases isOpen with
      | false => simp [readBack, Unshifted, hfix]
      | true =>
        simp only [readBack, if_true, List.cons.injEq, hfix, and_true, Unshifted, List.isChain_singleton,
          List.head?_cons, Option.mem_some_iff, forall_eq', true_implies, true_and]
        exact eq_comm
    | cons y rest =>
      have htail := ih (!ends x)
      simp only [readBack, List.cons.injEq, hfix, htail, Unshifted, List.isChain_cons_cons,
        List.head?_cons, Option.mem_some_iff, forall_eq', Bool.not_eq_true'] at htail ⊢
      cases hx : ends x <;> cases isOpen <;>
        simp only [Bool.false_eq_true, if_true, if_false, true_implies, false_implies,
          Bool.true_eq_false, and_true, true_and]
      · constructor
        · rintro ⟨hxy, hchain, hy⟩
          exact ⟨⟨by rw [← hxy, hy], hy⟩, hchain⟩
        · rintro ⟨⟨hx, hy⟩, hchain⟩
          exact ⟨by rw [hx, hy], hchain, hy⟩
      · constructor
        · rintro ⟨hxy, hchain, hy⟩
          exact ⟨⟨⟨by rw [← hxy, hy], hy⟩, hchain⟩, by rw [← hxy, hy]⟩
        · rintro ⟨⟨⟨hx, hy⟩, hchain⟩, -⟩
          exact ⟨by rw [hx, hy], hchain, hy⟩
      · exact ⟨fun ⟨hzero, hchain⟩ => ⟨hchain, hzero.symm⟩, fun ⟨hchain, hzero⟩ => ⟨hzero.symm, hchain⟩⟩

end OpenRecords

end Framework
