import Mathlib.Data.List.Nodup
import Mathlib.Data.List.Basic

namespace Framework

variable {α : Type*} {n : Nat}

/-- A table after the writes of a list, in their order; a place outside of it is not written. -/
def writeAll (table : Vector α n) (writes : List (Nat × α)) : Vector α n :=
  writes.foldl (fun table w => table.setIfInBounds w.1 w.2) table

/-- The last value that a list writes to a place. -/
def lastWrite (i : Nat) : List (Nat × α) → Option α
  | [] => none
  | w :: ws => (lastWrite i ws).or (if w.1 = i then some w.2 else none)

variable {table : Vector α n} {writes full : List (Nat × α)} {i : Nat} {a : α}

@[simp] theorem writeAll_nil : writeAll table [] = table := rfl

@[simp] theorem writeAll_concat (table : Vector α n) (writes : List (Nat × α)) (w : Nat × α) :
    writeAll table (writes ++ [w]) = (writeAll table writes).setIfInBounds w.1 w.2 := by
  rw [writeAll, List.foldl_append, ← writeAll]
  rfl

theorem setIfInBounds_of_lt (h : i < n) : table.setIfInBounds i a = table.set i a h := by
  apply Vector.ext
  intro j hj
  rw [Vector.getElem_setIfInBounds hj, Vector.getElem_set]

/-- A place holds what was written to it last, or what it held before. -/
theorem getElem_writeAll (table : Vector α n) (writes : List (Nat × α)) (h : i < n) :
    (writeAll table writes)[i] = (lastWrite i writes).getD table[i] := by
  induction writes generalizing table with
  | nil => rfl
  | cons w ws ih =>
    have hcons : writeAll table (w :: ws) = writeAll (table.setIfInBounds w.1 w.2) ws := rfl
    rw [hcons, ih, lastWrite]
    cases hlast : lastWrite i ws with
    | some b => simp
    | none =>
      by_cases hw : w.1 = i
      · subst hw
        simp
      · simp [hw]

theorem mem_of_lastWrite (h : lastWrite i writes = some a) : (i, a) ∈ writes := by
  induction writes with
  | nil => cases h
  | cons w ws ih =>
    rw [lastWrite] at h
    cases hlast : lastWrite i ws with
    | some b =>
      rw [hlast, Option.some_or] at h
      obtain rfl := Option.some.inj h
      exact List.mem_cons_of_mem _ (ih hlast)
    | none =>
      rw [hlast, Option.none_or] at h
      by_cases hw : w.1 = i
      · rw [if_pos hw] at h
        obtain rfl := Option.some.inj h
        subst hw
        exact List.mem_cons_self
      · rw [if_neg hw] at h
        cases h

theorem lastWrite_isSome (h : (i, a) ∈ writes) : (lastWrite i writes).isSome = true := by
  induction writes with
  | nil => cases h
  | cons w ws ih =>
    rw [lastWrite]
    rcases List.mem_cons.mp h with rfl | hmem
    · simp
    · simp [ih hmem]

section Delivered

/-- Writes that agree on each place. -/
def OncePerPlace (full : List (Nat × α)) : Prop := (full.map Prod.fst).Nodup

theorem OncePerPlace.eq {b : α} (hfull : OncePerPlace full) (ha : (i, a) ∈ full) (hb : (i, b) ∈ full) :
    a = b :=
  congrArg Prod.snd (List.inj_on_of_nodup_map hfull ha hb rfl)

/-- A write of the list that was made is the last one of its place, whatever the others are and in which
order and how often they were made. -/
theorem lastWrite_of_mem (hfull : OncePerPlace full) (hsub : writes ⊆ full) (h : (i, a) ∈ writes) :
    lastWrite i writes = some a := by
  obtain ⟨b, hb⟩ := Option.isSome_iff_exists.mp (lastWrite_isSome h)
  rw [hb, hfull.eq (hsub (mem_of_lastWrite hb)) (hsub h)]

/-- Some writes of a list, in any order and each any number of times, leave what the whole list does exactly
when each of the list that changes something is among them. -/
theorem writeAll_eq_iff (hfull : OncePerPlace full) (hsub : writes ⊆ full) (blank : α) :
    writeAll (Vector.replicate n blank) writes = writeAll (Vector.replicate n blank) full ↔
      ∀ w ∈ full, w.1 < n → w.2 ≠ blank → w ∈ writes := by
  constructor
  · rintro heq ⟨i, a⟩ hmem hi hne
    have hplace := congrArg (fun table : Vector α n => table[i]) heq
    rw [getElem_writeAll _ _ hi, getElem_writeAll _ _ hi,
      lastWrite_of_mem hfull (List.Subset.refl full) hmem, Vector.getElem_replicate, Option.getD_some] at hplace
    cases hlast : lastWrite i writes with
    | none =>
      rw [hlast] at hplace
      exact absurd hplace.symm hne
    | some b =>
      rw [hlast] at hplace
      obtain rfl : b = a := hplace
      exact mem_of_lastWrite hlast
  · intro hall
    apply Vector.ext
    intro i hi
    rw [getElem_writeAll _ _ hi, getElem_writeAll _ _ hi, Vector.getElem_replicate]
    cases hlast : lastWrite i writes with
    | some a => rw [lastWrite_of_mem hfull (List.Subset.refl full) (hsub (mem_of_lastWrite hlast))]
    | none =>
      cases hwhole : lastWrite i full with
      | none => rfl
      | some a =>
        have hmem := mem_of_lastWrite hwhole
        by_cases hblank : a = blank
        · rw [hblank]
          rfl
        · have hsome := lastWrite_isSome (hall (i, a) hmem hi hblank)
          rw [hlast] at hsome
          cases hsome

end Delivered

end Framework
