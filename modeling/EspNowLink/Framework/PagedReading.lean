import Mathlib.Data.List.TakeDrop

namespace Framework

variable {α : Type*}

/-- A page of a list: its items, the cursor to go on from, and whether it is the last one. -/
structure Page (α : Type*) where
  items : List α
  next : Nat
  done : Bool

/-- The reader asks for page after page until one says that it is the last. It gives up after so many
pages, or when a page is not answered. -/
def readPages (serve : Nat → Option (Page α)) : Nat → Nat → Option (List α)
  | 0, _ => none
  | fuel + 1, cursor => (serve cursor).bind fun page =>
    if page.done then some page.items else (readPages serve fuel page.next).map (page.items ++ ·)

/-- The server cuts the list into pages of `size` items, each changed by `clip`; it counts positions up to
`modulus` and answers just the pages that fit. -/
structure Slices (serve : Nat → Option (Page α)) (xs : List α) (size modulus : Nat) (clip : α → α)
    (Fits : Nat → Prop) : Prop where
  pos : 0 < size
  serves : ∀ c, c ≤ xs.length → c < modulus → Fits c → serve c = some
    ⟨((xs.drop c).take size).map clip, min xs.length (c + size) % modulus, decide (xs.length ≤ c + size)⟩
  refuses : ∀ c, c ≤ xs.length → c < modulus → ¬ Fits c → serve c = none

/-- The `k`-th page from `c` on is there: the first page is, even of an empty list. -/
def OnPage (length size c k : Nat) : Prop := k = 0 ∨ c + k * size < length

namespace Slices

variable {serve : Nat → Option (Page α)} {xs : List α} {size modulus : Nat} {clip : α → α}
  {Fits : Nat → Prop}

theorem onPage_succ {length c k : Nat} (h : c + size < length) :
    OnPage length size c (k + 1) ↔ OnPage length size (c + size) k := by
  have hsum : c + (k + 1) * size = c + size + k * size := by rw [Nat.add_mul, Nat.one_mul]; omega
  rw [OnPage, OnPage, hsum]
  constructor
  · intro hk
    omega
  · rintro (rfl | hk)
    · right
      omega
    · exact .inr hk

theorem onPage_last {length c k : Nat} (h : length ≤ c + size) : OnPage length size c k ↔ k = 0 := by
  constructor
  · rintro (hk | hk)
    · exact hk
    · cases k with
      | zero => rfl
      | succ k =>
        rw [Nat.add_mul] at hk
        omega
  · exact .inl

/-- A reader that comes through has read at least the rest of the list. If it has read no more, then
every page was there and was reached. -/
theorem of_readPages (h : Slices serve xs size modulus clip Fits) {fuel c : Nat} {ys : List α}
    (hc : c ≤ xs.length) (hmod : c < modulus) (hread : readPages serve fuel c = some ys) :
    xs.length - c ≤ ys.length ∧
    (ys.length = xs.length - c → ys = (xs.drop c).map clip ∧
      ∀ k, OnPage xs.length size c k → c + k * size < modulus ∧ Fits (c + k * size)) := by
  induction fuel generalizing c ys with
  | zero => cases hread
  | succ fuel ih =>
    have hfits : Fits c := by
      by_contra hnot
      rw [readPages, h.refuses c hc hmod hnot] at hread
      cases hread
    rw [readPages, h.serves c hc hmod hfits, Option.bind_some] at hread
    by_cases hlast : xs.length ≤ c + size
    · have hwhole : (xs.drop c).take size = xs.drop c := List.take_of_length_le (by rw [List.length_drop]; omega)
      rw [if_pos (by simpa using hlast), hwhole] at hread
      obtain rfl := Option.some.inj hread
      refine ⟨by simp, fun _ => ⟨rfl, ?_⟩⟩
      intro k hk
      obtain rfl := (onPage_last hlast).mp hk
      simpa using ⟨hmod, hfits⟩
    · rw [if_neg (by simpa using hlast)] at hread
      obtain ⟨zs, hzs, rfl⟩ := Option.map_eq_some_iff.mp hread
      have hnext : min xs.length (c + size) = c + size := by omega
      rw [hnext] at hzs
      have hle : (c + size) % modulus ≤ c + size := Nat.mod_le _ _
      obtain ⟨hmin, hexact⟩ := ih (by omega) (Nat.mod_lt _ (by omega)) hzs
      have hslice : (((xs.drop c).take size).map clip).length = size := by
        rw [List.length_map, List.length_take, List.length_drop]
        omega
      rw [List.length_append, hslice]
      refine ⟨by omega, ?_⟩
      intro hlen
      -- a wrapped cursor would read items again
      have hstep : (c + size) % modulus = c + size := by omega
      have hmod' : c + size < modulus := by
        rw [← hstep]
        exact Nat.mod_lt _ (by omega)
      rw [hstep] at hexact
      obtain ⟨rfl, hpages⟩ := hexact (by omega)
      constructor
      · rw [← List.map_append, ← List.drop_drop, List.take_append_drop]
      · intro k hk
        cases k with
        | zero => simpa using ⟨hmod, hfits⟩
        | succ k =>
          have hk' := hpages k ((onPage_succ (by omega)).mp hk)
          have hsum : c + (k + 1) * size = c + size + k * size := by rw [Nat.add_mul, Nat.one_mul]; omega
          rwa [hsum]

theorem readPages_of (h : Slices serve xs size modulus clip Fits) {c : Nat} (hc : c ≤ xs.length)
    (hpages : ∀ k, OnPage xs.length size c k → c + k * size < modulus ∧ Fits (c + k * size)) :
    ∃ fuel, readPages serve fuel c = some ((xs.drop c).map clip) := by
  have hfirst := hpages 0 (.inl rfl)
  rw [Nat.zero_mul, Nat.add_zero] at hfirst
  obtain ⟨hmod, hfits⟩ := hfirst
  induction hn : xs.length - c using Nat.strongRecOn generalizing c with
  | ind n ih =>
    by_cases hlast : xs.length ≤ c + size
    · have hwhole : (xs.drop c).take size = xs.drop c := List.take_of_length_le (by rw [List.length_drop]; omega)
      refine ⟨1, ?_⟩
      rw [readPages, h.serves c hc hmod hfits, Option.bind_some, if_pos (by simpa using hlast), hwhole]
    · have hpages' : ∀ k, OnPage xs.length size (c + size) k →
          c + size + k * size < modulus ∧ Fits (c + size + k * size) := by
        intro k hk
        have hk' := hpages (k + 1) ((onPage_succ (by omega)).mpr hk)
        have hsum : c + (k + 1) * size = c + size + k * size := by rw [Nat.add_mul, Nat.one_mul]; omega
        rwa [hsum] at hk'
      have hfirst := hpages' 0 (.inl rfl)
      rw [Nat.zero_mul, Nat.add_zero] at hfirst
      have hpos := h.pos
      obtain ⟨fuel, hread⟩ := ih (xs.length - (c + size)) (by omega) (by omega) hpages' hfirst.1 hfirst.2 rfl
      have hnext : min xs.length (c + size) % modulus = c + size := by
        rw [Nat.min_eq_right (by omega), Nat.mod_eq_of_lt hfirst.1]
      refine ⟨fuel + 1, ?_⟩
      rw [readPages, h.serves c hc hmod hfits, Option.bind_some, if_neg (by simpa using hlast), hnext, hread,
        Option.map_some, ← List.map_append, ← List.drop_drop, List.take_append_drop]

/-- The reader gets the list exactly when every page of it is answered, begins below the modulus, and no
item is changed. -/
theorem reads_iff (h : Slices serve xs size modulus clip Fits) (hmod : 0 < modulus) :
    (∃ fuel, readPages serve fuel 0 = some xs) ↔
      (∀ k, OnPage xs.length size 0 k → k * size < modulus ∧ Fits (k * size)) ∧ ∀ x ∈ xs, clip x = x := by
  have hself : xs.map clip = xs ↔ ∀ x ∈ xs, clip x = x := by
    conv_lhs => rhs; rw [← List.map_id xs]
    exact List.map_inj_left
  rw [← hself]
  constructor
  · rintro ⟨fuel, hread⟩
    obtain ⟨hxs, hpages⟩ := (h.of_readPages (Nat.zero_le _) hmod hread).2 rfl
    simp only [Nat.zero_add] at hpages
    exact ⟨hpages, by simpa using hxs.symm⟩
  · rintro ⟨hpages, hclip⟩
    obtain ⟨fuel, hread⟩ := h.readPages_of (Nat.zero_le _) (by simpa only [Nat.zero_add] using hpages)
    rw [List.drop_zero, hclip] at hread
    exact ⟨fuel, hread⟩

end Slices

end Framework
