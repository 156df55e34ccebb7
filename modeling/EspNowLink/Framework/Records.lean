import EspNowLink.Framework.Memory

namespace Framework

theorem Holds.suffix {mem : Nat → Option UInt8} {off : Nat} {bs rest : List UInt8} (h : Holds mem off bs)
    (hrest : rest <:+ bs) : Holds mem (off + bs.length - rest.length) rest := by
  obtain ⟨front, rfl⟩ := hrest
  have hdrop := h.drop front.length
  rw [List.drop_left] at hdrop
  have hoff : off + (front ++ rest).length - rest.length = off + front.length := by
    rw [List.length_append]
    omega
  rw [hoff]
  exact hdrop

namespace Records

section Reading

variable {α : Type*} (admits : List α → α → Bool)

/-- `n` records, one behind the other. One that is not admitted behind those before it (the last of
them first) ends the reading. -/
def readMany (read : List UInt8 → Option (α × List UInt8)) :
    Nat → List α → List UInt8 → Option (List α × List UInt8)
  | 0, _, bs => some ([], bs)
  | n + 1, before, bs => do
    let r ← read bs
    if admits before r.1 then
      let rs ← readMany read n (r.1 :: before) r.2
      return (r.1 :: rs.1, rs.2)
    else none

/-- The loop over memory. The outer `none` is a read outside the memory. -/
def readManyAt (readAt : Nat → Option (Option (α × Nat))) :
    Nat → List α → Nat → Option (Option (List α × Nat))
  | 0, _, off => some (some ([], off))
  | n + 1, before, off => do
    match ← readAt off with
    | none => return none
    | some r =>
      if admits before r.1 then
        let rs ← readManyAt readAt n (r.1 :: before) r.2
        return rs.map fun rs => (r.1 :: rs.1, rs.2)
      else return none

/-- Each of the records is admitted behind those before it. -/
def AdmitsAll : List α → List α → Prop
  | _, [] => True
  | before, a :: as => admits before a = true ∧ AdmitsAll (a :: before) as

/-- Over the memory up to `len` the reader stays inside, and does what `read` does on the bytes. -/
def ReadsAt (mem : Nat → Option UInt8) (len : Nat) (readAt : Nat → Option (Option (α × Nat)))
    (read : List UInt8 → Option (α × List UInt8)) : Prop :=
  ∀ off bs, Holds mem off bs → off + bs.length = len →
    readAt off = some ((read bs).map fun r => (r.1, len - r.2.length)) ∧
      ∀ r, read bs = some r → r.2 <:+ bs

end Reading

variable {α : Type*} {admits : List α → α → Bool} {read : List UInt8 → Option (α × List UInt8)}
  {n : Nat} {before as : List α} {bs rest : List UInt8}

theorem admitsAll_true (before : List α) : AdmitsAll (fun _ _ => true) before as := by
  induction as generalizing before with
  | nil => trivial
  | cons a as ih => exact ⟨rfl, ih (a :: before)⟩

theorem readMany_cons {a : α} (h : read bs = some (a, rest)) :
    readMany admits read (n + 1) before bs =
      if admits before a then
        (readMany admits read n (a :: before) rest).map fun rs => (a :: rs.1, rs.2)
      else none := by
  rw [readMany, h]
  show (if admits before a then _ else _) = _
  cases readMany admits read n (a :: before) rest <;> rfl

theorem readMany_none (h : read bs = none) : readMany admits read (n + 1) before bs = none := by
  rw [readMany, h]
  rfl

/-- Records that are read back one by one are read back as a whole. -/
theorem readMany_flatMap {write : α → List UInt8}
    (hread : ∀ a ∈ as, ∀ rest, read (write a ++ rest) = some (a, rest))
    (hadmits : AdmitsAll admits before as) (rest : List UInt8) :
    readMany admits read as.length before (as.flatMap write ++ rest) = some (as, rest) := by
  induction as generalizing before with
  | nil => rfl
  | cons a as ih =>
    have hfirst := hread a List.mem_cons_self (as.flatMap write ++ rest)
    have hothers := ih (fun b hb => hread b (List.mem_cons_of_mem a hb)) hadmits.2
    rw [List.flatMap_cons, List.append_assoc, List.length_cons, readMany_cons hfirst, if_pos hadmits.1,
      hothers]
    rfl

/-- When one of the records is not admitted, nothing is read. -/
theorem readMany_flatMap_none {write : α → List UInt8}
    (hread : ∀ a ∈ as, ∀ rest, read (write a ++ rest) = some (a, rest))
    (hadmits : ¬ AdmitsAll admits before as) (rest : List UInt8) :
    readMany admits read as.length before (as.flatMap write ++ rest) = none := by
  induction as generalizing before with
  | nil => exact absurd trivial hadmits
  | cons a as ih =>
    have hfirst := hread a List.mem_cons_self (as.flatMap write ++ rest)
    rw [List.flatMap_cons, List.append_assoc, List.length_cons, readMany_cons hfirst]
    by_cases ha : admits before a = true
    · have hothers := ih (fun b hb => hread b (List.mem_cons_of_mem a hb)) fun h => hadmits ⟨ha, h⟩
      rw [if_pos ha, hothers]
      rfl
    · rw [if_neg ha]

/-- What is read are as many records as announced, all of them admitted, and behind them what is left. -/
theorem readMany_cases (h : readMany admits read (n + 1) before bs = some (as, rest)) :
    ∃ a more others, read bs = some (a, more) ∧ admits before a = true ∧
      readMany admits read n (a :: before) more = some (others, rest) ∧ as = a :: others := by
  cases hread : read bs with
  | none =>
    rw [readMany_none hread] at h
    cases h
  | some r =>
    rw [readMany_cons hread] at h
    by_cases hadmits : admits before r.1 = true
    · rw [if_pos hadmits] at h
      obtain ⟨⟨others, left⟩, hothers, heq⟩ := Option.map_eq_some_iff.mp h
      obtain ⟨rfl, rfl⟩ := Prod.mk.inj heq
      exact ⟨r.1, r.2, others, rfl, hadmits, hothers, rfl⟩
    · rw [if_neg hadmits] at h
      cases h

theorem readMany_length (h : readMany admits read n before bs = some (as, rest)) : as.length = n := by
  induction n generalizing before bs as with
  | zero =>
    obtain ⟨rfl, rfl⟩ := Prod.mk.inj (Option.some.inj h)
    rfl
  | succ n ih =>
    obtain ⟨a, more, others, -, -, hothers, rfl⟩ := readMany_cases h
    rw [List.length_cons, ih hothers]

theorem readMany_admits (h : readMany admits read n before bs = some (as, rest)) :
    AdmitsAll admits before as := by
  induction n generalizing before bs as with
  | zero =>
    obtain ⟨rfl, rfl⟩ := Prod.mk.inj (Option.some.inj h)
    trivial
  | succ n ih =>
    obtain ⟨a, more, others, -, hadmits, hothers, rfl⟩ := readMany_cases h
    exact ⟨hadmits, ih hothers⟩

/-- A property of every record that `read` gives holds of all records read. -/
theorem readMany_forall {P : α → Prop} (hread : ∀ bs r, read bs = some r → P r.1)
    (h : readMany admits read n before bs = some (as, rest)) : ∀ a ∈ as, P a := by
  induction n generalizing before bs as with
  | zero =>
    obtain ⟨rfl, rfl⟩ := Prod.mk.inj (Option.some.inj h)
    simp
  | succ n ih =>
    obtain ⟨a, more, others, hfirst, -, hothers, rfl⟩ := readMany_cases h
    exact List.forall_mem_cons.mpr ⟨hread bs _ hfirst, ih hothers⟩

/-- Records of one size take up that size each. -/
theorem readMany_fixed {size : Nat}
    (hread : ∀ bs r, read bs = some r → size ≤ bs.length ∧ r.2 = bs.drop size)
    (h : readMany admits read n before bs = some (as, rest)) :
    size * n ≤ bs.length ∧ rest = bs.drop (size * n) := by
  induction n generalizing before bs as with
  | zero =>
    obtain ⟨rfl, rfl⟩ := Prod.mk.inj (Option.some.inj h)
    exact ⟨Nat.zero_le _, rfl⟩
  | succ n ih =>
    obtain ⟨a, more, others, hfirst, -, hothers, rfl⟩ := readMany_cases h
    obtain ⟨hsize, hmore⟩ := hread bs _ hfirst
    obtain ⟨hle, hrest⟩ := ih hothers
    dsimp only at hmore
    rw [hmore, List.length_drop] at hle
    rw [hmore, List.drop_drop, Nat.add_comm, ← Nat.mul_succ] at hrest
    rw [Nat.mul_succ]
    exact ⟨by omega, hrest⟩

theorem ReadsAt.many {mem : Nat → Option UInt8} {len : Nat} {readAt : Nat → Option (Option (α × Nat))}
    (h : ReadsAt mem len readAt read) (admits : List α → α → Bool) (n : Nat) (before : List α) :
    ReadsAt mem len (readManyAt admits readAt n before) (readMany admits read n before) := by
  induction n generalizing before with
  | zero =>
    intro off bs hmem hlen
    refine ⟨?_, fun r hr => ?_⟩
    · rw [readManyAt, readMany, Option.map_some, ← hlen, Nat.add_sub_cancel]
    · obtain rfl := Option.some.inj hr
      exact List.suffix_rfl
  | succ n ih =>
    intro off bs hmem hlen
    obtain ⟨hat, hsuffix⟩ := h off bs hmem hlen
    cases hread : read bs with
    | none =>
      rw [hread] at hat
      refine ⟨?_, fun r hr => ?_⟩
      · rw [readManyAt, hat, readMany_none hread]
        rfl
      · rw [readMany_none hread] at hr
        cases hr
    | some r =>
      have hrest := hsuffix r hread
      have hmore := hmem.suffix hrest
      rw [hlen] at hmore
      have hle := hrest.length_le
      obtain ⟨hothers, hothersSuffix⟩ := ih (r.1 :: before) (len - r.2.length) r.2 hmore (by omega)
      rw [hread, Option.map_some] at hat
      refine ⟨?_, fun rs hrs => ?_⟩
      · rw [readManyAt, hat, readMany_cons hread]
        simp only [Option.bind_eq_bind, Option.bind_some]
        by_cases hadmits : admits before r.1 = true
        · rw [if_pos hadmits, if_pos hadmits, hothers]
          cases readMany admits read n (r.1 :: before) r.2 <;> rfl
        · rw [if_neg hadmits, if_neg hadmits]
          rfl
      · obtain ⟨a, more, others, hfirst, -, hmany, -⟩ := readMany_cases hrs
        rw [hread] at hfirst
        obtain rfl := Option.some.inj hfirst
        exact (hothersSuffix _ hmany).trans hrest

/-- The records that are admitted are those whose keys are below the bound and not repeated. -/
theorem admitsAll_keys {key : α → UInt8} {bound : UInt8}
    (hadmits : ∀ before a, admits before a = true ↔ key a < bound ∧ key a ∉ before.map key) :
    AdmitsAll admits before as ↔
      (∀ a ∈ as, key a < bound ∧ key a ∉ before.map key) ∧ (as.map key).Nodup := by
  induction as generalizing before with
  | nil => simp [AdmitsAll]
  | cons a as ih =>
    have hkeys : (a :: as).map key = key a :: as.map key := rfl
    rw [AdmitsAll, hadmits, ih, List.forall_mem_cons, hkeys, List.nodup_cons]
    constructor
    · rintro ⟨ha, hothers, hnodup⟩
      refine ⟨⟨ha, fun b hb => ?_⟩, fun hrepeated => ?_, hnodup⟩
      · exact ⟨(hothers b hb).1, fun hold => (hothers b hb).2 (List.mem_cons_of_mem _ hold)⟩
      · obtain ⟨b, hb, hkey⟩ := List.mem_map.mp hrepeated
        exact (hothers b hb).2 (List.mem_cons.mpr (.inl hkey))
    · rintro ⟨⟨ha, hothers⟩, hfresh, hnodup⟩
      refine ⟨ha, fun b hb => ⟨(hothers b hb).1, fun hold => ?_⟩, hnodup⟩
      rcases List.mem_cons.mp hold with hkey | hold
      · exact hfresh (hkey ▸ List.mem_map_of_mem hb)
      · exact (hothers b hb).2 hold

end Records

end Framework
