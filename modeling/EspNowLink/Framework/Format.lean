import Mathlib.Algebra.Ring.Nat
import Mathlib.Algebra.BigOperators.Group.List.Basic
import Mathlib.Data.List.Basic

namespace Framework

/-- A wire format: how a value is written, if it can be, and how it is read off the front of a
stream. What was written is read back, whatever follows it. -/
structure Format (α : Type*) where
  put : α → Option (List UInt8)
  get : List UInt8 → Option (α × List UInt8)
  get_put : ∀ {a bs}, put a = some bs → ∀ rest, get (bs ++ rest) = some (a, rest)

namespace Format

variable {α β : Type*}

def byte : Format UInt8 where
  put b := some [b]
  get
    | b :: rest => some (b, rest)
    | [] => none
  get_put := by
    intro a bs h rest
    cases h
    rfl

/-- One value after the other. -/
def seq (f : Format α) (g : Format β) : Format (α × β) where
  put x := (f.put x.1).bind fun bs => (g.put x.2).map (bs ++ ·)
  get bs := (f.get bs).bind fun x => (g.get x.2).map fun y => ((x.1, y.1), y.2)
  get_put := by
    intro x bs h rest
    obtain ⟨cs, hf, hg⟩ := Option.bind_eq_some_iff.mp h
    obtain ⟨ds, hd, rfl⟩ := Option.map_eq_some_iff.mp hg
    rw [List.append_assoc, f.get_put hf, Option.bind_some, g.get_put hd]
    rfl

/-- The values of `β` that stand for one value of `α` each. -/
def iso (f : Format α) (pack : β → α) (unpack : α → β) (h : ∀ b, unpack (pack b) = b) : Format β where
  put b := f.put (pack b)
  get bs := (f.get bs).map fun x => (unpack x.1, x.2)
  get_put := by
    intro b bs hb rest
    rw [f.get_put hb, Option.map_some, h]

/-- A flag is written as 0 or 1; every other byte is read as set. -/
def flag : Format Bool where
  put v := some [if v then 1 else 0]
  get
    | b :: rest => some (b ≠ 0, rest)
    | [] => none
  get_put := by
    intro v bs h rest
    cases h
    cases v <;> rfl

/-- Bytes behind their number. -/
def counted (count : Format Nat) : Format (List UInt8) where
  put s := (count.put s.length).map (· ++ s)
  get bs := (count.get bs).bind fun n =>
    if n.2.length < n.1 then none else some (n.2.take n.1, n.2.drop n.1)
  get_put := by
    intro s bs h rest
    obtain ⟨cs, hc, rfl⟩ := Option.map_eq_some_iff.mp h
    rw [List.append_assoc, count.get_put hc, Option.bind_some, if_neg (by simp)]
    simp

/-- As many values as asked for. -/
def getMany (f : Format α) : Nat → List UInt8 → Option (List α × List UInt8)
  | 0, bs => some ([], bs)
  | n + 1, bs => (f.get bs).bind fun x => (f.getMany n x.2).map fun y => (x.1 :: y.1, y.2)

def putMany (f : Format α) : List α → Option (List UInt8)
  | [] => some []
  | x :: xs => (f.put x).bind fun bs => (f.putMany xs).map (bs ++ ·)

theorem getMany_putMany (f : Format α) {xs : List α} {bs : List UInt8} (h : f.putMany xs = some bs)
    (rest : List UInt8) : f.getMany xs.length (bs ++ rest) = some (xs, rest) := by
  induction xs generalizing bs with
  | nil =>
    cases h
    rfl
  | cons x xs ih =>
    obtain ⟨cs, hx, htail⟩ := Option.bind_eq_some_iff.mp h
    obtain ⟨ds, hxs, rfl⟩ := Option.map_eq_some_iff.mp htail
    rw [List.length_cons, getMany, List.append_assoc, f.get_put hx, Option.bind_some, ih hxs]
    rfl

/-- A list behind its length. -/
def many (count : Format Nat) (f : Format α) : Format (List α) where
  put xs := (count.put xs.length).bind fun bs => (f.putMany xs).map (bs ++ ·)
  get bs := (count.get bs).bind fun n => f.getMany n.1 n.2
  get_put := by
    intro xs bs h rest
    obtain ⟨cs, hc, htail⟩ := Option.bind_eq_some_iff.mp h
    obtain ⟨ds, hds, rfl⟩ := Option.map_eq_some_iff.mp htail
    rw [List.append_assoc, count.get_put hc, Option.bind_some, f.getMany_putMany hds]

/-- Seven bits a byte, lowest first, every byte but the last with its high bit set. A value below
`128 ^ (n + 1)` takes at most `n + 1` bytes. -/
def encodeVar : Nat → Nat → List UInt8
  | 0, v => [UInt8.ofNat v]
  | n + 1, v => if v < 128 then [UInt8.ofNat v] else UInt8.ofNat (v % 128 + 128) :: encodeVar n (v / 128)

/-- At most `n` bytes are read. -/
def decodeVar : Nat → List UInt8 → Option (Nat × List UInt8)
  | n + 1, b :: rest =>
    if b.toNat < 128 then some (b.toNat, rest)
    else (decodeVar n rest).map fun x => (b.toNat - 128 + 128 * x.1, x.2)
  | _, _ => none

theorem decodeVar_encodeVar {n v : Nat} (hv : v < 128 ^ (n + 1)) (rest : List UInt8) :
    decodeVar (n + 1) (encodeVar n v ++ rest) = some (v, rest) := by
  induction n generalizing v with
  | zero =>
    have hsmall : v < 128 := by simpa using hv
    have hbyte : (UInt8.ofNat v).toNat = v := by
      rw [UInt8.toNat_ofNat']
      omega
    simp [encodeVar, decodeVar, hbyte, hsmall]
  | succ n ih =>
    by_cases hsmall : v < 128
    · have hbyte : (UInt8.ofNat v).toNat = v := by
        rw [UInt8.toNat_ofNat']
        omega
      simp [encodeVar, decodeVar, hbyte, hsmall]
    · have hbyte : (UInt8.ofNat (v % 128 + 128)).toNat = v % 128 + 128 := by
        rw [UInt8.toNat_ofNat']
        omega
      have hrest : v / 128 < 128 ^ (n + 1) := by
        rw [pow_succ] at hv
        exact Nat.div_lt_of_lt_mul (by rwa [Nat.mul_comm])
      rw [encodeVar, if_neg hsmall, List.cons_append, decodeVar, hbyte, if_neg (by omega), ih hrest]
      simp
      omega

/-- The length of `encodeVar`. -/
def varSize : Nat → Nat → Nat
  | 0, _ => 1
  | n + 1, v => if v < 128 then 1 else varSize n (v / 128) + 1

theorem length_encodeVar (n v : Nat) : (encodeVar n v).length = varSize n v := by
  induction n generalizing v with
  | zero => rfl
  | succ n ih =>
    unfold encodeVar varSize
    split
    · rfl
    · rw [List.length_cons, ih]

theorem varSize_le (n v : Nat) : varSize n v ≤ n + 1 := by
  induction n generalizing v with
  | zero => exact Nat.le_refl _
  | succ n ih =>
    unfold varSize
    split
    · omega
    · exact Nat.succ_le_succ (ih _)

/-- The format writes `size x` bytes for `x`, and refuses no value of at most `limit` bytes. -/
structure Sized (f : Format α) (limit : Nat) (size : α → Nat) : Prop where
  writes : ∀ x, size x ≤ limit → ∃ bs, f.put x = some bs
  length : ∀ x bs, f.put x = some bs → bs.length = size x

section Sized

variable {f : Format α} {g : Format β} {limit : Nat} {size : α → Nat} {sizeG : β → Nat}

theorem sized_byte : byte.Sized limit fun _ => 1 :=
  ⟨fun x _ => ⟨[x], rfl⟩, fun _ _ h => by cases h; rfl⟩

theorem sized_flag : flag.Sized limit fun _ => 1 :=
  ⟨fun x _ => ⟨_, rfl⟩, fun _ _ h => by cases h; rfl⟩

theorem Sized.seq (hf : f.Sized limit size) (hg : g.Sized limit sizeG) :
    (f.seq g).Sized limit fun x => size x.1 + sizeG x.2 := by
  constructor
  · intro x hx
    obtain ⟨bs, hbs⟩ := hf.writes x.1 (by omega)
    obtain ⟨cs, hcs⟩ := hg.writes x.2 (by omega)
    exact ⟨bs ++ cs, by simp [Format.seq, hbs, hcs]⟩
  · intro x bs h
    obtain ⟨cs, hcs, hmap⟩ := Option.bind_eq_some_iff.mp h
    obtain ⟨ds, hds, rfl⟩ := Option.map_eq_some_iff.mp hmap
    rw [List.length_append, hf.length _ _ hcs, hg.length _ _ hds]

theorem Sized.iso (hf : f.Sized limit size) (pack : β → α) (unpack : α → β)
    (h : ∀ b, unpack (pack b) = b) : (f.iso pack unpack h).Sized limit fun b => size (pack b) :=
  ⟨fun b hb => hf.writes (pack b) hb, fun b bs hbs => hf.length (pack b) bs hbs⟩

theorem Sized.counted {count : Format Nat} {sizeCount : Nat → Nat}
    (hwrites : ∀ n, n ≤ limit → ∃ bs, count.put n = some bs)
    (hlength : ∀ n bs, count.put n = some bs → bs.length = sizeCount n) :
    (Format.counted count).Sized limit fun s => sizeCount s.length + s.length := by
  constructor
  · intro s hs
    obtain ⟨bs, hbs⟩ := hwrites s.length (by omega)
    exact ⟨bs ++ s, by simp [Format.counted, hbs]⟩
  · intro s bs h
    obtain ⟨cs, hcs, rfl⟩ := Option.map_eq_some_iff.mp h
    rw [List.length_append, hlength _ _ hcs]

theorem Sized.putMany (hf : f.Sized limit size) (xs : List α) :
    (((xs.map size).sum ≤ limit → ∃ bs, f.putMany xs = some bs)) ∧
    ∀ bs, f.putMany xs = some bs → bs.length = (xs.map size).sum := by
  induction xs with
  | nil =>
    refine ⟨fun _ => ⟨[], rfl⟩, ?_⟩
    intro bs h
    cases h
    rfl
  | cons x xs ih =>
    constructor
    · intro hsum
      rw [List.map_cons, List.sum_cons] at hsum
      obtain ⟨bs, hbs⟩ := hf.writes x (by omega)
      obtain ⟨cs, hcs⟩ := ih.1 (by omega)
      exact ⟨bs ++ cs, by simp [Format.putMany, hbs, hcs]⟩
    · intro bs h
      obtain ⟨cs, hcs, hmap⟩ := Option.bind_eq_some_iff.mp h
      obtain ⟨ds, hds, rfl⟩ := Option.map_eq_some_iff.mp hmap
      rw [List.length_append, hf.length _ _ hcs, ih.2 _ hds, List.map_cons, List.sum_cons]

end Sized

end Format

end Framework
