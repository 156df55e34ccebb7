import Mathlib.Algebra.BigOperators.Group.List.Basic
import Mathlib.Algebra.Ring.Nat
import Mathlib.Data.List.Infix

namespace Framework

section Search

variable {β : Type*} [DecidableEq β]

/-- What follows the first place where `p` stands. -/
def afterFirst (p : List β) : List β → Option (List β)
  | [] => none
  | c :: t => if p <+: c :: t then some ((c :: t).drop p.length) else afterFirst p t

theorem afterFirst_skip {a : β} {p t : List β} {c : β} (h : c ≠ a) :
    afterFirst (a :: p) (c :: t) = afterFirst (a :: p) t := by
  have hno : ¬ a :: p <+: c :: t := fun hpre => h (List.cons_prefix_cons.mp hpre).1.symm
  rw [afterFirst, if_neg hno]

theorem afterFirst_skip_all {a : β} {p s t : List β} (h : a ∉ s) :
    afterFirst (a :: p) (s ++ t) = afterFirst (a :: p) t := by
  induction s with
  | nil => rfl
  | cons c s ih =>
    have hc : c ≠ a := fun hca => h (hca ▸ List.mem_cons_self)
    rw [List.cons_append, afterFirst_skip hc, ih fun hmem => h (List.mem_cons_of_mem c hmem)]

theorem afterFirst_here {a : β} {p t : List β} : afterFirst (a :: p) (a :: (p ++ t)) = some t := by
  have hpre : a :: p <+: a :: (p ++ t) := List.prefix_append (a :: p) t
  rw [afterFirst, if_pos hpre]
  exact congrArg some (List.drop_left' rfl)

/-- What is found lies in the text. -/
theorem mem_of_afterFirst {p t r : List β} (h : afterFirst p t = some r) : ∀ c ∈ r, c ∈ t := by
  induction t with
  | nil => cases h
  | cons c t ih =>
    rw [afterFirst] at h
    split at h
    · rw [← Option.some.inj h]
      exact fun d hd => List.mem_of_mem_drop hd
    · exact fun d hd => List.mem_cons_of_mem c (ih h d hd)

end Search

section Quotes

/-- A backslash before every quote and backslash. -/
def escape : List UInt8 → List UInt8
  | [] => []
  | c :: s => if c = 0x5C ∨ c = 0x22 then 0x5C :: c :: escape s else c :: escape s

def quote (s : List UInt8) : List UInt8 := 0x22 :: (escape s ++ [0x22])

/-- The text up to the next quote that no backslash precedes; the flag stands for a backslash before. -/
def unquoteFrom : Bool → List UInt8 → Option (List UInt8)
  | _, [] => none
  | true, c :: s => (unquoteFrom false s).map (c :: ·)
  | false, c :: s =>
    if c = 0x5C then unquoteFrom true s
    else if c = 0x22 then some []
    else (unquoteFrom false s).map (c :: ·)

def unquote (s : List UInt8) : Option (List UInt8) := unquoteFrom false s

theorem quote_append (s t : List UInt8) : quote s ++ t = 0x22 :: (escape s ++ 0x22 :: t) := by
  simp [quote]

theorem length_quote (s : List UInt8) : (quote s).length = (escape s).length + 2 := by
  simp [quote]

theorem unquoteFrom_plain {c : UInt8} (hback : c ≠ 0x5C) (hquote : c ≠ 0x22) (s : List UInt8) :
    unquoteFrom false (c :: s) = (unquoteFrom false s).map (c :: ·) := by
  rw [unquoteFrom, if_neg hback, if_neg hquote]

theorem unquote_escape (s t : List UInt8) : unquote (escape s ++ 0x22 :: t) = some s := by
  induction s with
  | nil => rfl
  | cons c s ih =>
    have hrest : unquoteFrom false (escape s ++ 0x22 :: t) = some s := ih
    rw [unquote, escape]
    split
    · have hback : unquoteFrom false (0x5C :: c :: (escape s ++ 0x22 :: t)) =
          (unquoteFrom false (escape s ++ 0x22 :: t)).map (c :: ·) := rfl
      rw [List.cons_append, List.cons_append, hback, hrest, Option.map_some]
    · rename_i hc
      obtain ⟨hback, hquote⟩ := not_or.mp hc
      rw [List.cons_append, unquoteFrom_plain hback hquote, hrest, Option.map_some]

theorem mem_escape {s : List UInt8} {c : UInt8} (hc : c ≠ 0x5C) : c ∈ escape s ↔ c ∈ s := by
  induction s with
  | nil => rfl
  | cons d s ih =>
    rw [escape]
    split <;> simp [ih, hc]

/-- A key has letters only: no quote, backslash or punctuation of an object. -/
structure Letters (k : List UInt8) : Prop where
  ne_nil : k ≠ []
  plain : ∀ c ∈ k, c ≠ 0x22 ∧ c ≠ 0x5C ∧ c ≠ 0x3A ∧ c ≠ 0x2C ∧ c ≠ 0x7D

theorem escape_letters {k : List UInt8} (h : ∀ c ∈ k, c ≠ 0x22 ∧ c ≠ 0x5C) : escape k = k := by
  induction k with
  | nil => rfl
  | cons c k ih =>
    obtain ⟨hquote, hback⟩ := h c List.mem_cons_self
    have hno : ¬ (c = 0x5C ∨ c = 0x22) := not_or.mpr ⟨hback, hquote⟩
    rw [escape, if_neg hno, ih fun d hd => h d (List.mem_cons_of_mem c hd)]

/-- A key with its closing quote starts an escaped text only as all of it. -/
theorem closed_prefix_iff {k : List UInt8} (hk : ∀ c ∈ k, c ≠ 0x22 ∧ c ≠ 0x5C) (s t : List UInt8) :
    k ++ [0x22] <+: escape s ++ 0x22 :: t ↔ s = k := by
  induction k generalizing s with
  | nil =>
    cases s with
    | nil => simp [escape]
    | cons c s =>
      rw [List.nil_append, escape]
      split
      · simp
      · rename_i hc
        have hquote := (not_or.mp hc).2
        simp [Ne.symm hquote]
  | cons a k ih =>
    obtain ⟨hquote, hback⟩ := hk a List.mem_cons_self
    have hrest := ih fun c hc => hk c (List.mem_cons_of_mem a hc)
    cases s with
    | nil => simp [escape, hquote]
    | cons c s =>
      rw [escape]
      split
      · rename_i hc
        have hne : c ≠ a := by
          rintro rfl
          rcases hc with hc | hc
          · exact hback hc
          · exact hquote hc
        simp [hback, hne]
      · simp [hrest, eq_comm]

end Quotes

section Objects

/-- A value is a quoted text or the digits of a number. -/
inductive LooseValue where
  | text (s : List UInt8)
  | number (digits : List UInt8)

abbrev LooseMember := List UInt8 × LooseValue

def LooseValue.written : LooseValue → List UInt8
  | .text s => quote s
  | .number digits => digits

/-- Members, each behind a comma, and the end of the object. -/
def membersText : List LooseMember → List UInt8
  | [] => [0x7D]
  | (k, v) :: ms => 0x2C :: (quote k ++ 0x3A :: (v.written ++ membersText ms))

/-- An object in braces. -/
def objectText (ms : List LooseMember) : List UInt8 := 0x7B :: (membersText ms).tail

/-- The quoted key stands in the value: as all of it, or at its end behind a quote of the text. -/
def LooseValue.Masks (k : List UInt8) : LooseValue → Prop
  | .text s => s = k ∨ 0x22 :: k <:+ s
  | .number _ => False

instance (k : List UInt8) : (v : LooseValue) → Decidable (v.Masks k)
  | .text s => inferInstanceAs (Decidable (s = k ∨ 0x22 :: k <:+ s))
  | .number _ => inferInstanceAs (Decidable False)

/-- What a search for the quoted key, and then for a colon, comes to: the value of the key, or what
follows the first value that masks it. -/
def looked (k : List UInt8) : List LooseMember → Option (LooseValue × List LooseMember)
  | [] => none
  | (k', v) :: ms =>
    if k' = k then some (v, ms)
    else if v.Masks k then ms.head?.map fun m => (m.2, ms.tail)
    else looked k ms

/-- The text behind the first colon behind the quoted key. -/
def keyedText (k text : List UInt8) : Option (List UInt8) :=
  (afterFirst (0x22 :: (k ++ [0x22])) text).bind (afterFirst [0x3A])

variable {k : List UInt8}

/-- A text that masks a key ends with its last letter. -/
theorem getLast?_of_masks {s : List UInt8} (hk : k ≠ []) (h : (LooseValue.text s).Masks k) :
    s.getLast? = k.getLast? := by
  rcases h with rfl | ⟨t, rfl⟩
  · rfl
  · obtain ⟨c, k, rfl⟩ := List.exists_cons_of_ne_nil hk
    rw [List.getLast?_append, List.getLast?_cons_cons]
    cases hlast : (c :: k).getLast? with
    | none => exact absurd (List.getLast?_eq_none_iff.mp hlast) (List.cons_ne_nil c k)
    | some d => rfl

theorem looked_here (v : LooseValue) (ms : List LooseMember) : looked k ((k, v) :: ms) = some (v, ms) :=
  if_pos rfl

theorem looked_skip {k' : List UInt8} {v : LooseValue} (hkey : k' ≠ k) (hmask : ¬ v.Masks k)
    (ms : List LooseMember) : looked k ((k', v) :: ms) = looked k ms := by
  rw [looked, if_neg hkey, if_neg hmask]

/-- The search passes an escaped text unless the key stands at its end. -/
theorem afterFirst_escape (hk : Letters k) (s t : List UInt8) :
    afterFirst (0x22 :: (k ++ [0x22])) (escape s ++ 0x22 :: t) =
      if 0x22 :: k <:+ s then some t else afterFirst (0x22 :: (k ++ [0x22])) (0x22 :: t) := by
  have hplain : ∀ c ∈ k, c ≠ 0x22 ∧ c ≠ 0x5C := fun c hc => ⟨(hk.plain c hc).1, (hk.plain c hc).2.1⟩
  induction s with
  | nil =>
    have hno : ¬ 0x22 :: k <:+ [] := by simp
    rw [if_neg hno]
    rfl
  | cons c s ih =>
    have hsuffix : 0x22 :: k <:+ c :: s ↔ (c = 0x22 ∧ s = k) ∨ 0x22 :: k <:+ s := by
      rw [List.suffix_cons_iff]
      simp only [List.cons.injEq, eq_comm]
    by_cases hquote : c = 0x22
    · subst hquote
      have hesc : escape (0x22 :: s) = 0x5C :: 0x22 :: escape s := rfl
      rw [hesc, List.cons_append, List.cons_append, afterFirst_skip (by decide)]
      by_cases hs : s = k
      · have hkesc := escape_letters hplain
        rw [if_pos (hsuffix.mpr (Or.inl ⟨rfl, hs⟩)), hs, hkesc]
        have hhere := afterFirst_here (a := (0x22 : UInt8)) (p := k ++ [0x22]) (t := t)
        rwa [List.append_assoc] at hhere
      · have hno : ¬ 0x22 :: (k ++ [0x22]) <+: 0x22 :: (escape s ++ 0x22 :: t) := by
          rw [List.cons_prefix_cons, closed_prefix_iff hplain]
          exact fun h => hs h.2
        rw [afterFirst, if_neg hno, ih]
        simp only [hsuffix, hs, and_false, false_or]
    · have hstep : afterFirst (0x22 :: (k ++ [0x22])) (escape (c :: s) ++ 0x22 :: t) =
          afterFirst (0x22 :: (k ++ [0x22])) (escape s ++ 0x22 :: t) := by
        rw [escape]
        split
        · rw [List.cons_append, List.cons_append, afterFirst_skip (by decide), afterFirst_skip hquote]
        · rw [List.cons_append, afterFirst_skip hquote]
      rw [hstep, ih]
      simp only [hsuffix, hquote, false_and, false_or]

/-- A quoted text is passed unless it masks the key. -/
theorem afterFirst_quote (hk : Letters k) (s : List UInt8) {t : List UInt8}
    (ht : ¬ k ++ [0x22] <+: t) :
    afterFirst (0x22 :: (k ++ [0x22])) (quote s ++ t) =
      if s = k ∨ 0x22 :: k <:+ s then some t else afterFirst (0x22 :: (k ++ [0x22])) t := by
  have hplain : ∀ c ∈ k, c ≠ 0x22 ∧ c ≠ 0x5C := fun c hc => ⟨(hk.plain c hc).1, (hk.plain c hc).2.1⟩
  rw [quote_append]
  by_cases hs : s = k
  · have hhere := afterFirst_here (a := (0x22 : UInt8)) (p := k ++ [0x22]) (t := t)
    rw [List.append_assoc] at hhere
    rw [if_pos (Or.inl hs), hs, escape_letters hplain]
    exact hhere
  · have hno : ¬ 0x22 :: (k ++ [0x22]) <+: 0x22 :: (escape s ++ 0x22 :: t) := by
      rw [List.cons_prefix_cons, closed_prefix_iff hplain]
      exact fun h => hs h.2
    have hclose : ¬ 0x22 :: (k ++ [0x22]) <+: 0x22 :: t := by
      rw [List.cons_prefix_cons]
      exact fun h => ht h.2
    rw [afterFirst, if_neg hno, afterFirst_escape hk, afterFirst, if_neg hclose]
    simp only [hs, false_or]

/-- No key follows a quoted text directly. -/
theorem not_prefix_of_head (hk : Letters k) {c : UInt8} (hc : c = 0x3A ∨ c = 0x2C ∨ c = 0x7D)
    (t : List UInt8) : ¬ k ++ [0x22] <+: c :: t := by
  cases k with
  | nil => exact absurd rfl hk.ne_nil
  | cons a k =>
    obtain ⟨-, -, hcolon, hcomma, hbrace⟩ := hk.plain a List.mem_cons_self
    rw [List.cons_append, List.cons_prefix_cons]
    rintro ⟨rfl, -⟩
    rcases hc with h | h | h
    · exact hcolon h
    · exact hcomma h
    · exact hbrace h

theorem membersText_head (ms : List LooseMember) :
    ∃ c t, membersText ms = c :: t ∧ (c = 0x2C ∨ c = 0x7D) := by
  cases ms with
  | nil => exact ⟨0x7D, [], rfl, Or.inr rfl⟩
  | cons m ms => exact ⟨0x2C, _, rfl, Or.inl rfl⟩

/-- Keys of letters, numbers of digits. -/
structure PlainMember (m : LooseMember) : Prop where
  key : Letters m.1
  number : ∀ digits, m.2 = .number digits → ∀ c ∈ digits, c ≠ 0x22 ∧ c ≠ 0x3A

/-- The first colon in the members is the one of the first member. -/
theorem afterFirst_colon {ms : List LooseMember} (hms : ∀ m ∈ ms, PlainMember m) :
    afterFirst [0x3A] (membersText ms) =
      ms.head?.map fun m => m.2.written ++ membersText ms.tail := by
  cases ms with
  | nil => rfl
  | cons m ms =>
    obtain ⟨k', v⟩ := m
    have hk' := (hms _ List.mem_cons_self).key
    have hplain : ∀ c ∈ k', c ≠ 0x22 ∧ c ≠ 0x5C := fun c hc => ⟨(hk'.plain c hc).1, (hk'.plain c hc).2.1⟩
    have hno : (0x3A : UInt8) ∉ 0x2C :: quote k' := by
      rw [quote, escape_letters hplain]
      intro hmem
      simp only [List.mem_cons, List.mem_append, List.not_mem_nil, or_false] at hmem
      rcases hmem with h | h | h | h
      · exact absurd h (by decide)
      · exact absurd h (by decide)
      · exact (hk'.plain _ h).2.2.1 rfl
      · exact absurd h (by decide)
    have hskip := afterFirst_skip_all (p := []) (t := 0x3A :: (v.written ++ membersText ms)) hno
    have hhere := afterFirst_here (a := (0x3A : UInt8)) (p := []) (t := v.written ++ membersText ms)
    exact hskip.trans hhere

/-- The search among the members of an object. -/
theorem keyedText_members (hk : Letters k) {ms : List LooseMember} (hms : ∀ m ∈ ms, PlainMember m) :
    keyedText k (membersText ms) = (looked k ms).map fun x => x.1.written ++ membersText x.2 := by
  induction ms with
  | nil => rfl
  | cons m ms ih =>
    obtain ⟨k', v⟩ := m
    obtain ⟨hk', hnumber⟩ := hms _ List.mem_cons_self
    have htail : ∀ m ∈ ms, PlainMember m := fun m hm => hms m (List.mem_cons_of_mem _ hm)
    obtain ⟨c, t, hrest, hc⟩ := membersText_head ms
    have hkey : afterFirst (0x22 :: (k ++ [0x22])) (membersText ((k', v) :: ms)) =
        if k' = k then some (0x3A :: (v.written ++ membersText ms))
        else afterFirst (0x22 :: (k ++ [0x22])) (v.written ++ membersText ms) := by
      have hsuffix : ¬ 0x22 :: k <:+ k' := by
        intro h
        have hmem : (0x22 : UInt8) ∈ k' := h.subset List.mem_cons_self
        exact (hk'.plain _ hmem).1 rfl
      have hquote := afterFirst_quote hk k' (t := 0x3A :: (v.written ++ membersText ms))
        (not_prefix_of_head hk (Or.inl rfl) _)
      rw [membersText, afterFirst_skip (by decide), hquote, afterFirst_skip (by decide)]
      simp only [hsuffix, or_false]
    rw [keyedText, hkey, looked]
    by_cases hsame : k' = k
    · rw [if_pos hsame, if_pos hsame, Option.bind_some]
      exact afterFirst_here (p := [])
    · rw [if_neg hsame, if_neg hsame]
      cases v with
      | text s =>
        have hquote := afterFirst_quote hk s (t := membersText ms)
          (hrest ▸ not_prefix_of_head hk (Or.inr hc) t)
        rw [LooseValue.written, hquote]
        by_cases hmask : s = k ∨ 0x22 :: k <:+ s
        · rw [if_pos hmask, if_pos (show (LooseValue.text s).Masks k from hmask), Option.bind_some,
            afterFirst_colon htail, Option.map_map]
          rfl
        · rw [if_neg hmask, if_neg (show ¬ (LooseValue.text s).Masks k from hmask)]
          exact ih htail
      | number digits =>
        have hno : (0x22 : UInt8) ∉ digits := fun hmem => (hnumber digits rfl _ hmem).1 rfl
        rw [LooseValue.written, afterFirst_skip_all hno,
          if_neg (show ¬ (LooseValue.number digits).Masks k from id)]
        exact ih htail

/-- The brace in front is no part of a key. -/
theorem keyedText_object (hk : Letters k) {ms : List LooseMember} (hms : ∀ m ∈ ms, PlainMember m) :
    keyedText k (objectText ms) = (looked k ms).map fun x => x.1.written ++ membersText x.2 := by
  rw [← keyedText_members hk hms]
  obtain ⟨c, t, hrest, hc⟩ := membersText_head ms
  have hquote : c ≠ 0x22 := by rcases hc with rfl | rfl <;> decide
  rw [objectText, hrest, List.tail_cons, keyedText, keyedText, afterFirst_skip (by decide),
    afterFirst_skip hquote]

theorem length_membersText (ms : List LooseMember) : (membersText ms).length =
    (ms.map fun m => (escape m.1).length + m.2.written.length + 4).sum + 1 := by
  induction ms with
  | nil => rfl
  | cons m ms ih =>
    obtain ⟨k', v⟩ := m
    rw [membersText, List.length_cons, List.length_append, List.length_cons, List.length_append, ih,
      length_quote, List.map_cons, List.sum_cons]
    dsimp only
    omega

theorem length_objectText (ms : List LooseMember) : (objectText ms).length = (membersText ms).length := by
  obtain ⟨c, t, hrest, -⟩ := membersText_head ms
  rw [objectText, hrest]
  rfl

/-- A byte that stands in no value stands in no member but the brace at the end. -/
theorem mem_membersText {ms : List LooseMember} (hms : ∀ m ∈ ms, PlainMember m)
    (hvalues : ∀ m ∈ ms, 0x7D ∉ m.2.written) :
    ∃ body, membersText ms = body ++ [0x7D] ∧ 0x7D ∉ body := by
  induction ms with
  | nil => exact ⟨[], rfl, List.not_mem_nil⟩
  | cons m ms ih =>
    obtain ⟨k', v⟩ := m
    obtain ⟨body, hbody, hno⟩ := ih (fun m hm => hms m (List.mem_cons_of_mem _ hm))
      (fun m hm => hvalues m (List.mem_cons_of_mem _ hm))
    have hk' := (hms _ List.mem_cons_self).key
    have hplain : ∀ c ∈ k', c ≠ 0x22 ∧ c ≠ 0x5C := fun c hc => ⟨(hk'.plain c hc).1, (hk'.plain c hc).2.1⟩
    refine ⟨0x2C :: (quote k' ++ 0x3A :: (v.written ++ body)), ?_, ?_⟩
    · rw [membersText, hbody]
      simp
    · rw [quote, escape_letters hplain]
      have hv := hvalues _ List.mem_cons_self
      have hkey : (0x7D : UInt8) ∉ k' := fun hmem => (hk'.plain _ hmem).2.2.2.2 rfl
      simp [hkey, hv, hno]

end Objects

end Framework
