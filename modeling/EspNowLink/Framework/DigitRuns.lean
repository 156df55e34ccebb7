import Mathlib.Data.List.Induction
import Mathlib.Data.Nat.Digits.Defs

namespace Framework

section DigitRuns

variable {β : Type*} (is_digit : β → Bool) (value : β → ℕ) (base : ℕ)

/-- The maximal runs of digits in a text. -/
def digitRuns (v : List β) : List (List β) := (v.splitOnP (!is_digit ·)).filter (!·.isEmpty)

/-- What a run of digits stands for. -/
def numberOf (run : List β) : ℕ := run.foldl (fun n c => n * base + value c) 0

/-- The numbers in a text. -/
def numbersIn (v : List β) : List ℕ := (digitRuns is_digit v).map (numberOf value base)

variable {is_digit value base}

@[simp] theorem numberOf_nil : numberOf value base [] = 0 := rfl

@[simp] theorem numberOf_concat (run : List β) (c : β) :
    numberOf value base (run ++ [c]) = numberOf value base run * base + value c := by
  simp [numberOf]

@[simp] theorem numbersIn_nil : numbersIn is_digit value base [] = [] := rfl

/-- A byte between two texts that is no digit keeps their numbers apart. -/
theorem numbersIn_append_cons {c : β} (hc : is_digit c = false) (v w : List β) :
    numbersIn is_digit value base (v ++ c :: w) =
      numbersIn is_digit value base v ++ numbersIn is_digit value base w := by
  have hsep : (!is_digit c) = true := by rw [hc]; rfl
  simp only [numbersIn, digitRuns]
  rw [List.splitOnP_append_cons v w hsep, List.filter_append, List.map_append]

theorem numbersIn_cons {c : β} (hc : is_digit c = false) (w : List β) :
    numbersIn is_digit value base (c :: w) = numbersIn is_digit value base w :=
  numbersIn_append_cons hc [] w

theorem numbersIn_concat {c : β} (hc : is_digit c = false) (v : List β) :
    numbersIn is_digit value base (v ++ [c]) = numbersIn is_digit value base v := by
  rw [numbersIn_append_cons hc, numbersIn_nil, List.append_nil]

/-- Digits alone are one number. -/
theorem numbersIn_digits {run : List β} (hrun : ∀ c ∈ run, is_digit c = true) (hne : run ≠ []) :
    numbersIn is_digit value base run = [numberOf value base run] := by
  have hone : run.splitOnP (!is_digit ·) = [run] := by
    apply List.splitOnP_eq_singleton
    intro c hc
    rw [hrun c hc]
    rfl
  have hkeep : (!run.isEmpty) = true := by simp [hne]
  rw [numbersIn, digitRuns, hone, List.filter_cons, if_pos hkeep]
  rfl

theorem numbersIn_dropWhile {p : β → Bool} (hp : ∀ c, p c = true → is_digit c = false) (v : List β) :
    numbersIn is_digit value base (v.dropWhile p) = numbersIn is_digit value base v := by
  induction v with
  | nil => rfl
  | cons c v ih =>
    rw [List.dropWhile_cons]
    split
    · rename_i hc
      rw [ih, numbersIn_cons (hp c hc)]
    · rfl

theorem numbersIn_rdropWhile {p : β → Bool} (hp : ∀ c, p c = true → is_digit c = false) (v : List β) :
    numbersIn is_digit value base (v.reverse.dropWhile p).reverse = numbersIn is_digit value base v := by
  induction v using List.reverseRecOn with
  | nil => rfl
  | append_singleton v c ih =>
    rw [List.reverse_append, List.reverse_singleton, List.singleton_append, List.dropWhile_cons]
    split
    · rename_i hc
      rw [ih, numbersIn_concat (hp c hc)]
    · rw [List.reverse_cons, List.reverse_reverse]

section Written

variable (digit : ℕ → β) (base)

/-- A number in digits, with a zero before them. -/
def spelled (n : ℕ) : List β := digit 0 :: (Nat.digits base n).reverse.map digit

/-- Numbers in digits, each before a byte that is none. -/
def written (sep : β) (numbers : List ℕ) : List β := numbers.flatMap fun n => spelled base digit n ++ [sep]

variable {digit base}

theorem numberOf_spelled (hbase : 1 < base) (hvalue : ∀ d < base, value (digit d) = d) (n : ℕ) :
    numberOf value base (spelled base digit n) = n := by
  have hdigits : ∀ ds : List ℕ, (∀ d ∈ ds, d < base) →
      numberOf value base (digit 0 :: ds.reverse.map digit) = Nat.ofDigits base ds := by
    intro ds
    induction ds with
    | nil =>
      intro _
      simp [numberOf, hvalue 0 (by omega)]
    | cons d ds ih =>
      intro hds
      rw [List.reverse_cons, List.map_append, List.map_singleton, ← List.cons_append, numberOf_concat,
        ih fun e he => hds e (List.mem_cons_of_mem d he), hvalue d (hds d List.mem_cons_self),
        Nat.ofDigits_cons, Nat.mul_comm, Nat.add_comm]
  rw [spelled, hdigits _ fun d hd => Nat.digits_lt_base hbase hd, Nat.ofDigits_digits]

/-- Every list of numbers is that of some text. -/
theorem numbersIn_written (hbase : 1 < base) (hvalue : ∀ d < base, value (digit d) = d)
    (hdigit : ∀ d < base, is_digit (digit d) = true) {sep : β} (hsep : is_digit sep = false)
    (numbers : List ℕ) :
    numbersIn is_digit value base (written base digit sep numbers) = numbers := by
  induction numbers with
  | nil => rfl
  | cons n numbers ih =>
    have hspelled : ∀ c ∈ spelled base digit n, is_digit c = true := by
      intro c hc
      rcases List.mem_cons.mp hc with rfl | hc
      · exact hdigit 0 (by omega)
      · obtain ⟨d, hd, rfl⟩ := List.mem_map.mp hc
        exact hdigit d (Nat.digits_lt_base hbase (List.mem_reverse.mp hd))
    have hcons : written base digit sep (n :: numbers) =
        spelled base digit n ++ sep :: written base digit sep numbers := by
      simp [written]
    rw [hcons, numbersIn_append_cons hsep, ih, numbersIn_digits hspelled (List.cons_ne_nil _ _),
      numberOf_spelled hbase hvalue]
    rfl

end Written

end DigitRuns

end Framework
