import Mathlib.Data.List.DropRight
import Mathlib.Data.List.TakeWhile

namespace Framework

section Lines

variable {β : Type*} [BEq β] [LawfulBEq β] {sep : β}

/-- Lines, each before a separator, and nothing after the last one. -/
theorem splitOn_lines {ls : List (List β)} (h : ∀ l ∈ ls, sep ∉ l) :
    (ls.flatMap fun l => l ++ [sep]).splitOn sep = ls ++ [[]] := by
  induction ls with
  | nil => rfl
  | cons l ls ih =>
    have hl : sep ∉ l := h l List.mem_cons_self
    have hls := ih fun m hm => h m (List.mem_cons_of_mem l hm)
    rw [List.flatMap_cons, List.append_assoc, List.singleton_append, List.splitOn_append_cons_self_of_not_mem hl,
      hls, List.cons_append]

/-- No line has a separator. -/
theorem not_mem_of_mem_splitOn {text l : List β} (h : l ∈ text.splitOn sep) : sep ∉ l := by
  induction text generalizing l with
  | nil =>
    rw [List.splitOn_nil, List.mem_singleton] at h
    rw [h]
    exact List.not_mem_nil
  | cons c text ih =>
    rw [List.splitOn_cons_eq_if_modifyHead] at h
    split at h
    · rcases List.mem_cons.mp h with rfl | h
      · exact List.not_mem_nil
      · exact ih h
    · rename_i hc
      cases hsplit : text.splitOn sep with
      | nil => exact absurd hsplit (List.splitOn_ne_nil sep text)
      | cons first rest =>
        rw [hsplit, List.modifyHead_cons] at h
        rw [hsplit] at ih
        rcases List.mem_cons.mp h with rfl | h
        · intro hmem
          rcases List.mem_cons.mp hmem with rfl | hmem
          · exact hc (beq_self_eq_true sep)
          · exact ih List.mem_cons_self hmem
        · exact ih (List.mem_cons_of_mem first h)

end Lines

section Trim

variable {β : Type*} (blank : β → Bool)

/-- The text without the blanks around it. -/
def trimmed (v : List β) : List β := (v.dropWhile blank).rdropWhile blank

variable {blank}

theorem trimmed_sublist (v : List β) : (trimmed blank v).Sublist v :=
  (List.rdropWhile_prefix blank _).sublist.trans (List.dropWhile_sublist blank)

theorem rdropWhile_append_cons {c : β} (hc : blank c = false) (a b : List β) :
    (a ++ c :: b).rdropWhile blank = a ++ c :: b.rdropWhile blank := by
  induction b using List.reverseRecOn with
  | nil =>
    have hlast : ¬ blank c = true := by simp [hc]
    rw [List.rdropWhile_concat_neg _ _ _ hlast]
    rfl
  | append_singleton b d ih =>
    rw [← List.cons_append, ← List.append_assoc]
    by_cases hd : blank d = true
    · rw [List.rdropWhile_concat_pos _ _ _ hd, List.rdropWhile_concat_pos _ _ _ hd, ih]
    · rw [List.rdropWhile_concat_neg _ _ _ hd, List.rdropWhile_concat_neg _ _ _ hd, List.append_assoc]
      rfl

/-- A text without its blanks keeps its first and its last byte. -/
theorem trimmed_cons {c d : β} (hc : blank c = false) (hd : blank d = false) (a b : List β) :
    trimmed blank (c :: a ++ d :: b) = c :: a ++ d :: b.rdropWhile blank := by
  have hdrop : (c :: a ++ d :: b).dropWhile blank = c :: a ++ d :: b := by
    rw [List.cons_append, List.dropWhile_cons, hc]
    simp
  rw [trimmed, hdrop, rdropWhile_append_cons hd]

theorem trimmed_of_forall {v : List β} (h : ∀ c ∈ v, blank c = false) : trimmed blank v = v := by
  have hdrop : v.dropWhile blank = v := by
    cases v with
    | nil => rfl
    | cons c v =>
      rw [List.dropWhile_cons, h c List.mem_cons_self]
      simp
  rw [trimmed, hdrop, List.rdropWhile_eq_self_iff]
  intro hne hlast
  have hfalse := h _ (List.getLast_mem hne)
  rw [hfalse] at hlast
  cases hlast

theorem trimmed_trimmed (v : List β) : trimmed blank (trimmed blank v) = trimmed blank v := by
  have hfirst : (trimmed blank v).dropWhile blank = trimmed blank v := by
    rw [trimmed]
    cases hdrop : v.dropWhile blank with
    | nil => rfl
    | cons c t =>
      have hne : v.dropWhile blank ≠ [] := by
        rw [hdrop]
        exact List.cons_ne_nil c t
      have hc : blank c = false := by
        have hhead := List.head_dropWhile_not blank hne
        simpa only [hdrop, List.head_cons] using hhead
      have hcons := rdropWhile_append_cons hc [] t
      rw [List.nil_append, List.nil_append] at hcons
      rw [hcons, List.dropWhile_cons, hc]
      simp
  have hlast : (trimmed blank v).rdropWhile blank = trimmed blank v := List.rdropWhile_idempotent blank _
  rw [trimmed, hfirst, hlast]

/-- To trim the end first changes nothing for a text that stays as it is. -/
theorem trimmed_rdropWhile_eq_self_iff {v : List β} :
    trimmed blank (v.rdropWhile blank) = v ↔ trimmed blank v = v := by
  have hstart := List.rdropWhile_prefix blank v
  have hend : trimmed blank (v.rdropWhile blank) = v ∨ trimmed blank v = v → v.rdropWhile blank = v := by
    rintro (h | h)
    · have hsub : (trimmed blank (v.rdropWhile blank)).Sublist (v.rdropWhile blank) := trimmed_sublist _
      have hlen := hsub.length_le
      rw [h] at hlen
      exact hstart.eq_of_length (Nat.le_antisymm hstart.length_le hlen)
    · rw [List.rdropWhile_eq_self_iff]
      intro hne
      have hfull : v.dropWhile blank = v := by
        have hlen := (List.rdropWhile_prefix blank (v.dropWhile blank)).length_le
        have htrim : (v.dropWhile blank).rdropWhile blank = v := h
        rw [htrim] at hlen
        exact (List.dropWhile_sublist blank).eq_of_length_le hlen
      have hself : v.rdropWhile blank = v := by
        have htrim : (v.dropWhile blank).rdropWhile blank = v := h
        rwa [hfull] at htrim
      exact List.rdropWhile_eq_self_iff.mp hself hne
  constructor
  · intro h
    rwa [hend (Or.inl h)] at h
  · intro h
    rwa [hend (Or.inr h)]

theorem getLast?_rdropWhile {v : List β} {c : β} (h : (v.rdropWhile blank).getLast? = some c) :
    blank c = false := by
  have hne : v.rdropWhile blank ≠ [] := by
    intro hnil
    rw [hnil] at h
    cases h
  have hlast := List.rdropWhile_last_not blank v hne
  rw [List.getLast?_eq_getLast_of_ne_nil hne] at h
  rw [Option.some.inj h] at hlast
  exact (Bool.not_eq_true _).mp hlast

end Trim

end Framework
