import Mathlib.Data.List.Nodup

namespace Framework

namespace CoalescingQueue

variable {α κ : Type*} [DecidableEq κ] {key : α → κ} {x y : α} {l l' : List α}

/-- The first entry with the key of the new one gives way to it, in its place. -/
def replace (key : α → κ) (x : α) : List α → Option (List α)
  | [] => none
  | y :: ys => if key y = key x then some (x :: ys) else (replace key x ys).map (y :: ·)

theorem replace_eq_none : replace key x l = none ↔ key x ∉ l.map key := by
  induction l with
  | nil => simp [replace]
  | cons y ys ih =>
    rw [replace, List.map_cons, List.mem_cons, not_or]
    by_cases h : key y = key x
    · simp [h]
    · rw [if_neg h, Option.map_eq_none_iff, ih]
      exact ⟨fun hys => ⟨fun hxy => h hxy.symm, hys⟩, fun hboth => hboth.2⟩

theorem replace_keys (h : replace key x l = some l') : l'.map key = l.map key := by
  induction l generalizing l' with
  | nil => simp [replace] at h
  | cons y ys ih =>
    rw [replace] at h
    split at h
    · rename_i hkey
      obtain rfl := Option.some.inj h
      simp [hkey]
    · obtain ⟨zs, hzs, rfl⟩ := Option.map_eq_some_iff.mp h
      rw [List.map_cons, List.map_cons, ih hzs]

theorem replace_length (h : replace key x l = some l') : l'.length = l.length := by
  have hkeys := congrArg List.length (replace_keys h)
  simpa using hkeys

theorem mem_of_replace (h : replace key x l = some l') : x ∈ l' := by
  induction l generalizing l' with
  | nil => simp [replace] at h
  | cons y ys ih =>
    rw [replace] at h
    split at h
    · obtain rfl := Option.some.inj h
      exact List.mem_cons_self
    · obtain ⟨zs, hzs, rfl⟩ := Option.map_eq_some_iff.mp h
      exact List.mem_cons_of_mem y (ih hzs)

theorem mem_replace (h : replace key x l = some l') (hy : y ∈ l) : y ∈ l' ∨ key y = key x := by
  induction l generalizing l' with
  | nil => simp [replace] at h
  | cons z zs ih =>
    rw [replace] at h
    split at h
    · rename_i hkey
      obtain rfl := Option.some.inj h
      rcases List.mem_cons.mp hy with rfl | hold
      · exact .inr hkey
      · exact .inl (List.mem_cons_of_mem x hold)
    · obtain ⟨ws, hws, rfl⟩ := Option.map_eq_some_iff.mp h
      rcases List.mem_cons.mp hy with rfl | hold
      · exact .inl List.mem_cons_self
      · exact (ih hws hold).imp (List.mem_cons_of_mem z) id

theorem of_mem_replace (h : replace key x l = some l') (hy : y ∈ l') : y = x ∨ y ∈ l := by
  induction l generalizing l' with
  | nil => simp [replace] at h
  | cons z zs ih =>
    rw [replace] at h
    split at h
    · obtain rfl := Option.some.inj h
      exact (List.mem_cons.mp hy).imp id (List.mem_cons_of_mem z)
    · obtain ⟨ws, hws, rfl⟩ := Option.map_eq_some_iff.mp h
      rcases List.mem_cons.mp hy with rfl | hold
      · exact .inr List.mem_cons_self
      · exact (ih hws hold).imp id (List.mem_cons_of_mem z)

end CoalescingQueue

end Framework
