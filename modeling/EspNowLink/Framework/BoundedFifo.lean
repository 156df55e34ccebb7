import Mathlib.Data.List.Induction
import Mathlib.Tactic.Basic

namespace Framework

namespace BoundedFifo

variable {α : Type}

inductive Event (α : Type)
  | arrived (a : α)
  | dropped (a : α)
  | taken (a : α)

namespace Event

def arrival? : Event α → Option α
  | arrived a => some a
  | _ => none

def departure? : Event α → Option α
  | dropped a => some a
  | taken a => some a
  | arrived _ => none

def taken? : Event α → Option α
  | taken a => some a
  | _ => none

end Event

def arrivals (trace : List (Event α)) : List α := trace.filterMap Event.arrival?
def departures (trace : List (Event α)) : List α := trace.filterMap Event.departure?
def takings (trace : List (Event α)) : List α := trace.filterMap Event.taken?

/-- The traces of a queue of at most `limit` entries, and what waits after each. Only a full queue drops,
and only its oldest entry; only the oldest one is taken. -/
inductive Runs (limit : ℕ) : List (Event α) → List α → Prop
  | start : Runs limit [] []
  | arrive {trace : List (Event α)} {queue : List α} (a : α) :
      Runs limit trace queue → queue.length < limit → Runs limit (trace ++ [.arrived a]) (queue ++ [a])
  | drop {trace : List (Event α)} {a : α} {queue : List α} :
      Runs limit trace (a :: queue) → (a :: queue).length = limit → Runs limit (trace ++ [.dropped a]) queue
  | take {trace : List (Event α)} {a : α} {queue : List α} :
      Runs limit trace (a :: queue) → Runs limit (trace ++ [.taken a]) queue

section Rules

variable {limit : ℕ} {trace : List (Event α)} {queue : List α}

theorem Runs.length_le (h : Runs limit trace queue) : queue.length ≤ limit := by
  induction h with
  | start => exact Nat.zero_le limit
  | arrive a _ hroom _ =>
    rw [List.length_append, List.length_singleton]
    exact hroom
  | drop _ _ ih => exact Nat.le_of_succ_le ih
  | take _ ih => exact Nat.le_of_succ_le ih

/-- Every entry leaves once, in the order of arrival. -/
theorem Runs.arrivals_eq (h : Runs limit trace queue) : arrivals trace = departures trace ++ queue := by
  induction h with
  | start => rfl
  | arrive a _ _ ih =>
    unfold arrivals departures at ih ⊢
    simp [ih, Event.arrival?, Event.departure?]
  | drop _ _ ih =>
    unfold arrivals departures at ih ⊢
    simp [ih, Event.arrival?, Event.departure?]
  | take _ ih =>
    unfold arrivals departures at ih ⊢
    simp [ih, Event.arrival?, Event.departure?]

theorem takings_sublist (trace : List (Event α)) : (takings trace).Sublist (departures trace) := by
  induction trace with
  | nil => exact List.Sublist.refl _
  | cons e trace ih =>
    cases e with
    | arrived a => exact ih
    | dropped a => exact List.Sublist.cons a ih
    | taken a => exact List.Sublist.cons_cons a ih

/-- What is taken keeps the order of arrival. -/
theorem Runs.takings_sublist (h : Runs limit trace queue) : (takings trace).Sublist (arrivals trace) := by
  rw [h.arrivals_eq]
  exact (BoundedFifo.takings_sublist trace).trans (List.sublist_append_left _ _)

theorem Runs.before_last {e : Event α} (h : Runs limit (trace ++ [e]) queue) :
    ∃ before, Runs limit trace before ∧ ∀ a, e = .dropped a → before = a :: queue ∧ before.length = limit := by
  generalize ht : trace ++ [e] = whole at h
  cases h with
  | start => exact absurd ht (by simp)
  | arrive a h hroom =>
    obtain ⟨rfl, he⟩ := List.append_inj' ht rfl
    cases he
    exact ⟨_, h, fun a ha => by cases ha⟩
  | drop h hfull =>
    obtain ⟨rfl, he⟩ := List.append_inj' ht rfl
    cases he
    exact ⟨_, h, fun a ha => by cases ha; exact ⟨rfl, hfull⟩⟩
  | take h =>
    obtain ⟨rfl, he⟩ := List.append_inj' ht rfl
    cases he
    exact ⟨_, h, fun a ha => by cases ha⟩

/-- What holds of every run holds at every moment of one. -/
theorem Runs.prefix {later : List (Event α)} (h : Runs limit (trace ++ later) queue) :
    ∃ before, Runs limit trace before := by
  induction later using List.reverseRecOn generalizing queue with
  | nil =>
    rw [List.append_nil] at h
    exact ⟨queue, h⟩
  | append_singleton later e ih =>
    rw [← List.append_assoc] at h
    obtain ⟨before, hbefore, -⟩ := h.before_last
    exact ih hbefore

/-- A drop finds the queue full, with the dropped entry as the oldest. -/
theorem Runs.dropped {a : α} {later : List (Event α)} (h : Runs limit (trace ++ .dropped a :: later) queue) :
    ∃ rest, Runs limit trace (a :: rest) ∧ (a :: rest).length = limit := by
  have hsplit : trace ++ .dropped a :: later = (trace ++ [.dropped a]) ++ later := by simp
  rw [hsplit] at h
  obtain ⟨rest, hdrop⟩ := h.prefix
  obtain ⟨before, hbefore, hhead⟩ := hdrop.before_last
  obtain ⟨rfl, hfull⟩ := hhead a rfl
  exact ⟨rest, hbefore, hfull⟩

end Rules

end BoundedFifo

end Framework
