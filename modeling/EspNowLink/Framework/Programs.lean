import Mathlib.Logic.Basic

namespace Framework

variable {Call : Type} {Answer : Call → Type} {α β σ τ : Type}

/-- A program over calls whose answers it may look at. -/
inductive Program (Answer : Call → Type) (α : Type) where
  | done (a : α)
  | call (c : Call) (next : Answer c → Program Answer α)

namespace Program

def bind : Program Answer α → (α → Program Answer β) → Program Answer β
  | .done a, f => f a
  | .call c next, f => .call c fun answer => (next answer).bind f

instance : Monad (Program Answer) where
  pure := .done
  bind := bind

/-- One call by itself. -/
def ask (c : Call) : Program Answer (Answer c) := .call c .done

/-- The program run by what a step answers and leaves behind. -/
def run (step : (c : Call) → σ → Answer c × σ) : Program Answer α → σ → α × σ
  | .done a, s => (a, s)
  | .call c next, s => (next (step c s).1).run step (step c s).2

/-- What the steps of a run emit. -/
def trace {O : Type} (step : (c : Call) → σ → Answer c × σ) (emit : Call → σ → List O) :
    Program Answer α → σ → List O
  | .done _, _ => []
  | .call c next, s => emit c s ++ (next (step c s).1).trace step emit (step c s).2

variable {step : (c : Call) → σ → Answer c × σ}

@[simp] theorem run_pure (a : α) (s : σ) : (pure a : Program Answer α).run step s = (a, s) := rfl

@[simp] theorem run_ask (c : Call) (s : σ) : (ask c : Program Answer _).run step s = step c s := rfl

@[simp] theorem run_bind (p : Program Answer α) (f : α → Program Answer β) (s : σ) :
    (p >>= f).run step s = (f (p.run step s).1).run step (p.run step s).2 := by
  change (p.bind f).run step s = _
  induction p generalizing s with
  | done a => rfl
  | call c next ih => exact ih _ _

@[simp] theorem run_ite (c : Prop) [Decidable c] (p q : Program Answer α) (s : σ) :
    (if c then p else q).run step s = if c then p.run step s else q.run step s := by
  split <;> rfl

@[simp] theorem trace_pure {O : Type} {emit : Call → σ → List O} (a : α) (s : σ) :
    (pure a : Program Answer α).trace step emit s = [] := rfl

@[simp] theorem trace_ask {O : Type} {emit : Call → σ → List O} (c : Call) (s : σ) :
    (ask c : Program Answer _).trace step emit s = emit c s := List.append_nil _

@[simp] theorem trace_ite {O : Type} {emit : Call → σ → List O} (c : Prop) [Decidable c]
    (p q : Program Answer α) (s : σ) :
    (if c then p else q).trace step emit s = if c then p.trace step emit s else q.trace step emit s := by
  split <;> rfl

@[simp] theorem trace_bind {O : Type} {emit : Call → σ → List O} (p : Program Answer α)
    (f : α → Program Answer β) (s : σ) :
    (p >>= f).trace step emit s =
      p.trace step emit s ++ (f (p.run step s).1).trace step emit (p.run step s).2 := by
  change (p.bind f).trace step emit s = _
  induction p generalizing s with
  | done a => rfl
  | call c next ih =>
    have hnext := ih (step c s).1 (step c s).2
    simp only [bind, trace, run, List.append_assoc] at hnext ⊢
    rw [hnext]

/-- What every step with emissions of the kind `Q` keeps, a run with such emissions keeps. -/
theorem trace_invariant {O : Type} {emit : Call → σ → List O} {Q : O → Prop} {Inv : σ → Prop}
    (hstep : ∀ c s, (∀ o ∈ emit c s, Q o) → Inv s → Inv (step c s).2)
    (p : Program Answer α) {s : σ} (hq : ∀ o ∈ p.trace step emit s, Q o) (h : Inv s) :
    Inv (p.run step s).2 := by
  induction p generalizing s with
  | done a => exact h
  | call c next ih =>
    obtain ⟨hfirst, hrest⟩ := List.forall_mem_append.mp hq
    exact ih _ hrest (hstep c s hfirst h)

/-- What every step keeps, every run keeps. -/
theorem run_invariant {Inv : σ → Prop} (hstep : ∀ c s, Inv s → Inv (step c s).2)
    (p : Program Answer α) {s : σ} (h : Inv s) : Inv (p.run step s).2 := by
  induction p generalizing s with
  | done a => exact h
  | call c next ih => exact ih _ (hstep c s h)

/-- `P` holds of every call the program can make. -/
def Calls (P : Call → Prop) : Program Answer α → Prop
  | .done _ => True
  | .call c next => P c ∧ ∀ answer, (next answer).Calls P

variable {P : Call → Prop}

theorem Calls.ask {c : Call} (h : P c) : (ask c : Program Answer _).Calls P := ⟨h, fun _ => trivial⟩

theorem Calls.pure (a : α) : (pure a : Program Answer α).Calls P := trivial

theorem Calls.bind {p : Program Answer α} {f : α → Program Answer β} (hp : p.Calls P)
    (hf : ∀ a, (f a).Calls P) : (p >>= f).Calls P := by
  change (p.bind f).Calls P
  induction p with
  | done a => exact hf a
  | call c next ih => exact ⟨hp.1, fun answer => ih answer (hp.2 answer)⟩

/-- What every step of the program's calls keeps, its run keeps. -/
theorem Calls.run_invariant {Inv : σ → Prop} (hstep : ∀ c s, P c → Inv s → Inv (step c s).2)
    {p : Program Answer α} (hp : p.Calls P) {s : σ} (h : Inv s) : Inv (p.run step s).2 := by
  induction p generalizing s with
  | done a => exact h
  | call c next ih => exact ih _ (hp.2 _) (hstep c s hp.1 h)

/-- `P` holds of every call of a run. -/
def Along (step : (c : Call) → σ → Answer c × σ) (P : Call → σ → Prop) :
    Program Answer α → σ → Prop
  | .done _, _ => True
  | .call c next, s => P c s ∧ (next (step c s).1).Along step P (step c s).2

instance Along.decidable (step : (c : Call) → σ → Answer c × σ) (P : Call → σ → Prop)
    [∀ c s, Decidable (P c s)] :
    (p : Program Answer α) → (s : σ) → Decidable (p.Along step P s)
  | .done _, _ => inferInstanceAs (Decidable True)
  | .call c next, s =>
    have := Along.decidable step P (next (step c s).1) (step c s).2
    inferInstanceAs (Decidable (P c s ∧ _))

section Replay

variable {O : Type} {emit : Call → σ → List O} {Rel : σ → τ → Prop} {Ok : Call → σ → Prop}
  {replay : (c : Call) → τ × List O → Answer c × (τ × List O)}

/-- If each step can be replayed from what it emits, then each run can. -/
theorem run_replays
    (hstep : ∀ c s t rest, Rel s t → Ok c s →
      ∃ t', replay c (t, emit c s ++ rest) = ((step c s).1, (t', rest)) ∧ Rel (step c s).2 t')
    (p : Program Answer α) {s : σ} {t : τ} (rest : List O) (hrel : Rel s t) (hok : p.Along step Ok s) :
    ∃ t', p.run replay (t, p.trace step emit s ++ rest) = ((p.run step s).1, (t', rest)) ∧
      Rel (p.run step s).2 t' := by
  induction p generalizing s t with
  | done a => exact ⟨t, rfl, hrel⟩
  | call c next ih =>
    obtain ⟨t₁, hfirst, hrel₁⟩ := hstep c s t
      ((next (step c s).1).trace step emit (step c s).2 ++ rest) hrel hok.1
    obtain ⟨t₂, hrest, hrel₂⟩ := ih _ hrel₁ hok.2
    refine ⟨t₂, ?_, hrel₂⟩
    rw [trace, List.append_assoc, run, hfirst]
    exact hrest

end Replay

/-- If each step gives what the step of another machine gives, from related states to related states, then each
run does. -/
theorem run_tracks {Rel : σ → τ → Prop} {other : (c : Call) → τ → Answer c × τ}
    (hstep : ∀ c s t, Rel s t → (step c s).1 = (other c t).1 ∧ Rel (step c s).2 (other c t).2)
    (p : Program Answer α) {s : σ} {t : τ} (h : Rel s t) :
    (p.run step s).1 = (p.run other t).1 ∧ Rel (p.run step s).2 (p.run other t).2 := by
  induction p generalizing s t with
  | done a => exact ⟨rfl, h⟩
  | call c next ih =>
    obtain ⟨hanswer, hrel⟩ := hstep c s t h
    rw [run, run, ← hanswer]
    exact ih _ hrel

end Program

end Framework
