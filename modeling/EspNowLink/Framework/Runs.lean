import Mathlib.Logic.Relation

namespace Framework

variable {State : Type*} {Input : Type*}

/-- The states a machine reaches from `s` when every input it takes satisfies `ok` in the state
where it is taken. -/
inductive Run (step : State → Input → State) (ok : State → Input → Prop) (s : State) : State → Prop
  | start : Run step ok s s
  | next {t : State} (i : Input) : Run step ok s t → ok t i → Run step ok s (step t i)

/-- Every input of the list satisfies `ok` in the state the inputs before it lead to. -/
def Admitted (step : State → Input → State) (ok : State → Input → Prop) :
    State → List Input → Prop
  | _, [] => True
  | s, i :: is => ok s i ∧ Admitted step ok (step s i) is

instance decidableAdmitted {step : State → Input → State} {ok : State → Input → Prop}
    [∀ s i, Decidable (ok s i)] : ∀ s is, Decidable (Admitted step ok s is)
  | _, [] => isTrue trivial
  | s, i :: is =>
    have : Decidable (Admitted step ok (step s i) is) := decidableAdmitted (step s i) is
    inferInstanceAs (Decidable (ok s i ∧ Admitted step ok (step s i) is))

namespace Run

variable {step : State → Input → State} {ok : State → Input → Prop} {s t u : State}

/-- An invariant that every admitted step keeps holds at the end of every run. -/
theorem invariant {Inv : State → Prop} (hrun : Run step ok s t) (hinit : Inv s)
    (hstep : ∀ x i, Inv x → ok x i → Inv (step x i)) : Inv t := by
  induction hrun with
  | start => exact hinit
  | next i _ hok ih => exact hstep _ i ih hok

theorem trans (hst : Run step ok s t) (htu : Run step ok t u) : Run step ok s u := by
  induction htu with
  | start => exact hst
  | next i _ hok ih => exact .next i ih hok

/-- A list of inputs that are admitted one after the other is a run. -/
theorem of_admitted (is : List Input) (h : Admitted step ok s is) :
    Run step ok s (is.foldl step s) := by
  induction is generalizing s with
  | nil => exact .start
  | cons i is ih => exact (Run.start.next i h.1).trans (ih h.2)

end Run

/-- Two conditions that agree wherever an invariant holds admit the same lists of inputs, when a
step that meets the first of them keeps the invariant. -/
theorem admitted_iff_of_invariant {step : State → Input → State} {ok ok' : State → Input → Prop}
    {Inv : State → Prop} (hagree : ∀ x i, Inv x → (ok x i ↔ ok' x i))
    (hstep : ∀ x i, Inv x → ok x i → Inv (step x i)) {s : State} (hs : Inv s) (is : List Input) :
    Admitted step ok s is ↔ Admitted step ok' s is := by
  induction is generalizing s with
  | nil => exact Iff.rfl
  | cons i is ih =>
    constructor
    · rintro ⟨hok, hrest⟩
      exact ⟨(hagree s i hs).mp hok, (ih (hstep s i hs hok)).mp hrest⟩
    · rintro ⟨hok', hrest⟩
      have hok := (hagree s i hs).mpr hok'
      exact ⟨hok, (ih (hstep s i hs hok)).mpr hrest⟩

/-- Where a step stays safe exactly when it meets a condition, and a safe step keeps what this depends on, every
moment of a run is safe exactly when every step of it meets the condition. -/
theorem safe_iff_admitted {step : State → Input → State} {ok : State → Input → Prop} {Safe Aid : State → Prop}
    (hexact : ∀ x i, Safe x → Aid x → (Safe (step x i) ↔ ok x i))
    (hkept : ∀ x i, Safe x → Aid x → Safe (step x i) → Aid (step x i)) {s : State} (hs : Safe s) (ha : Aid s)
    (is : List Input) :
    (∀ before after, is = before ++ after → Safe (before.foldl step s)) ↔ Admitted step ok s is := by
  induction is generalizing s with
  | nil =>
    constructor
    · intro _
      trivial
    · intro _ before after hnil
      obtain ⟨rfl, rfl⟩ := List.nil_eq_append_iff.mp hnil
      exact hs
  | cons i is ih =>
    constructor
    · intro halways
      have hnext : Safe (step s i) := halways [i] is rfl
      refine ⟨(hexact s i hs ha).mp hnext, (ih hnext (hkept s i hs ha hnext)).mp ?_⟩
      intro before after hsplit
      exact halways (i :: before) after (by rw [hsplit, List.cons_append])
    · rintro ⟨hok, hrest⟩ before after hsplit
      cases before with
      | nil => exact hs
      | cons j before =>
        obtain ⟨rfl, htail⟩ := List.cons.inj hsplit
        have hnext : Safe (step s i) := (hexact s i hs ha).mpr hok
        exact (ih hnext (hkept s i hs ha hnext)).mpr hrest before after htail

/-- Where a step keeps an invariant exactly when it meets a condition, the invariant holds at every moment of
a run exactly when every step of it meets the condition. -/
theorem always_iff_admitted {step : State → Input → State} {ok : State → Input → Prop} {Inv : State → Prop}
    (hexact : ∀ x i, Inv x → (Inv (step x i) ↔ ok x i)) {s : State} (hs : Inv s) (is : List Input) :
    (∀ before after, is = before ++ after → Inv (before.foldl step s)) ↔ Admitted step ok s is :=
  @safe_iff_admitted _ _ step ok Inv (fun _ => True) (fun x i hx _ => hexact x i hx) (fun _ _ _ _ _ => trivial) s
    hs trivial is

end Framework
