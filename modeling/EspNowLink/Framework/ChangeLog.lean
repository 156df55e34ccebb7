import Mathlib.Data.List.Chain
import Mathlib.Data.List.Nodup
import Mathlib.Data.List.Rotate

namespace Framework

/-- The changes of the flags of many keys, in their order. -/
abbrev ChangeLog (K : Type*) := List (K × Bool)

namespace ChangeLog

variable {K : Type*} [DecidableEq K] {first : Bool} {log : ChangeLog K} {k k' : K} {b : Bool}

/-- What the log has of one key. -/
def of (log : ChangeLog K) (k : K) : List Bool := (log.filter (·.1 = k)).map Prod.snd

/-- The flag of the key as the log leaves it, when every flag starts as `first`. -/
def current (first : Bool) (log : ChangeLog K) (k : K) : Bool := (of log k).getLast?.getD first

/-- Every entry of the key is a change. -/
def Alternates (first : Bool) (log : ChangeLog K) (k : K) : Prop := (first :: of log k).IsChain (· ≠ ·)

instance : Decidable (Alternates first log k) := inferInstanceAs (Decidable (List.IsChain _ _))

@[simp] theorem of_append_self : of (log ++ [(k, b)]) k = of log k ++ [b] := by
  simp [of]

theorem of_append_other (h : k' ≠ k) : of (log ++ [(k', b)]) k = of log k := by
  simp [of, h]

theorem current_congr {log' : ChangeLog K} (h : of log' k = of log k) :
    current first log' k = current first log k := by
  rw [current, current, h]

theorem current_of_append (h : of log k = of log' k ++ [b]) : current first log k = b := by
  rw [current, h, List.getLast?_concat, Option.getD_some]

/-- One more entry is a change when it differs from the flag. -/
theorem isChain_concat (l : List Bool) :
    (first :: (l ++ [b])).IsChain (· ≠ ·) ↔ (first :: l).IsChain (· ≠ ·) ∧ l.getLast?.getD first ≠ b := by
  rw [← List.cons_append, List.isChain_append]
  have hlast : (first :: l).getLast? = some (l.getLast?.getD first) := by
    rw [List.getLast?_cons]
  rw [hlast]
  simp

end ChangeLog

section Sweeps

/-- Every element of a list is visited once, in order, with an accumulator. -/
def sweep {A S : Type*} (visit : A → S → A × S) : A → List S → A × List S
  | a, [] => (a, [])
  | a, s :: todo =>
    let here := visit a s
    let rest := sweep visit here.1 todo
    (rest.1, here.2 :: rest.2)

variable {A S L K : Type*} [DecidableEq K] {visit : A → S → A × S}

/-- What every visit keeps of the accumulator holds after the sweep. -/
theorem sweep_invariant {P : A → Prop} (todo : List S) (hvisit : ∀ a, ∀ s ∈ todo, P a → P (visit a s).1)
    {a : A} (ha : P a) : P (sweep visit a todo).1 := by
  induction todo generalizing a with
  | nil => exact ha
  | cons s todo ih =>
    obtain ⟨hhere, hrest⟩ := List.forall_mem_cons.mp fun s hs a => hvisit a s hs
    exact ih (fun a s hs => hrest s hs a) (hhere a ha)

/-- A flag may be lowered at a visit, and the log tells it; the label of what is visited stays. -/
structure Lowers (label : S → L) (key : L → K) (flag : S → Bool) (log : A → ChangeLog K) (due : L → Prop)
    (visit : A → S → A × S) : Prop where
  keeps : ∀ a s, label (visit a s).2 = label s
  lowers : ∀ a s, log (visit a s).1 = log a ∧ flag (visit a s).2 = flag s ∨
    due (label s) ∧ flag s = true ∧ flag (visit a s).2 = false ∧
      log (visit a s).1 = log a ++ [(key (label s), false)]

/-- Some flags of a list have been lowered where it was due, and the log has each once. -/
structure Swept (label : S → L) (key : L → K) (flag : S → Bool) (due : L → Prop) (log log' : ChangeLog K)
    (todo done : List S) : Prop where
  labels : done.map label = todo.map label
  each : ∀ s' ∈ done, ∃ s ∈ todo, label s' = label s ∧
    (ChangeLog.of log' (key (label s)) = ChangeLog.of log (key (label s)) ∧ flag s' = flag s ∨
      due (label s) ∧ flag s = true ∧ flag s' = false ∧
        ChangeLog.of log' (key (label s)) = ChangeLog.of log (key (label s)) ++ [false])
  others : ∀ k, k ∉ todo.map (fun s => key (label s)) → ChangeLog.of log' k = ChangeLog.of log k

variable {label : S → L} {key : L → K} {flag : S → Bool} {log : A → ChangeLog K} {due : L → Prop}

theorem Swept.refl (l : ChangeLog K) (todo : List S) : Swept label key flag due l l todo todo :=
  ⟨rfl, fun s hs => ⟨s, hs, rfl, .inl ⟨rfl, rfl⟩⟩, fun _ _ => rfl⟩

theorem Swept.trans {l l' l'' : ChangeLog K} {todo done done' : List S}
    (h : Swept label key flag due l l' todo done) (h' : Swept label key flag due l' l'' done done') :
    Swept label key flag due l l'' todo done' := by
  have hkeys : done.map (fun s => key (label s)) = todo.map fun s => key (label s) := by
    have hlabels := congrArg (List.map key) h.labels
    rw [List.map_map, List.map_map] at hlabels
    exact hlabels
  refine ⟨h'.labels.trans h.labels, ?_, ?_⟩
  · intro s'' hs''
    obtain ⟨s', hs', hlabel', hsecond⟩ := h'.each s'' hs''
    obtain ⟨s, hs, hlabel, hfirst⟩ := h.each s' hs'
    refine ⟨s, hs, hlabel'.trans hlabel, ?_⟩
    rw [hlabel] at hsecond
    rcases hfirst with ⟨hsame, hflag⟩ | ⟨hdue, hup, hdown, htold⟩
    · rcases hsecond with ⟨hsame', hflag'⟩ | ⟨hdue, hup, hdown, htold⟩
      · exact .inl ⟨hsame'.trans hsame, hflag'.trans hflag⟩
      · exact .inr ⟨hdue, hflag ▸ hup, hdown, by rw [htold, hsame]⟩
    · rcases hsecond with ⟨hsame', hflag'⟩ | ⟨-, hup', -, -⟩
      · exact .inr ⟨hdue, hup, hflag'.trans hdown, hsame'.trans htold⟩
      · rw [hdown] at hup'
        cases hup'
  · intro k hk
    rw [h'.others k (hkeys ▸ hk), h.others k hk]

theorem Swept.rotate {l l' : ChangeLog K} {todo done : List S} {n : ℕ} (hn : n ≤ todo.length)
    (h : Swept label key flag due l l' (todo.rotate n) done) :
    Swept label key flag due l l' todo (done.rotate (todo.length - n)) := by
  have hback : (todo.rotate n).rotate (todo.length - n) = todo := by
    rw [List.rotate_rotate, Nat.add_sub_cancel' hn, List.rotate_length]
  refine ⟨?_, ?_, ?_⟩
  · rw [List.map_rotate, h.labels, ← List.map_rotate, hback]
  · intro s' hs'
    obtain ⟨s, hs, hrest⟩ := h.each s' (List.mem_rotate.mp hs')
    exact ⟨s, List.mem_rotate.mp hs, hrest⟩
  · intro k hk
    apply h.others k
    rw [List.map_rotate]
    exact fun hmem => hk (List.mem_rotate.mp hmem)

/-- A sweep with such visits lowers flags of keys that differ from each other. -/
theorem sweep_swept (hvisit : Lowers label key flag log due visit) (todo : List S)
    (hnodup : (todo.map fun s => key (label s)).Nodup) (a : A) :
    Swept label key flag due (log a) (log (sweep visit a todo).1) todo (sweep visit a todo).2 := by
  induction todo generalizing a with
  | nil => exact Swept.refl (log a) []
  | cons s todo ih =>
    rw [List.map_cons, List.nodup_cons] at hnodup
    obtain ⟨hfresh, hrest⟩ := hnodup
    have hswept := ih hrest (visit a s).1
    have hlabel := hvisit.keeps a s
    have hhere : ChangeLog.of (log (sweep visit a (s :: todo)).1) (key (label s)) =
        ChangeLog.of (log (visit a s).1) (key (label s)) := hswept.others _ hfresh
    have hother : ∀ k, k ≠ key (label s) → ChangeLog.of (log (visit a s).1) k = ChangeLog.of (log a) k := by
      intro k hk
      rcases hvisit.lowers a s with ⟨hsame, -⟩ | ⟨-, -, -, htold⟩
      · rw [hsame]
      · rw [htold, ChangeLog.of_append_other hk.symm]
    refine ⟨?_, ?_, ?_⟩
    · change label (visit a s).2 :: (sweep visit (visit a s).1 todo).2.map label = _
      rw [hlabel, hswept.labels, List.map_cons]
    · intro s' hs'
      rcases List.mem_cons.mp hs' with rfl | hs'
      · refine ⟨s, List.mem_cons_self, hlabel, ?_⟩
        rw [hhere]
        rcases hvisit.lowers a s with ⟨hsame, hflag⟩ | ⟨hdue, hup, hdown, htold⟩
        · exact .inl ⟨by rw [hsame], hflag⟩
        · exact .inr ⟨hdue, hup, hdown, by rw [htold, ChangeLog.of_append_self]⟩
      · obtain ⟨t, ht, htlabel, hcases⟩ := hswept.each s' hs'
        have hne : key (label t) ≠ key (label s) := by
          intro heq
          exact hfresh (heq ▸ List.mem_map_of_mem ht)
        refine ⟨t, List.mem_cons_of_mem s ht, htlabel, ?_⟩
        rw [← hother _ hne]
        exact hcases
    · intro k hk
      rw [List.map_cons, List.mem_cons, not_or] at hk
      have hk' : ChangeLog.of (log (sweep visit a (s :: todo)).1) k =
          ChangeLog.of (log (visit a s).1) k := hswept.others k hk.2
      rw [hk', hother k hk.1]

end Sweeps

end Framework
