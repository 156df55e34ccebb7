import Mathlib.Logic.Function.Basic

namespace Framework

variable {Key Entry Value : Type*}

/-- Everything in the table has an entry in the cache that fits it. -/
def Mirrors (fits : Entry → Value → Prop) (cache : Key → Option Entry) (table : Key → Option Value) :
    Prop :=
  ∀ k v, table k = some v → ∃ e, cache k = some e ∧ fits e v

namespace Mirrors

variable {fits : Entry → Value → Prop} {cache cache' : Key → Option Entry}
  {table table' : Key → Option Value}

theorem empty : Mirrors fits cache fun _ => none := by
  intro k v h
  exact absurd h (by simp)

variable [DecidableEq Key]

/-- An entry of the table may go. -/
theorem erase (h : Mirrors fits cache table) (k : Key) :
    Mirrors fits cache (Function.update table k none) := by
  intro k' v hv
  by_cases hk : k' = k
  · subst hk
    rw [Function.update_self] at hv
    exact absurd hv (by simp)
  · rw [Function.update_of_ne hk] at hv
    exact h k' v hv

/-- A value that fits what the cache holds may come. -/
theorem insert (h : Mirrors fits cache table) {k : Key} {e : Entry} {v : Value} (hk : cache k = some e)
    (hfits : fits e v) : Mirrors fits cache (Function.update table k (some v)) := by
  intro k' v' hv
  by_cases hkk : k' = k
  · subst hkk
    rw [Function.update_self, Option.some_inj] at hv
    exact ⟨e, hk, hv ▸ hfits⟩
  · rw [Function.update_of_ne hkk] at hv
    exact h k' v' hv

/-- The cache and the table may change at one key, to what fits. -/
theorem replace (h : Mirrors fits cache table) (k : Key) (hcache : ∀ k' ≠ k, cache' k' = cache k')
    (htable : ∀ k' ≠ k, table' k' = table k')
    (hk : ∀ v, table' k = some v → ∃ e, cache' k = some e ∧ fits e v) : Mirrors fits cache' table' := by
  intro k' v hv
  by_cases hkk : k' = k
  · subst hkk
    exact hk v hv
  · rw [hcache k' hkk]
    exact h k' v (htable k' hkk ▸ hv)

end Mirrors

end Framework
