/-
  **Machines that take one input at a time.**

  A component whose handlers run to their end without an `await` is a partial step
  function: what an input does to a state, where the input is possible at all.  A run is
  any sequence of inputs; `admits` restricts it to inputs of a certain kind, which may
  depend on the state they meet.
-/
import Mathlib.Tactic.Common

namespace Machine

variable {σ ι : Type} {step : σ → ι → Option σ} {admits admits' : σ → ι → Prop} {s₀ s s' : σ}

/-- The states reached from `s₀` by inputs that `admits` allows. -/
inductive Reaches (step : σ → ι → Option σ) (admits : σ → ι → Prop) (s₀ : σ) : σ → Prop where
  | start : Reaches step admits s₀ s₀
  | step {s s' : σ} {i : ι} (h : Reaches step admits s₀ s) (ha : admits s i)
      (hs : step s i = some s') : Reaches step admits s₀ s'

/-- What holds at the start and is kept by every admitted step holds in every reached state. -/
theorem Reaches.invariant {P : σ → Prop} (h : Reaches step admits s₀ s) (hstart : P s₀)
    (hkeep : ∀ s i s', P s → admits s i → step s i = some s' → P s') : P s := by
  induction h with
  | start => exact hstart
  | step _ ha hs ih => exact hkeep _ _ _ ih ha hs

theorem Reaches.weaken (hsub : ∀ s i, admits s i → admits' s i)
    (h : Reaches step admits s₀ s) : Reaches step admits' s₀ s := by
  induction h with
  | start => exact .start
  | step _ ha hs ih => exact .step ih (hsub _ _ ha) hs

theorem Reaches.trans (h : Reaches step admits s₀ s) (h' : Reaches step admits s s') :
    Reaches step admits s₀ s' := by
  induction h' with
  | start => exact h
  | step _ ha hs ih => exact .step ih ha hs

def exec (step : σ → ι → Option σ) (admits : σ → ι → Prop) [∀ s i, Decidable (admits s i)] :
    σ → List ι → Option σ
  | s, [] => some s
  | s, i :: rest => if admits s i then (step s i).bind fun s' => exec step admits s' rest else none

theorem Reaches.exec [∀ s i, Decidable (admits s i)] {is : List ι}
    (h : Reaches step admits s₀ s) (hs : Machine.exec step admits s is = some s') :
    Reaches step admits s₀ s' := by
  induction is generalizing s with
  | nil =>
    cases hs
    exact h
  | cons i rest ih =>
    rw [Machine.exec] at hs
    split at hs
    · next hadm =>
      obtain ⟨s₁, h₁, hrest⟩ := Option.bind_eq_some_iff.mp hs
      exact ih (h.step hadm h₁) hrest
    · cases hs

variable (step : σ → ι → Option σ) (admits : σ → ι → Prop)

theorem Reaches.of_exec [∀ s i, Decidable (admits s i)] (s₀ : σ) (is : List ι) (p : σ → Bool)
    (hs : ((Machine.exec step admits s₀ is).any p) = true) :
    ∃ s, Reaches step admits s₀ s ∧ p s = true := by
  cases hc : Machine.exec step admits s₀ is with
  | none => simp [hc] at hs
  | some s => exact ⟨s, Reaches.start.exec hc, by simpa [hc] using hs⟩

theorem Reaches.of_exec_append
    [∀ s i, Decidable (admits s i)] (s₀ : σ) (is js : List ι) (p : σ → σ → Bool)
    (hs : ((Machine.exec step admits s₀ is).any fun s =>
      (Machine.exec step admits s js).any (p s)) = true) :
    ∃ s s', Reaches step admits s₀ s ∧ Reaches step admits s s' ∧ p s s' = true := by
  obtain ⟨s, hfirst, hs⟩ := Option.any_eq_true _ _ |>.mp hs
  obtain ⟨s', hsecond, hp⟩ := Option.any_eq_true _ _ |>.mp hs
  exact ⟨s, s', Reaches.start.exec hfirst, Reaches.start.exec hsecond, hp⟩

/-! Calls that are under way are kept in a list: a call that goes on is set in its place, a
    new one comes last. -/

theorem getElem?_set_cases {α : Type} {l : List α} {k j : Nat} {x y : α}
    (h : (l.set k x)[j]? = some y) : (j = k ∧ y = x) ∨ (j ≠ k ∧ l[j]? = some y) := by
  rw [List.getElem?_set] at h
  split_ifs at h with hk hlt
  · cases h
    exact .inl ⟨hk.symm, rfl⟩
  · exact .inr ⟨Ne.symm hk, h⟩

theorem getElem?_concat_cases {α : Type} {l : List α} {j : Nat} {x y : α}
    (h : (l ++ [x])[j]? = some y) : (j = l.length ∧ y = x) ∨ l[j]? = some y := by
  rcases Nat.lt_or_ge j l.length with hlt | hge
  · exact .inr (by rwa [List.getElem?_append_left hlt] at h)
  rw [List.getElem?_append_right hge, List.getElem?_singleton] at h
  split_ifs at h with hj
  exact .inl ⟨by omega, (Option.some.inj h).symm⟩

/-! What one of the calls has, and what the others have. -/

section

variable {α : Type} {p : α → Prop} {l : List α} {k : Nat} {x call : α}

theorem exists_mem_set (d : α) (hd : ¬p d) (hk : k < l.length) :
    (∃ y ∈ l.set k x, p y) ↔ p x ∨ ∃ y ∈ l.set k d, p y := by
  induction l generalizing k with
  | nil => cases hk
  | cons y l ih =>
    rcases k with _ | k
    · simp [hd]
    have hk' : k < l.length := Nat.lt_of_succ_lt_succ hk
    simp only [List.set_cons_succ, List.mem_cons, or_and_right, exists_or, exists_eq_left, ih hk',
      or_left_comm]

theorem exists_mem_of_getElem? (d : α) (hd : ¬p d) (hk : l[k]? = some call) :
    (∃ y ∈ l, p y) ↔ p call ∨ ∃ y ∈ l.set k d, p y := by
  obtain ⟨hlt, heq⟩ := List.getElem?_eq_some_iff.mp hk
  have hset : l.set k call = l := by
    rw [← heq, List.set_getElem_self]
  conv_lhs => rw [← hset]
  exact exists_mem_set d hd hlt

theorem exists_mem_concat : (∃ y ∈ l ++ [x], p y) ↔ (∃ y ∈ l, p y) ∨ p x := by
  simp only [List.mem_append, List.mem_singleton, or_and_right, exists_or, exists_eq_left]

end

end Machine
