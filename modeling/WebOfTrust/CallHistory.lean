/-
  **Histories of calls that overlap.**

  A call starts at one moment and returns a value at a later one; other calls start and return
  in between.  A history is monotone when a call that starts after a value was returned returns
  nothing lower.  That only depends on what was returned before a call started, its floor,
  which no later event changes.
-/
import Mathlib.Order.Defs.PartialOrder
import Mathlib.Data.List.Basic

inductive CallEvent (ρ : Type) where
  | started (n : Nat)
  | returned (n : Nat) (value : ρ)
deriving DecidableEq

namespace CallHistory

open List

variable {ρ : Type} {h : List (CallEvent ρ)} {n : Nat} {v : ρ}

/-- Some call has returned `v`. -/
def Returned (h : List (CallEvent ρ)) (v : ρ) : Prop := ∃ k, .returned k v ∈ h

def Floor (h : List (CallEvent ρ)) (n : Nat) (v : ρ) : Prop :=
  ∃ k, [.returned k v, .started n] <+ h

def Monotone [Preorder ρ] (h : List (CallEvent ρ)) : Prop :=
  ∀ k v n v', [.returned k v, .started n, .returned n v'] <+ h → v ≤ v'

theorem sublist_append_singleton {α : Type} {l h : List α} {e : α} :
    l <+ h ++ [e] ↔ l <+ h ∨ ∃ l', l = l' ++ [e] ∧ l' <+ h := by
  rw [sublist_append_iff]
  constructor
  · rintro ⟨l₁, l₂, rfl, h₁, h₂⟩
    rcases sublist_singleton.mp h₂ with rfl | rfl
    · exact .inl (by simpa using h₁)
    · exact .inr ⟨l₁, rfl, h₁⟩
  · rintro (hl | ⟨l', rfl, hl'⟩)
    · exact ⟨l, [], by simp, hl, nil_sublist _⟩
    · exact ⟨l', [e], rfl, hl', .refl _⟩

theorem returned_append_started : Returned (h ++ [.started n]) v ↔ Returned h v := by
  simp [Returned]

open CallEvent

theorem returned_append_returned {v' : ρ} :
    Returned (h ++ [.returned n v']) v ↔ Returned h v ∨ v = v' := by
  simp only [Returned, mem_append, mem_singleton, returned.injEq]
  constructor
  · rintro ⟨k, hk | ⟨-, rfl⟩⟩
    · exact .inl ⟨k, hk⟩
    · exact .inr rfl
  · rintro (⟨k, hk⟩ | rfl)
    · exact ⟨k, .inl hk⟩
    · exact ⟨n, .inr ⟨rfl, rfl⟩⟩

theorem Floor.returned (hf : Floor h n v) : Returned h v := by
  obtain ⟨k, hk⟩ := hf
  exact ⟨k, hk.subset (by simp)⟩

theorem floor_append_started {m : Nat} :
    Floor (h ++ [.started m]) n v ↔ Floor h n v ∨ (n = m ∧ Returned h v) := by
  simp only [Floor, Returned, sublist_append_singleton]
  constructor
  · rintro ⟨k, hk | ⟨l', hl', hk⟩⟩
    · exact .inl ⟨k, hk⟩
    · obtain ⟨rfl, heq⟩ := append_inj' (show [returned k v] ++ _ = _ from hl') rfl
      refine .inr ⟨by simpa using heq, k, hk.subset (by simp)⟩
  · rintro (⟨k, hk⟩ | ⟨rfl, k, hk⟩)
    · exact ⟨k, .inl hk⟩
    · exact ⟨k, .inr ⟨[.returned k v], rfl, singleton_sublist.mpr hk⟩⟩

theorem floor_append_returned {m : Nat} {v' : ρ} :
    Floor (h ++ [.returned m v']) n v ↔ Floor h n v := by
  simp only [Floor, sublist_append_singleton]
  constructor
  · rintro ⟨k, hk | ⟨l', hl', -⟩⟩
    · exact ⟨k, hk⟩
    · obtain ⟨-, heq⟩ := append_inj' (show [returned k v] ++ _ = _ from hl') rfl
      simp at heq
  · rintro ⟨k, hk⟩
    exact ⟨k, .inl hk⟩

section

variable [Preorder ρ]

theorem monotone_nil : Monotone ([] : List (CallEvent ρ)) := by
  intro k v n v' hsub
  simp at hsub

theorem Monotone.append_started (hm : Monotone h) : Monotone (h ++ [.started n]) := by
  intro k v m v' hsub
  rcases sublist_append_singleton.mp hsub with hold | ⟨l', hl', -⟩
  · exact hm k v m v' hold
  · obtain ⟨-, heq⟩ := append_inj' (show [returned k v, .started m] ++ _ = _ from hl') rfl
    simp at heq

theorem Monotone.append_returned (hm : Monotone h) (hfloor : ∀ u, Floor h n u → u ≤ v) :
    Monotone (h ++ [.returned n v]) := by
  intro k u m v' hsub
  rcases sublist_append_singleton.mp hsub with hold | ⟨l', hl', hl⟩
  · exact hm k u m v' hold
  obtain ⟨rfl, heq⟩ :=
    append_inj' (show [returned k u, .started m] ++ _ = _ from hl') rfl
  obtain ⟨rfl, rfl⟩ := heq
  exact hfloor u ⟨k, hl⟩

end

end CallHistory
