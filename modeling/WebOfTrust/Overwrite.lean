/-
  **Updates that set some places of a state** and leave the others as they are.

  Of several updates the last one that sets a place decides about it.  An update that sets
  every place of an earlier one takes away what the earlier one would do, also with other
  updates in between.
-/
import Mathlib.Data.List.Induction

def Overwrite (κ ν : Type) := κ → Option ν

namespace Overwrite

open List

variable {κ ν ρ : Type} {u : Overwrite κ ν} {us : List (Overwrite κ ν)} {s s' : κ → ν}
  {p : κ → Prop} {k : κ}

def apply (u : Overwrite κ ν) (s : κ → ν) : κ → ν := fun k => (u k).getD (s k)

section

variable (us : List (Overwrite κ ν))

def applyAll (s : κ → ν) : κ → ν := us.foldl (fun s u => u.apply s) s

def last : Overwrite κ ν := fun k => us.reverse.findSome? fun u => u k

theorem applyAll_append (us vs : List (Overwrite κ ν)) :
    applyAll (us ++ vs) s = applyAll vs (applyAll us s) := foldl_append

theorem applyAll_eq (s : κ → ν) : applyAll us s = (last us).apply s := by
  induction us using reverseRecOn with
  | nil => rfl
  | append_singleton us u ih =>
    rw [applyAll_append, ih]
    funext k
    simp only [applyAll, foldl_cons, foldl_nil, apply, last, reverse_append,
      reverse_singleton, singleton_append, findSome?_cons]
    cases u k <;> rfl

end

theorem last_isSome : (last us k).isSome = true ↔ ∃ u ∈ us, (u k).isSome = true := by
  simp [last, findSome?_isSome_iff]

theorem applyAll_applyAll : applyAll us (applyAll us s) = applyAll us s := by
  funext k
  simp only [applyAll_eq, apply]
  cases last us k <;> rfl

/-! ## States that agree where `p` does not hold -/

def AgreeOff (p : κ → Prop) (s s' : κ → ν) : Prop := ∀ k, ¬p k → s k = s' k

theorem AgreeOff.refl : AgreeOff p s s := fun _ _ => rfl

theorem AgreeOff.apply (h : AgreeOff p s s') : AgreeOff p (u.apply s) (u.apply s') := by
  intro k hk
  rw [Overwrite.apply, Overwrite.apply, h k hk]

theorem AgreeOff.applyAll (h : AgreeOff p s s') :
    AgreeOff p (Overwrite.applyAll us s) (Overwrite.applyAll us s') := by
  induction us generalizing s s' with
  | nil => exact h
  | cons u us ih => exact ih h.apply

theorem AgreeOff.applyAll_left (hset : ∀ u ∈ us, ∀ k, (u k).isSome = true → p k)
    (h : AgreeOff p s s') : AgreeOff p (Overwrite.applyAll us s) s' := by
  induction us generalizing s with
  | nil => exact h
  | cons u us ih =>
    refine ih (fun u' hu' => hset u' (mem_cons_of_mem _ hu')) fun k hk => ?_
    have hnone : u k = none := by
      by_contra hne
      exact hk (hset u mem_cons_self k (Option.isSome_iff_ne_none.mpr hne))
    change (u k).getD (s k) = s' k
    rw [hnone, Option.getD_none, h k hk]

theorem AgreeOff.applyAll_eq (hset : ∀ k, p k → ∃ u ∈ us, (u k).isSome = true)
    (h : AgreeOff p s s') : Overwrite.applyAll us s = Overwrite.applyAll us s' := by
  funext k
  simp only [Overwrite.applyAll_eq, Overwrite.apply]
  by_cases hk : p k
  · obtain ⟨v, hv⟩ := Option.isSome_iff_exists.mp (last_isSome.mpr (hset k hk))
    rw [hv, Option.getD_some, Option.getD_some]
  · rw [h k hk]

/-! ## Rows of updates -/

def applyEach (updates : ρ → List (Overwrite κ ν)) (items : List ρ) (s : κ → ν) : κ → ν :=
  items.foldl (fun s item => applyAll (updates item) s) s

variable {updates updates' : ρ → List (Overwrite κ ν)} {items : List ρ}

theorem applyEach_append (items items' : List ρ) :
    applyEach updates (items ++ items') s = applyEach updates items' (applyEach updates items s) :=
  foldl_append

theorem applyEach_congr (h : ∀ item ∈ items, updates item = updates' item) :
    applyEach updates items s = applyEach updates' items s := by
  induction items generalizing s with
  | nil => rfl
  | cons item items ih =>
    rw [applyEach, foldl_cons, h item mem_cons_self]
    exact ih fun x hx => h x (mem_cons_of_mem _ hx)

/-- Items that only set places with `p` may be left out, where `p` holds. -/
theorem agreeOff_applyEach_filter {keep : ρ → Bool}
    (hset : ∀ item ∈ items, keep item = false → ∀ u ∈ updates item, ∀ k, (u k).isSome = true → p k)
    (h : AgreeOff p s s') :
    AgreeOff p (applyEach updates items s) (applyEach updates (items.filter keep) s') := by
  induction items generalizing s s' with
  | nil => exact h
  | cons item items ih =>
    have hrest := fun x hx => hset x (mem_cons_of_mem item hx)
    cases hkeep : keep item with
    | true =>
      rw [filter_cons_of_pos hkeep]
      exact ih hrest h.applyAll
    | false =>
      rw [filter_cons_of_neg (by simp [hkeep])]
      exact ih hrest (AgreeOff.applyAll_left (hset item mem_cons_self hkeep) h)

end Overwrite
