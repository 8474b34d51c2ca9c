/-
  **A cache in front of a table**, filled by readers that have fetched a row before.

  A change of the table is announced, which drops what it covers from the cache, and takes
  effect later.  The cache is coherent when each of its rows is what the table holds and no
  announced change covers it.  Everything keeps that except a row that is put in too late:
  one that the table no longer holds, or that an announced change is about to replace.
-/
import WebOfTrust.KeyedTable

namespace KeyedTable

variable {κ ρ : Type} [DecidableEq κ] {key : ρ → κ}

/-- Every row of the cache is what the table holds, and no change in `announced`, each given
    by the keys it covers, is about to touch it. -/
structure Coherent (table cache : KeyedTable key) (announced : (κ → Bool) → Prop) : Prop where
  hit : ∀ k r, cache.get? k = some r → table.get? k = some r
  quiet : ∀ k r, cache.get? k = some r → ∀ covers, announced covers → covers k = false

variable {table table' cache : KeyedTable key} {announced announced' : (κ → Bool) → Prop}

theorem coherent_empty : Coherent table .empty announced where
  hit _ _ h := by cases h
  quiet _ _ h := by cases h

namespace Coherent

section

variable (h : Coherent table cache announced)
include h

theorem weaken (hsub : ∀ covers, announced' covers → announced covers) :
    Coherent table cache announced' where
  hit := h.hit
  quiet k r hk covers hcovers := h.quiet k r hk covers (hsub covers hcovers)

theorem drop (dropped : κ → Bool) :
    Coherent table (cache.filter fun r => !dropped (key r)) announced := by
  have hold : ∀ k r, (cache.filter fun r => !dropped (key r)).get? k = some r →
      cache.get? k = some r :=
    fun k r hk => (get?_filter_eq_some.mp hk).1
  exact ⟨fun k r hk => h.hit k r (hold k r hk), fun k r hk => h.quiet k r (hold k r hk)⟩

theorem announce {dropped covers : κ → Bool} (hcovers : ∀ k, covers k = true → dropped k = true)
    (hsub : ∀ covers', announced' covers' → announced covers' ∨ covers' = covers) :
    Coherent table (cache.filter fun r => !dropped (key r)) announced' := by
  refine ⟨(h.drop dropped).hit, fun k r hk covers' hannounced => ?_⟩
  rcases hsub covers' hannounced with hold | rfl
  · exact (h.drop dropped).quiet k r hk covers' hold
  obtain ⟨hcache, hkept⟩ := get?_filter_eq_some.mp hk
  rw [key_of_get? hcache] at hkept
  by_contra hnot
  rw [Bool.not_eq_false] at hnot
  rw [hcovers k hnot] at hkept
  cases hkept

theorem takesEffect {covers : κ → Bool} (hannounced : announced covers)
    (hframe : ∀ k, covers k = false → table'.get? k = table.get? k) :
    Coherent table' cache announced := by
  refine ⟨fun k r hk => ?_, h.quiet⟩
  rw [hframe k (h.quiet k r hk covers hannounced)]
  exact h.hit k r hk

theorem fill {r : ρ} (hrow : table.get? (key r) = some r)
    (hquiet : ∀ covers, announced covers → covers (key r) = false) :
    Coherent table (cache.put r) announced := by
  constructor
  · intro k r' hk
    rw [get?_put] at hk
    split at hk
    · next heq =>
      cases hk
      rw [← heq]
      exact hrow
    · exact h.hit k r' hk
  · intro k r' hk covers hcovers
    rw [get?_put] at hk
    split at hk
    · next heq =>
      rw [← heq]
      exact hquiet covers hcovers
    · exact h.quiet k r' hk covers hcovers

end

end Coherent

end KeyedTable
