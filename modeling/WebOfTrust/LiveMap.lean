/-
  **Maps that change while they are iterated.**

  A JavaScript `Map` visits its entries in the order of their insertion, and an iteration
  that is suspended between two entries sees what happens meanwhile: an entry that is
  deleted before its turn is not visited, one that is added is visited at the end, and one
  that is deleted and added again is visited again.  So every entry has a position of its
  own, and an iteration is a position: what lies before it has been visited.
-/
import Mathlib.Data.List.Nodup

structure LiveEntry (κ ν : Type) where
  position : Nat
  key : κ
  value : ν

/-- Entries with pairwise different keys, in the order of their positions. -/
structure LiveMap (κ ν : Type) where
  entries : List (LiveEntry κ ν)
  /-- The next position to give out. -/
  fresh : Nat
  keys_nodup : (entries.map (·.key)).Nodup
  ordered : entries.Pairwise fun e e' => e.position < e'.position
  position_lt : ∀ e ∈ entries, e.position < fresh

namespace LiveMap

open List

variable {κ ν : Type}

/-! ## 1. Operations -/

def empty : LiveMap κ ν where
  entries := []
  fresh := 0
  keys_nodup := nodup_nil
  ordered := Pairwise.nil
  position_lt := by simp

/-- Keep the keys that satisfy `p`; the others are deleted. -/
def keep (m : LiveMap κ ν) (p : κ → Bool) : LiveMap κ ν where
  entries := m.entries.filter fun e => p e.key
  fresh := m.fresh
  keys_nodup := m.keys_nodup.sublist (filter_sublist.map _)
  ordered := m.ordered.filter _
  position_lt e he := m.position_lt e (mem_of_mem_filter he)

/-- The entry that an iteration at `position` visits next, if it skips the keys that do not
    satisfy `p`. -/
def next (m : LiveMap κ ν) (position : Nat) (p : κ → Bool) : Option (LiveEntry κ ν) :=
  m.entries.find? fun e => decide (position ≤ e.position) && p e.key

section

variable [DecidableEq κ]

section

variable (m : LiveMap κ ν) (k : κ)

/-- `map.get`. -/
def get? : Option ν :=
  (m.entries.find? fun e => decide (e.key = k)).map (·.value)

def has : Bool := m.entries.any fun e => decide (e.key = k)

def delete : LiveMap κ ν := m.keep fun k' => decide (k' ≠ k)

theorem has_iff {m : LiveMap κ ν} {k : κ} : m.has k = true ↔ ∃ e ∈ m.entries, e.key = k := by
  simp [has]

def replace (v : ν) : LiveMap κ ν where
  entries := m.entries.map fun e => if e.key = k then { e with value := v } else e
  fresh := m.fresh
  keys_nodup := by
    have hkeys : (m.entries.map fun e => if e.key = k then { e with value := v } else e).map
        (·.key) = m.entries.map (·.key) := by
      rw [map_map]
      refine map_congr_left fun e _ => ?_
      by_cases h : e.key = k <;> simp [h]
    rw [hkeys]
    exact m.keys_nodup
  ordered := by
    rw [pairwise_map]
    refine m.ordered.imp fun h => ?_
    split_ifs <;> exact h
  position_lt := by
    intro e he
    obtain ⟨e', he', rfl⟩ := mem_map.mp he
    have hlt := m.position_lt e' he'
    split_ifs <;> exact hlt

/-- `map.set`: a key that is there keeps its place, a new one comes last. -/
def set (v : ν) : LiveMap κ ν :=
  if h : m.has k = true then m.replace k v
  else
    { entries := m.entries ++ [⟨m.fresh, k, v⟩]
      fresh := m.fresh + 1
      keys_nodup := by
        have hfree : ∀ e ∈ m.entries, e.key ≠ k := by
          intro e he hkey
          exact h (has_iff.mpr ⟨e, he, hkey⟩)
        rw [map_append, nodup_append]
        refine ⟨m.keys_nodup, by simp, ?_⟩
        intro a ha b hb
        obtain ⟨e, he, rfl⟩ := mem_map.mp ha
        rw [map_singleton, mem_singleton] at hb
        exact hb ▸ hfree e he
      ordered := by
        rw [pairwise_append]
        refine ⟨m.ordered, pairwise_singleton _ _, ?_⟩
        intro e he e' he'
        rw [mem_singleton] at he'
        exact he' ▸ m.position_lt e he
      position_lt := by
        intro e he
        rcases mem_append.mp he with he | he
        · exact Nat.lt_succ_of_lt (m.position_lt e he)
        · rw [mem_singleton] at he
          exact he ▸ Nat.lt_succ_self _ }

end

def ofList (pairs : List (κ × ν)) : LiveMap κ ν :=
  pairs.foldl (fun m pair => m.set pair.1 pair.2) empty

end

/-! ## 2. What the operations do to the entries -/

@[simp] theorem entries_empty : (empty : LiveMap κ ν).entries = [] := rfl

@[simp] theorem mem_entries_keep {m : LiveMap κ ν} {p : κ → Bool} {e : LiveEntry κ ν} :
    e ∈ (m.keep p).entries ↔ e ∈ m.entries ∧ p e.key = true := mem_filter

section

variable [DecidableEq κ]

@[simp] theorem mem_entries_delete {m : LiveMap κ ν} {k : κ} {e : LiveEntry κ ν} :
    e ∈ (m.delete k).entries ↔ e ∈ m.entries ∧ e.key ≠ k := by
  rw [delete, mem_entries_keep, decide_eq_true_eq]

theorem mem_entries_set {m : LiveMap κ ν} {k : κ} {v : ν} {e : LiveEntry κ ν}
    (h : e ∈ (m.set k v).entries) :
    (∃ e' ∈ m.entries, e'.position = e.position ∧ e'.key = e.key) ∨
      (e.position = m.fresh ∧ e.key = k) := by
  unfold set at h
  split at h
  · obtain ⟨e', he', rfl⟩ := mem_map.mp h
    refine .inl ⟨e', he', ?_⟩
    split_ifs <;> exact ⟨rfl, rfl⟩
  rcases mem_append.mp h with h | h
  · exact .inl ⟨e, h, rfl, rfl⟩
  rw [mem_singleton] at h
  subst h
  exact .inr ⟨rfl, rfl⟩

theorem fresh_le_set (m : LiveMap κ ν) (k : κ) (v : ν) : m.fresh ≤ (m.set k v).fresh := by
  unfold set
  split
  · exact Nat.le_refl _
  · exact Nat.le_succ _

end

/-! ## 3. Iteration -/

variable {m : LiveMap κ ν} {position : Nat} {p : κ → Bool} {e e' : LiveEntry κ ν}

theorem mem_of_next (h : m.next position p = some e) : e ∈ m.entries := mem_of_find?_eq_some h

theorem lt_of_next_none (h : m.next position p = none) (he : e ∈ m.entries)
    (hp : p e.key = true) : e.position < position := by
  have hnot := find?_eq_none.mp h e he
  simp only [hp, Bool.and_true, decide_eq_true_eq] at hnot
  omega

theorem visited_of_next (h : m.next position p = some e) (he : e' ∈ m.entries)
    (hp : p e'.key = true) (hle : e'.position ≤ e.position) :
    e'.position < position ∨ e' = e := by
  obtain ⟨-, before, after, hsplit, hskip⟩ := find?_eq_some_iff_append.mp h
  have hordered := hsplit ▸ m.ordered
  rw [hsplit] at he
  rcases mem_append.mp he with hin | hin
  · left
    have hnot := hskip e' hin
    simp only [hp, Bool.and_true, Bool.not_eq_true', decide_eq_false_iff_not] at hnot
    omega
  rcases mem_cons.mp hin with rfl | hin
  · exact .inr rfl
  have htail := (pairwise_append.mp hordered).2.1
  have hlt := (pairwise_cons.mp htail).1 e' hin
  omega

end LiveMap
