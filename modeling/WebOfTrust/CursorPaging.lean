/-
  **Paging by a cursor per source**, for any rows that come from sources and are numbered
  within their source.

  A page is a prefix of the rows above the cursor, and the next request asks for what is
  above the last row seen of each source.  When the numbers of a source increase along the
  list, the rows above the advanced cursor are exactly the rest (`filter_above_advance`),
  so the pages partition what was missing (`pages_rows`), wherever the cuts fall.
-/
import Mathlib.Data.List.Basic

namespace WebOfTrust

open List

abbrev Cursor (δ : Type) := δ → Option Nat

section

variable {α δ : Type} [DecidableEq δ] (source : α → δ) (num : α → Nat)

def Cursor.above (cursor : Cursor δ) (r : α) : Bool :=
  (cursor (source r)).all fun head => decide (head < num r)

def Cursor.advance (cursor : Cursor δ) (page : List α) : Cursor δ :=
  page.foldl (fun c r => Function.update c (source r) (some (num r))) cursor

/-- The numbers of each source increase along the list. -/
def Ascending (l : List α) : Prop := l.Pairwise fun a b => source a = source b → num a < num b

structure CursorPage (α : Type) where
  rows : List α
  more : Bool

def cursorPages (l : List α) (limit : Nat) : Nat → Cursor δ → List (CursorPage α)
  | 0, _ => []
  | fuel + 1, cursor =>
    let missing := l.filter (cursor.above source num)
    let page := missing.take limit
    let more := decide (limit < missing.length)
    ⟨page, more⟩ :: if more then cursorPages l limit fuel (cursor.advance source num page) else []

variable {source num} {l page : List α} {cursor : Cursor δ} {r : α}

/-! ## 1. The advanced cursor -/

theorem advance_cons (r : α) (page : List α) : cursor.advance source num (r :: page) =
      Cursor.advance source num (Function.update cursor (source r) (some (num r))) page := rfl

theorem advance_eq_or (d : δ) : cursor.advance source num page d = cursor d ∨
      ∃ r ∈ page, source r = d ∧ cursor.advance source num page d = some (num r) := by
  induction page generalizing cursor with
  | nil => exact .inl rfl
  | cons r page ih =>
    rw [advance_cons]
    have hnext := @ih (Function.update cursor (source r) (some (num r)))
    rcases hnext with hsame | hrow
    · by_cases hd : source r = d
      · subst hd
        rw [Function.update_self] at hsame
        exact .inr ⟨r, mem_cons_self, rfl, hsame⟩
      · rw [Function.update_of_ne (Ne.symm hd)] at hsame
        exact .inl hsame
    · obtain ⟨r', hr', hsource, heq⟩ := hrow
      exact .inr ⟨r', mem_cons_of_mem _ hr', hsource, heq⟩

theorem not_above_advance (h : Ascending source num page) (hr : r ∈ page) :
    (cursor.advance source num page).above source num r = false := by
  induction page generalizing cursor with
  | nil => cases hr
  | cons r' page ih =>
    obtain ⟨hfirst, hrest⟩ := pairwise_cons.mp h
    rw [advance_cons]
    rcases mem_cons.mp hr with rfl | hr
    · -- the head of its source is its own number or a later one
      unfold Cursor.above
      rcases advance_eq_or (source r) with hsame | hrow
      · rw [hsame, Function.update_self]
        simp
      obtain ⟨r', hr', hsource, heq⟩ := hrow
      have hlt := hfirst r' hr' hsource.symm
      rw [heq]
      simp only [Option.all_some, decide_eq_false_iff_not]
      omega
    · exact ih hrest hr

theorem above_advance (hpage : ∀ r' ∈ page, source r' = source r → num r' < num r)
    (h : cursor.above source num r = true) :
    (cursor.advance source num page).above source num r = true := by
  unfold Cursor.above at h ⊢
  rcases advance_eq_or (source r) with hsame | hrow
  · rw [hsame]
    exact h
  obtain ⟨r', hr', hsource, heq⟩ := hrow
  rw [heq]
  simpa using hpage r' hr' hsource

theorem above_of_advance (hpage : ∀ r' ∈ page, cursor.above source num r' = true)
    (h : (cursor.advance source num page).above source num r = true) :
    cursor.above source num r = true := by
  unfold Cursor.above at h ⊢
  rcases advance_eq_or (source r) with hsame | hrow
  · rw [hsame] at h
    exact h
  obtain ⟨r', hr', hsource, heq⟩ := hrow
  have habove := hpage r' hr'
  unfold Cursor.above at habove
  rw [hsource] at habove
  rw [heq] at h
  simp only [Option.all_eq_true, Option.all_some, decide_eq_true_eq] at habove h ⊢
  intro head hhead
  have := habove head hhead
  omega

theorem filter_advance_take (h : Ascending source num l)
    (habove : ∀ r ∈ l, cursor.above source num r = true) (n : Nat) :
    l.filter ((cursor.advance source num (l.take n)).above source num) = l.drop n := by
  have hsplit := h
  unfold Ascending at hsplit
  rw [← take_append_drop n l, pairwise_append] at hsplit
  obtain ⟨htake, -, hacross⟩ := hsplit
  have hnone :
      (l.take n).filter ((cursor.advance source num (l.take n)).above source num) = [] := by
    rw [filter_eq_nil_iff]
    intro r hr
    rw [not_above_advance htake hr]
    exact Bool.false_ne_true
  have hall : (l.drop n).filter ((cursor.advance source num (l.take n)).above source num) =
      l.drop n := by
    rw [filter_eq_self]
    intro r hr
    exact above_advance (fun r' hr' => hacross r' hr' r hr) (habove r (mem_of_mem_drop hr))
  calc l.filter ((cursor.advance source num (l.take n)).above source num)
      = (l.take n ++ l.drop n).filter
        ((cursor.advance source num (l.take n)).above source num) := by
        rw [take_append_drop]
    _ = l.drop n := by rw [filter_append, hnone, hall, nil_append]

/-- **What is above the advanced cursor** is what the page has left. -/
theorem filter_above_advance (cursor : Cursor δ) (h : Ascending source num l) (n : Nat) :
    l.filter ((cursor.advance source num
        ((l.filter (cursor.above source num)).take n)).above source num) =
      (l.filter (cursor.above source num)).drop n := by
  have habove : ∀ r ∈ l.filter (cursor.above source num), cursor.above source num r = true :=
    fun r hr => (mem_filter.mp hr).2
  rw [← filter_advance_take (Pairwise.filter _ h) habove n, filter_filter]
  apply filter_congr
  intro r _
  rw [Bool.eq_iff_iff, Bool.and_eq_true]
  refine ⟨fun hr => ⟨hr, ?_⟩, And.left⟩
  exact above_of_advance (fun r' hr' => habove r' (mem_of_mem_take hr')) hr

/-! ## 2. The pages -/

section

variable (h : Ascending source num l)
include h

/-- **The pages partition what was missing**, in its order, if there are enough of them. -/
theorem pages_rows {limit : Nat} (hlimit : 1 ≤ limit) {fuel : Nat}
    (hfuel : (l.filter (cursor.above source num)).length < fuel) :
    (cursorPages source num l limit fuel cursor).flatMap (·.rows) =
      l.filter (cursor.above source num) := by
  induction fuel generalizing cursor with
  | zero => omega
  | succ fuel ih =>
    simp only [cursorPages, flatMap_cons]
    by_cases hmore : limit < (l.filter (cursor.above source num)).length
    · have hrest := filter_above_advance cursor h limit
      rw [if_pos (decide_eq_true hmore), ih, hrest, take_append_drop]
      rw [hrest, length_drop]
      omega
    · rw [if_neg (by simpa using hmore), flatMap_nil, append_nil, take_of_length_le (by omega)]

theorem pages_more {limit : Nat} (hlimit : 1 ≤ limit) {fuel : Nat}
    (hfuel : (l.filter (cursor.above source num)).length < fuel) :
    ∃ n, (cursorPages source num l limit fuel cursor).map (·.more) =
      replicate n true ++ [false] := by
  induction fuel generalizing cursor with
  | zero => omega
  | succ fuel ih =>
    simp only [cursorPages, map_cons]
    by_cases hmore : limit < (l.filter (cursor.above source num)).length
    · have hrest := filter_above_advance cursor h limit
      obtain ⟨n, hn⟩ := ih (by rw [hrest, length_drop]; omega)
      refine ⟨n + 1, ?_⟩
      rw [if_pos (decide_eq_true hmore), hn, decide_eq_true hmore]
      rfl
    refine ⟨0, ?_⟩
    rw [if_neg (by simpa using hmore), decide_eq_false hmore]
    rfl

theorem pages_fuel {limit : Nat} (hlimit : 1 ≤ limit)
    {fuel fuel' : Nat} (hfuel : (l.filter (cursor.above source num)).length < fuel)
    (hfuel' : (l.filter (cursor.above source num)).length < fuel') :
    cursorPages source num l limit fuel cursor = cursorPages source num l limit fuel' cursor := by
  induction fuel generalizing cursor fuel' with
  | zero => omega
  | succ fuel ih =>
    rcases fuel' with _ | fuel'
    · omega
    simp only [cursorPages]
    by_cases hmore : limit < (l.filter (cursor.above source num)).length
    · have hrest := filter_above_advance cursor h limit
      rw [if_pos (decide_eq_true hmore), if_pos (decide_eq_true hmore)]
      congr 1
      apply ih
      · rw [hrest, length_drop]
        omega
      · rw [hrest, length_drop]
        omega
    · rw [if_neg (by simpa using hmore), if_neg (by simpa using hmore)]

end

end

end WebOfTrust
