/-
  **Tables whose rows have unique keys**, in insertion order.

  A database table with a primary key, an IndexedDB object store with a key
  path and a JavaScript `Map` are all read the same way: at most one row per
  key, `add` refuses an occupied key, `put` overwrites in place.  The uniqueness
  of keys is a field of the structure, so a table that breaks its key
  constraint cannot be written down.  Everything else is said through `get?`.
-/
import Mathlib.Data.List.Nodup

structure KeyedTable {κ ρ : Type} (key : ρ → κ) where
  rows : List ρ
  keys_nodup : (rows.map key).Nodup

namespace KeyedTable

open List

variable {κ ρ : Type} [DecidableEq κ] {key : ρ → κ} {t : KeyedTable key} {k : κ} {r r' : ρ}
  {p : ρ → Bool}

/-! ## 1. Operations -/

def empty : KeyedTable key := ⟨[], nodup_nil⟩

instance : Inhabited (KeyedTable key) := ⟨empty⟩

def get? (t : KeyedTable key) (k : κ) : Option ρ := t.rows.find? (fun r => decide (key r = k))

def has (t : KeyedTable key) (k : κ) : Bool := (t.get? k).isSome

theorem get?_eq_none_iff : t.get? k = none ↔ ∀ r ∈ t.rows, key r ≠ k := by
  simp [get?]

theorem key_of_get? (h : t.get? k = some r) : key r = k := by
  simpa using find?_some h

theorem mem_of_get? (h : t.get? k = some r) : r ∈ t.rows :=
  mem_of_find?_eq_some h

theorem mem_rows_iff : r ∈ t.rows ↔ t.get? (key r) = some r := by
  refine ⟨fun hr => ?_, mem_of_get?⟩
  cases h : t.get? (key r) with
  | none => exact absurd rfl (get?_eq_none_iff.mp h r hr)
  | some r' =>
    have hkey : key r' = key r := key_of_get? h
    rw [inj_on_of_nodup_map t.keys_nodup (mem_of_get? h) hr hkey]

omit [DecidableEq κ] in
theorem eq_of_key_eq (hr : r ∈ t.rows) (hr' : r' ∈ t.rows) (h : key r = key r') : r = r' :=
  inj_on_of_nodup_map t.keys_nodup hr hr' h

theorem has_iff : t.has k = true ↔ ∃ r ∈ t.rows, key r = k := by
  rw [has, Option.isSome_iff_exists]
  constructor
  · rintro ⟨r, hr⟩
    exact ⟨r, mem_of_get? hr, key_of_get? hr⟩
  · rintro ⟨r, hr, rfl⟩
    exact ⟨r, mem_rows_iff.mp hr⟩

theorem get?_eq_none_of_has (h : t.has k = false) : t.get? k = none := by
  simpa [has] using h

section

variable (t : KeyedTable key)

def add (r : ρ) : KeyedTable key :=
  if h : t.has (key r) = true then t
  else
    { rows := t.rows ++ [r]
      keys_nodup := by
        have hfree := get?_eq_none_iff.mp (get?_eq_none_of_has (by simpa using h))
        rw [map_append, nodup_append]
        refine ⟨t.keys_nodup, by simp, ?_⟩
        intro a ha b hb
        simp only [map_cons, map_nil, mem_singleton] at hb
        obtain ⟨x, hx, rfl⟩ := mem_map.mp ha
        exact hb ▸ hfree x hx }

def replace (r : ρ) : KeyedTable key where
  rows := t.rows.map fun x => if key x = key r then r else x
  keys_nodup := by
    have hkeys : (t.rows.map fun x => if key x = key r then r else x).map key = t.rows.map key := by
      rw [map_map]
      refine map_congr_left fun x _ => ?_
      by_cases h : key x = key r <;> simp [h]
    rw [hkeys]
    exact t.keys_nodup

def put (r : ρ) : KeyedTable key :=
  if t.has (key r) then t.replace r else t.add r

def update (k : κ) (f : ρ → ρ) : KeyedTable key :=
  match t.get? k with
  | some r => t.put (f r)
  | none => t

/-- Keep the rows that satisfy `p`. -/
def filter (p : ρ → Bool) : KeyedTable key where
  rows := t.rows.filter p
  keys_nodup := t.keys_nodup.sublist (filter_sublist.map key)

def erase (k : κ) : KeyedTable key := t.filter fun r => decide (key r ≠ k)

end

/-! ## 2. What the operations do to a lookup -/

@[simp] theorem get?_empty (k : κ) : (empty : KeyedTable key).get? k = none := rfl

omit [DecidableEq κ] in
@[simp] theorem rows_empty : (empty : KeyedTable key).rows = [] := rfl

theorem add_of_has (h : t.has (key r) = true) : t.add r = t := by
  simp [add, h]

theorem rows_add_of_free (h : t.has (key r) = false) : (t.add r).rows = t.rows ++ [r] := by
  simp [add, h]

theorem mem_rows_add (h : r' ∈ (t.add r).rows) : r' ∈ t.rows ∨ r' = r := by
  cases hhas : t.has (key r) with
  | true =>
    rw [add_of_has hhas] at h
    exact .inl h
  | false =>
    rw [rows_add_of_free hhas, mem_append, mem_singleton] at h
    exact h

theorem get?_add_of_free (h : t.has (key r) = false) (k : κ) :
    (t.add r).get? k = if key r = k then some r else t.get? k := by
  simp only [get?, rows_add_of_free h, find?_append]
  by_cases hk : key r = k
  · have hnone : t.rows.find? (fun x => decide (key x = k)) = none :=
      hk ▸ get?_eq_none_of_has h
    simp [hnone, hk]
  · simp [hk]

theorem get?_add_of_some (h : t.get? k = some r') : (t.add r).get? k = some r' := by
  cases hhas : t.has (key r) with
  | true => rwa [add_of_has hhas]
  | false =>
    have hne : key r ≠ k := by
      rintro rfl
      rw [get?_eq_none_of_has hhas] at h
      cases h
    rw [get?_add_of_free hhas, if_neg hne, h]

section

variable (t : KeyedTable key)

theorem has_add (r : ρ) (k : κ) : (t.add r).has k = (t.has k || decide (key r = k)) := by
  cases hhas : t.has (key r) with
  | true =>
    rw [add_of_has hhas]
    by_cases hk : key r = k
    · rw [← hk, hhas]
      rfl
    · simp [hk]
  | false =>
    rw [has, get?_add_of_free hhas, has]
    by_cases hk : key r = k
    · simp [hk]
    · simp [hk]

theorem get?_add (r : ρ) (k : κ) :
    (t.add r).get? k = (t.get? k).or (if key r = k then some r else none) := by
  cases hhas : t.has (key r) with
  | true =>
    rw [add_of_has hhas]
    by_cases hk : key r = k
    · subst hk
      obtain ⟨r', hr'⟩ := Option.isSome_iff_exists.mp hhas
      simp [hr']
    · simp [hk]
  | false =>
    rw [get?_add_of_free hhas]
    by_cases hk : key r = k
    · subst hk
      simp [get?_eq_none_of_has hhas]
    · simp [hk]

def addAll (rs : List ρ) : KeyedTable key := rs.foldl add t

theorem get?_addAll (rs : List ρ) (k : κ) :
    (t.addAll rs).get? k = (t.get? k).or (rs.find? fun r => decide (key r = k)) := by
  induction rs generalizing t with
  | nil => simp [addAll]
  | cons r rest ih =>
    have ih : ((t.add r).addAll rest).get? k = _ := ih (t.add r)
    show ((t.add r).addAll rest).get? k = _
    rw [ih, get?_add, find?_cons]
    by_cases hk : key r = k
    · cases t.get? k <;> simp [hk]
    · simp [hk]

end

theorem get?_replace (h : t.has (key r) = true) (k : κ) :
    (t.replace r).get? k = if key r = k then some r else t.get? k := by
  by_cases hk : key r = k
  · subst hk
    rw [if_pos rfl]
    refine mem_rows_iff.mp (mem_map.mpr ?_)
    obtain ⟨x, hx, hxk⟩ := has_iff.mp h
    exact ⟨x, hx, by simp [hxk]⟩
  rw [if_neg hk]
  simp only [get?, replace, find?_map]
  have hcongr : ((fun x => decide (key x = k)) ∘ fun x => if key x = key r then r else x)
      = fun x => decide (key x = k) := by
    funext x
    by_cases hx : key x = key r <;> simp [hx, hk]
  rw [hcongr]
  cases hf : t.rows.find? (fun x => decide (key x = k)) with
  | none => rfl
  | some x =>
    have hxk : key x = k := by simpa using find?_some hf
    simp [show key x ≠ key r from fun he => hk (he ▸ hxk)]

theorem get?_put (t : KeyedTable key) (r : ρ) (k : κ) :
    (t.put r).get? k = if key r = k then some r else t.get? k := by
  cases h : t.has (key r) with
  | true => simp only [put, h, if_true]; exact get?_replace h k
  | false => simp only [put, h]; exact get?_add_of_free h k

theorem get?_update (t : KeyedTable key) (k : κ) (f : ρ → ρ) (hf : ∀ r, key (f r) = key r)
    (k' : κ) : (t.update k f).get? k' = if k = k' then (t.get? k).map f else t.get? k' := by
  cases h : t.get? k with
  | none =>
    by_cases hk : k = k'
    · subst hk; simp [update, h]
    · simp [update, h, hk]
  | some r =>
    have hkey : key (f r) = k := (hf r).trans (key_of_get? h)
    simp only [update, h, get?_put, hkey, Option.map_some]

omit [DecidableEq κ] in
theorem mem_rows_filter : r ∈ (t.filter p).rows ↔ r ∈ t.rows ∧ p r = true := mem_filter

theorem get?_filter_eq_some : (t.filter p).get? k = some r ↔ t.get? k = some r ∧ p r = true := by
  constructor
  · intro h
    obtain ⟨hmem, hp⟩ := mem_rows_filter.mp (mem_of_get? h)
    have hkey := key_of_get? h
    exact ⟨hkey ▸ mem_rows_iff.mp hmem, hp⟩
  · rintro ⟨h, hp⟩
    have hmem := mem_rows_filter.mpr ⟨mem_of_get? h, hp⟩
    have hkey := key_of_get? h
    exact hkey ▸ mem_rows_iff.mp hmem

theorem get?_erase (t : KeyedTable key) (k k' : κ) :
    (t.erase k).get? k' = if k = k' then none else t.get? k' := by
  refine Option.ext fun r => ?_
  rw [erase, get?_filter_eq_some]
  by_cases hk : k = k'
  · subst hk
    simp only [ne_eq, decide_eq_true_eq, if_true, reduceCtorEq, iff_false, not_and, not_not]
    exact key_of_get?
  simp only [ne_eq, decide_eq_true_eq, if_neg hk, and_iff_left_iff_imp]
  intro h heq
  exact hk (heq ▸ key_of_get? h)

theorem get?_filter_key (t : KeyedTable key) (p : κ → Bool) (k : κ) :
    (t.filter fun r => p (key r)).get? k = if p k = true then t.get? k else none := by
  apply Option.ext
  intro r
  rw [get?_filter_eq_some]
  by_cases hp : p k = true
  · rw [if_pos hp]
    constructor
    · intro h
      exact h.1
    · intro h
      exact ⟨h, (key_of_get? h).symm ▸ hp⟩
  · rw [if_neg hp]
    constructor
    · intro h
      exact absurd (key_of_get? h.1 ▸ h.2) hp
    · intro h
      cases h

theorem mem_keys_filter : k ∈ (t.rows.filter p).map key ↔ (t.get? k).any p = true := by
  rw [Option.any_eq_true]
  simp only [mem_map, mem_filter]
  constructor
  · rintro ⟨r, ⟨hr, hp⟩, rfl⟩
    exact ⟨r, mem_rows_iff.mp hr, hp⟩
  · rintro ⟨r, hr, hp⟩
    exact ⟨r, ⟨mem_of_get? hr, hp⟩, key_of_get? hr⟩

omit [DecidableEq κ] in
theorem eq_of_rows {t' : KeyedTable key} (h : t.rows = t'.rows) : t = t' := by
  cases t
  cases t'
  congr

theorem get?_eq_some_iff : t.get? k = some r ↔ r ∈ t.rows ∧ key r = k := by
  constructor
  · intro h
    exact ⟨mem_of_get? h, key_of_get? h⟩
  · rintro ⟨hmem, rfl⟩
    exact mem_rows_iff.mp hmem

theorem rows_put (t : KeyedTable key) (r : ρ) : (t.put r).rows = if t.has (key r) = true then
      t.rows.map fun x => if key x = key r then r else x
    else t.rows ++ [r] := by
  cases h : t.has (key r) with
  | true =>
    simp only [put, h, if_true]
    rfl
  | false =>
    simp only [put, h]
    exact rows_add_of_free h

theorem put_of_get? (h : t.get? (key r) = some r) : t.put r = t := by
  apply eq_of_rows
  rw [rows_put, if_pos (has_iff.mpr ⟨r, mem_of_get? h, rfl⟩)]
  refine (map_congr_left fun x hx => ?_).trans (map_id t.rows)
  by_cases hkey : key x = key r
  · rw [if_pos hkey]
    exact eq_of_key_eq (mem_of_get? h) hx hkey.symm
  · rw [if_neg hkey]
    rfl

variable (t : KeyedTable key)

theorem get?_foldl_put (rs : List ρ) (k : κ) :
    (∃ r ∈ rs, key r = k ∧ (rs.foldl put t).get? k = some r) ∨
      (∀ r ∈ rs, key r ≠ k) ∧ (rs.foldl put t).get? k = t.get? k := by
  induction rs generalizing t with
  | nil => exact .inr ⟨by simp, rfl⟩
  | cons first rest ih =>
    rw [foldl_cons]
    rcases ih (t.put first) with ⟨r, hr, hkey, hget⟩ | ⟨hnone, hget⟩
    · exact .inl ⟨r, mem_cons_of_mem _ hr, hkey, hget⟩
    rw [get?_put] at hget
    split at hget
    · next hkey => exact .inl ⟨first, mem_cons_self, hkey, hget⟩
    next hkey =>
    refine .inr ⟨?_, hget⟩
    rintro r hr
    rcases mem_cons.mp hr with rfl | hrest
    · exact hkey
    · exact hnone r hrest

theorem rows_update (k : κ) (f : ρ → ρ) (hf : ∀ r, key (f r) = key r) :
    (t.update k f).rows = t.rows.map fun x => if key x = k then f x else x := by
  cases h : t.get? k with
  | none =>
    simp only [update, h]
    have hid : ∀ x ∈ t.rows, (if key x = k then f x else x) = x := by
      intro x hx
      rw [if_neg (get?_eq_none_iff.mp h x hx)]
    exact ((map_congr_left hid).trans (map_id' t.rows)).symm
  | some r =>
    obtain ⟨hmem, hkey⟩ := get?_eq_some_iff.mp h
    have hhas : t.has (key (f r)) = true := by
      rw [has, hf, hkey, h]
      rfl
    simp only [update, h]
    rw [rows_put, if_pos hhas]
    apply map_congr_left
    intro x hx
    by_cases hxk : key x = k
    · have hxr : x = r := eq_of_key_eq hx hmem (hxk.trans hkey.symm)
      rw [hxr, if_pos (hf r).symm, if_pos hkey]
    have hne : key x ≠ key (f r) := by
      rw [hf, hkey]
      exact hxk
    rw [if_neg hne, if_neg hxk]

omit [DecidableEq κ] in
theorem filter_filter (p p' : ρ → Bool) :
    (t.filter p).filter p' = t.filter fun r => p r && p' r := by
  have hrows : ((t.filter p).filter p').rows = (t.filter fun r => p r && p' r).rows := by
    show (t.rows.filter p).filter p' = _
    rw [List.filter_filter]
    show _ = t.rows.filter fun r => p r && p' r
    congr 1
    funext r
    exact Bool.and_comm _ _
  cases h : (t.filter p).filter p'
  cases h' : t.filter fun r => p r && p' r
  rw [h, h'] at hrows
  congr

end KeyedTable
