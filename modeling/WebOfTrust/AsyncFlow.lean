/-
  **Programs as control flow.**  An invariant of a pool often depends on where its
  programs are suspended, not on what is left of them.  A `Flow` says for each
  suspension point what the step taken there does to the state and where the program
  can be afterwards; `Follows` says that a program has no other steps.  A pool whose
  calls follow a flow is then a state machine over the shared state and the points of
  its programs (`Reachable.flow_run`).
-/
import WebOfTrust.AsyncPool

namespace Async

open List

variable {τ ι σ ε ρ κ α β : Type}

/-! ## 1. Flows -/

inductive Place (τ : Type) where
  | at (t : τ)
  | returned
  | failed

def Place.point : Place τ → Option τ
  | .at t => some t
  | _ => none

def place : Async τ ι σ ε α → Place τ
  | .ret _ => .returned
  | .fail _ => .failed
  | .step t _ _ _ => .at t

theorem point_place (p : Async τ ι σ ε α) : p.place.point = p.point := by
  cases p with
  | ret a | fail e | step t ready upd next => rfl

/-- When a step may be taken at a point, what it does to the state, and where the
    program may be after it. -/
structure Flow (τ ι σ : Type) where
  ready : τ → σ → Bool
  upd : τ → ι → σ → σ
  next : τ → ι → σ → Place τ → Prop

def Follows (F : Flow τ ι σ) : Async τ ι σ ε α → Prop
  | .ret _ => True
  | .fail _ => True
  | .step t ready upd next =>
      (∀ s, ready s = F.ready t s) ∧ (∀ i s, upd i s = F.upd t i s) ∧
        ∀ i s, F.next t i s (next i s).place ∧ Follows F (next i s)

variable {F : Flow τ ι σ} {t : τ} {f : ι → σ → Except ε α × σ}

theorem follows_bind {p : Async τ ι σ ε α} {f : α → Async τ ι σ ε β} (hp : Follows F p)
    (hf : ∀ a, Follows F (f a))
    (hexit : ∀ t i s, F.next t i s .returned → ∀ a, F.next t i s (f a).place) :
    Follows F (p.bind f) := by
  induction p with
  | ret a => exact hf a
  | fail e => trivial
  | step t ready upd next ih =>
    obtain ⟨hready, hupd, hnext⟩ := hp
    refine ⟨hready, hupd, fun i s => ⟨?_, ih i s (hnext i s).2⟩⟩
    have hplace := (hnext i s).1
    show F.next t i s ((next i s).bind f).place
    cases hcase : next i s with
    | ret a =>
      rw [hcase] at hplace
      exact hexit t i s hplace a
    | fail e | step t' ready' upd' next' => rwa [hcase] at hplace

theorem follows_await_bind {cond : σ → Bool} {g : α → Async τ ι σ ε β}
    (hready : ∀ s, cond s = F.ready t s) (hupd : ∀ i s, (f i s).2 = F.upd t i s)
    (hok : ∀ i s a, (f i s).1 = .ok a → F.next t i s (g a).place ∧ Follows F (g a))
    (herr : ∀ i s e, (f i s).1 = .error e → F.next t i s .failed) :
    Follows F ((await t cond f).bind g) := by
  refine ⟨hready, hupd, fun i s => ?_⟩
  show F.next t i s ((ofExcept (f i s).1).bind g).place ∧ Follows F ((ofExcept (f i s).1).bind g)
  cases hcase : (f i s).1 with
  | ok a => exact hok i s a hcase
  | error e => exact ⟨herr i s e hcase, trivial⟩

theorem follows_atomic_bind {g : α → Async τ ι σ ε β} (hready : ∀ s, F.ready t s = true)
    (hupd : ∀ i s, (f i s).2 = F.upd t i s)
    (hok : ∀ i s a, (f i s).1 = .ok a → F.next t i s (g a).place ∧ Follows F (g a))
    (herr : ∀ i s e, (f i s).1 = .error e → F.next t i s .failed) :
    Follows F ((atomic t f).bind g) :=
  follows_await_bind (fun s => (hready s).symm) hupd hok herr

theorem follows_atomic (hready : ∀ s, F.ready t s = true) (hupd : ∀ i s, (f i s).2 = F.upd t i s)
    (hok : ∀ i s a, (f i s).1 = .ok a → F.next t i s .returned)
    (herr : ∀ i s e, (f i s).1 = .error e → F.next t i s .failed) : Follows F (atomic t f) := by
  refine ⟨fun s => (hready s).symm, hupd, fun i s => ?_⟩
  show F.next t i s (ofExcept (f i s).1).place ∧ Follows F (ofExcept (f i s).1)
  cases hcase : (f i s).1 with
  | ok a => exact ⟨hok i s a hcase, trivial⟩
  | error e => exact ⟨herr i s e hcase, trivial⟩

variable {f : β → Async τ ι σ ε Unit}

theorem next_forEach {i : ι} {s : σ} (hend : F.next t i s .returned)
    (xs : List β) (hstart : ∀ x ∈ xs, (f x).place = .returned ∨ F.next t i s (f x).place) :
    F.next t i s (forEach xs f).place := by
  induction xs with
  | nil => exact hend
  | cons x rest ih =>
    have hrest := ih fun y hy => hstart y (mem_cons_of_mem _ hy)
    have hx := hstart x mem_cons_self
    show F.next t i s ((f x).bind fun _ => forEach rest f).place
    cases hcase : f x with
    | ret a => exact hrest
    | fail e | step t' ready upd next =>
      rw [hcase] at hx
      rcases hx with hx | hx
      · cases hx
      · exact hx

theorem follows_forEach {xs : List β} (hf : ∀ x ∈ xs, Follows F (f x))
    (hexit : ∀ t i s, F.next t i s .returned →
      ∀ x ∈ xs, (f x).place = .returned ∨ F.next t i s (f x).place) :
    Follows F (forEach xs f) := by
  induction xs with
  | nil => trivial
  | cons x rest ih =>
    apply follows_bind (hf x mem_cons_self)
    · intro _
      apply ih fun y hy => hf y (mem_cons_of_mem _ hy)
      intro t i s hend y hy
      exact hexit t i s hend y (mem_cons_of_mem _ hy)
    · intro t i s hend _
      apply next_forEach hend
      intro y hy
      exact hexit t i s hend y (mem_cons_of_mem _ hy)

/-! ## 2. A pool of programs that follow a flow -/

variable {S : System τ ι σ ε ρ κ} {admits : Config τ ι σ ε ρ → Action ι κ → Prop} {w : σ}
  {c c' : Config τ ι σ ε ρ}

theorem Reachable.follows (hcall : ∀ k, Follows F (S.call k)) (h : Reachable S admits w c) :
    ∀ p ∈ c.procs, Follows F p :=
  h.programs hcall fun _ _ _ _ hp i s => (hp.2.2 i s).2

/-- **One resumed program**: the state changes and the program moves on as the flow
    says; the other programs stay where they are. -/
theorem Reachable.flow_run (hcall : ∀ k, Follows F (S.call k)) (h : Reachable S admits w c)
    {n : Nat} {i : ι} (hs : c.step S (.run n i) = some c') :
    ∃ t o, c.pointAt n = some t ∧ F.ready t c.world = true ∧ c'.world = F.upd t i c.world ∧
      F.next t i c.world o ∧ c'.pointAt n = o.point ∧ ∀ m, m ≠ n → c'.pointAt m = c.pointAt m := by
  obtain ⟨t, ready, upd, next, hn, hready, rfl⟩ := Config.step_run hs
  obtain ⟨hfready, hupd, hnext⟩ := h.follows hcall _ (mem_of_getElem? hn)
  have hlt : n < c.procs.length := (List.getElem?_eq_some_iff.mp hn).1
  refine ⟨t, (next i c.world).place, ?_, ?_, hupd i c.world, (hnext i c.world).1, ?_, ?_⟩
  · simp [Config.pointAt, hn]
  · rw [← hfready]
    exact hready
  · simp [Config.pointAt, getElem?_set_self hlt, point_place]
  · intro m hm
    simp [Config.pointAt, getElem?_set_ne (Ne.symm hm)]

theorem Config.flow_call {k : κ} (hs : c.step S (.call k) = some c') :
    c'.world = c.world ∧ (∀ m, m ≠ c.procs.length → c'.pointAt m = c.pointAt m) ∧
      c'.pointAt c.procs.length = (S.call k).point := by
  cases hs
  refine ⟨rfl, ?_, ?_⟩
  · intro m hm
    unfold pointAt
    rcases Nat.lt_or_ge m c.procs.length with hlt | hge
    · rw [getElem?_append_left hlt]
    have hgt : c.procs.length < m := Nat.lt_of_le_of_ne hge (Ne.symm hm)
    rw [getElem?_eq_none (by simp only [length_append, length_singleton]; omega),
      getElem?_eq_none hge]
  · simp [pointAt]

theorem Config.pointAt_length (c : Config τ ι σ ε ρ) : c.pointAt c.procs.length = none := by
  simp [pointAt]

end Async
