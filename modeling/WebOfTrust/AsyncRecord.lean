/-
  **Pools with a record of what every program has done.**  Beside a configuration a run
  keeps the visits of each program in flight; the scheduler, and what is claimed of a
  step, may look at them.

  The programs of a pool enter an argument about its runs only through `Traced`: what a
  step of a program does, given the visits before it.  `Watched` lists what is left to
  show, about the record alone.
-/
import WebOfTrust.AsyncPhases
import WebOfTrust.AsyncTrace

namespace Async

open List

variable {τ ι σ ε ρ κ α β : Type}

/-! ## 1. More rules for traces -/

section

variable {A G : List (Visit τ ι σ) → Visit τ ι σ → Prop} {Q : List (Visit τ ι σ) → α → Prop}
  {E : List (Visit τ ι σ) → ε → Prop} {history : List (Visit τ ι σ)}

theorem traced_finallyDo {p : Async τ ι σ ε α} {f : Option ε → Async τ ι σ ε Unit}
    (h : Traced A G (fun h a => Traced A G (fun h' _ => Q h' a) E h (f none))
      (fun h e => Traced A G (fun h' _ => E h' e) E h (f (some e))) history p) :
    Traced A G Q E history (p.finallyDo f) := by
  induction p generalizing history with
  | ret a | fail e => exact traced_bind h
  | step t ready upd next ih =>
    intro i s hready hA
    obtain ⟨hG, hnext⟩ := h i s hready hA
    exact ⟨hG, ih i s hnext⟩

theorem Traced.extends {p : Async τ ι σ ε α} (h : Traced A G Q E history p) :
    Traced A G (fun h' a => history <+: h' ∧ Q h' a) (fun h' e => history <+: h' ∧ E h' e)
      history p := by
  induction p generalizing history with
  | ret a | fail e => exact ⟨prefix_rfl, h⟩
  | step t ready upd next ih =>
    intro i s hready hA
    obtain ⟨hG, hnext⟩ := h i s hready hA
    have hone : history <+: history ++ [⟨t, i, s, upd i s⟩] := prefix_append _ _
    refine ⟨hG, (ih i s hnext).mono ?_ ?_⟩
    · exact fun h' a hq => ⟨hone.trans hq.1, hq.2⟩
    · exact fun h' e he => ⟨hone.trans he.1, he.2⟩

theorem Steps.traced {N : τ → Prop} {R : τ → ι → σ → σ → Prop} {I : List (Visit τ ι σ) → Prop}
    {p : Async τ ι σ ε α} (h : Steps N R p)
    (hstep : ∀ h t i s s', N t → R t i s s' → I h →
      G h ⟨t, i, s, s'⟩ ∧ I (h ++ [⟨t, i, s, s'⟩])) (hI : I history) :
    Traced A G (fun h' _ => I h') (fun h' _ => I h') history p := by
  induction p generalizing history with
  | ret a | fail e => exact hI
  | step t ready upd next ih =>
    intro i s hready _
    obtain ⟨hone, hnext⟩ := h.2 i s hready
    obtain ⟨hG, hI'⟩ := hstep history t i s _ h.1 hone hI
    exact ⟨hG, ih i s hnext hI'⟩

end

theorem steps_zoom {σ' τ' ε' : Type} {P : Part σ' σ} {point : τ → τ'} {err : ε → ε'} {N : τ → Prop}
    {R : τ → ι → σ → σ → Prop} {N' : τ' → Prop} {R' : τ' → ι → σ' → σ' → Prop}
    {p : Async τ ι σ ε α} (h : Steps N R p) (hN : ∀ t, N t → N' (point t))
    (hR : ∀ t i w s', R t i (P.get w) s' → R' (point t) i w (P.set s' w)) :
    Steps N' R' (zoom P point err p) := by
  induction p with
  | ret a | fail e => trivial
  | step t ready upd next ih =>
    refine ⟨hN t h.1, ?_⟩
    intro i w hready
    obtain ⟨hone, hnext⟩ := h.2 i (P.get w) hready
    exact ⟨hR t i w _ hone, ih i (P.get w) hnext⟩

theorem steps_foldEach {N : τ → Prop} {R : τ → ι → σ → σ → Prop} {f : β → α → Async τ ι σ ε β}
    {xs : List α} (h : ∀ b, ∀ x ∈ xs, Steps N R (f b x)) (b : β) : Steps N R (foldEach f b xs) := by
  induction xs generalizing b with
  | nil => trivial
  | cons x rest ih =>
    apply steps_bind (h b x mem_cons_self)
    intro b'
    exact ih (fun b y hy => h b y (mem_cons_of_mem _ hy)) b'

/-! ## 2. Recorded runs -/

/-- The visits of every program in flight; a program that has not begun has none. -/
abbrev Histories (τ ι σ : Type) := Nat → List (Visit τ ι σ)

/-- The record after a decision that leads from `c` to `c'`. -/
def record (c : Config τ ι σ ε ρ) (ph : Histories τ ι σ) (a : Action ι κ)
    (c' : Config τ ι σ ε ρ) : Histories τ ι σ :=
  match a with
  | .run n i =>
    match c.pointAt n with
    | some t => Function.update ph n (ph n ++ [⟨t, i, c.world, c'.world⟩])
    | none => ph
  | .restart => fun _ => []
  | _ => ph

/-- The configurations that a run can reach, each with its record. -/
inductive Recorded (S : System τ ι σ ε ρ κ)
    (admits : Config τ ι σ ε ρ → Histories τ ι σ → Action ι κ → Prop) (w : σ) :
    Config τ ι σ ε ρ → Histories τ ι σ → Prop where
  | start : Recorded S admits w { world := w, procs := [] } fun _ => []
  | step {c c' : Config τ ι σ ε ρ} {ph : Histories τ ι σ} {a : Action ι κ}
      (h : Recorded S admits w c ph) (ha : admits c ph a) (hs : c.step S a = some c') :
      Recorded S admits w c' (record c ph a c')

def execRecorded (S : System τ ι σ ε ρ κ)
    (admits : Config τ ι σ ε ρ → Histories τ ι σ → Action ι κ → Prop)
    [∀ c ph a, Decidable (admits c ph a)] (c : Config τ ι σ ε ρ) (ph : Histories τ ι σ) :
    List (Action ι κ) → Option (Config τ ι σ ε ρ × Histories τ ι σ)
  | [] => some (c, ph)
  | a :: rest =>
    if admits c ph a then
      (c.step S a).bind fun c' => execRecorded S admits c' (record c ph a c') rest
    else none

variable {S : System τ ι σ ε ρ κ}
  {admits : Config τ ι σ ε ρ → Histories τ ι σ → Action ι κ → Prop} {w : σ}
  {c c' : Config τ ι σ ε ρ} {ph ph' : Histories τ ι σ}

theorem Recorded.exec [∀ c ph a, Decidable (admits c ph a)] {acts : List (Action ι κ)}
    (h : Recorded S admits w c ph) (hexec : execRecorded S admits c ph acts = some (c', ph')) :
    Recorded S admits w c' ph' := by
  induction acts generalizing c ph with
  | nil =>
    cases hexec
    exact h
  | cons a rest ih =>
    unfold execRecorded at hexec
    split at hexec
    · next ha =>
      obtain ⟨c₁, hs, hrest⟩ := Option.bind_eq_some_iff.mp hexec
      exact ih (h.step ha hs) hrest
    · cases hexec

theorem Recorded.of_exec (S : System τ ι σ ε ρ κ)
    (admits : Config τ ι σ ε ρ → Histories τ ι σ → Action ι κ → Prop)
    [∀ c ph a, Decidable (admits c ph a)] (w : σ) (acts : List (Action ι κ))
    (test : Config τ ι σ ε ρ → Histories τ ι σ → Bool)
    (h : (execRecorded S admits { world := w, procs := [] } (fun _ => []) acts).any
      (fun r => test r.1 r.2) = true) :
    ∃ c ph, Recorded S admits w c ph ∧ test c ph = true := by
  obtain ⟨⟨c, ph⟩, hrun, htest⟩ := (Option.any_eq_true _ _).mp h
  exact ⟨c, ph, Recorded.start.exec hrun, htest⟩

/-! ## 3. Invariants of recorded runs -/

abbrev StepFact (τ ι σ : Type) := List (Visit τ ι σ) → Visit τ ι σ → Prop

/-- A program whose every step is as `G` says, after these visits. -/
abbrev Keeping (G : StepFact τ ι σ) (history : List (Visit τ ι σ)) (p : Async τ ι σ ε α) : Prop :=
  Traced (fun _ _ => True) G (fun _ _ => True) (fun _ _ => True) history p

/-- What has to be shown of a system whose programs keep `G`.  Programs are not lost one by
    one. -/
structure Watched (S : System τ ι σ ε ρ κ)
    (admits : Config τ ι σ ε ρ → Histories τ ι σ → Action ι κ → Prop) (w : σ)
    (G : StepFact τ ι σ) (Inv : Config τ ι σ ε ρ → Histories τ ι σ → Prop) : Prop where
  keeping : ∀ k, Keeping G [] (S.call k)
  alive : ∀ c ph n, ¬ admits c ph (.crash n)
  init : Inv { world := w, procs := [] } fun _ => []
  call : ∀ c ph k, Inv c ph → (∀ m, c.procs.length ≤ m → ph m = []) →
    Inv { c with procs := c.procs ++ [S.call k] } ph
  run : ∀ c ph n i t c', admits c ph (.run n i) → Inv c ph → c.pointAt n = some t →
    c.step S (.run n i) = some c' → G (ph n) ⟨t, i, c.world, c'.world⟩ →
      Inv c' (Function.update ph n (ph n ++ [⟨t, i, c.world, c'.world⟩]))
  restart : ∀ c ph, admits c ph .restart → Inv c ph →
    Inv { world := S.restart c.world, procs := [] } fun _ => []

namespace Watched

variable {G : StepFact τ ι σ} {Inv : Config τ ι σ ε ρ → Histories τ ι σ → Prop}

/-- What goes with the record of a configuration. -/
structure Kept (G : StepFact τ ι σ) (Inv : Config τ ι σ ε ρ → Histories τ ι σ → Prop)
    (c : Config τ ι σ ε ρ) (ph : Histories τ ι σ) : Prop where
  inv : Inv c ph
  keeping : ∀ (m : Nat) p, c.procs[m]? = some p → Keeping G (ph m) p
  fresh : ∀ m, c.procs.length ≤ m → ph m = []

theorem Kept.step (h : Kept G Inv c ph) {n : Nat} {i : ι} {t : τ} (ht : c.pointAt n = some t)
    (hs : c.step S (.run n i) = some c') : G (ph n) ⟨t, i, c.world, c'.world⟩ := by
  obtain ⟨t', ready, upd, next, hn, hready, rfl⟩ := Config.step_run hs
  have hpoint : c.pointAt n = some t' := by simp [Config.pointAt, hn]
  cases ht.symm.trans hpoint
  exact (h.keeping n _ hn i c.world hready trivial).1

theorem sound (V : Watched S admits w G Inv) (h : Recorded S admits w c ph) : Kept G Inv c ph := by
  induction h with
  | start => exact ⟨V.init, fun m p hp => (by cases hp), fun _ _ => rfl⟩
  | @step c c' ph a _ ha hs ih =>
    cases a with
    | call k =>
      cases hs
      refine ⟨V.call c ph k ih.inv ih.fresh, fun m p hp => ?_, fun m hm => ?_⟩
      · rcases Nat.lt_or_ge m c.procs.length with hlt | hge
        · rw [getElem?_append_left hlt] at hp
          exact ih.keeping m p hp
        rw [getElem?_append_right hge, getElem?_singleton] at hp
        split at hp
        · cases hp
          show Keeping G (ph m) _
          rw [ih.fresh m hge]
          exact V.keeping k
        · cases hp
      · simp only [length_append, length_singleton] at hm
        exact ih.fresh m (by omega)
    | run n i =>
      obtain ⟨t, ready, upd, next, hn, hready, rfl⟩ := Config.step_run hs
      have hpoint : c.pointAt n = some t := by simp [Config.pointAt, hn]
      have hlt : n < c.procs.length := (List.getElem?_eq_some_iff.mp hn).1
      obtain ⟨hG, hnext⟩ := ih.keeping n _ hn i c.world hready trivial
      simp only [record, hpoint]
      refine ⟨V.run c ph n i t _ ha ih.inv hpoint hs hG, fun m p hp => ?_, fun m hm => ?_⟩
      · by_cases hmn : m = n
        · subst hmn
          simp only [getElem?_set_self hlt, Option.some.injEq] at hp
          rw [Function.update_self, ← hp]
          exact hnext
        simp only [getElem?_set_ne (Ne.symm hmn)] at hp
        rw [Function.update_of_ne hmn]
        exact ih.keeping m p hp
      · simp only [length_set] at hm
        rw [Function.update_of_ne (by omega)]
        exact ih.fresh m hm
    | crash n => exact absurd ha (V.alive c ph n)
    | restart =>
      cases hs
      exact ⟨V.restart c ph ha ih.inv, fun m p hp => (by cases hp), fun _ _ => rfl⟩

end Watched

end Async
