/-
  **Programs that follow a protocol.**  The same code may run inside and outside a critical
  section.  A `Protocol` gives every program in flight a phase, a ghost beside the state; it
  says where a program of a phase can be suspended, what it may assume when it is resumed,
  and which steps lead to which phase.  `Obeys` says that a program takes no other steps.

  An invariant over the state and the phases of all programs is then kept by every step of a
  pool if it is kept by every step of the protocol (`Supervised`).  `Steps` is the case
  without phases, for code that never does more than a given relation allows.
-/
import WebOfTrust.AsyncPool
import WebOfTrust.AsyncSolo

namespace Async

open List

variable {τ τ' ι ι' σ σ' ε ε' ρ κ φ α β γ : Type}

/-! ## 1. Two more combinators -/

/-- `try p finally f`; `f` sees the error that is on its way. -/
def finallyDo : Async τ ι σ ε α → (Option ε → Async τ ι σ ε Unit) → Async τ ι σ ε α
  | .ret a, f => (f none).bind fun _ => .ret a
  | .fail e, f => (f (some e)).bind fun _ => .fail e
  | .step t ready upd next, f => .step t ready upd fun i s => (next i s).finallyDo f

def adapt (P : Part σ' σ) (input : ι' → ι) (point : τ → τ') (err : ε → ε') :
    Async τ ι σ ε α → Async τ' ι' σ' ε' α
  | .ret a => .ret a
  | .fail e => .fail (err e)
  | .step t ready upd next =>
    .step (point t) (fun w => ready (P.get w)) (fun i w => P.set (upd (input i) (P.get w)) w)
      fun i w => adapt P input point err (next (input i) (P.get w))

/-! ## 2. Every step -/

/-- `p` is only ever suspended at points of `N`, and every step it can take satisfies `R`. -/
def Steps (N : τ → Prop) (R : τ → ι → σ → σ → Prop) : Async τ ι σ ε α → Prop
  | .ret _ => True
  | .fail _ => True
  | .step t ready upd next =>
      N t ∧ ∀ i s, ready s = true → R t i s (upd i s) ∧ Steps N R (next i s)

section

variable {N : τ → Prop} {R : τ → ι → σ → σ → Prop} {p : Async τ ι σ ε α} {t : τ}

@[simp] theorem steps_ret (a : α) : Steps N R (.ret a : Async τ ι σ ε α) := trivial

theorem steps_true (p : Async τ ι σ ε α) : Steps (fun _ => True) (fun _ _ _ _ => True) p := by
  induction p with
  | ret a | fail e => trivial
  | step t ready upd next ih => exact ⟨trivial, fun i s _ => ⟨trivial, ih i s⟩⟩

theorem steps_bind {f : α → Async τ ι σ ε β} (hp : Steps N R p) (hf : ∀ a, Steps N R (f a)) :
    Steps N R (p.bind f) := by
  induction p with
  | ret a => exact hf a
  | fail e => trivial
  | step t ready upd next ih =>
    refine ⟨hp.1, fun i s hready => ?_⟩
    obtain ⟨hstep, hnext⟩ := hp.2 i s hready
    exact ⟨hstep, ih i s hnext⟩

theorem steps_tryCatch {h : ε → Async τ ι σ ε α} (hp : Steps N R p) (hh : ∀ e, Steps N R (h e)) :
    Steps N R (p.tryCatch h) := by
  induction p with
  | ret a => trivial
  | fail e => exact hh e
  | step t ready upd next ih =>
    refine ⟨hp.1, fun i s hready => ?_⟩
    obtain ⟨hstep, hnext⟩ := hp.2 i s hready
    exact ⟨hstep, ih i s hnext⟩

theorem steps_finallyDo {f : Option ε → Async τ ι σ ε Unit} (hp : Steps N R p)
    (hf : ∀ e, Steps N R (f e)) : Steps N R (p.finallyDo f) := by
  induction p with
  | ret a => exact steps_bind (hf none) fun _ => trivial
  | fail e => exact steps_bind (hf (some e)) fun _ => trivial
  | step t ready upd next ih =>
    refine ⟨hp.1, fun i s hready => ?_⟩
    obtain ⟨hstep, hnext⟩ := hp.2 i s hready
    exact ⟨hstep, ih i s hnext⟩

theorem steps_ofExcept (r : Except ε α) : Steps N R (ofExcept r : Async τ ι σ ε α) := by
  cases r with
  | ok a | error e => trivial

theorem steps_await {cond : σ → Bool} {f : ι → σ → Except ε α × σ} (ht : N t)
    (h : ∀ i s, cond s = true → R t i s (f i s).2) : Steps N R (await t cond f) :=
  ⟨ht, fun i s hcond => ⟨h i s hcond, steps_ofExcept _⟩⟩

theorem steps_atomic {f : ι → σ → Except ε α × σ} (ht : N t) (h : ∀ i s, R t i s (f i s).2) :
    Steps N R (atomic t f) :=
  steps_await ht fun i s _ => h i s

theorem steps_query {f : ι → σ → α} (ht : N t) (h : ∀ i s, R t i s s) :
    Steps N R (query t f : Async τ ι σ ε α) :=
  steps_atomic ht h

theorem steps_mutate {f : ι → σ → σ} (ht : N t) (h : ∀ i s, R t i s (f i s)) :
    Steps N R (mutate t f : Async τ ι σ ε Unit) :=
  steps_atomic ht h

theorem steps_forEach {f : β → Async τ ι σ ε Unit} {xs : List β}
    (hf : ∀ x ∈ xs, Steps N R (f x)) : Steps N R (forEach xs f) := by
  induction xs with
  | nil => trivial
  | cons x rest ih =>
    apply steps_bind (hf x mem_cons_self)
    intro _
    exact ih fun y hy => hf y (mem_cons_of_mem _ hy)

theorem steps_adapt {P : Part σ' σ} {input : ι' → ι} {point : τ → τ'} {err : ε → ε'}
    {N' : τ' → Prop} {R' : τ' → ι' → σ' → σ' → Prop} (h : Steps N R p)
    (hN : ∀ t, N t → N' (point t))
    (hR : ∀ t i w s', R t (input i) (P.get w) s' → R' (point t) i w (P.set s' w)) :
    Steps N' R' (adapt P input point err p) := by
  induction p with
  | ret a | fail e => trivial
  | step t ready upd next ih =>
    refine ⟨hN t h.1, fun i w hready => ?_⟩
    obtain ⟨hstep, hnext⟩ := h.2 (input i) (P.get w) hready
    exact ⟨hR _ _ _ _ hstep, ih _ _ hnext⟩

theorem Steps.meets {K : Contract τ ι σ} {P : σ → Prop} (h : Steps N R p)
    (hrely : ∀ t s s', K.rely t s s' → P s → P s')
    (hstep : ∀ t i s s', N t → K.inv s → K.may t i s → P s → R t i s s' →
      K.inv s' ∧ K.guar t i s s' ∧ P s') {s : σ} (hs : P s) :
    Meets K (fun _ => P) (fun _ => P) p s := by
  induction p generalizing s with
  | ret a | fail e => exact hs
  | step t ready upd next ih =>
    intro s' hstar hinv i hready hmay
    have hs' : P s' := kept_of_star (hrely t) hstar hs
    obtain ⟨hone, hnext⟩ := h.2 i s' hready
    obtain ⟨hinv', hguar, hP⟩ := hstep t i s' _ h.1 hinv hmay hs' hone
    exact ⟨hinv', hguar, ih i s' hnext hP⟩

theorem meets_finallyDo {K : Contract τ ι σ} {Q : α → σ → Prop} {E : ε → σ → Prop}
    {f : Option ε → Async τ ι σ ε Unit} {s : σ}
    (hp : Meets K (fun a => Meets K (fun _ => Q a) E (f none))
      (fun e => Meets K (fun _ => E e) E (f (some e))) p s) : Meets K Q E (p.finallyDo f) s := by
  induction p generalizing s with
  | ret a | fail e => exact meets_bind hp
  | step t ready upd next ih =>
    intro s' hrely hinv i hready hmay
    obtain ⟨hinv', hguar, hnext⟩ := hp s' hrely hinv i hready hmay
    exact ⟨hinv', hguar, ih i s' hnext⟩

end

/-! ## 3. Protocols -/

/-- What a program in a phase may do: where it is suspended, what it may assume when it is
    resumed, and the phase that a step leads to. -/
structure Protocol (τ ι σ φ : Type) where
  stands : φ → τ → Prop
  may : φ → σ → Prop
  step : φ → τ → ι → σ → σ → φ → Prop

/-- From the phase `q`, a program takes only steps of the protocol; it returns in `Q` or
    fails in `E`. -/
def Obeys (P : Protocol τ ι σ φ) (Q : α → φ → Prop) (E : ε → φ → Prop) : Async τ ι σ ε α → φ → Prop
  | .ret a, q => Q a q
  | .fail e, q => E e q
  | .step t ready upd next, q =>
      P.stands q t ∧ ∀ i s, ready s = true → P.may q s →
        ∃ q', P.step q t i s (upd i s) q' ∧ Obeys P Q E (next i s) q'

section

variable {P : Protocol τ ι σ φ} {Q Q' : α → φ → Prop} {E E' : ε → φ → Prop} {q : φ}
  {p : Async τ ι σ ε α} {t : τ}

theorem Obeys.mono (h : Obeys P Q E p q) (hQ : ∀ a q, Q a q → Q' a q) (hE : ∀ e q, E e q → E' e q) :
    Obeys P Q' E' p q := by
  induction p generalizing q with
  | ret a => exact hQ a q h
  | fail e => exact hE e q h
  | step t ready upd next ih =>
    obtain ⟨hstands, hrun⟩ := h
    refine ⟨hstands, fun i s hready hmay => ?_⟩
    obtain ⟨q', hstep, hnext⟩ := hrun i s hready hmay
    exact ⟨q', hstep, ih i s hnext⟩

theorem obeys_bind {R : β → φ → Prop} {f : α → Async τ ι σ ε β}
    (h : Obeys P (fun a q' => Obeys P R E (f a) q') E p q) : Obeys P R E (p.bind f) q := by
  induction p generalizing q with
  | ret a | fail e => exact h
  | step t ready upd next ih =>
    obtain ⟨hstands, hrun⟩ := h
    refine ⟨hstands, fun i s hready hmay => ?_⟩
    obtain ⟨q', hstep, hnext⟩ := hrun i s hready hmay
    exact ⟨q', hstep, ih i s hnext⟩

theorem obeys_tryCatch {h : ε → Async τ ι σ ε α}
    (hp : Obeys P Q (fun e q' => Obeys P Q E (h e) q') p q) : Obeys P Q E (p.tryCatch h) q := by
  induction p generalizing q with
  | ret a | fail e => exact hp
  | step t ready upd next ih =>
    obtain ⟨hstands, hrun⟩ := hp
    refine ⟨hstands, fun i s hready hmay => ?_⟩
    obtain ⟨q', hstep, hnext⟩ := hrun i s hready hmay
    exact ⟨q', hstep, ih i s hnext⟩

theorem obeys_finallyDo {f : Option ε → Async τ ι σ ε Unit}
    (h : Obeys P (fun a q' => Obeys P (fun _ q'' => Q a q'') E (f none) q')
      (fun e q' => Obeys P (fun _ q'' => E e q'') E (f (some e)) q') p q) :
    Obeys P Q E (p.finallyDo f) q := by
  induction p generalizing q with
  | ret a | fail e => exact obeys_bind h
  | step t ready upd next ih =>
    obtain ⟨hstands, hrun⟩ := h
    refine ⟨hstands, fun i s hready hmay => ?_⟩
    obtain ⟨q', hstep, hnext⟩ := hrun i s hready hmay
    exact ⟨q', hstep, ih i s hnext⟩

theorem obeys_ofExcept {r : Except ε α} (hok : ∀ a, r = .ok a → Q a q)
    (herr : ∀ e, r = .error e → E e q) : Obeys P Q E (ofExcept r : Async τ ι σ ε α) q := by
  cases r with
  | ok a => exact hok a rfl
  | error e => exact herr e rfl

section

variable (hstands : P.stands q t)
include hstands

theorem obeys_await {cond : σ → Bool} {f : ι → σ → Except ε α × σ}
    (h : ∀ i s, cond s = true → P.may q s → ∃ q', P.step q t i s (f i s).2 q' ∧
      (∀ a, (f i s).1 = .ok a → Q a q') ∧ ∀ e, (f i s).1 = .error e → E e q') :
    Obeys P Q E (await t cond f) q := by
  refine ⟨hstands, fun i s hcond hmay => ?_⟩
  obtain ⟨q', hstep, hok, herr⟩ := h i s hcond hmay
  exact ⟨q', hstep, obeys_ofExcept hok herr⟩

theorem obeys_atomic {f : ι → σ → Except ε α × σ}
    (h : ∀ i s, P.may q s → ∃ q', P.step q t i s (f i s).2 q' ∧
      (∀ a, (f i s).1 = .ok a → Q a q') ∧ ∀ e, (f i s).1 = .error e → E e q') :
    Obeys P Q E (atomic t f) q :=
  obeys_await hstands fun i s _ hmay => h i s hmay

theorem obeys_query {f : ι → σ → α}
    (h : ∀ i s, P.may q s → ∃ q', P.step q t i s s q' ∧ Q (f i s) q') :
    Obeys P Q E (query t f) q := by
  apply obeys_atomic hstands
  intro i s hmay
  obtain ⟨q', hstep, hq⟩ := h i s hmay
  refine ⟨q', hstep, fun a ha => ?_, fun e he => (by cases he)⟩
  cases ha
  exact hq

theorem obeys_mutate {f : ι → σ → σ} {Q : Unit → φ → Prop}
    (h : ∀ i s, P.may q s → ∃ q', P.step q t i s (f i s) q' ∧ Q () q') :
    Obeys P Q E (mutate t f) q := by
  apply obeys_atomic hstands
  intro i s hmay
  obtain ⟨q', hstep, hq⟩ := h i s hmay
  exact ⟨q', hstep, fun _ _ => hq, fun e he => (by cases he)⟩

end

theorem obeys_forEach {J : φ → Prop} {f : β → Async τ ι σ ε Unit} {xs : List β}
    (hbody : ∀ x ∈ xs, ∀ q, J q → Obeys P (fun _ q' => J q') E (f x) q) (hq : J q) :
    Obeys P (fun _ q' => J q') E (forEach xs f) q := by
  induction xs generalizing q with
  | nil => exact hq
  | cons x rest ih =>
    apply obeys_bind
    apply (hbody x mem_cons_self q hq).mono
    · intro _ q' hq'
      exact ih (fun y hy => hbody y (mem_cons_of_mem _ hy)) hq'
    · exact fun _ _ h => h

theorem Steps.obeys {N : τ → Prop} {R : τ → ι → σ → σ → Prop} (h : Steps N R p)
    (hN : ∀ t, N t → P.stands q t) (hR : ∀ t i s s', R t i s s' → P.may q s → P.step q t i s s' q) :
    Obeys P (fun _ q' => q' = q) (fun _ q' => q' = q) p q := by
  induction p with
  | ret a | fail e => rfl
  | step t ready upd next ih =>
    refine ⟨hN t h.1, fun i s hready hmay => ?_⟩
    obtain ⟨hstep, hnext⟩ := h.2 i s hready
    exact ⟨q, hR t i s _ hstep hmay, ih i s hnext⟩

end

/-! ## 4. Pools -/

/-- Every program in flight obeys its protocol from its phase on. -/
def InPhase (P : Protocol τ ι σ φ) (Q : ρ → φ → Prop) (E : ε → φ → Prop)
    (c : Config τ ι σ ε ρ) (ph : Nat → φ) : Prop :=
  ∀ (m : Nat) p, c.procs[m]? = some p → Obeys P Q E p (ph m)

/-- The phases that go with a configuration: the invariant holds, the programs in flight obey
    the protocol, and a program that is not there yet is at its start. -/
structure Phases (P : Protocol τ ι σ φ) (Q : ρ → φ → Prop) (E : ε → φ → Prop) (start : φ)
    (Inv : σ → (Nat → φ) → Prop) (c : Config τ ι σ ε ρ) (ph : Nat → φ) : Prop where
  inv : Inv c.world ph
  obeys : InPhase P Q E c ph
  fresh : ∀ m, c.procs.length ≤ m → ph m = start

section

variable {P : Protocol τ ι σ φ} {Q : ρ → φ → Prop} {E : ε → φ → Prop} {start : φ}
  {Inv : σ → (Nat → φ) → Prop} {c : Config τ ι σ ε ρ} {ph : Nat → φ}

theorem Phases.stands (h : Phases P Q E start Inv c ph) {m : Nat} {t : τ}
    (ht : c.pointAt m = some t) : P.stands (ph m) t := by
  obtain ⟨p, hp, hpoint⟩ := Option.bind_eq_some_iff.mp ht
  have hobeys := h.obeys m p hp
  cases p with
  | ret a | fail e => cases hpoint
  | step t' ready upd next =>
    cases hpoint
    exact hobeys.1

theorem Phases.ended (h : Phases P Q E start Inv c ph) {m : Nat} (hm : c.pointAt m = none) :
    ph m = start ∨ (∃ a, Q a (ph m)) ∨ ∃ e, E e (ph m) := by
  rcases Nat.lt_or_ge m c.procs.length with hlt | hge
  · have hp := getElem?_eq_getElem hlt
    have hobeys := h.obeys m _ hp
    unfold Config.pointAt at hm
    rw [hp] at hm
    cases hcase : c.procs[m] with
    | ret a =>
      rw [hcase] at hobeys
      exact .inr (.inl ⟨a, hobeys⟩)
    | fail e =>
      rw [hcase] at hobeys
      exact .inr (.inr ⟨e, hobeys⟩)
    | step t ready upd next =>
      rw [hcase] at hm
      cases hm
  · exact .inl (h.fresh m hge)

end

/-- What has to be shown of a system, its admitted runs, a protocol and an invariant over the
    state and the phases.  Every program begins in the phase `start`; programs are not lost
    one by one. -/
structure Supervised (S : System τ ι σ ε ρ κ) (admits : Config τ ι σ ε ρ → Action ι κ → Prop)
    (w : σ) (P : Protocol τ ι σ φ) (Q : ρ → φ → Prop) (E : ε → φ → Prop) (start : φ)
    (Inv : σ → (Nat → φ) → Prop) : Prop where
  init : Inv w fun _ => start
  call : ∀ k, Obeys P Q E (S.call k) start
  alive : ∀ c n, ¬ admits c (.crash n)
  restart : ∀ c ph, admits c .restart → Inv c.world ph → Inv (S.restart c.world) fun _ => start
  may : ∀ s ph n, Inv s ph → P.may (ph n) s
  run : ∀ (c : Config τ ι σ ε ρ) ph n i t s' q', admits c (.run n i) →
    Phases P Q E start Inv c ph → c.pointAt n = some t → P.step (ph n) t i c.world s' q' →
      Inv s' (Function.update ph n q')

namespace Supervised

variable {S : System τ ι σ ε ρ κ} {admits : Config τ ι σ ε ρ → Action ι κ → Prop} {w : σ}
  {P : Protocol τ ι σ φ} {Q : ρ → φ → Prop} {E : ε → φ → Prop} {start : φ}
  {Inv : σ → (Nat → φ) → Prop} {c c' : Config τ ι σ ε ρ} {ph : Nat → φ}

/-- **One decision of the scheduler**: a call and a restart change no phase but those of new
    programs, a resumed program takes a step of the protocol. -/
theorem next (V : Supervised S admits w P Q E start Inv) (h : Phases P Q E start Inv c ph)
    {a : Action ι κ} (ha : admits c a) (hs : c.step S a = some c') :
    ∃ ph', Phases P Q E start Inv c' ph' ∧
      (a = .restart ∨ c'.world = c.world ∧ ph' = ph ∨ ∃ n i t q', a = .run n i ∧
        c.pointAt n = some t ∧ P.step (ph n) t i c.world c'.world q' ∧
        ph' = Function.update ph n q') := by
  cases a with
  | call k =>
    cases hs
    refine ⟨ph, ⟨h.inv, ?_, ?_⟩, .inr (.inl ⟨rfl, rfl⟩)⟩
    · intro m p hp
      rcases Nat.lt_or_ge m c.procs.length with hlt | hge
      · rw [getElem?_append_left hlt] at hp
        exact h.obeys m p hp
      rw [getElem?_append_right hge, getElem?_singleton] at hp
      split at hp
      · cases hp
        rw [h.fresh m hge]
        exact V.call k
      · cases hp
    · intro m hm
      simp only [length_append, length_singleton] at hm
      exact h.fresh m (by omega)
  | run n i =>
    obtain ⟨t, ready, upd, next, hn, hready, rfl⟩ := Config.step_run hs
    have hpoint : c.pointAt n = some t := by simp [Config.pointAt, hn]
    have hlt : n < c.procs.length := (List.getElem?_eq_some_iff.mp hn).1
    obtain ⟨-, hrun⟩ := h.obeys n _ hn
    obtain ⟨q', hstep, hnext⟩ := hrun i c.world hready (V.may _ _ n h.inv)
    refine ⟨Function.update ph n q', ⟨?_, ?_, ?_⟩,
      .inr (.inr ⟨n, i, t, q', rfl, hpoint, hstep, rfl⟩)⟩
    · exact V.run c ph n i t _ q' ha h hpoint hstep
    · intro m p hp
      by_cases hmn : m = n
      · subst hmn
        simp only [getElem?_set_self hlt, Option.some.injEq] at hp
        rw [Function.update_self, ← hp]
        exact hnext
      simp only [getElem?_set_ne (Ne.symm hmn)] at hp
      rw [Function.update_of_ne hmn]
      exact h.obeys m p hp
    · intro m hm
      simp only [length_set] at hm
      rw [Function.update_of_ne (by omega)]
      exact h.fresh m hm
  | crash n => exact absurd ha (V.alive c n)
  | restart =>
    cases hs
    refine ⟨fun _ => start, ⟨V.restart c ph ha h.inv, ?_, fun _ _ => rfl⟩, .inl rfl⟩
    intro m p hp
    cases hp

/-- **Every admitted run** has phases for its programs, and keeps the invariant. -/
theorem sound (V : Supervised S admits w P Q E start Inv) (h : Reachable S admits w c) :
    ∃ ph, Phases P Q E start Inv c ph := by
  induction h with
  | start => exact ⟨fun _ => start, V.init, fun m p hp => (by cases hp), fun _ _ => rfl⟩
  | step _ ha hs ih =>
    obtain ⟨ph, hph⟩ := ih
    obtain ⟨ph', hph', -⟩ := V.next hph ha hs
    exact ⟨ph', hph'⟩

end Supervised

end Async
