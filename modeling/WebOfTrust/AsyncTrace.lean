/-
  **What one program did, resumption by resumption.**  A resumption is given by its
  input and by the state it finds; anybody else may have changed the state in
  between.  So the traces of a program cover its part in every interleaving with
  every other program.

  `Traced` is the logic over them.  A step is judged by what the program itself has
  seen before (`history`): it must keep its guarantee as long as it, and every step
  before it, meets the assumption.
-/
import WebOfTrust.Async

namespace Async

variable {τ ι σ ε α β : Type}

/-! ## 1. Traces -/

/-- One resumption: the point, the input, and the state before and after. -/
structure Visit (τ ι σ : Type) where
  point : τ
  input : ι
  before : σ
  after : σ

/-- The visits of a program that is resumed with these inputs in these states.  It
    stays where it is once its guard does not hold. -/
def trace : Async τ ι σ ε α → List (ι × σ) → List (Visit τ ι σ)
  | .step t ready upd next, (i, s) :: rest =>
    if ready s then ⟨t, i, s, upd i s⟩ :: (next i s).trace rest else []
  | _, _ => []

@[simp] theorem trace_ret (a : α) (steps : List (ι × σ)) :
    (Async.ret a : Async τ ι σ ε α).trace steps = [] := by
  cases steps <;> rfl

@[simp] theorem trace_fail (e : ε) (steps : List (ι × σ)) :
    (Async.fail e : Async τ ι σ ε α).trace steps = [] := by
  cases steps <;> rfl

@[simp] theorem trace_nil (p : Async τ ι σ ε α) : p.trace [] = [] := by
  cases p <;> rfl

theorem trace_step (t : τ) (ready : σ → Bool) (upd : ι → σ → σ)
    (next : ι → σ → Async τ ι σ ε α) (i : ι) (s : σ) (rest : List (ι × σ)) :
    (Async.step t ready upd next).trace ((i, s) :: rest) =
      if ready s then ⟨t, i, s, upd i s⟩ :: (next i s).trace rest else [] := rfl

/-- Every visit of a list is as `A` says after those before it. -/
def Along (A : List (Visit τ ι σ) → Visit τ ι σ → Prop) :
    List (Visit τ ι σ) → List (Visit τ ι σ) → Prop
  | _, [] => True
  | history, v :: rest => A history v ∧ Along A (history ++ [v]) rest

theorem along_iff {A : List (Visit τ ι σ) → Visit τ ι σ → Prop} {history visits} :
    Along A history visits ↔ ∀ n v, visits[n]? = some v → A (history ++ visits.take n) v := by
  induction visits generalizing history with
  | nil => simp [Along]
  | cons v rest ih =>
    rw [Along, ih]
    constructor
    · rintro ⟨hv, hrest⟩ n u hu
      cases n with
      | zero =>
        cases hu
        simpa using hv
      | succ n => simpa using hrest n u hu
    · intro h
      refine ⟨by simpa using h 0 v rfl, fun n u hu => ?_⟩
      simpa using h (n + 1) u hu

theorem along_mem {G : Visit τ ι σ → Prop} {history visits : List (Visit τ ι σ)}
    (h : Along (fun _ v => G v) history visits) : ∀ v ∈ visits, G v := by
  intro v hv
  obtain ⟨n, hn⟩ := List.mem_iff_getElem?.mp hv
  exact along_iff.mp h n v hn

/-! ## 2. The logic -/

/-- Every step of `p` keeps `G`, a result satisfies `Q` and an error `E`, as long as
    all steps meet `A`. -/
def Traced (A G : List (Visit τ ι σ) → Visit τ ι σ → Prop) (Q : List (Visit τ ι σ) → α → Prop)
    (E : List (Visit τ ι σ) → ε → Prop) : List (Visit τ ι σ) → Async τ ι σ ε α → Prop
  | history, .ret a => Q history a
  | history, .fail e => E history e
  | history, .step t ready upd next => ∀ i s, ready s = true → A history ⟨t, i, s, upd i s⟩ →
      G history ⟨t, i, s, upd i s⟩ ∧ Traced A G Q E (history ++ [⟨t, i, s, upd i s⟩]) (next i s)

variable {A G : List (Visit τ ι σ) → Visit τ ι σ → Prop} {Q Q' : List (Visit τ ι σ) → α → Prop}
  {E E' : List (Visit τ ι σ) → ε → Prop} {history : List (Visit τ ι σ)} {p : Async τ ι σ ε α}

theorem Traced.sound (h : Traced A G Q E history p) {steps : List (ι × σ)}
    (hA : Along A history (p.trace steps)) : Along G history (p.trace steps) := by
  induction p generalizing history steps with
  | ret a => rw [trace_ret]; trivial
  | fail e => rw [trace_fail]; trivial
  | step t ready upd next ih =>
    rcases steps with _ | ⟨x, rest⟩
    · rw [trace_nil]; trivial
    obtain ⟨i, s⟩ := x
    rw [trace_step] at hA ⊢
    by_cases hready : ready s = true
    · rw [if_pos hready] at hA ⊢
      obtain ⟨hG, hnext⟩ := h i s hready hA.1
      exact ⟨hG, ih i s hnext hA.2⟩
    · rw [if_neg hready]
      trivial

@[simp] theorem traced_ret {a : α} :
    Traced A G Q E history (.ret a : Async τ ι σ ε α) ↔ Q history a := Iff.rfl

theorem Traced.mono (hQ : ∀ h a, Q h a → Q' h a) (hE : ∀ h e, E h e → E' h e)
    (h : Traced A G Q E history p) : Traced A G Q' E' history p := by
  induction p generalizing history with
  | ret a => exact hQ history a h
  | fail e => exact hE history e h
  | step t ready upd next ih =>
    intro i s hready hA
    obtain ⟨hG, hnext⟩ := h i s hready hA
    exact ⟨hG, ih i s hnext⟩

theorem Traced.post (h : Traced A G Q E history p) (hQ : ∀ h a, Q h a → Q' h a) :
    Traced A G Q' E history p :=
  h.mono hQ fun _ _ he => he

theorem traced_bind {R : List (Visit τ ι σ) → β → Prop} {f : α → Async τ ι σ ε β}
    (h : Traced A G (fun h a => Traced A G R E h (f a)) E history p) :
    Traced A G R E history (p.bind f) := by
  induction p generalizing history with
  | ret a | fail e => exact h
  | step t ready upd next ih =>
    intro i s hready hA
    obtain ⟨hG, hnext⟩ := h i s hready hA
    exact ⟨hG, ih i s hnext⟩

theorem traced_tryCatch {handler : ε → Async τ ι σ ε α}
    (h : Traced A G Q (fun h e => Traced A G Q E h (handler e)) history p) :
    Traced A G Q E history (p.tryCatch handler) := by
  induction p generalizing history with
  | ret a | fail e => exact h
  | step t ready upd next ih =>
    intro i s hready hA
    obtain ⟨hG, hnext⟩ := h i s hready hA
    exact ⟨hG, ih i s hnext⟩

theorem traced_ofExcept {r : Except ε α} (hQ : ∀ a, r = .ok a → Q history a)
    (hE : ∀ e, r = .error e → E history e) :
    Traced A G Q E history (ofExcept r : Async τ ι σ ε α) := by
  cases r with
  | ok a => exact hQ a rfl
  | error e => exact hE e rfl

theorem traced_atomic {t : τ} {f : ι → σ → Except ε α × σ}
    (hG : ∀ i s, A history ⟨t, i, s, (f i s).2⟩ → G history ⟨t, i, s, (f i s).2⟩)
    (hQ : ∀ i s a, A history ⟨t, i, s, (f i s).2⟩ → (f i s).1 = .ok a →
      Q (history ++ [⟨t, i, s, (f i s).2⟩]) a)
    (hE : ∀ i s e, A history ⟨t, i, s, (f i s).2⟩ → (f i s).1 = .error e →
      E (history ++ [⟨t, i, s, (f i s).2⟩]) e) :
    Traced A G Q E history (atomic t f) := by
  intro i s _ hA
  exact ⟨hG i s hA, traced_ofExcept (fun a ha => hQ i s a hA ha) fun e he => hE i s e hA he⟩

end Async
