/-
  **Programs on their own, whatever the world answers.**

  `Ends Q E p s` is total correctness of a program that nobody interferes with: whatever
  the inputs, it never waits, and it ends in `Q` or in an error that satisfies `E`.  A loop
  with an accumulator gets its invariant rule (`ends_foldEach`), a program over a part of
  the state runs on the whole (`zoom`), and one fixed choice of inputs gives one outcome
  (`outcome`), which is how a concrete run is read off.
-/
import WebOfTrust.Async

namespace Async

variable {τ τ' ι σ σ' ε ε' α β γ : Type}

/-! ## 1. Total correctness -/

def Contract.free : Contract τ ι σ where
  inv _ := True
  rely _ s s' := s' = s
  may _ _ _ := True
  guar _ _ _ _ := True

/-- Run alone from `s`, with any inputs, `p` ends in `Q` or fails in `E`. -/
def Ends (Q : α → σ → Prop) (E : ε → σ → Prop) (p : Async τ ι σ ε α) (s : σ) : Prop :=
  Alone .free Q E p s

variable {Q Q' : α → σ → Prop} {E E' : ε → σ → Prop} {a : α} {s s' : σ} {e : ε} {t : τ}
  {p : Async τ ι σ ε α} {f : α → Async τ ι σ ε β}

theorem ends_step {ready : σ → Bool} {upd : ι → σ → σ} {next : ι → σ → Async τ ι σ ε α} :
    Ends Q E (.step t ready upd next) s ↔ ready s = true ∧ ∀ i, Ends Q E (next i s) (upd i s) := by
  constructor
  · intro h
    obtain ⟨hready, hrun⟩ := h trivial
    exact ⟨hready, fun i => (hrun i trivial).2.2⟩
  · rintro ⟨hready, hrun⟩ -
    exact ⟨hready, fun i _ => ⟨trivial, trivial, hrun i⟩⟩

theorem Ends.mono (h : Ends Q E p s) (hQ : ∀ a s, Q a s → Q' a s) (hE : ∀ e s, E e s → E' e s) :
    Ends Q' E' p s :=
  Alone.mono hQ hE h

theorem ends_bind {R : β → σ → Prop} (h : Ends (fun a s' => Ends R E (f a) s') E p s) :
    Ends R E (p.bind f) s :=
  alone_bind h

theorem ends_atomic {f : ι → σ → Except ε α × σ}
    (h : ∀ i, (∀ a, (f i s).1 = .ok a → Q a (f i s).2) ∧
      ∀ e, (f i s).1 = .error e → E e (f i s).2) : Ends Q E (atomic t f) s :=
  alone_atomic fun _ i _ => ⟨trivial, trivial, (h i).1, (h i).2⟩

theorem ends_query {f : ι → σ → α} (h : ∀ i, Q (f i s) s) : Ends Q E (query t f) s := by
  apply ends_atomic
  intro i
  refine ⟨fun a ha => ?_, fun e he => by cases he⟩
  cases ha
  exact h i

theorem ends_mutate {f : ι → σ → σ} {Q : Unit → σ → Prop} (h : ∀ i, Q () (f i s)) :
    Ends Q E (mutate t f) s := by
  apply ends_atomic
  intro i
  exact ⟨fun _ _ => h i, fun e he => by cases he⟩

theorem ends_forEach {J : List β → σ → Prop} {f : β → Async τ ι σ ε Unit}
    (hbody : ∀ x rest s, J (x :: rest) s → Ends (fun _ s' => J rest s') E (f x) s) {xs : List β}
    (hs : J xs s) : Ends (fun _ s' => J [] s') E (forEach xs f) s :=
  alone_forEach hbody hs

/-! ## 2. Loops with an accumulator -/

def foldEach (f : γ → β → Async τ ι σ ε γ) (acc : γ) : List β → Async τ ι σ ε γ
  | [] => .ret acc
  | x :: rest => (f acc x).bind fun acc => foldEach f acc rest

theorem ends_foldEach {J : List β → γ → σ → Prop} {f : γ → β → Async τ ι σ ε γ} {xs : List β}
    (hbody : ∀ done x rest acc s, done ++ x :: rest = xs → J done acc s →
      Ends (fun acc' s' => J (done ++ [x]) acc' s') E (f acc x) s) {acc : γ} (hs : J [] acc s) :
    Ends (fun acc' s' => J xs acc' s') E (foldEach f acc xs) s := by
  have hloop : ∀ rest done acc s, done ++ rest = xs → J done acc s →
      Ends (fun acc' s' => J xs acc' s') E (foldEach f acc rest) s := by
    intro rest
    induction rest with
    | nil =>
      intro done acc s hxs hJ
      rw [List.append_nil] at hxs
      exact hxs ▸ hJ
    | cons x rest ih =>
      intro done acc s hxs hJ
      apply ends_bind
      refine (hbody done x rest acc s hxs hJ).mono (fun acc' s' hJ' => ?_) fun _ _ he => he
      exact ih (done ++ [x]) acc' s' (by rw [List.append_assoc]; exact hxs) hJ'
  exact hloop xs [] acc s rfl hs

/-! ## 3. A part of the state -/

/-- A part of a state: `set` replaces it and nothing else. -/
structure Part (σ' σ : Type) where
  get : σ' → σ
  set : σ → σ' → σ'
  set_get : ∀ w, set (get w) w = w
  get_set : ∀ s w, get (set s w) = s
  set_set : ∀ s s' w, set s (set s' w) = set s w

def zoom (P : Part σ' σ) (point : τ → τ') (err : ε → ε') : Async τ ι σ ε α → Async τ' ι σ' ε' α
  | .ret a => .ret a
  | .fail e => .fail (err e)
  | .step t ready upd next =>
    .step (point t) (fun w => ready (P.get w)) (fun i w => P.set (upd i (P.get w)) w)
      fun i w => zoom P point err (next i (P.get w))

theorem ends_zoom {P : Part σ' σ} {point : τ → τ'} {err : ε → ε'} {w : σ'}
    (h : Ends Q E p (P.get w)) : Ends (fun a w' => ∃ s, w' = P.set s w ∧ Q a s)
      (fun e' w' => ∃ e s, e' = err e ∧ w' = P.set s w ∧ E e s) (zoom P point err p) w := by
  induction p generalizing w with
  | ret a => exact ⟨P.get w, (P.set_get w).symm, h⟩
  | fail e => exact ⟨e, P.get w, rfl, (P.set_get w).symm, h⟩
  | step t ready upd next ih =>
    obtain ⟨hready, hrun⟩ := ends_step.mp h
    apply ends_step.mpr
    refine ⟨hready, fun i => ?_⟩
    have hnext := ih i (P.get w) (w := P.set (upd i (P.get w)) w) (by rw [P.get_set]; exact hrun i)
    apply hnext.mono
    · rintro a w' ⟨s, rfl, hQ⟩
      exact ⟨s, P.set_set s _ w, hQ⟩
    · rintro e' w' ⟨e, s, he, rfl, hE⟩
      exact ⟨e, s, he, P.set_set s _ w, hE⟩

/-! ## 4. One run -/

theorem bind_assoc (p : Async τ ι σ ε α) (f : α → Async τ ι σ ε β) (g : β → Async τ ι σ ε γ) :
    (p.bind f).bind g = p.bind fun a => (f a).bind g := by
  induction p with
  | ret a | fail e => rfl
  | step t ready upd next ih =>
    simp only [Async.bind]
    congr 1
    funext i s
    exact ih i s

/-- What `p` ends in when `input` chooses the inputs. -/
def outcome (input : τ → σ → ι) : Async τ ι σ ε α → σ → Except ε α × σ
  | .ret a, s => (.ok a, s)
  | .fail e, s => (.error e, s)
  | .step t _ upd next, s => outcome input (next (input t s) s) (upd (input t s) s)

theorem outcome_bind_error {input : τ → σ → ι} (h : p.outcome input s = (.error e, s')) :
    (p.bind f).outcome input s = (.error e, s') := by
  induction p generalizing s with
  | ret b => cases h
  | fail e =>
    cases h
    rfl
  | step t ready upd next ih => exact ih (input t s) s h

theorem outcome_bind_ok {input : τ → σ → ι} (h : p.outcome input s = (.ok a, s')) :
    (p.bind f).outcome input s = (f a).outcome input s' := by
  induction p generalizing s with
  | ret b =>
    cases h
    rfl
  | fail e => cases h
  | step t ready upd next ih => exact ih (input t s) s h

section

variable (input : τ → σ → ι)

@[simp] theorem outcome_atomic (t : τ) (f : ι → σ → Except ε α × σ) (s : σ) :
    (atomic t f).outcome input s = f (input t s) s := by
  simp only [atomic, await, outcome]
  rcases f (input t s) s with ⟨r, s'⟩
  cases r <;> rfl

end

theorem Ends.outcome (h : Ends Q E p s) (input : τ → σ → ι) :
    (∀ a, (p.outcome input s).1 = .ok a → Q a (p.outcome input s).2) ∧
      ∀ e, (p.outcome input s).1 = .error e → E e (p.outcome input s).2 := by
  induction p generalizing s with
  | ret a =>
    refine ⟨fun a' ha => ?_, fun e he => by cases he⟩
    cases ha
    exact h
  | fail e =>
    refine ⟨fun a ha => (by cases ha), fun e' he => ?_⟩
    cases he
    exact h
  | step t ready upd next ih =>
    exact ih (input t s) s ((ends_step.mp h).2 (input t s))

/-! ## 5. A run that is cut off -/

/-- What `p` leaves behind when it is cut off after `k` steps. -/
def cut (input : τ → σ → ι) : Nat → Async τ ι σ ε α → σ → σ
  | _, .ret _, s => s
  | _, .fail _, s => s
  | 0, .step .., s => s
  | k + 1, .step t _ upd next, s => cut input k (next (input t s) s) (upd (input t s) s)

/-- Every state that the run passes through satisfies `P`. -/
def Through (input : τ → σ → ι) (P : σ → Prop) : Async τ ι σ ε α → σ → Prop
  | .ret _, s => P s
  | .fail _, s => P s
  | .step t _ upd next, s => P s ∧ Through input P (next (input t s) s) (upd (input t s) s)

variable {input : τ → σ → ι} {P : σ → Prop}

theorem Through.start (h : Through input P p s) : P s := by
  cases p with
  | ret a | fail e => exact h
  | step t ready upd next => exact h.1

theorem Through.cut (h : Through input P p s) (k : Nat) : P (p.cut input k s) := by
  induction p generalizing s k with
  | ret a | fail e => cases k <;> exact h
  | step t ready upd next ih =>
    cases k with
    | zero => exact h.1
    | succ k => exact ih (input t s) s h.2 k

theorem through_atomic {f : ι → σ → Except ε α × σ} (hs : P s) (hf : P (f (input t s) s).2) :
    Through input P (atomic t f) s := by
  refine ⟨hs, ?_⟩
  change Through input P (ofExcept (f (input t s) s).1) (f (input t s) s).2
  cases (f (input t s) s).1 with
  | error e | ok a => exact hf

/-- The run of a sequence goes through the first program, and where that has a result through
    the second. -/
theorem through_bind (hp : Through input P p s)
    (hf : ∀ a s', p.outcome input s = (.ok a, s') → Through input P (f a) s') :
    Through input P (p.bind f) s := by
  induction p generalizing s with
  | ret a => exact hf a s rfl
  | fail e => exact hp
  | step t ready upd next ih => exact ⟨hp.1, ih (input t s) s hp.2 hf⟩

theorem Through.left (h : Through input P (p.bind f) s) : Through input P p s := by
  induction p generalizing s with
  | ret a => exact h.start
  | fail e => exact h
  | step t ready upd next ih => exact ⟨h.1, ih (input t s) s h.2⟩

theorem Through.right (h : Through input P (p.bind f) s) (hp : p.outcome input s = (.ok a, s')) :
    Through input P (f a) s' := by
  induction p generalizing s with
  | ret b =>
    cases hp
    exact h
  | fail e => cases hp
  | step t ready upd next ih => exact ih (input t s) s h.2 hp

/-- From `s` on, `p` looks around and then does what `q` does. -/
structure LeadsTo (input : τ → σ → ι) (p q : Async τ ι σ ε α) (s : σ) : Prop where
  outcome_eq : p.outcome input s = q.outcome input s
  through : ∀ P : σ → Prop, Through input P q s → Through input P p s

theorem LeadsTo.refl (p : Async τ ι σ ε α) (s : σ) : LeadsTo input p p s := ⟨rfl, fun _ h => h⟩

theorem LeadsTo.trans {q r : Async τ ι σ ε α} (h : LeadsTo input p q s) (h' : LeadsTo input q r s) :
    LeadsTo input p r s :=
  ⟨h.outcome_eq.trans h'.outcome_eq, fun P hr => h.through P (h'.through P hr)⟩

theorem LeadsTo.fails (h : LeadsTo input p (.fail e) s) : ∃ e, p.outcome input s = (.error e, s) :=
  ⟨e, h.outcome_eq⟩

theorem LeadsTo.bind {q : Async τ ι σ ε α} (h : LeadsTo input p q s) (f : α → Async τ ι σ ε β) :
    LeadsTo input (p.bind f) (q.bind f) s where
  outcome_eq := by
    rcases hq : q.outcome input s with ⟨e | a, s'⟩
    · rw [outcome_bind_error hq, outcome_bind_error (h.outcome_eq.trans hq)]
    · rw [outcome_bind_ok hq, outcome_bind_ok (h.outcome_eq.trans hq)]
  through P hq := through_bind (h.through P hq.left) fun _ _ hp =>
    hq.right (h.outcome_eq.symm.trans hp)

theorem leadsTo_atomic_bind {f : ι → σ → Except ε β × σ} {g : β → Async τ ι σ ε α} {a : β}
    (h : f (input t s) s = (.ok a, s)) : LeadsTo input ((atomic t f).bind g) (g a) s := by
  have hatomic : (atomic t f).outcome input s = (.ok a, s) := by rw [outcome_atomic, h]
  refine ⟨outcome_bind_ok hatomic, fun P hg => ?_⟩
  refine through_bind (through_atomic hg.start (by rw [h]; exact hg.start)) ?_
  intro b s' hb
  obtain ⟨rfl, rfl⟩ := Prod.mk.inj (hatomic.symm.trans hb) |>.imp Except.ok.inj id
  exact hg

end Async
