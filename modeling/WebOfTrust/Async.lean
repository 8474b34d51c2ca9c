/-
  **Asynchronous programs as resumption trees** — the language every component
  model of this development is written in.

  An event loop (or a set of browser tabs over one transactional database) runs an
  `async` function in atomic pieces: the code between two `await`s.  A program is
  finished (`ret`), failed (`fail`), or suspended at a named point: then the scheduler
  may resume it with an input from the outside (a random id, a network answer, the
  outcome of a crypto call), and it atomically updates the shared state and becomes
  another program.  A suspension may carry a guard (`ready`): a promise that somebody
  else has to settle first.

  Programs are finite trees, and loops are recursive functions that build such trees,
  so a program ends once it is resumed often enough.

  `Contract` and `Meets` are the rely/guarantee reading of a program: what every
  step of it promises (`guar`), under the interference it tolerates while it is
  suspended at a given point (`rely`).
-/
import Mathlib.Logic.Relation
import Mathlib.Tactic.Common

/-- A resumption tree over suspension points `τ`, outside inputs `ι`, shared
    state `σ`, errors `ε` and results `α`. -/
inductive Async (τ ι σ ε α : Type) : Type where
  | ret (a : α)
  | fail (e : ε)
  | step (t : τ) (ready : σ → Bool) (upd : ι → σ → σ) (next : ι → σ → Async τ ι σ ε α)

namespace Async

variable {τ ι σ ε α β : Type}

/-! ## 1. Sequencing and errors -/

/-- Sequential composition: continue with `f` once the program has a result. -/
protected def bind : Async τ ι σ ε α → (α → Async τ ι σ ε β) → Async τ ι σ ε β
  | .ret a, f => f a
  | .fail e, _ => .fail e
  | .step t ready upd next, f => .step t ready upd (fun i s => (next i s).bind f)

/-- `try p catch h`. -/
protected def tryCatch : Async τ ι σ ε α → (ε → Async τ ι σ ε α) → Async τ ι σ ε α
  | .ret a, _ => .ret a
  | .fail e, h => h e
  | .step t ready upd next, h => .step t ready upd (fun i s => (next i s).tryCatch h)

instance : Monad (Async τ ι σ ε) where
  pure := .ret
  bind := .bind

instance : MonadExceptOf ε (Async τ ι σ ε) where
  throw := .fail
  tryCatch := .tryCatch

@[simp] theorem pure_def (a : α) : (Pure.pure a : Async τ ι σ ε α) = .ret a := rfl
@[simp] theorem bind_def (p : Async τ ι σ ε α) (f : α → Async τ ι σ ε β) :
    (p >>= f) = p.bind f := rfl

@[simp] theorem ret_bind (a : α) (f : α → Async τ ι σ ε β) : (Async.ret a).bind f = f a := rfl

def ofExcept : Except ε α → Async τ ι σ ε α
  | .ok a => .ret a
  | .error e => .fail e

/-- Wait at the suspension point `t` until `cond` holds of the state, then run
    one atomic section: it reads and writes the state, and either yields a
    result or fails. -/
def await (t : τ) (cond : σ → Bool) (f : ι → σ → Except ε α × σ) : Async τ ι σ ε α :=
  .step t cond (fun i s => (f i s).2) fun i s => ofExcept (f i s).1

/-- One atomic section at the suspension point `t`, with nothing to wait for. -/
def atomic (t : τ) (f : ι → σ → Except ε α × σ) : Async τ ι σ ε α :=
  await t (fun _ => true) f

def query (t : τ) (f : ι → σ → α) : Async τ ι σ ε α :=
  atomic t fun i s => (.ok (f i s), s)

def mutate (t : τ) (f : ι → σ → σ) : Async τ ι σ ε Unit :=
  atomic t fun i s => (.ok (), f i s)

def forEach (xs : List β) (f : β → Async τ ι σ ε Unit) : Async τ ι σ ε Unit :=
  match xs with
  | [] => .ret ()
  | x :: rest => (f x).bind fun _ => forEach rest f

/-! ## 2. Contracts -/

/-- What a program may assume and must ensure: the invariant of the shared state,
    the change tolerated while it is suspended at `t`, the states in which it is
    resumed there with input `i`, and what that step does. -/
structure Contract (τ ι σ : Type) where
  inv : σ → Prop
  rely : τ → σ → σ → Prop
  may : τ → ι → σ → Prop
  guar : τ → ι → σ → σ → Prop

/-- `Meets K Q E p s`: started in `s`, under any interference that `K.rely`
    allows at the points where it is suspended, every step of `p` keeps the
    invariant and its guarantee, a result satisfies `Q` and an error `E`. -/
def Meets (K : Contract τ ι σ) (Q : α → σ → Prop) (E : ε → σ → Prop) : Async τ ι σ ε α → σ → Prop
  | .ret a, s => Q a s
  | .fail e, s => E e s
  | .step t ready upd next, s =>
      ∀ s', Relation.ReflTransGen (K.rely t) s s' → K.inv s' → ∀ i, ready s' = true → K.may t i s' →
          K.inv (upd i s') ∧ K.guar t i s' (upd i s') ∧ Meets K Q E (next i s') (upd i s')

variable {K : Contract τ ι σ} {Q Q' : α → σ → Prop} {E E' : ε → σ → Prop} {s s' : σ}
  {p : Async τ ι σ ε α} {h : ε → Async τ ι σ ε α} {f : ι → σ → Except ε α × σ} {t : τ} {xs : List β}

@[simp] theorem meets_ret {a : α} : Meets K Q E (.ret a) s ↔ Q a s := Iff.rfl
@[simp] theorem meets_fail {e : ε} : Meets K Q E (.fail e : Async τ ι σ ε α) s ↔ E e s := Iff.rfl

theorem Meets.mono (hQ : ∀ a s, Q a s → Q' a s) (hE : ∀ e s, E e s → E' e s) (h : Meets K Q E p s) :
    Meets K Q' E' p s := by
  induction p generalizing s with
  | ret a => exact hQ a s h
  | fail e => exact hE e s h
  | step t ready upd next ih =>
    intro s' hrely hinv i hready hmay
    obtain ⟨hinv', hguar, hnext⟩ := h s' hrely hinv i hready hmay
    exact ⟨hinv', hguar, ih i s' hnext⟩

theorem meets_bind {R : β → σ → Prop} {f : α → Async τ ι σ ε β}
    (h : Meets K (fun a s' => Meets K R E (f a) s') E p s) : Meets K R E (p.bind f) s := by
  induction p generalizing s with
  | ret a | fail e => exact h
  | step t ready upd next ih =>
    intro s' hrely hinv i hready hmay
    obtain ⟨hinv', hguar, hnext⟩ := h s' hrely hinv i hready hmay
    exact ⟨hinv', hguar, ih i s' hnext⟩

theorem meets_tryCatch (hp : Meets K Q (fun e s' => Meets K Q E (h e) s') p s) :
    Meets K Q E (p.tryCatch h) s := by
  induction p generalizing s with
  | ret a | fail e => exact hp
  | step t ready upd next ih =>
    intro s' hrely hinv i hready hmay
    obtain ⟨hinv', hguar, hnext⟩ := hp s' hrely hinv i hready hmay
    exact ⟨hinv', hguar, ih i s' hnext⟩

theorem meets_ofExcept {r : Except ε α} : Meets K Q E (ofExcept r : Async τ ι σ ε α) s ↔
      (∀ a, r = .ok a → Q a s) ∧ (∀ e, r = .error e → E e s) := by
  cases r <;> simp [ofExcept]

theorem meets_await {cond : σ → Bool}
    (h : ∀ s', Relation.ReflTransGen (K.rely t) s s' → K.inv s' → ∀ i, cond s' = true →
      K.may t i s' → K.inv (f i s').2 ∧ K.guar t i s' (f i s').2 ∧
        (∀ a, (f i s').1 = .ok a → Q a (f i s').2) ∧
        (∀ e, (f i s').1 = .error e → E e (f i s').2)) : Meets K Q E (await t cond f) s := by
  intro s' hrely hinv i hready hmay
  obtain ⟨hinv', hguar, hok, herr⟩ := h s' hrely hinv i hready hmay
  exact ⟨hinv', hguar, meets_ofExcept.mpr ⟨hok, herr⟩⟩

theorem meets_atomic
    (h : ∀ s', Relation.ReflTransGen (K.rely t) s s' → K.inv s' → ∀ i, K.may t i s' →
      K.inv (f i s').2 ∧ K.guar t i s' (f i s').2 ∧ (∀ a, (f i s').1 = .ok a → Q a (f i s').2) ∧
        (∀ e, (f i s').1 = .error e → E e (f i s').2)) : Meets K Q E (atomic t f) s :=
  meets_await fun s' hrely hinv i _ hmay => h s' hrely hinv i hmay

theorem meets_query {f : ι → σ → α}
    (h : ∀ s', Relation.ReflTransGen (K.rely t) s s' → K.inv s' → ∀ i, K.may t i s' →
      K.guar t i s' s' ∧ Q (f i s') s') : Meets K Q E (query t f) s := by
  refine meets_atomic fun s' hrely hinv i hmay => ?_
  obtain ⟨hguar, hq⟩ := h s' hrely hinv i hmay
  exact ⟨hinv, hguar, fun a ha => by cases ha; exact hq, fun e he => by cases he⟩

theorem meets_mutate {f : ι → σ → σ} {Q : Unit → σ → Prop}
    (h : ∀ s', Relation.ReflTransGen (K.rely t) s s' → K.inv s' → ∀ i, K.may t i s' →
      K.inv (f i s') ∧ K.guar t i s' (f i s') ∧ Q () (f i s')) : Meets K Q E (mutate t f) s := by
  refine meets_atomic fun s' hrely hinv i hmay => ?_
  obtain ⟨hinv', hguar, hq⟩ := h s' hrely hinv i hmay
  exact ⟨hinv', hguar, fun a ha => by cases ha; exact hq, fun e he => by cases he⟩

/-- A loop over a list, with the loop invariant `J`. -/
theorem meets_forEach {J : σ → Prop} {f : β → Async τ ι σ ε Unit}
    (hbody : ∀ x ∈ xs, ∀ s, J s → Meets K (fun _ s' => J s') E (f x) s) (hs : J s) :
    Meets K (fun _ s' => J s') E (forEach xs f) s := by
  induction xs generalizing s with
  | nil => exact hs
  | cons x rest ih =>
    refine meets_bind ((hbody x (by simp) s hs).mono (fun _ s' hs' => ?_) fun _ _ h => h)
    exact ih (fun y hy => hbody y (List.mem_cons_of_mem x hy)) hs'

/-- **Stability.**  A suspended program still meets its contract after any
    interference it tolerates. -/
theorem Meets.stable {ready : σ → Bool} {upd : ι → σ → σ} {next : ι → σ → Async τ ι σ ε α}
    (h : Meets K Q E (.step t ready upd next) s) (hrely : K.rely t s s') :
    Meets K Q E (.step t ready upd next) s' :=
  fun s'' hrely' hinv i hready hmay =>
    h s'' (Relation.ReflTransGen.head hrely hrely') hinv i hready hmay

theorem relies_of_star {r : σ → σ → Prop} (hrefl : ∀ s, r s s)
    (htrans : ∀ s₁ s₂ s₃, r s₁ s₂ → r s₂ s₃ → r s₁ s₃) (h : Relation.ReflTransGen r s s') :
    r s s' := by
  induction h with
  | refl => exact hrefl s
  | tail _ hstep ih => exact htrans _ _ _ ih hstep

theorem kept_of_star {r : σ → σ → Prop} {P : σ → Prop} (h : ∀ s s', r s s' → P s → P s')
    (hstar : Relation.ReflTransGen r s s') (hs : P s) : P s' := by
  induction hstar with
  | refl => exact hs
  | tail _ hstep ih => exact h _ _ hstep ih

/-! ## 3. Failing steps -/

def Failed : Async τ ι σ ε α → Prop
  | .fail _ => True
  | _ => False

/-- `FailsAt fails p`: whenever `p` is resumed at a point and on an input that
    `fails` singles out, it changes nothing and ends in an error. -/
def FailsAt (fails : τ → ι → Prop) : Async τ ι σ ε α → Prop
  | .ret _ => True
  | .fail _ => True
  | .step t _ upd next =>
      (∀ i, fails t i → ∀ s, upd i s = s ∧ (next i s).Failed) ∧ ∀ i s, FailsAt fails (next i s)

variable {fails : τ → ι → Prop}

theorem Failed.bind (h : p.Failed) (f : α → Async τ ι σ ε β) : (p.bind f).Failed := by
  cases p with
  | ret a | step t ready upd next => exact h.elim
  | fail e => trivial

theorem failsAt_bind {f : α → Async τ ι σ ε β} (hp : FailsAt fails p)
    (hf : ∀ a, FailsAt fails (f a)) : FailsAt fails (p.bind f) := by
  induction p with
  | ret a => exact hf a
  | fail e => trivial
  | step t ready upd next ih =>
    refine ⟨fun i hi s => ?_, fun i s => ih i s (hp.2 i s)⟩
    obtain ⟨hupd, hfailed⟩ := hp.1 i hi s
    exact ⟨hupd, hfailed.bind f⟩

theorem failsAt_tryCatch (hp : FailsAt fails p) (hh : ∀ e, (h e).Failed) :
    FailsAt fails (p.tryCatch h) := by
  induction p with
  | ret a => trivial
  | fail e =>
    have hfail := hh e
    show FailsAt fails (h e)
    cases hcase : h e with
    | ret a | step t ready upd next => rw [hcase] at hfail; exact hfail.elim
    | fail e' => trivial
  | step t ready upd next ih =>
    refine ⟨fun i hi s => ?_, fun i s => ih i s (hp.2 i s)⟩
    obtain ⟨hupd, hfailed⟩ := hp.1 i hi s
    refine ⟨hupd, ?_⟩
    show ((next i s).tryCatch h).Failed
    cases hcase : next i s with
    | ret a | step t' ready' upd' next' => rw [hcase] at hfailed; exact hfailed.elim
    | fail e => exact hh e

theorem failsAt_await {cond : σ → Bool}
    (h : ∀ i, fails t i → ∀ s, (f i s).2 = s ∧ ∃ e, (f i s).1 = .error e) :
    FailsAt fails (await t cond f) := by
  refine ⟨fun i hi s => ?_, fun i s => ?_⟩
  · obtain ⟨hs, e, he⟩ := h i hi s
    refine ⟨hs, ?_⟩
    show (ofExcept (f i s).1 : Async τ ι σ ε α).Failed
    rw [he]
    trivial
  · show FailsAt fails (ofExcept (f i s).1)
    cases (f i s).1 <;> trivial

theorem failsAt_atomic (h : ∀ i, fails t i → ∀ s, (f i s).2 = s ∧ ∃ e, (f i s).1 = .error e) :
    FailsAt fails (atomic t f) :=
  failsAt_await h

theorem failsAt_atomic_of_not (h : ∀ i, ¬ fails t i) : FailsAt fails (atomic t f) :=
  failsAt_await fun i hi => absurd hi (h i)

theorem failsAt_forEach {f : β → Async τ ι σ ε Unit} (hf : ∀ x, FailsAt fails (f x)) :
    FailsAt fails (forEach xs f) := by
  induction xs with
  | nil => trivial
  | cons x rest ih => exact failsAt_bind (hf x) fun _ => ih

/-! ## 4. Programs on their own -/

/-- `Alone K Q E p s`: resumed again and again from `s`, with nobody else at work,
    `p` never waits, every step keeps the invariant and its guarantee, and `p` ends
    in `Q` or in an error that satisfies `E` (total correctness). -/
def Alone (K : Contract τ ι σ) (Q : α → σ → Prop) (E : ε → σ → Prop) : Async τ ι σ ε α → σ → Prop
  | .ret a, s => Q a s
  | .fail e, s => E e s
  | .step t ready upd next, s =>
      K.inv s → ready s = true ∧ ∀ i, K.may t i s →
        K.inv (upd i s) ∧ K.guar t i s (upd i s) ∧ Alone K Q E (next i s) (upd i s)

theorem Alone.mono (hQ : ∀ a s, Q a s → Q' a s) (hE : ∀ e s, E e s → E' e s) (h : Alone K Q E p s) :
    Alone K Q' E' p s := by
  induction p generalizing s with
  | ret a => exact hQ a s h
  | fail e => exact hE e s h
  | step t ready upd next ih =>
    intro hinv
    obtain ⟨hready, hrun⟩ := h hinv
    refine ⟨hready, fun i hmay => ?_⟩
    obtain ⟨hinv', hguar, hnext⟩ := hrun i hmay
    exact ⟨hinv', hguar, ih i s hnext⟩

theorem alone_bind {R : β → σ → Prop} {f : α → Async τ ι σ ε β}
    (h : Alone K (fun a s' => Alone K R E (f a) s') E p s) : Alone K R E (p.bind f) s := by
  induction p generalizing s with
  | ret a | fail e => exact h
  | step t ready upd next ih =>
    intro hinv
    obtain ⟨hready, hrun⟩ := h hinv
    refine ⟨hready, fun i hmay => ?_⟩
    obtain ⟨hinv', hguar, hnext⟩ := hrun i hmay
    exact ⟨hinv', hguar, ih i s hnext⟩

theorem alone_tryCatch (hp : Alone K Q (fun e s' => Alone K Q E (h e) s') p s) :
    Alone K Q E (p.tryCatch h) s := by
  induction p generalizing s with
  | ret a | fail e => exact hp
  | step t ready upd next ih =>
    intro hinv
    obtain ⟨hready, hrun⟩ := hp hinv
    refine ⟨hready, fun i hmay => ?_⟩
    obtain ⟨hinv', hguar, hnext⟩ := hrun i hmay
    exact ⟨hinv', hguar, ih i s hnext⟩

theorem alone_atomic (h : K.inv s → ∀ i, K.may t i s → K.inv (f i s).2 ∧ K.guar t i s (f i s).2 ∧
      (∀ a, (f i s).1 = .ok a → Q a (f i s).2) ∧ (∀ e, (f i s).1 = .error e → E e (f i s).2)) :
    Alone K Q E (atomic t f) s := by
  refine fun hinv => ⟨rfl, fun i hmay => ?_⟩
  obtain ⟨hinv', hguar, hok, herr⟩ := h hinv i hmay
  refine ⟨hinv', hguar, ?_⟩
  show Alone K Q E (ofExcept (f i s).1) (f i s).2
  cases hr : (f i s).1 with
  | ok a => exact hok a hr
  | error e => exact herr e hr

theorem alone_forEach {J : List β → σ → Prop} {f : β → Async τ ι σ ε Unit}
    (hbody : ∀ x rest s, J (x :: rest) s → Alone K (fun _ s' => J rest s') E (f x) s) (hs : J xs s) :
    Alone K (fun _ s' => J [] s') E (forEach xs f) s := by
  induction xs generalizing s with
  | nil => exact hs
  | cons x rest ih =>
    exact alone_bind ((hbody x rest s hs).mono (fun _ _ hs' => ih hs') fun _ _ h => h)

theorem Alone.restrict {K' : Contract τ ι σ} (hmay : ∀ t i s, K'.may t i s → K.may t i s)
    (hinv : K'.inv = K.inv) (hguar : K'.guar = K.guar) (h : Alone K Q E p s) :
    Alone K' Q E p s := by
  induction p generalizing s with
  | ret a | fail e => exact h
  | step t ready upd next ih =>
    intro hs
    obtain ⟨hready, hrun⟩ := h (hinv ▸ hs)
    refine ⟨hready, fun i hi => ?_⟩
    obtain ⟨hinv', hguar', hnext⟩ := hrun i (hmay t i s hi)
    exact ⟨hinv ▸ hinv', hguar ▸ hguar', ih i s hnext⟩

theorem Alone.meets (hrely : ∀ t s s', K.rely t s s' → s' = s) (h : Alone K Q E p s) :
    Meets K Q E p s := by
  induction p generalizing s with
  | ret a | fail e => exact h
  | step t ready upd next ih =>
    intro s' hstar hinv i hopen hmay
    have hsame : s' = s :=
      kept_of_star (P := (· = s)) (fun _ _ hstep => (hrely t _ _ hstep).trans) hstar rfl
    subst hsame
    obtain ⟨hinv', hguar, hnext⟩ := (h hinv).2 i hmay
    exact ⟨hinv', hguar, ih i s' hnext⟩

end Async
