/-
  **Pools of asynchronous programs under an arbitrary scheduler.**

  A `System` says which programs can be called; a `Config` is the shared state with
  the programs in flight.  The scheduler may at any time call a program, resume one
  in flight with any input, lose one for good (`crash`: a tab or process dies at an
  `await`), or lose all of them with the volatile part of the state (`restart`).

  `Verified` lists what has to be shown once and for all: the calls meet their
  contract, and a step that the run admits disturbs no other program more than that
  one tolerates (`quiet`).  Then in every `Reachable` configuration the invariant
  holds (`Verified.inv`) and every program in flight still meets its contract
  (`Verified.meets`), and every executed step keeps its guarantee (`Verified.guar`).
-/
import WebOfTrust.Async

namespace Async

open List

variable {τ ι σ ε ρ κ : Type}

def point : Async τ ι σ ε ρ → Option τ
  | .step t _ _ _ => some t
  | _ => none

@[simp] theorem point_ret (a : ρ) : (Async.ret a : Async τ ι σ ε ρ).point = none := rfl
@[simp] theorem point_fail (e : ε) : (Async.fail e : Async τ ι σ ε ρ).point = none := rfl
@[simp] theorem point_step (t : τ) (ready : σ → Bool) (upd : ι → σ → σ)
    (next : ι → σ → Async τ ι σ ε ρ) : (Async.step t ready upd next).point = some t := rfl

/-- The programs a pool can be asked to run, by call `κ`, and what remains of
    the state when everything in memory is lost. -/
structure System (τ ι σ ε ρ κ : Type) where
  call : κ → Async τ ι σ ε ρ
  restart : σ → σ

structure Config (τ ι σ ε ρ : Type) where
  world : σ
  procs : List (Async τ ι σ ε ρ)

inductive Action (ι κ : Type) where
  | call (k : κ)
  | run (n : Nat) (i : ι)
  | crash (n : Nat)
  | restart

namespace Config

/-- Where the `n`-th program in flight is suspended, if it is. -/
def pointAt (c : Config τ ι σ ε ρ) (n : Nat) : Option τ := c.procs[n]?.bind point

/-- One scheduler decision; `none` when it is not enabled. -/
def step (S : System τ ι σ ε ρ κ) (c : Config τ ι σ ε ρ) : Action ι κ → Option (Config τ ι σ ε ρ)
  | .call k => some { c with procs := c.procs ++ [S.call k] }
  | .run n i =>
      match c.procs[n]? with
      | some (.step _ ready upd next) =>
          if ready c.world then
            some { world := upd i c.world, procs := c.procs.set n (next i c.world) }
          else none
      | _ => none
  | .crash n => some { c with procs := c.procs.eraseIdx n }
  | .restart => some { world := S.restart c.world, procs := [] }

def exec (S : System τ ι σ ε ρ κ) (admits : Config τ ι σ ε ρ → Action ι κ → Prop)
    [∀ c a, Decidable (admits c a)] (c : Config τ ι σ ε ρ) :
    List (Action ι κ) → Option (Config τ ι σ ε ρ)
  | [] => some c
  | a :: rest => if admits c a then (c.step S a).bind fun c' => exec S admits c' rest else none

variable {S : System τ ι σ ε ρ κ} {c c' : Config τ ι σ ε ρ}

/-- What resuming a program does: the program is suspended with an open guard,
    the state is updated at its point and the program moves on. -/
theorem step_run {n : Nat} {i : ι} (h : c.step S (.run n i) = some c') :
    ∃ t ready upd next, c.procs[n]? = some (.step t ready upd next) ∧ ready c.world = true ∧
      c' = { world := upd i c.world, procs := c.procs.set n (next i c.world) } := by
  simp only [step] at h
  split at h
  · next t ready upd next hp =>
    split at h
    · next hready => exact ⟨t, ready, upd, next, hp, hready, by cases h; rfl⟩
    · cases h
  · cases h

theorem world_eq_of_call {k : κ} (h : c.step S (.call k) = some c') : c'.world = c.world := by
  cases h; rfl

theorem world_eq_of_crash {n : Nat} (h : c.step S (.crash n) = some c') : c'.world = c.world := by
  cases h; rfl

end Config

/-- The configurations that a run from the state `w` can reach, when every
    decision of the scheduler is one that `admits` allows. -/
inductive Reachable (S : System τ ι σ ε ρ κ)
    (admits : Config τ ι σ ε ρ → Action ι κ → Prop) (w : σ) : Config τ ι σ ε ρ → Prop where
  | start : Reachable S admits w { world := w, procs := [] }
  | step {c c' : Config τ ι σ ε ρ} {a : Action ι κ} (h : Reachable S admits w c)
      (ha : admits c a) (hs : c.step S a = some c') : Reachable S admits w c'

variable {S : System τ ι σ ε ρ κ} {admits : Config τ ι σ ε ρ → Action ι κ → Prop} {w : σ}
  {c c' : Config τ ι σ ε ρ}

theorem Reachable.weaken {admits' : Config τ ι σ ε ρ → Action ι κ → Prop}
    (hsub : ∀ c a, admits c a → admits' c a) (h : Reachable S admits w c) :
    Reachable S admits' w c := by
  induction h with
  | start => exact .start
  | step _ ha hs ih => exact .step ih (hsub _ _ ha) hs

open Config

section

variable (S : System τ ι σ ε ρ κ) (admits : Config τ ι σ ε ρ → Action ι κ → Prop)

def Config.Later : Config τ ι σ ε ρ → Config τ ι σ ε ρ → Prop :=
  Relation.ReflTransGen fun c c' => ∃ a, c.step S a = some c'

/-- A later configuration, by decisions that `admits` allows. -/
def Config.LaterIn : Config τ ι σ ε ρ → Config τ ι σ ε ρ → Prop :=
  Relation.ReflTransGen fun c c' => ∃ a, admits c a ∧ c.step S a = some c'

end

theorem Config.LaterIn.exec [∀ c a, Decidable (admits c a)] {acts : List (Action ι κ)}
    (hs : c.exec S admits acts = some c') : LaterIn S admits c c' := by
  induction acts generalizing c with
  | nil =>
    cases hs
    exact .refl
  | cons a rest ih =>
    rw [exec] at hs
    split at hs
    · next hadm =>
      obtain ⟨c₁, h₁, hrest⟩ := Option.bind_eq_some_iff.mp hs
      exact .head ⟨a, hadm, h₁⟩ (ih hrest)
    · cases hs

theorem Reachable.later {P : Config τ ι σ ε ρ → Prop}
    (hstep : ∀ c a c', Reachable S admits w c → admits c a → c.step S a = some c' → P c → P c')
    (h : Reachable S admits w c) (hlater : LaterIn S admits c c') (hc : P c) : P c' := by
  have hrun : Reachable S admits w c' ∧ P c' := by
    induction hlater with
    | refl => exact ⟨h, hc⟩
    | tail _ hs ih =>
      obtain ⟨a, ha, hs⟩ := hs
      exact ⟨ih.1.step ha hs, hstep _ a _ ih.1 ha hs ih.2⟩
  exact hrun.2

theorem Reachable.laterIn (h : Reachable S admits w c) (hlater : LaterIn S admits c c') :
    Reachable S admits w c' :=
  h.later (fun _ _ _ _ ha hs h => h.step ha hs) hlater h

theorem Reachable.exec [∀ c a, Decidable (admits c a)] {acts : List (Action ι κ)}
    (h : Reachable S admits w c) (hs : c.exec S admits acts = some c') : Reachable S admits w c' :=
  h.laterIn (.exec hs)

theorem Reachable.of_exec (S : System τ ι σ ε ρ κ)
    (admits : Config τ ι σ ε ρ → Action ι κ → Prop) [∀ c a, Decidable (admits c a)] (w : σ)
    (acts : List (Action ι κ)) (p : Config τ ι σ ε ρ → Bool)
    (hs : ((Config.exec S admits { world := w, procs := [] } acts).any p) = true) :
    ∃ c, Reachable S admits w c ∧ p c = true := by
  cases hc : Config.exec S admits { world := w, procs := [] } acts with
  | none => simp [hc] at hs
  | some c => exact ⟨c, Reachable.start.exec hc, by simpa [hc] using hs⟩

/-- What holds of the code of every call, and of what remains of a program after any
    of its steps, holds of every program in flight. -/
theorem Reachable.programs {P : Async τ ι σ ε ρ → Prop} (hcall : ∀ k, P (S.call k))
    (hnext : ∀ t ready upd next, P (.step t ready upd next) → ∀ i s, P (next i s))
    (h : Reachable S admits w c) : ∀ p ∈ c.procs, P p := by
  induction h with
  | start => intro p hp; cases hp
  | @step c c' a h _ hs ih =>
    intro p hp
    cases a with
    | call k =>
      cases hs
      rcases mem_append.mp hp with hp | hp
      · exact ih p hp
      · rw [mem_singleton.mp hp]; exact hcall k
    | run n i =>
      obtain ⟨t, ready, upd, next, hn, _, rfl⟩ := step_run hs
      rcases mem_or_eq_of_mem_set hp with hp | rfl
      · exact ih p hp
      · exact hnext t ready upd next (ih _ (mem_of_getElem? hn)) i c.world
    | crash n => cases hs; exact ih p (mem_of_mem_eraseIdx hp)
    | restart => cases hs; cases hp

theorem Reachable.failsAt {fails : τ → ι → Prop} (hcall : ∀ k, FailsAt fails (S.call k))
    (h : Reachable S admits w c) : ∀ p ∈ c.procs, FailsAt fails p :=
  h.programs hcall fun _ _ _ _ hp => hp.2

theorem Reachable.run_fails {fails : τ → ι → Prop} (hcall : ∀ k, FailsAt fails (S.call k))
    (h : Reachable S admits w c) {n : Nat} {i : ι} {t : τ} (ht : c.pointAt n = some t)
    (hi : fails t i) (hs : c.step S (.run n i) = some c') :
    c'.world = c.world ∧ ∃ p, c'.procs[n]? = some p ∧ p.Failed := by
  obtain ⟨t', ready, upd, next, hn, _, rfl⟩ := step_run hs
  have htt : t' = t := by simpa [pointAt, hn] using ht
  subst htt
  obtain ⟨hupd, hfailed⟩ := (h.failsAt hcall _ (mem_of_getElem? hn)).1 i hi c.world
  have hlt : n < c.procs.length := (List.getElem?_eq_some_iff.mp hn).1
  exact ⟨hupd, _, getElem?_set_self hlt, hfailed⟩

/-- What has to be shown of a system, its admitted runs and a contract. -/
structure Verified (S : System τ ι σ ε ρ κ)
    (admits : Config τ ι σ ε ρ → Action ι κ → Prop) (w : σ) (K : Contract τ ι σ)
    (Q : ρ → σ → Prop) (E : ε → σ → Prop) : Prop where
  init : K.inv w
  call : ∀ c k, admits c (.call k) → K.inv c.world → Meets K Q E (S.call k) c.world
  may : ∀ (c : Config τ ι σ ε ρ) n i t, admits c (.run n i) → c.pointAt n = some t →
    K.inv c.world → K.may t i c.world
  restart : ∀ c, admits c .restart → K.inv c.world → K.inv (S.restart c.world)
  /-- A step admitted by the run is tolerated wherever another program waits. -/
  quiet : ∀ (c : Config τ ι σ ε ρ) n i t s', admits c (.run n i) → c.pointAt n = some t →
    K.inv c.world → K.guar t i c.world s' →
      ∀ m t', m ≠ n → c.pointAt m = some t' → K.rely t' c.world s'
  /-- Results and errors stay as good as they were. -/
  result : ∀ a t i s s', K.guar t i s s' → Q a s → Q a s'
  error : ∀ e t i s s', K.guar t i s s' → E e s → E e s'

namespace Verified

variable {K : Contract τ ι σ} {Q : ρ → σ → Prop} {E : ε → σ → Prop} {c c' : Config τ ι σ ε ρ}

private theorem run_step {t : τ} {ready : σ → Bool} {upd : ι → σ → σ}
    {next : ι → σ → Async τ ι σ ε ρ} {s : σ} (hp : Meets K Q E (.step t ready upd next) s)
    (hinv : K.inv s) (i : ι) (hready : ready s = true) (hmay : K.may t i s) :
    K.inv (upd i s) ∧ K.guar t i s (upd i s) ∧ Meets K Q E (next i s) (upd i s) :=
  hp s .refl hinv i hready hmay

/-- One admitted decision keeps the invariant and the obligation of every
    program in flight. -/
theorem preserve (V : Verified S admits w K Q E) {a : Action ι κ} (hinv : K.inv c.world)
    (hmeets : ∀ (m : Nat) p, c.procs[m]? = some p → Meets K Q E p c.world) (ha : admits c a)
    (hs : c.step S a = some c') :
    K.inv c'.world ∧ ∀ (m : Nat) p, c'.procs[m]? = some p → Meets K Q E p c'.world := by
  cases a with
  | call k =>
    cases hs
    refine ⟨hinv, fun m p hp => ?_⟩
    rw [getElem?_append] at hp
    split at hp
    · exact hmeets m p hp
    have hmem := mem_of_getElem? hp
    rw [mem_singleton] at hmem
    subst hmem
    exact V.call c k ha hinv
  | run n i =>
    obtain ⟨t, ready, upd, next, hn, hready, rfl⟩ := step_run hs
    have hpoint : c.pointAt n = some t := by simp [pointAt, hn]
    obtain ⟨hinv', hguar, hnext⟩ :=
      run_step (hmeets n _ hn) hinv i hready (V.may c n i t ha hpoint hinv)
    refine ⟨hinv', fun m p hp => ?_⟩
    by_cases hmn : m = n
    · subst hmn
      have hlt : m < c.procs.length := (List.getElem?_eq_some_iff.mp hn).1
      simp only [getElem?_set_self hlt, Option.some.injEq] at hp
      exact hp ▸ hnext
    simp only [getElem?_set_ne (Ne.symm hmn)] at hp
    have hp' := hmeets m p hp
    cases p with
    | ret a => exact V.result a t i _ _ hguar hp'
    | fail e => exact V.error e t i _ _ hguar hp'
    | step t' ready' upd' next' =>
      refine hp'.stable (V.quiet c n i t _ ha hpoint hinv hguar m t' hmn ?_)
      simp [pointAt, hp]
  | crash n =>
    cases hs
    refine ⟨hinv, fun m p hp => ?_⟩
    obtain ⟨j, hj⟩ := mem_iff_getElem?.mp (mem_of_mem_eraseIdx (mem_of_getElem? hp))
    exact hmeets j p hj
  | restart =>
    cases hs
    exact ⟨V.restart c ha hinv, fun m p hp => by simp at hp⟩

/-- **Every admitted run** keeps the invariant and the obligation of every
    program in flight. -/
theorem sound (V : Verified S admits w K Q E) (h : Reachable S admits w c) :
    K.inv c.world ∧ ∀ (m : Nat) p, c.procs[m]? = some p → Meets K Q E p c.world := by
  induction h with
  | start => exact ⟨V.init, fun m p hp => by simp at hp⟩
  | step _ ha hs ih => exact V.preserve ih.1 ih.2 ha hs

theorem inv (V : Verified S admits w K Q E) (h : Reachable S admits w c) : K.inv c.world :=
  (V.sound h).1

theorem meets (V : Verified S admits w K Q E) (h : Reachable S admits w c) {m : Nat}
    {p : Async τ ι σ ε ρ} (hp : c.procs[m]? = some p) : Meets K Q E p c.world :=
  (V.sound h).2 m p hp

theorem guar (V : Verified S admits w K Q E) (h : Reachable S admits w c) {n : Nat} {i : ι}
    (ha : admits c (.run n i)) (hs : c.step S (.run n i) = some c') :
    ∃ t, c.pointAt n = some t ∧ K.guar t i c.world c'.world := by
  obtain ⟨t, ready, upd, next, hn, hready, rfl⟩ := step_run hs
  have hpoint : c.pointAt n = some t := by simp [pointAt, hn]
  exact ⟨t, hpoint,
    (run_step (V.meets h hn) (V.inv h) i hready (V.may c n i t ha hpoint (V.inv h))).2.1⟩

/-- A preorder that every step and every admitted restart stays within holds between any two
    configurations of a run. -/
theorem later (V : Verified S admits w K Q E) {R : σ → σ → Prop} (hrefl : ∀ s, R s s)
    (htrans : ∀ s s' s'', R s s' → R s' s'' → R s s'')
    (hguar : ∀ t i s s', K.inv s → K.guar t i s s' → R s s')
    (hrestart : ∀ c, admits c .restart → R c.world (S.restart c.world))
    (h : Reachable S admits w c) (hlater : LaterIn S admits c c') : R c.world c'.world := by
  refine h.later (P := fun d => R c.world d.world) ?_ hlater (hrefl _)
  intro d a d' hd ha hs hR
  refine htrans _ _ _ hR ?_
  cases a with
  | call k =>
    rw [world_eq_of_call hs]
    exact hrefl _
  | run n i =>
    obtain ⟨t, -, hg⟩ := V.guar hd ha hs
    exact hguar t i _ _ (V.inv hd) hg
  | crash n =>
    rw [world_eq_of_crash hs]
    exact hrefl _
  | restart =>
    cases hs
    exact hrestart d ha

theorem returned (V : Verified S admits w K Q E) (h : Reachable S admits w c) {n : Nat} {a : ρ}
    (hp : c.procs[n]? = some (.ret a)) : Q a c.world :=
  V.meets h hp

end Verified

/-! ## Running one program to its end -/

/-- `RunsTo S input n c c'`: resuming program `n` again and again, with the inputs
    that `input` chooses, ends it in `c'`. -/
inductive RunsTo (S : System τ ι σ ε ρ κ) (input : τ → σ → ι) (n : Nat) :
    Config τ ι σ ε ρ → Config τ ι σ ε ρ → Prop where
  | done {c : Config τ ι σ ε ρ} (h : c.pointAt n = none) : RunsTo S input n c c
  | step {c c₁ c' : Config τ ι σ ε ρ} {t : τ} (ht : c.pointAt n = some t)
      (hs : c.step S (.run n (input t c.world)) = some c₁) (h : RunsTo S input n c₁ c') :
      RunsTo S input n c c'

namespace RunsTo

variable {input : τ → σ → ι} {n : Nat} {c c' c'' : Config τ ι σ ε ρ}

theorem unique (h : RunsTo S input n c c') (h' : RunsTo S input n c c'') : c' = c'' := by
  induction h with
  | done hnone =>
    cases h' with
    | done => rfl
    | step ht _ _ => rw [hnone] at ht; cases ht
  | step ht hs _ ih =>
    cases h' with
    | done hnone => rw [hnone] at ht; cases ht
    | step ht' hs' hrest =>
      cases ht.symm.trans ht'
      cases hs.symm.trans hs'
      exact ih hrest

theorem of_alone {K : Contract τ ι σ} {Q : ρ → σ → Prop} {E : ε → σ → Prop}
    (hinput : ∀ t s, K.inv s → K.may t (input t s) s) {p : Async τ ι σ ε ρ}
    (hp : c.procs[n]? = some p) (hinv : K.inv c.world) (h : Alone K Q E p c.world) :
    ∃ c', RunsTo S input n c c' ∧ ((∃ a, c'.procs[n]? = some (.ret a) ∧ Q a c'.world) ∨
        ∃ e, c'.procs[n]? = some (.fail e) ∧ E e c'.world) := by
  induction p generalizing c with
  | ret a => exact ⟨c, .done (by simp [pointAt, hp]), .inl ⟨a, hp, h⟩⟩
  | fail e => exact ⟨c, .done (by simp [pointAt, hp]), .inr ⟨e, hp, h⟩⟩
  | step t ready upd next ih =>
    obtain ⟨hready, hrun⟩ := h hinv
    obtain ⟨hinv', -, hnext⟩ := hrun (input t c.world) (hinput t c.world hinv)
    have hlt : n < c.procs.length := (List.getElem?_eq_some_iff.mp hp).1
    obtain ⟨c', hruns, hend⟩ := ih (input t c.world) c.world
      (c := { world := upd (input t c.world) c.world
              procs := c.procs.set n (next (input t c.world) c.world) })
      (getElem?_set_self hlt) hinv' hnext
    refine ⟨c', .step (t := t) (by simp [pointAt, hp]) ?_ hruns, hend⟩
    simp [Config.step, hp, hready]

/-- Compute the run, with at most `fuel` steps. -/
def run (S : System τ ι σ ε ρ κ) (input : τ → σ → ι) (n : Nat) :
    Nat → Config τ ι σ ε ρ → Option (Config τ ι σ ε ρ)
  | 0, _ => none
  | fuel + 1, c =>
    match c.pointAt n with
    | none => some c
    | some t => (c.step S (.run n (input t c.world))).bind (run S input n fuel)

theorem of_run {fuel : Nat} (h : run S input n fuel c = some c') : RunsTo S input n c c' := by
  induction fuel generalizing c with
  | zero => cases h
  | succ fuel ih =>
    simp only [run] at h
    split at h
    · next hnone =>
      cases h
      exact .done hnone
    next t ht =>
    obtain ⟨c₁, hs, hrest⟩ := Option.bind_eq_some_iff.mp h
    exact .step ht hs (ih hrest)

end RunsTo

end Async
