/-
  **One lane of programs, and an epoch.**  A coordinator runs one transition at a time.  A storage
  transition holds the lane to its end; a session transition holds it only while its epoch, the one
  that it was begun in, is the current one.  An event from outside may end the epoch at any time: a
  session transition then goes on beside the lane, and is reported stale.

  `LaneContract` is the rely/guarantee reading of such a system: a storage program has to tolerate
  session programs only, since no other storage program runs beside it.
-/
import WebOfTrust.AsyncPool
import WebOfTrust.Machine

namespace Async

variable {τ ι σ ε ρ κ η : Type}

inductive LaneKind where
  | session
  | storage
deriving DecidableEq

/-- The transitions of a lane, by call `κ`, and the events `η` from outside of it. -/
structure LaneSystem (τ ι σ ε ρ κ η : Type) where
  kind : κ → LaneKind
  /-- A call that joins another one while that runs. -/
  joins : κ → κ → Bool
  /-- A call that waits for a storage transition. -/
  queues : κ → Bool
  epoch : σ → Nat
  /-- What a call does before it asks for the lane. -/
  before : κ → σ → σ
  /-- A transition, with the epoch that it is begun in. -/
  program : κ → Nat → Async τ ι σ ε ρ
  /-- What an event does at once, and what goes on beside the lane; it sees who holds the lane. -/
  event : η → Option κ → σ → σ × List (Async τ ι σ ε ρ)
  restart : σ → σ

structure LaneRun (τ ι σ ε ρ κ : Type) where
  call : κ
  ticket : Nat
  program : Async τ ι σ ε ρ

inductive LaneReport (ε ρ : Type) where
  | busy
  | stale
  | returned (a : ρ)
  | thrown (e : ε)

structure LaneConfig (τ ι σ ε ρ κ : Type) where
  world : σ
  storage : Option (LaneRun τ ι σ ε ρ κ)
  /-- Session transitions, of this epoch and of ended ones. -/
  sessions : List (LaneRun τ ι σ ε ρ κ)
  beside : List (Async τ ι σ ε ρ)
  queued : List κ
  reports : List (κ × LaneReport ε ρ)

inductive LaneAction (ι κ η : Type) where
  | call (k : κ)
  | dequeue (n : Nat)
  | storage (i : ι)
  | session (n : Nat) (i : ι)
  | beside (n : Nat) (i : ι)
  | event (e : η)
  | restart

def resume (i : ι) (s : σ) : Async τ ι σ ε ρ → Option (σ × Async τ ι σ ε ρ)
  | .step _ ready upd next => if ready s = true then some (upd i s, next i s) else none
  | _ => none

def outcome? (kind : LaneKind) (stale : Bool) : Async τ ι σ ε ρ → Option (LaneReport ε ρ)
  | .ret a => some (if kind = .session ∧ stale = true then .stale else .returned a)
  | .fail e => some (.thrown e)
  | .step _ _ _ _ => none

namespace LaneConfig

variable (S : LaneSystem τ ι σ ε ρ κ η)

def start (w : σ) : LaneConfig τ ι σ ε ρ κ := ⟨w, none, [], [], [], []⟩

variable (c : LaneConfig τ ι σ ε ρ κ)

def holder : Option (LaneRun τ ι σ ε ρ κ) :=
  c.storage.or (c.sessions.find? fun r => decide (r.ticket = S.epoch c.world))

def take (k : κ) : LaneConfig τ ι σ ε ρ κ :=
  let run : LaneRun τ ι σ ε ρ κ := ⟨k, S.epoch c.world, S.program k (S.epoch c.world)⟩
  match S.kind k with
  | .storage => { c with storage := some run }
  | .session => { c with sessions := c.sessions ++ [run] }

/-- `run`: the call takes the lane, waits for it, or is refused. -/
def enter (k : κ) : LaneConfig τ ι σ ε ρ κ :=
  match c.holder S with
  | none => c.take S k
  | some run =>
    if S.queues k = true ∧ S.kind run.call = .storage then { c with queued := c.queued ++ [k] }
    else { c with reports := c.reports ++ [(k, .busy)] }

def stored (run : LaneRun τ ι σ ε ρ κ) (w : σ) (p : Async τ ι σ ε ρ) : LaneConfig τ ι σ ε ρ κ :=
  match outcome? .storage (decide (run.ticket ≠ S.epoch w)) p with
  | some r => { c with world := w, storage := none, reports := c.reports ++ [(run.call, r)] }
  | none => { c with world := w, storage := some { run with program := p } }

def went (n : Nat) (run : LaneRun τ ι σ ε ρ κ) (w : σ)
    (p : Async τ ι σ ε ρ) : LaneConfig τ ι σ ε ρ κ :=
  match outcome? .session (decide (run.ticket ≠ S.epoch w)) p with
  | some r =>
    { c with world := w, sessions := c.sessions.eraseIdx n, reports := c.reports ++ [(run.call, r)] }
  | none => { c with world := w, sessions := c.sessions.set n { run with program := p } }

def step : LaneAction ι κ η → Option (LaneConfig τ ι σ ε ρ κ)
  | .call k =>
    match c.holder S with
    | some run => if S.joins k run.call = true then some c
      else some ({ c with world := S.before k c.world }.enter S k)
    | none => some ({ c with world := S.before k c.world }.enter S k)
  | .dequeue n =>
    match c.queued[n]?, c.storage with
    | some k, none => some ({ c with queued := c.queued.eraseIdx n }.enter S k)
    | some k, some run =>
      if S.joins k run.call = true then some { c with queued := c.queued.eraseIdx n } else none
    | none, _ => none
  | .storage i =>
    match c.storage with
    | some run => (resume i c.world run.program).map fun r => c.stored S run r.1 r.2
    | none => none
  | .session n i =>
    match c.sessions[n]? with
    | some run => (resume i c.world run.program).map fun r => c.went S n run r.1 r.2
    | none => none
  | .beside n i =>
    match c.beside[n]? with
    | some p => (resume i c.world p).map fun r => { c with world := r.1, beside := c.beside.set n r.2 }
    | none => none
  | .event e =>
    let did := S.event e ((c.holder S).map (·.call)) c.world
    some { c with world := did.1, beside := c.beside ++ did.2 }
  | .restart => some (.start (S.restart c.world))

def point? : LaneAction ι κ η → Option (τ × ι)
  | .storage i => (c.storage.bind fun r => r.program.point).map (·, i)
  | .session n i => ((c.sessions[n]?).bind fun r => r.program.point).map (·, i)
  | .beside n i => ((c.beside[n]?).bind point).map (·, i)
  | _ => none

end LaneConfig

/-! ## 2. Contracts -/

structure LaneContract (τ ι σ : Type) where
  inv : σ → Prop
  /-- The states in which a program is resumed at a point. -/
  may : τ → ι → σ → Prop
  storage : τ → ι → σ → σ → Prop
  session : τ → ι → σ → σ → Prop
  /-- The interference that a storage program tolerates, and a session program. -/
  relyStorage : σ → σ → Prop
  relySession : σ → σ → Prop

namespace LaneContract

variable (K : LaneContract τ ι σ)

def forStorage : Contract τ ι σ :=
  ⟨K.inv, fun _ => K.relyStorage, K.may, K.storage⟩

def forSession : Contract τ ι σ :=
  ⟨K.inv, fun _ => K.relySession, K.may, K.session⟩

def forKind : LaneKind → Contract τ ι σ
  | .storage => K.forStorage
  | .session => K.forSession

end LaneContract

/-- A program that meets its contract, whatever it ends with. -/
def Keeps (K : Contract τ ι σ) (p : Async τ ι σ ε ρ) (s : σ) : Prop :=
  Meets K (fun _ _ => True) (fun _ _ => True) p s

/-- What has to be shown of a lane, its admitted actions and a contract. -/
structure LaneVerified (S : LaneSystem τ ι σ ε ρ κ η)
    (admits : LaneConfig τ ι σ ε ρ κ → LaneAction ι κ η → Prop) (w : σ)
    (K : LaneContract τ ι σ) : Prop where
  init : K.inv w
  before : ∀ k s, K.inv s →
    K.inv (S.before k s) ∧ K.relyStorage s (S.before k s) ∧ K.relySession s (S.before k s)
  program : ∀ k s, K.inv s → Keeps (K.forKind (S.kind k)) (S.program k (S.epoch s)) s
  event : ∀ e h s, K.inv s → K.inv (S.event e h s).1 ∧ K.relyStorage s (S.event e h s).1 ∧
    K.relySession s (S.event e h s).1 ∧ ∀ p ∈ (S.event e h s).2, Keeps K.forSession p (S.event e h s).1
  may : ∀ c a t i, admits c a → c.point? a = some (t, i) → K.inv c.world → K.may t i c.world
  quietStorage : ∀ t i s s', K.inv s → K.storage t i s s' → K.relySession s s'
  quietSession : ∀ t i s s', K.inv s → K.session t i s s' → K.relyStorage s s' ∧ K.relySession s s'
  restart : ∀ s, K.inv s → K.inv (S.restart s)

/-- The invariant, and the obligations of what runs. -/
structure LaneKept (K : LaneContract τ ι σ) (c : LaneConfig τ ι σ ε ρ κ) : Prop where
  inv : K.inv c.world
  storage : ∀ r, c.storage = some r → Keeps K.forStorage r.program c.world
  sessions : ∀ r ∈ c.sessions, Keeps K.forSession r.program c.world
  beside : ∀ p ∈ c.beside, Keeps K.forSession p c.world

open LaneConfig

namespace LaneKept

variable {S : LaneSystem τ ι σ ε ρ κ η}
  {admits : LaneConfig τ ι σ ε ρ κ → LaneAction ι κ η → Prop} {w w' : σ} {K : LaneContract τ ι σ}
  {c c' : LaneConfig τ ι σ ε ρ κ} {p p' : Async τ ι σ ε ρ} {i : ι}

theorem keeps_rely {K : Contract τ ι σ} {s s' : σ} (h : Keeps K p s) (hrely : ∀ t, K.rely t s s') :
    Keeps K p s' := by
  cases p with
  | ret a | fail e => trivial
  | step t ready upd next => exact .stable h (hrely t)

theorem resumed {K : Contract τ ι σ} {s s' : σ} (h : Keeps K p s) (hinv : K.inv s)
    (hmay : ∀ t, p.point = some t → K.may t i s) (hs : resume i s p = some (s', p')) :
    K.inv s' ∧ (∃ t, K.guar t i s s') ∧ Keeps K p' s' := by
  cases p with
  | ret a | fail e => cases hs
  | step t ready upd next =>
    rw [resume] at hs
    split at hs
    · next hready =>
      cases hs
      obtain ⟨hinv', hguar, hnext⟩ := h s .refl hinv i hready (hmay t rfl)
      exact ⟨hinv', ⟨t, hguar⟩, hnext⟩
    · cases hs

theorem of_world (h : LaneKept K c) (hinv : K.inv w') (hst : K.relyStorage c.world w')
    (hse : K.relySession c.world w') : LaneKept K { c with world := w' } where
  inv := hinv
  storage r hr := keeps_rely (h.storage r hr) fun _ => hst
  sessions r hr := keeps_rely (h.sessions r hr) fun _ => hse
  beside p hp := keeps_rely (h.beside p hp) fun _ => hse

theorem enter (V : LaneVerified S admits w K) (h : LaneKept K c) (k : κ) :
    LaneKept K (c.enter S k) := by
  rw [LaneConfig.enter]
  split
  · have hprogram := V.program k c.world h.inv
    rw [take]
    split
    · next hkind =>
      rw [hkind] at hprogram
      refine ⟨h.inv, ?_, h.sessions, h.beside⟩
      rintro r ⟨⟩
      exact hprogram
    next hkind =>
    rw [hkind] at hprogram
    refine ⟨h.inv, h.storage, fun r hr => ?_, h.beside⟩
    rcases List.mem_append.mp hr with hr | hr
    · exact h.sessions r hr
    · rw [List.mem_singleton.mp hr]
      exact hprogram
  · split
    · exact ⟨h.inv, h.storage, h.sessions, h.beside⟩
    · exact ⟨h.inv, h.storage, h.sessions, h.beside⟩

theorem call (V : LaneVerified S admits w K) (h : LaneKept K c) (k : κ) :
    LaneKept K ({ c with world := S.before k c.world }.enter S k) := by
  obtain ⟨hinv, hst, hse⟩ := V.before k c.world h.inv
  exact enter V (h.of_world hinv hst hse) k

theorem step {a : LaneAction ι κ η} (V : LaneVerified S admits w K) (h : LaneKept K c)
    (ha : admits c a) (hs : c.step S a = some c') : LaneKept K c' := by
  have hmay : ∀ t i, c.point? a = some (t, i) → K.may t i c.world :=
    fun t i hpoint => V.may c a t i ha hpoint h.inv
  cases a with
  | call k =>
    rw [LaneConfig.step] at hs
    split at hs
    · split at hs <;> cases hs
      · exact h
      · exact call V h k
    · cases hs
      exact call V h k
  | dequeue n =>
    rw [LaneConfig.step] at hs
    split at hs
    · cases hs
      have hkept : LaneKept K { c with queued := c.queued.eraseIdx n } :=
        ⟨h.inv, h.storage, h.sessions, h.beside⟩
      exact enter V hkept _
    · split at hs <;> cases hs
      exact ⟨h.inv, h.storage, h.sessions, h.beside⟩
    · cases hs
  | storage i =>
    rw [LaneConfig.step] at hs
    split at hs
    · next run hrun =>
      obtain ⟨⟨s', p'⟩, hresume, rfl⟩ := Option.map_eq_some_iff.mp hs
      obtain ⟨hinv, ⟨t, hguar⟩, hnext⟩ := resumed (h.storage run hrun) h.inv
        (fun t ht => hmay t i (by simp [point?, hrun, ht])) hresume
      have hse := V.quietStorage t i _ _ h.inv hguar
      have hsessions : ∀ r ∈ c.sessions, Keeps K.forSession r.program s' :=
        fun r hr => keeps_rely (h.sessions r hr) fun _ => hse
      have hbeside : ∀ p ∈ c.beside, Keeps K.forSession p s' :=
        fun p hp => keeps_rely (h.beside p hp) fun _ => hse
      rw [stored]
      split
      · exact ⟨hinv, nofun, hsessions, hbeside⟩
      refine ⟨hinv, ?_, hsessions, hbeside⟩
      rintro r ⟨⟩
      exact hnext
    · cases hs
  | session n i =>
    rw [LaneConfig.step] at hs
    split at hs
    · next run hrun =>
      obtain ⟨⟨s', p'⟩, hresume, rfl⟩ := Option.map_eq_some_iff.mp hs
      obtain ⟨hinv, ⟨t, hguar⟩, hnext⟩ := resumed (h.sessions run (List.mem_of_getElem? hrun)) h.inv
        (fun t ht => hmay t i (by simp [point?, hrun, ht])) hresume
      obtain ⟨hst, hse⟩ := V.quietSession t i _ _ h.inv hguar
      have hkept := h.of_world hinv hst hse
      rw [went]
      split
      · exact ⟨hinv, hkept.storage, fun r hr => hkept.sessions r (List.mem_of_mem_eraseIdx hr),
          hkept.beside⟩
      refine ⟨hinv, hkept.storage, fun r hr => ?_, hkept.beside⟩
      rcases List.mem_or_eq_of_mem_set hr with hr | rfl
      · exact hkept.sessions r hr
      · exact hnext
    · cases hs
  | beside n i =>
    rw [LaneConfig.step] at hs
    split at hs
    · next p hp =>
      obtain ⟨⟨s', p'⟩, hresume, rfl⟩ := Option.map_eq_some_iff.mp hs
      obtain ⟨hinv, ⟨t, hguar⟩, hnext⟩ := resumed (h.beside p (List.mem_of_getElem? hp)) h.inv
        (fun t ht => hmay t i (by simp [point?, hp, ht])) hresume
      obtain ⟨hst, hse⟩ := V.quietSession t i _ _ h.inv hguar
      have hkept := h.of_world hinv hst hse
      refine ⟨hinv, hkept.storage, hkept.sessions, fun q hq => ?_⟩
      rcases List.mem_or_eq_of_mem_set hq with hq | rfl
      · exact hkept.beside q hq
      · exact hnext
    · cases hs
  | event e =>
    cases hs
    obtain ⟨hinv, hst, hse, hprograms⟩ := V.event e ((c.holder S).map (·.call)) c.world h.inv
    have hkept := h.of_world hinv hst hse
    refine ⟨hinv, hkept.storage, hkept.sessions, fun p hp => ?_⟩
    rcases List.mem_append.mp hp with hp | hp
    · exact hkept.beside p hp
    · exact hprograms p hp
  | restart =>
    cases hs
    exact ⟨V.restart c.world h.inv, nofun, nofun, nofun⟩

theorem reaches (V : LaneVerified S admits w K)
    (h : Machine.Reaches (LaneConfig.step S) admits (.start w) c) : LaneKept K c :=
  h.invariant ⟨V.init, nofun, nofun, nofun⟩ fun _ _ _ hkept ha hs => hkept.step V ha hs

end LaneKept

end Async
