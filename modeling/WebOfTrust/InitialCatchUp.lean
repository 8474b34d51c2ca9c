/-
  **The initial catch-up** (`InitialCatchUpController.ts`): one state, the reconnect that is
  remembered, the backoff that waits, and the flights at their awaits.

  What the controller calls is kept in `calls`, and `wanted` says whether a reconnect has been
  requested during the flight that is under way: both are history, and `wanted` is written by
  the inputs alone.
-/
import Mathlib.Data.List.Basic
import WebOfTrust.Machine

namespace WebOfTrust.InitialCatchUp

open Machine

/-! ## 1. The controller -/

inductive ControllerState where
  | idle
  | running
  | backingOff
  | disposed
deriving DecidableEq

/-- The awaits of `runAttempts`; then the one of `runFlight`. -/
inductive Stage where
  | catchingUp (attempt : Nat)
  | resending (attempt : Nat)
  | waiting (attempt : Nat)
  | resumed (attempt : Nat)
  | settled

structure Flight where
  id : Nat
  stage : Stage
  attempts : Nat

inductive DepCall where
  | catchUp
  | resendPending
  | resetForReconnect
deriving DecidableEq

inductive Outcome where
  | complete
  | timeout
  | otherIncomplete
  | failure
deriving DecidableEq

structure Controller where
  state : ControllerState
  rerunRequested : Bool
  /-- The flight that the timer and its resolver belong to. -/
  backoffResolve : Option Nat
  ready : Bool
  flights : List Flight
  begun : Nat
  calls : List DepCall
  wanted : Bool

def start : Controller where
  state := .idle
  rerunRequested := false
  backoffResolve := none
  ready := false
  flights := []
  begun := 0
  calls := []
  wanted := false

namespace Controller

variable (backoffMs : List Nat) (s : Controller) (f : Flight)

def attempt (n : Nat) : Controller × Flight :=
  ({ s with state := .running, calls := s.calls ++ [.catchUp] },
    { f with stage := .catchingUp n, attempts := f.attempts + 1 })

/-- `runAttempts`, from the head of its loop. -/
def runAttempts (n : Nat) : Controller × Flight :=
  if backoffMs.length ≤ n then (s, { f with stage := .settled })
  else if s.state = .disposed ∨ s.ready = false then (s, { f with stage := .settled })
  else if 0 < n then
    ({ s with state := .backingOff, backoffResolve := some f.id }, { f with stage := .waiting n })
  else s.attempt f n

/-- `runAttempts`, behind `waitBackoff`. -/
def afterBackoff (n : Nat) : Controller × Flight :=
  if s.state = .disposed ∨ s.ready = false then (s, { f with stage := .settled })
  else s.attempt f n

def afterCatchUp (n : Nat) : Outcome → Controller × Flight
  | .failure => s.runAttempts backoffMs f (n + 1)
  | outcome =>
    if s.state = .disposed then (s, { f with stage := .settled })
    else
      match outcome with
      | .complete =>
        ({ s with calls := s.calls ++ [.resendPending] }, { f with stage := .resending n })
      | .timeout => s.runAttempts backoffMs f (n + 1)
      | _ => (s, { f with stage := .settled })

def afterResend (n : Nat) (ok : Bool) : Controller × Flight :=
  if ok then (s, { f with stage := .settled }) else s.runAttempts backoffMs f (n + 1)

/-- `runFlight`, up to its `await`. -/
def runFlight : Controller :=
  let p := { s with state := .running }.runAttempts backoffMs ⟨s.begun, .settled, 0⟩ 0
  { p.1 with flights := p.1.flights ++ [p.2], begun := s.begun + 1 }

def resets (reconnect : Bool) : List DepCall := if reconnect then [.resetForReconnect] else []

def request (reconnect : Bool) : Controller :=
  if s.state = .disposed then s
  else if s.state ≠ .idle then
    { s with rerunRequested := s.rerunRequested || reconnect }
  else
    { s with
      rerunRequested := false
      calls := s.calls ++ resets reconnect }.runFlight backoffMs

def resolve : Flight :=
  match f.stage with
  | .waiting n => if s.backoffResolve = some f.id then { f with stage := .resumed n } else f
  | _ => f

def dispose : Controller :=
  { s with
    state := .disposed
    rerunRequested := false
    backoffResolve := none
    flights := s.flights.map s.resolve }

def timerFires : Option Controller :=
  if s.backoffResolve.isSome then
    some { s with backoffResolve := none, flights := s.flights.map s.resolve }
  else none

/-- `runFlight`, behind its `await`. -/
def settles (k : Nat) : Option Controller :=
  match s.flights[k]? with
  | some ⟨_, .settled, _⟩ =>
    let s := { s with flights := s.flights.eraseIdx k }
    if s.state = .disposed then some s
    else
      let rerun := s.rerunRequested
      let s := { s with state := .idle, rerunRequested := false }
      some (if rerun && s.ready then s.request backoffMs true else s)
  | _ => none

end Controller

inductive Input where
  | request (reconnect : Bool)
  | dispose
  | setReady (ready : Bool)
  | timerFires
  | resumes (k : Nat)
  | catchUpEnds (k : Nat) (outcome : Outcome)
  | resendEnds (k : Nat) (ok : Bool)
  | settles (k : Nat)
deriving DecidableEq

def goesOn (s : Controller) (k : Nat) (next : Flight → Option (Controller × Flight)) :
    Option Controller :=
  (s.flights[k]?.bind next).map fun p => { p.1 with flights := p.1.flights.set k p.2 }

def step (backoffMs : List Nat) (s : Controller) : Input → Option Controller
  | .request reconnect => some { s.request backoffMs reconnect with
      wanted := !s.flights.isEmpty && (s.wanted || reconnect) }
  | .dispose => some s.dispose
  | .setReady ready => some { s with ready := ready }
  | .timerFires => s.timerFires
  | .resumes k => goesOn s k fun f =>
    match f.stage with
    | .resumed n => some (s.afterBackoff f n)
    | _ => none
  | .catchUpEnds k outcome => goesOn s k fun f =>
    match f.stage with
    | .catchingUp n => some (s.afterCatchUp backoffMs f n outcome)
    | _ => none
  | .resendEnds k ok => goesOn s k fun f =>
    match f.stage with
    | .resending n => some (s.afterResend backoffMs f n ok)
    | _ => none
  | .settles k => (s.settles backoffMs k).map fun s' => { s' with wanted := false }

/-- What a flight at this stage waits for. -/
def Stage.next (k : Nat) (outcome : Outcome) (ok : Bool) : Stage → Input
  | .catchingUp _ => .catchUpEnds k outcome
  | .resending _ => .resendEnds k ok
  | .waiting _ => .timerFires
  | .resumed _ => .resumes k
  | .settled => .settles k

/-! ## 2. What a flight changes -/

variable {backoffMs : List Nat} {s s' : Controller} {f : Flight} {n : Nat}

/-- The attempts of a flight, against the steps of the backoff. -/
def Flight.Bounded (steps : Nat) (f : Flight) : Prop :=
  match f.stage with
  | .catchingUp n | .resending n => n < steps ∧ f.attempts ≤ n + 1
  | .waiting n | .resumed n => n < steps ∧ f.attempts ≤ n
  | .settled => f.attempts ≤ steps

/-- Of the controller, a flight changes its state, its timer and what it has called; and a
    disposed one it leaves as it is. -/
structure Flies (s : Controller) (p : Controller × Flight) (steps : Nat) : Prop where
  bounded : p.2.Bounded steps
  timer : ∀ n, p.2.stage = .waiting n → p.1.backoffResolve = some p.2.id
  flights : p.1.flights = s.flights
  begun : p.1.begun = s.begun
  rerun : p.1.rerunRequested = s.rerunRequested
  wanted : p.1.wanted = s.wanted
  busy : s.state ≠ .idle → p.1.state ≠ .idle
  live : s.state ≠ .disposed → p.1.state ≠ .disposed
  disposed : s.state = .disposed → p.1 = s
  calls : ∃ rest, p.1.calls = s.calls ++ rest

theorem flies_settled {steps : Nat} (h : f.attempts ≤ steps) :
    Flies s (s, { f with stage := .settled }) steps :=
  ⟨h, nofun, rfl, rfl, rfl, rfl, id, id, fun _ => rfl, [], (List.append_nil _).symm⟩

theorem flies_attempt (hstate : s.state ≠ .disposed) (hn : n < backoffMs.length)
    (hf : f.attempts ≤ n) : Flies s (s.attempt f n) backoffMs.length :=
  ⟨⟨hn, Nat.succ_le_succ hf⟩, nofun, rfl, rfl, rfl, rfl, nofun, nofun,
    fun h => absurd h hstate, _, rfl⟩

theorem flies_runAttempts (hn : n ≤ backoffMs.length) (hf : f.attempts ≤ n) :
    Flies s (s.runAttempts backoffMs f n) backoffMs.length := by
  unfold Controller.runAttempts
  split
  · exact flies_settled (Nat.le_trans hf hn)
  next hlt =>
  have hlt := Nat.lt_of_not_le hlt
  split
  · exact flies_settled (Nat.le_trans hf hn)
  next hstate =>
  have hstate : s.state ≠ .disposed := fun h => hstate (.inl h)
  split
  · exact ⟨⟨hlt, hf⟩, fun _ _ => rfl, rfl, rfl, rfl, rfl, nofun, nofun,
      fun h => absurd h hstate, [], (List.append_nil _).symm⟩
  · exact flies_attempt hstate hlt hf

theorem flies_afterBackoff (hn : n < backoffMs.length) (hf : f.attempts ≤ n) :
    Flies s (s.afterBackoff f n) backoffMs.length := by
  unfold Controller.afterBackoff
  split
  · exact flies_settled (Nat.le_trans hf (Nat.le_of_lt hn))
  · next hstate => exact flies_attempt (fun h => hstate (.inl h)) hn hf

theorem flies_afterCatchUp {outcome : Outcome} (hn : n < backoffMs.length)
    (hf : f.attempts ≤ n + 1) :
    Flies s (s.afterCatchUp backoffMs f n outcome) backoffMs.length := by
  unfold Controller.afterCatchUp
  split
  · exact flies_runAttempts hn hf
  split
  · exact flies_settled (Nat.le_trans hf hn)
  next hstate =>
  split
  · exact ⟨⟨hn, hf⟩, nofun, rfl, rfl, rfl, rfl, id, id, fun h => absurd h hstate, _, rfl⟩
  · exact flies_runAttempts hn hf
  · exact flies_settled (Nat.le_trans hf hn)

theorem flies_afterResend {ok : Bool} (hn : n < backoffMs.length) (hf : f.attempts ≤ n + 1) :
    Flies s (s.afterResend backoffMs f n ok) backoffMs.length := by
  unfold Controller.afterResend
  split
  · exact flies_settled (Nat.le_trans hf hn)
  · exact flies_runAttempts hn hf

/-! ## 3. Every step -/

structure Sound (steps : Nat) (s : Controller) : Prop where
  single : s.flights = [] ∧ (s.state = .idle ∨ s.state = .disposed) ∨
    ∃ f, s.flights = [f] ∧ s.state ≠ .idle
  bounded : ∀ f ∈ s.flights, f.Bounded steps
  /-- The timer is that of the flight that waits. -/
  timer : ∀ f ∈ s.flights, ∀ n, f.stage = .waiting n → s.backoffResolve = some f.id
  wanted : s.state ≠ .disposed → s.rerunRequested = s.wanted

theorem Sound.only {k steps : Nat} (h : Sound steps s) (hk : s.flights[k]? = some f) :
    k = 0 ∧ s.flights = [f] ∧ s.state ≠ .idle := by
  rcases h.single with ⟨hnone, -⟩ | ⟨f', hone, hbusy⟩
  · simp [hnone] at hk
  rw [hone, List.getElem?_singleton] at hk
  split at hk
  · next hk0 =>
    cases hk
    exact ⟨hk0, hone, hbusy⟩
  · cases hk

theorem Sound.goesOn {k : Nat} {next : Flight → Option (Controller × Flight)}
    (h : Sound backoffMs.length s)
    (hnext : ∀ f p, f.Bounded backoffMs.length → next f = some p → Flies s p backoffMs.length)
    (hs : goesOn s k next = some s') :
    Sound backoffMs.length s' ∧
      (s.state = .disposed → s'.state = .disposed ∧ s'.calls = s.calls) ∧
      s'.wanted = s.wanted ∧ s'.begun = s.begun ∧ s'.flights ≠ [] := by
  obtain ⟨p, hbind, rfl⟩ := Option.map_eq_some_iff.mp hs
  obtain ⟨f, hk, hp⟩ := Option.bind_eq_some_iff.mp hbind
  obtain ⟨rfl, hone, hbusy⟩ := h.only hk
  have hflies := hnext f p (h.bounded f (by simp [hone])) hp
  have hset : p.1.flights.set 0 p.2 = [p.2] := by
    rw [hflies.flights, hone]
    rfl
  refine ⟨⟨.inr ⟨p.2, hset, hflies.busy hbusy⟩, ?_, ?_, fun hlive => ?_⟩, fun hdisposed => ?_,
    hflies.wanted, hflies.begun, by simp [hset]⟩
  · intro g hg
    rw [hset, List.mem_singleton] at hg
    exact hg ▸ hflies.bounded
  · intro g hg
    rw [hset, List.mem_singleton] at hg
    exact hg ▸ hflies.timer
  · have hlive' : s.state ≠ .disposed := fun hd => hlive (by rw [hflies.disposed hd]; exact hd)
    exact hflies.rerun.trans ((h.wanted hlive').trans hflies.wanted.symm)
  · rw [hflies.disposed hdisposed]
    exact ⟨hdisposed, rfl⟩

theorem request_begins {reconnect : Bool} (hnone : s.flights = []) (hidle : s.state = .idle) :
    Sound backoffMs.length { s.request backoffMs reconnect with wanted := false } ∧
      (s.request backoffMs reconnect).begun = s.begun + 1 ∧
      ∃ rest, (s.request backoffMs reconnect).calls =
        s.calls ++ Controller.resets reconnect ++ rest := by
  have hflies := @flies_runAttempts backoffMs { s with
    state := .running, rerunRequested := false, calls := s.calls ++ Controller.resets reconnect }
    ⟨s.begun, .settled, 0⟩ 0 (Nat.zero_le _) (Nat.le_refl 0)
  simp only [Controller.request, hidle, Controller.runFlight, reduceCtorEq, if_false, ne_eq,
    not_true_eq_false]
  generalize Controller.runAttempts backoffMs _ ⟨s.begun, .settled, 0⟩ 0 = p at hflies
  have hone : p.1.flights ++ [p.2] = [p.2] := by
    rw [hflies.flights, hnone]
    rfl
  refine ⟨⟨.inr ⟨p.2, hone, hflies.busy nofun⟩, fun g hg => ?_, fun g hg => ?_,
    fun _ => hflies.rerun⟩, trivial, hflies.calls⟩ <;>
    simp only [hone, List.mem_singleton] at hg
  · exact hg ▸ hflies.bounded
  · exact hg ▸ hflies.timer

theorem Sound.resolve {backoffResolve : Option Nat} (h : Sound backoffMs.length s) :
    Sound backoffMs.length
      { s with backoffResolve := backoffResolve, flights := s.flights.map s.resolve } := by
  refine ⟨?_, fun g hg => ?_, fun g hg n hwaits => ?_, h.wanted⟩
  · rcases h.single with ⟨hnone, hstate⟩ | ⟨f, hone, hbusy⟩
    · exact .inl ⟨by simp [hnone], hstate⟩
    · exact .inr ⟨s.resolve f, by simp [hone], hbusy⟩
  · obtain ⟨f, hf, rfl⟩ := List.mem_map.mp hg
    have hbounded := h.bounded f hf
    unfold Controller.resolve
    split
    · next n hstage =>
      split
      · simpa [Flight.Bounded, hstage] using hbounded
      · exact hbounded
    · exact hbounded
  · obtain ⟨f, hf, rfl⟩ := List.mem_map.mp hg
    -- A flight that waited was the one of the timer, and it has been resumed.
    unfold Controller.resolve at hwaits
    split at hwaits
    · next m hstage =>
      rw [if_pos (h.timer f hf m hstage)] at hwaits
      cases hwaits
    · next hstage => exact absurd hwaits (hstage n)

/-- **The end of a flight.**  It begins the next one where a reconnect was requested and the
    transport is ready. -/
theorem Sound.settles {k : Nat} (h : Sound backoffMs.length s)
    (hs : step backoffMs s (.settles k) = some s') :
    Sound backoffMs.length s' ∧ (s.state = .disposed → s'.state = .disposed ∧ s'.calls = s.calls) ∧
      s'.begun = s.begun +
        (if s.state ≠ .disposed ∧ s.wanted = true ∧ s.ready = true then 1 else 0) ∧
      (s'.begun ≠ s.begun → ∃ rest, s'.calls = s.calls ++ .resetForReconnect :: rest) := by
  obtain ⟨ended, hends, rfl⟩ := Option.map_eq_some_iff.mp hs
  clear hs
  rename' hends => hs
  unfold Controller.settles at hs
  split at hs
  · next id attempts hk =>
    obtain ⟨rfl, hone, -⟩ := h.only hk
    have hnone : s.flights.eraseIdx 0 = [] := by rw [hone]; rfl
    simp only [hnone] at hs
    split at hs
    · next hdisposed =>
      cases hs
      refine ⟨⟨.inl ⟨rfl, .inr hdisposed⟩, nofun, nofun, fun hlive => absurd hdisposed hlive⟩,
        fun hd => ⟨hd, rfl⟩, ?_, fun hne => absurd rfl hne⟩
      rw [if_neg fun hlive => hlive.1 hdisposed]
      rfl
    · next hlive =>
      rw [h.wanted hlive] at hs
      split at hs
      · next hrerun =>
        cases hs
        obtain ⟨hsound, hbegun, rest, hcalls⟩ := @request_begins backoffMs { s with
          flights := [], state := .idle, rerunRequested := false } true rfl rfl
        refine ⟨hsound, fun hd => absurd hd hlive, ?_, fun _ => ⟨rest, hcalls.trans ?_⟩⟩
        · exact hbegun.trans (by rw [if_pos ⟨hlive, Bool.and_eq_true_iff.mp hrerun⟩])
        · simp [Controller.resets]
      · next hrerun =>
        cases hs
        refine ⟨⟨.inl ⟨rfl, .inl rfl⟩, nofun, nofun, fun _ => rfl⟩,
          fun hd => absurd hd hlive, ?_, fun hne => absurd rfl hne⟩
        rw [if_neg fun hall => hrerun (Bool.and_eq_true_iff.mpr hall.2)]
        rfl
  · cases hs

theorem Sound.request {reconnect : Bool} (h : Sound backoffMs.length s)
    (hs : step backoffMs s (.request reconnect) = some s') :
    Sound backoffMs.length s' ∧
      (s.state = .disposed → s'.state = .disposed ∧ s'.calls = s.calls) ∧
      (s.flights ≠ [] → s'.wanted = (s.wanted || reconnect) ∧ s'.begun = s.begun ∧
        s'.flights = s.flights) := by
  cases hs
  by_cases hdisposed : s.state = .disposed
  · have hsame : s.request backoffMs reconnect = s := by
      simp [Controller.request, hdisposed]
    rw [hsame]
    exact ⟨⟨h.single, h.bounded, h.timer, fun hlive => absurd hdisposed hlive⟩,
      fun hd => ⟨hd, rfl⟩, fun hflies => ⟨by simp [hflies], rfl, rfl⟩⟩
  rcases h.single with ⟨hnone, hstate⟩ | ⟨f, hone, hbusy⟩
  · have hidle := hstate.resolve_right hdisposed
    simp only [hnone, List.isEmpty_nil, Bool.not_true, Bool.false_and]
    exact ⟨(request_begins hnone hidle).1, fun hd => absurd hd hdisposed,
      fun hflies => absurd rfl hflies⟩
  · have hrequest : s.request backoffMs reconnect =
        { s with rerunRequested := s.rerunRequested || reconnect } := by
      simp [Controller.request, hdisposed, hbusy]
    rw [hrequest]
    refine ⟨⟨h.single, h.bounded, h.timer, fun _ => ?_⟩, fun hd => absurd hd hdisposed,
      fun _ => ⟨?_, rfl, rfl⟩⟩ <;> simp [hone, h.wanted hdisposed]

theorem Sound.step {i : Input} (h : Sound backoffMs.length s) (hs : step backoffMs s i = some s') :
    Sound backoffMs.length s' ∧
      (s.state = .disposed → s'.state = .disposed ∧ s'.calls = s.calls) ∧
      ((∀ k, i ≠ .settles k) → s.flights ≠ [] → s'.flights ≠ [] ∧ s'.begun = s.begun ∧
        (s.wanted = true → s'.wanted = true)) := by
  cases i with
  | request reconnect =>
    obtain ⟨hsound, hdisposed, hflying⟩ := h.request hs
    refine ⟨hsound, hdisposed, fun _ hflies => ?_⟩
    obtain ⟨hwanted, hbegun, hsame⟩ := hflying hflies
    exact ⟨by rwa [hsame], hbegun, fun hw => by rw [hwanted, hw, Bool.true_or]⟩
  | dispose =>
    cases hs
    have hresolved := @Sound.resolve _ _ none h
    refine ⟨⟨?_, hresolved.bounded, hresolved.timer, fun hlive => absurd rfl hlive⟩,
      fun _ => ⟨rfl, rfl⟩, fun _ hflies => ⟨by simpa [Controller.dispose] using hflies, rfl, id⟩⟩
    exact hresolved.single.imp (fun hnone => ⟨hnone.1, .inr rfl⟩)
      fun ⟨f, hone, _⟩ => ⟨f, hone, nofun⟩
  | setReady ready =>
    cases hs
    exact ⟨⟨h.single, h.bounded, h.timer, h.wanted⟩, fun hd => ⟨hd, rfl⟩,
      fun _ hflies => ⟨hflies, rfl, id⟩⟩
  | timerFires =>
    simp only [InitialCatchUp.step, Controller.timerFires] at hs
    split at hs <;> cases hs
    exact ⟨h.resolve, fun hd => ⟨hd, rfl⟩, fun _ hflies => ⟨by simpa using hflies, rfl, id⟩⟩
  | resumes k =>
    obtain ⟨hsound, hdisposed, hwanted, hbegun, hflies⟩ := h.goesOn (fun f p hf hp => by
      split at hp <;> cases hp
      next n hstage =>
      simp only [Flight.Bounded, hstage] at hf
      exact flies_afterBackoff hf.1 hf.2) hs
    exact ⟨hsound, hdisposed, fun _ _ => ⟨hflies, hbegun, hwanted.trans⟩⟩
  | catchUpEnds k outcome =>
    obtain ⟨hsound, hdisposed, hwanted, hbegun, hflies⟩ := h.goesOn (fun f p hf hp => by
      split at hp <;> cases hp
      next n hstage =>
      simp only [Flight.Bounded, hstage] at hf
      exact flies_afterCatchUp hf.1 hf.2) hs
    exact ⟨hsound, hdisposed, fun _ _ => ⟨hflies, hbegun, hwanted.trans⟩⟩
  | resendEnds k ok =>
    obtain ⟨hsound, hdisposed, hwanted, hbegun, hflies⟩ := h.goesOn (fun f p hf hp => by
      split at hp <;> cases hp
      next n hstage =>
      simp only [Flight.Bounded, hstage] at hf
      exact flies_afterResend hf.1 hf.2) hs
    exact ⟨hsound, hdisposed, fun _ _ => ⟨hflies, hbegun, hwanted.trans⟩⟩
  | settles k =>
    obtain ⟨hsound, hdisposed, -⟩ := h.settles hs
    exact ⟨hsound, hdisposed, fun hno => absurd rfl (hno k)⟩

theorem Flight.Bounded.le {steps : Nat} (h : f.Bounded steps) : f.attempts ≤ steps := by
  unfold Flight.Bounded at h
  split at h <;> omega

/-! ## 4. The promises -/

/-- What the controller promises in a state, for whatever comes next. -/
structure Controlled (backoffMs : List Nat) (s : Controller) : Prop where
  single : s.flights.length ≤ 1
  attempts : ∀ f ∈ s.flights, f.attempts ≤ backoffMs.length
  /-- Whatever a flight waits for, it goes on with, and one that has settled ends. -/
  goesOn : ∀ (k : Nat) (f : Flight) (outcome : Outcome) (ok : Bool), s.flights[k]? = some f →
    (step backoffMs s (f.stage.next k outcome ok)).isSome
  /-- A reconnect requested during a flight begins no other and is remembered to its end. -/
  requested : s.flights ≠ [] → ∀ s', step backoffMs s (.request true) = some s' →
    ∀ t, Reaches (step backoffMs) (fun _ i => ∀ k, i ≠ .settles k) s' t →
      t.wanted = true ∧ t.begun = s.begun
  settles : ∀ k s', step backoffMs s (.settles k) = some s' →
    s'.begun = s.begun +
      (if s.state ≠ .disposed ∧ s.wanted = true ∧ s.ready = true then 1 else 0) ∧
    (s'.begun ≠ s.begun → ∃ rest, s'.calls = s.calls ++ .resetForReconnect :: rest)
  disposed : ∀ s', step backoffMs s .dispose = some s' →
    ∀ t, Reaches (step backoffMs) (fun _ _ => True) s' t →
      t.state = .disposed ∧ t.calls = s.calls

theorem Sound.goesOn_isSome {k : Nat} {outcome : Outcome} {ok : Bool}
    (h : Sound backoffMs.length s) (hk : s.flights[k]? = some f) :
    (InitialCatchUp.step backoffMs s (f.stage.next k outcome ok)).isSome := by
  cases hstage : f.stage with
  | catchingUp n | resending n | resumed n =>
    simp [Stage.next, InitialCatchUp.step, InitialCatchUp.goesOn, hk, hstage]
  | waiting n =>
    have htimer := h.timer f (List.mem_of_getElem? hk) n hstage
    simp [Stage.next, InitialCatchUp.step, Controller.timerFires, htimer]
  | settled =>
    obtain ⟨id, stage, attempts⟩ := f
    subst hstage
    simp only [Stage.next, InitialCatchUp.step, Controller.settles, hk, Option.isSome_map]
    split <;> rfl

theorem Sound.requested {t : Controller} (h : Sound backoffMs.length s) (hflies : s.flights ≠ [])
    (hs : InitialCatchUp.step backoffMs s (.request true) = some s')
    (ht : Reaches (InitialCatchUp.step backoffMs) (fun _ i => ∀ k, i ≠ .settles k) s' t) :
    t.wanted = true ∧ t.begun = s.begun := by
  obtain ⟨hsound, -, hflying⟩ := h.request hs
  obtain ⟨hwanted, hbegun, hsame⟩ := hflying hflies
  have hinv : Sound backoffMs.length t ∧ t.flights ≠ [] ∧ t.wanted = true ∧ t.begun = s.begun := by
    refine ht.invariant (P := fun t => Sound backoffMs.length t ∧ t.flights ≠ [] ∧
      t.wanted = true ∧ t.begun = s.begun)
      ⟨hsound, by rwa [hsame], by rw [hwanted, Bool.or_true], hbegun⟩ ?_
    rintro u i u' ⟨hu, hflies, hwanted, hbegun⟩ hno hstep
    obtain ⟨hu', -, hkept⟩ := hu.step hstep
    obtain ⟨hflies', hbegun', hwanted'⟩ := hkept hno hflies
    exact ⟨hu', hflies', hwanted' hwanted, hbegun'.trans hbegun⟩
  exact hinv.2.2

theorem Sound.disposed {t : Controller} (h : Sound backoffMs.length s)
    (hs : InitialCatchUp.step backoffMs s .dispose = some s')
    (ht : Reaches (InitialCatchUp.step backoffMs) (fun _ _ => True) s' t) :
    t.state = .disposed ∧ t.calls = s.calls := by
  have hinv : Sound backoffMs.length t ∧ t.state = .disposed ∧ t.calls = s.calls := by
    refine ht.invariant (P := fun t => Sound backoffMs.length t ∧ t.state = .disposed ∧
      t.calls = s.calls) ⟨(h.step hs).1, ?_⟩ ?_
    · cases hs
      exact ⟨rfl, rfl⟩
    rintro u i u' ⟨hu, hstate, hcalls⟩ - hstep
    obtain ⟨hu', hkept, -⟩ := hu.step hstep
    exact ⟨hu', (hkept hstate).1, (hkept hstate).2.trans hcalls⟩
  exact hinv.2

/-- **The controller's promises** hold in every state that is reached. -/
theorem catch_up_controlled (h : Reaches (step backoffMs) (fun _ _ => True) start s) :
    Controlled backoffMs s := by
  have hsound : Sound backoffMs.length s :=
    h.invariant ⟨.inl ⟨rfl, .inl rfl⟩, nofun, nofun, fun _ => rfl⟩
      fun _ _ _ hs _ => fun h => (hs.step h).1
  refine ⟨?_, fun f hf => (hsound.bounded f hf).le, fun k f outcome ok => hsound.goesOn_isSome,
    fun hflies s' hs t => hsound.requested hflies hs, fun k s' hs => (hsound.settles hs).2.2,
    fun s' hs t => hsound.disposed hs⟩
  rcases hsound.single with ⟨hnone, -⟩ | ⟨f, hone, -⟩ <;> simp [*]

/-- A reconnect while the first attempt waits for its retry: the flight that follows begins with
    `resetForReconnect`, and a dispose during it is the last word. -/
theorem catch_up_controlled_reconnect : ∃ s s' s'', (s.wanted = true ∧ s.ready = true ∧
        s.begun = 1 ∧ s.calls = [.catchUp, .catchUp, .resendPending]) ∧
      Controlled [0, 25, 75] s ∧ step [0, 25, 75] s (.settles 0) = some s' ∧
      s'.begun = 2 ∧ step [0, 25, 75] s' .dispose = some s'' ∧
      Controlled [0, 25, 75] s'' ∧ s''.state = .disposed ∧ s''.calls = s'.calls := by
  obtain ⟨s, h, hp⟩ := Reaches.of_exec (step [0, 25, 75]) (fun _ _ => True) start
    [.setReady true, .request false, .catchUpEnds 0 .timeout, .request true, .timerFires,
      .resumes 0, .catchUpEnds 0 .complete, .resendEnds 0 true]
    (fun s => decide (s.wanted = true ∧ s.ready = true ∧ s.begun = 1 ∧
      s.calls = [.catchUp, .catchUp, .resendPending] ∧ s.state ≠ .disposed ∧
      (step [0, 25, 75] s (.settles 0)).isSome)) (by decide)
  obtain ⟨hwanted, hready, hbegun, hcalls, hlive, hends⟩ := of_decide_eq_true hp
  obtain ⟨s', hs'⟩ := Option.isSome_iff_exists.mp hends
  have hcontrolled := catch_up_controlled h
  have h' := h.step trivial hs'
  have h'' : step [0, 25, 75] s' .dispose = some s'.dispose := rfl
  refine ⟨s, s', s'.dispose, ⟨hwanted, hready, hbegun, hcalls⟩, hcontrolled, hs', ?_, h'',
    catch_up_controlled (h'.step trivial h''),
    (catch_up_controlled h').disposed _ h'' _ .start⟩
  rw [(hcontrolled.settles 0 s' hs').1, hbegun, if_pos ⟨hlive, hwanted, hready⟩]

end WebOfTrust.InitialCatchUp
