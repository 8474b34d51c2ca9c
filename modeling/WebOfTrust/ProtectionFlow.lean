/-
  **The change of the protection** (`flows/protection.ts`; `identity/runtime.ts`: `keystoreStore`,
  `setHead`, `rewrap`, `keystoreRemove`).

  A change is a list of steps, each a command on the vault or the keystore.  After a failure the
  machine takes the current mode from the path alone.  It forgets that the head is set already
  when the entry of the keystore cannot be removed (`mode_forgotten`).
-/
import WebOfTrust.SeedVault
import WebOfTrust.Machine

namespace WebOfTrust

open Machine

/-! ## 1. The machine -/

/-- A passphrase, in the units that its length counts. -/
abbrev Passphrase := List UInt16

inductive ProtectionTarget where
  | passphrase
  | passphraseBiometric
deriving DecidableEq

def ProtectionTarget.mode : ProtectionTarget → ProtectionMode
  | .passphrase => .passphrase
  | .passphraseBiometric => .passphraseBiometric

inductive PlanStep where
  | ks
  | head
  | ksRemove
  | rewrap
deriving DecidableEq

def PlanStep.InOrder (written ok : Bool) : PlanStep → Prop
  | .ks => True
  | .ksRemove => ok = true
  | .head | .rewrap => written = true → ok = true

instance (written ok : Bool) : ∀ id : PlanStep, Decidable (id.InOrder written ok)
  | .ks => isTrue trivial
  | .ksRemove => inferInstanceAs (Decidable (ok = true))
  | .head | .rewrap => inferInstanceAs (Decidable (written = true → ok = true))

def planFor : ProtectionMode → ProtectionTarget → Option (List PlanStep)
  | .passphrase, .passphraseBiometric => some [.ks, .head]
  | .passphraseBiometric, .passphrase => some [.head, .ksRemove]
  | .biometricOnly, .passphraseBiometric => some [.rewrap, .ks]
  | .biometricOnly, .passphrase => some [.rewrap, .ks, .head, .ksRemove]
  | _, _ => none

inductive ProtectionEffect where
  | prove (passphrase : Option Passphrase)
  | ks
  | ksRemove
  | head (mode : ProtectionTarget)
  | rewrap (passphrase : Passphrase)

def ProtectionEffect.id : ProtectionEffect → Option PlanStep
  | .prove _ => none
  | .ks => some .ks
  | .ksRemove => some .ksRemove
  | .head _ => some .head
  | .rewrap _ => some .rewrap

inductive FailReason where
  | keystore
  | head
  | rewrap
deriving DecidableEq

inductive ProtectionState where
  | choose (current : ProtectionMode) (lastAccess : Bool)
  | proveCurrent (current : ProtectionMode) (target : ProtectionTarget) (value : Passphrase)
    (busy wrong : Bool)
  | provingBiometric (current : ProtectionMode) (target : ProtectionTarget) (cancelled : Bool)
  | newPassphrase (current : ProtectionMode) (target : ProtectionTarget) (p1 p2 : Passphrase)
  | applying (current : ProtectionMode) (target : ProtectionTarget) (plan : List PlanStep)
    (step : Nat) (passphrase : Option Passphrase)
  | done (target : ProtectionTarget)
  | failed (current : ProtectionMode) (target : ProtectionTarget) (reason : FailReason)
    (partly : Bool)
  | exit
deriving DecidableEq

inductive ProtectionEvent where
  | select (target : ProtectionTarget)
  | value (value : Passphrase)
  | p1 (value : Passphrase)
  | p2 (value : Passphrase)
  | submit
  | retry
  /-- `back` and `close`. -/
  | close
  | proved (run : Nat) (ok : Bool)
  | result (id : PlanStep) (run : Nat) (ok : Bool)

structure ProtectionFlow where
  run : Nat
  state : ProtectionState

namespace ProtectionFlow

variable (f : ProtectionFlow)

def effectFor (target : ProtectionTarget) (passphrase : Option Passphrase) :
    PlanStep → ProtectionEffect
  | .ks => .ks
  | .head => .head target
  | .ksRemove => .ksRemove
  | .rewrap => .rewrap (passphrase.getD [])

def go (state : ProtectionState) : ProtectionFlow × List (Nat × ProtectionEffect) :=
  ({ f with state }, [])

def emit (state : ProtectionState) (effect : ProtectionEffect) :
    ProtectionFlow × List (Nat × ProtectionEffect) :=
  (⟨f.run + 1, state⟩, [(f.run + 1, effect)])

def transition : ProtectionEvent → ProtectionFlow × List (Nat × ProtectionEffect)
  | .close =>
    match f.state with
    | .applying .. | .exit => (f, [])
    | _ => (⟨f.run + 1, .exit⟩, [])
  | .select target =>
    match f.state with
    | .choose current _ =>
      if planFor current target = none then f.go (.choose current true)
      else if current = .biometricOnly then
        f.emit (.provingBiometric current target false) (.prove none)
      else f.go (.proveCurrent current target [] false false)
    | _ => (f, [])
  | .value value =>
    match f.state with
    | .proveCurrent current target _ busy _ => f.go (.proveCurrent current target value busy false)
    | _ => (f, [])
  | .p1 value =>
    match f.state with
    | .newPassphrase current target _ p2 => f.go (.newPassphrase current target value p2)
    | _ => (f, [])
  | .p2 value =>
    match f.state with
    | .newPassphrase current target p1 _ => f.go (.newPassphrase current target p1 value)
    | _ => (f, [])
  | .submit =>
    match f.state with
    | .proveCurrent current target value false wrong =>
      if value = [] then (f, [])
      else f.emit (.proveCurrent current target value true wrong) (.prove (some value))
    | .newPassphrase current target p1 p2 =>
      if p1.length < 8 ∨ p1 ≠ p2 then (f, [])
      else
        f.emit (.applying current target ((planFor current target).getD []) 0 (some p1))
          (effectFor target (some p1) .rewrap)
    | _ => (f, [])
  | .retry =>
    match f.state with
    | .provingBiometric current target _ =>
      f.emit (.provingBiometric current target false) (.prove none)
    | .failed current _ _ partly =>
      (⟨f.run + 1, .choose (if partly then .passphraseBiometric else current) false⟩, [])
    | _ => (f, [])
  | .proved run ok =>
    if run ≠ f.run then (f, [])
    else
      match f.state, ok with
      | .proveCurrent current target _ _ _, false =>
        f.go (.proveCurrent current target [] false true)
      | .proveCurrent current target _ _ _, true =>
        match (planFor current target).getD [] with
        | [] => f.go (.done target)
        | first :: rest =>
          f.emit (.applying current target (first :: rest) 0 none) (effectFor target none first)
      | .provingBiometric current target _, false => f.go (.provingBiometric current target true)
      | .provingBiometric current target _, true => f.go (.newPassphrase current target [] [])
      | _, _ => (f, [])
  | .result id run ok =>
    match f.state with
    | .applying current target plan step passphrase =>
      if plan[step]? ≠ some id ∨ run ≠ f.run then (f, [])
      else if ok = false then
        let reason := match id with
          | .rewrap => .rewrap
          | .head => .head
          | _ => .keystore
        f.go (.failed current target reason (decide (.rewrap ∈ plan ∧ 0 < step)))
      else
        match plan[step + 1]? with
        | none => f.go (.done target)
        | some next =>
          f.emit (.applying current target plan (step + 1) passphrase)
            (effectFor target passphrase next)
    | _ => (f, [])

end ProtectionFlow

/-! ## 2. The commands -/

/-- What a command leaves as the mode of the head, and its result: `written` is whether the
    vault takes the write, `ok` whether all else goes well. -/
def protectionCommand (head : ProtectionMode) (written ok : Bool) :
    ProtectionEffect → ProtectionMode × Bool
  | .prove _ => (head, ok)
  | .ks => (head, decide (head ≠ .biometricOnly) && ok)
  | .head mode =>
    if head = .biometricOnly then (head, false)
    else if written then (mode.mode, ok)
    else (head, false)
  | .rewrap passphrase =>
    if passphrase.length < 8 then (head, false)
    else if written then (.passphraseBiometric, ok)
    else (head, false)
  | .ksRemove => (head, decide (head = .passphrase) && ok)

/-- `outstanding` are the commands that run. -/
structure ProtectionRun where
  flow : ProtectionFlow
  head : ProtectionMode
  outstanding : List (Nat × ProtectionEffect)

/-- The proof of the current access may be settled at any time, and for any run. -/
inductive ProtectionTurn where
  | event (event : ProtectionEvent)
  | settle (k : Nat) (written ok : Bool)

namespace ProtectionRun

def start (head : ProtectionMode) : ProtectionRun := ⟨⟨0, .choose head false⟩, head, []⟩

variable (s : ProtectionRun)

def take (event : ProtectionEvent) : ProtectionRun :=
  let (flow, effects) := s.flow.transition event
  { s with flow, outstanding := s.outstanding ++ effects.filter fun e => e.2.id.isSome }

def step : ProtectionTurn → Option ProtectionRun
  | .event (.result ..) => none
  | .event event => some (s.take event)
  | .settle k written ok =>
    match s.outstanding[k]? with
    | none => none
    | some (run, effect) =>
      match effect.id with
      | none => none
      | some id =>
        let (head, ok) := protectionCommand s.head written ok effect
        some ({ s with head, outstanding := s.outstanding.eraseIdx k }.take (.result id run ok))

/-- No entry fails to be removed, and no command that has written the head reports a failure. -/
def InOrder : ProtectionTurn → Prop
  | .event _ => True
  | .settle k written ok => ∀ e ∈ s.outstanding[k]?, ∀ id ∈ e.2.id, id.InOrder written ok

instance (s : ProtectionRun) : ∀ i, Decidable (s.InOrder i)
  | .event _ => isTrue trivial
  | .settle k written ok =>
    inferInstanceAs (Decidable (∀ e ∈ s.outstanding[k]?, ∀ id ∈ e.2.id, id.InOrder written ok))

end ProtectionRun

/-! ## 3. Whole runs -/

def PlanStep.set (target : ProtectionTarget) (head : ProtectionMode) : PlanStep → ProtectionMode
  | .head => target.mode
  | .rewrap => .passphraseBiometric
  | _ => head

section

variable {current head : ProtectionMode} {target : ProtectionTarget} {plan : List PlanStep}
  {step : Nat} {id : PlanStep} {passphrase : Option Passphrase} {written ok : Bool}
  {s s' : ProtectionRun}

theorem shown_of_plan (hplan : planFor current target = some plan) (hid : plan[step]? = some id) :
    (plan.take step).foldl (PlanStep.set target) current =
      if id = .ksRemove then .passphrase
      else if .rewrap ∈ plan ∧ 0 < step then .passphraseBiometric
      else current := by
  cases current <;> cases target <;> cases hplan <;>
    rcases step with _ | _ | _ | _ | step <;> cases hid <;> rfl

open ProtectionFlow ProtectionRun

theorem id_effectFor : (effectFor target passphrase id).id = some id := by
  cases id <;> rfl

/-- A command that goes well does its step; one that fails in order leaves the head, and is no
    removal from under a head that needs the passphrase only. -/
theorem protectionCommand_spec (horder : id.InOrder written ok) :
    protectionCommand head written ok (effectFor target passphrase id) = (id.set target head, true) ∨
      protectionCommand head written ok (effectFor target passphrase id) = (head, false) ∧
        (id = .ksRemove → head ≠ .passphrase) := by
  by_cases hlength : (passphrase.getD []).length < 8 <;> cases id <;> cases head <;>
    cases written <;> cases ok <;>
    simp_all [effectFor, protectionCommand, PlanStep.set, PlanStep.InOrder]

/-- The mode of a state is the one in the head.  A command runs only while a plan is applied. -/
def Shown (s : ProtectionRun) : Prop :=
  match s.flow.state with
  | .choose current _ => current = s.head ∧ s.outstanding = []
  | .proveCurrent current _ _ _ _ =>
    current = s.head ∧ s.head ≠ .biometricOnly ∧ s.outstanding = []
  | .provingBiometric current _ _ | .newPassphrase current _ _ _ =>
    current = s.head ∧ s.head = .biometricOnly ∧ s.outstanding = []
  | .applying current target plan step passphrase =>
    planFor current target = some plan ∧
      (plan.take step).foldl (PlanStep.set target) current = s.head ∧
      ∃ id, plan[step]? = some id ∧
        s.outstanding = [(s.flow.run, effectFor target passphrase id)]
  | .failed current _ _ partly =>
    (if partly then .passphraseBiometric else current) = s.head ∧ s.outstanding = []
  | .done _ | .exit => s.outstanding = []

theorem shown_start (head : ProtectionMode) : Shown (start head) := ⟨rfl, rfl⟩

theorem shown_result {run k : Nat} {effect : ProtectionEffect} (h : Shown s)
    (hk : s.outstanding[k]? = some (run, effect)) (hid : effect.id = some id)
    (horder : id.InOrder written ok) :
    Shown ({ s with
      head := (protectionCommand s.head written ok effect).1
      outstanding := s.outstanding.eraseIdx k }.take
        (.result id run (protectionCommand s.head written ok effect).2)) := by
  obtain ⟨⟨frun, state⟩, head, outstanding⟩ := s
  have hone : ∀ x : Nat × ProtectionEffect, outstanding = [x] → k = 0 ∧ x = (run, effect) := by
    rintro x rfl
    cases k with
    | zero => exact ⟨rfl, Option.some.inj hk⟩
    | succ k => cases hk
  cases state with
  | applying current target plan step passphrase =>
    obtain ⟨hplan, hhead, id', hid', hout⟩ := h
    dsimp only at hhead hout
    obtain ⟨rfl, hx⟩ := hone _ hout
    cases hx
    subst hout
    obtain rfl : id' = id := Option.some.inj (id_effectFor.symm.trans hid)
    have hmode := shown_of_plan hplan hid'
    rw [hhead] at hmode
    rcases @protectionCommand_spec head target id' passphrase _ _ horder with
      hok | ⟨hfail, hremove⟩
    · simp only [ProtectionRun.take, transition, hok, hid']
      cases hnext : plan[step + 1]? with
      | none => simp [Shown, go]
      | some next =>
        have htake : plan.take (step + 1) = plan.take step ++ [id'] := by
          rw [List.take_add_one, hid', Option.toList_some]
        simp [Shown, emit, id_effectFor, hplan, hnext, htake, hhead]
    · have hne : id' ≠ .ksRemove := fun heq => hremove heq (by simpa [heq] using hmode)
      rw [if_neg hne] at hmode
      simp only [ProtectionRun.take, transition, hfail, hid']
      simp [Shown, go, hmode]
  | _ =>
    have hnil : outstanding = [] := by first | exact h | exact h.2 | exact h.2.2
    subst hnil
    cases hk

theorem shown_event {event : ProtectionEvent} (h : Shown s)
    (hevent : ∀ id run ok, event ≠ .result id run ok) : Shown (s.take event) := by
  obtain ⟨⟨frun, state⟩, head, outstanding⟩ := s
  cases event with
  | result id run ok => exact absurd rfl (hevent id run ok)
  | close => cases state <;> simp_all [Shown, ProtectionRun.take, transition]
  | value | p1 | p2 => cases state <;> simp_all [Shown, ProtectionRun.take, transition, go]
  | select target =>
    cases state with
    | choose current lastAccess =>
      simp only [ProtectionRun.take, transition]
      split
      · simp_all [Shown, go]
      split <;> simp_all [Shown, go, emit, ProtectionEffect.id]
    | _ => simp_all [Shown, ProtectionRun.take, transition]
  | retry =>
    cases state <;> simp_all [Shown, ProtectionRun.take, transition, emit, ProtectionEffect.id]
  | submit =>
    cases state with
    | proveCurrent current target value busy wrong =>
      cases busy <;> simp only [ProtectionRun.take, transition]
      · split <;> simp_all [Shown, emit, ProtectionEffect.id]
      · simpa [Shown] using h
    | newPassphrase current target p1 p2 =>
      obtain ⟨rfl, hcurrent, rfl⟩ := h
      simp only [ProtectionRun.take, transition]
      split
      · simpa [Shown] using hcurrent
      dsimp only at hcurrent
      subst hcurrent
      cases target <;> simp [Shown, emit, planFor, id_effectFor]
    | _ => simp_all [Shown, ProtectionRun.take, transition]
  | proved run ok =>
    simp only [ProtectionRun.take, transition]
    split
    · simpa using h
    cases state with
    | proveCurrent current target value busy wrong =>
      obtain ⟨rfl, hcurrent, rfl⟩ := h
      cases ok with
      | false => simp [Shown, go, hcurrent]
      | true =>
        dsimp only at hcurrent ⊢
        cases current <;> cases target <;> simp_all [Shown, go, emit, planFor, id_effectFor]
    | provingBiometric current target cancelled =>
      cases ok <;> simp_all [Shown, go]
    | _ => simpa using h

theorem shown_step {i : ProtectionTurn} (h : Shown s) (horder : s.InOrder i)
    (hs : s.step i = some s') : Shown s' := by
  cases i with
  | event event =>
    cases event <;> cases hs <;> exact shown_event h nofun
  | settle k written ok =>
    rw [ProtectionRun.step] at hs
    split at hs
    · cases hs
    next run effect hk =>
    split at hs
    · cases hs
    next id hid =>
    cases hs
    exact shown_result h hk hid (horder _ hk id hid)

end

/-- **The mode that is shown is the one in the head**, where no entry fails to be removed and no
    command that has written the head reports a failure. -/
theorem mode_shown {head current : ProtectionMode} {lastAccess : Bool} {s : ProtectionRun}
    (h : Reaches ProtectionRun.step ProtectionRun.InOrder (.start head) s)
    (hchoose : s.flow.state = .choose current lastAccess) : current = s.head := by
  have hshown : Shown s := by
    apply h.invariant (shown_start head)
    intro _ _ _ hshown horder hs
    exact shown_step hshown horder hs
  rw [Shown, hchoose] at hshown
  exact hshown.1

/-- The biometrics are taken off, up to the commands. -/
def biometricsOff : List ProtectionTurn :=
  [.event (.select .passphrase), .event (.value [112]), .event .submit, .event (.proved 1 true)]

/-- The first command fails, and the retry asks for the mode again. -/
theorem mode_shown_retried : ∃ s,
    Reaches ProtectionRun.step ProtectionRun.InOrder (.start .passphraseBiometric) s ∧
      s.flow.state = .choose .passphraseBiometric false ∧
        ProtectionMode.passphraseBiometric = s.head := by
  obtain ⟨s, hreach, htest⟩ := Reaches.of_exec ProtectionRun.step ProtectionRun.InOrder
    (.start .passphraseBiometric) (biometricsOff.append [.settle 0 false true, .event .retry])
    (fun s => decide (s.flow.state = .choose .passphraseBiometric false)) (by decide)
  have hchoose := of_decide_eq_true htest
  exact ⟨s, hreach, hchoose, mode_shown hreach hchoose⟩

/-- **The head is forgotten** where the entry of the keystore cannot be removed. -/
theorem mode_forgotten :
    ¬ ∀ (head current : ProtectionMode) (lastAccess : Bool) (s : ProtectionRun),
      Reaches ProtectionRun.step (fun _ _ => True) (.start head) s →
      s.flow.state = .choose current lastAccess → current = s.head := by
  intro h
  obtain ⟨s, hreach, htest⟩ := Reaches.of_exec ProtectionRun.step (fun _ _ => True)
    (.start .passphraseBiometric)
    (biometricsOff.append [.settle 0 true true, .settle 0 true false, .event .retry])
    (fun s => decide (s.flow.state = .choose .passphraseBiometric false ∧ s.head = .passphrase))
    (by decide)
  obtain ⟨hchoose, hhead⟩ := of_decide_eq_true htest
  have heq := h _ _ _ s hreach hchoose
  rw [hhead] at heq
  cases heq

end WebOfTrust
