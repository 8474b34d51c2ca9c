/-
  **The register of what the identity runtime holds** (`resources.ts`, LIFECYCLE.md).

  Openings and secret bytes belong to leases.  The host calls of an opening run one after the
  other (`tail`); an answer of the host may come late or never, and what it sets off runs with
  it.  An opening, a lease and a byte array are told apart by their place; `arrived`,
  `dropped` and `closedByHost` are history.
-/
import Mathlib.Data.List.Nodup
import WebOfTrust.Machine

namespace WebOfTrust

open Machine List

/-! ## 1. Leases and openings -/

abbrev LeaseId := Nat
abbrev OpeningId := Nat

abbrev SecretId := Nat

inductive LeaseRole where
  | session
  | pending
  | call

inductive OpeningState where
  | active
  | closing
  | closed
deriving DecidableEq

inductive ShutdownPhase where
  | quiesce
  | seal
deriving DecidableEq

structure LeaseRecord where
  ns : String
  role : LeaseRole
  holder : Option OpeningId
  released : Bool
  secrets : List SecretId

abbrev RunId := Nat

inductive HostCall where
  | use
  | phase (ph : ShutdownPhase)
  /-- A phase that a close attempt makes up for, before the phases in `rest`. -/
  | shut (run : RunId) (ph : ShutdownPhase) (rest : List ShutdownPhase)
  | close (run : RunId)

structure OpeningRecord where
  ns : String
  lease : LeaseId
  state : OpeningState
  done : List ShutdownPhase
  tail : List HostCall
  closing : Option RunId

def OpeningRecord.toClosing (r : OpeningRecord) : OpeningRecord :=
  if r.state = .active then { r with state := .closing } else r

def OpeningRecord.ended (run : RunId) (ok : Bool) (r : OpeningRecord) : OpeningRecord :=
  { r with
    state := if ok then .closed else r.state
    closing := if r.closing = some run then none else r.closing }

structure CloseAttempt where
  run : RunId
  opening : OpeningId

structure Resources where
  leases : List LeaseRecord
  adopted : List OpeningRecord
  /-- The register. -/
  openings : List OpeningId
  attempts : List CloseAttempt
  nextRun : RunId
  /-- Released leases whose bytes are overwritten after an attempt. -/
  waiting : List (LeaseId × RunId)
  zeroed : List SecretId
  arrived : List (LeaseId × SecretId)
  dropped : List SecretId
  closedByHost : List OpeningId

namespace Resources

def start : Resources := ⟨[], [], [], [], 0, [], [], [], [], []⟩

variable (s : Resources)

section

variable (lease : LeaseId)

def holder : Option OpeningId :=
  (s.leases[lease]?).bind (·.holder)

def secrets : List SecretId :=
  (s.leases[lease]?).elim [] (·.secrets)

def released : Bool := (s.leases[lease]?).any (·.released)

section

variable (o : OpeningId)

def opening : Option OpeningRecord := s.adopted[o]?

def state : Option OpeningState := (s.opening o).map (·.state)

/-! ## 2. What the operations are made of -/

def setHolder (holder : Option OpeningId) : Resources :=
  { s with leases := s.leases.modify lease fun l => { l with holder } }

def setSecrets (secrets : List SecretId) : Resources :=
  { s with leases := s.leases.modify lease fun l => { l with secrets } }

def setReleased : Resources :=
  { s with leases := s.leases.modify lease fun l => { l with released := true } }

def setOpening (f : OpeningRecord → OpeningRecord) : Resources :=
  { s with adopted := s.adopted.modify o f }

def wipe : Resources :=
  { s.setSecrets lease [] with zeroed := s.zeroed ++ s.secrets lease }

/-- The next host call of a close attempt: a phase that is not done yet, or the close. -/
def nextCall (run : RunId) (done : List ShutdownPhase) : List ShutdownPhase → HostCall
  | [] => .close run
  | ph :: rest => if ph ∈ done then nextCall run done rest else .shut run ph rest

def serial (call : HostCall) : Resources :=
  s.setOpening o fun r => { r with tail := r.tail ++ [call] }

def attempt (done : List ShutdownPhase) : Resources :=
  { (s.serial o (nextCall s.nextRun done [.quiesce, .seal])).setOpening o
      fun r => { r with closing := some s.nextRun } with
    attempts := s.attempts ++ [{ run := s.nextRun, opening := o }]
    nextRun := s.nextRun + 1 }

/-- `close`, and the attempt that it answers with: none where the opening is closed. -/
def close : Resources × Option RunId :=
  match s.opening o with
  | none => (s, none)
  | some r =>
    if r.state = .closed then (s, none)
    else match r.closing with
      | some run => (s, some run)
      | none => (s.attempt o r.done, some s.nextRun)

def toClosing : Resources := s.setOpening o (·.toClosing)

def wipeWaiting (run : RunId) : Resources :=
  ((s.waiting.filter fun w => decide (w.2 = run)).map (·.1)).foldl wipe
    { s with waiting := s.waiting.filter fun w => decide (w.2 ≠ run) }

def ended (run : RunId) (ok : Bool) (tail : List HostCall) : Resources :=
  { s.setOpening o fun r => OpeningRecord.ended run ok { r with tail } with
    openings := if ok then s.openings.erase o else s.openings
    closedByHost := if ok then s.closedByHost ++ [o] else s.closedByHost
    attempts := s.attempts.filter fun a => decide (a.run ≠ run) }

end

/-! ## 3. Operations -/

def keep (bytes : List SecretId) : Resources :=
  let s := { s.setSecrets lease (s.secrets lease ∪ bytes) with
    arrived := s.arrived ++ bytes.map (lease, ·) }
  if s.released lease then s.wipe lease else s

def drop (bytes : SecretId) : Resources :=
  { s.setSecrets lease ((s.secrets lease).filter fun b => decide (b ≠ bytes)) with
    zeroed := s.zeroed ++ [bytes]
    dropped := s.dropped ++ [bytes] }

/-- Registers a fresh opening; into a released lease, or one that has an opening, it goes straight
    to closing. -/
def adopt (ns : String) : Resources :=
  let o := s.adopted.length
  let registered : Resources := { s with
    adopted := s.adopted ++ [⟨ns, lease, .active, [], [], none⟩]
    openings := s.openings ++ [o] }
  if s.released lease = true ∨ (s.holder lease).isSome = true then
    ((registered.toClosing o).close o).1
  else registered.setHolder lease (some o)

end

variable (source target : LeaseId)

/-- The opening of `source` goes to `target`, unless `target` has one. -/
def moveHolder : Resources :=
  match s.holder source, s.holder target with
  | some o, none =>
    ((s.setHolder target (some o)).setOpening o fun r => { r with lease := target }).setHolder
      source none
  | _, _ => s

/-- The bytes of `source` go to `target`. -/
def moveSecrets : Resources :=
  let moved := s.secrets source
  { (s.setSecrets target (s.secrets target ∪ moved)).setSecrets source [] with
    arrived :=
      if source = target then s.arrived
      else s.arrived.filter (fun p => !(decide (p.1 = source) && decide (p.2 ∈ moved))) ++
        moved.map (target, ·) }

/-- Handover; a released `target` takes nothing. -/
def move : Resources :=
  if s.released target then s
  else (s.moveHolder source target).moveSecrets source target

def use (o : OpeningId) : Resources :=
  if s.state o = some .active then s.serial o .use else s

def phase (o : OpeningId) (ph : ShutdownPhase) : Resources :=
  if s.state o = some .active then s.serial o (.phase ph) else s

def release (lease : LeaseId) : Resources :=
  let s' := (s.setReleased lease).setHolder lease none
  match s.holder lease with
  | none => s'.wipe lease
  | some o =>
    match (s'.toClosing o).close o with
    | (s', some run) => { s' with waiting := s'.waiting ++ [(lease, run)] }
    | (s', none) => s'.wipe lease

/-- Closes every closing opening of the namespace again; one whose attempt runs is joined. -/
def retry (ns : Option String) : Resources :=
  (s.openings.filter fun o => (s.opening o).any fun r =>
    decide (r.state = .closing ∧ ∀ n ∈ ns, r.ns = n)).foldl (fun s o => (s.close o).1) s

def answer (o : OpeningId) (ok : Bool) : Option Resources :=
  match s.opening o with
  | none => none
  | some r =>
    let done (ph : ShutdownPhase) := if ok then ph :: r.done else r.done
    match r.tail with
    | [] => none
    | .use :: tail => some (s.setOpening o fun r => { r with tail })
    | .phase ph :: tail => some (s.setOpening o fun r => { r with tail, done := done ph })
    | .shut run ph rest :: tail =>
      some ((s.setOpening o fun r => { r with tail, done := done ph }).serial o
        (nextCall run (done ph) rest))
    | .close run :: tail => some ((s.ended o run ok tail).wipeWaiting run)

end Resources

/-! ## 4. Steps -/

inductive RegisterInput where
  | lease (ns : String) (role : LeaseRole)
  | keep (lease : LeaseId) (bytes : List SecretId)
  | drop (lease : LeaseId) (bytes : SecretId)
  | adopt (lease : LeaseId) (ns : String)
  | move (source target : LeaseId)
  | use (o : OpeningId)
  | phase (o : OpeningId) (ph : ShutdownPhase)
  | release (lease : LeaseId)
  | retry (ns : Option String)
  | answer (o : OpeningId) (ok : Bool)

def RegisterInput.leases : RegisterInput → List LeaseId
  | .keep l _ | .drop l _ | .adopt l _ | .release l => [l]
  | .move source target => [source, target]
  | _ => []

def registerStep (s : Resources) (i : RegisterInput) : Option Resources :=
  if i.leases.any (fun lease => decide (s.leases.length ≤ lease)) then none
  else match i with
    | .lease ns role => some { s with leases := s.leases ++ [⟨ns, role, none, false, []⟩] }
    | .keep lease bytes => some (s.keep lease bytes)
    | .drop lease bytes => some (s.drop lease bytes)
    | .adopt lease ns => some (s.adopt lease ns)
    | .move source target => some (s.move source target)
    | .use o => some (s.use o)
    | .phase o ph => some (s.phase o ph)
    | .release lease => some (s.release lease)
    | .retry ns => some (s.retry ns)
    | .answer o ok => s.answer o ok

/-! ## 5. Lookups -/

open Resources

section

variable {s s' : Resources} {l l' : LeaseId} {o o' : OpeningId} {r : OpeningRecord}
  {f : OpeningRecord → OpeningRecord} {h : Option OpeningId} {bs : List SecretId}

theorem holder_setHolder_none :
    (s.setHolder l none).holder l' = if l = l' then none else s.holder l' := by
  rw [holder, setHolder, getElem?_modify]
  split_ifs with hl
  · cases s.leases[l']? <;> rfl
  · rw [Option.map_eq_map, Option.map_id']
    rfl

theorem holder_setHolder_some (hh : (s.setHolder l (some o)).holder l' = some o') :
    (l = l' ∧ o = o') ∨ (l ≠ l' ∧ s.holder l' = some o') := by
  rw [holder, setHolder, getElem?_modify] at hh
  split_ifs at hh with hl
  · cases hlease : s.leases[l']? <;> rw [hlease] at hh <;> cases hh
    exact .inl ⟨hl, rfl⟩
  · rw [Option.map_eq_map, Option.map_id'] at hh
    exact .inr ⟨hl, hh⟩

@[simp] theorem holder_setSecrets : (s.setSecrets l bs).holder l' = s.holder l' := by
  rw [holder, setSecrets, getElem?_modify, holder]
  cases s.leases[l']? with
  | none => rfl
  | some x => split_ifs <;> rfl

@[simp] theorem holder_setReleased : (s.setReleased l).holder l' = s.holder l' := by
  rw [holder, setReleased, getElem?_modify, holder]
  cases s.leases[l']? with
  | none => rfl
  | some x => split_ifs <;> rfl

@[simp] theorem released_setHolder : (s.setHolder l h).released l' = s.released l' := by
  rw [released, setHolder, getElem?_modify, released]
  cases s.leases[l']? with
  | none => rfl
  | some x => split_ifs <;> rfl

@[simp] theorem released_setSecrets : (s.setSecrets l bs).released l' = s.released l' := by
  rw [released, setSecrets, getElem?_modify, released]
  cases s.leases[l']? with
  | none => rfl
  | some x => split_ifs <;> rfl

theorem released_setReleased (hl : l < s.leases.length) :
    (s.setReleased l).released l' = if l = l' then true else s.released l' := by
  rw [released, setReleased, getElem?_modify, released]
  split_ifs with heq
  · rw [← heq, getElem?_eq_getElem hl]
    rfl
  · rw [Option.map_eq_map, Option.map_id']

@[simp] theorem secrets_setHolder : (s.setHolder l h).secrets l' = s.secrets l' := by
  rw [secrets, setHolder, getElem?_modify, secrets]
  cases s.leases[l']? with
  | none => rfl
  | some x => split_ifs <;> rfl

@[simp] theorem secrets_setReleased : (s.setReleased l).secrets l' = s.secrets l' := by
  rw [secrets, setReleased, getElem?_modify, secrets]
  cases s.leases[l']? with
  | none => rfl
  | some x => split_ifs <;> rfl

theorem secrets_setSecrets (hl : l < s.leases.length) :
    (s.setSecrets l bs).secrets l' = if l = l' then bs else s.secrets l' := by
  rw [secrets, setSecrets, getElem?_modify, secrets]
  split_ifs with heq
  · rw [← heq, getElem?_eq_getElem hl]
    rfl
  · rw [Option.map_eq_map, Option.map_id']

theorem secrets_setSecrets_nil :
    (s.setSecrets l []).secrets l' = if l = l' then [] else s.secrets l' := by
  rw [secrets, setSecrets, getElem?_modify, secrets]
  split_ifs with heq
  · cases s.leases[l']? <;> rfl
  · rw [Option.map_eq_map, Option.map_id']

theorem opening_setOpening (hr : (s.setOpening o f).opening o' = some r) :
    ∃ x, s.opening o' = some x ∧ r = if o = o' then f x else x := by
  rw [opening, setOpening, getElem?_modify, Option.map_eq_map, Option.map_eq_some_iff] at hr
  obtain ⟨x, hx, rfl⟩ := hr
  exact ⟨x, hx, rfl⟩

theorem opening_setOpening_self (hr : s.opening o = some r) :
    (s.setOpening o f).opening o = some (f r) := by
  rw [opening] at hr
  simp [opening, setOpening, hr]

theorem opening_setOpening_ne (hne : o ≠ o') : (s.setOpening o f).opening o' = s.opening o' := by
  simp [opening, setOpening, hne]

end

/-! ## 6. Owners and attempts -/

def HostCall.run? : HostCall → Option RunId
  | .shut run _ _ | .close run => some run
  | _ => none

def OpeningRecord.runs (r : OpeningRecord) : List RunId := r.tail.filterMap (·.run?)

/-- An attempt has one host call at a time, and an active opening has no attempt. -/
structure OpeningRecord.Sound (r : OpeningRecord) : Prop where
  calls : ∀ run ∈ r.runs, r.closing = some run
  once : r.runs.Nodup
  quiet : r.state = .active → r.closing = none

/-- A lease holds active openings that name it, and a released one holds none. -/
structure HeldInv (s : Resources) : Prop where
  held : ∀ l o, s.holder l = some o → ∃ r, s.opening o = some r ∧ r.lease = l ∧ r.state = .active
  detached : ∀ l, s.released l = true → s.holder l = none

/-- What is not closed is registered, and an opening has one attempt at a time. -/
structure OpeningsInv (s : Resources) : Prop where
  registered : ∀ o r, s.opening o = some r → r.state ≠ .closed → o ∈ s.openings
  closed : ∀ o r, s.opening o = some r → r.state = .closed → o ∈ s.closedByHost
  sound : ∀ o r, s.opening o = some r → r.Sound
  attempts : ∀ a ∈ s.attempts, ∃ r, s.opening a.opening = some r ∧ r.closing = some a.run
  running : ∀ o r run, s.opening o = some r → r.closing = some run → ⟨run, o⟩ ∈ s.attempts
  fresh : ∀ a ∈ s.attempts, a.run < s.nextRun
  single : (s.attempts.map (·.run)).Nodup

section

variable {s s' : Resources} {l l' : LeaseId} {o : OpeningId} {r : OpeningRecord}
  {f : OpeningRecord → OpeningRecord} {call : HostCall} {run : RunId} {ok : Bool}

theorem HeldInv.mono (h : HeldInv s) (hholder : ∀ l, s'.holder l = s.holder l)
    (hreleased : ∀ l, s'.released l = s.released l)
    (hopening : ∀ l o r, s.holder l = some o → s.opening o = some r → r.state = .active →
      ∃ r', s'.opening o = some r' ∧ r'.lease = r.lease ∧ r'.state = .active) : HeldInv s' where
  held l o hh := by
    obtain ⟨r, hr, hlease, hactive⟩ := h.held l o ((hholder l).symm.trans hh)
    obtain ⟨r', hr', hlease', hactive'⟩ := hopening l o r ((hholder l).symm.trans hh) hr hactive
    exact ⟨r', hr', hlease'.trans hlease, hactive'⟩
  detached l hl := (hholder l).trans (h.detached l ((hreleased l).symm.trans hl))

theorem HeldInv.of_same (h : HeldInv s) (hholder : ∀ l, s'.holder l = s.holder l)
    (hreleased : ∀ l, s'.released l = s.released l) (hadopted : s'.adopted = s.adopted) :
    HeldInv s' := by
  refine h.mono hholder hreleased fun _ o r _ hr hactive => ⟨r, ?_, rfl, hactive⟩
  rw [opening, hadopted]
  exact hr

theorem HeldInv.setOpening (h : HeldInv s)
    (hf : ∀ l r, s.holder l = some o → s.opening o = some r → r.state = .active →
      (f r).lease = r.lease ∧ (f r).state = .active) : HeldInv (s.setOpening o f) := by
  refine h.mono (fun _ => rfl) (fun _ => rfl) fun l o' r hh hr hactive => ?_
  by_cases heq : o = o'
  · subst heq
    exact ⟨f r, opening_setOpening_self hr, hf l r hh hr hactive⟩
  · exact ⟨r, (opening_setOpening_ne heq).trans hr, rfl, hactive⟩

theorem HeldInv.unique (h : HeldInv s) (hl : s.holder l = some o)
    (hl' : s.holder l' = some o) : l = l' := by
  obtain ⟨r, hr, hlease, -⟩ := h.held l o hl
  obtain ⟨r', hr', hlease', -⟩ := h.held l' o hl'
  rw [hr] at hr'
  cases hr'
  exact hlease.symm.trans hlease'

theorem OpeningsInv.of_same (h : OpeningsInv s) (hadopted : s'.adopted = s.adopted)
    (hopenings : s'.openings = s.openings) (hclosed : s'.closedByHost = s.closedByHost)
    (hattempts : s'.attempts = s.attempts) (hnext : s'.nextRun = s.nextRun) : OpeningsInv s' := by
  have hopening : ∀ o, s'.opening o = s.opening o := fun o => by
    rw [opening, hadopted, opening]
  refine ⟨fun o r hr hne => ?_, fun o r hr hc => ?_, fun o r hr => ?_, fun a ha => ?_,
    fun o r run hr hrun => ?_, fun a ha => ?_, ?_⟩
  · rw [hopenings]
    exact h.registered o r ((hopening o).symm.trans hr) hne
  · rw [hclosed]
    exact h.closed o r ((hopening o).symm.trans hr) hc
  · exact h.sound o r ((hopening o).symm.trans hr)
  · rw [hopening]
    exact h.attempts a (hattempts ▸ ha)
  · rw [hattempts]
    exact h.running o r run ((hopening o).symm.trans hr) hrun
  · rw [hnext]
    exact h.fresh a (hattempts ▸ ha)
  · rw [hattempts]
    exact h.single

theorem OpeningsInv.unique (h : OpeningsInv s) : (s.attempts.map (·.opening)).Nodup := by
  refine (Nodup.of_map _ h.single).map_on fun a ha b hb hab => ?_
  obtain ⟨r, hr, hrun⟩ := h.attempts a ha
  obtain ⟨r', hr', hrun'⟩ := h.attempts b hb
  rw [← hab, hr] at hr'
  cases hr'
  rw [hrun] at hrun'
  cases a
  cases b
  cases hab
  cases hrun'
  rfl

theorem OpeningsInv.setOpening (h : OpeningsInv s)
    (hclosed : ∀ r, (f r).state = .closed ↔ r.state = .closed)
    (hclosing : ∀ r, (f r).closing = r.closing)
    (hsound : ∀ r, s.opening o = some r → r.Sound → (f r).Sound) :
    OpeningsInv (s.setOpening o f) := by
  have hback : ∀ o' y, (s.setOpening o f).opening o' = some y →
      ∃ x, s.opening o' = some x ∧ (y.state = .closed ↔ x.state = .closed) ∧
        y.closing = x.closing ∧ (x.Sound → y.Sound) := by
    intro o' y hy
    obtain ⟨x, hx, rfl⟩ := opening_setOpening hy
    refine ⟨x, hx, ?_⟩
    split_ifs with heq
    · exact ⟨hclosed x, hclosing x, hsound x (heq ▸ hx)⟩
    · exact ⟨Iff.rfl, rfl, fun hs => hs⟩
  refine ⟨fun o' y hy hne => ?_, fun o' y hy hc => ?_, fun o' y hy => ?_, fun a ha => ?_,
    fun o' y run hy hrun => ?_, h.fresh, h.single⟩
  · obtain ⟨x, hx, hstate, -⟩ := hback o' y hy
    exact h.registered o' x hx fun hc => hne (hstate.mpr hc)
  · obtain ⟨x, hx, hstate, -⟩ := hback o' y hy
    exact h.closed o' x hx (hstate.mp hc)
  · obtain ⟨x, hx, -, -, hs⟩ := hback o' y hy
    exact hs (h.sound o' x hx)
  · obtain ⟨x, hx, hrun⟩ := h.attempts a ha
    by_cases heq : o = a.opening
    · refine ⟨f x, ?_, (hclosing x).trans hrun⟩
      rw [← heq] at hx ⊢
      exact opening_setOpening_self hx
    · exact ⟨x, (opening_setOpening_ne heq).trans hx, hrun⟩
  · obtain ⟨x, hx, -, hsame, -⟩ := hback o' y hy
    exact h.running o' x run hx (hsame ▸ hrun)

theorem runs_append : OpeningRecord.runs { r with tail := r.tail ++ [call] } =
    r.runs ++ call.run?.toList := by
  rw [OpeningRecord.runs, filterMap_append, OpeningRecord.runs]
  cases hcall : call.run? <;> simp [hcall]

theorem OpeningsInv.serial (h : OpeningsInv s) (hcall : call.run? = none) :
    OpeningsInv (s.serial o call) := by
  refine h.setOpening (fun _ => Iff.rfl) (fun _ => rfl) fun r _ hs => ?_
  have hruns : OpeningRecord.runs { r with tail := r.tail ++ [call] } = r.runs := by
    rw [runs_append, hcall, Option.toList_none, append_nil]
  exact ⟨fun run hrun => hs.calls run (hruns ▸ hrun), hruns ▸ hs.once, hs.quiet⟩

theorem HeldInv.serial (h : HeldInv s) : HeldInv (s.serial o call) :=
  h.setOpening fun _ _ _ _ hactive => ⟨rfl, hactive⟩

theorem toClosing_closed : r.toClosing.state = .closed ↔ r.state = .closed := by
  rw [OpeningRecord.toClosing]
  split
  · next hactive => simp [hactive]
  · exact Iff.rfl

theorem toClosing_ne_active : r.toClosing.state ≠ .active := by
  rw [OpeningRecord.toClosing]
  split
  · nofun
  · assumption

theorem toClosing_closing : r.toClosing.closing = r.closing := by
  rw [OpeningRecord.toClosing]
  split <;> rfl

theorem toClosing_runs : r.toClosing.runs = r.runs := by
  rw [OpeningRecord.toClosing]
  split <;> rfl

theorem OpeningsInv.toClosing (h : OpeningsInv s) : OpeningsInv (s.toClosing o) := by
  refine h.setOpening (fun _ => toClosing_closed) (fun _ => toClosing_closing) fun r _ hs =>
    ⟨fun run hrun => ?_, ?_, fun hactive => absurd hactive toClosing_ne_active⟩
  · rw [toClosing_closing]
    exact hs.calls run (toClosing_runs ▸ hrun)
  · rw [toClosing_runs]
    exact hs.once

theorem HeldInv.toClosing (h : HeldInv s) (hfree : ∀ l, s.holder l ≠ some o) :
    HeldInv (s.toClosing o) :=
  h.setOpening fun l _ hh => absurd hh (hfree l)

theorem run?_nextCall (run : RunId) (done rest : List ShutdownPhase) :
    (nextCall run done rest).run? = some run := by
  induction rest with
  | nil => rfl
  | cons ph rest ih =>
    rw [nextCall]
    split
    · exact ih
    · rfl

theorem OpeningsInv.attempt (h : OpeningsInv s) {done : List ShutdownPhase}
    (hr : s.opening o = some r) (hstate : r.state ≠ .active) (hnone : r.closing = none) :
    OpeningsInv (s.attempt o done) := by
  have hnoruns : r.runs = [] := by
    refine eq_nil_iff_forall_not_mem.mpr fun run hrun => ?_
    have hcalls := (h.sound o r hr).calls run hrun
    rw [hnone] at hcalls
    cases hcalls
  have hthis : ∃ y, (s.attempt o done).opening o = some y ∧ y.state = r.state ∧
      y.closing = some s.nextRun ∧ y.runs = [s.nextRun] := by
    refine ⟨_, opening_setOpening_self (opening_setOpening_self hr), rfl, rfl, ?_⟩
    refine runs_append.trans ?_
    rw [hnoruns, run?_nextCall]
    rfl
  have hne : ∀ o' : OpeningId, o ≠ o' → (s.attempt o done).opening o' = s.opening o' :=
    fun o' hne => (opening_setOpening_ne hne).trans (opening_setOpening_ne hne)
  obtain ⟨new, hnew, hsame, hclosing, hruns⟩ := hthis
  have hsound : new.Sound := by
    refine ⟨fun run hrun => ?_, hruns ▸ nodup_singleton _,
      fun hactive => absurd (hsame.symm.trans hactive) hstate⟩
    rw [hruns, mem_singleton] at hrun
    rw [hrun]
    exact hclosing
  have hothers : ∀ a ∈ s.attempts, a.opening ≠ o := by
    rintro a ha rfl
    obtain ⟨x, hx, hrun⟩ := h.attempts a ha
    rw [hr] at hx
    cases hx
    rw [hnone] at hrun
    cases hrun
  have hlist : (s.attempt o done).attempts = s.attempts ++ [⟨s.nextRun, o⟩] := rfl
  refine ⟨fun o' y hy hc => ?_, fun o' y hy hc => ?_, fun o' y hy => ?_, fun a ha => ?_,
    fun o' y run hy hrun => ?_, fun a ha => ?_, ?_⟩
  · by_cases heq : o = o'
    · subst heq
      rw [hnew] at hy
      cases hy
      exact h.registered o r hr (hsame ▸ hc)
    · exact h.registered o' y ((hne o' heq).symm.trans hy) hc
  · by_cases heq : o = o'
    · subst heq
      rw [hnew] at hy
      cases hy
      exact h.closed o r hr (hsame ▸ hc)
    · exact h.closed o' y ((hne o' heq).symm.trans hy) hc
  · by_cases heq : o = o'
    · subst heq
      rw [hnew] at hy
      cases hy
      exact hsound
    · exact h.sound o' y ((hne o' heq).symm.trans hy)
  · rw [hlist] at ha
    rcases mem_append.mp ha with ha | ha
    · obtain ⟨x, hx, hrun⟩ := h.attempts a ha
      exact ⟨x, (hne _ (hothers a ha).symm).trans hx, hrun⟩
    · rw [mem_singleton.mp ha]
      exact ⟨new, hnew, hclosing⟩
  · rw [hlist]
    by_cases heq : o = o'
    · subst heq
      rw [hnew] at hy
      cases hy
      rw [hclosing] at hrun
      cases hrun
      exact mem_append_right _ mem_cons_self
    · exact mem_append_left _ (h.running o' y run ((hne o' heq).symm.trans hy) hrun)
  · rw [hlist] at ha
    rcases mem_append.mp ha with ha | ha
    · exact Nat.lt_succ_of_lt (h.fresh a ha)
    · rw [mem_singleton.mp ha]
      exact Nat.lt_succ_self _
  · rw [hlist, map_append, nodup_append]
    refine ⟨h.single, by simp, fun a ha b hb => ?_⟩
    obtain ⟨x, hx, rfl⟩ := mem_map.mp ha
    rw [map_singleton, mem_singleton] at hb
    rw [hb]
    exact Nat.ne_of_lt (h.fresh x hx)

theorem HeldInv.attempt (h : HeldInv s) {done : List ShutdownPhase} :
    HeldInv (s.attempt o done) := by
  have hcalled : HeldInv ((s.serial o (nextCall s.nextRun done [.quiesce, .seal])).setOpening o
        fun r => { r with closing := some s.nextRun }) :=
    h.serial.setOpening fun _ _ _ _ hactive => ⟨rfl, hactive⟩
  exact hcalled.of_same (fun _ => rfl) (fun _ => rfl) rfl

theorem HeldInv.close (h : HeldInv s) : HeldInv (s.close o).1 := by
  rw [Resources.close]
  split
  · exact h
  split
  · exact h
  split
  · exact h
  · exact h.attempt

theorem OpeningsInv.close (h : OpeningsInv s)
    (hstate : ∀ r, s.opening o = some r → r.state ≠ .active) : OpeningsInv (s.close o).1 := by
  rw [Resources.close]
  split
  · exact h
  next r hr =>
  split
  · exact h
  split
  · exact h
  · next hnone => exact h.attempt hr (hstate r hr) hnone

theorem OpeningsInv.close_running (h : OpeningsInv s) (hrun : (s.close o).2 = some run) :
    ∃ a ∈ (s.close o).1.attempts, a.run = run := by
  rw [Resources.close] at hrun ⊢
  split at hrun
  · cases hrun
  next r hr =>
  split at hrun
  · cases hrun
  next hstate =>
  rw [if_neg hstate]
  split at hrun <;> cases hrun
  · next hclosing => exact ⟨_, h.running o r run hr hclosing, rfl⟩
  · exact ⟨_, mem_append_right _ mem_cons_self, rfl⟩

theorem opening_close_state {o' : OpeningId} (hy : (s.close o).1.opening o' = some r) :
    ∃ x, s.opening o' = some x ∧ r.state = x.state := by
  rw [close] at hy
  split at hy
  · exact ⟨r, hy, rfl⟩
  split at hy
  · exact ⟨r, hy, rfl⟩
  split at hy
  · exact ⟨r, hy, rfl⟩
  obtain ⟨x, hx, rfl⟩ := opening_setOpening hy
  obtain ⟨w, hw, rfl⟩ := opening_setOpening hx
  exact ⟨w, hw, by split_ifs <;> rfl⟩

theorem OpeningRecord.Sound.last {tail : List HostCall} (h : r.Sound)
    (htail : r.tail = call :: tail)
    (hcall : call.run? = some run) : r.closing = some run ∧ tail.filterMap (·.run?) = [] := by
  have hruns : r.runs = run :: tail.filterMap (·.run?) := by
    rw [OpeningRecord.runs, htail, filterMap_cons, hcall]
  have hclosing : r.closing = some run := h.calls run (hruns ▸ mem_cons_self)
  refine ⟨hclosing, eq_nil_iff_forall_not_mem.mpr fun run' hrun' => ?_⟩
  have hsame := h.calls run' (hruns ▸ mem_cons_of_mem _ hrun')
  rw [hclosing] at hsame
  cases hsame
  exact (nodup_cons.mp (hruns ▸ h.once)).1 hrun'

theorem OpeningsInv.ended {tail : List HostCall} (h : OpeningsInv s) (hr : s.opening o = some r)
    (htail : r.tail = .close run :: tail) : OpeningsInv (s.ended o run ok tail) := by
  have hsound := h.sound o r hr
  obtain ⟨hclosing, hnoruns⟩ := hsound.last htail rfl
  have hnew : (s.ended o run ok tail).opening o =
      some (OpeningRecord.ended run ok { r with tail }) := opening_setOpening_self hr
  have hne : ∀ o' : OpeningId, o ≠ o' →
      (s.ended o run ok tail).opening o' = s.opening o' := fun o' => opening_setOpening_ne
  have hnone : (OpeningRecord.ended run ok { r with tail }).closing = none := by
    rw [OpeningRecord.ended, hclosing]
    exact if_pos rfl
  refine ⟨fun o' y hy hc => ?_, fun o' y hy hc => ?_, fun o' y hy => ?_, fun a ha => ?_,
    fun o' y run' hy hrun => ?_, fun a ha => h.fresh a (mem_filter.mp ha).1, ?_⟩
  · show o' ∈ if ok then s.openings.erase o else s.openings
    by_cases heq : o = o'
    · subst heq
      rw [hnew] at hy
      cases hy
      cases ok with
      | true => exact absurd rfl hc
      | false => exact h.registered o r hr hc
    · have hmem := h.registered o' y ((hne o' heq).symm.trans hy) hc
      split
      · exact (mem_erase_of_ne (Ne.symm heq)).mpr hmem
      · exact hmem
  · show o' ∈ if ok then s.closedByHost ++ [o] else s.closedByHost
    by_cases heq : o = o'
    · subst heq
      rw [hnew] at hy
      cases hy
      cases ok with
      | true => exact mem_append_right _ mem_cons_self
      | false => exact h.closed o r hr hc
    · have hmem := h.closed o' y ((hne o' heq).symm.trans hy) hc
      split
      · exact mem_append_left _ hmem
      · exact hmem
  · by_cases heq : o = o'
    · subst heq
      rw [hnew] at hy
      cases hy
      refine ⟨fun run' hrun' => ?_, ?_, fun _ => hnone⟩
      · have hmem : run' ∈ tail.filterMap (·.run?) := hrun'
        rw [hnoruns] at hmem
        cases hmem
      · show (tail.filterMap (·.run?)).Nodup
        rw [hnoruns]
        exact nodup_nil
    · exact h.sound o' y ((hne o' heq).symm.trans hy)
  · obtain ⟨hmem, hrun⟩ := mem_filter.mp ha
    obtain ⟨x, hx, hxrun⟩ := h.attempts a hmem
    have heq : o ≠ a.opening := by
      rintro rfl
      rw [hr] at hx
      cases hx
      rw [hclosing] at hxrun
      cases hxrun
      simp at hrun
    exact ⟨x, (hne _ heq).trans hx, hxrun⟩
  · have heq : o ≠ o' := by
      rintro rfl
      rw [hnew] at hy
      cases hy
      rw [hnone] at hrun
      cases hrun
    have hmem := h.running o' y run' ((hne o' heq).symm.trans hy) hrun
    refine mem_filter.mpr ⟨hmem, decide_eq_true ?_⟩
    rintro rfl
    have hsame := inj_on_of_nodup_map h.single hmem (h.running o r run' hr hclosing) rfl
    exact heq (CloseAttempt.mk.inj hsame).2.symm
  · exact h.single.sublist (filter_sublist.map _)

/-! ## 7. Secret bytes -/

/-- What comes into a lease is in it or overwritten, and nothing else is overwritten. -/
structure SecretInv (s : Resources) : Prop where
  arrived : ∀ l b, (l, b) ∈ s.arrived → b ∈ s.secrets l ∨ b ∈ s.zeroed
  kept : ∀ l, ∀ b ∈ s.secrets l, (l, b) ∈ s.arrived
  intact : ∀ b ∈ s.zeroed, b ∈ s.dropped ∨
    ∃ l, s.released l = true ∧ s.secrets l = [] ∧ (l, b) ∈ s.arrived

/-- A released lease that still has bytes waits for an attempt that runs. -/
structure WaitingInv (s : Resources) : Prop where
  wiped : ∀ l, s.released l = true → s.secrets l = [] ∨ ∃ run, (l, run) ∈ s.waiting
  released : ∀ w ∈ s.waiting, s.released w.1 = true
  running : ∀ w ∈ s.waiting, ∃ a ∈ s.attempts, a.run = w.2

variable {b : SecretId} {ls : List LeaseId} {bytes : List SecretId}

theorem secretInv_start : SecretInv .start := by
  refine ⟨?_, ?_, ?_⟩ <;> simp [start, secrets]

theorem waitingInv_start : WaitingInv .start := by
  refine ⟨?_, ?_, ?_⟩ <;> simp [start, secrets]

theorem SecretInv.of_same (h : SecretInv s) (hsecrets : ∀ l, s'.secrets l = s.secrets l)
    (hreleased : ∀ l, s.released l = true → s'.released l = true)
    (harrived : s'.arrived = s.arrived) (hzeroed : s'.zeroed = s.zeroed)
    (hdropped : s'.dropped = s.dropped) : SecretInv s' where
  arrived l b hb := by
    rw [hsecrets, hzeroed]
    exact h.arrived l b (harrived ▸ hb)
  kept l b hb := by
    rw [harrived]
    exact h.kept l b (hsecrets l ▸ hb)
  intact b hb := by
    rw [hdropped, harrived]
    refine (h.intact b (hzeroed ▸ hb)).imp_right fun ⟨l, hl, hnone, hmem⟩ => ?_
    exact ⟨l, hreleased l hl, (hsecrets l).trans hnone, hmem⟩

theorem WaitingInv.of_same (h : WaitingInv s) (hsecrets : ∀ l, s'.secrets l = s.secrets l)
    (hreleased : ∀ l, s'.released l = s.released l) (hwaiting : s'.waiting = s.waiting)
    (hattempts : ∀ a ∈ s.attempts, a ∈ s'.attempts) : WaitingInv s' where
  wiped l hl := by
    rw [hsecrets, hwaiting]
    exact h.wiped l ((hreleased l).symm.trans hl)
  released w hw := (hreleased _).trans (h.released w (hwaiting ▸ hw))
  running w hw := by
    obtain ⟨a, ha, hrun⟩ := h.running w (hwaiting ▸ hw)
    exact ⟨a, hattempts a ha, hrun⟩

@[simp] theorem secrets_wipe : (s.wipe l).secrets l' = if l = l' then [] else s.secrets l' :=
  secrets_setSecrets_nil

@[simp] theorem holder_wipe : (s.wipe l).holder l' = s.holder l' := holder_setSecrets

@[simp] theorem released_wipe : (s.wipe l).released l' = s.released l' := released_setSecrets

section

variable (h : SecretInv s)
include h

theorem SecretInv.wipe (hl : s.released l = true) : SecretInv (s.wipe l) where
  arrived l' b hb := by
    rw [secrets_wipe]
    rcases h.arrived l' b hb with hmem | hmem
    · split
      · next heq => exact .inr (mem_append_right _ (heq ▸ hmem))
      · exact .inl hmem
    · exact .inr (mem_append_left _ hmem)
  kept l' b hb := by
    rw [secrets_wipe] at hb
    split at hb
    · cases hb
    · exact h.kept l' b hb
  intact b hb := by
    rcases mem_append.mp hb with hb | hb
    · refine (h.intact b hb).imp_right fun ⟨l', hreleased, hnone, hmem⟩ =>
        ⟨l', released_wipe.trans hreleased, ?_, hmem⟩
      rw [secrets_wipe, hnone, ite_self]
    · exact .inr ⟨l, released_wipe.trans hl, secrets_wipe.trans (if_pos rfl), h.kept l b hb⟩

theorem foldl_wipe (hls : ∀ l ∈ ls, s.released l = true) : SecretInv (ls.foldl wipe s) ∧
      (∀ l, (ls.foldl wipe s).secrets l = if l ∈ ls then [] else s.secrets l) ∧
      (∀ l, (ls.foldl wipe s).released l = s.released l) ∧
      (∀ l, (ls.foldl wipe s).holder l = s.holder l) ∧
      (ls.foldl wipe s).waiting = s.waiting ∧
      (ls.foldl wipe s).adopted = s.adopted ∧
      (ls.foldl wipe s).openings = s.openings ∧
      (ls.foldl wipe s).closedByHost = s.closedByHost ∧
      (ls.foldl wipe s).attempts = s.attempts ∧
      (ls.foldl wipe s).nextRun = s.nextRun := by
  induction ls generalizing s with
  | nil => simp [h]
  | cons l ls ih =>
    obtain ⟨hinv, hsecrets, hreleased, hholder, hrest⟩ :=
      ih (h.wipe (hls l mem_cons_self)) fun x hx =>
        released_wipe.trans (hls x (mem_cons_of_mem _ hx))
    refine ⟨hinv, fun x => ?_, fun x => (hreleased x).trans released_wipe,
      fun x => (hholder x).trans holder_wipe, hrest⟩
    rw [foldl_cons, hsecrets, secrets_wipe]
    simp only [mem_cons, eq_comm (a := x)]
    by_cases hl : l = x <;> simp [hl]

theorem SecretInv.keep (hl : l < s.leases.length) : SecretInv (s.keep l bytes) := by
  have hset : ∀ l', (s.setSecrets l (s.secrets l ∪ bytes)).secrets l' =
      if l = l' then s.secrets l ∪ bytes else s.secrets l' := fun l' => secrets_setSecrets hl
  have harrived : ∀ l' b, (l', b) ∈ s.arrived ++ bytes.map (l, ·) ↔
      (l', b) ∈ s.arrived ∨ l = l' ∧ b ∈ bytes := by
    intro l' b
    simp only [mem_append, mem_map, Prod.mk.injEq]
    exact or_congr_right ⟨fun ⟨x, hx, hl, hb⟩ => ⟨hl, hb ▸ hx⟩, fun ⟨hl, hb⟩ => ⟨b, hb, hl, rfl⟩⟩
  rw [Resources.keep]
  split
  · next hreleased =>
    have hreleased' : s.released l = true := released_setSecrets.symm.trans hreleased
    have hsecrets : ∀ l', (Resources.wipe { s.setSecrets l (s.secrets l ∪ bytes) with
        arrived := s.arrived ++ bytes.map (l, ·) } l).secrets l' =
        if l = l' then [] else s.secrets l' := by
      intro l'
      rw [secrets_wipe]
      split
      · rfl
      · next hne => exact (hset l').trans (if_neg hne)
    have hzeroed : ∀ b, b ∈ (Resources.wipe { s.setSecrets l (s.secrets l ∪ bytes) with
        arrived := s.arrived ++ bytes.map (l, ·) } l).zeroed ↔
        b ∈ s.zeroed ∨ b ∈ s.secrets l ∨ b ∈ bytes := by
      intro b
      show b ∈ s.zeroed ++ (s.setSecrets l (s.secrets l ∪ bytes)).secrets l ↔ _
      rw [hset, if_pos rfl, mem_append, mem_union_iff]
    refine ⟨fun l' b hb => ?_, fun l' b hb => (harrived l' b).mpr ?_, fun b hb => ?_⟩
    · rw [hsecrets, hzeroed]
      rcases (harrived l' b).mp hb with hold | ⟨rfl, hnew⟩
      · rcases h.arrived l' b hold with hmem | hmem
        · split
          · next heq => exact .inr (.inr (.inl (heq ▸ hmem)))
          · exact .inl hmem
        · exact .inr (.inl hmem)
      · exact .inr (.inr (.inr hnew))
    · rw [hsecrets] at hb
      split at hb
      · cases hb
      · exact .inl (h.kept l' b hb)
    · rcases (hzeroed b).mp hb with hb | hb
      · refine (h.intact b hb).imp_right fun ⟨l', hl', hnone, hmem⟩ =>
          ⟨l', released_wipe.trans (released_setSecrets.trans hl'), ?_,
            (harrived l' b).mpr (.inl hmem)⟩
        rw [hsecrets, hnone, ite_self]
      refine .inr ⟨l, released_wipe.trans hreleased, (hsecrets l).trans (if_pos rfl),
        (harrived l b).mpr ?_⟩
      exact hb.imp (h.kept l b) fun hb => ⟨rfl, hb⟩
  · next hreleased =>
    have hsecrets : ∀ l', Resources.secrets { s.setSecrets l (s.secrets l ∪ bytes) with
        arrived := s.arrived ++ bytes.map (l, ·) } l' =
        if l = l' then s.secrets l ∪ bytes else s.secrets l' := hset
    refine ⟨fun l' b hb => ?_, fun l' b hb => (harrived l' b).mpr ?_, fun b hb => ?_⟩
    · rw [hsecrets]
      rcases (harrived l' b).mp hb with hold | ⟨rfl, hnew⟩
      · refine (h.arrived l' b hold).imp_left fun hmem => ?_
        split
        · next heq => exact mem_union_iff.mpr (.inl (heq ▸ hmem))
        · exact hmem
      · rw [if_pos rfl]
        exact .inl (mem_union_iff.mpr (.inr hnew))
    · rw [hsecrets] at hb
      split at hb
      · next heq =>
        rcases mem_union_iff.mp hb with hb | hb
        · exact .inl (heq ▸ h.kept l b hb)
        · exact .inr ⟨heq, hb⟩
      · exact .inl (h.kept l' b hb)
    · refine (h.intact b hb).imp_right fun ⟨l', hl', hnone, hmem⟩ =>
        ⟨l', released_setSecrets.trans hl', ?_, (harrived l' b).mpr (.inl hmem)⟩
      have hne : l ≠ l' := by
        rintro rfl
        exact hreleased (released_setSecrets.trans hl')
      exact (hsecrets l').trans ((if_neg hne).trans hnone)

theorem SecretInv.drop (hl : l < s.leases.length) : SecretInv (s.drop l b) := by
  have hsecrets : ∀ l', (s.drop l b).secrets l' =
      if l = l' then (s.secrets l).filter fun x => decide (x ≠ b) else s.secrets l' :=
    fun l' => secrets_setSecrets hl
  refine ⟨fun l' x hx => ?_, fun l' x hx => ?_, fun x hx => ?_⟩
  · rw [hsecrets]
    rcases h.arrived l' x hx with hmem | hmem
    · split
      · next heq =>
        by_cases hsame : x = b
        · exact .inr (mem_append_right _ (mem_singleton.mpr hsame))
        · exact .inl (mem_filter.mpr ⟨heq ▸ hmem, decide_eq_true hsame⟩)
      · exact .inl hmem
    · exact .inr (mem_append_left _ hmem)
  · rw [hsecrets] at hx
    split at hx
    · next heq => exact heq ▸ h.kept l x (mem_filter.mp hx).1
    · exact h.kept l' x hx
  · rcases mem_append.mp hx with hx | hx
    · rcases h.intact x hx with hdropped | ⟨l', hl', hnone, hmem⟩
      · exact .inl (mem_append_left _ hdropped)
      refine .inr ⟨l', released_setSecrets.trans hl', ?_, hmem⟩
      rw [hsecrets]
      split
      · next heq => rw [heq, hnone, filter_nil]
      · exact hnone
    · exact .inl (mem_append_right _ hx)

omit h in
theorem secrets_moveSecrets (hl : l' < s.leases.length) (x : LeaseId) :
    (s.moveSecrets l l').secrets x =
      if l = x then [] else if l' = x then s.secrets l' ∪ s.secrets l else s.secrets x := by
  show secrets ((s.setSecrets l' (s.secrets l' ∪ s.secrets l)).setSecrets l []) x = _
  rw [secrets_setSecrets_nil, secrets_setSecrets hl]

theorem SecretInv.moveSecrets (hl : l' < s.leases.length) (hne : l ≠ l')
    (hopen : s.released l' = false) : SecretInv (s.moveSecrets l l') := by
  have harrived : ∀ x b, (x, b) ∈ (s.moveSecrets l l').arrived ↔
      (x, b) ∈ s.arrived ∧ ¬(x = l ∧ b ∈ s.secrets l) ∨ x = l' ∧ b ∈ s.secrets l := by
    intro x b
    rw [Resources.moveSecrets, if_neg hne]
    simp only [mem_append, mem_filter, mem_map, Prod.mk.injEq, Bool.not_eq_true',
      Bool.and_eq_false_iff, decide_eq_false_iff_not, not_and_or]
    exact or_congr_right ⟨fun ⟨y, hy, hx, hb⟩ => ⟨hx.symm, hb ▸ hy⟩,
      fun ⟨hx, hb⟩ => ⟨b, hb, hx.symm, rfl⟩⟩
  have hreleased : ∀ x, (s.moveSecrets l l').released x = s.released x :=
    fun x => released_setSecrets.trans released_setSecrets
  refine ⟨fun x b hb => ?_, fun x b hb => (harrived x b).mpr ?_, fun b hb => ?_⟩
  · rw [secrets_moveSecrets hl]
    rcases (harrived x b).mp hb with ⟨hold, hnot⟩ | ⟨rfl, hmoved⟩
    · refine (h.arrived x b hold).imp_left fun hmem => ?_
      have hx : l ≠ x := by
        rintro rfl
        exact hnot ⟨rfl, hmem⟩
      rw [if_neg hx]
      split
      · next heq => exact mem_union_iff.mpr (.inl (heq ▸ hmem))
      · exact hmem
    · rw [if_neg hne, if_pos rfl]
      exact .inl (mem_union_iff.mpr (.inr hmoved))
  · rw [secrets_moveSecrets hl] at hb
    split at hb
    · cases hb
    next hx =>
    split at hb
    · next heq =>
      rcases mem_union_iff.mp hb with hb | hb
      · exact .inl ⟨heq ▸ h.kept l' b hb, fun hnot => hx hnot.1.symm⟩
      · exact .inr ⟨heq.symm, hb⟩
    · exact .inl ⟨h.kept x b hb, fun hnot => hx hnot.1.symm⟩
  · refine (h.intact b hb).imp_right fun ⟨x, hx, hnone, hmem⟩ =>
      ⟨x, (hreleased x).trans hx, ?_, (harrived x b).mpr (.inl ⟨hmem, fun hnot => ?_⟩)⟩
    · rw [secrets_moveSecrets hl, hnone]
      have hx' : l' ≠ x := by
        rintro rfl
        rw [hopen] at hx
        cases hx
      rw [if_neg hx', ite_self]
    · rw [← hnot.1, hnone] at hnot
      cases hnot.2

end

/-! ## 8. Steps -/

structure RegisterInv (s : Resources) : Prop where
  held : HeldInv s
  openings : OpeningsInv s
  secrets : SecretInv s
  waiting : WaitingInv s

def MovesApart (_ : Resources) : RegisterInput → Prop
  | .move source target => source ≠ target
  | _ => True

instance MovesApart.decidable : ∀ s i, Decidable (MovesApart s i)
  | _, .move source target => inferInstanceAs (Decidable (source ≠ target))
  | _, .lease _ _ | _, .keep _ _ | _, .drop _ _ | _, .adopt _ _ | _, .use _ | _, .phase _ _
  | _, .release _ | _, .retry _ | _, .answer _ _ => .isTrue trivial

variable {tail : List HostCall} {ns : String} {i : RegisterInput} {done : List ShutdownPhase}

theorem registerInv_start : RegisterInv .start := by
  refine ⟨⟨?_, ?_⟩, ⟨?_, ?_, ?_, ?_, ?_, ?_, ?_⟩, secretInv_start, waitingInv_start⟩ <;>
    simp [start, holder, opening]

section

variable (h : RegisterInv s)
include h

theorem RegisterInv.keep (hl : l < s.leases.length) : RegisterInv (s.keep l bytes) := by
  have hset : ∀ x, (s.setSecrets l (s.secrets l ∪ bytes)).secrets x =
      if l = x then s.secrets l ∪ bytes else s.secrets x := fun x => secrets_setSecrets hl
  refine ⟨?_, ?_, h.secrets.keep hl, ?_⟩
  · rw [Resources.keep]
    split
    · exact h.held.of_same (fun _ => holder_wipe.trans holder_setSecrets)
        (fun _ => released_wipe.trans released_setSecrets) rfl
    · exact h.held.of_same (fun _ => holder_setSecrets) (fun _ => released_setSecrets) rfl
  · rw [Resources.keep]
    split
    · exact h.openings.of_same rfl rfl rfl rfl rfl
    · exact h.openings.of_same rfl rfl rfl rfl rfl
  · rw [Resources.keep]
    split
    · refine ⟨fun x hx => ?_, fun w hw => ?_, h.waiting.running⟩
      · rw [secrets_wipe]
        split
        · exact .inl rfl
        next hne =>
        rw [show Resources.secrets { s.setSecrets l (s.secrets l ∪ bytes) with
          arrived := s.arrived ++ bytes.map (l, ·) } x = s.secrets x from
          (hset x).trans (if_neg hne)]
        exact h.waiting.wiped x (released_setSecrets.symm.trans (released_wipe.symm.trans hx))
      · exact released_wipe.trans (released_setSecrets.trans (h.waiting.released w hw))
    · next hopen =>
      refine ⟨fun x hx => ?_, fun w hw => ?_, h.waiting.running⟩
      · have hne : l ≠ x := by
          rintro rfl
          exact hopen hx
        rw [show Resources.secrets { s.setSecrets l (s.secrets l ∪ bytes) with
            arrived := s.arrived ++ bytes.map (l, ·) } x = s.secrets x from
            (hset x).trans (if_neg hne)]
        exact h.waiting.wiped x (released_setSecrets.symm.trans hx)
      · exact released_setSecrets.trans (h.waiting.released w hw)

theorem RegisterInv.drop (hl : l < s.leases.length) : RegisterInv (s.drop l b) := by
  refine ⟨h.held.of_same (fun _ => holder_setSecrets) (fun _ => released_setSecrets) rfl,
    h.openings.of_same rfl rfl rfl rfl rfl, h.secrets.drop hl, fun x hx => ?_,
    fun w hw => released_setSecrets.trans (h.waiting.released w hw), h.waiting.running⟩
  refine (h.waiting.wiped x (released_setSecrets.symm.trans hx)).imp_left fun hnone => ?_
  show Resources.secrets (s.setSecrets l _) x = []
  rw [secrets_setSecrets hl]
  split
  · next heq => rw [heq, hnone, filter_nil]
  · exact hnone

theorem RegisterInv.of_openings {adopted : List OpeningRecord}
    {openings closedByHost : List OpeningId} {attempts : List CloseAttempt} {nextRun : RunId}
    (hs' : s' = { s with adopted, openings, closedByHost, attempts, nextRun }) (hheld : HeldInv s')
    (hopenings : OpeningsInv s') (hattempts : ∀ a ∈ s.attempts, a ∈ attempts) :
    RegisterInv s' := by
  subst hs'
  exact ⟨hheld, hopenings, h.secrets.of_same (fun _ => rfl) (fun _ hl => hl) rfl rfl rfl,
    h.waiting.of_same (fun _ => rfl) (fun _ => rfl) rfl hattempts⟩

theorem RegisterInv.serial (hcall : call.run? = none) : RegisterInv (s.serial o call) :=
  h.of_openings rfl h.held.serial (h.openings.serial hcall) fun _ ha => ha

end

theorem close_frame (s : Resources) (o : OpeningId) : ∃ adopted attempts nextRun,
    (s.close o).1 = { s with adopted, attempts, nextRun } ∧ ∀ a ∈ s.attempts, a ∈ attempts := by
  rw [close]
  split
  · exact ⟨_, _, _, rfl, fun _ ha => ha⟩
  split
  · exact ⟨_, _, _, rfl, fun _ ha => ha⟩
  split
  · exact ⟨_, _, _, rfl, fun _ ha => ha⟩
  · exact ⟨_, _, _, rfl, fun _ ha => mem_append_left _ ha⟩

section

variable (h : RegisterInv s)
include h

theorem RegisterInv.close (hstate : ∀ r, s.opening o = some r → r.state ≠ .active) : RegisterInv
    (s.close o).1 := by
  obtain ⟨adopted, attempts, nextRun, hs', hattempts⟩ := close_frame s o
  exact h.of_openings hs' h.held.close (h.openings.close hstate) hattempts

theorem RegisterInv.foldl_close {os : List OpeningId}
    (hstate : ∀ o ∈ os, ∀ r, s.opening o = some r → r.state ≠ .active) :
    RegisterInv (os.foldl (fun s o => (s.close o).1) s) := by
  induction os generalizing s with
  | nil => exact h
  | cons o os ih =>
    refine ih (h.close (hstate o mem_cons_self)) fun o' ho' r hr => ?_
    obtain ⟨x, hx, hsame⟩ := opening_close_state hr
    rw [hsame]
    exact hstate o' (mem_cons_of_mem _ ho') x hx

theorem RegisterInv.retry (ns : Option String) : RegisterInv (s.retry ns) := by
  refine h.foldl_close fun o ho r hr => ?_
  have hclosing := (mem_filter.mp ho).2
  rw [hr, Option.any_some, decide_eq_true_eq] at hclosing
  rw [hclosing.1]
  nofun

theorem RegisterInv.register : RegisterInv { s with
    adopted := s.adopted ++ [⟨ns, l, .active, [], [], none⟩]
    openings := s.openings ++ [s.adopted.length] } := by
  have hold : ∀ o r, s.opening o = some r → (s.adopted ++ [⟨ns, l, .active, [], [], none⟩])[o]? =
      some r := fun o r hr => by
    rw [List.getElem?_append_left (List.getElem?_eq_some_iff.mp hr).1]
    exact hr
  have hcases : ∀ o r, (s.adopted ++ [⟨ns, l, .active, [], [], none⟩])[o]? = some r →
      s.opening o = some r ∨ o = s.adopted.length ∧ r = ⟨ns, l, .active, [], [], none⟩ :=
    fun o r hr => (getElem?_concat_cases hr).symm
  refine h.of_openings rfl ?_ ?_ fun _ ha => ha
  · exact h.held.mono (fun _ => rfl) (fun _ => rfl) fun _ o r _ hr hactive =>
      ⟨r, hold o r hr, rfl, hactive⟩
  refine ⟨fun o r hr hne => ?_, fun o r hr hc => ?_, fun o r hr => ?_, fun a ha => ?_,
    fun o r run hr hrun => ?_, h.openings.fresh, h.openings.single⟩
  · rcases hcases o r hr with hr | ⟨rfl, rfl⟩
    · exact mem_append_left _ (h.openings.registered o r hr hne)
    · exact mem_append_right _ mem_cons_self
  · rcases hcases o r hr with hr | ⟨rfl, rfl⟩
    · exact h.openings.closed o r hr hc
    · cases hc
  · rcases hcases o r hr with hr | ⟨rfl, rfl⟩
    · exact h.openings.sound o r hr
    · exact ⟨by simp [OpeningRecord.runs], by simp [OpeningRecord.runs], fun _ => rfl⟩
  · obtain ⟨r, hr, hrun⟩ := h.openings.attempts a ha
    exact ⟨r, hold _ r hr, hrun⟩
  · rcases hcases o r hr with hr | ⟨rfl, rfl⟩
    · exact h.openings.running o r run hr hrun
    · cases hrun

end

theorem HeldInv.setHolder_some (h : HeldInv s) (hr : s.opening o = some r) (hlease : r.lease = l)
    (hactive : r.state = .active) (hopen : s.released l = false) :
    HeldInv (s.setHolder l (some o)) where
  held x o' hx := by
    rcases holder_setHolder_some hx with ⟨rfl, rfl⟩ | ⟨-, hx⟩
    · exact ⟨r, hr, hlease, hactive⟩
    · exact h.held x o' hx
  detached x hx := by
    have hx' : s.released x = true := released_setHolder.symm.trans hx
    refine Option.eq_none_iff_forall_not_mem.mpr fun o' ho' => ?_
    rcases holder_setHolder_some ho' with ⟨rfl, -⟩ | ⟨-, ho'⟩
    · rw [hopen] at hx'
      cases hx'
    · rw [h.detached x hx'] at ho'
      cases ho'

section

variable (h : RegisterInv s)
include h

theorem RegisterInv.setHolder {holder : Option OpeningId}
    (hheld : HeldInv (s.setHolder l holder)) : RegisterInv (s.setHolder l holder) :=
  ⟨hheld, h.openings.of_same rfl rfl rfl rfl rfl,
    h.secrets.of_same (fun _ => secrets_setHolder) (fun _ => released_setHolder.trans) rfl rfl rfl,
    h.waiting.of_same (fun _ => secrets_setHolder) (fun _ => released_setHolder) rfl fun _ ha => ha⟩

theorem RegisterInv.setOpening (hheld : HeldInv (s.setOpening o f))
    (hopenings : OpeningsInv (s.setOpening o f)) : RegisterInv (s.setOpening o f) :=
  h.of_openings rfl hheld hopenings fun _ ha => ha

theorem RegisterInv.adopt : RegisterInv (s.adopt l ns) := by
  have hregistered := @RegisterInv.register s l ns h
  have hnew : opening { s with
      adopted := s.adopted ++ [⟨ns, l, .active, [], [], none⟩]
      openings := s.openings ++ [s.adopted.length] } s.adopted.length =
      some ⟨ns, l, .active, [], [], none⟩ := getElem?_concat_length
  rw [Resources.adopt]
  split
  · have hfree : ∀ x, s.holder x ≠ some s.adopted.length := by
      intro x hx
      obtain ⟨r, hr, -⟩ := h.held.held x _ hx
      exact absurd (List.getElem?_eq_some_iff.mp hr).1 (Nat.lt_irrefl _)
    refine (hregistered.setOpening (hregistered.held.toClosing hfree)
      hregistered.openings.toClosing).close fun r hr => ?_
    rw [opening_setOpening_self hnew] at hr
    cases hr
    exact toClosing_ne_active
  · next hfree =>
    rw [not_or, Bool.not_eq_true] at hfree
    exact hregistered.setHolder (hregistered.held.setHolder_some hnew rfl rfl hfree.1)

theorem RegisterInv.moveHolder (hopen : s.released l' = false) :
    RegisterInv (s.moveHolder l l') := by
  rw [Resources.moveHolder]
  split
  · next o hsource htarget =>
    obtain ⟨r, hr, hlease, hactive⟩ := h.held.held l o hsource
    have hne : l ≠ l' := by
      rintro rfl
      rw [hsource] at htarget
      cases htarget
    have hholder : ∀ x o', (((s.setHolder l' (some o)).setOpening o fun r =>
        { r with lease := l' }).setHolder l none).holder x = some o' →
        (x = l' ∧ o' = o) ∨ (s.holder x = some o' ∧ o' ≠ o) := by
      intro x o' hx
      rw [holder_setHolder_none] at hx
      split at hx
      · cases hx
      next hx' =>
      rcases holder_setHolder_some (s := s) hx with ⟨rfl, rfl⟩ | ⟨-, hkept⟩
      · exact .inl ⟨rfl, rfl⟩
      refine .inr ⟨hkept, ?_⟩
      rintro rfl
      exact hx' (h.held.unique hsource hkept)
    have hreleased : ∀ x, (((s.setHolder l' (some o)).setOpening o fun r =>
        { r with lease := l' }).setHolder l none).released x = s.released x := fun x =>
      released_setHolder.trans (released_setHolder (s := s))
    refine ⟨⟨fun x o' hx => ?_, fun x hx => ?_⟩, ?_, ?_, ?_⟩
    · rcases hholder x o' hx with ⟨rfl, rfl⟩ | ⟨hx, hne⟩
      · exact ⟨{ r with lease := x }, opening_setOpening_self (s := s) hr, rfl, hactive⟩
      · obtain ⟨y, hy, hrest⟩ := h.held.held x o' hx
        exact ⟨y, (opening_setOpening_ne (s := s) (Ne.symm hne)).trans hy, hrest⟩
    · have hx' : s.released x = true := (hreleased x).symm.trans hx
      refine Option.eq_none_iff_forall_not_mem.mpr fun o' ho' => ?_
      rcases hholder x o' ho' with ⟨rfl, -⟩ | ⟨ho', -⟩
      · rw [hopen] at hx'
        cases hx'
      · rw [h.held.detached x hx'] at ho'
        cases ho'
    · have hmoved : OpeningsInv (s.setOpening o fun r => { r with lease := l' }) :=
        h.openings.setOpening (fun _ => Iff.rfl) (fun _ => rfl) fun _ _ hs =>
          ⟨hs.calls, hs.once, hs.quiet⟩
      exact hmoved.of_same rfl rfl rfl rfl rfl
    · exact h.secrets.of_same (fun _ => secrets_setHolder.trans (secrets_setHolder (s := s)))
        (fun x hx => (hreleased x).trans hx) rfl rfl rfl
    · exact h.waiting.of_same (fun _ => secrets_setHolder.trans (secrets_setHolder (s := s)))
        hreleased rfl fun _ ha => ha
  · exact h

theorem RegisterInv.moveSecrets (hl : l' < s.leases.length) (hne : l ≠ l')
    (hopen : s.released l' = false) : RegisterInv (s.moveSecrets l l') := by
  have hreleased : ∀ x, (s.moveSecrets l l').released x = s.released x :=
    fun x => released_setSecrets.trans released_setSecrets
  refine ⟨h.held.of_same (fun x => holder_setSecrets.trans holder_setSecrets) hreleased rfl,
    h.openings.of_same rfl rfl rfl rfl rfl, h.secrets.moveSecrets hl hne hopen, fun x hx => ?_,
    fun w hw => (hreleased _).trans (h.waiting.released w hw), h.waiting.running⟩
  have hx' : s.released x = true := (hreleased x).symm.trans hx
  rw [secrets_moveSecrets hl]
  split
  · exact .inl rfl
  have hx'' : l' ≠ x := by
    rintro rfl
    rw [hopen] at hx'
    cases hx'
  rw [if_neg hx'']
  exact h.waiting.wiped x hx'

end

theorem moveHolder_frame (s : Resources) (l l' : LeaseId) :
    (s.moveHolder l l').leases.length = s.leases.length ∧
      ∀ x, (s.moveHolder l l').released x = s.released x := by
  rw [moveHolder]
  split
  · refine ⟨?_, fun x => released_setHolder.trans (released_setHolder (s := s))⟩
    simp [setHolder, setOpening]
  · exact ⟨rfl, fun _ => rfl⟩

theorem RegisterInv.move (h : RegisterInv s) (hl : l' < s.leases.length) (hne : l ≠ l') :
    RegisterInv (s.move l l') := by
  rw [Resources.move]
  split
  · exact h
  next hopen =>
  rw [Bool.not_eq_true] at hopen
  obtain ⟨hlength, hreleased⟩ := moveHolder_frame s l l'
  exact (h.moveHolder hopen).moveSecrets (hlength ▸ hl) hne ((hreleased l').trans hopen)

theorem HeldInv.detach (h : HeldInv s) (hl : l < s.leases.length) :
    HeldInv ((s.setReleased l).setHolder l none) where
  held x o hx := by
    rw [holder_setHolder_none] at hx
    split at hx
    · cases hx
    · exact h.held x o (holder_setReleased.symm.trans hx)
  detached x hx := by
    have hx' := released_setHolder.symm.trans hx
    rw [released_setReleased hl] at hx'
    rw [holder_setHolder_none]
    split
    · rfl
    next hne =>
    rw [if_neg hne] at hx'
    exact holder_setReleased.trans (h.detached x hx')

theorem released_release (hl : l < s.leases.length) (x : LeaseId) :
    ((s.setReleased l).setHolder l none).released x = if l = x then true else s.released x :=
  released_setHolder.trans (released_setReleased hl)

theorem secrets_release (x : LeaseId) :
    ((s.setReleased l).setHolder l none).secrets x = s.secrets x :=
  secrets_setHolder.trans secrets_setReleased

theorem WaitingInv.release {w : List (LeaseId × RunId)} (h : WaitingInv s)
    (hsecrets : ∀ x, l ≠ x → s'.secrets x = s.secrets x)
    (hreleased : ∀ x, s'.released x = if l = x then true else s.released x)
    (hwaiting : s'.waiting = s.waiting ++ w)
    (hw : ∀ p ∈ w, p.1 = l ∧ ∃ a ∈ s'.attempts, a.run = p.2)
    (hattempts : ∀ a ∈ s.attempts, a ∈ s'.attempts)
    (hthis : s'.secrets l = [] ∨ ∃ run, (l, run) ∈ w) : WaitingInv s' where
  wiped x hx := by
    rw [hwaiting]
    by_cases heq : l = x
    · subst heq
      exact hthis.imp_right fun ⟨run, hrun⟩ => ⟨run, mem_append_right _ hrun⟩
    rw [hreleased, if_neg heq] at hx
    rw [hsecrets x heq]
    exact (h.wiped x hx).imp_right fun ⟨run, hrun⟩ => ⟨run, mem_append_left _ hrun⟩
  released p hp := by
    rw [hreleased]
    split
    · rfl
    next hne =>
    rw [hwaiting] at hp
    rcases mem_append.mp hp with hp | hp
    · exact h.released p hp
    · exact absurd (hw p hp).1.symm hne
  running p hp := by
    rw [hwaiting] at hp
    rcases mem_append.mp hp with hp | hp
    · obtain ⟨a, ha, hrun⟩ := h.running p hp
      exact ⟨a, hattempts a ha, hrun⟩
    · exact (hw p hp).2

section

variable (h : RegisterInv s)
include h

theorem RegisterInv.release (hl : l < s.leases.length) : RegisterInv (s.release l) := by
  have hheld := h.held.detach hl
  have hopenings : OpeningsInv ((s.setReleased l).setHolder l none) :=
    h.openings.of_same rfl rfl rfl rfl rfl
  have hsecrets : SecretInv ((s.setReleased l).setHolder l none) := by
    refine h.secrets.of_same secrets_release (fun x hx => ?_) rfl rfl rfl
    rw [released_release hl]
    split
    · rfl
    · exact hx
  have hthis : ((s.setReleased l).setHolder l none).released l = true := by
    rw [released_release hl, if_pos rfl]
  -- the bytes are overwritten at once where no opening is left to close
  have hwipe : ∀ s₁ : Resources, HeldInv s₁ → OpeningsInv s₁ →
      s₁.leases = ((s.setReleased l).setHolder l none).leases → s₁.arrived = s.arrived →
      s₁.zeroed = s.zeroed → s₁.dropped = s.dropped → s₁.waiting = s.waiting →
      (∀ a ∈ s.attempts, a ∈ s₁.attempts) → RegisterInv (s₁.wipe l) := by
    intro s₁ hheld₁ hopenings₁ hleases harrived hzeroed hdropped hwaiting hattempts
    have hreleased : ∀ x, s₁.released x = ((s.setReleased l).setHolder l none).released x :=
      fun x => by rw [released, hleases, released]
    have hsecrets' : ∀ x, s₁.secrets x = s.secrets x := fun x => by
      rw [Resources.secrets, hleases]
      exact secrets_release x
    have hinv : SecretInv s₁ := hsecrets.of_same
      (fun x => (hsecrets' x).trans (secrets_release x).symm)
      (fun x hx => (hreleased x).trans hx) harrived hzeroed hdropped
    refine ⟨hheld₁.of_same (fun _ => holder_wipe) (fun _ => released_wipe) rfl,
      hopenings₁.of_same rfl rfl rfl rfl rfl, hinv.wipe ((hreleased l).trans hthis), ?_⟩
    refine h.waiting.release (w := []) (fun x hne => ?_) (fun x => ?_)
      (hwaiting.trans (append_nil _).symm) (by simp) hattempts
      (.inl (secrets_wipe.trans (if_pos rfl)))
    · rw [secrets_wipe, if_neg hne, hsecrets']
    · exact released_wipe.trans ((hreleased x).trans (released_release hl x))
  rw [Resources.release]
  split
  · exact hwipe _ hheld hopenings rfl rfl rfl rfl rfl fun _ ha => ha
  next o ho =>
  have hfree : ∀ x, ((s.setReleased l).setHolder l none).holder x ≠ some o := by
    intro x hx
    rw [holder_setHolder_none] at hx
    split at hx
    · cases hx
    · next hne => exact hne (h.held.unique ho (holder_setReleased.symm.trans hx))
  have hclosing := hheld.toClosing hfree
  have hclosing' := hopenings.toClosing (o := o)
  have hstate : ∀ r, (((s.setReleased l).setHolder l none).toClosing o).opening o = some r →
      r.state ≠ .active := by
    intro r hr
    obtain ⟨x, -, rfl⟩ := opening_setOpening hr
    rw [if_pos rfl]
    exact toClosing_ne_active
  have hclose := hclosing.close (o := o)
  have hclose' := hclosing'.close hstate
  have hrunning := fun run => @OpeningsInv.close_running _ o run hclosing'
  obtain ⟨adopted, attempts, nextRun, hframe, hattempts⟩ :=
    close_frame (((s.setReleased l).setHolder l none).toClosing o) o
  generalize ((((s.setReleased l).setHolder l none).toClosing o).close o) = closed at *
  obtain ⟨s₁, answer⟩ := closed
  have hs₁ : s₁ = _ := hframe
  split
  · next s₂ run heq =>
    cases heq
    obtain ⟨a, ha, hrun⟩ := hrunning run rfl
    subst hs₁
    refine ⟨hclose.of_same (fun _ => rfl) (fun _ => rfl) rfl, hclose'.of_same rfl rfl rfl rfl rfl,
      hsecrets.of_same (fun _ => rfl) (fun _ hx => hx) rfl rfl rfl, ?_⟩
    refine h.waiting.release (w := [(l, run)]) (fun x _ => secrets_release x)
      (released_release hl) rfl (fun p hp => ?_) hattempts
      (.inr ⟨run, mem_cons_self⟩)
    rw [mem_singleton.mp hp]
    exact ⟨rfl, a, ha, hrun⟩
  · next s₂ heq =>
    cases heq
    subst hs₁
    exact hwipe _ hclose hclose' rfl rfl rfl rfl rfl hattempts

omit h in
theorem OpeningRecord.Sound.rest (h : r.Sound) (htail : r.tail = call :: tail) :
    OpeningRecord.Sound { r with tail, done } := by
  have hruns : r.runs = call.run?.toList ++ tail.filterMap (·.run?) := by
    rw [OpeningRecord.runs, htail]
    cases hcall : call.run? <;> simp [hcall]
  refine ⟨fun run hrun => h.calls run ?_, ?_, h.quiet⟩
  · rw [hruns]
    exact mem_append_right _ hrun
  have honce := h.once
  rw [hruns] at honce
  exact (nodup_append.mp honce).2.1

theorem RegisterInv.answered (hr : s.opening o = some r)
    (htail : r.tail = call :: tail) : RegisterInv (s.setOpening o fun r => { r with tail, done }) :=
  h.setOpening (h.held.setOpening fun _ _ _ _ hactive => ⟨rfl, hactive⟩)
    (h.openings.setOpening (fun _ => Iff.rfl) (fun _ => rfl) fun x hx hs => by
      rw [hr] at hx
      cases hx
      exact hs.rest htail)

theorem RegisterInv.serial_run (hr : s.opening o = some r)
    (hruns : r.runs = []) (hclosing : r.closing = some run) (hcall : call.run? = some run) :
    RegisterInv (s.serial o call) := by
  refine h.setOpening (h.held.setOpening fun _ _ _ _ hactive => ⟨rfl, hactive⟩)
    (h.openings.setOpening (fun _ => Iff.rfl) (fun _ => rfl) fun x hx hs => ?_)
  rw [hr] at hx
  cases hx
  have hnew : OpeningRecord.runs { r with tail := r.tail ++ [call] } = [run] := by
    rw [runs_append, hruns, hcall]
    rfl
  refine ⟨fun run' hrun' => ?_, hnew ▸ nodup_singleton run, hs.quiet⟩
  rw [hnew, mem_singleton] at hrun'
  rw [hrun']
  exact hclosing

omit h in
theorem registerInv_wipeWaiting (hheld : HeldInv s) (hopenings : OpeningsInv s)
    (hsecrets : SecretInv s)
    (hwiped : ∀ l, s.released l = true → s.secrets l = [] ∨ ∃ run, (l, run) ∈ s.waiting)
    (hreleased : ∀ w ∈ s.waiting, s.released w.1 = true)
    (hrunning : ∀ w ∈ s.waiting, w.2 ≠ run → ∃ a ∈ s.attempts, a.run = w.2) :
    RegisterInv (s.wipeWaiting run) := by
  have hls : ∀ l ∈ (s.waiting.filter fun w => decide (w.2 = run)).map (·.1),
      s.released l = true := by
    intro l hl
    obtain ⟨w, hw, rfl⟩ := mem_map.mp hl
    exact hreleased w (mem_filter.mp hw).1
  have hrest : SecretInv { s with waiting := s.waiting.filter fun w => decide (w.2 ≠ run) } :=
    hsecrets.of_same (fun _ => rfl) (fun _ hl => hl) rfl rfl rfl
  rw [wipeWaiting]
  generalize hlist : (s.waiting.filter fun w => decide (w.2 = run)).map (·.1) = ls at hls
  generalize hstate : { s with
    waiting := s.waiting.filter fun w => decide (w.2 ≠ run) } = t at hrest
  have hmem : ∀ w, w ∈ t.waiting ↔ w ∈ s.waiting ∧ w.2 ≠ run := by
    intro w
    rw [← hstate, mem_filter, decide_eq_true_eq]
  obtain ⟨hwiped', hsecrets', hreleased', hholder, hwaiting, hadopted, hopenings', hclosed,
    hattempts, hnext⟩ := foldl_wipe hrest (by rw [← hstate]; exact hls)
  generalize ls.foldl wipe t = s' at *
  subst hstate
  refine ⟨hheld.of_same hholder hreleased' hadopted,
    hopenings.of_same hadopted hopenings' hclosed hattempts hnext, hwiped', fun x hx => ?_,
    fun w hw => ?_, fun w hw => ?_⟩
  · rcases hwiped x ((hreleased' x).symm.trans hx) with hnone | ⟨run', hrun'⟩
    · refine .inl ((hsecrets' x).trans ?_)
      split
      · rfl
      · exact hnone
    by_cases hsame : run' = run
    · refine .inl ((hsecrets' x).trans (if_pos ?_))
      rw [← hlist]
      exact mem_map.mpr ⟨_, mem_filter.mpr ⟨hrun', decide_eq_true hsame⟩, rfl⟩
    · exact .inr ⟨run', hwaiting ▸ (hmem _).mpr ⟨hrun', hsame⟩⟩
  · exact (hreleased' _).trans (hreleased w ((hmem w).mp (hwaiting ▸ hw)).1)
  · obtain ⟨hold, hne⟩ := (hmem w).mp (hwaiting ▸ hw)
    rw [hattempts]
    exact hrunning w hold hne

theorem RegisterInv.ended (hr : s.opening o = some r) (htail : r.tail = .close run :: tail) :
    RegisterInv ((s.ended o run ok tail).wipeWaiting run) := by
  have hsound := h.openings.sound o r hr
  obtain ⟨hclosing, -⟩ := hsound.last htail rfl
  have hheld : HeldInv (s.setOpening o fun r => OpeningRecord.ended run ok { r with tail }) := by
    refine h.held.setOpening fun l x _ hx hactive => ?_
    rw [hr] at hx
    cases hx
    rw [hsound.quiet hactive] at hclosing
    cases hclosing
  refine registerInv_wipeWaiting (hheld.of_same (fun _ => rfl) (fun _ => rfl) rfl)
    (h.openings.ended hr htail)
    (h.secrets.of_same (fun _ => rfl) (fun _ hl => hl) rfl rfl rfl) h.waiting.wiped
    h.waiting.released fun w hw hne => ?_
  obtain ⟨a, ha, hrun⟩ := h.waiting.running w hw
  exact ⟨a, mem_filter.mpr ⟨ha, decide_eq_true (hrun ▸ hne)⟩, hrun⟩

theorem RegisterInv.answer (hs : s.answer o ok = some s') : RegisterInv s' := by
  rcases hr : s.opening o with _ | r
  · simp [Resources.answer, hr] at hs
  simp only [Resources.answer, hr] at hs
  rcases htail : r.tail with _ | ⟨call, tail⟩
  · simp [htail] at hs
  rw [htail] at hs
  cases call with
  | use =>
    cases hs
    exact h.setOpening (h.held.setOpening fun _ _ _ _ hactive => ⟨rfl, hactive⟩)
      (h.openings.setOpening (fun _ => Iff.rfl) (fun _ => rfl) fun x hx hs => by
        rw [hr] at hx
        cases hx
        exact hs.rest htail)
  | phase ph =>
    cases hs
    exact h.answered hr htail
  | shut run ph rest =>
    cases hs
    obtain ⟨hclosing, hruns⟩ := (h.openings.sound o r hr).last htail rfl
    exact (h.answered hr htail).serial_run (opening_setOpening_self hr) hruns hclosing
      (run?_nextCall ..)
  | close run =>
    cases hs
    exact h.ended hr htail

theorem RegisterInv.lease {role : LeaseRole} :
    RegisterInv { s with leases := s.leases ++ [⟨ns, role, none, false, []⟩] } := by
  have hnew (l : LeaseId) :
      (s.leases ++ [(⟨ns, role, none, false, []⟩ : LeaseRecord)])[l]? = s.leases[l]? ∨
        s.leases[l]? = none ∧ (s.leases ++ [(⟨ns, role, none, false, []⟩ : LeaseRecord)])[l]? =
          some (⟨ns, role, none, false, []⟩ : LeaseRecord) := by
    rcases Nat.lt_trichotomy l s.leases.length with hl | rfl | hl
    · exact .inl (getElem?_append_left hl)
    · exact .inr ⟨getElem?_eq_none (Nat.le_refl _), getElem?_concat_length⟩
    · refine .inl ?_
      rw [getElem?_eq_none (by simp; omega), getElem?_eq_none (by omega)]
  have hholder : ∀ l, Resources.holder { s with
      leases := s.leases ++ [⟨ns, role, none, false, []⟩] } l = s.holder l := by
    intro l
    rcases hnew l with hsame | ⟨hnone, hthis⟩
    · rw [Resources.holder, hsame, Resources.holder]
    · rw [Resources.holder, hthis, Resources.holder, hnone]
      rfl
  have hreleased : ∀ l, Resources.released { s with
      leases := s.leases ++ [⟨ns, role, none, false, []⟩] } l = s.released l := by
    intro l
    rcases hnew l with hsame | ⟨hnone, hthis⟩
    · rw [Resources.released, hsame, Resources.released]
    · rw [Resources.released, hthis, Resources.released, hnone]
      rfl
  have hsecrets : ∀ l, Resources.secrets { s with
      leases := s.leases ++ [⟨ns, role, none, false, []⟩] } l = s.secrets l := by
    intro l
    rcases hnew l with hsame | ⟨hnone, hthis⟩
    · rw [Resources.secrets, hsame, Resources.secrets]
    · rw [Resources.secrets, hthis, Resources.secrets, hnone]
      rfl
  exact ⟨h.held.of_same hholder hreleased rfl, h.openings.of_same rfl rfl rfl rfl rfl,
    h.secrets.of_same hsecrets (fun l => (hreleased l).trans) rfl rfl rfl,
    h.waiting.of_same hsecrets hreleased rfl fun _ ha => ha⟩

theorem registerInv_step (ha : MovesApart s i)
    (hs : registerStep s i = some s') : RegisterInv s' := by
  rw [registerStep.eq_def] at hs
  split at hs
  · cases hs
  next hleases =>
  have hlt : ∀ l ∈ i.leases, l < s.leases.length := by
    intro l hl
    rw [any_eq_true] at hleases
    refine Nat.lt_of_not_le fun hle => hleases ⟨l, hl, decide_eq_true hle⟩
  cases i with
  | lease ns role =>
    cases hs
    exact h.lease
  | keep l bytes =>
    cases hs
    exact h.keep (hlt l mem_cons_self)
  | drop l bytes =>
    cases hs
    exact h.drop (hlt l mem_cons_self)
  | adopt l ns =>
    cases hs
    exact h.adopt
  | move source target =>
    cases hs
    exact h.move (hlt target (mem_cons_of_mem _ mem_cons_self)) ha
  | use o =>
    cases hs
    rw [use]
    split
    · exact h.serial rfl
    · exact h
  | phase o ph =>
    cases hs
    rw [phase]
    split
    · exact h.serial rfl
    · exact h
  | release l =>
    cases hs
    exact h.release (hlt l mem_cons_self)
  | retry ns =>
    cases hs
    exact h.retry ns
  | answer o ok => exact h.answer hs

end

theorem registerInv_reaches (h : Reaches registerStep MovesApart .start s) : RegisterInv s :=
  h.invariant registerInv_start fun _ _ _ hinv ha hs => registerInv_step hinv ha hs

/-! ### No lease is forgotten -/

theorem length_setHolder {h : Option OpeningId} :
    (s.setHolder l h).leases.length = s.leases.length := length_modify _ _ _

theorem length_wipe : (s.wipe l).leases.length = s.leases.length := length_modify _ _ _

theorem length_setReleased : (s.setReleased l).leases.length = s.leases.length :=
  length_modify _ _ _

theorem length_close : (s.close o).1.leases.length = s.leases.length := by
  rw [close]
  split
  · rfl
  split
  · rfl
  · split <;> rfl

theorem length_release : (s.release l).leases.length = s.leases.length := by
  have hs : (((s.setReleased l).setHolder l none)).leases.length = s.leases.length :=
    length_setHolder.trans length_setReleased
  have hclose : ∀ o, ((((s.setReleased l).setHolder l none).toClosing o).close o).1.leases.length =
      s.leases.length := fun o => length_close.trans hs
  rw [release]
  split
  · exact length_wipe.trans hs
  next o _ =>
  have ho := hclose o
  split
  · next s₁ run heq => rw [heq] at ho; exact ho
  · next s₁ heq => rw [heq] at ho; exact length_wipe.trans ho

theorem length_adopt : (s.adopt l ns).leases.length = s.leases.length := by
  rw [adopt]
  split
  · exact length_close
  · exact length_setHolder

theorem length_move : (s.move l l').leases.length = s.leases.length := by
  rw [move]
  split
  · rfl
  · simp [moveSecrets, setSecrets, (moveHolder_frame s l l').1]

theorem length_use : (s.use o).leases.length = s.leases.length := by
  rw [use]
  split <;> rfl

theorem length_phase {ph : ShutdownPhase} : (s.phase o ph).leases.length = s.leases.length := by
  rw [phase]
  split <;> rfl

theorem length_retry {ns : Option String} : (s.retry ns).leases.length = s.leases.length := by
  rw [retry]
  generalize (s.openings.filter _) = os
  induction os generalizing s with
  | nil => rfl
  | cons o rest ih => exact ih.trans length_close

theorem length_wipeWaiting : (s.wipeWaiting run).leases.length = s.leases.length := by
  rw [wipeWaiting]
  generalize (map _ _) = ls
  have hfold : ∀ t : Resources, (ls.foldl wipe t).leases.length = t.leases.length := by
    induction ls with
    | nil => exact fun _ => rfl
    | cons l rest ih => exact fun t => (ih _).trans length_wipe
  exact hfold _

theorem length_answer (hs : s.answer o ok = some s') : s'.leases.length = s.leases.length := by
  rw [answer] at hs
  split at hs
  · cases hs
  dsimp only at hs
  split at hs <;> cases hs
  · rfl
  · rfl
  · rfl
  · exact length_wipeWaiting
/-! ### What has begun to close -/

def Aged (s s' : Resources) : Prop :=
  ∀ o r, s.opening o = some r → ∃ r', s'.opening o = some r' ∧
    (r.state ≠ .active → r'.state ≠ .active)

theorem Aged.refl : Aged s s := fun _ r hr => ⟨r, hr, fun hne => hne⟩

section

variable (h : Aged s s')
include h

theorem Aged.of_adopted {s₂ : Resources} (hadopted : s₂.adopted = s'.adopted) : Aged s s₂ := by
  intro o r hr
  rw [opening, hadopted]
  exact h o r hr

theorem Aged.setOpening (hf : ∀ r, r.state ≠ .active → (f r).state ≠ .active) :
    Aged s (s'.setOpening o f) := by
  intro o' r hr
  obtain ⟨r', hr', hkeep⟩ := h o' r hr
  by_cases heq : o = o'
  · subst heq
    exact ⟨f r', opening_setOpening_self hr', fun hne => hf r' (hkeep hne)⟩
  · exact ⟨r', (opening_setOpening_ne heq).trans hr', hkeep⟩

theorem Aged.toClosing : Aged s (s'.toClosing o) :=
  h.setOpening fun _ _ => toClosing_ne_active

theorem Aged.serial : Aged s (s'.serial o call) := h.setOpening fun _ hne => hne

theorem Aged.attempt : Aged s (s'.attempt o done) := by
  have hset : Aged s ((s'.serial o (nextCall s'.nextRun done
      [.quiesce, .seal])).setOpening o fun r => { r with closing := some s'.nextRun }) :=
    h.serial.setOpening fun _ hne => hne
  exact hset.of_adopted rfl

theorem Aged.close : Aged s (s'.close o).1 := by
  rw [Resources.close]
  split
  · exact h
  split
  · exact h
  split
  · exact h
  · exact h.attempt

end

theorem Aged.foldl_close {os : List OpeningId} (h : Aged s s') :
    Aged s (os.foldl (fun s o => (s.close o).1) s') :=
  foldlRecOn os _ h fun _ haged _ _ => haged.close

theorem adopted_foldl_wipe : (ls.foldl wipe s).adopted = s.adopted := by
  induction ls generalizing s with
  | nil => rfl
  | cons l ls ih => exact ih

theorem aged_answer (hs : s.answer o ok = some s') : Aged s s' := by
  rcases hr : s.opening o with _ | r
  · simp [answer, hr] at hs
  simp only [answer, hr] at hs
  rcases htail : r.tail with _ | ⟨call, tail⟩
  · simp [htail] at hs
  rw [htail] at hs
  cases call with
  | use | phase ph =>
    cases hs
    exact Aged.refl.setOpening fun _ hne => hne
  | shut run ph rest =>
    cases hs
    refine Aged.serial ?_
    exact Aged.refl.setOpening fun _ hne => hne
  | close run =>
    cases hs
    have hended : Aged s
        (s.setOpening o fun r => OpeningRecord.ended run ok { r with tail }) := by
      refine Aged.refl.setOpening fun r hne => ?_
      dsimp only [OpeningRecord.ended]
      split
      · nofun
      · exact hne
    exact hended.of_adopted adopted_foldl_wipe

theorem aged_step (hs : registerStep s i = some s') : Aged s s' := by
  rw [registerStep.eq_def] at hs
  split at hs
  · cases hs
  cases i with
  | lease ns role | drop l bytes =>
    cases hs
    exact Aged.refl.of_adopted rfl
  | keep l bytes =>
    cases hs
    refine Aged.refl.of_adopted ?_
    rw [keep]
    split <;> rfl
  | adopt l ns =>
    cases hs
    have hregistered : Aged s { s with
        adopted := s.adopted ++ [⟨ns, l, .active, [], [], none⟩]
        openings := s.openings ++ [s.adopted.length] } := fun o r hr => by
      refine ⟨r, ?_, fun hne => hne⟩
      rw [opening, List.getElem?_append_left (List.getElem?_eq_some_iff.mp hr).1]
      exact hr
    rw [adopt]
    split
    · exact hregistered.toClosing.close
    · exact hregistered.of_adopted rfl
  | move source target =>
    cases hs
    rw [move]
    split
    · exact .refl
    have hmoved : Aged s (s.moveHolder source target) := by
      rw [moveHolder]
      split
      · next o _ _ =>
        have hset : Aged s (s.setOpening o fun r => { r with lease := target }) :=
          Aged.refl.setOpening fun _ hne => hne
        exact hset.of_adopted rfl
      · exact .refl
    exact hmoved.of_adopted rfl
  | use o =>
    cases hs
    rw [use]
    split
    · exact Aged.refl.serial
    · exact .refl
  | phase o ph =>
    cases hs
    rw [phase]
    split
    · exact Aged.refl.serial
    · exact .refl
  | release l =>
    cases hs
    rw [release]
    split
    · exact Aged.refl.of_adopted rfl
    next o _ =>
    have hdetached : Aged s ((s.setReleased l).setHolder l none) := Aged.refl.of_adopted rfl
    have hclosed : Aged s ((((s.setReleased l).setHolder l none).toClosing o).close o).1 :=
      hdetached.toClosing.close
    split <;> next heq =>
      rw [heq] at hclosed
      exact hclosed.of_adopted rfl
  | retry ns =>
    cases hs
    exact Aged.refl.foldl_close
  | answer o ok => exact aged_answer hs

theorem aged_reaches (h : Reaches registerStep MovesApart s s') : Aged s s' := by
  induction h with
  | start => exact .refl
  | step _ _ hs ih =>
    intro o r hr
    obtain ⟨r', hr', hkeep⟩ := ih o r hr
    obtain ⟨r₂, hr₂, hkeep'⟩ := aged_step hs o r' hr'
    exact ⟨r₂, hr₂, fun hne => hkeep' (hkeep hne)⟩

theorem adopt_released (h : RegisterInv s) (hreleased : s.released l = true)
    (hs : registerStep s (.adopt l ns) = some s') :
    s'.state s.adopted.length = some .closing ∧ (∀ x, s'.holder x ≠ some s.adopted.length) ∧
      ∃ a ∈ s'.attempts, a.opening = s.adopted.length := by
  rw [registerStep.eq_def] at hs
  split at hs
  · cases hs
  cases hs
  have hnew : opening { s with
      adopted := s.adopted ++ [⟨ns, l, .active, [], [], none⟩]
      openings := s.openings ++ [s.adopted.length] } s.adopted.length =
      some ⟨ns, l, .active, [], [], none⟩ := getElem?_concat_length
  have hclosing := opening_setOpening_self (f := (·.toClosing)) hnew
  have hadopt : s.adopt l ns = attempt (toClosing { s with
      adopted := s.adopted ++ [⟨ns, l, .active, [], [], none⟩]
      openings := s.openings ++ [s.adopted.length] } s.adopted.length) s.adopted.length [] := by
    rw [adopt, if_pos (.inl hreleased), close]
    simp only [toClosing, hclosing]
    rfl
  rw [hadopt]
  refine ⟨?_, fun x hx => ?_, ⟨s.nextRun, s.adopted.length⟩,
    mem_append_right _ mem_cons_self, rfl⟩
  · have hfinal := opening_setOpening_self (f := fun r => { r with closing := some s.nextRun })
      (opening_setOpening_self (f := fun r => { r with
        tail := r.tail ++ [nextCall s.nextRun [] [.quiesce, .seal]] }) hclosing)
    exact congrArg (Option.map (·.state)) hfinal
  · obtain ⟨r, hr, -⟩ := h.held.held x s.adopted.length hx
    exact absurd (List.getElem?_eq_some_iff.mp hr).1 (Nat.lt_irrefl _)

/-- **The register**: an opening is held by one lease at most, and is registered until the host has
    closed it; one that is adopted into a released lease is closing at once; what is closing is
    never active again; an opening has one close attempt at a time.  Only the bytes of a released
    lease are overwritten, and all of them, unless an attempt that its release waits for runs. -/
theorem register_kept (h : Reaches registerStep MovesApart .start s) :
    (∀ o x y, s.holder x = some o → s.holder y = some o → x = y) ∧
    (∀ o < s.adopted.length, o ∈ s.openings ∨ o ∈ s.closedByHost) ∧
    (∀ x ns s', s.released x = true → registerStep s (.adopt x ns) = some s' →
      s'.state s.adopted.length = some .closing ∧ (∀ y, s'.holder y ≠ some s.adopted.length) ∧
        ∃ a ∈ s'.attempts, a.opening = s.adopted.length) ∧
    (∀ o s', Reaches registerStep MovesApart s s' → s.state o = some .closing →
      s'.state o ≠ some .active) ∧
    (s.attempts.map (·.opening)).Nodup ∧
    (∀ x b, s.released x = true → (x, b) ∈ s.arrived →
      b ∈ s.zeroed ∨ ∃ a ∈ s.attempts, (x, a.run) ∈ s.waiting) ∧
    ∀ b ∈ s.zeroed, b ∈ s.dropped ∨ ∃ x, s.released x = true ∧ (x, b) ∈ s.arrived := by
  have hinv := registerInv_reaches h
  refine ⟨fun o x y => hinv.held.unique, fun o ho => ?_,
    fun x ns s' hreleased hs => adopt_released hinv hreleased hs, fun o s' h' hclosing => ?_,
    hinv.openings.unique, fun x b hreleased hb => ?_, fun b hb => ?_⟩
  · have hr : s.opening o = some s.adopted[o] := getElem?_eq_getElem ho
    by_cases hc : s.adopted[o].state = .closed
    · exact .inr (hinv.openings.closed o _ hr hc)
    · exact .inl (hinv.openings.registered o _ hr hc)
  · obtain ⟨r, hr, hstate⟩ := Option.map_eq_some_iff.mp hclosing
    obtain ⟨r', hr', hkeep⟩ := aged_reaches h' o r hr
    rw [state, hr', Option.map_some]
    intro hactive
    exact hkeep (by rw [hstate]; nofun) (Option.some.inj hactive)
  · rcases hinv.secrets.arrived x b hb with hmem | hzeroed
    · rcases hinv.waiting.wiped x hreleased with hnone | ⟨run, hrun⟩
      · rw [hnone] at hmem
        cases hmem
      · obtain ⟨a, ha, heq⟩ := hinv.waiting.running _ hrun
        exact .inr ⟨a, ha, heq ▸ hrun⟩
    · exact .inl hzeroed
  · exact (hinv.secrets.intact b hb).imp_right fun ⟨x, hx, _, hmem⟩ => ⟨x, hx, hmem⟩

/-- A call lease hands an opening and its bytes over, takes others, and is released; the session
    that has them is released later, and its close fails once. -/
theorem register_kept_run : ∃ s : Resources, s.released 0 = true ∧ s.released 1 = true ∧
    (0, 7) ∈ s.arrived ∧ 7 ∈ s.zeroed ∧ (1, 5) ∈ s.arrived ∧ 5 ∈ s.zeroed ∧ 0 ∈ s.openings := by
  obtain ⟨s, hs, hp⟩ := Reaches.of_exec registerStep MovesApart .start
    [.lease "n" .call, .lease "n" .session, .adopt 0 "n", .keep 0 [5], .move 0 1, .release 0,
      .keep 0 [7], .use 0, .release 1, .answer 0 true, .answer 0 true, .answer 0 false,
      .answer 0 false, .retry none]
    (fun s => decide (s.released 0 = true ∧ s.released 1 = true ∧ (0, 7) ∈ s.arrived ∧
      (1, 5) ∈ s.arrived ∧ s.waiting = [] ∧ 0 ∉ s.closedByHost ∧ 0 < s.adopted.length))
    (by decide +kernel)
  obtain ⟨h0, h1, h7, h5, hwaiting, hopen, hlt⟩ := of_decide_eq_true hp
  obtain ⟨-, hregistered, -, -, -, hzeroed, -⟩ := register_kept hs
  refine ⟨s, h0, h1, h7, ?_, h5, ?_, (hregistered 0 hlt).resolve_right hopen⟩
  · rcases hzeroed 0 7 h0 h7 with hz | ⟨a, -, ha⟩
    · exact hz
    · rw [hwaiting] at ha
      cases ha
  · rcases hzeroed 1 5 h1 h5 with hz | ⟨a, -, ha⟩
    · exact hz
    · rw [hwaiting] at ha
      cases ha

/-- The host hangs in the close of a released lease: its bytes were never handed over, and they are
    not overwritten. -/
theorem released_not_zeroed : ∃ s : Resources,
    Reaches registerStep MovesApart .start s ∧ s.released 0 = true ∧
      (0, 5) ∈ s.arrived ∧ 5 ∉ s.zeroed := by
  obtain ⟨s, hs, hp⟩ := Reaches.of_exec registerStep MovesApart .start
    [.lease "n" .session, .adopt 0 "n", .keep 0 [5], .release 0, .answer 0 true, .answer 0 true]
    (fun s => decide (s.released 0 = true ∧ (0, 5) ∈ s.arrived ∧ 5 ∉ s.zeroed)) (by decide +kernel)
  exact ⟨s, hs, of_decide_eq_true hp⟩

end

end WebOfTrust
