/-
  **The holder host** (`adapters/rltp/host.ts`).

  An `open` is a call that goes on when what it awaits has settled: the writer lock, a build or a
  close of its namespace, its own build.  A build ends and a close answers at any later time, each
  once; what follows the answer of a close (`dropped`, `releaseIfIdle`) runs on its own (`finals`).
  A handle is the place of its opening in `made`; `out` is what the host has told its environment.
-/
import Mathlib.Data.List.Perm.Basic
import WebOfTrust.Machine

namespace WebOfTrust

open Machine Option Function
open List hiding drop getElem?_eq_some_iff map_map

/-! ## 1. Openings, builds and calls -/

abbrev HandleId := Nat
abbrev BuildId := Nat
abbrev ShutId := Nat

abbrev ReadModels := Nat

abbrev DiagnosticCode := String

inductive StateCodecErrorCode where
  | codecTypeUri
  | codecNewer
  | codecUnknown
  | shape
  | notJson

inductive StateUnreadableCause where
  | earlier
  | newer
  | unknown
  | damaged

def UNREADABLE : StateCodecErrorCode → StateUnreadableCause
  | .codecTypeUri => .earlier
  | .codecNewer => .newer
  | .codecUnknown => .unknown
  | .shape => .damaged
  | .notJson => .damaged

structure HostOpening where
  ns : String
  /-- `false` for a failed build whose holder did not close. -/
  session : Bool
  deregOnly : Bool
  closed : Bool
  /-- The last models of its session. -/
  models : Option ReadModels
  diagnosed : List DiagnosticCode
  shut : Option ShutId

inductive BuildFailure where
  | codec (code : StateCodecErrorCode)
  | other

structure HostBuild where
  ns : String
  deregOnly : Bool
  diagnosed : List DiagnosticCode
  /-- `none` while it runs. -/
  result : Option (Except BuildFailure HandleId)

structure HostShut where
  handle : HandleId
  ns : String
  result : Option Bool

/-- What `writer.acquire()` answers: the lock, `null`, or an exception. -/
inductive WriterAnswer where
  | granted
  | taken
  | threw
deriving DecidableEq

/-- The promise of an acquisition: whether the lock is held, or an exception. -/
inductive Acquired where
  | held (b : Bool)
  | threw

/-- What an `open` awaits. -/
inductive OpenStage where
  | held
  | acquire (a : Nat)
  /-- In `alone`: the build of the namespace, a close that runs, one that was tried again, or the
      end of an opening that is in use. -/
  | settle (b : BuildId)
  | shut (run : ShutId)
  | drop (run : ShutId)
  | wait
  | woken
  | build (b : BuildId)
deriving DecidableEq

structure OpenCall where
  ns : String
  deregOnly : Bool
  stage : OpenStage

inductive OpenAnswer where
  | ok (holder : HandleId)
  | otherWriter
  | stateUnreadable (cause : StateUnreadableCause)
  | thrown

inductive HostOutput where
  | answer (ns : String) (a : OpenAnswer)
  | leaseActivate (h : HandleId)
  | leaseDeactivate (h : HandleId)
  | offer (h : HandleId)
  | onCurrent (h : Option HandleId)
  /-- `publish`, with the opening whose models they are. -/
  | publish (models : Option (HandleId × ReadModels))
  | emit (h : HandleId)
  | diagnostic (code : DiagnosticCode)

structure HolderHost where
  made : List HostOpening
  openings : List HandleId
  current : Option HandleId
  lock : Bool
  acquiring : Option Nat
  acquisitions : List (Option Acquired)
  deleting : List String
  building : Nat
  calls : List OpenCall
  builds : String → Option BuildId
  started : List HostBuild
  /-- Every close that was started. -/
  shuts : List HostShut
  finals : List String
  out : List HostOutput

namespace HolderHost

def start : HolderHost where
  made := []
  openings := []
  current := none
  lock := false
  acquiring := none
  acquisitions := []
  deleting := []
  building := 0
  calls := []
  builds _ := none
  started := []
  shuts := []
  finals := []
  out := []

def opening (s : HolderHost) (h : HandleId) : Option HostOpening := s.made[h]?

def nsOf (s : HolderHost) (h : HandleId) : Option String := (s.opening h).map (·.ns)

def build (s : HolderHost) (b : BuildId) : Option HostBuild := s.started[b]?

def shut (s : HolderHost) (run : ShutId) : Option HostShut := s.shuts[run]?

/-- `of`: the openings of a namespace. -/
def ofNs (s : HolderHost) (ns : String) : List HandleId :=
  s.openings.filter fun h => decide (s.nsOf h = some ns)

/-- `opening`: registered, in use and with a session. -/
def live (s : HolderHost) (h : HandleId) : Option HostOpening :=
  if h ∈ s.openings then (s.opening h).filter fun o => !o.closed && o.session else none

def tell (s : HolderHost) (out : List HostOutput) : HolderHost := { s with out := s.out ++ out }

def setOpening (s : HolderHost) (h : HandleId) (f : HostOpening → HostOpening) : HolderHost :=
  { s with made := s.made.modify h f }

/-! ## 2. The operations -/

def releaseIfIdle (s : HolderHost) : HolderHost :=
  if s.openings ≠ [] ∨ 0 < s.building ∨ s.deleting ≠ [] ∨ s.lock = false then s
  else { s with lock := false }

def setCurrent (s : HolderHost) : Option HandleId → HolderHost
  | none => { s with current := none }.tell [.onCurrent none, .publish none]
  | some h =>
    match s.opening h with
    | none => s
    | some o =>
      { s.setOpening h fun o => { o with diagnosed := [] } with current := some h }.tell
        (.leaseActivate h :: .offer h :: .onCurrent (some h) ::
          (o.diagnosed.map HostOutput.diagnostic ++
            (o.models.map fun m => HostOutput.publish (some (h, m))).toList))

/-- `o.close()`: the session drops its models at once, and answers later. -/
def startShut (s : HolderHost) (h : HandleId) (o : HostOpening) : HolderHost :=
  { s.setOpening h fun o => { o with models := none, shut := some s.shuts.length } with
    shuts := s.shuts ++ [⟨h, o.ns, none⟩] }

def endUse (s : HolderHost) (h : HandleId) : HolderHost :=
  let closed := s.setOpening h fun o => { o with closed := true }
  if s.current = some h then closed.setCurrent none else closed

def drop (s : HolderHost) (h : HandleId) : HolderHost :=
  match s.opening h with
  | none => s
  | some o => if o.shut.isSome then s.endUse h else (s.endUse h).startShut h o

/-- `dropped`: who waits for the next end of a build or a close of the namespace goes on. -/
def dropped (s : HolderHost) (ns : String) : HolderHost :=
  { s with calls := s.calls.map fun c =>
      if c.ns = ns ∧ c.stage = .wait then { c with stage := .woken } else c }

/-- `alone`: before a namespace opens, what runs of it has to end. -/
def alone (s : HolderHost) (h : HandleId) : HolderHost × OpenStage :=
  match s.opening h with
  | none => (s, .wait)
  | some o =>
    match o.shut with
    | some run => (s, .shut run)
    | none => if o.closed then (s.drop h, .drop s.shuts.length) else (s, .wait)

/-- The loop of `open`: the namespace is claimed when no build of it runs and no opening is left. -/
def claim (s : HolderHost) (ns : String) (deregOnly : Bool) : HolderHost × OpenStage :=
  match s.builds ns with
  | some b => (s, .settle b)
  | none =>
    match s.ofNs ns with
    | h :: _ => s.alone h
    | [] =>
      ({ s with
          started := s.started ++ [⟨ns, deregOnly, [], none⟩]
          builds := update s.builds ns (some s.started.length) },
        .build s.started.length)

def claims (s : HolderHost) (k : Nat) (call : OpenCall) : HolderHost :=
  let did := s.claim call.ns call.deregOnly
  { did.1 with calls := did.1.calls.set k { call with stage := did.2 } }

def finish (s : HolderHost) (k : Nat) (ns : String) (answer : OpenAnswer) : HolderHost :=
  ({ s with calls := s.calls.eraseIdx k, building := s.building - 1 }.releaseIfIdle).tell
    [.answer ns answer]

def freed (s : HolderHost) (ns : String) (b : BuildId) : HolderHost :=
  if s.builds ns = some b then { s with builds := update s.builds ns none } else s

def built (s : HolderHost) (k : Nat) (call : OpenCall) (b : BuildId)
    (result : Except BuildFailure HandleId) : HolderHost :=
  let ended := (s.freed call.ns b).dropped call.ns
  match result with
  | .ok h => ended.finish k call.ns (.ok h)
  | .error (.codec code) =>
    (ended.tell [.diagnostic "holder-state-refused"]).finish k call.ns
      (.stateUnreadable (UNREADABLE code))
  | .error .other => ended.finish k call.ns .thrown

/-- What an `open` does when what it awaits has settled. -/
def goOn (s : HolderHost) (k : Nat) (call : OpenCall) : Option HolderHost :=
  match call.stage with
  | .held => some (s.claims k call)
  | .acquire a =>
    match s.acquisitions[a]? with
    | some (some (.held true)) => some (s.claims k call)
    | some (some (.held false)) => some (s.finish k call.ns .otherWriter)
    | some (some .threw) => some (s.finish k call.ns .thrown)
    | _ => none
  | .settle b =>
    if ((s.build b).bind (·.result)).isSome then some (s.claims k call) else none
  | .shut run => if ((s.shut run).bind (·.result)).isSome then some (s.claims k call) else none
  | .drop run =>
    match (s.shut run).bind (·.result) with
    | some true => some (s.claims k call)
    | some false => some (s.finish k call.ns .thrown)
    | none => none
  | .wait => none
  | .woken => some (s.claims k call)
  | .build b =>
    match (s.build b).bind (·.result) with
    | some result => some (s.built k call b result)
    | none => none

/-- `open`, up to its first `await`. -/
def openNs (s : HolderHost) (ns : String) (deregOnly : Bool) : HolderHost :=
  let begun := { s with building := s.building + 1 }
  if s.lock then { begun with calls := s.calls ++ [⟨ns, deregOnly, .held⟩] }
  else
    match s.acquiring with
    | some a => { begun with calls := s.calls ++ [⟨ns, deregOnly, .acquire a⟩] }
    | none =>
      { begun with
        acquiring := some s.acquisitions.length
        acquisitions := s.acquisitions ++ [none]
        calls := s.calls ++ [⟨ns, deregOnly, .acquire s.acquisitions.length⟩] }

def acquireAnswers (s : HolderHost) (a : Nat) (answer : WriterAnswer) : HolderHost :=
  let lock := s.lock || decide (answer = .granted)
  { s with
    acquiring := none
    lock
    acquisitions := s.acquisitions.set a (some (if answer = .threw then .threw else .held lock)) }

inductive BuildEnd where
  | opened
  | failed (reason : BuildFailure)
  | unclosed (reason : BuildFailure)

def settleBuild (s : HolderHost) (b : BuildId) (result : Except BuildFailure HandleId) :
    HolderHost :=
  { s with started := s.started.modify b fun r => { r with result := some result } }

/-- An opening is registered, as `self` or as the orphan of a failed build. -/
def register (s : HolderHost) (o : HostOpening) : HolderHost :=
  { s with made := s.made ++ [o], openings := s.openings ++ [s.made.length] }

def buildEnds (s : HolderHost) (b : BuildId) (r : HostBuild) : BuildEnd → HolderHost
  | .opened =>
    (s.register ⟨r.ns, true, r.deregOnly, false, none, r.diagnosed, none⟩).settleBuild b
      (.ok s.made.length)
  | .failed reason => s.settleBuild b (.error reason)
  | .unclosed reason =>
    (s.register ⟨r.ns, false, r.deregOnly, true, none, [], none⟩).settleBuild b (.error reason)

inductive ShutAnswer where
  | closed
  | failed
  /-- `HolderCloseTimeout`. -/
  | timedOut
deriving DecidableEq

def shutAnswers (s : HolderHost) (run : ShutId) (r : HostShut) (answer : ShutAnswer) : HolderHost :=
  let ended := { s with
    shuts := s.shuts.set run { r with result := some (decide (answer = ShutAnswer.closed)) }
    finals := s.finals ++ [r.ns] }
  match answer with
  | .closed => { ended with openings := s.openings.filter (· ≠ r.handle) }
  | .failed => ended.setOpening r.handle fun o => { o with shut := none }
  | .timedOut =>
    (ended.setOpening r.handle fun o => { o with shut := none }).tell
      [.diagnostic "holder-close-timeout"]

def sessionPublishes (s : HolderHost) (h : HandleId) (m : ReadModels) : HolderHost :=
  let kept := s.setOpening h fun o => { o with models := some m }
  if s.current = some h then kept.tell [.publish (some (h, m))] else kept

def sessionEmits (s : HolderHost) (h : HandleId) : HolderHost :=
  if s.current = some h then s.tell [.emit h] else s

def sessionDiagnoses (s : HolderHost) (h : HandleId) (code : DiagnosticCode) : HolderHost :=
  if s.current = some h then s.tell [.diagnostic code]
  else s.setOpening h fun o => { o with diagnosed := o.diagnosed ++ [code] }

def buildDiagnoses (s : HolderHost) (b : BuildId) (code : DiagnosticCode) : HolderHost :=
  { s with started := s.started.modify b fun r => { r with diagnosed := r.diagnosed ++ [code] } }

def deregister (s : HolderHost) (h : HandleId) : HolderHost :=
  match s.live h with
  | some o => if o.ns ∈ s.deleting then s else { s with deleting := s.deleting ++ [o.ns] }
  | none => s

def activate (s : HolderHost) (h : HandleId) : HolderHost :=
  match s.live h with
  | some o => if o.deregOnly = false ∧ s.current ≠ some h then s.setCurrent (some h) else s
  | none => s

def deactivate (s : HolderHost) : HolderHost :=
  match s.current with
  | none => s
  | some h => (s.tell [.leaseDeactivate h]).setCurrent none

def close (s : HolderHost) (h : HandleId) : HolderHost := if h ∈ s.openings then s.drop h else s

def forget (s : HolderHost) (ns : String) : HolderHost :=
  ((s.ofNs ns).foldl drop s).releaseIfIdle

def wiped (s : HolderHost) (ns : String) : HolderHost :=
  { s with deleting := s.deleting.filter (· ≠ ns) }.releaseIfIdle

end HolderHost

/-! ## 3. Steps -/

open HolderHost

inductive HostInput where
  | openNs (ns : String) (deregOnly : Bool)
  | acquireAnswers (answer : WriterAnswer)
  | goOn (k : Nat)
  | buildEnds (b : BuildId) (e : BuildEnd)
  | shutAnswers (run : ShutId) (answer : ShutAnswer)
  | final (k : Nat)
  | activate (h : HandleId)
  | deactivate
  | close (h : HandleId)
  | deregister (h : HandleId)
  | forget (ns : String)
  | wiped (ns : String)
  | publishes (h : HandleId) (m : ReadModels)
  | emits (h : HandleId)
  | diagnoses (h : HandleId) (code : DiagnosticCode)
  | buildDiagnoses (b : BuildId) (code : DiagnosticCode)

def hostStep (s : HolderHost) : HostInput → Option HolderHost
  | .openNs ns deregOnly => some (s.openNs ns deregOnly)
  | .acquireAnswers answer => s.acquiring.map fun a => s.acquireAnswers a answer
  | .goOn k => (s.calls[k]?).bind fun call => s.goOn k call
  | .buildEnds b e =>
    match s.build b with
    | some r => if r.result.isNone then some (s.buildEnds b r e) else none
    | none => none
  | .shutAnswers run answer =>
    match s.shut run with
    | some r => if r.result.isNone then some (s.shutAnswers run r answer) else none
    | none => none
  | .final k =>
    (s.finals[k]?).map fun ns =>
      ({ s with finals := s.finals.eraseIdx k }.dropped ns).releaseIfIdle
  | .activate h => some (s.activate h)
  | .deactivate => some s.deactivate
  | .close h => some (s.close h)
  | .deregister h => some (s.deregister h)
  | .forget ns => some (s.forget ns)
  | .wiped ns => some (s.wiped ns)
  | .publishes h m => some (s.sessionPublishes h m)
  | .emits h => some (s.sessionEmits h)
  | .diagnoses h code => some (s.sessionDiagnoses h code)
  | .buildDiagnoses b code => some (s.buildDiagnoses b code)

section

variable {s s' s'' : HolderHost} {h x : HandleId} {ns : String} {f : HostOpening → HostOpening}
  {o : HostOpening} {b : BuildId} {a : Option HandleId} {out : List HostOutput} {k : Nat}
  {call : OpenCall} {i : HostInput} {result : Except BuildFailure HandleId}

open HolderHost

/-! ## 4. What is the case between two steps -/

/-- The openings: one of a namespace is registered, until its close has answered; the current one is
    registered and not closed. -/
structure OpeningsOk (s : HolderHost) : Prop where
  registered : ∀ h ∈ s.openings, ∃ o, s.opening h = some o
  alone : ∀ h ∈ s.openings, ∀ x ∈ s.openings, s.nsOf h = s.nsOf x → h = x
  current : ∀ h, s.current = some h → h ∈ s.openings ∧ ∃ o, s.opening h = some o ∧ o.closed = false
  closing : ∀ run r, s.shut run = some r → ∃ o, s.opening r.handle = some o ∧ o.closed = true
  kept : ∀ h o, s.opening h = some o →
    h ∈ s.openings ∨ ∃ run r, s.shut run = some r ∧ r.handle = h ∧ r.result = some true

/-- The builds: one that runs is alone in its namespace, and its call waits for it. -/
structure BuildsOk (s : HolderHost) : Prop where
  running : ∀ b r, s.build b = some r → r.result = none →
    s.builds r.ns = some b ∧ ∀ h ∈ s.openings, s.nsOf h ≠ some r.ns
  claimed : ∀ ns b, s.builds ns = some b → ∃ call ∈ s.calls, call.ns = ns ∧ call.stage = .build b

def Holds (s : HolderHost) (call : OpenCall) : Prop :=
  match call.stage with
  | .acquire a => s.acquisitions[a]? = some (some (.held true)) → s.lock = true
  | _ => s.lock = true

structure LockOk (s : HolderHost) : Prop where
  counted : s.building = s.calls.length
  held : s.openings ≠ [] ∨ s.deleting ≠ [] → s.lock = true
  calls : ∀ call ∈ s.calls, Holds s call
  pending : ∀ a, s.acquiring = some a → s.acquisitions[a]? = some none

structure HostInv (s : HolderHost) : Prop where
  openings : OpeningsOk s
  builds : BuildsOk s
  lock : LockOk s

structure SameHost (s s' : HolderHost) : Prop where
  openings : s'.openings = s.openings
  nsOf : ∀ h, s'.nsOf h = s.nsOf h
  started : s'.started = s.started
  builds : s'.builds = s.builds
  calls : s'.calls = s.calls
  building : s'.building = s.building
  lock : s'.lock = s.lock
  deleting : s'.deleting = s.deleting
  acquiring : s'.acquiring = s.acquiring
  acquisitions : s'.acquisitions = s.acquisitions

/-- What is never taken back, and what is told meanwhile: an opening stays closed, only those that
    are not closed publish, and `a` at most becomes the current one. -/
structure Later (a : Option HandleId) (s s' : HolderHost) : Prop where
  opening : ∀ h o, s.opening h = some o →
    ∃ o', s'.opening h = some o' ∧ o'.ns = o.ns ∧ (o.closed = true → o'.closed = true)
  out : ∃ more, s'.out = s.out ++ more ∧
    ∀ h m, HostOutput.publish (some (h, m)) ∈ more → ∀ o, s.opening h = some o → o.closed = false
  current : ∀ h, s'.current = some h → s.current = some h ∨ a = some h

theorem SameHost.refl : SameHost s s := ⟨rfl, fun _ => rfl, rfl, rfl, rfl, rfl, rfl, rfl, rfl, rfl⟩

theorem SameHost.trans (h : SameHost s s') (h' : SameHost s' s'') : SameHost s s'' where
  openings := h'.openings.trans h.openings
  nsOf x := (h'.nsOf x).trans (h.nsOf x)
  started := h'.started.trans h.started
  builds := h'.builds.trans h.builds
  calls := h'.calls.trans h.calls
  building := h'.building.trans h.building
  lock := h'.lock.trans h.lock
  deleting := h'.deleting.trans h.deleting
  acquiring := h'.acquiring.trans h.acquiring
  acquisitions := h'.acquisitions.trans h.acquisitions

theorem BuildsOk.mono (hb : BuildsOk s) (hbuilds : s'.builds = s.builds)
    (hopenings : ∀ x ∈ s'.openings, x ∈ s.openings ∧ s'.nsOf x = s.nsOf x)
    (hstarted : ∀ b r, s'.build b = some r → r.result = none →
      ∃ r₀, s.build b = some r₀ ∧ r₀.result = none ∧ r₀.ns = r.ns)
    (hcalls : ∀ call ∈ s.calls, ∀ b, call.stage = .build b → call ∈ s'.calls) : BuildsOk s' where
  running b r hr hnone := by
    obtain ⟨r₀, hr₀, hnone₀, hns⟩ := hstarted b r hr hnone
    obtain ⟨hclaim, hne⟩ := hb.running b r₀ hr₀ hnone₀
    rw [hbuilds, ← hns]
    refine ⟨hclaim, fun x hx => ?_⟩
    rw [(hopenings x hx).2]
    exact hne x (hopenings x hx).1
  claimed ns b hbuild := by
    rw [hbuilds] at hbuild
    obtain ⟨call, hcall, hns, hstage⟩ := hb.claimed ns b hbuild
    exact ⟨call, hcalls call hcall b hstage, hns, hstage⟩

theorem SameHost.buildsOk (h : SameHost s s') (hb : BuildsOk s) : BuildsOk s' := by
  refine hb.mono h.builds (fun x hx => ⟨h.openings ▸ hx, h.nsOf x⟩) (fun b r hr hnone => ?_)
    fun call hcall _ _ => h.calls ▸ hcall
  rw [build, h.started] at hr
  exact ⟨r, hr, hnone, rfl⟩

theorem SameHost.lockOk (h : SameHost s s') (hl : LockOk s) : LockOk s' where
  counted := by rw [h.building, h.calls, hl.counted]
  held := by
    rw [h.openings, h.deleting, h.lock]
    exact hl.held
  calls call hcall := by
    rw [h.calls] at hcall
    simpa only [Holds, h.acquisitions, h.lock] using hl.calls call hcall
  pending := by
    rw [h.acquiring, h.acquisitions]
    exact hl.pending

theorem Later.refl : Later a s s where
  opening _ o ho := ⟨o, ho, rfl, id⟩
  out := ⟨[], (append_nil _).symm, nofun⟩
  current _ := .inl

theorem Later.trans (h : Later a s s') (h' : Later a s' s'') : Later a s s'' where
  opening x o ho := by
    obtain ⟨o₁, ho₁, hns₁, hclosed₁⟩ := h.opening x o ho
    obtain ⟨o₂, ho₂, hns₂, hclosed₂⟩ := h'.opening x o₁ ho₁
    exact ⟨o₂, ho₂, hns₂.trans hns₁, hclosed₂ ∘ hclosed₁⟩
  out := by
    obtain ⟨more, hout, hopen⟩ := h.out
    obtain ⟨more', hout', hopen'⟩ := h'.out
    refine ⟨more ++ more', by rw [hout', hout, append_assoc], fun x m hm o ho => ?_⟩
    rcases mem_append.mp hm with hm | hm
    · exact hopen x m hm o ho
    obtain ⟨o', ho', -, hclosed⟩ := h.opening x o ho
    have hfalse := hopen' x m hm o' ho'
    by_contra htrue
    rw [hclosed (eq_true_of_ne_false htrue)] at hfalse
    cases hfalse
  current x hx := (h'.current x hx).elim (h.current x) .inr

theorem Later.of_same (hmade : s'.made = s.made) (hcurrent : s'.current = s.current)
    (hout : s'.out = s.out) : Later a s s' where
  opening x o ho := ⟨o, by rw [HolderHost.opening, hmade]; exact ho, rfl, id⟩
  out := ⟨[], by rw [hout, append_nil], nofun⟩
  current x hx := .inl (hcurrent ▸ hx)

/-! ## 5. The openings under an operation -/

theorem opening_set : (s.setOpening h f).opening x =
    (s.opening x).map fun o => if h = x then f o else o := by
  rw [opening, setOpening, getElem?_modify]
  rfl

section

variable (hns : ∀ o, (f o).ns = o.ns)
include hns

theorem nsOf_setOpening : (s.setOpening h f).nsOf x = s.nsOf x := by
  rw [nsOf, opening_set, map_map, nsOf]
  congr 1
  funext o
  simp only [comp]
  split_ifs
  · exact hns o
  · rfl

theorem sameHost_setOpening : SameHost s (s.setOpening h f) :=
  ⟨rfl, fun _ => nsOf_setOpening hns, rfl, rfl, rfl, rfl, rfl, rfl, rfl, rfl⟩

theorem later_setOpening (hclosed : ∀ o, o.closed = true → (f o).closed = true) : Later a s
    (s.setOpening h f) where
  opening x o ho := by
    refine ⟨if h = x then f o else o, by rw [opening_set, ho, map_some], ?_, ?_⟩
    · split_ifs
      · exact hns o
      · rfl
    · split_ifs
      · exact hclosed o
      · exact id
  out := ⟨[], (append_nil _).symm, nofun⟩
  current _ := .inl

end

theorem openingsOk_setOpening (hs : OpeningsOk s) (hns : ∀ o, (f o).ns = o.ns)
    (hclosed : ∀ o, o.closed = true → (f o).closed = true)
    (hcurrent : s.current = some h → ∀ o, o.closed = false → (f o).closed = false) :
    OpeningsOk (s.setOpening h f) where
  registered x hx := by
    obtain ⟨o, ho⟩ := hs.registered x hx
    exact ⟨_, by rw [opening_set, ho, map_some]⟩
  alone x hx y hy heq := by
    rw [nsOf_setOpening hns, nsOf_setOpening hns] at heq
    exact hs.alone x hx y hy heq
  current x hx := by
    obtain ⟨hmem, o, ho, hopen⟩ := hs.current x hx
    refine ⟨hmem, _, by rw [opening_set, ho, map_some], ?_⟩
    split_ifs with heq
    · exact hcurrent (heq ▸ hx) o hopen
    · exact hopen
  closing run r hr := by
    obtain ⟨o, ho, htrue⟩ := hs.closing run r hr
    refine ⟨_, by rw [opening_set, ho, map_some], ?_⟩
    split_ifs
    · exact hclosed o htrue
    · exact htrue
  kept x o ho := by
    rw [opening_set] at ho
    obtain ⟨o', ho', -⟩ := map_eq_some_iff.mp ho
    exact hs.kept x o' ho'

theorem OpeningsOk.of_same (hs : OpeningsOk s) (hmade : s'.made = s.made)
    (hopenings : s'.openings = s.openings)
    (hcurrent : s'.current = none ∨ s'.current = s.current) (hshuts : s'.shuts = s.shuts) :
    OpeningsOk s' := by
  have hopening : ∀ x, s'.opening x = s.opening x := fun x => by
    rw [opening, hmade, opening]
  have hshut : ∀ run, s'.shut run = s.shut run := fun run => by
    rw [shut, hshuts, shut]
  refine ⟨?_, ?_, fun x hx => ?_, ?_, ?_⟩
  · simpa only [hopenings, hopening] using hs.registered
  · simpa only [hopenings, nsOf, hopening] using hs.alone
  · rcases hcurrent with hnone | hsame
    · rw [hnone] at hx
      cases hx
    · rw [hopenings, hopening]
      exact hs.current x (hsame ▸ hx)
  · simpa only [hshut, hopening] using hs.closing
  · simpa only [hopenings, hshut, hopening] using hs.kept

theorem later_tell (hout : ∀ h m, HostOutput.publish (some (h, m)) ∈ out →
    ∀ o, s.opening h = some o → o.closed = false) : Later a s (s.tell out) :=
  ⟨fun _ o ho => ⟨o, ho, rfl, id⟩, ⟨out, rfl, hout⟩, fun _ => .inl⟩

theorem sameHost_startShut : SameHost s (s.startShut h o) :=
  (sameHost_setOpening (h := h)
    (f := fun o => { o with models := none, shut := some s.shuts.length }) fun _ => rfl).trans
      ⟨rfl, fun _ => rfl, rfl, rfl, rfl, rfl, rfl, rfl, rfl, rfl⟩

theorem later_startShut : Later a s (s.startShut h o) :=
  (later_setOpening (h := h)
    (f := fun o => { o with models := none, shut := some s.shuts.length }) (fun _ => rfl)
      fun _ => id).trans (.of_same rfl rfl rfl)

theorem openingsOk_startShut {o' : HostOpening} (hs : OpeningsOk s) (ho : s.opening h = some o')
    (hclosed : o'.closed = true) : OpeningsOk (s.startShut h o) := by
  have hset := openingsOk_setOpening (h := h)
    (f := fun o => { o with models := none, shut := some s.shuts.length }) hs (fun _ => rfl)
    (fun _ => id) fun _ _ => id
  refine ⟨hset.registered, hset.alone, hset.current, fun run r hr => ?_, fun x o' ho' => ?_⟩
  · rcases getElem?_concat_cases hr with ⟨-, rfl⟩ | hr
    · exact ⟨_, opening_set.trans (congrArg _ ho), by simpa using hclosed⟩
    · exact hset.closing run r hr
  · refine (hset.kept x o' ho').imp_right fun ⟨run, r, hr, hrest⟩ => ⟨run, r, ?_, hrest⟩
    have hlt : run < s.shuts.length := (List.getElem?_eq_some_iff.mp hr).1
    exact (getElem?_append_left hlt).trans hr

theorem sameHost_setCurrent : SameHost s (s.setCurrent a) := by
  rcases a with _ | h
  · exact ⟨rfl, fun _ => rfl, rfl, rfl, rfl, rfl, rfl, rfl, rfl, rfl⟩
  rw [setCurrent]
  split
  · exact .refl
  · exact (sameHost_setOpening (h := h) (f := fun o => { o with diagnosed := [] })
      fun _ => rfl).trans ⟨rfl, fun _ => rfl, rfl, rfl, rfl, rfl, rfl, rfl, rfl, rfl⟩

theorem later_setCurrent_none : Later a s (s.setCurrent none) :=
  ⟨fun _ o ho => ⟨o, ho, rfl, id⟩, ⟨_, rfl, fun h m hm => by simp at hm⟩, nofun⟩

theorem endUse_kept (hs : OpeningsOk s) (ho : s.opening h = some o) :
    SameHost s (s.endUse h) ∧ Later a s (s.endUse h) ∧ OpeningsOk (s.endUse h) ∧
      (s.endUse h).opening h = some { o with closed := true } := by
  have hopening : (s.setOpening h fun o => { o with closed := true }).opening h =
      some { o with closed := true } := by
    rw [opening_set, ho]
    simp only [if_pos, map_some]
  have hlater : Later a s (s.setOpening h fun o => { o with closed := true }) :=
    later_setOpening (fun _ => rfl) fun _ _ => rfl
  have hsame : SameHost s (s.setOpening h fun o => { o with closed := true }) :=
    sameHost_setOpening fun _ => rfl
  rw [endUse]
  split_ifs with hcurrent
  · have hnone : OpeningsOk (s.setCurrent none) := hs.of_same rfl rfl (.inl rfl) rfl
    have hset : OpeningsOk ((s.setCurrent none).setOpening h fun o => { o with closed := true }) :=
      openingsOk_setOpening hnone (fun _ => rfl) (fun _ _ => rfl) nofun
    exact ⟨hsame.trans sameHost_setCurrent,
      hlater.trans later_setCurrent_none, hset.of_same rfl rfl (.inl rfl) rfl, hopening⟩
  · exact ⟨hsame, hlater, openingsOk_setOpening hs (fun _ => rfl) (fun _ _ => rfl)
      fun hc => absurd hc hcurrent, hopening⟩

theorem drop_kept (hs : OpeningsOk s) :
    SameHost s (s.drop h) ∧ Later a s (s.drop h) ∧ OpeningsOk (s.drop h) := by
  rw [drop]
  split
  · exact ⟨.refl, .refl, hs⟩
  next o ho =>
  obtain ⟨hsame, hlater, hopenings, hopening⟩ := endUse_kept (a := a) hs ho
  split
  · exact ⟨hsame, hlater, hopenings⟩
  · exact ⟨hsame.trans sameHost_startShut, hlater.trans later_startShut,
      openingsOk_startShut hopenings hopening rfl⟩

theorem drops_kept (hs : List HandleId) (hok : OpeningsOk s) :
    SameHost s (hs.foldl drop s) ∧ Later a s (hs.foldl drop s) ∧ OpeningsOk (hs.foldl drop s) := by
  induction hs generalizing s with
  | nil => exact ⟨.refl, .refl, hok⟩
  | cons h hs ih =>
    obtain ⟨hsame, hlater, hopenings⟩ := drop_kept (a := a) (h := h) hok
    obtain ⟨hsame', hlater', hopenings'⟩ := ih hopenings
    exact ⟨hsame.trans hsame', hlater.trans hlater', hopenings'⟩

theorem SameHost.hostInv (h : SameHost s s') (hinv : HostInv s) (hopenings : OpeningsOk s') :
    HostInv s' := ⟨hopenings, h.buildsOk hinv.builds, h.lockOk hinv.lock⟩

/-! ## 6. The lock and the calls -/

theorem holds_of_lock (h : s.lock = true) : Holds s call := by
  rw [Holds]
  split
  · exact fun _ => h
  · exact h

theorem lock_of_build (h : HostInv s) (hbuild : s.builds ns = some b) : s.lock = true := by
  obtain ⟨call, hcall, -, hstage⟩ := h.builds.claimed ns b hbuild
  have hholds := h.lock.calls call hcall
  rw [Holds, hstage] at hholds
  exact hholds

theorem hostInv_releaseIfIdle (h : HostInv s) : HostInv s.releaseIfIdle := by
  rw [releaseIfIdle]
  split
  · exact h
  next hidle =>
  obtain ⟨hopenings, hbuilding, hdeleting, -⟩ : s.openings = [] ∧ s.building = 0 ∧
      s.deleting = [] ∧ s.lock = true := by
    simp only [not_or, not_not, Nat.not_lt, Nat.le_zero, Bool.not_eq_false] at hidle
    exact hidle
  have hcalls : s.calls = [] :=
    eq_nil_of_length_eq_zero (h.lock.counted.symm.trans hbuilding)
  refine ⟨h.openings.of_same rfl rfl (.inr rfl) rfl, ⟨h.builds.running, h.builds.claimed⟩,
    h.lock.counted, ?_, ?_, h.lock.pending⟩
  · rintro (hne | hne)
    · exact absurd hopenings hne
    · exact absurd hdeleting hne
  · rintro call hcall
    rw [show s.calls = [] from hcalls] at hcall
    cases hcall

theorem later_releaseIfIdle : Later a s s.releaseIfIdle := by
  rw [releaseIfIdle]
  split
  · exact .refl
  · exact .of_same rfl rfl rfl

theorem hostInv_tell (h : HostInv s) : HostInv (s.tell out) := by
  have hsame : SameHost s (s.tell out) :=
    ⟨rfl, fun _ => rfl, rfl, rfl, rfl, rfl, rfl, rfl, rfl, rfl⟩
  exact hsame.hostInv h (h.openings.of_same rfl rfl (.inr rfl) rfl)

theorem hostInv_dropped (h : HostInv s) (ns : String) : HostInv (s.dropped ns) := by
  refine ⟨h.openings.of_same rfl rfl (.inr rfl) rfl, ?_, ?_, h.lock.held, ?_, h.lock.pending⟩
  · refine h.builds.mono rfl (fun _ hx => ⟨hx, rfl⟩) (fun b r hr hnone => ⟨r, hr, hnone, rfl⟩)
      fun call hcall b hstage => mem_map.mpr ⟨call, hcall, if_neg ?_⟩
    rw [hstage]
    nofun
  · exact h.lock.counted.trans (length_map ..).symm
  · intro call hcall
    obtain ⟨c, hc, rfl⟩ := mem_map.mp hcall
    split_ifs with hwait
    · have hholds := h.lock.calls c hc
      rw [Holds, hwait.2] at hholds
      exact hholds
    · exact h.lock.calls c hc

theorem hostInv_finish {answer : OpenAnswer} (h : HostInv s) (hk : s.calls[k]? = some call)
    (hnot : ∀ b, s.builds call.ns = some b → call.stage ≠ .build b) :
    HostInv (s.finish k ns answer) := by
  refine hostInv_tell (hostInv_releaseIfIdle ?_)
  obtain ⟨hlt, heq⟩ := List.getElem?_eq_some_iff.mp hk
  refine ⟨h.openings.of_same rfl rfl (.inr rfl) rfl, ⟨h.builds.running, ?_⟩, ?_, h.lock.held,
    fun c hc => h.lock.calls c (mem_of_mem_eraseIdx hc), h.lock.pending⟩
  · intro ns' b hbuild
    obtain ⟨c, hc, hns, hstage⟩ := h.builds.claimed ns' b hbuild
    refine ⟨c, ?_, hns, hstage⟩
    have hperm := getElem_cons_eraseIdx_perm hlt
    rw [heq] at hperm
    rcases mem_cons.mp (hperm.mem_iff.mpr hc) with rfl | hmem
    · exact absurd hstage (hnot b (hns ▸ hbuild))
    · exact hmem
  · have hlen := length_eraseIdx_of_lt hlt
    rw [hlen, h.lock.counted]

theorem later_finish {answer : OpenAnswer} : Later a s (s.finish k ns answer) := by
  have hended : Later a s { s with calls := s.calls.eraseIdx k, building := s.building - 1 } :=
    .of_same rfl rfl rfl
  refine hended.trans (later_releaseIfIdle.trans (later_tell fun h m hm => ?_))
  cases mem_singleton.mp hm

theorem hostInv_setStage (h : HostInv s) (hk : s.calls[k]? = some call)
    (hnot : ∀ b, call.stage ≠ .build b) (hlock : s.lock = true) (stage : OpenStage) :
    HostInv { s with calls := s.calls.set k { call with stage } } := by
  refine ⟨h.openings.of_same rfl rfl (.inr rfl) rfl, ?_, ?_, h.lock.held,
    fun c hc => holds_of_lock hlock, h.lock.pending⟩
  · refine h.builds.mono rfl (fun _ hx => ⟨hx, rfl⟩) (fun b r hr hnone => ⟨r, hr, hnone, rfl⟩)
      fun c hc b hstage => ?_
    obtain ⟨j, hj⟩ := mem_iff_getElem?.mp hc
    have hne : k ≠ j := by
      rintro rfl
      rw [hk] at hj
      cases hj
      exact hnot b hstage
    exact mem_iff_getElem?.mpr ⟨j, by rw [getElem?_set_ne hne]; exact hj⟩
  · exact h.lock.counted.trans (length_set ..).symm

theorem hostInv_starts (h : HostInv s) (hk : s.calls[k]? = some call)
    (hnot : ∀ b, call.stage ≠ .build b) (hlock : s.lock = true) (hbuild : s.builds call.ns = none)
    (hnone : s.ofNs call.ns = []) :
    HostInv { s with
      started := s.started ++ [⟨call.ns, call.deregOnly, [], none⟩]
      builds := update s.builds call.ns (some s.started.length)
      calls := s.calls.set k { call with stage := .build s.started.length } } := by
  have hset := hostInv_setStage h hk hnot hlock (.build s.started.length)
  refine ⟨h.openings.of_same rfl rfl (.inr rfl) rfl, ⟨fun b r hr hres => ?_, fun ns b hb => ?_⟩,
    hset.lock.counted, h.lock.held, fun c hc => holds_of_lock hlock, h.lock.pending⟩
  · rcases getElem?_concat_cases hr with ⟨rfl, rfl⟩ | hr
    · refine ⟨update_self .., fun x hx hns => ?_⟩
      have hmem : x ∈ s.ofNs call.ns :=
        mem_filter.mpr ⟨hx, decide_eq_true hns⟩
      rw [hnone] at hmem
      cases hmem
    obtain ⟨hclaim, hne⟩ := h.builds.running b r hr hres
    have hother : r.ns ≠ call.ns := by
      rintro heq
      rw [heq, hbuild] at hclaim
      cases hclaim
    exact ⟨(update_of_ne hother ..).trans hclaim, hne⟩
  · by_cases heq : ns = call.ns
    · subst heq
      have hself : update s.builds call.ns (some s.started.length) call.ns = some b := hb
      rw [update_self] at hself
      cases hself
      refine ⟨{ call with stage := .build s.started.length }, mem_iff_getElem?.mpr ⟨k, ?_⟩,
        rfl, rfl⟩
      exact getElem?_set_self (List.getElem?_eq_some_iff.mp hk).1
    · exact hset.builds.claimed ns b ((update_of_ne heq ..).symm.trans hb)

theorem alone_kept (hok : OpeningsOk s) :
    SameHost s (s.alone h).1 ∧ Later a s (s.alone h).1 ∧ OpeningsOk (s.alone h).1 := by
  rw [alone]
  split
  · exact ⟨.refl, .refl, hok⟩
  split
  · exact ⟨.refl, .refl, hok⟩
  split
  · exact drop_kept hok
  · exact ⟨.refl, .refl, hok⟩

theorem claims_kept (hinv : HostInv s) (hk : s.calls[k]? = some call)
    (hnot : ∀ b, call.stage ≠ .build b) (hlock : s.lock = true) :
    HostInv (s.claims k call) ∧ Later a s (s.claims k call) := by
  rw [claims, claim]
  split
  · exact ⟨hostInv_setStage hinv hk hnot hlock _, .of_same rfl rfl rfl⟩
  next hbuild =>
  split
  · next h _ _ =>
    obtain ⟨hsame, hlater, hopenings⟩ := alone_kept (a := a) (h := h) hinv.openings
    have hinv' := hsame.hostInv hinv hopenings
    exact ⟨hostInv_setStage hinv' (hsame.calls ▸ hk) hnot (hsame.lock.trans hlock) _,
      hlater.trans (.of_same rfl rfl rfl)⟩
  · next hnone =>
    exact ⟨hostInv_starts hinv hk hnot hlock hbuild hnone, .of_same rfl rfl rfl⟩

theorem hostInv_freed (h : HostInv s) (hresult : (s.build b).bind (·.result) = some result)
    (hclaim : s.builds ns = some b) :
    HostInv { s with builds := update s.builds ns none } := by
  refine ⟨h.openings.of_same rfl rfl (.inr rfl) rfl,
    ⟨fun b' r hr hnone => ?_, fun ns' b' hb => ?_⟩, h.lock.counted, h.lock.held, h.lock.calls,
    h.lock.pending⟩
  · obtain ⟨hclaim', hne⟩ := h.builds.running b' r hr hnone
    refine ⟨(update_of_ne ?_ ..).trans hclaim', hne⟩
    rintro heq
    rw [heq, hclaim] at hclaim'
    cases hclaim'
    have hr' : s.build b = some r := hr
    rw [hr', bind_some, hnone] at hresult
    cases hresult
  · by_cases heq : ns' = ns
    · subst heq
      have hself : update s.builds ns' none ns' = some b' := hb
      rw [update_self] at hself
      cases hself
    · exact h.builds.claimed ns' b' ((update_of_ne heq ..).symm.trans hb)

theorem freed_kept (h : HostInv s) (ns : String)
    (hresult : (s.build b).bind (·.result) = some result) :
    HostInv (s.freed ns b) ∧ Later a s (s.freed ns b) ∧ (s.freed ns b).calls = s.calls ∧
      (s.freed ns b).builds ns ≠ some b := by
  rw [freed]
  split
  · next hclaim =>
    refine ⟨hostInv_freed h hresult hclaim, .of_same rfl rfl rfl, rfl, fun hself => ?_⟩
    have hnone : update s.builds ns none ns = some b := hself
    rw [update_self] at hnone
    cases hnone
  · next hclaim => exact ⟨h, .refl, rfl, hclaim⟩

theorem built_kept (hinv : HostInv s) (hk : s.calls[k]? = some call)
    (hstage : call.stage = .build b) (hresult : (s.build b).bind (·.result) = some result) :
    HostInv (s.built k call b result) ∧ Later a s (s.built k call b result) := by
  obtain ⟨hfreed, hlater, hcalls, hnot⟩ := freed_kept (a := a) hinv call.ns hresult
  have hended := hostInv_dropped hfreed call.ns
  have hlater' : Later a s ((s.freed call.ns b).dropped call.ns) :=
    hlater.trans (.of_same rfl rfl rfl)
  have hk' : ((s.freed call.ns b).dropped call.ns).calls[k]? = some call := by
    rw [dropped, getElem?_map, hcalls, hk, map_some, if_neg]
    rw [hstage]
    nofun
  have hnot' : ∀ b', ((s.freed call.ns b).dropped call.ns).builds call.ns = some b' →
      call.stage ≠ .build b' := by
    intro b' hb' heq
    rw [hstage] at heq
    cases heq
    exact hnot hb'
  cases result with
  | ok h => exact ⟨hostInv_finish hended hk' hnot', hlater'.trans later_finish⟩
  | error reason =>
    cases reason with
    | codec code =>
      refine ⟨hostInv_finish (hostInv_tell hended) hk' hnot',
        hlater'.trans ((later_tell fun h m hm => ?_).trans later_finish)⟩
      cases mem_singleton.mp hm
    | other => exact ⟨hostInv_finish hended hk' hnot', hlater'.trans later_finish⟩

theorem goOn_kept (hinv : HostInv s) (hk : s.calls[k]? = some call)
    (hs : s.goOn k call = some s') : HostInv s' ∧ Later a s s' := by
  have hholds := hinv.lock.calls call (mem_of_getElem? hk)
  have hclaims : (∀ b, call.stage ≠ .build b) → s.lock = true →
      HostInv (s.claims k call) ∧ Later a s (s.claims k call) := claims_kept hinv hk
  have hfinish : (∀ b, call.stage ≠ .build b) → ∀ answer,
      HostInv (s.finish k call.ns answer) ∧ Later a s (s.finish k call.ns answer) :=
    fun hnot _ => ⟨hostInv_finish hinv hk fun b _ => hnot b, later_finish⟩
  rw [goOn] at hs
  rw [Holds] at hholds
  cases hstage : call.stage with
  | held | woken =>
    rw [hstage] at hs hholds
    cases hs
    exact hclaims (by rw [hstage]; nofun) hholds
  | acquire n =>
    rw [hstage] at hs hholds
    simp only at hs
    split at hs
    · next hheld =>
      cases hs
      exact hclaims (by rw [hstage]; nofun) (hholds hheld)
    · cases hs
      exact hfinish (by rw [hstage]; nofun) _
    · cases hs
      exact hfinish (by rw [hstage]; nofun) _
    · cases hs
  | settle | shut =>
    rw [hstage] at hs hholds
    simp only at hs
    split at hs
    · cases hs
      exact hclaims (by rw [hstage]; nofun) hholds
    · cases hs
  | drop =>
    rw [hstage] at hs hholds
    simp only at hs
    split at hs
    · cases hs
      exact hclaims (by rw [hstage]; nofun) hholds
    · cases hs
      exact hfinish (by rw [hstage]; nofun) _
    · cases hs
  | wait =>
    rw [hstage] at hs
    cases hs
  | build b =>
    rw [hstage] at hs
    simp only at hs
    split at hs
    · next result hresult =>
      cases hs
      exact built_kept hinv hk hstage hresult
    · cases hs

/-! ## 7. The other steps -/

theorem openNs_kept {deregOnly : Bool} (hinv : HostInv s) :
    HostInv (s.openNs ns deregOnly) ∧ Later a s (s.openNs ns deregOnly) := by
  have hcounted : ∀ call : OpenCall, s.building + 1 = (s.calls ++ [call]).length := fun call => by
    rw [length_append, length_singleton, hinv.lock.counted]
  have hbuilds : ∀ call s', s'.builds = s.builds → s'.openings = s.openings → s'.made = s.made →
      s'.started = s.started → s'.calls = s.calls ++ [call] → BuildsOk s' := by
    intro call s' hb ho hm hst hc
    refine hinv.builds.mono hb (fun x hx => ⟨ho ▸ hx, ?_⟩) (fun b r hr hnone => ⟨r, ?_, hnone, rfl⟩)
      fun c hmem _ _ => hc ▸ mem_append_left _ hmem
    · rw [nsOf, opening, hm, nsOf, opening]
    · rw [build, hst] at hr
      exact hr
  rw [openNs]
  split
  · next hlock =>
    refine ⟨⟨hinv.openings.of_same rfl rfl (.inr rfl) rfl, hbuilds _ _ rfl rfl rfl rfl rfl,
      hcounted _, hinv.lock.held, fun c _ => holds_of_lock hlock, hinv.lock.pending⟩,
      .of_same rfl rfl rfl⟩
  split
  · next n hacquiring =>
    refine ⟨⟨hinv.openings.of_same rfl rfl (.inr rfl) rfl, hbuilds _ _ rfl rfl rfl rfl rfl,
      hcounted _, hinv.lock.held, fun c hc => ?_, hinv.lock.pending⟩, .of_same rfl rfl rfl⟩
    rcases mem_append.mp hc with hc | hc
    · exact hinv.lock.calls c hc
    rw [mem_singleton.mp hc, Holds]
    intro hheld
    have hpending := hinv.lock.pending n hacquiring
    rw [show s.acquisitions[n]? = some (some (.held true)) from hheld] at hpending
    cases hpending
  · refine ⟨⟨hinv.openings.of_same rfl rfl (.inr rfl) rfl, hbuilds _ _ rfl rfl rfl rfl rfl,
      hcounted _, hinv.lock.held, fun c hc => ?_, fun n hn => ?_⟩, .of_same rfl rfl rfl⟩
    · rcases mem_append.mp hc with hc | hc
      · have hholds := hinv.lock.calls c hc
        rw [Holds] at hholds ⊢
        split
        · next n hstage =>
          rw [hstage] at hholds
          intro hheld
          rcases getElem?_concat_cases hheld with ⟨-, hnone⟩ | hheld
          · cases hnone
          · exact hholds hheld
        · next hne =>
          split at hholds
          · next n hstage => exact absurd hstage (hne n)
          · exact hholds
      · rw [mem_singleton.mp hc, Holds]
        intro hheld
        have hnew : (s.acquisitions ++ [none])[s.acquisitions.length]? = some none :=
          getElem?_concat_length
        rw [show (s.acquisitions ++ [none])[s.acquisitions.length]? =
          some (some (.held true)) from hheld] at hnew
        cases hnew
    · cases hn
      exact getElem?_concat_length

theorem acquireAnswers_kept {n : Nat} {answer : WriterAnswer} (hinv : HostInv s) :
    HostInv (s.acquireAnswers n answer) ∧ Later a s (s.acquireAnswers n answer) := by
  have hmono : s.lock = true → (s.acquireAnswers n answer).lock = true := fun hlock => by
    rw [acquireAnswers]
    simp only [hlock, Bool.true_or]
  refine ⟨⟨hinv.openings.of_same rfl rfl (.inr rfl) rfl,
    ⟨hinv.builds.running, hinv.builds.claimed⟩, hinv.lock.counted,
    fun hne => hmono (hinv.lock.held hne), fun c hc => ?_, nofun⟩, .of_same rfl rfl rfl⟩
  have hholds := hinv.lock.calls c hc
  rw [Holds] at hholds ⊢
  split
  · next j hstage =>
    rw [hstage] at hholds
    intro hheld
    rcases getElem?_set_cases hheld with ⟨-, heq⟩ | ⟨-, hheld⟩
    · split_ifs at heq
      · cases heq
      · exact (Acquired.held.inj (some.inj heq)).symm
    · exact hmono (hholds hheld)
  · next hne =>
    split at hholds
    · next j hstage => exact absurd hstage (hne j)
    · exact hmono hholds

theorem hostInv_modifyBuild {f : HostBuild → HostBuild} (h : HostInv s)
    (hf : ∀ r, (f r).result = none → r.result = none ∧ r.ns = (f r).ns) :
    HostInv { s with started := s.started.modify b f } := by
  refine ⟨h.openings.of_same rfl rfl (.inr rfl) rfl, ?_, h.lock.counted, h.lock.held,
    h.lock.calls, h.lock.pending⟩
  refine h.builds.mono rfl (fun x hx => ⟨hx, rfl⟩) (fun b' r hr hnone => ?_) fun c hc _ _ => hc
  rw [build, getElem?_modify] at hr
  obtain ⟨r₀, hr₀, heq⟩ := map_eq_some_iff.mp hr
  split_ifs at heq
  · subst heq
    exact ⟨r₀, hr₀, hf r₀ hnone⟩
  · exact ⟨r₀, hr₀, heq ▸ hnone, heq ▸ rfl⟩

theorem hostInv_settleBuild (h : HostInv s) : HostInv (s.settleBuild b result) :=
  hostInv_modifyBuild h fun _ hnone => by cases hnone

theorem later_register : Later a s (s.register o) where
  opening x o' ho' := by
    refine ⟨o', ?_, rfl, id⟩
    exact (getElem?_append_left (List.getElem?_eq_some_iff.mp ho').1).trans ho'
  out := ⟨[], (append_nil _).symm, nofun⟩
  current _ := .inl

theorem hostInv_register {r : HostBuild} (h : HostInv s) (hb : s.build b = some r)
    (hnone : r.result = none) (hns : o.ns = r.ns) :
    HostInv ((s.register o).settleBuild b result) := by
  obtain ⟨hclaim, halone⟩ := h.builds.running b r hb hnone
  have hlock : s.lock = true := lock_of_build h hclaim
  have hopening : ∀ {x o'}, s.opening x = some o' →
      ((s.register o).settleBuild b result).opening x = some o' := fun ho' =>
    (getElem?_append_left (List.getElem?_eq_some_iff.mp ho').1).trans ho'
  have hnew : ((s.register o).settleBuild b result).opening s.made.length = some o :=
    getElem?_concat_length
  have hold : ∀ x ∈ s.openings, ((s.register o).settleBuild b result).nsOf x = s.nsOf x := by
    intro x hx
    obtain ⟨o', ho'⟩ := h.openings.registered x hx
    rw [nsOf, hopening ho', nsOf, ho']
  have hself : ((s.register o).settleBuild b result).nsOf s.made.length = some r.ns := by
    rw [nsOf, hnew, map_some, hns]
  refine ⟨⟨fun x hx => ?_, fun x hx y hy heq => ?_, fun x hx => ?_, fun run q hq => ?_,
    fun x o' ho' => ?_⟩, ⟨fun b' r' hr' hnone' => ?_, h.builds.claimed⟩, h.lock.counted,
    fun _ => hlock, h.lock.calls, h.lock.pending⟩
  · rcases mem_append.mp hx with hx | hx
    · obtain ⟨o', ho'⟩ := h.openings.registered x hx
      exact ⟨o', hopening ho'⟩
    · exact ⟨o, mem_singleton.mp hx ▸ hnew⟩
  · rcases mem_append.mp hx with hx | hx <;> rcases mem_append.mp hy with hy | hy
    · rw [hold x hx, hold y hy] at heq
      exact h.openings.alone x hx y hy heq
    · cases mem_singleton.mp hy
      rw [hold x hx, hself] at heq
      exact absurd heq (halone x hx)
    · cases mem_singleton.mp hx
      rw [hold y hy, hself] at heq
      exact absurd heq.symm (halone y hy)
    · rw [mem_singleton.mp hx, mem_singleton.mp hy]
  · obtain ⟨hmem, o', ho', hopen⟩ := h.openings.current x hx
    exact ⟨mem_append_left _ hmem, o', hopening ho', hopen⟩
  · obtain ⟨o', ho', hclosed⟩ := h.openings.closing run q hq
    exact ⟨o', hopening ho', hclosed⟩
  · rcases getElem?_concat_cases ho' with ⟨rfl, -⟩ | ho'
    · exact .inl (mem_append_right _ mem_cons_self)
    · exact (h.openings.kept x o' ho').imp_left (mem_append_left _)
  · rw [build, settleBuild, getElem?_modify] at hr'
    obtain ⟨r₀, hr₀, heq⟩ := map_eq_some_iff.mp hr'
    split_ifs at heq with hbb
    · subst heq
      cases hnone'
    subst heq
    obtain ⟨hclaim', halone'⟩ := h.builds.running b' r₀ hr₀ hnone'
    refine ⟨hclaim', fun x hx => ?_⟩
    rcases mem_append.mp hx with hx | hx
    · rw [hold x hx]
      exact halone' x hx
    rw [mem_singleton.mp hx, hself]
    rintro hsame
    rw [← some.inj hsame, hclaim] at hclaim'
    exact hbb (some.inj hclaim')

theorem buildEnds_kept {r : HostBuild} {e : BuildEnd} (h : HostInv s) (hb : s.build b = some r)
    (hnone : r.result = none) : HostInv (s.buildEnds b r e) ∧ Later a s (s.buildEnds b r e) := by
  cases e with
  | opened | unclosed =>
    exact ⟨hostInv_register h hb hnone rfl, later_register.trans (.of_same rfl rfl rfl)⟩
  | failed => exact ⟨hostInv_settleBuild h, .of_same rfl rfl rfl⟩

theorem hostInv_setOpening (hinv : HostInv s) (hns : ∀ o, (f o).ns = o.ns)
    (hclosed : ∀ o, (f o).closed = o.closed) : HostInv (s.setOpening h f) :=
  (sameHost_setOpening hns).hostInv hinv (openingsOk_setOpening hinv.openings hns
    (fun o ho => (hclosed o).trans ho) fun _ o ho => (hclosed o).trans ho)

theorem openingsOk_answered {run : ShutId} {r : HostShut} {ok : Bool} (h : OpeningsOk s)
    (hr : s.shut run = some r) (hnone : r.result = none) (hs : s'.made = s.made)
    (hopenings : s'.openings = s.openings) (hcurrent : s'.current = s.current)
    (hshuts : s'.shuts = s.shuts.set run { r with result := some ok }) : OpeningsOk s' := by
  have hopening : ∀ x, s'.opening x = s.opening x := fun x => by
    rw [opening, hs, opening]
  refine ⟨?_, ?_, ?_, fun run' q hq => ?_, fun x o ho => ?_⟩
  · simpa only [hopenings, hopening] using h.registered
  · simpa only [hopenings, nsOf, hopening] using h.alone
  · simpa only [hopenings, hopening, hcurrent] using h.current
  · rw [shut, hshuts] at hq
    rw [hopening]
    rcases getElem?_set_cases hq with ⟨-, rfl⟩ | ⟨-, hq⟩
    · exact h.closing run r hr
    · exact h.closing run' q hq
  · rw [hopening] at ho
    rw [hopenings]
    refine (h.kept x o ho).imp_right fun ⟨run', q, hq, hx, hres⟩ => ⟨run', q, ?_, hx, hres⟩
    have hne : run ≠ run' := by
      rintro rfl
      rw [hr] at hq
      cases hq
      rw [hnone] at hres
      cases hres
    rw [shut, hshuts, getElem?_set_ne hne]
    exact hq

theorem shutAnswers_kept {run : ShutId} {r : HostShut} {answer : ShutAnswer} (h : HostInv s)
    (hr : s.shut run = some r) (hnone : r.result = none) :
    HostInv (s.shutAnswers run r answer) ∧ Later a s (s.shutAnswers run r answer) := by
  have hended : ∀ answer, HostInv { s with
      shuts := s.shuts.set run { r with result := some (decide (answer = ShutAnswer.closed)) }
      finals := s.finals ++ [r.ns] } := fun answer => by
    refine SameHost.hostInv ?_ h (openingsOk_answered h.openings hr hnone rfl rfl rfl rfl)
    exact ⟨rfl, fun _ => rfl, rfl, rfl, rfl, rfl, rfl, rfl, rfl, rfl⟩
  have hlater : ∀ answer, Later a s { s with
      shuts := s.shuts.set run { r with result := some (decide (answer = ShutAnswer.closed)) }
      finals := s.finals ++ [r.ns] } := fun _ => .of_same rfl rfl rfl
  have hretry : ∀ answer, HostInv (setOpening { s with
      shuts := s.shuts.set run { r with result := some (decide (answer = ShutAnswer.closed)) }
      finals := s.finals ++ [r.ns] } r.handle fun o => { o with shut := none }) ∧
      Later a s (setOpening { s with
        shuts := s.shuts.set run { r with result := some (decide (answer = ShutAnswer.closed)) }
        finals := s.finals ++ [r.ns] } r.handle fun o => { o with shut := none }) := fun answer =>
    ⟨hostInv_setOpening (hended answer) (fun _ => rfl) fun _ => rfl,
      (hlater answer).trans (later_setOpening (fun _ => rfl) fun _ => id)⟩
  cases answer with
  | closed =>
    have hdone := hended .closed
    obtain ⟨o, ho, hclosed⟩ := h.openings.closing run r hr
    refine ⟨⟨⟨fun x hx => ?_, fun x hx y hy => ?_, fun x hx => ?_, hdone.openings.closing,
      fun x o' ho' => ?_⟩, ?_, h.lock.counted, fun hne => ?_, h.lock.calls, h.lock.pending⟩,
      .of_same rfl rfl rfl⟩
    · exact h.openings.registered x (mem_filter.mp hx).1
    · exact h.openings.alone x (mem_filter.mp hx).1 y (mem_filter.mp hy).1
    · obtain ⟨hmem, o', ho', hopen⟩ := h.openings.current x hx
      refine ⟨mem_filter.mpr ⟨hmem, decide_eq_true ?_⟩, o', ho', hopen⟩
      rintro rfl
      rw [ho] at ho'
      cases ho'
      rw [hclosed] at hopen
      cases hopen
    · by_cases hx : x = r.handle
      · refine .inr ⟨run, _, getElem?_set_self (List.getElem?_eq_some_iff.mp hr).1,
          hx.symm, rfl⟩
      · exact (hdone.openings.kept x o' ho').imp_left fun hmem =>
          mem_filter.mpr ⟨hmem, decide_eq_true hx⟩
    · exact h.builds.mono rfl (fun x hx => ⟨(mem_filter.mp hx).1, rfl⟩)
        (fun b q hq hres => ⟨q, hq, hres, rfl⟩) fun c hc _ _ => hc
    · refine h.lock.held (hne.imp_left fun hopenings hnil => hopenings ?_)
      exact filter_eq_nil_iff.mpr fun x hx => by rw [hnil] at hx; cases hx
  | failed => exact hretry .failed
  | timedOut =>
    refine ⟨hostInv_tell (hretry .timedOut).1, (hretry .timedOut).2.trans
      (later_tell fun h m hm => ?_)⟩
    cases mem_singleton.mp hm

theorem live_spec (hlive : s.live h = some o) :
    h ∈ s.openings ∧ s.opening h = some o ∧ o.closed = false ∧ o.session = true := by
  rw [live] at hlive
  split_ifs at hlive with hmem
  obtain ⟨ho, htest⟩ := filter_eq_some_iff.mp hlive
  simp only [Bool.and_eq_true, Bool.not_eq_true'] at htest
  exact ⟨hmem, ho, htest⟩

section

variable (hinv : HostInv s)
include hinv

theorem activate_kept : HostInv (s.activate h) ∧ Later (some h) s (s.activate h) := by
  rw [activate]
  split
  · next o hlive =>
    obtain ⟨hmem, ho, hopen, -⟩ := live_spec hlive
    split
    · have hset : OpeningsOk (s.setOpening h fun o => { o with diagnosed := [] }) :=
        openingsOk_setOpening hinv.openings (fun _ => rfl) (fun _ => id) fun _ _ => id
      have hopening : (s.setOpening h fun o => { o with diagnosed := [] }).opening h =
          some { o with diagnosed := [] } := by
        rw [opening_set, ho]
        simp only [if_pos, map_some]
      refine ⟨sameHost_setCurrent.hostInv hinv ?_, ?_⟩
      · rw [setCurrent, ho]
        refine ⟨hset.registered, hset.alone, ?_, hset.closing, hset.kept⟩
        rintro x ⟨⟩
        exact ⟨hmem, _, hopening, hopen⟩
      · rw [setCurrent, ho]
        have hlater : Later (some h) s (s.setOpening h fun o => { o with diagnosed := [] }) :=
          later_setOpening (fun _ => rfl) fun _ => id
        refine ⟨hlater.opening, ⟨_, rfl, fun x m hm o' ho' => ?_⟩, ?_⟩
        · have hx : x = h := by
            simp only [mem_cons, reduceCtorEq, mem_append, List.mem_map,
              mem_toList, map_eq_some_iff, HostOutput.publish.injEq,
              some.injEq, Prod.mk.injEq, and_false, exists_false, false_or] at hm
            obtain ⟨-, -, heq, -⟩ := hm
            exact heq.symm
          subst hx
          rw [ho] at ho'
          cases ho'
          exact hopen
        · rintro x ⟨⟩
          exact .inr rfl
    · exact ⟨hinv, .refl⟩
  · exact ⟨hinv, .refl⟩

theorem deactivate_kept : HostInv s.deactivate ∧ Later a s s.deactivate := by
  rw [deactivate]
  split
  · exact ⟨hinv, .refl⟩
  next h _ =>
  have htold : HostInv (s.tell [.leaseDeactivate h]) := hostInv_tell hinv
  refine ⟨sameHost_setCurrent.hostInv htold (htold.openings.of_same rfl rfl (.inl rfl) rfl),
    (later_tell fun x m hm => ?_).trans later_setCurrent_none⟩
  cases mem_singleton.mp hm

theorem sessionPublishes_kept {m : ReadModels} :
    HostInv (s.sessionPublishes h m) ∧ Later a s (s.sessionPublishes h m) := by
  have hset : HostInv (s.setOpening h fun o => { o with models := some m }) :=
    hostInv_setOpening hinv (fun _ => rfl) fun _ => rfl
  have hlater : Later a s (s.setOpening h fun o => { o with models := some m }) :=
    later_setOpening (fun _ => rfl) fun _ => id
  rw [sessionPublishes]
  split_ifs with hcurrent
  · refine ⟨hostInv_tell hset, hlater.trans (later_tell fun x m' hm o ho => ?_)⟩
    cases mem_singleton.mp hm
    obtain ⟨-, o', ho', hopen⟩ := hset.openings.current h hcurrent
    rw [ho] at ho'
    cases ho'
    exact hopen
  · exact ⟨hset, hlater⟩

theorem sessionDiagnoses_kept {code : DiagnosticCode} :
    HostInv (s.sessionDiagnoses h code) ∧ Later a s (s.sessionDiagnoses h code) := by
  rw [sessionDiagnoses]
  split_ifs
  · refine ⟨hostInv_tell hinv, later_tell fun x m hm => ?_⟩
    cases mem_singleton.mp hm
  · exact ⟨hostInv_setOpening hinv (fun _ => rfl) fun _ => rfl,
      later_setOpening (fun _ => rfl) fun _ => id⟩

omit hinv in
theorem hostInv_buildDiagnoses {code : DiagnosticCode} (h : HostInv s) :
    HostInv (s.buildDiagnoses b code) :=
  hostInv_modifyBuild h fun _ hnone => ⟨hnone, rfl⟩

theorem hostInv_deregister : HostInv (s.deregister h) := by
  rw [deregister]
  split
  · next o hlive =>
    split
    · exact hinv
    have hlock : s.lock = true :=
      hinv.lock.held (.inl (ne_nil_of_mem (live_spec hlive).1))
    exact ⟨hinv.openings.of_same rfl rfl (.inr rfl) rfl,
      ⟨hinv.builds.running, hinv.builds.claimed⟩, hinv.lock.counted, fun _ => hlock,
      hinv.lock.calls, hinv.lock.pending⟩
  · exact hinv

omit hinv in
theorem hostInv_wiped (h : HostInv s) : HostInv (s.wiped ns) := by
  refine hostInv_releaseIfIdle ⟨h.openings.of_same rfl rfl (.inr rfl) rfl,
    ⟨h.builds.running, h.builds.claimed⟩, h.lock.counted, fun hne => ?_, h.lock.calls,
    h.lock.pending⟩
  refine h.lock.held (hne.imp_right fun hdeleting hnil => hdeleting ?_)
  exact filter_eq_nil_iff.mpr fun x hx => by rw [hnil] at hx; cases hx

/-! ## 8. Runs -/

def HostInput.activated : HostInput → Option HandleId
  | .activate h => some h
  | _ => none

theorem hostStep_kept (hs : hostStep s i = some s') : HostInv s' ∧ Later i.activated s s' := by
  cases i with
  | openNs ns deregOnly =>
    cases hs
    exact openNs_kept hinv
  | acquireAnswers answer =>
    obtain ⟨n, -, rfl⟩ := map_eq_some_iff.mp hs
    exact acquireAnswers_kept hinv
  | goOn k =>
    obtain ⟨call, hk, hgo⟩ := bind_eq_some_iff.mp hs
    exact goOn_kept hinv hk hgo
  | buildEnds b e =>
    rw [hostStep] at hs
    split at hs
    · next r hb =>
      split at hs
      · next hnone =>
        cases hs
        exact buildEnds_kept hinv hb (isNone_iff_eq_none.mp hnone)
      · cases hs
    · cases hs
  | shutAnswers run answer =>
    rw [hostStep] at hs
    split at hs
    · next r hr =>
      split at hs
      · next hnone =>
        cases hs
        exact shutAnswers_kept hinv hr (isNone_iff_eq_none.mp hnone)
      · cases hs
    · cases hs
  | final k =>
    obtain ⟨ns, -, rfl⟩ := map_eq_some_iff.mp hs
    have hended : HostInv { s with finals := s.finals.eraseIdx k } :=
      ⟨hinv.openings.of_same rfl rfl (.inr rfl) rfl,
        ⟨hinv.builds.running, hinv.builds.claimed⟩, hinv.lock.counted, hinv.lock.held,
        hinv.lock.calls, hinv.lock.pending⟩
    have hlater : Later (HostInput.final k).activated s
        (dropped { s with finals := s.finals.eraseIdx k } ns) := .of_same rfl rfl rfl
    exact ⟨hostInv_releaseIfIdle (hostInv_dropped hended ns), hlater.trans later_releaseIfIdle⟩
  | activate h =>
    cases hs
    exact activate_kept hinv
  | deactivate =>
    cases hs
    exact deactivate_kept hinv
  | close h =>
    cases hs
    rw [close]
    split
    · obtain ⟨hsame, hlater, hopenings⟩ := drop_kept (h := h) hinv.openings
      exact ⟨hsame.hostInv hinv hopenings, hlater⟩
    · exact ⟨hinv, .refl⟩
  | deregister h =>
    cases hs
    refine ⟨hostInv_deregister hinv, ?_⟩
    rw [deregister]
    split
    · split
      · exact .refl
      · exact .of_same rfl rfl rfl
    · exact .refl
  | forget ns =>
    cases hs
    obtain ⟨hsame, hlater, hopenings⟩ := drops_kept (s.ofNs ns) hinv.openings
    exact ⟨hostInv_releaseIfIdle (hsame.hostInv hinv hopenings), hlater.trans later_releaseIfIdle⟩
  | wiped ns =>
    cases hs
    refine ⟨hostInv_wiped hinv, ?_⟩
    have hended : Later (HostInput.wiped ns).activated s
        { s with deleting := s.deleting.filter (· ≠ ns) } := .of_same rfl rfl rfl
    exact hended.trans later_releaseIfIdle
  | publishes h m =>
    cases hs
    exact sessionPublishes_kept hinv
  | emits h =>
    cases hs
    rw [sessionEmits]
    split
    · refine ⟨hostInv_tell hinv, later_tell fun x m hm => ?_⟩
      cases mem_singleton.mp hm
    · exact ⟨hinv, .refl⟩
  | diagnoses h code =>
    cases hs
    exact sessionDiagnoses_kept hinv
  | buildDiagnoses b code =>
    cases hs
    exact ⟨hostInv_buildDiagnoses hinv, .of_same rfl rfl rfl⟩

end

theorem hostInv_start : HostInv .start :=
  ⟨⟨nofun, nofun, nofun, nofun, nofun⟩, ⟨nofun, nofun⟩, rfl, fun hne => by
    simp [start] at hne, nofun, nofun⟩

theorem hostInv_reaches (h : Reaches hostStep (fun _ _ => True) .start s) : HostInv s :=
  h.invariant hostInv_start fun _ _ _ hinv _ hs => (hostStep_kept hinv hs).1

theorem closed_reaches (hinv : HostInv s)
    (h : Reaches hostStep (fun _ _ => True) s s') (ho : s.opening x = some o)
    (hclosed : o.closed = true) :
    HostInv s' ∧ (∃ o', s'.opening x = some o' ∧ o'.closed = true) ∧
      ∃ more, s'.out = s.out ++ more ∧ ∀ m, HostOutput.publish (some (x, m)) ∉ more := by
  induction h with
  | start => exact ⟨hinv, ⟨o, ho, hclosed⟩, [], (append_nil _).symm, fun _ => not_mem_nil⟩
  | step _ _ hs ih =>
    obtain ⟨hinv₁, ⟨o₁, ho₁, hclosed₁⟩, more, hout, hnot⟩ := ih
    obtain ⟨hinv₂, hlater⟩ := hostStep_kept hinv₁ hs
    obtain ⟨o₂, ho₂, -, hclosed₂⟩ := hlater.opening x o₁ ho₁
    obtain ⟨more', hout', hopen⟩ := hlater.out
    refine ⟨hinv₂, ⟨o₂, ho₂, hclosed₂ hclosed₁⟩, more ++ more',
      by rw [hout', hout, append_assoc], fun m hm => ?_⟩
    rcases mem_append.mp hm with hm | hm
    · exact hnot m hm
    have hfalse := hopen x m hm o₁ ho₁
    rw [hclosed₁] at hfalse
    cases hfalse

theorem closed_close (hinv : HostInv s) (hmem : x ∈ s.openings)
    (hs : hostStep s (.close x) = some s') :
    ∃ o, s'.opening x = some o ∧ o.closed = true := by
  cases hs
  obtain ⟨o, ho⟩ := hinv.openings.registered x hmem
  obtain ⟨-, -, -, hopening⟩ := endUse_kept (a := none) hinv.openings ho
  simp only [close, if_pos hmem, drop, ho]
  split_ifs
  · exact ⟨_, hopening, rfl⟩
  · exact ⟨_, opening_set.trans (congrArg _ hopening), by simp⟩

/-- **The holder host**: an opening of a namespace, be it built, open or closing, is the only one;
    what was opened is registered until its close has answered.  Whoever is registered, built or deleted
    has the writer lock.  Only `activate` makes an opening the current one, and no closed one; from
    its close on an opening publishes no read models. -/
theorem host_single (h : Reaches hostStep (fun _ _ => True) .start s) :
    (∀ x ∈ s.openings, ∀ y ∈ s.openings, s.nsOf x = s.nsOf y → x = y) ∧
    (∀ b r, s.build b = some r → r.result = none → (∀ x ∈ s.openings, s.nsOf x ≠ some r.ns) ∧
      ∀ b' r', s.build b' = some r' → r'.result = none → r'.ns = r.ns → b' = b) ∧
    (∀ x o, s.opening x = some o →
      x ∈ s.openings ∨ ∃ run r, s.shut run = some r ∧ r.handle = x ∧ r.result = some true) ∧
    (s.openings ≠ [] ∨ s.deleting ≠ [] ∨ (∃ b r, s.build b = some r ∧ r.result = none) →
      s.lock = true) ∧
    (∀ i s' x, hostStep s i = some s' → s'.current = some x → s.current ≠ some x →
      i = .activate x ∧ ∃ o, s'.opening x = some o ∧ o.closed = false) ∧
    (∀ x s', x ∈ s.openings → hostStep s (.close x) = some s' →
      ∃ o, s'.opening x = some o ∧ o.closed = true) ∧
    ∀ x o s', s.opening x = some o → o.closed = true → Reaches hostStep (fun _ _ => True) s s' →
        ∃ more, s'.out = s.out ++ more ∧ ∀ m, HostOutput.publish (some (x, m)) ∉ more := by
  have hinv := hostInv_reaches h
  refine ⟨hinv.openings.alone, fun b r hb hnone => ⟨(hinv.builds.running b r hb hnone).2,
    fun b' r' hb' hnone' hns => ?_⟩, hinv.openings.kept, ?_, fun i s' x hs hcurrent hnot => ?_,
    fun x s' hmem hs => closed_close hinv hmem hs,
    fun x o s' ho hclosed hrun => (closed_reaches hinv hrun ho hclosed).2.2⟩
  · have hclaim := (hinv.builds.running b r hb hnone).1
    have hclaim' := (hinv.builds.running b' r' hb' hnone').1
    rw [hns, hclaim] at hclaim'
    exact (some.inj hclaim').symm
  · rintro (hne | hne | ⟨b, r, hb, hnone⟩)
    · exact hinv.lock.held (.inl hne)
    · exact hinv.lock.held (.inr hne)
    · exact lock_of_build hinv (hinv.builds.running b r hb hnone).1
  · obtain ⟨hinv', hlater⟩ := hostStep_kept hinv hs
    refine ⟨?_, (hinv'.openings.current x hcurrent).2⟩
    rcases hlater.current x hcurrent with hsame | hactivated
    · exact absurd hsame hnot
    · cases i <;> cases hactivated
      rfl

/-- A second `open` of a namespace waits; the close of the first opening fails, and is tried
    again. -/
theorem host_single_retry : ∃ (s s' : HolderHost) (more : List HostOutput),
    Reaches hostStep (fun _ _ => True) .start s ∧ Reaches hostStep (fun _ _ => True) s s' ∧
      s.shuts.map (·.result) = [none] ∧ s'.shuts.map (·.result) = [some false, none] ∧
      s'.lock = true ∧ s'.out = s.out ++ more ∧ HostOutput.publish (some (0, 9)) ∉ more := by
  obtain ⟨s, s', hs, hs', hp⟩ := Reaches.of_exec_append hostStep (fun _ _ => True) .start
    [.openNs "n" false, .acquireAnswers .granted, .goOn 0, .openNs "n" false, .goOn 1,
      .buildEnds 0 .opened, .goOn 0, .activate 0, .publishes 0 7, .close 0]
    [.goOn 0, .publishes 0 9, .shutAnswers 0 .failed, .final 0, .goOn 0, .publishes 0 9]
    (fun s s' => decide ((s.opening 0).any (·.closed) = true ∧ s'.openings ≠ [] ∧
      s.shuts.map (·.result) = [none] ∧ s'.shuts.map (·.result) = [some false, none]))
    (by decide +kernel)
  obtain ⟨hclosed, hopenings, hruns, hretried⟩ := of_decide_eq_true hp
  obtain ⟨o, ho, hclosed⟩ := any_eq_true _ _ |>.mp hclosed
  obtain ⟨-, -, -, -, -, -, hlater⟩ := host_single hs
  obtain ⟨more, hout, hnot⟩ := hlater 0 o s' ho hclosed hs'
  have hlock := (host_single (hs.trans hs')).2.2.2.1 (.inl hopenings)
  exact ⟨s, s', more, hs, hs', hruns, hretried, hlock, hout, hnot 9⟩

end

end WebOfTrust
