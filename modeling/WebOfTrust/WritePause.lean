/-
  **The write-pause of a restore-clone, as a protocol** (`log-sync-coordinator.ts`,
  `restoreClone`, `sendLogEntryEnvelope`).

  A rotation closes a gate, binds the new device id, publishes it and opens the gate again;
  a send looks at the gate once, and waits for it if it is closed.  Every program of the
  coordinator is in one of these phases of rotating and sending, and all the rest of its
  code is quiet: it neither touches the gate nor hands an entry to the transport.
-/
import WebOfTrust.CoordinatorPrograms

namespace WebOfTrust

open Async

/-! ## 1. The pause -/

/-- What the history says about a rotation: none is under way, one has begun, or its new
    device is registered and still without a capability. -/
inductive Pause where
  | over
  | begun
  | registered (binding : Nat)
deriving DecidableEq

/-- A rotation that never got a new device is over when it ends; after that only a capability
    sent under the new binding ends the pause. -/
def Pause.after : Pause → CoordEvent → Pause
  | _, .rotationBegun => .begun
  | .begun, .registered binding _ => .registered binding
  | .begun, .rotationEnded => .over
  | .registered binding, .presented binding' =>
    if binding ≤ binding' then .over else .registered binding
  | pause, _ => pause

section

variable (events : List CoordEvent)

def pauseAfter : Pause := events.foldl Pause.after .over

def CoordEvent.isLogEntry : CoordEvent → Bool
  | .logEntry _ => true
  | .otherLogEntry _ => true
  | _ => false

def keepsPause : Pause → List CoordEvent → Bool
  | _, [] => true
  | pause, e :: rest =>
    (!e.isLogEntry || decide (pause = .over)) && keepsPause (pause.after e) rest

def KeepsPause : Prop := keepsPause .over events = true

def CoordEvent.quiet : CoordEvent → Bool
  | .logEntry _ => false
  | .otherLogEntry _ => false
  | .rotationBegun => false
  | .registered _ _ => false
  | .rotationEnded => false
  | _ => true

theorem pauseAfter_snoc (e : CoordEvent) :
    pauseAfter (events ++ [e]) = (pauseAfter events).after e := by
  simp [pauseAfter]

end

theorem keepsPause_append (pause : Pause) (events more : List CoordEvent) :
    keepsPause pause (events ++ more) =
      (keepsPause pause events && keepsPause (events.foldl Pause.after pause) more) := by
  induction events generalizing pause with
  | nil => simp [keepsPause]
  | cons e rest ih => simp [keepsPause, ih, Bool.and_assoc]

theorem keepsPause_snoc {events : List CoordEvent} {e : CoordEvent} (h : KeepsPause events)
    (he : e.isLogEntry = true → pauseAfter events = .over) : KeepsPause (events ++ [e]) := by
  unfold KeepsPause at *
  rw [keepsPause_append, h]
  by_cases hentry : e.isLogEntry = true
  · have hover := he hentry
    unfold pauseAfter at hover
    simp [keepsPause, hover]
  · simp [keepsPause, hentry]

theorem Pause.after_quiet {pause : Pause} {e : CoordEvent} (he : e.quiet = true) :
    pause.after e = .over ∨ pause.after e = pause := by
  cases e with
  | presented binding' =>
    cases pause with
    | begun => exact .inr rfl
    | registered binding =>
      by_cases hle : binding ≤ binding'
      · exact .inl (if_pos hle)
      · exact .inr (if_neg hle)
    | _ => exact .inl rfl
  | logEntry _ | otherLogEntry _ | rotationBegun | registered _ _ | rotationEnded => cases he
  | connected | syncResponse _ | headsCompared _ | pageApplied _ | acknowledged _ _ _
  | writeRejected _ _ _ _ => cases pause <;> simp [Pause.after]

theorem pause_quiet {events more : List CoordEvent} (hmore : ∀ e ∈ more, e.quiet = true) :
    (pauseAfter (events ++ more) = .over ∨ pauseAfter (events ++ more) = pauseAfter events) ∧
      (KeepsPause events → KeepsPause (events ++ more)) := by
  induction more generalizing events with
  | nil => simp
  | cons e rest ih =>
    have he := hmore e List.mem_cons_self
    obtain ⟨hpause, hkeeps⟩ := @ih (events ++ [e]) fun x hx => hmore x (List.mem_cons_of_mem _ hx)
    rw [List.append_assoc, List.singleton_append] at hpause hkeeps
    constructor
    · rcases hpause with hover | hsame
      · exact .inl hover
      · rw [hsame, pauseAfter_snoc]
        exact Pause.after_quiet he
    · intro h
      apply hkeeps
      apply keepsPause_snoc h
      intro hentry
      cases e <;> cases he <;> cases hentry

/-! ## 2. Phases -/

/-- Where a program is in `restoreClone`, with its gate. -/
inductive RotationPhase where
  | outside
  | begun (gate : Nat)
  | registered (gate binding : Nat)
  | presented (gate : Nat)
  | opened (gate : Nat)
deriving DecidableEq

def RotationPhase.closes : RotationPhase → Option Nat
  | .begun gate => some gate
  | .registered gate _ => some gate
  | .presented gate => some gate
  | _ => none

/-- Where a program is in `sendLogEntryEnvelope`: it waits for a gate, or has passed it. -/
inductive SendPhase where
  | idle
  | waiting (gate : Nat)
  | passed

structure PausePhase where
  rotation : RotationPhase
  send : SendPhase

abbrev RotationPhase.idle (r : RotationPhase) : PausePhase := ⟨r, .idle⟩

open RotationPhase

namespace LogSyncCoordinator

structure Quiet (c c' : LogSyncCoordinator) : Prop where
  restoreCloneInFlight : c'.restoreCloneInFlight = c.restoreCloneInFlight
  rebinding : c'.rebinding = c.rebinding
  gates : c'.gates = c.gates
  openGates : c'.openGates = c.openGates
  binding : c.binding ≤ c'.binding
  events : ∃ more, c'.events = c.events ++ more ∧ ∀ e ∈ more, e.quiet = true

theorem Quiet.refl (c : LogSyncCoordinator) : Quiet c c :=
  ⟨rfl, rfl, rfl, rfl, Nat.le_refl _, [], by simp⟩

variable {c : LogSyncCoordinator} {α : Type} {q : PausePhase}

theorem Quiet.trans {c' c'' : LogSyncCoordinator} (h : Quiet c c') (h' : Quiet c' c'') :
    Quiet c c'' := by
  obtain ⟨more, hmore, hquiet⟩ := h.events
  obtain ⟨more', hmore', hquiet'⟩ := h'.events
  refine ⟨h'.1.trans h.1, h'.2.trans h.2, h'.3.trans h.3, h'.4.trans h.4, h.5.trans h'.5,
    more ++ more', ?_, ?_⟩
  · rw [hmore', hmore, List.append_assoc]
  intro e he
  rcases List.mem_append.mp he with he | he
  · exact hquiet e he
  · exact hquiet' e he

inductive PauseStep : PausePhase → CoordPoint → CoordInput → LogSyncCoordinator →
    LogSyncCoordinator → PausePhase → Prop where
  | quiet {q t i c c'} (h : Quiet c c') : PauseStep q t i c c' q
  | present {gate binding binding' t i c c'} (hle : binding ≤ binding') (h : Quiet c c')
      (hevents : c'.events = c.events ++ [.presented binding']) :
      PauseStep (registered gate binding).idle t i c c' (presented gate).idle
  | gateOpen {r : RotationPhase} {i c} (hr : r.closes = none) (hgate : c.rebinding = none) :
      PauseStep ⟨r, .idle⟩ .pauseGate i c c ⟨r, .passed⟩
  | gateClosed {r : RotationPhase} {i c} (gate : Nat) (hr : r.closes = none)
      (hgate : c.rebinding = some gate) : PauseStep ⟨r, .idle⟩ .pauseGate i c c ⟨r, .waiting gate⟩
  | resume {r i c} (gate : Nat) (hopen : gate ∈ c.openGates) :
      PauseStep ⟨r, .waiting gate⟩ (.rebinding gate) i c c ⟨r, .passed⟩
  | abandon {r i c} : PauseStep ⟨r, .passed⟩ .resolveRecipients i c c ⟨r, .idle⟩
  | send {r i c} (message : LogEntryEnvelope) (encoded : Option Bytes) :
      PauseStep ⟨r, .passed⟩ .sendLogEntry i c (c.send message encoded) ⟨r, .idle⟩
  | other {q i c} (docId : DocId) : PauseStep q .otherLogEntry i c (c.note (.otherLogEntry docId)) q
  | begin {i c} (h : c.restoreCloneInFlight = false) :
      PauseStep outside.idle .beginRestoreClone i c c.beginRestoreClone.2 (begun c.gates).idle
  | adopt {gate i c} (newDeviceId : DeviceId) :
      PauseStep (begun gate).idle .onWriteRejected i c (c.adopt newDeviceId).2
        (registered gate (c.binding + 1)).idle
  | openGate {gate i c} : PauseStep (presented gate).idle .openWritePauseGate i c
        (c.openWritePauseGate gate) (opened gate).idle
  | ended {r : RotationPhase} {gate i c} (hgate : r.closes = some gate ∨ r = .opened gate) :
      PauseStep r.idle .endRestoreClone i c (c.endRestoreClone gate) outside.idle

def pauseProtocol : Protocol CoordPoint CoordInput LogSyncCoordinator PausePhase where
  stands q t :=
    match q.send with
    | .idle => ∀ gate, t ≠ .rebinding gate
    | .waiting gate => t = .rebinding gate
    | .passed => t = .resolveRecipients ∨ t = .sendLogEntry
  may q c :=
    (q.rotation ≠ .outside → c.restoreCloneInFlight = true) ∧
      ∀ gate binding, q.rotation = .registered gate binding → binding ≤ c.binding
  step := PauseStep

abbrev Returns {α : Type} (q : PausePhase) (p : CoordProgram α) : Prop :=
  Obeys pauseProtocol (fun _ q' => q' = q) (fun _ q' => q' = q) p q

abbrev QuietCode {α : Type} (p : CoordProgram α) : Prop :=
  Steps (fun t => ∀ gate, t ≠ .rebinding gate) (fun _ _ => Quiet) p

variable {p : CoordProgram α}

theorem QuietCode.returns (h : QuietCode p) (r : RotationPhase) : Returns r.idle p :=
  h.obeys (fun _ ht => ht) fun _ _ _ _ hquiet _ => .quiet hquiet

theorem Returns.bind {β : Type} {f : α → CoordProgram β} {Q : β → PausePhase → Prop}
    {E : CoordError → PausePhase → Prop} (h : Returns q p) (hE : ∀ e, E e q)
    (hf : ∀ a, Obeys pauseProtocol Q E (f a) q) : Obeys pauseProtocol Q E (p.bind f) q := by
  apply obeys_bind
  apply h.mono
  · rintro a _ rfl
    exact hf a
  · rintro e _ rfl
    exact hE e

theorem Returns.seq {β : Type} {f : α → CoordProgram β} (h : Returns q p)
    (hf : ∀ a, Returns q (f a)) : Returns q (p.bind f) :=
  h.bind (fun _ => rfl) hf

theorem Returns.tryCatch {h : CoordError → CoordProgram α} (hp : Returns q p)
    (hh : ∀ e, Returns q (h e)) : Returns q (p.tryCatch h) := by
  apply obeys_tryCatch
  apply hp.mono
  · exact fun _ _ hq => hq
  · rintro e _ rfl
    exact hh e

theorem Returns.finallyDo {f : Option CoordError → CoordProgram Unit}
    (hp : Returns q p) (hf : ∀ e, Returns q (f e)) : Returns q (p.finallyDo f) := by
  apply obeys_finallyDo
  apply hp.mono
  · rintro a _ rfl
    exact hf none
  · rintro e _ rfl
    exact hf (some e)

/-! ## 3. Quiet code -/

theorem quiet_call {i : CoordInput} {c₁ c' : LogSyncCoordinator} {a : α} (h₁ : Quiet c c₁)
    (h' : Quiet c c') : Quiet c (i.call c₁ c' a).2 := by
  unfold CoordInput.call
  cases i.failure with
  | some failure => exact h₁
  | none => exact h'

theorem quiet_note {e : CoordEvent} (he : e.quiet = true) : Quiet c (c.note e) :=
  ⟨rfl, rfl, rfl, rfl, Nat.le_refl _, [e], rfl, by simpa using he⟩

section

variable {cfg : CoordConfig} {α : Type} {t : CoordPoint}

section

variable (ht : ∀ gate, t ≠ .rebinding gate)
include ht

theorem quiet_readCall (f : LogSyncCoordinator → α) : QuietCode (readCall t f) :=
  steps_atomic ht fun _ c => quiet_call (.refl c) (.refl c)

theorem quiet_storeCall (f : CoordInput → DocLogStore → DocLogStore) : QuietCode (storeCall t f) :=
  steps_atomic ht fun _ c =>
    quiet_call (.refl c) ⟨rfl, rfl, rfl, rfl, Nat.le_refl _, [], by simp [setStore]⟩

theorem quiet_query (f : CoordInput → LogSyncCoordinator → α) :
    QuietCode (query t f : CoordProgram α) :=
  steps_query ht fun _ c => .refl c

theorem quiet_awaitPromise (promise : Nat) : QuietCode (awaitPromise t promise) :=
  steps_await ht fun _ c _ => .refl c

end

theorem quiet_sync (p : SyncProgram α) : QuietCode (sync p) :=
  steps_adapt (steps_true p) (fun _ _ _ h => nomatch h) fun _ _ _ _ _ =>
    ⟨rfl, rfl, rfl, rfl, Nat.le_refl _, [], by simp [syncPart]⟩

theorem quiet_enqueueControlFrame (frame : CoordFrame) : QuietCode (enqueueControlFrame frame) := by
  apply steps_bind
  · exact steps_atomic nofun fun _ c => ⟨rfl, rfl, rfl, rfl, Nat.le_refl _, [], by simp [enqueue]⟩
  rintro ⟨own, before⟩
  apply steps_bind (steps_await nofun fun _ c _ => .refl c)
  intro binding
  apply steps_atomic nofun
  intro i c
  have hsettled : Quiet c (c.settle own none) :=
    ⟨rfl, rfl, rfl, rfl, Nat.le_refl _, [], by simp [settle]⟩
  apply quiet_call hsettled
  split
  · exact hsettled.trans (quiet_note rfl)
  · exact hsettled

theorem quiet_dispositionForError (err : CoordError) : QuietCode (dispositionForError cfg err) := by
  apply steps_atomic nofun
  intro i c
  split
  · split
    · exact .refl c
    · exact .refl c
  · exact .refl c

theorem quiet_presentCapabilityWithRetry (attempts : Nat) (lastError : CoordError) :
    QuietCode (presentCapabilityWithRetry cfg attempts lastError) := by
  induction attempts generalizing lastError with
  | zero => trivial
  | succ attempts ih =>
    apply steps_bind (quiet_readCall (by simp) _)
    intro _
    apply steps_tryCatch (quiet_enqueueControlFrame _)
    intro err
    apply steps_bind (quiet_dispositionForError err)
    intro disposition
    split
    · exact ih err
    · trivial

theorem quiet_presentCapability : QuietCode (presentCapability cfg) :=
  quiet_presentCapabilityWithRetry 3 _

theorem quiet_spaceRegister : QuietCode (spaceRegister cfg) := by
  unfold spaceRegister
  split
  · apply steps_tryCatch (quiet_readCall (by simp) _)
    intro err
    exact steps_bind (quiet_dispositionForError err) fun _ => trivial
  · trivial

theorem quiet_requestSyncPage (localHeads : HeadsRecord) :
    QuietCode (requestSyncPage cfg localHeads) := by
  apply steps_bind
  · exact steps_atomic nofun fun _ c => ⟨rfl, rfl, rfl, rfl, Nat.le_refl _, [], by simp⟩
  intro requestId
  have hdropped (c : LogSyncCoordinator) :
      Quiet c { c with pendingSyncRequests := c.pendingSyncRequests.erase requestId } :=
    ⟨rfl, rfl, rfl, rfl, Nat.le_refl _, [], by simp⟩
  apply steps_bind
  · apply steps_atomic nofun
    intro i c
    dsimp only
    split
    · exact hdropped c
    · exact (hdropped c).trans (quiet_note rfl)
    · exact .refl c
  intro sent
  cases sent with
  | some answer => trivial
  | none =>
    apply steps_atomic nofun
    intro i c
    dsimp only
    split
    · split
      · exact (hdropped c).trans (quiet_note rfl)
      · exact hdropped c
    · exact hdropped c

theorem quiet_applyPage (thid : Nat) (response : SyncResponse) :
    QuietCode (applyPage cfg thid response) := by
  apply steps_bind (quiet_sync _)
  intro page
  apply steps_bind (steps_mutate nofun fun _ c => quiet_note rfl)
  exact fun _ => trivial

theorem quiet_computeRestoreDisposition (firstPage restoreRequired : Bool) (thid : Nat)
    (response : SyncResponse) :
    QuietCode (computeRestoreDisposition cfg firstPage restoreRequired thid response) := by
  unfold computeRestoreDisposition
  split
  · apply steps_bind (quiet_query (by simp) _)
    intro deviceId
    exact steps_atomic nofun fun _ c => quiet_call (.refl c) (quiet_note rfl)
  · trivial

theorem quiet_classifyPage {truncated strictAdvanced effectiveCursorAdvanced : Bool}
    {page : PageProgress} {restoreRequired : Bool} {continuePagination : CoordProgram CatchUpResult}
    (h : QuietCode continuePagination) :
    QuietCode (classifyPage cfg truncated strictAdvanced effectiveCursorAdvanced page
      restoreRequired continuePagination) := by
  unfold classifyPage
  split
  · exact steps_bind (quiet_sync _) fun _ => trivial
  split
  · exact h
  split
  · exact steps_bind (quiet_sync _) fun _ => trivial
  · split <;> trivial

theorem quiet_catchUpPages (pages : Nat) (firstPage restoreRequired : Bool) :
    QuietCode (catchUpPages cfg pages firstPage restoreRequired) := by
  induction pages generalizing firstPage restoreRequired with
  | zero => trivial
  | succ pages ih =>
    apply steps_bind (quiet_sync _)
    intro strictBefore
    apply steps_bind (quiet_sync _)
    intro wireHeads
    apply steps_bind (quiet_requestSyncPage _)
    intro answer
    match answer with
    | none => trivial
    | some (thid, response) =>
      apply steps_bind (quiet_computeRestoreDisposition _ _ _ _)
      intro restoreRequired
      apply steps_bind (quiet_applyPage _ _)
      intro page
      apply steps_bind (quiet_sync _)
      intro strictAfter
      apply steps_bind (quiet_sync _)
      intro _
      apply steps_bind (quiet_sync _)
      intro wireAfter
      exact quiet_classifyPage (ih false restoreRequired)

theorem quiet_catchUpInternal (presentCapabilityFirst : Bool) (pages : Nat) :
    QuietCode (catchUpInternal cfg presentCapabilityFirst pages) := by
  unfold catchUpInternal
  split
  · exact steps_bind quiet_presentCapability fun _ => quiet_catchUpPages pages true false
  · exact quiet_catchUpPages pages true false

theorem quiet_repairPages (gap : GapRepair) (pages : Nat) (repairHeads : HeadsRecord) :
    QuietCode (repairPages cfg gap pages repairHeads) := by
  induction pages generalizing repairHeads with
  | zero => trivial
  | succ pages ih =>
    apply steps_bind (quiet_requestSyncPage _)
    intro answer
    match answer with
    | none => trivial
    | some (thid, response) =>
      apply steps_bind (quiet_applyPage _ _)
      intro page
      dsimp only
      split
      · trivial
      · exact ih _

theorem quiet_driveGapRepairs : QuietCode (driveGapRepairs cfg) := by
  apply steps_bind (steps_atomic nofun fun _ c => quiet_call (.refl c) (.refl c))
  rintro ⟨now, due⟩
  apply steps_bind (quiet_readCall (by simp) _)
  intro known
  apply steps_forEach
  intro gap _
  unfold repairGap
  split
  · trivial
  · exact steps_bind (quiet_repairPages _ _ _) fun _ => quiet_storeCall (by simp) _

end

end LogSyncCoordinator

end WebOfTrust
